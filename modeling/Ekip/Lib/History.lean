import Mathlib.Data.List.Destutter
import Mathlib.Data.List.MinMax

/-!
# Histories of numbered versions

An item is observed again and again. Only an observation that differs from the one
before is a new version, and the versions are numbered from one in their order, so
that the row under the highest number is the last.
-/
namespace Ekip.Lib.History

variable {α ρ : Type}

/-! ## What changed -/

section changes

variable [DecidableEq α]

/-- The observations without those that repeat their predecessor. -/
def changes (observed : List α) : List α := observed.destutter (· ≠ ·)

theorem destutter'_concat (a b : α) (rest : List α) :
    (rest ++ [b]).destutter' (· ≠ ·) a =
      if (a :: rest).getLast? = some b then rest.destutter' (· ≠ ·) a
      else rest.destutter' (· ≠ ·) a ++ [b] := by
  induction rest generalizing a with
  | nil =>
    by_cases h : a = b
    · simp [h]
    · simp [h]
  | cons c rest ih =>
    rw [List.cons_append, List.getLast?_cons_cons]
    by_cases h : a = c
    · subst h
      rw [List.destutter'_cons_neg _ (by simp), List.destutter'_cons_neg _ (by simp)]
      exact ih a
    · rw [List.destutter'_cons_pos _ h, List.destutter'_cons_pos _ h, ih c]
      split <;> rfl

theorem changes_concat (observed : List α) (b : α) :
    changes (observed ++ [b]) =
      if observed.getLast? = some b then changes observed else changes observed ++ [b] := by
  cases observed with
  | nil => simp [changes]
  | cons a rest => exact destutter'_concat a b rest

theorem getLast?_changes (observed : List α) : (changes observed).getLast? = observed.getLast? := by
  induction observed using List.reverseRecOn with
  | nil => rfl
  | append_singleton rest b ih =>
    rw [changes_concat, List.getLast?_concat]
    by_cases h : rest.getLast? = some b
    · rw [if_pos h, ih, h]
    · rw [if_neg h, List.getLast?_concat]

/-- A history is free of returns until a change brings back an earlier version. -/
theorem nodup_changes_concat {observed : List α} {b : α} (h : (changes observed).Nodup) :
    (changes (observed ++ [b])).Nodup ↔ observed.getLast? = some b ∨ b ∉ changes observed := by
  rw [changes_concat]
  by_cases hsame : observed.getLast? = some b
  · rw [if_pos hsame]
    exact ⟨fun _ => .inl hsame, fun _ => h⟩
  · rw [if_neg hsame, List.nodup_append]
    constructor
    · intro hnodup
      refine .inr ?_
      intro hb
      exact hnodup.2.2 b hb b (List.mem_singleton_self b) rfl
    · intro hnew
      refine ⟨h, List.nodup_singleton b, ?_⟩
      intro a ha c hc heq
      rw [List.mem_singleton.mp hc] at heq
      rw [heq] at ha
      exact (hnew.resolve_left hsame) ha

theorem nodup_changes_of_append {observed later : List α}
    (h : (changes (observed ++ later)).Nodup) : (changes observed).Nodup := by
  induction later using List.reverseRecOn with
  | nil => simpa using h
  | append_singleton later b ih =>
    apply ih
    rw [← List.append_assoc, changes_concat] at h
    split at h
    · exact h
    · exact (List.nodup_append.mp h).1

end changes

/-! ## Numbered rows -/

/-- The versions of the rows are 1, 2, 3, … -/
def Numbered (version : ρ → Nat) (rows : List ρ) : Prop :=
  rows.map version = List.range' 1 rows.length

variable {version : ρ → Nat} {rows : List ρ} {row : ρ}

theorem Numbered.nil : Numbered version ([] : List ρ) := rfl

theorem Numbered.concat (h : Numbered version rows) (hrow : version row = rows.length + 1) :
    Numbered version (rows ++ [row]) := by
  unfold Numbered at *
  rw [List.map_append, h, List.length_append, List.length_singleton, List.range'_concat,
    List.map_singleton, hrow]
  simp [Nat.add_comm]

theorem Numbered.init (h : Numbered version (rows ++ [row])) :
    Numbered version rows ∧ version row = rows.length + 1 := by
  unfold Numbered at *
  rw [List.map_append, List.length_append, List.length_singleton, List.range'_concat,
    List.map_singleton] at h
  obtain ⟨hrows, hrow⟩ := List.append_inj' h rfl
  refine ⟨hrows, ?_⟩
  have hlast : version row = 1 + 1 * rows.length := by simpa using hrow
  omega

theorem Numbered.version_le (h : Numbered version rows) (hrow : row ∈ rows) :
    version row ≤ rows.length := by
  have hmem : version row ∈ rows.map version := List.mem_map_of_mem hrow
  rw [h, List.mem_range'_1] at hmem
  omega

/-- The row with the highest version is the last one. -/
theorem Numbered.argmax (h : Numbered version rows) : rows.argmax version = rows.getLast? := by
  induction rows using List.reverseRecOn with
  | nil => rfl
  | append_singleton rows row ih =>
    obtain ⟨hrows, hrow⟩ := h.init
    rw [List.argmax_concat, ih hrows, List.getLast?_concat]
    cases hlast : rows.getLast? with
    | none => rfl
    | some last =>
      have hle := hrows.version_le (List.mem_of_getLast? hlast)
      have hlt : version last < version row := by omega
      exact if_pos hlt

theorem Numbered.next (h : Numbered version rows) :
    (rows.argmax version).elim 1 (fun latest => version latest + 1) = rows.length + 1 := by
  rw [h.argmax]
  cases rows using List.reverseRecOn with
  | nil => rfl
  | append_singleton rows row =>
    obtain ⟨-, hrow⟩ := h.init
    rw [List.getLast?_concat]
    simp [hrow]

end Ekip.Lib.History
