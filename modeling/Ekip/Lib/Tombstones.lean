import Mathlib.Data.Set.Insert
import Ekip.Lib.Table

/-!
# Tables whose rows are buried, not deleted

A row has an id and a logical key. Writing a fact inserts a row under its key, or
digs up the row that is buried there; taking a fact back buries rows. What the table
says is the set of the keys of its live rows.
-/
namespace Ekip.Lib

/-- How the rows of such a table are read and written: `overwrite new old` is the old
row, dug up with the columns of the new one. -/
structure Tombstones (ρ κ ι : Type) where
  key : ρ → κ
  id : ρ → ι
  live : ρ → Bool
  overwrite : ρ → ρ → ρ
  bury : ρ → ρ
  key_overwrite : ∀ new old, key (overwrite new old) = key old
  id_overwrite : ∀ new old, id (overwrite new old) = id old
  live_overwrite : ∀ new old, live (overwrite new old) = true
  key_bury : ∀ row, key (bury row) = key row
  id_bury : ∀ row, id (bury row) = id row
  live_bury : ∀ row, live (bury row) = false

namespace Tombstones

variable {ρ κ ι : Type} (T : Tombstones ρ κ ι)

/-- What the table says. -/
def liveKeys (t : List ρ) : Set κ := {k | ∃ row ∈ t, T.live row = true ∧ T.key row = k}

def keys (t : List ρ) : Set κ := {k | ∃ row ∈ t, T.key row = k}

/-- Ids and keys are those of one row each. -/
structure Sound (t : List ρ) : Prop where
  ids : Table.KeyUnique T.id t
  keys : Table.KeyUnique T.key t

/-- Bury the live rows among those that satisfy `p`. -/
def retire (p : ρ → Bool) (t : List ρ) : List ρ :=
  Table.updateWhere t (fun row => p row && T.live row) T.bury

theorem sound_nil : T.Sound [] where
  ids := Table.keyUnique_nil
  keys := Table.keyUnique_nil

/-! ## Burying rows -/

variable {T} {t : List ρ} {p : ρ → Bool}

theorem Sound.retire (h : T.Sound t) : T.Sound (T.retire p t) where
  ids := Table.keyUnique_updateWhere h.ids fun row _ => T.id_bury row
  keys := Table.keyUnique_updateWhere h.keys fun row _ => T.key_bury row

/-- A row of the result is a row of the table, buried if it was to be. -/
theorem mem_retire {row : ρ} : row ∈ T.retire p t ↔
    ∃ old ∈ t, (if (p old && T.live old) = true then T.bury old else old) = row :=
  Table.mem_updateWhere

theorem keys_retire : T.keys (T.retire p t) = T.keys t := by
  ext k
  constructor
  · intro h
    obtain ⟨row, hrow, hkey⟩ := h
    obtain ⟨old, hold, rfl⟩ := mem_retire.mp hrow
    refine ⟨old, hold, ?_⟩
    by_cases hp : (p old && T.live old) = true
    · rwa [if_pos hp, T.key_bury] at hkey
    · rwa [if_neg hp] at hkey
  · intro h
    obtain ⟨old, hold, hkey⟩ := h
    refine ⟨_, mem_retire.mpr ⟨old, hold, rfl⟩, ?_⟩
    by_cases hp : (p old && T.live old) = true
    · rwa [if_pos hp, T.key_bury]
    · rwa [if_neg hp]

theorem mem_liveKeys_retire {k : κ} : k ∈ T.liveKeys (T.retire p t) ↔
    ∃ row ∈ t, T.live row = true ∧ T.key row = k ∧ p row = false := by
  constructor
  · intro h
    obtain ⟨row, hrow, hlive, hkey⟩ := h
    obtain ⟨old, hold, rfl⟩ := mem_retire.mp hrow
    by_cases hp : (p old && T.live old) = true
    · rw [if_pos hp, T.live_bury] at hlive
      cases hlive
    · rw [if_neg hp] at hlive hkey
      refine ⟨old, hold, hlive, hkey, ?_⟩
      rw [hlive, Bool.and_true] at hp
      exact Bool.eq_false_iff.mpr hp
  · intro h
    obtain ⟨row, hrow, hlive, hkey, hp⟩ := h
    have hkeep : ¬ (p row && T.live row) = true := by
      rw [hp]
      exact Bool.false_ne_true
    exact ⟨row, mem_retire.mpr ⟨row, hrow, if_neg hkeep⟩, hlive, hkey⟩

/-- Burying the row under one id takes back its key, and that key alone. -/
theorem liveKeys_retire_id [DecidableEq ι] (h : T.Sound t) {row : ρ}
    (hrow : ∃ held ∈ t, T.id held = T.id row ∧ T.key held = T.key row) :
    T.liveKeys (T.retire (fun other => T.id other = T.id row) t) = T.liveKeys t \ {T.key row} := by
  obtain ⟨held, hheld, hid, hkey⟩ := hrow
  ext k
  rw [mem_liveKeys_retire]
  constructor
  · intro hk
    obtain ⟨other, hother, hlive, rfl, hne⟩ := hk
    refine ⟨⟨other, hother, hlive, rfl⟩, ?_⟩
    intro hsame
    have heq := h.keys other hother held hheld (Eq.trans hsame hkey.symm)
    rw [heq] at hne
    exact of_decide_eq_false hne hid
  · intro hk
    obtain ⟨⟨other, hother, hlive, rfl⟩, hne⟩ := hk
    refine ⟨other, hother, hlive, rfl, decide_eq_false ?_⟩
    intro hsame
    have heq := h.ids other hother held hheld (hsame.trans hid.symm)
    exact hne (heq ▸ hkey)

/-! ## Writing a fact -/

section Put

variable [DecidableEq κ] [DecidableEq ι]

variable (T) in
/-- Insert the row, dig up the one that is there, or leave that alone. -/
def put (t : List ρ) (row : ρ) : List ρ :=
  match Table.get? T.key t (T.key row) with
  | none => t ++ [row]
  | some old =>
    if T.live old = true then t
    else Table.updateWhere t (fun other => T.id other = T.id old) (T.overwrite row)

variable {row old : ρ}

theorem put_new (h : Table.get? T.key t (T.key row) = none) : T.put t row = t ++ [row] := by
  unfold put
  rw [h]

theorem put_kept (h : Table.get? T.key t (T.key row) = some old) (hlive : T.live old = true) :
    T.put t row = t := by
  unfold put
  rw [h]
  exact if_pos hlive

theorem put_buried (h : Table.get? T.key t (T.key row) = some old) (hlive : ¬ T.live old = true) :
    T.put t row =
      Table.updateWhere t (fun other => T.id other = T.id old) (T.overwrite row) := by
  unfold put
  rw [h]
  exact if_neg hlive

theorem Sound.put (h : T.Sound t)
    (hfresh : T.key row ∉ T.keys t → ∀ other ∈ t, T.id other ≠ T.id row) :
    T.Sound (T.put t row) := by
  cases hfound : Table.get? T.key t (T.key row) with
  | none =>
    have hnone := Table.get?_none_iff.mp hfound
    have hnew : T.key row ∉ T.keys t := by
      intro hk
      obtain ⟨other, hother, hkey⟩ := hk
      exact hnone other hother hkey
    rw [put_new hfound]
    exact ⟨Table.keyUnique_append h.ids (hfresh hnew), Table.keyUnique_append h.keys hnone⟩
  | some old =>
    by_cases hlive : T.live old = true
    · rw [put_kept hfound hlive]
      exact h
    · rw [put_buried hfound hlive]
      exact ⟨Table.keyUnique_updateWhere h.ids fun other _ => T.id_overwrite row other,
        Table.keyUnique_updateWhere h.keys fun other _ => T.key_overwrite row other⟩

theorem mem_put {other : ρ} (h : other ∈ T.put t row) :
    other = row ∨ other ∈ t ∨ ∃ old ∈ t, other = T.overwrite row old := by
  cases hfound : Table.get? T.key t (T.key row) with
  | none =>
    rw [put_new hfound] at h
    rcases List.mem_append.mp h with hold | hnew
    · exact .inr (.inl hold)
    · exact .inl (List.mem_singleton.mp hnew)
  | some old =>
    by_cases hlive : T.live old = true
    · rw [put_kept hfound hlive] at h
      exact .inr (.inl h)
    · rw [put_buried hfound hlive] at h
      obtain ⟨was, hwas, rfl⟩ := Table.mem_updateWhere.mp h
      by_cases hid : decide (T.id was = T.id old) = true
      · rw [if_pos hid]
        exact .inr (.inr ⟨was, hwas, rfl⟩)
      · rw [if_neg hid]
        exact .inr (.inl hwas)

theorem keys_put : T.keys (T.put t row) = insert (T.key row) (T.keys t) := by
  ext k
  constructor
  · intro h
    obtain ⟨other, hother, rfl⟩ := h
    rcases mem_put hother with rfl | hold | ⟨old, hold, rfl⟩
    · exact Set.mem_insert _ _
    · exact Set.mem_insert_of_mem _ ⟨other, hold, rfl⟩
    · exact Set.mem_insert_of_mem _ ⟨old, hold, (T.key_overwrite row old).symm⟩
  · intro h
    cases hfound : Table.get? T.key t (T.key row) with
    | none =>
      rw [put_new hfound]
      rcases h with rfl | ⟨other, hother, rfl⟩
      · exact ⟨row, List.mem_append_right _ (List.mem_singleton_self row), rfl⟩
      · exact ⟨other, List.mem_append_left _ hother, rfl⟩
    | some old =>
      obtain ⟨hold, hkey⟩ := Table.get?_some hfound
      have hin : k ∈ T.keys t := by
        rcases h with rfl | hin
        · exact ⟨old, hold, hkey⟩
        · exact hin
      by_cases hlive : T.live old = true
      · rw [put_kept hfound hlive]
        exact hin
      · rw [put_buried hfound hlive]
        obtain ⟨other, hother, rfl⟩ := hin
        refine ⟨_, Table.mem_updateWhere.mpr ⟨other, hother, rfl⟩, ?_⟩
        by_cases hid : decide (T.id other = T.id old) = true
        · rw [if_pos hid, T.key_overwrite]
        · rw [if_neg hid]

/-- Afterwards the table says the fact, and what it said before. -/
theorem liveKeys_put (h : T.Sound t) (hrow : T.live row = true) :
    T.liveKeys (T.put t row) = insert (T.key row) (T.liveKeys t) := by
  cases hfound : Table.get? T.key t (T.key row) with
  | none =>
    rw [put_new hfound]
    ext k
    constructor
    · intro hk
      obtain ⟨other, hother, hlive, rfl⟩ := hk
      rcases List.mem_append.mp hother with hold | hnew
      · exact Set.mem_insert_of_mem _ ⟨other, hold, hlive, rfl⟩
      · rw [List.mem_singleton.mp hnew]
        exact Set.mem_insert _ _
    · intro hk
      rcases hk with rfl | ⟨other, hother, hlive, rfl⟩
      · exact ⟨row, List.mem_append_right _ (List.mem_singleton_self row), hrow, rfl⟩
      · exact ⟨other, List.mem_append_left _ hother, hlive, rfl⟩
  | some old =>
    obtain ⟨hold, hkey⟩ := Table.get?_some hfound
    by_cases hlive : T.live old = true
    · have hin : T.key old ∈ T.liveKeys t := ⟨old, hold, hlive, rfl⟩
      rw [put_kept hfound hlive, ← hkey]
      exact (Set.insert_eq_of_mem hin).symm
    · rw [put_buried hfound hlive, ← hkey]
      ext k
      constructor
      · intro hk
        obtain ⟨other, hother, hup, rfl⟩ := hk
        obtain ⟨was, hwas, rfl⟩ := Table.mem_updateWhere.mp hother
        by_cases hid : decide (T.id was = T.id old) = true
        · rw [if_pos hid, T.key_overwrite, h.ids was hwas old hold (of_decide_eq_true hid)]
          exact Set.mem_insert _ _
        · rw [if_neg hid] at hup ⊢
          exact Set.mem_insert_of_mem _ ⟨was, hwas, hup, rfl⟩
      · intro hk
        rcases hk with rfl | ⟨other, hother, hup, rfl⟩
        · refine ⟨_, Table.mem_updateWhere.mpr ⟨old, hold, rfl⟩, ?_, ?_⟩
          · rw [if_pos (decide_eq_true rfl), T.live_overwrite]
          · rw [if_pos (decide_eq_true rfl), T.key_overwrite]
        · have hid : ¬ decide (T.id other = T.id old) = true := by
            intro hsame
            rw [h.ids other hother old hold (of_decide_eq_true hsame)] at hup
            exact hlive hup
          exact ⟨other, Table.mem_updateWhere.mpr ⟨other, hother, if_neg hid⟩, hup, rfl⟩

end Put

end Tombstones

end Ekip.Lib
