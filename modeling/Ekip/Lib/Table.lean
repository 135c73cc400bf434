import Mathlib.Data.List.Nodup

/-!
# Tables as unordered lists of rows under a key

A table is a list of rows; a query that names no order may return them in any
order, so nothing below relies on the position of a row. `KeyUnique` is the
primary key constraint. `upsert` writes one row image, `updateWhere` is an
`UPDATE … WHERE`.
-/
namespace Ekip.Lib.Table

variable {ρ κ : Type} {key : ρ → κ} {t : List ρ}

/-- At most one row under each key. -/
def KeyUnique (key : ρ → κ) (t : List ρ) : Prop :=
  ∀ r ∈ t, ∀ r' ∈ t, key r = key r' → r = r'

/-- The row under `k`. -/
def get? [DecidableEq κ] (key : ρ → κ) (t : List ρ) (k : κ) : Option ρ :=
  t.find? fun r => key r = k

/-- Replace the row under the key of `r`, or add it. -/
def upsert [DecidableEq κ] (key : ρ → κ) (t : List ρ) (r : ρ) : List ρ :=
  t.filter (fun r' => key r' ≠ key r) ++ [r]

/-- Apply `f` to the rows that satisfy `p`. -/
def updateWhere (t : List ρ) (p : ρ → Bool) (f : ρ → ρ) : List ρ :=
  t.map fun r => if p r then f r else r

@[simp] theorem mem_updateWhere {p : ρ → Bool} {f : ρ → ρ} {r : ρ} :
    r ∈ updateWhere t p f ↔ ∃ r' ∈ t, (if p r' then f r' else r') = r := by
  simp [updateWhere]

/-! ## What a filter sees of a write -/

/-- Deleting rows that a filter drops anyway does not show through it. -/
theorem filter_deleteWhere {p seen : ρ → Bool} (h : ∀ r ∈ t, p r = true → seen r = false) :
    (t.filter fun r => !p r).filter seen = t.filter seen := by
  rw [List.filter_filter]
  refine List.filter_congr fun r hr => ?_
  by_cases hp : p r = true
  · simp [hp, h r hr hp]
  · simp [hp]

/-- Nor does an update of such rows, if the filter drops what becomes of them. -/
theorem filter_updateWhere {p seen : ρ → Bool} {f : ρ → ρ}
    (h : ∀ r ∈ t, p r = true → seen r = false ∧ seen (f r) = false) :
    (updateWhere t p f).filter seen = t.filter seen := by
  induction t with
  | nil => rfl
  | cons r t ih =>
    have htail := ih fun r' hr' => h r' (List.mem_cons_of_mem _ hr')
    unfold updateWhere at htail ⊢
    rw [List.map_cons, List.filter_cons, List.filter_cons, htail]
    by_cases hp : p r = true
    · obtain ⟨hold, hnew⟩ := h r List.mem_cons_self hp
      rw [if_pos hp, hold, hnew]
      rfl
    · rw [if_neg hp]

/-- An update that finds no row, or changes none, is the identity. -/
theorem updateWhere_of_fixed {p : ρ → Bool} {f : ρ → ρ} (h : ∀ r ∈ t, p r = true → f r = r) :
    updateWhere t p f = t := by
  unfold updateWhere
  refine (List.map_congr_left fun r hr => ?_).trans (List.map_id t)
  by_cases hp : p r = true
  · rw [if_pos hp, h r hr hp]
    rfl
  · rw [if_neg hp]
    rfl

theorem deleteWhere_of_none {p : ρ → Bool} (h : ∀ r ∈ t, p r = false) :
    (t.filter fun r => !p r) = t := by
  refine List.filter_eq_self.mpr fun r hr => ?_
  simp [h r hr]

theorem keyUnique_nil : KeyUnique key ([] : List ρ) := by
  intro r hr
  cases hr

theorem keyUnique_singleton (r : ρ) : KeyUnique key [r] := by
  intro a ha b hb _
  rw [List.mem_singleton.mp ha, List.mem_singleton.mp hb]

/-- Where the list itself says that no key stands in it twice. -/
theorem keyUnique_of_nodup (h : (t.map key).Nodup) : KeyUnique key t := by
  intro r hr r' hr' heq
  exact List.inj_on_of_nodup_map h hr hr' heq

theorem countP_le_one [DecidableEq κ] (h : (t.map key).Nodup) (k : κ) :
    (t.countP fun r => key r = k) ≤ 1 := by
  have hcount : (t.map key).count k = t.countP fun r => key r = k := by
    unfold List.count
    rw [List.countP_map]
    refine List.countP_congr fun r _ => ?_
    simp
  rw [← hcount]
  exact List.nodup_iff_count_le_one.mp h k

theorem nodup_keys_append (h : (t.map key).Nodup) {r : ρ} (hr : ∀ r' ∈ t, key r' ≠ key r) :
    ((t ++ [r]).map key).Nodup := by
  rw [List.map_append]
  refine List.nodup_append.mpr ⟨h, List.nodup_singleton _, ?_⟩
  intro k hk k' hk' heq
  obtain ⟨r', hr', rfl⟩ := List.mem_map.mp hk
  rw [List.map_singleton, List.mem_singleton] at hk'
  exact hr r' hr' (heq.trans hk')

theorem map_key_updateWhere {p : ρ → Bool} {f : ρ → ρ} (hf : ∀ r, key (f r) = key r) :
    (updateWhere t p f).map key = t.map key := by
  unfold updateWhere
  rw [List.map_map]
  refine List.map_congr_left fun r _ => ?_
  show key (if p r = true then f r else r) = key r
  by_cases hp : p r = true
  · rw [if_pos hp, hf]
  · rw [if_neg hp]

/-- Inserting a row whose key is new keeps the primary key constraint. -/
theorem keyUnique_append (hu : KeyUnique key t) {r : ρ} (hr : ∀ r' ∈ t, key r' ≠ key r) :
    KeyUnique key (t ++ [r]) := by
  intro a ha b hb hab
  simp only [List.mem_append, List.mem_singleton] at ha hb
  rcases ha with ha | rfl <;> rcases hb with hb | rfl
  · exact hu a ha b hb hab
  · exact absurd hab (hr a ha)
  · exact absurd hab.symm (hr b hb)
  · rfl

/-- An update that does not touch the key of what it finds keeps the primary key
constraint. -/
theorem keyUnique_updateWhere_of_matching (hu : KeyUnique key t) {p : ρ → Bool} {f : ρ → ρ}
    (hf : ∀ r ∈ t, p r = true → key (f r) = key r) : KeyUnique key (updateWhere t p f) := by
  have hkey : ∀ r ∈ t, key (if p r then f r else r) = key r := by
    intro r hr
    by_cases hp : p r = true
    · rw [if_pos hp, hf r hr hp]
    · rw [if_neg hp]
  intro a ha b hb hab
  obtain ⟨a', ha', rfl⟩ := mem_updateWhere.mp ha
  obtain ⟨b', hb', rfl⟩ := mem_updateWhere.mp hb
  rw [hkey a' ha', hkey b' hb'] at hab
  rw [hu a' ha' b' hb' hab]

theorem keyUnique_updateWhere (hu : KeyUnique key t) {p : ρ → Bool} {f : ρ → ρ}
    (hf : ∀ r ∈ t, key (f r) = key r) : KeyUnique key (updateWhere t p f) :=
  keyUnique_updateWhere_of_matching hu fun r hr _ => hf r hr

variable [DecidableEq κ]

theorem get?_some {k : κ} {r : ρ} (h : get? key t k = some r) : r ∈ t ∧ key r = k :=
  ⟨List.mem_of_find?_eq_some h, by simpa using List.find?_some h⟩

theorem get?_none_iff {k : κ} : get? key t k = none ↔ ∀ r ∈ t, key r ≠ k := by
  simp [get?, List.find?_eq_none]

theorem get?_of_mem (hu : KeyUnique key t) {r : ρ} (hr : r ∈ t) : get? key t (key r) = some r := by
  cases h : get? key t (key r) with
  | none => exact absurd rfl (get?_none_iff.mp h r hr)
  | some r' =>
    obtain ⟨hr', hk⟩ := get?_some h
    rw [hu r' hr' r hr hk]

theorem get?_eq_some_iff (hu : KeyUnique key t) {k : κ} {r : ρ} :
    get? key t k = some r ↔ r ∈ t ∧ key r = k := by
  refine ⟨get?_some, ?_⟩
  rintro ⟨hr, rfl⟩
  exact get?_of_mem hu hr

/-- A lookup whose result must pass a test looks the key up among the rows that do. -/
theorem filter_get? (hu : KeyUnique key t) (k : κ) (p : ρ → Bool) :
    (get? key t k).filter p = get? key (t.filter p) k := by
  cases hfound : get? key t k with
  | none =>
    have hnone := get?_none_iff.mp hfound
    exact (get?_none_iff.mpr fun r hr => hnone r (List.mem_of_mem_filter hr)).symm
  | some r =>
    obtain ⟨hr, hk⟩ := get?_some hfound
    have hfiltered : KeyUnique key (t.filter p) := fun a ha b hb =>
      hu a (List.mem_of_mem_filter ha) b (List.mem_of_mem_filter hb)
    by_cases hp : p r = true
    · have hmem := (get?_eq_some_iff hfiltered).mpr ⟨List.mem_filter.mpr ⟨hr, hp⟩, hk⟩
      rw [hmem]
      simp [hp]
    · have hmissing : get? key (t.filter p) k = none := by
        refine get?_none_iff.mpr fun r' hr' hk' => ?_
        obtain ⟨hmem, hp'⟩ := List.mem_filter.mp hr'
        rw [hu r' hmem r hr (hk'.trans hk.symm)] at hp'
        exact hp hp'
      rw [hmissing]
      simp [hp]

/-- An update of the row under `k` that leaves its key alone. -/
theorem get?_updateWhere_of_matching {f : ρ → ρ} {k : κ} (hf : ∀ r, key r = k → key (f r) = k) :
    get? key (updateWhere t (fun r => key r = k) f) k = (get? key t k).map f := by
  unfold get? updateWhere
  rw [List.find?_map]
  have hsame : ((fun r => decide (key r = k)) ∘ fun r => if decide (key r = k) = true then f r else r) =
      fun r => decide (key r = k) := by
    funext r
    by_cases hr : key r = k
    · simp [hr, hf]
    · simp [hr]
  rw [hsame]
  cases hfind : t.find? fun r => decide (key r = k) with
  | none => rfl
  | some r =>
    have hr := List.find?_some hfind
    simp only [Option.map_some, hr, if_true]

theorem get?_updateWhere {f : ρ → ρ} (hf : ∀ r, key (f r) = key r) (k : κ) :
    get? key (updateWhere t (fun r => key r = k) f) k = (get? key t k).map f :=
  get?_updateWhere_of_matching fun r hr => (hf r).trans hr

/-- A row under another key is what it was. -/
theorem get?_updateWhere_of_ne {f : ρ → ρ} {k k' : κ} (hne : k' ≠ k)
    (hf : ∀ r, key r = k → key (f r) = k) :
    get? key (updateWhere t (fun r => key r = k) f) k' = get? key t k' := by
  unfold get? updateWhere
  rw [List.find?_map]
  have hsame : ((fun r => decide (key r = k')) ∘ fun r => if decide (key r = k) = true then f r else r) =
      fun r => decide (key r = k') := by
    funext r
    by_cases hr : key r = k
    · simp [hr, hf, Ne.symm hne]
    · simp [hr]
  rw [hsame]
  cases hfind : t.find? fun r => decide (key r = k') with
  | none => rfl
  | some r =>
    have hr : key r = k' := of_decide_eq_true (List.find?_some (p := fun r => decide (key r = k')) hfind)
    have hother : key r ≠ k := by
      rw [hr]
      exact hne
    simp [hother]

@[simp] theorem mem_upsert {r r' : ρ} :
    r' ∈ upsert key t r ↔ r' = r ∨ (r' ∈ t ∧ key r' ≠ key r) := by
  simp [upsert, or_comm]

@[simp] theorem get?_upsert_self (r : ρ) : get? key (upsert key t r) (key r) = some r := by
  have hold : (t.filter fun r' => key r' ≠ key r).find? (fun r' => key r' = key r) = none := by
    simp [List.find?_eq_none]
  unfold get? upsert
  rw [List.find?_append, hold]
  simp

theorem get?_upsert_of_ne {k : κ} {r : ρ} (h : key r ≠ k) :
    get? key (upsert key t r) k = get? key t k := by
  have hnew : [r].find? (fun r' => key r' = k) = none := by
    simp [h]
  unfold get? upsert
  rw [List.find?_append, hnew, Option.or_none, List.find?_filter]
  congr 1
  funext r'
  by_cases hk : key r' = k
  · simp [hk, Ne.symm h]
  · simp [hk]

theorem keyUnique_upsert (hu : KeyUnique key t) (r : ρ) : KeyUnique key (upsert key t r) := by
  intro a ha b hb hab
  rcases mem_upsert.mp ha with rfl | ⟨ha, hka⟩ <;> rcases mem_upsert.mp hb with rfl | ⟨hb, hkb⟩
  · rfl
  · exact absurd hab.symm hkb
  · exact absurd hab hka
  · exact hu a ha b hb hab

/-! ## A list of row images, written in order -/

/-- Every row comes from the table or from the images. -/
theorem mem_of_mem_foldl_upsert {ws : List ρ} {r : ρ} (h : r ∈ ws.foldl (upsert key) t) :
    r ∈ t ∨ r ∈ ws := by
  induction ws generalizing t with
  | nil => exact .inl h
  | cons w ws ih =>
    rcases ih h with ht | hws
    · rcases mem_upsert.mp ht with rfl | ⟨ht, _⟩
      · exact .inr List.mem_cons_self
      · exact .inl ht
    · exact .inr (List.mem_cons_of_mem _ hws)

/-- Under a key that is not written, the rows are those of the table. -/
theorem mem_foldl_upsert_of_unwritten {ws : List ρ} {r : ρ} (hr : ∀ w ∈ ws, key w ≠ key r) :
    r ∈ ws.foldl (upsert key) t ↔ r ∈ t := by
  induction ws generalizing t with
  | nil => rfl
  | cons w ws ih =>
    have hw : key w ≠ key r := hr w List.mem_cons_self
    rw [List.foldl_cons, ih fun w' hw' => hr w' (List.mem_cons_of_mem _ hw'), mem_upsert]
    constructor
    · rintro (rfl | ⟨h, _⟩)
      · exact absurd rfl hw
      · exact h
    · intro h
      exact .inr ⟨h, hw.symm⟩

/-- Under a key that is written, the rows are images. -/
theorem mem_of_foldl_upsert_written {ws : List ρ} {r w : ρ} (hr : r ∈ ws.foldl (upsert key) t)
    (hw : w ∈ ws) (hk : key w = key r) : r ∈ ws := by
  induction ws generalizing t w with
  | nil => cases hw
  | cons w₀ ws ih =>
    rw [List.foldl_cons] at hr
    by_cases hlater : ∃ w' ∈ ws, key w' = key r
    · obtain ⟨w', hw', hk'⟩ := hlater
      exact List.mem_cons_of_mem _ (ih hr hw' hk')
    · have hno : ∀ w' ∈ ws, key w' ≠ key r := fun w' hw' hk' => hlater ⟨w', hw', hk'⟩
      obtain rfl : w = w₀ := (List.mem_cons.mp hw).resolve_right fun htail => hno w htail hk
      rcases mem_upsert.mp ((mem_foldl_upsert_of_unwritten hno).mp hr) with rfl | ⟨_, hne⟩
      · exact List.mem_cons_self
      · exact absurd hk.symm hne

/-- No key of the table or of the images is lost. -/
theorem foldl_upsert_covers {ws : List ρ} {r : ρ} (h : r ∈ t ∨ r ∈ ws) :
    ∃ r' ∈ ws.foldl (upsert key) t, key r' = key r := by
  induction ws generalizing t r with
  | nil => exact ⟨r, h.resolve_right List.not_mem_nil, rfl⟩
  | cons w ws ih =>
    rw [List.foldl_cons]
    by_cases hk : key r = key w
    · obtain ⟨r', hr', hk'⟩ := ih (.inl (mem_upsert.mpr (.inl rfl)) : w ∈ upsert key t w ∨ w ∈ ws)
      exact ⟨r', hr', hk'.trans hk.symm⟩
    · refine ih ?_
      rcases h with ht | hws
      · exact .inl (mem_upsert.mpr (.inr ⟨ht, hk⟩))
      · refine .inr ((List.mem_cons.mp hws).resolve_left ?_)
        rintro rfl
        exact hk rfl

theorem keyUnique_foldl_upsert (hu : KeyUnique key t) (ws : List ρ) :
    KeyUnique key (ws.foldl (upsert key) t) := by
  induction ws generalizing t with
  | nil => exact hu
  | cons w ws ih => exact ih (keyUnique_upsert hu w)

end Ekip.Lib.Table
