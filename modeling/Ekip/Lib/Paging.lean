import Mathlib.Data.List.Sort

/-!
# Pages of a list that changes between their fetches

A page is a slice of the list as it is when the page is fetched, and the next one
begins at the offset where this one ended. An item that lies ahead of the offset is
still to come. It stays so as long as the rows before it do not leave: a row that
enters, at whatever position, pushes it further back, while a row that moves from the
pages already fetched to the end pulls it forward, perhaps past the offset.
-/
namespace Ekip.Lib.Paging

variable {κ ρ : Type}

/-! ## Slices -/

def slice (offset limit : Nat) (rows : List ρ) : List ρ := (rows.drop offset).take limit

variable {offset limit : Nat} {rows : List ρ} {x : ρ}

/-- What lies ahead is on the page, or ahead of the next one. -/
theorem mem_slice_or_ahead (h : x ∈ rows.drop offset) :
    x ∈ slice offset limit rows ∨ x ∈ rows.drop (offset + limit) := by
  rw [← List.take_append_drop limit (rows.drop offset), List.drop_drop] at h
  exact List.mem_append.mp h

/-- A full page ends where the next one begins. -/
theorem mem_slice_or_ahead_of_length (limit : Nat) (h : x ∈ rows.drop offset) :
    x ∈ slice offset limit rows ∨ x ∈ rows.drop (offset + (slice offset limit rows).length) := by
  by_cases hfull : limit ≤ (rows.drop offset).length
  · have hlength : (slice offset limit rows).length = limit := by
      simp only [slice, List.length_take]
      omega
    rw [hlength]
    exact mem_slice_or_ahead h
  · refine .inl ?_
    unfold slice
    rw [List.take_of_length_le (by omega)]
    exact h

/-- A page that is not full is the last. -/
theorem mem_slice_of_short (hshort : (slice offset limit rows).length < limit)
    (h : x ∈ rows.drop offset) : x ∈ slice offset limit rows := by
  unfold slice at *
  rw [List.length_take] at hshort
  rw [List.take_of_length_le (by omega)]
  exact h

/-- Before the end of the rows a page is not empty. -/
theorem slice_ne_nil (hlimit : 0 < limit) (h : offset < rows.length) : slice offset limit rows ≠ [] := by
  intro hnil
  have hlength := congrArg List.length hnil
  rw [slice, List.length_take, List.length_drop, List.length_nil] at hlength
  omega

/-- Nothing is left behind a page that is not full. -/
theorem drop_of_short (hshort : (slice offset limit rows).length ≠ limit) :
    rows.drop (offset + limit) = [] := by
  unfold slice at hshort
  rw [List.length_take, List.length_drop] at hshort
  apply List.drop_eq_nil_of_le
  omega

theorem map_slice (f : ρ → κ) (offset limit : Nat) (rows : List ρ) :
    (slice offset limit rows).map f = slice offset limit (rows.map f) := by
  unfold slice
  rw [List.map_take, List.map_drop]

theorem mem_drop_iff {k : κ} {keys : List κ} :
    k ∈ keys.drop offset ↔ ∃ front back, keys = front ++ k :: back ∧ offset ≤ front.length := by
  constructor
  · intro h
    obtain ⟨front, back, hdrop⟩ := List.append_of_mem h
    refine ⟨keys.take offset ++ front, back, ?_, ?_⟩
    · rw [List.append_assoc, ← hdrop, List.take_append_drop]
    · have hpos := List.length_pos_of_mem h
      rw [List.length_drop] at hpos
      rw [List.length_append, List.length_take]
      omega
  · intro h
    obtain ⟨front, back, rfl, hlength⟩ := h
    rw [List.drop_append_of_le_length hlength]
    exact List.mem_append_right _ List.mem_cons_self

/-! ## Changes of the list -/

/-- What lies ahead of the offset stays ahead of it. -/
def Keeps (offset : Nat) (keys keys' : List κ) : Prop :=
  ∀ k ∈ keys.drop offset, k ∈ keys'.drop offset

variable {keys keys' keys'' : List κ}

theorem Keeps.refl : Keeps offset keys keys := fun _ hk => hk

/-- Rows enter anywhere. -/
theorem Keeps.of_sublist (h : keys.Sublist keys') : Keeps offset keys keys' :=
  fun _ hk => (h.drop offset).subset hk

section Move

variable [DecidableEq κ] {y : κ}

/-- A row moves, among others that stay or enter. If it was fetched before, nothing may
be ahead; otherwise it must stay ahead. -/
theorem Keeps.of_moved (hothers : (keys.filter (· ≠ y)).Sublist keys')
    (hahead : y ∈ keys.drop offset → y ∈ keys'.drop offset)
    (hfetched : y ∈ keys.take offset → keys.drop offset = []) : Keeps offset keys keys' := by
  intro k hk
  by_cases hky : k = y
  · rw [hky] at hk ⊢
    exact hahead hk
  · have hnot : y ∉ keys.take offset := by
      intro hy
      rw [hfetched hy] at hk
      cases hk
    have hlength : (keys.take offset).length = offset := by
      rw [List.length_take]
      have hpos := List.length_pos_of_mem hk
      rw [List.length_drop] at hpos
      omega
    have hfront : (keys.take offset).filter (· ≠ y) = keys.take offset := by
      rw [List.filter_eq_self]
      intro a ha
      have hne : a ≠ y := fun heq => hnot (heq ▸ ha)
      simp [hne]
    have hsplit : keys.filter (· ≠ y) =
        keys.take offset ++ (keys.drop offset).filter (· ≠ y) := by
      conv_lhs => rw [← List.take_append_drop offset keys]
      rw [List.filter_append, hfront]
    have hdrop : (keys.filter (· ≠ y)).drop offset = (keys.drop offset).filter (· ≠ y) := by
      rw [hsplit]
      exact List.drop_left' hlength
    apply (hothers.drop offset).subset
    rw [hdrop]
    simp [hk, hky]

/-- The touched row goes to the end, or is added there. -/
def moveToEnd (y : κ) (keys : List κ) : List κ := keys.filter (· ≠ y) ++ [y]

theorem mem_moveToEnd {k : κ} : k ∈ moveToEnd y keys ↔ k ∈ keys ∨ k = y := by
  by_cases h : k = y <;> simp [moveToEnd, h]

/-- The last row is ahead of every offset within the others. -/
theorem Keeps.moveToEnd (hnodup : keys.Nodup)
    (hfetched : y ∈ keys.take offset → keys.drop offset = []) :
    Keeps offset keys (moveToEnd y keys) := by
  apply Keeps.of_moved (y := y) (List.sublist_append_left _ _) _ hfetched
  intro hy
  have hlt : offset < keys.length := by
    have hpos := List.length_pos_of_mem hy
    rw [List.length_drop] at hpos
    omega
  have hcount : (keys.filter (· ≠ y)).length + 1 = keys.length := by
    have hmem : y ∈ keys := List.mem_of_mem_drop hy
    have hone : (keys.filter (· = y)).length = 1 := by
      rw [← List.countP_eq_length_filter]
      have hcountOne := List.count_eq_one_of_mem hnodup hmem
      rw [List.count] at hcountOne
      simpa [beq_eq_decide] using hcountOne
    have hsum := List.length_eq_length_filter_add (l := keys) (fun k => decide (k = y))
    have hnot : (keys.filter fun k => !decide (k = y)) = keys.filter (· ≠ y) := by
      apply List.filter_congr
      intro k _
      simp
    rw [hnot, hone] at hsum
    omega
  rw [List.drop_append, List.mem_append]
  refine .inr ?_
  have hzero : offset - (keys.filter (· ≠ y)).length = 0 := by omega
  rw [hzero]
  exact List.mem_singleton_self y

end Move

/-! ## Stable sorting -/

section Sorting

variable {α : Type} (r : α → α → Prop) [DecidableRel r] [IsTrans α r]

theorem filter_orderedInsert (p : α → Bool) (a : α) {l : List α} (hl : l.Pairwise r) :
    (l.orderedInsert r a).filter p =
      if p a then (l.filter p).orderedInsert r a else l.filter p := by
  induction l with
  | nil =>
    by_cases hp : p a <;> simp [hp]
  | cons b l ih =>
    obtain ⟨hb, hl⟩ := List.pairwise_cons.mp hl
    rw [List.orderedInsert_cons]
    by_cases hab : r a b
    · rw [if_pos hab]
      by_cases hpa : p a
      · rw [if_pos hpa, List.filter_cons_of_pos hpa]
        -- `a` comes before whatever is left of the rest
        have hfirst : ∀ c ∈ (b :: l).filter p, r a c := by
          intro c hc
          rcases List.mem_cons.mp (List.mem_filter.mp hc).1 with rfl | hmem
          · exact hab
          · exact IsTrans.trans a b c hab (hb c hmem)
        cases hrest : (b :: l).filter p with
        | nil => simp
        | cons c rest =>
          rw [hrest] at hfirst
          rw [List.orderedInsert_cons, if_pos (hfirst c List.mem_cons_self)]
      · rw [if_neg hpa, List.filter_cons_of_neg hpa]
    · rw [if_neg hab]
      by_cases hpb : p b
      · rw [List.filter_cons_of_pos hpb, List.filter_cons_of_pos hpb, ih hl]
        by_cases hpa : p a
        · rw [if_pos hpa, if_pos hpa, List.orderedInsert_cons, if_neg hab]
        · rw [if_neg hpa, if_neg hpa]
      · rw [List.filter_cons_of_neg hpb, List.filter_cons_of_neg hpb, ih hl]

/-- Sorting is stable: rows that are dropped do not change the order of the others. -/
theorem filter_insertionSort [Std.Total r] (p : α → Bool) (l : List α) :
    (l.insertionSort r).filter p = (l.filter p).insertionSort r := by
  induction l with
  | nil => rfl
  | cons a l ih =>
    rw [List.insertionSort_cons, filter_orderedInsert r p a (List.pairwise_insertionSort r l), ih]
    by_cases hp : p a
    · rw [if_pos hp, List.filter_cons_of_pos hp, List.insertionSort_cons]
    · rw [if_neg hp, List.filter_cons_of_neg hp]

end Sorting

/-! ## A sort key that is raised -/

section Raise

variable {α : Type} {key : α → Nat} {id : α → κ}

/-- Rows in the order of their keys; rows of one key stay in the order of the list. -/
def ordered (key : α → Nat) (l : List α) : List α := l.insertionSort fun a b => key a ≤ key b

instance total_key : Std.Total fun a b : α => key a ≤ key b := ⟨fun a b => Nat.le_total (key a) (key b)⟩

instance trans_key : IsTrans α fun a b => key a ≤ key b := ⟨fun _ _ _ h h' => Nat.le_trans h h'⟩

theorem mem_ordered (key : α → Nat) {l : List α} {a : α} : a ∈ ordered key l ↔ a ∈ l :=
  List.mem_insertionSort _

theorem filter_ordered (p : α → Bool) (l : List α) :
    (ordered key l).filter p = ordered key (l.filter p) := filter_insertionSort _ p l

theorem pairwise_ordered (key : α → Nat) (l : List α) : (ordered key l).Pairwise fun a b => key a ≤ key b :=
  List.pairwise_insertionSort _ l

theorem nodup_ordered {l : List α} (h : (l.map id).Nodup) : ((ordered key l).map id).Nodup :=
  ((List.perm_insertionSort _ l).map id).nodup_iff.mpr h

/-- In a list without repetitions two rows stand in one order only. -/
theorem not_both_orders [DecidableEq κ] {u v : κ} {front back front' back' : List κ}
    (hnodup : (front ++ v :: back).Nodup) (hsame : front ++ v :: back = front' ++ v :: back')
    (hu : u ∈ front) : u ∉ back' := by
  intro hu'
  have hfront : front = front' := by
    have hnot : v ∉ front := by
      intro hv
      exact (List.nodup_append.mp hnodup).2.2 v hv v List.mem_cons_self rfl
    have hnot' : v ∉ front' := by
      rw [hsame] at hnodup
      intro hv
      exact (List.nodup_append.mp hnodup).2.2 v hv v List.mem_cons_self rfl
    have htake := congrArg (List.takeWhile fun k => decide (k ≠ v)) hsame
    have hleft : ∀ {xs ys : List κ}, v ∉ xs →
        (xs ++ v :: ys).takeWhile (fun k => decide (k ≠ v)) = xs := by
      intro xs ys hxs
      rw [List.takeWhile_append_of_pos]
      · simp
      · intro a ha
        have hne : a ≠ v := fun heq => hxs (heq ▸ ha)
        simp [hne]
    rwa [hleft hnot, hleft hnot'] at htake
  subst hfront
  rw [hsame] at hnodup
  exact (List.nodup_append.mp hnodup).2.2 u hu u (List.mem_cons_of_mem _ hu') rfl

variable [DecidableEq κ] {f : α → α} {y : κ} {l : List α}

/-- A row whose key is raised is not before any row that it was after. -/
theorem raised_after (hnodup : (l.map id).Nodup) (hid : ∀ a ∈ l, id (f a) = id a)
    (hother : ∀ a ∈ l, id a ≠ y → f a = a) (hraise : ∀ a ∈ l, key a ≤ key (f a))
    {front back front' back' : List α} {a a' : α} (ha : id a = y) (ha' : id a' = y)
    (hold : ordered key l = front ++ a :: back)
    (hnew : ordered key (l.map f) = front' ++ a' :: back') :
    front.map id ⊆ front'.map id := by
  have hl : ∀ c, c ∈ l ↔ c ∈ front ++ a :: back := fun c => by
    rw [← hold, mem_ordered key]
  have hids : ((ordered key l).map id).Nodup := nodup_ordered hnodup
  have hmapId : (l.map f).map id = l.map id := by
    rw [List.map_map]
    exact List.map_congr_left hid
  have hunique : ∀ c ∈ l, ∀ d ∈ l, id c = id d → c = d := fun c hc d hd =>
    List.inj_on_of_nodup_map hnodup hc hd
  have hamem : a ∈ l := (hl a).mpr (by simp)
  have hfa : a' = f a := by
    have hmem : a' ∈ l.map f := by
      rw [← mem_ordered key, hnew]
      simp
    obtain ⟨c, hc, rfl⟩ := List.mem_map.mp hmem
    rw [hid c hc] at ha'
    rw [hunique c hc a hamem (ha'.trans ha.symm)]
  intro k hk
  obtain ⟨b, hb, rfl⟩ := List.mem_map.mp hk
  have hbl : b ∈ l := (hl b).mpr (List.mem_append_left _ hb)
  have hby : id b ≠ y := by
    rw [hold, List.map_append, List.map_cons] at hids
    intro heq
    exact (List.nodup_append.mp hids).2.2 (id b) (List.mem_map_of_mem hb) (id a)
      List.mem_cons_self (heq.trans ha.symm)
  have hbnew : b ∈ front' ++ a' :: back' := by
    rw [← hnew, mem_ordered key]
    exact List.mem_map.mpr ⟨b, hbl, hother b hbl hby⟩
  by_contra hnot
  have hback : b ∈ back' := by
    rcases List.mem_append.mp hbnew with hfront | hrest
    · exact absurd (List.mem_map_of_mem hfront) hnot
    · rcases List.mem_cons.mp hrest with rfl | hback
      · exact absurd ha' hby
      · exact hback
  -- the keys tie, so that the order of the two is that of the table in both lists
  have hle : key b ≤ key a := by
    have hsorted := pairwise_ordered key l
    rw [hold] at hsorted
    exact (List.pairwise_append.mp hsorted).2.2 b hb a List.mem_cons_self
  have hle' : key (f a) ≤ key b := by
    have hsorted := pairwise_ordered key (l.map f)
    rw [hnew, hfa] at hsorted
    exact (List.pairwise_cons.mp (List.pairwise_append.mp hsorted).2.1).1 b hback
  have htie : key (f a) = key a ∧ key b = key a := by
    have hup := hraise a hamem
    omega
  let p : α → Bool := fun c => id c = id b ∨ id c = y
  have hp : ∀ c ∈ l.filter p, c = b ∨ c = a := by
    intro c hc
    obtain ⟨hcl, hpc⟩ := List.mem_filter.mp hc
    rcases of_decide_eq_true hpc with hcb | hcy
    · exact .inl (hunique c hcl b hbl hcb)
    · exact .inr (hunique c hcl a hamem (hcy.trans ha.symm))
  have hkeys : ∀ c ∈ l.filter p, key c = key a ∧ key (f c) = key a := by
    intro c hc
    rcases hp c hc with rfl | rfl
    · rw [hother c hbl hby]
      exact ⟨htie.2, htie.2⟩
    · exact ⟨rfl, htie.1⟩
  have hfilter : (l.map f).filter p = (l.filter p).map f := by
    rw [List.filter_map]
    congr 1
    apply List.filter_congr
    intro c hc
    simp only [p, Function.comp, hid c hc]
  have hsame : ((ordered key (l.map f)).filter p).map id = ((ordered key l).filter p).map id := by
    rw [filter_ordered, filter_ordered, hfilter]
    have hsorted : ordered key ((l.filter p).map f) = (ordered key (l.filter p)).map f := by
      refine (List.map_insertionSort _ _ f (l.filter p) ?_).symm
      intro c hc d hd
      rw [(hkeys c hc).1, (hkeys c hc).2, (hkeys d hd).1, (hkeys d hd).2]
    rw [hsorted, List.map_map]
    apply List.map_congr_left
    intro c hc
    exact hid c (List.mem_filter.mp ((mem_ordered key).mp hc)).1
  have hpa : p a = true := decide_eq_true (.inr ha)
  have hpa' : p a' = true := decide_eq_true (.inr ha')
  have hpb : p b = true := decide_eq_true (.inl rfl)
  have hkept : (((ordered key l).filter p).map id).Nodup :=
    hids.sublist (List.filter_sublist.map id)
  rw [hold, hnew, List.filter_append, List.filter_append, List.filter_cons_of_pos hpa,
    List.filter_cons_of_pos hpa', List.map_append, List.map_append, List.map_cons, List.map_cons,
    ha, ha'] at hsame
  rw [hold, List.filter_append, List.filter_cons_of_pos hpa, List.map_append, List.map_cons,
    ha] at hkept
  exact not_both_orders hkept hsame.symm
    (List.mem_map_of_mem (List.mem_filter.mpr ⟨hb, hpb⟩))
    (List.mem_map_of_mem (List.mem_filter.mpr ⟨hback, hpb⟩))

/-- Raising the key of a row keeps what lies ahead, unless the row was fetched before. -/
theorem keeps_raised (hnodup : (l.map id).Nodup) (hid : ∀ a ∈ l, id (f a) = id a)
    (hother : ∀ a ∈ l, id a ≠ y → f a = a) (hraise : ∀ a ∈ l, key a ≤ key (f a))
    (hfetched : y ∈ ((ordered key l).map id).take offset →
      ((ordered key l).map id).drop offset = []) :
    Keeps offset ((ordered key l).map id) ((ordered key (l.map f)).map id) := by
  have hsame : (l.map f).filter (fun a => decide (id a ≠ y)) =
      l.filter fun a => decide (id a ≠ y) := by
    rw [List.filter_map]
    have hkeep : (l.filter fun a => decide (id (f a) ≠ y)) =
        l.filter fun a => decide (id a ≠ y) := by
      apply List.filter_congr
      intro a ha
      rw [hid a ha]
    show (l.filter fun a => decide (id (f a) ≠ y)).map f = _
    rw [hkeep]
    conv_rhs => rw [← List.map_id (l.filter _)]
    apply List.map_congr_left
    intro a ha
    obtain ⟨hal, hay⟩ := List.mem_filter.mp ha
    exact hother a hal (of_decide_eq_true hay)
  refine Keeps.of_moved (y := y) ?_ ?_ hfetched
  · have hfilter : ((ordered key l).map id).filter (· ≠ y) =
        ((ordered key (l.map f)).filter fun a => decide (id a ≠ y)).map id := by
      rw [filter_ordered, hsame, ← filter_ordered, List.filter_map]
      rfl
    rw [hfilter]
    exact List.filter_sublist.map id
  · intro hy
    obtain ⟨front, back, hsplit, hlength⟩ := mem_drop_iff.mp hy
    obtain ⟨before, rest, hold, rfl, hrest⟩ := List.map_eq_append_iff.mp hsplit
    obtain ⟨a, after, rfl, ha, rfl⟩ := List.map_eq_cons_iff.mp hrest
    have hal : a ∈ l := by
      rw [← mem_ordered key, hold]
      simp
    obtain ⟨before', after', hnew⟩ := List.append_of_mem
      ((mem_ordered key).mpr (List.mem_map_of_mem (f := f) hal))
    have hfa : id (f a) = y := (hid a hal).trans ha
    have hsubset := raised_after hnodup hid hother hraise ha hfa hold hnew
    have hbefore : (before.map id).Nodup := by
      have hids : ((ordered key l).map id).Nodup := nodup_ordered hnodup
      rw [hold, List.map_append] at hids
      exact (List.nodup_append.mp hids).1
    have hle := (List.subperm_of_subset hbefore hsubset).length_le
    refine mem_drop_iff.mpr ⟨before'.map id, after'.map id, ?_, hlength.trans hle⟩
    rw [hnew, List.map_append, List.map_cons, hfa]

/-- The same where the rows are filtered first, and a row may come to pass the filter. -/
theorem keeps_touched (p : α → Bool) (hnodup : (l.map id).Nodup)
    (hid : ∀ a ∈ l, id (f a) = id a) (hother : ∀ a ∈ l, id a ≠ y → f a = a)
    (hraise : ∀ a ∈ l, key a ≤ key (f a)) (hpass : ∀ a ∈ l, p a = true → p (f a) = true)
    (hfetched : y ∈ ((ordered key (l.filter p)).map id).take offset →
      ((ordered key (l.filter p)).map id).drop offset = []) :
    Keeps offset ((ordered key (l.filter p)).map id) ((ordered key ((l.map f).filter p)).map id) := by
  have hmem : ∀ a ∈ l.filter p, a ∈ l := fun a ha => (List.mem_filter.mp ha).1
  by_cases hy : ∀ a ∈ l, id a = y → p a = true
  · have hfilter : (l.map f).filter p = (l.filter p).map f := by
      rw [List.filter_map]
      congr 1
      apply List.filter_congr
      intro a ha
      show p (f a) = p a
      by_cases hay : id a = y
      · rw [hy a ha hay, hpass a ha (hy a ha hay)]
      · rw [hother a ha hay]
    rw [hfilter]
    exact keeps_raised (hnodup.sublist (List.filter_sublist.map id)) (fun a ha => hid a (hmem a ha))
      (fun a ha => hother a (hmem a ha)) (fun a ha => hraise a (hmem a ha)) hfetched
  · push Not at hy
    obtain ⟨b, hb, hby, hpb⟩ := hy
    apply Keeps.of_sublist
    have hdropped : l.filter p = ((l.map f).filter p).filter fun a => decide (id a ≠ y) := by
      rw [List.filter_filter, List.filter_map]
      have hkeep : (l.filter fun a => decide (id (f a) ≠ y) && p (f a)) = l.filter p := by
        apply List.filter_congr
        intro a ha
        rw [hid a ha]
        by_cases hay : id a = y
        · have hab : a = b := List.inj_on_of_nodup_map hnodup ha hb (hay.trans hby.symm)
          simp [hab, hby, hpb]
        · simp [hay, hother a ha hay]
      show _ = (l.filter fun a => decide (id (f a) ≠ y) && p (f a)).map f
      rw [hkeep]
      conv_lhs => rw [← List.map_id (l.filter p)]
      apply List.map_congr_left
      intro a ha
      obtain ⟨hal, hpa⟩ := List.mem_filter.mp ha
      have hay : id a ≠ y := by
        intro heq
        have hab : a = b := List.inj_on_of_nodup_map hnodup hal hb (heq.trans hby.symm)
        rw [hab] at hpa
        exact hpb hpa
      exact (hother a hal hay).symm
    rw [hdropped, ← filter_ordered]
    exact List.filter_sublist.map id

end Raise

end Ekip.Lib.Paging
