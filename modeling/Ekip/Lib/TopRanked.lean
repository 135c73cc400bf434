import Mathlib.Data.List.Sort
import Mathlib.Order.Basic
import Ekip.Lib.Query

/-!
# The first few of a list in the order of a score

A list in descending order is cut off after some elements. What is kept scores at
least as much as what is not, and above the last score that is kept nothing depends on
the order in which ties stand.
-/
namespace Ekip.Lib.TopRanked

variable {α β κ : Type} [LinearOrder κ] {score : α → κ} {l l' : List α}

def Descending (score : α → κ) (l : List α) : Prop := l.Pairwise fun a b => score b ≤ score a

theorem Descending.take (h : Descending score l) (n : Nat) : Descending score (l.take n) :=
  h.sublist (List.take_sublist n l)

theorem Descending.kept_ge (h : Descending score l) {n : Nat} {a b : α} (ha : a ∈ l.take n)
    (hb : b ∈ l.drop n) : score b ≤ score a := by
  have hsplit : Descending score (l.take n ++ l.drop n) := by
    rw [List.take_append_drop]
    exact h
  exact (List.pairwise_append.mp hsplit).2.2 a ha b hb

/-- What scores more stands before. -/
theorem Descending.before (h : Descending score l) {pre post : List α} {a b : α}
    (hl : l = pre ++ a :: post) (hb : b ∈ l) (hlt : score a < score b) : b ∈ pre := by
  rw [hl] at h hb
  rcases List.mem_append.mp hb with hpre | hrest
  · exact hpre
  · rcases List.mem_cons.mp hrest with rfl | hpost
    · exact absurd hlt (lt_irrefl _)
    · have hle := (List.pairwise_cons.mp (List.pairwise_append.mp h).2.1).1 b hpost
      exact absurd hlt (not_lt.mpr hle)

/-- The elements above the last score that is kept. -/
def aboveCut (score : α → κ) (n : Nat) (l : List α) : List α :=
  match (l.take n).getLast? with
  | none => []
  | some last => (l.take n).filter fun a => decide (score last < score a)

theorem aboveCut_of_last {n : Nat} {last : α} (h : Descending score l)
    (hlast : (l.take n).getLast? = some last) :
    aboveCut score n l = l.filter fun a => decide (score last < score a) := by
  have hnone : (l.drop n).filter (fun a => decide (score last < score a)) = [] := by
    refine List.filter_eq_nil_iff.mpr ?_
    intro b hb
    have hle := h.kept_ge (List.mem_of_getLast? hlast) hb
    simpa using hle
  unfold aboveCut
  rw [hlast]
  calc (l.take n).filter (fun a => decide (score last < score a))
      = (l.take n).filter (fun a => decide (score last < score a)) ++
          (l.drop n).filter (fun a => decide (score last < score a)) := by
        rw [hnone, List.append_nil]
    _ = (l.take n ++ l.drop n).filter (fun a => decide (score last < score a)) :=
        (List.filter_append _ _).symm
    _ = l.filter (fun a => decide (score last < score a)) := by rw [List.take_append_drop]

/-- Two orders of the same elements have the same scores in the same places. -/
theorem scores_eq (h : Descending score l) (h' : Descending score l') (hperm : l.Perm l') :
    l.map score = l'.map score := by
  have hdesc : ∀ {l : List α}, Descending score l → (l.map score).Pairwise fun a b => b ≤ a := by
    intro l h
    exact List.pairwise_map.mpr h
  exact (hperm.map score).eq_of_pairwise (fun a b _ _ hab hba => le_antisymm hba hab) (hdesc h)
    (hdesc h')

theorem aboveCut_perm (h : Descending score l) (h' : Descending score l') (hperm : l.Perm l')
    (n : Nat) : (aboveCut score n l).Perm (aboveCut score n l') := by
  have hscores : ((l.take n).getLast?).map score = ((l'.take n).getLast?).map score := by
    rw [← List.getLast?_map, ← List.getLast?_map, List.map_take, List.map_take, scores_eq h h' hperm]
  cases hlast : (l.take n).getLast? with
  | none =>
    rw [hlast] at hscores
    have hlast' : (l'.take n).getLast? = none := Option.map_eq_none_iff.mp hscores.symm
    unfold aboveCut
    rw [hlast, hlast']
  | some last =>
    rw [hlast] at hscores
    obtain ⟨last', hlast', heq⟩ := Option.map_eq_some_iff.mp hscores.symm
    rw [aboveCut_of_last h hlast, aboveCut_of_last h' hlast', heq]
    exact hperm.filter _

/-! ## Stable ascending order -/

section Ascending

variable {key : α → κ}

abbrev ascending (key : α → κ) (l : List α) : List α :=
  Query.orderBy (fun a b => decide (a ≤ b)) key l

theorem ascending_perm (key : α → κ) (l : List α) : (ascending key l).Perm l :=
  List.mergeSort_perm l _

private theorem le_transitive (key : α → κ) (a b c : α) (hab : decide (key a ≤ key b) = true)
    (hbc : decide (key b ≤ key c) = true) : decide (key a ≤ key c) = true :=
  decide_eq_true (le_trans (of_decide_eq_true hab) (of_decide_eq_true hbc))

private theorem le_either (key : α → κ) (a b : α) :
    (decide (key a ≤ key b) || decide (key b ≤ key a)) = true := by
  simpa using le_total (key a) (key b)

theorem pairwise_ascending (key : α → κ) (l : List α) :
    (ascending key l).Pairwise fun a b => key a ≤ key b := by
  have h := @List.pairwise_mergeSort _ (fun a b => decide (key a ≤ key b))
    (le_transitive key) (le_either key) l
  exact h.imp fun hab => of_decide_eq_true hab

theorem ascending_map (key : β → κ) (f : α → β) (l : List α) :
    Query.orderBy (fun a b => decide (a ≤ b)) key (l.map f) =
      (ascending (fun a => key (f a)) l).map f :=
  (List.map_mergeSort (f := f) fun _ _ _ _ => rfl).symm

/-- Elements of one key keep their order. -/
theorem filter_ascending (key : α → κ) (l : List α) (k : κ) :
    (ascending key l).filter (fun a => decide (key a = k)) =
      l.filter fun a => decide (key a = k) := by
  have hties : (l.filter fun a => decide (key a = k)).Pairwise
      fun a b => decide (key a ≤ key b) = true := by
    refine List.pairwise_of_forall_mem_list ?_
    intro a ha b hb
    have hka := of_decide_eq_true (List.mem_filter.mp ha).2
    have hkb := of_decide_eq_true (List.mem_filter.mp hb).2
    exact decide_eq_true (le_of_eq (hka.trans hkb.symm))
  have hsub := @List.sublist_mergeSort _ (fun a b => decide (key a ≤ key b)) l
    (le_transitive key) (le_either key) _ hties List.filter_sublist
  have hfilter := hsub.filter fun a => decide (key a = k)
  rw [List.filter_filter] at hfilter
  simp only [Bool.and_self] at hfilter
  refine (hfilter.eq_of_length ?_).symm
  exact (((ascending_perm key l).filter _).length_eq).symm

/-- An ascending list is known by the elements of each key. -/
theorem eq_of_filters {l l' : List α} (h : l.Pairwise fun a b => key a ≤ key b)
    (h' : l'.Pairwise fun a b => key a ≤ key b)
    (hfilters : ∀ k, l.filter (fun a => decide (key a = k)) =
      l'.filter fun a => decide (key a = k)) : l = l' := by
  induction l generalizing l' with
  | nil =>
    cases l' with
    | nil => rfl
    | cons b l' => simpa using hfilters (key b)
  | cons a l ih =>
    cases l' with
    | nil => simpa using hfilters (key a)
    | cons b l' =>
      have ha : a ∈ b :: l' := by
        have hmem : a ∈ (a :: l).filter fun c => decide (key c = key a) := by simp
        rw [hfilters] at hmem
        exact (List.mem_filter.mp hmem).1
      have hb : b ∈ a :: l := by
        have hmem : b ∈ (b :: l').filter fun c => decide (key c = key b) := by simp
        rw [← hfilters] at hmem
        exact (List.mem_filter.mp hmem).1
      have hle : key b ≤ key a := by
        rcases List.mem_cons.mp ha with rfl | hmem
        · exact le_refl _
        · exact (List.pairwise_cons.mp h').1 a hmem
      have hge : key a ≤ key b := by
        rcases List.mem_cons.mp hb with rfl | hmem
        · exact le_refl _
        · exact (List.pairwise_cons.mp h).1 b hmem
      have hkey : key a = key b := le_antisymm hge hle
      have hheads := hfilters (key a)
      rw [List.filter_cons_of_pos (by simp), List.filter_cons_of_pos (by simp [hkey])] at hheads
      obtain rfl : a = b := (List.cons.inj hheads).1
      have htails : l = l' := by
        refine ih (List.pairwise_cons.mp h).2 (List.pairwise_cons.mp h').2 fun k => ?_
        by_cases hk : key a = k
        · subst hk
          exact (List.cons.inj hheads).2
        · have hboth := hfilters k
          rwa [List.filter_cons_of_neg (by simpa using hk),
            List.filter_cons_of_neg (by simpa using hk)] at hboth
      rw [htails]

theorem ascending_filter (key : α → κ) (l : List α) (p : α → Bool) :
    ascending key (l.filter p) = (ascending key l).filter p := by
  refine eq_of_filters (pairwise_ascending key _)
    ((pairwise_ascending key l).sublist List.filter_sublist) fun k => ?_
  calc (ascending key (l.filter p)).filter (fun a => decide (key a = k))
      = (l.filter p).filter (fun a => decide (key a = k)) := filter_ascending key _ k
    _ = (l.filter fun a => decide (key a = k)).filter p := List.filter_comm _ _ _
    _ = ((ascending key l).filter fun a => decide (key a = k)).filter p := by
        rw [filter_ascending key l k]
    _ = ((ascending key l).filter p).filter (fun a => decide (key a = k)) :=
        List.filter_comm _ _ _

/-- The place of an element decides between equal keys. -/
def before (key : α → κ) (x y : α × Nat) : Bool :=
  decide (key x.1 < key y.1 ∨ key x.1 = key y.1 ∧ x.2 < y.2)

/-- How many stand before an element with its place. -/
def rank (key : α → κ) (l : List α) (x : α × Nat) : Nat :=
  l.zipIdx.countP fun y => before key y x

/-- In a strict order, the number of elements before one is its place. -/
theorem filter_countP_eq_take {r : β → β → Bool} {l : List β}
    (h : l.Pairwise fun a b => r a b = true ∧ r b a = false) (hirrefl : ∀ a, r a a = false)
    (n : Nat) : l.filter (fun a => decide (l.countP (fun b => r b a) < n)) = l.take n := by
  induction l generalizing n with
  | nil => simp
  | cons a l ih =>
    obtain ⟨hhead, htail⟩ := List.pairwise_cons.mp h
    have hfirst : (a :: l).countP (fun b => r b a) = 0 := by
      refine List.countP_eq_zero.mpr ?_
      intro b hb
      rcases List.mem_cons.mp hb with rfl | hb
      · simp [hirrefl]
      · simp [(hhead b hb).2]
    have hrest : ∀ b ∈ l, (a :: l).countP (fun c => r c b) = l.countP (fun c => r c b) + 1 := by
      intro b hb
      exact List.countP_cons_of_pos (hhead b hb).1
    cases n with
    | zero => simp
    | succ n =>
      rw [List.filter_cons_of_pos (by simp [hfirst]), List.take_succ_cons, ← ih htail n]
      congr 1
      refine List.filter_congr ?_
      intro b hb
      rw [hrest b hb]
      simp

/-- The first few are those that few stand before. -/
theorem take_ascending_perm (key : α → κ) (l : List α) (n : Nat) :
    ((ascending key l).take n).Perm
      ((l.zipIdx.filter fun x => decide (rank key l x < n)).map Prod.fst) := by
  let le := fun a b => decide (key a ≤ key b)
  let placed := l.zipIdx.mergeSort (List.zipIdxLE le)
  have hperm : placed.Perm l.zipIdx := List.mergeSort_perm _ _
  have hordered : placed.Pairwise fun x y => List.zipIdxLE le x y = true :=
    List.pairwise_mergeSort (List.zipIdxLE_trans (le_transitive key))
      (List.zipIdxLE_total (le_either key)) _
  have hdistinct : (l.zipIdx.map Prod.snd).Nodup := by
    rw [List.zipIdx_map_snd]
    exact List.nodup_range'
  have hplaces : placed.Pairwise fun x y => x.2 ≠ y.2 :=
    List.pairwise_map.mp ((hperm.map Prod.snd).nodup_iff.mpr hdistinct)
  have hstrict : placed.Pairwise fun x y => before key x y = true ∧ before key y x = false := by
    refine (hordered.and hplaces).imp ?_
    intro x y hxy
    obtain ⟨hle, hne⟩ := hxy
    simp only [List.zipIdxLE, le, decide_eq_true_eq] at hle
    simp only [before, decide_eq_true_eq, decide_eq_false_iff_not]
    split at hle
    · rename_i hxy
      split at hle
      · rename_i hyx
        have hkey : key x.1 = key y.1 := le_antisymm hxy hyx
        have hplace : x.2 ≤ y.2 := of_decide_eq_true hle
        rw [hkey]
        simp only [lt_irrefl, false_or, true_and]
        omega
      · rename_i hyx
        have hlt : key x.1 < key y.1 := lt_of_not_ge hyx
        exact ⟨.inl hlt, fun h => h.elim (fun h => lt_asymm h hlt) fun h => hlt.ne' h.1⟩
    · cases hle
  have hirrefl : ∀ x, before key x x = false := by simp [before]
  have hcount : ∀ x : α × Nat, placed.countP (fun y => before key y x) = rank key l x :=
    fun x => hperm.countP_eq _
  have htake := filter_countP_eq_take hstrict hirrefl n
  simp only [hcount] at htake
  have hfirst : placed.map Prod.fst = ascending key l := List.mergeSort_zipIdx
  rw [← hfirst, ← List.map_take, ← htake]
  exact (hperm.filter _).map _

end Ascending

/-! ## Cutting off -/

section Cut

variable {p : α → Bool}

/-- Where the elements of a kind stand in front, it does not matter which cut is first. -/
theorem filter_take (h : l.Pairwise fun a b => p b = true → p a = true) (n : Nat) :
    (l.take n).filter p = (l.filter p).take n := by
  induction l generalizing n with
  | nil => simp
  | cons a l ih =>
    obtain ⟨hhead, htail⟩ := List.pairwise_cons.mp h
    cases n with
    | zero => simp
    | succ n =>
      by_cases ha : p a = true
      · rw [List.take_succ_cons, List.filter_cons_of_pos ha, List.filter_cons_of_pos ha,
          List.take_succ_cons, ih htail n]
      · have hnone : ∀ {l' : List α}, (∀ b ∈ l', b ∈ l) → l'.filter p = [] := by
          intro l' hsub
          refine List.filter_eq_nil_iff.mpr ?_
          intro b hb hpb
          exact ha (hhead b (hsub b hb) hpb)
        rw [List.take_succ_cons, List.filter_cons_of_neg ha, List.filter_cons_of_neg ha,
          hnone fun b hb => List.mem_of_mem_take hb, hnone fun b hb => hb, List.take_nil]

/-- What others stand behind the cut may be left out. -/
theorem take_filter_of_forall {n : Nat} (h : ∀ a ∈ l.take n, p a = true) :
    (l.filter p).take n = l.take n := by
  induction l generalizing n with
  | nil => simp
  | cons a l ih =>
    cases n with
    | zero => simp
    | succ n =>
      rw [List.take_succ_cons] at h
      rw [List.filter_cons_of_pos (h a List.mem_cons_self), List.take_succ_cons,
        List.take_succ_cons, ih fun b hb => h b (List.mem_cons_of_mem _ hb)]

end Cut

end Ekip.Lib.TopRanked
