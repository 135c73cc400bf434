import Mathlib.Algebra.BigOperators.Ring.Finset
import Mathlib.Algebra.Order.BigOperators.Group.Finset
import Mathlib.Algebra.Order.Field.Basic
import Mathlib.Algebra.Order.Ring.Rat
import Mathlib.Data.Fintype.BigOperators
import Mathlib.Tactic.FieldSimp
import Mathlib.Tactic.Linarith
import Mathlib.Tactic.Ring

/-!
# Cohen's kappa of two raters

A pair is what the first and the second rater chose for one item. `products` is the chance
agreement in whole numbers: for every label, how often the one rater chose it times how often
the other did.
-/
namespace Ekip.Lib.CohensKappa

variable {α : Type} [DecidableEq α]

def rows (pairs : List (α × α)) (label : α) : Nat := pairs.countP fun pair => pair.1 = label

def cols (pairs : List (α × α)) (label : α) : Nat := pairs.countP fun pair => pair.2 = label

def both (pairs : List (α × α)) (label : α) : Nat :=
  pairs.countP fun pair => pair.1 = label ∧ pair.2 = label

def agreeing (pairs : List (α × α)) : Nat := pairs.countP fun pair => pair.1 = pair.2

section Counts

variable (pair : α × α) (pairs : List (α × α)) (label : α)

theorem rows_cons :
    rows (pair :: pairs) label = rows pairs label + if pair.1 = label then 1 else 0 := by
  simp [rows, List.countP_cons]

theorem cols_cons :
    cols (pair :: pairs) label = cols pairs label + if pair.2 = label then 1 else 0 := by
  simp [cols, List.countP_cons]

theorem both_cons : both (pair :: pairs) label =
    both pairs label + if pair.1 = label ∧ pair.2 = label then 1 else 0 := by
  simp [both, List.countP_cons]

theorem agreeing_cons :
    agreeing (pair :: pairs) = agreeing pairs + if pair.1 = pair.2 then 1 else 0 := by
  simp [agreeing, List.countP_cons]

theorem rows_append (more : List (α × α)) :
    rows (pairs ++ more) label = rows pairs label + rows more label := by
  simp [rows, List.countP_append]

theorem cols_append (more : List (α × α)) :
    cols (pairs ++ more) label = cols pairs label + cols more label := by
  simp [cols, List.countP_append]

theorem rows_le_length : rows pairs label ≤ pairs.length := List.countP_le_length

theorem cols_le_length : cols pairs label ≤ pairs.length := List.countP_le_length

theorem agreeing_le_length : agreeing pairs ≤ pairs.length := List.countP_le_length

theorem agreeing_eq_length {pairs : List (α × α)} :
    agreeing pairs = pairs.length ↔ ∀ pair ∈ pairs, pair.1 = pair.2 := by
  simp [agreeing, List.countP_eq_length]

/-- A pair counts for a label in its row, in its column or in both. -/
theorem rows_add_cols_le : rows pairs label + cols pairs label ≤ pairs.length + both pairs label := by
  induction pairs with
  | nil => simp [rows, cols, both]
  | cons pair pairs ih =>
    rw [rows_cons, cols_cons, both_cons, List.length_cons]
    by_cases hrow : pair.1 = label
    · by_cases hcol : pair.2 = label
      · rw [if_pos hrow, if_pos hcol, if_pos ⟨hrow, hcol⟩]
        omega
      · rw [if_pos hrow, if_neg hcol, if_neg fun h => hcol h.2]
        omega
    · by_cases hcol : pair.2 = label
      · rw [if_neg hrow, if_pos hcol, if_neg fun h => hrow h.1]
        omega
      · rw [if_neg hrow, if_neg hcol, if_neg fun h => hrow h.1]
        omega

end Counts

/-! ## Sums over the labels -/

section Sums

variable [Fintype α]

theorem sum_rows (pairs : List (α × α)) : ∑ label, rows pairs label = pairs.length := by
  induction pairs with
  | nil => simp [rows]
  | cons pair pairs ih =>
    simp only [rows_cons, Finset.sum_add_distrib, ih, Finset.sum_ite_eq, Finset.mem_univ,
      if_true, List.length_cons]

theorem sum_cols (pairs : List (α × α)) : ∑ label, cols pairs label = pairs.length := by
  induction pairs with
  | nil => simp [cols]
  | cons pair pairs ih =>
    simp only [cols_cons, Finset.sum_add_distrib, ih, Finset.sum_ite_eq, Finset.mem_univ,
      if_true, List.length_cons]

theorem sum_both (pairs : List (α × α)) : ∑ label, both pairs label = agreeing pairs := by
  induction pairs with
  | nil => simp [both, agreeing]
  | cons pair pairs ih =>
    have hpair : ∑ label, (if pair.1 = label ∧ pair.2 = label then 1 else 0) =
        if pair.1 = pair.2 then 1 else 0 := by
      by_cases h : pair.1 = pair.2
      · rw [if_pos h]
        simp [h]
      · rw [if_neg h]
        refine Finset.sum_eq_zero fun label _ => if_neg ?_
        rintro ⟨hrow, hcol⟩
        exact h (hrow.trans hcol.symm)
    simp only [both_cons, Finset.sum_add_distrib, ih, hpair, agreeing_cons]

def products (pairs : List (α × α)) : Nat := ∑ label, rows pairs label * cols pairs label

/-- Chance agreement is at most half way between what was observed and certainty. -/
theorem two_mul_products_le (pairs : List (α × α)) :
    2 * products pairs ≤ pairs.length * pairs.length + pairs.length * agreeing pairs := by
  have hlabel (label : α) : 4 * (rows pairs label * cols pairs label) ≤
      (rows pairs label + cols pairs label) * pairs.length +
        2 * pairs.length * both pairs label := by
    have hsum := rows_add_cols_le pairs label
    have hrow := rows_le_length pairs label
    have hcol := cols_le_length pairs label
    have hsquare : 4 * (rows pairs label * cols pairs label) ≤
        (rows pairs label + cols pairs label) * (rows pairs label + cols pairs label) := by
      nlinarith [sq_nonneg ((rows pairs label : ℤ) - cols pairs label)]
    have hgrow : (rows pairs label + cols pairs label) * (rows pairs label + cols pairs label) ≤
        (rows pairs label + cols pairs label) * (pairs.length + both pairs label) :=
      Nat.mul_le_mul_left _ hsum
    have htwice : (rows pairs label + cols pairs label) * both pairs label ≤
        2 * pairs.length * both pairs label := Nat.mul_le_mul_right _ (by omega)
    calc 4 * (rows pairs label * cols pairs label)
        ≤ (rows pairs label + cols pairs label) * (pairs.length + both pairs label) :=
          hsquare.trans hgrow
      _ = (rows pairs label + cols pairs label) * pairs.length +
          (rows pairs label + cols pairs label) * both pairs label := Nat.mul_add _ _ _
      _ ≤ _ := Nat.add_le_add_left htwice _
  have hall := Finset.sum_le_sum fun label (_ : label ∈ Finset.univ) => hlabel label
  rw [← Finset.mul_sum, Finset.sum_add_distrib, ← Finset.sum_mul, ← Finset.mul_sum,
    Finset.sum_add_distrib, sum_rows, sum_cols, sum_both] at hall
  unfold products
  nlinarith

end Sums

/-! ## The statistic -/

section Statistic

def observed (pairs : List (α × α)) : Rat := agreeing pairs / pairs.length

variable {pairs : List (α × α)}

omit [DecidableEq α] in
theorem length_pos (h : pairs ≠ []) : (0 : Rat) < pairs.length := by
  exact_mod_cast List.length_pos_iff.mpr h

theorem observed_le_one (h : pairs ≠ []) : observed pairs ≤ 1 := by
  unfold observed
  rw [div_le_one (length_pos h)]
  exact_mod_cast agreeing_le_length pairs

theorem observed_eq_one (h : pairs ≠ []) :
    observed pairs = 1 ↔ ∀ pair ∈ pairs, pair.1 = pair.2 := by
  unfold observed
  rw [div_eq_one_iff_eq (length_pos h).ne', ← agreeing_eq_length]
  exact_mod_cast Iff.rfl

variable [Fintype α]

def chance (pairs : List (α × α)) : Rat := products pairs / (pairs.length * pairs.length)

/-- Without pairs, or where chance alone agrees for certain, there is no kappa. -/
def kappa (pairs : List (α × α)) : Option Rat :=
  if pairs = [] ∨ chance pairs = 1 then none
  else some ((observed pairs - chance pairs) / (1 - chance pairs))

theorem two_mul_chance_le (h : pairs ≠ []) : 2 * chance pairs ≤ 1 + observed pairs := by
  have hlength := length_pos h
  have hproducts : (2 * products pairs : Rat) ≤
      pairs.length * pairs.length + pairs.length * agreeing pairs := by
    exact_mod_cast two_mul_products_le pairs
  unfold chance observed
  rw [← mul_div_assoc, div_le_iff₀ (mul_pos hlength hlength)]
  calc (2 * products pairs : Rat)
      ≤ pairs.length * pairs.length + pairs.length * agreeing pairs := hproducts
    _ = (1 + agreeing pairs / pairs.length) * (pairs.length * pairs.length) := by
      field_simp

theorem chance_le_one (h : pairs ≠ []) : chance pairs ≤ 1 := by
  have htwice := two_mul_chance_le h
  have hobserved := observed_le_one h
  linarith

theorem chance_nonneg (pairs : List (α × α)) : 0 ≤ chance pairs := by
  unfold chance
  exact div_nonneg (Nat.cast_nonneg _) (mul_nonneg (Nat.cast_nonneg _) (Nat.cast_nonneg _))

/-- Where chance alone agrees for certain, all labels agree. -/
theorem agree_of_chance (h : pairs ≠ []) (hchance : chance pairs = 1) :
    ∀ pair ∈ pairs, pair.1 = pair.2 := by
  have htwice := two_mul_chance_le h
  have hobserved := observed_le_one h
  exact (observed_eq_one h).mp (by linarith)

/-- Kappa is between -1 and 1, and 1 only where all labels agree. -/
theorem kappa_range {k : Rat} (h : kappa pairs = some k) :
    -1 ≤ k ∧ k ≤ 1 ∧ (k = 1 → ∀ pair ∈ pairs, pair.1 = pair.2) := by
  unfold kappa at h
  split at h
  case isTrue => cases h
  case isFalse hdefined =>
    obtain rfl := Option.some.inj h
    rw [not_or] at hdefined
    obtain ⟨hne, hchance⟩ := hdefined
    have hpos : 0 < 1 - chance pairs := by
      have hle := chance_le_one hne
      have hlt := lt_of_le_of_ne hle hchance
      linarith
    have htwice := two_mul_chance_le hne
    have hobserved := observed_le_one hne
    refine ⟨?_, ?_, ?_⟩
    · rw [le_div_iff₀ hpos]
      linarith
    · rw [div_le_one hpos]
      linarith
    · intro hone
      rw [div_eq_one_iff_eq hpos.ne'] at hone
      exact (observed_eq_one hne).mp (by linarith)

end Statistic

/-! ## Pairs in another order -/

section Reordered

/-- Some of the pairs are turned round. -/
def Reordered (pairs pairs' : List (α × α)) : Prop :=
  List.Forall₂ (fun pair pair' => pair' = pair ∨ pair' = pair.swap) pairs pairs'

def disagreeing (pairs : List (α × α)) : List (α × α) := pairs.filter fun pair => pair.1 ≠ pair.2

variable {pairs pairs' : List (α × α)}

omit [DecidableEq α] in
theorem Reordered.length_eq (h : Reordered pairs pairs') : pairs'.length = pairs.length :=
  (List.Forall₂.length_eq h).symm

theorem Reordered.agreeing_eq (h : Reordered pairs pairs') : agreeing pairs' = agreeing pairs := by
  induction h with
  | nil => rfl
  | cons hpair _ ih =>
    rw [agreeing_cons, agreeing_cons, ih]
    rcases hpair with rfl | rfl
    · rfl
    · simp only [Prod.fst_swap, Prod.snd_swap, eq_comm]

theorem Reordered.agree (h : Reordered pairs pairs') (hagree : ∀ pair ∈ pairs, pair.1 = pair.2) :
    pairs' = pairs ∧ ∀ label, rows pairs label = cols pairs label := by
  induction h with
  | nil => exact ⟨rfl, fun _ => rfl⟩
  | @cons pair pair' pairs pairs' hpair _ ih =>
    obtain ⟨hsame, hcounts⟩ := ih fun other hother => hagree other (List.mem_cons_of_mem _ hother)
    have heq := hagree pair List.mem_cons_self
    refine ⟨?_, ?_⟩
    · rcases hpair with rfl | rfl
      · rw [hsame]
      · rw [hsame]
        exact congrArg (· :: pairs) (Prod.ext heq.symm heq)
    · intro label
      rw [rows_cons, cols_cons, hcounts, heq]

/-- With one disagreement at most, turning pairs round leaves rows and columns or exchanges them. -/
theorem Reordered.counts (h : Reordered pairs pairs') (hone : (disagreeing pairs).length ≤ 1) :
    (∀ label, rows pairs' label = rows pairs label ∧ cols pairs' label = cols pairs label) ∨
      ∀ label, rows pairs' label = cols pairs label ∧ cols pairs' label = rows pairs label := by
  induction h with
  | nil => exact .inl fun _ => ⟨rfl, rfl⟩
  | @cons pair pair' pairs pairs' hpair hrest ih =>
    by_cases hagree : pair.1 = pair.2
    · have hkeep : disagreeing (pair :: pairs) = disagreeing pairs := by
        simp [disagreeing, hagree]
      have hsame : pair' = pair := by
        rcases hpair with rfl | rfl
        · rfl
        · exact Prod.ext hagree.symm hagree
      rw [hkeep] at hone
      rw [hsame]
      rcases ih hone with hleft | hright
      · refine .inl fun label => ?_
        simp only [rows_cons, cols_cons, hleft label, and_self]
      · refine .inr fun label => ?_
        simp only [rows_cons, cols_cons, hright label, hagree, and_self]
    · have hcount : disagreeing (pair :: pairs) = pair :: disagreeing pairs := by
        simp [disagreeing, hagree]
      rw [hcount, List.length_cons] at hone
      have hnone : disagreeing pairs = [] := List.length_eq_zero_iff.mp (by omega)
      have hall : ∀ other ∈ pairs, other.1 = other.2 := by
        intro other hother
        have hfilter := List.filter_eq_nil_iff.mp hnone other hother
        simpa using hfilter
      obtain ⟨hrestSame, hcounts⟩ := Reordered.agree hrest hall
      rw [hrestSame]
      rcases hpair with rfl | rfl
      · exact .inl fun _ => ⟨rfl, rfl⟩
      · refine .inr fun label => ?_
        simp only [rows_cons, cols_cons, hcounts label, Prod.fst_swap, Prod.snd_swap, and_self]

/-- How far two pairs that disagree share their labels, with a sign for their order. -/
def overlap (x y : α × α) : ℤ :=
  (if x.1 = y.1 then 1 else 0) - (if x.1 = y.2 then 1 else 0) -
    (if x.2 = y.1 then 1 else 0) + (if x.2 = y.2 then 1 else 0)

theorem overlap_ne_zero {x y : α × α} (hx : x.1 ≠ x.2) (hy : y.1 ≠ y.2)
    (hshare : x.1 = y.1 ∨ x.1 = y.2 ∨ x.2 = y.1 ∨ x.2 = y.2) : overlap x y ≠ 0 := by
  obtain ⟨a, b⟩ := x
  obtain ⟨c, d⟩ := y
  unfold overlap
  dsimp only at hx hy hshare ⊢
  by_cases hac : a = c
  · subst hac
    rw [if_pos rfl, if_neg hy, if_neg fun h => hx h.symm]
    split <;> omega
  · by_cases had : a = d
    · subst had
      have hba : ¬ b = a := fun h => hx h.symm
      simp only [hac, hba, if_true, if_false]
      split <;> omega
    · by_cases hbc : b = c
      · subst hbc
        rw [if_neg hac, if_neg had, if_pos rfl, if_neg hy]
        omega
      · by_cases hbd : b = d
        · rw [if_neg hac, if_neg had, if_neg hbc, if_pos hbd]
          omega
        · exact absurd hshare (by simp [hac, had, hbc, hbd])

variable [Fintype α]

theorem Reordered.products_eq (h : Reordered pairs pairs')
    (hone : (disagreeing pairs).length ≤ 1) : products pairs' = products pairs := by
  unfold products
  rcases h.counts hone with hleft | hright
  · exact Finset.sum_congr rfl fun label _ => by rw [(hleft label).1, (hleft label).2]
  · exact Finset.sum_congr rfl fun label _ => by
      rw [(hright label).1, (hright label).2, Nat.mul_comm]

/-- Of four ways to turn two pairs round, the products add up to their overlap. -/
theorem products_overlap (a b c : List (α × α)) (x y : α × α) :
    ((products (a ++ x :: b ++ y :: c) : ℕ) : ℤ) - products (a ++ x.swap :: b ++ y :: c) -
      products (a ++ x :: b ++ y.swap :: c) + products (a ++ x.swap :: b ++ y.swap :: c) =
        -2 * overlap x y := by
  have hoverlap : overlap x y = ∑ label,
      (((if x.1 = label then 1 else 0) - if x.2 = label then 1 else 0 : ℤ) *
        ((if y.1 = label then 1 else 0) - if y.2 = label then 1 else 0)) := by
    simp only [sub_mul, mul_sub, Finset.sum_sub_distrib, ite_mul, one_mul, zero_mul,
      Finset.sum_ite_eq, Finset.mem_univ, if_true]
    unfold overlap
    simp only [eq_comm]
    ring
  unfold products
  push_cast
  rw [hoverlap, ← Finset.sum_sub_distrib, ← Finset.sum_sub_distrib, ← Finset.sum_add_distrib,
    Finset.mul_sum]
  refine Finset.sum_congr rfl fun label _ => ?_
  simp only [List.append_assoc, List.cons_append, rows_append, cols_append, rows_cons, cols_cons,
    Prod.fst_swap, Prod.snd_swap]
  push_cast
  ring

end Reordered

end Ekip.Lib.CohensKappa
