import Mathlib.Algebra.Order.BigOperators.Group.List
import Mathlib.Algebra.BigOperators.Ring.List
import Mathlib.Algebra.Order.Field.Basic

/-!
# Weighted means

The mean of the values of a list, by weights that need not add up to one.
-/
namespace Ekip.Lib.WeightedMean

variable {ι 𝕜 : Type} [Field 𝕜] [LinearOrder 𝕜] [IsStrictOrderedRing 𝕜] {w f g : ι → 𝕜} {l : List ι}

def mean (w f : ι → 𝕜) (l : List ι) : 𝕜 := (l.map fun i => f i * w i).sum / (l.map w).sum

theorem weights_pos (hne : l ≠ []) (hw : ∀ i ∈ l, 0 < w i) : 0 < (l.map w).sum := by
  refine List.sum_pos _ ?_ ?_
  · intro a ha
    obtain ⟨i, hi, rfl⟩ := List.mem_map.mp ha
    exact hw i hi
  · simpa using hne

theorem mean_mono (hw : ∀ i ∈ l, 0 < w i) (h : ∀ i ∈ l, f i ≤ g i) : mean w f l ≤ mean w g l := by
  have htotal : 0 ≤ (l.map w).sum := by
    refine List.sum_nonneg ?_
    intro a ha
    obtain ⟨i, hi, rfl⟩ := List.mem_map.mp ha
    exact le_of_lt (hw i hi)
  refine div_le_div_of_nonneg_right ?_ htotal
  refine List.sum_le_sum ?_
  intro i hi
  exact mul_le_mul_of_nonneg_right (h i hi) (le_of_lt (hw i hi))

theorem mean_const (hne : l ≠ []) (hw : ∀ i ∈ l, 0 < w i) (a : 𝕜) : mean w (fun _ => a) l = a := by
  unfold mean
  rw [List.sum_map_mul_left]
  exact mul_div_cancel_right₀ a (ne_of_gt (weights_pos hne hw))

/-- A mean is at least every lower bound of its values. -/
theorem le_mean (hne : l ≠ []) (hw : ∀ i ∈ l, 0 < w i) {a : 𝕜} (h : ∀ i ∈ l, a ≤ f i) :
    a ≤ mean w f l := by
  calc a = mean w (fun _ => a) l := (mean_const hne hw a).symm
    _ ≤ mean w f l := mean_mono hw h

theorem mean_le (hne : l ≠ []) (hw : ∀ i ∈ l, 0 < w i) {a : 𝕜} (h : ∀ i ∈ l, f i ≤ a) :
    mean w f l ≤ a := by
  calc mean w f l ≤ mean w (fun _ => a) l := mean_mono hw h
    _ = a := mean_const hne hw a

end Ekip.Lib.WeightedMean
