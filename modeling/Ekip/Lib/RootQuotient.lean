import Mathlib.Analysis.Real.Sqrt

/-!
# Quotients by a square root, compared exactly

The cosine of two vectors with rational components is a rational number over the root of
another one. Two of them are compared by their squares, each with its sign kept: `value`
is the real number that is meant, and `le_iff_value_le` says that the comparison is its.
-/
namespace Ekip.Lib

/-- The number `num / √square`. -/
structure RootQuotient where
  num : Rat
  square : Rat
  square_pos : 0 < square

namespace RootQuotient

def ofRat (r : Rat) : RootQuotient := { num := r, square := 1, square_pos := one_pos }

noncomputable def value (q : RootQuotient) : ℝ := q.num / √(q.square : ℝ)

/-- The square of the number, with the sign of the number. -/
def signedSquare (q : RootQuotient) : Rat := q.num * |q.num| / q.square

instance instPreorderRootQuotient : Preorder RootQuotient := Preorder.lift signedSquare

instance instDecidableLeRootQuotient : DecidableLE RootQuotient :=
  fun p q => inferInstanceAs (Decidable (p.signedSquare ≤ q.signedSquare))

instance instDecidableLtRootQuotient : DecidableLT RootQuotient :=
  fun p q => inferInstanceAs (Decidable (p.signedSquare < q.signedSquare))

theorem le_def {p q : RootQuotient} : p ≤ q ↔ p.signedSquare ≤ q.signedSquare := Iff.rfl

theorem lt_def {p q : RootQuotient} : p < q ↔ p.signedSquare < q.signedSquare := Iff.rfl

theorem le_of_not_lt {p q : RootQuotient} (h : ¬ p < q) : q ≤ p := Rat.not_lt.mp h

theorem strictMono_mul_abs : StrictMono fun x : ℝ => x * |x| := by
  intro x y hxy
  show x * |x| < y * |y|
  rcases le_total 0 x with hx | hx
  · have hy : 0 ≤ y := hx.trans hxy.le
    rw [abs_of_nonneg hx, abs_of_nonneg hy]
    nlinarith
  · rcases le_total 0 y with hy | hy
    · rw [abs_of_nonpos hx, abs_of_nonneg hy]
      rcases hx.lt_or_eq with hneg | rfl
      · nlinarith
      · nlinarith
    · rw [abs_of_nonpos hx, abs_of_nonpos hy]
      nlinarith

theorem value_mul_abs (q : RootQuotient) : q.value * |q.value| = (q.signedSquare : ℝ) := by
  have hsquare : (0 : ℝ) < (q.square : ℝ) := by exact_mod_cast q.square_pos
  have hroot : √(q.square : ℝ) * √(q.square : ℝ) = q.square := Real.mul_self_sqrt hsquare.le
  unfold value signedSquare
  rw [abs_div, abs_of_nonneg (Real.sqrt_nonneg _), div_mul_div_comm, hroot]
  push_cast
  rfl

theorem le_iff_value_le {p q : RootQuotient} : p ≤ q ↔ p.value ≤ q.value := by
  rw [← strictMono_mul_abs.le_iff_le, value_mul_abs, value_mul_abs, le_def]
  exact_mod_cast Iff.rfl

theorem lt_iff_value_lt {p q : RootQuotient} : p < q ↔ p.value < q.value := by
  rw [lt_def, ← not_le, ← le_def, le_iff_value_le, not_le]

@[simp] theorem value_ofRat (r : Rat) : (ofRat r).value = r := by
  simp [ofRat, value]

end RootQuotient

end Ekip.Lib
