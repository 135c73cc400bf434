import Mathlib.Algebra.Order.BigOperators.Group.Finset
import Mathlib.Algebra.Order.Field.Basic
import Mathlib.Algebra.BigOperators.Group.Finset.Piecewise
import Mathlib.Tactic.Linarith
import Ekip.Core.Exceptions

/-!
# `evaluation/metrics/confidence.py`: calibration by buckets

Predictions are put into the buckets between given edges; the calibration error is the mean of
the gaps of the buckets, by how many predictions each of them has.
-/
namespace Ekip.Evaluation.Confidence

variable {𝕜 : Type} [Field 𝕜] [LinearOrder 𝕜]

structure CalibrationBucket (𝕜 : Type) where
  rangeLow : 𝕜
  rangeHigh : 𝕜
  count : Nat
  meanPredictedConfidence : Option 𝕜
  actualSuccessRate : Option 𝕜
  calibrationGap : Option 𝕜

structure CalibrationReport (𝕜 : Type) where
  buckets : List (CalibrationBucket 𝕜)
  overallCalibrationError : Option 𝕜
  sampleCount : Nat

abbrev Prediction (𝕜 : Type) := 𝕜 × Bool

def edge (bucketEdges : List 𝕜) (i : Nat) : 𝕜 := bucketEdges.getD i 0

/-- What is outside of the edges goes to the first bucket or to the last. -/
def bucketIndex (confidence : 𝕜) (bucketEdges : List 𝕜) : Nat :=
  let lastBucket := bucketEdges.length - 2
  let found := (List.range (bucketEdges.length - 1)).find? fun i =>
    edge bucketEdges i ≤ confidence ∧ confidence < edge bucketEdges (i + 1) ∨
      i = lastBucket ∧ confidence = edge bucketEdges (i + 1)
  found.getD (if confidence < edge bucketEdges 0 then 0 else lastBucket)

/-- `sum(corrects)` counts what is true. -/
def score (p : Prediction 𝕜) : 𝕜 := if p.2 then 1 else 0

def mean (values : List 𝕜) : 𝕜 := values.sum / values.length

def bucket (predictions : List (Prediction 𝕜)) (bucketEdges : List 𝕜) (i : Nat) : CalibrationBucket 𝕜 :=
  let inside := predictions.filter fun p => bucketIndex p.1 bucketEdges = i
  let confidences := inside.map Prod.fst
  let made := fun x : 𝕜 => if inside = [] then none else some x
  { rangeLow := edge bucketEdges i
    rangeHigh := edge bucketEdges (i + 1)
    count := inside.length
    meanPredictedConfidence := made (mean confidences)
    actualSuccessRate := made (mean (inside.map score))
    calibrationGap := made |mean confidences - mean (inside.map score)| }

def computeCalibration (predictions : List (Prediction 𝕜)) (bucketEdges : List 𝕜) :
    Except Core.Exn (CalibrationReport 𝕜) :=
  if bucketEdges.length < 2 then
    .error (.valueError "bucket_edges must have at least 2 edges (one bucket)")
  else
    let buckets := (List.range (bucketEdges.length - 1)).map (bucket predictions bucketEdges)
    let weightedGapSum := (buckets.map fun b => b.calibrationGap.getD 0 * (b.count : 𝕜)).sum
    let totalCount := (buckets.map CalibrationBucket.count).sum
    .ok
      { buckets
        overallCalibrationError := if totalCount = 0 then none else some (weightedGapSum / totalCount)
        sampleCount := totalCount }

/-! ## Every prediction is in one bucket -/

theorem bucketIndex_lt {bucketEdges : List 𝕜} (h : 2 ≤ bucketEdges.length) (confidence : 𝕜) :
    bucketIndex confidence bucketEdges < bucketEdges.length - 1 := by
  unfold bucketIndex
  dsimp only
  cases hfound : (List.range (bucketEdges.length - 1)).find? _ with
  | some i => exact List.mem_range.mp (List.mem_of_find?_eq_some hfound)
  | none =>
    rw [Option.getD_none]
    split <;> omega

/-- What is added up bucket by bucket is what is added up over all. -/
theorem sum_buckets {α : Type} [AddCommMonoid α] {bucketEdges : List 𝕜} (h : 2 ≤ bucketEdges.length)
    (f : Prediction 𝕜 → α) (predictions : List (Prediction 𝕜)) :
    ∑ i ∈ Finset.range (bucketEdges.length - 1),
      ((predictions.filter fun p => bucketIndex p.1 bucketEdges = i).map f).sum = (predictions.map f).sum := by
  induction predictions with
  | nil => simp
  | cons p predictions ih =>
    have hcons : ∀ i, (((p :: predictions).filter fun p => bucketIndex p.1 bucketEdges = i).map f).sum =
        (if bucketIndex p.1 bucketEdges = i then f p else 0) +
          ((predictions.filter fun p => bucketIndex p.1 bucketEdges = i).map f).sum := by
      intro i
      by_cases hi : bucketIndex p.1 bucketEdges = i <;> simp [hi]
    rw [Finset.sum_congr rfl fun i _ => hcons i, Finset.sum_add_distrib, ih, Finset.sum_ite_eq,
      if_pos (Finset.mem_range.mpr (bucketIndex_lt h p.1)), List.map_cons, List.sum_cons]

/-- How far a prediction is from what came of it. -/
def off (p : Prediction 𝕜) : 𝕜 := p.1 - score p

variable [IsStrictOrderedRing 𝕜]

theorem mean_mul_length (values : List 𝕜) : mean values * values.length = values.sum := by
  unfold mean
  cases values with
  | nil => simp
  | cons a values => exact div_mul_cancel₀ _ (Nat.cast_ne_zero.mpr (by simp))

omit [LinearOrder 𝕜] [IsStrictOrderedRing 𝕜] in
theorem sum_off (predictions : List (Prediction 𝕜)) :
    (predictions.map off).sum = (predictions.map Prod.fst).sum - (predictions.map score).sum := by
  induction predictions with
  | nil => simp
  | cons p predictions ih =>
    simp only [List.map_cons, List.sum_cons, ih, off]
    exact sub_add_sub_comm _ _ _ _

theorem means_mul_length (predictions : List (Prediction 𝕜)) :
    (mean (predictions.map Prod.fst) - mean (predictions.map score)) * predictions.length =
      (predictions.map off).sum := by
  have hfst := mean_mul_length (predictions.map Prod.fst)
  have hscore := mean_mul_length (predictions.map score)
  rw [List.length_map] at hfst hscore
  rw [sub_mul, hfst, hscore, sum_off]

theorem abs_sum_off_le {predictions : List (Prediction 𝕜)} (h : ∀ p ∈ predictions, 0 ≤ p.1 ∧ p.1 ≤ 1) :
    |(predictions.map off).sum| ≤ predictions.length := by
  induction predictions with
  | nil => simp
  | cons p predictions ih =>
    obtain ⟨hlow, hhigh⟩ := h p List.mem_cons_self
    have hoff : |off p| ≤ 1 := by
      unfold off score
      split <;> rw [abs_le] <;> constructor <;> linarith
    have hrest := ih fun q hq => h q (List.mem_cons_of_mem _ hq)
    rw [List.map_cons, List.sum_cons, List.length_cons, Nat.cast_succ]
    linarith [abs_add_le (off p) (predictions.map off).sum]

/-- The gap of a bucket, as often as it counts. -/
theorem gap_mul_count (predictions : List (Prediction 𝕜)) (bucketEdges : List 𝕜) (i : Nat) :
    (bucket predictions bucketEdges i).calibrationGap.getD 0 * ((bucket predictions bucketEdges i).count : 𝕜) =
      |((predictions.filter fun p => bucketIndex p.1 bucketEdges = i).map off).sum| := by
  unfold bucket
  dsimp only
  rw [← means_mul_length, abs_mul, Nat.abs_cast]
  split
  · rename_i hempty
    simp [hempty]
  · rfl

/-- All predictions are counted, and the error is none only where there are none. It is no less
than the distance between the mean confidence and the share of what was correct, and at most 1
where the confidences are. The arithmetic is exact: floats miss the bound by their rounding, as
they do for a confidence of 0.59 and one of 0.98 that are both correct. -/
theorem calibration_error {predictions : List (Prediction 𝕜)} {bucketEdges : List 𝕜} {report : CalibrationReport 𝕜}
    (h : computeCalibration predictions bucketEdges = .ok report) :
    report.sampleCount = predictions.length ∧ (report.overallCalibrationError = none ↔ predictions = []) ∧
      ∀ e, report.overallCalibrationError = some e →
        |mean (predictions.map Prod.fst) - mean (predictions.map score)| ≤ e ∧
        ((∀ p ∈ predictions, 0 ≤ p.1 ∧ p.1 ≤ 1) → e ≤ 1) := by
  unfold computeCalibration at h
  split at h
  · cases h
  rename_i hedges
  have hedges : 2 ≤ bucketEdges.length := Nat.not_lt.mp hedges
  obtain rfl := Except.ok.inj h
  have hcount : (((List.range (bucketEdges.length - 1)).map (bucket predictions bucketEdges)).map
      CalibrationBucket.count).sum = predictions.length := by
    rw [List.map_map]
    refine Eq.trans ?_ ((sum_buckets hedges (fun _ => 1) predictions).trans (by simp))
    exact congrArg List.sum (List.map_congr_left fun i _ => by simp [bucket])
  have hgaps : (((List.range (bucketEdges.length - 1)).map (bucket predictions bucketEdges)).map
      fun b => b.calibrationGap.getD 0 * (b.count : 𝕜)).sum = ∑ i ∈ Finset.range (bucketEdges.length - 1),
        |((predictions.filter fun p => bucketIndex p.1 bucketEdges = i).map off).sum| := by
    rw [List.map_map]
    exact congrArg List.sum (List.map_congr_left fun i _ => gap_mul_count predictions bucketEdges i)
  dsimp only
  rw [hcount, hgaps]
  refine ⟨rfl, by simp, fun e he => ?_⟩
  split at he
  · cases he
  rename_i hne
  obtain rfl := Option.some.inj he
  have hpos : (0 : 𝕜) < predictions.length := Nat.cast_pos.mpr (Nat.pos_of_ne_zero hne)
  refine ⟨?_, fun hunit => ?_⟩
  · rw [le_div_iff₀ hpos, ← abs_of_pos hpos, ← abs_mul, means_mul_length, ← sum_buckets hedges off predictions]
    exact Finset.abs_sum_le_sum_abs _ _
  · rw [div_le_one hpos]
    have hones := sum_buckets hedges (fun _ => (1 : 𝕜)) predictions
    simp only [List.map_const', List.sum_replicate, nsmul_one] at hones
    rw [← hones]
    exact Finset.sum_le_sum fun i _ => abs_sum_off_le fun p hp => hunit p (List.mem_filter.mp hp).1

/-- Sure and wrong, and on the edge of the last bucket. -/
theorem calibration_error_edge : ∃ report : CalibrationReport ℚ,
    computeCalibration [(1, false), (1 / 2, true)] [0, 1 / 2, 1] = .ok report ∧ report.sampleCount = 2 ∧
      ∀ e, report.overallCalibrationError = some e → |mean [1, 1 / 2] - mean [0, 1]| ≤ e := by
  have hok : computeCalibration [((1 : ℚ), false), (1 / 2, true)] [0, 1 / 2, 1] = .ok _ := rfl
  have hall := calibration_error hok
  exact ⟨_, hok, hall.1, fun e he => (hall.2.2 e he).1⟩

end Ekip.Evaluation.Confidence
