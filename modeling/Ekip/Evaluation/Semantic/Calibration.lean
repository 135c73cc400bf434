import Mathlib.Data.List.MinMax
import Mathlib.Data.Prod.Lex
import Mathlib.Data.Rat.Defs
import Mathlib.Algebra.Order.Ring.Rat

/-!
# Thresholds compared on labelled examples

`evaluation/semantic/calibration.py`, and what `scripts/eval_confidence.py` computes for the
report that is read there. Scores and metrics are exact; rows of `threshold_sweep`
may lack their counts.
-/
namespace Ekip.Evaluation

/-! ## Precision and recall -/

structure Confusion where
  tp : Nat
  fp : Nat
  fn : Nat
  tn : Nat

structure Metrics where
  precision : Option Rat
  «recall» : Option Rat
  f1 : Option Rat
  accuracy : Option Rat

def quotient (count total : Nat) : Option Rat := if total = 0 then none else some ((count : Rat) / total)

def Confusion.metrics (confusion : Confusion) : Metrics :=
  let precision := quotient confusion.tp (confusion.tp + confusion.fp)
  let «recall» := quotient confusion.tp (confusion.tp + confusion.fn)
  let f1 := match precision, «recall» with
    | some p, some r => if p ≠ 0 ∧ r ≠ 0 then some (2 * p * r / (p + r)) else none
    | _, _ => none
  let total := confusion.tp + confusion.fp + confusion.fn + confusion.tn
  { precision, «recall», f1, accuracy := quotient (confusion.tp + confusion.tn) total }

/-- Pairs of what is predicted and what is so. -/
def confusionOf (predictions : List (Bool × Bool)) : Confusion :=
  { tp := predictions.countP fun pair => pair.1 && pair.2
    fp := predictions.countP fun pair => pair.1 && !pair.2
    fn := predictions.countP fun pair => !pair.1 && pair.2
    tn := predictions.countP fun pair => !pair.1 && !pair.2 }

def binaryPrecisionRecall (predictions : List (Bool × Bool)) : Metrics :=
  (confusionOf predictions).metrics

/-! ## The sweep -/

structure CalibrationCandidateResult where
  candidateValue : Rat
  metrics : Metrics

inductive CalibrationStatus
  | calibrated
  | provisional
  | insufficientData
deriving DecidableEq

/-- The text of a rationale, without its numbers. -/
inductive Rationale
  | belowFloor
  | oneClass
  | noNegatives
  | tiesOrBeats
  | marginal
  | outperforms

structure CalibrationReport where
  settingName : String
  currentValue : Rat
  sampleSize : Nat
  minimumSampleSize : Int
  candidates : List CalibrationCandidateResult
  recommendedValue : Option Rat
  status : CalibrationStatus
  rationale : Rationale

/-- What the threshold predicts for the scores. -/
def predictionsAt (higherScoreMeansPositive : Bool) (scoredExamples : List (Rat × Bool))
    (candidate : Rat) : List (Bool × Bool) :=
  scoredExamples.map fun scored =>
    (if higherScoreMeansPositive then decide (candidate ≤ scored.1) else decide (scored.1 ≤ candidate),
      scored.2)

def candidateRow (higherScoreMeansPositive : Bool) (scoredExamples : List (Rat × Bool))
    (candidate : Rat) : CalibrationCandidateResult :=
  { candidateValue := candidate
    metrics := binaryPrecisionRecall (predictionsAt higherScoreMeansPositive scoredExamples candidate) }

/-- `max(rows, key=lambda row: (metric, threshold))`, the first of them. -/
def firstBest {α : Type} (metric threshold : α → Rat) (rows : List α) : Option α :=
  rows.argmax fun row => toLex (metric row, threshold row)

def sweepBinaryThreshold (settingName : String) (currentValue : Rat)
    (scoredExamples : List (Rat × Bool)) (candidates : List Rat) (minimumSampleSize : Int := 20)
    (marginForChange : Rat := 1 / 20) (higherScoreMeansPositive : Bool := true) :
    CalibrationReport :=
  let sampleSize := scoredExamples.length
  let rows := candidates.map (candidateRow higherScoreMeansPositive scoredExamples)
  let report := fun recommendedValue status rationale =>
    { settingName, currentValue, sampleSize, minimumSampleSize, candidates := rows, recommendedValue,
      status, rationale : CalibrationReport }
  let scoredRows := rows.filter fun row => row.metrics.f1.isSome
  if (sampleSize : Int) < minimumSampleSize then report none .insufficientData .belowFloor
  else match firstBest (fun row => row.metrics.f1.getD 0) CalibrationCandidateResult.candidateValue
      scoredRows with
    | none => report none .insufficientData .oneClass
    | some best =>
      let currentRow := rows.find? fun row => row.candidateValue = currentValue
      let currentF1 := ((currentRow.bind fun row => row.metrics.f1)).getD 0
      let bestF1 := best.metrics.f1.getD 0
      if currentRow.isSome ∧ bestF1 ≤ currentF1 then report (some currentValue) .calibrated .tiesOrBeats
      else if bestF1 - currentF1 < marginForChange then
        report (some currentValue) .provisional .marginal
      else report (some best.candidateValue) .provisional .outperforms

/-! ## The report of `scripts/eval_confidence.py` -/

structure QuestionResult where
  confidence : Rat
  isPositive : Bool
  error : Option String := none

/-- A result with an error is no evidence. -/
def confusionAt (results : List QuestionResult) (threshold : Rat) : Confusion :=
  let evaluated := results.filter fun result => result.error.isNone
  { tp := evaluated.countP fun result => decide (threshold ≤ result.confidence) && result.isPositive
    fp := evaluated.countP fun result => decide (threshold ≤ result.confidence) && !result.isPositive
    fn := evaluated.countP fun result => !decide (threshold ≤ result.confidence) && result.isPositive
    tn := evaluated.countP fun result => !decide (threshold ≤ result.confidence) && !result.isPositive }

structure SweepRow where
  threshold : Rat
  tp : Option Nat
  fp : Option Nat
  fn : Option Nat
  tn : Option Nat
  metrics : Metrics

def sweepRow (results : List QuestionResult) (threshold : Rat) : SweepRow :=
  let confusion := confusionAt results threshold
  { threshold
    tp := some confusion.tp
    fp := some confusion.fp
    fn := some confusion.fn
    tn := some confusion.tn
    metrics := confusion.metrics }

/-- Without a row there is no best one, and no report. -/
def pickBest (sweepRows : List SweepRow) : Option SweepRow :=
  let scored := sweepRows.filter fun row => row.metrics.f1.isSome
  if scored = [] then firstBest (fun row => row.metrics.precision.getD 0) SweepRow.threshold sweepRows
  else firstBest (fun row => row.metrics.f1.getD 0) SweepRow.threshold scored

structure EvalConfidenceReport where
  currentDefaultThreshold : Rat
  bestThreshold : Option Rat
  bestThresholdMetrics : Option Metrics
  thresholdSweep : List SweepRow

def buildReport (results : List QuestionResult) (thresholds : List Rat) (currentThreshold : Rat) :
    Option EvalConfidenceReport :=
  let sweepRows := thresholds.map (sweepRow results)
  (pickBest sweepRows).map fun best =>
    { currentDefaultThreshold := currentThreshold
      bestThreshold := some best.threshold
      bestThresholdMetrics := some best.metrics
      thresholdSweep := sweepRows }

/-- What is read off a report that exists. -/
def calibrationOf (data : EvalConfidenceReport) (minimumSampleSize : Int) (marginForChange : Rat) :
    CalibrationReport :=
  let currentValue := data.currentDefaultThreshold
  let currentRow := data.thresholdSweep.find? fun row => row.threshold = currentValue
  let sampleSize : Nat := currentRow.elim 0 fun row =>
    row.tp.getD 0 + row.fp.getD 0 + row.fn.getD 0 + row.tn.getD 0
  let negativeExamples : Nat := currentRow.elim 0 fun row => row.fp.getD 0 + row.tn.getD 0
  let bestF1 : Rat := (data.bestThresholdMetrics.bind fun best => best.f1).getD 0
  let currentF1 : Rat := (currentRow.bind fun row => row.metrics.f1).getD 0
  let verdict : CalibrationStatus × Rationale :=
    if (sampleSize : Int) < minimumSampleSize then (.insufficientData, .belowFloor)
    else if negativeExamples = 0 then (.insufficientData, .noNegatives)
    else if data.bestThreshold = some currentValue ∨ bestF1 ≤ currentF1 then
      (.calibrated, .tiesOrBeats)
    else if bestF1 - currentF1 < marginForChange then (.provisional, .marginal)
    else (.provisional, .outperforms)
  { settingName := "confidence_threshold"
    currentValue
    sampleSize
    minimumSampleSize
    candidates := data.thresholdSweep.map fun row =>
      { candidateValue := row.threshold, metrics := row.metrics }
    recommendedValue :=
      if verdict.1 = .provisional then data.bestThreshold else some currentValue
    status := verdict.1
    rationale := verdict.2 }

/-- There is no calibration without a report. -/
def calibrationFromEvalConfidenceReport (data : Option EvalConfidenceReport)
    (minimumSampleSize : Int := 20) (marginForChange : Rat := 1 / 20) : Option CalibrationReport :=
  data.map fun data => calibrationOf data minimumSampleSize marginForChange

end Ekip.Evaluation
