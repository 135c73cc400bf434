import Ekip.Evaluation.Semantic.Agreement
import Ekip.Lib.Firsts

/-!
# The evaluator against the human ground truth

`evaluator_validation.py`, the snapshot hash of `annotation_store.py` and
`_build_human_ground_truth_report` of `scripts/run_semantic_evaluation.py`. `digest` stands for
SHA-256 of the text that the three parts are written as. The texts of rationales are left out,
and so is the eligibility that the script derives from the two reports.
-/
namespace Ekip.Evaluation.Semantic

open Ekip.Core Ekip.Lib

/-! ## Results of a run -/

structure AnswerQualityResult where
  caseId : String
  generatedAnswer : String
  /-- `judgement.observed_answer_mode`. -/
  judgement : Option ObservedAnswerMode
  outcomeCorrectness : Option AnswerOutcomeCorrectness

/-- The outcomes, in the order of their names. -/
def outcomes : List AnswerOutcomeCorrectness :=
  [.correct, .criticalFailure, .incorrectRefusal, .overconfident, .partiallyCorrect]

/-! ## Validation -/

inductive Severity
  | critical
  | high

def classifySeverity : AnswerOutcomeCorrectness → AnswerOutcomeCorrectness → Option Severity
  | .criticalFailure, .correct => some .critical
  | .criticalFailure, .partiallyCorrect => some .critical
  | .incorrectRefusal, .correct => some .critical
  | .overconfident, .correct => some .high
  | _, _ => none

structure SevereDisagreement where
  caseId : String
  humanOutcome : AnswerOutcomeCorrectness
  evaluatorOutcome : AnswerOutcomeCorrectness
  severity : Severity

structure ConfusionMatrixCell where
  humanLabel : AnswerOutcomeCorrectness
  evaluatorLabel : AnswerOutcomeCorrectness
  count : Nat

structure ClassMetric where
  label : AnswerOutcomeCorrectness
  support : Nat
  precision : Option Rat
  «recall» : Option Rat
  f1 : Option Rat

structure EvaluatorValidationReport where
  datasetVersion : String
  sampleSize : Nat
  minimumSampleSize : Int
  answerModeAgreementRate : Option Rat
  outcomeAgreementRate : Option Rat
  outcomeConfusionMatrix : List ConfusionMatrixCell
  outcomeClassMetrics : List ClassMetric
  severeDisagreements : List SevereDisagreement
  excludedCaseCount : Nat
  status : ReportStatus

/-- What is compared for one case. -/
structure Comparison where
  caseId : String
  humanMode : ObservedAnswerMode
  evaluatorMode : ObservedAnswerMode
  humanOutcome : AnswerOutcomeCorrectness
  evaluatorOutcome : AnswerOutcomeCorrectness
deriving DecidableEq

/-- One round of the loop: a case without this is excluded. -/
def comparisonOf (resultsByCase : String → Option AnswerQualityResult)
    (entry : String × CaseGroundTruth) : Option Comparison := do
  let result ← resultsByCase entry.1
  let evaluatorMode ← result.judgement
  guard (entry.2.status ≠ .unresolvedDisagreement)
  let humanMode ← entry.2.finalObservedMode
  let evaluatorOutcome ← result.outcomeCorrectness
  let humanOutcome ← entry.2.finalOutcome
  pure { caseId := entry.1, humanMode, evaluatorMode, humanOutcome, evaluatorOutcome }

def confusionMatrix (comparisons : List Comparison) : List ConfusionMatrixCell :=
  (outcomes.flatMap fun humanLabel => outcomes.map fun evaluatorLabel =>
    { humanLabel, evaluatorLabel
      count := comparisons.countP fun c =>
        c.humanOutcome = humanLabel && c.evaluatorOutcome = evaluatorLabel }).filter
    fun cell => cell.count ≠ 0

def quotientOf (count total : Nat) : Option Rat :=
  if total = 0 then none else some ((count : Rat) / total)

/-- `_class_metrics`, of one label. -/
def classMetric (comparisons : List Comparison) (label : AnswerOutcomeCorrectness) : ClassMetric :=
  let tp := comparisons.countP fun c => c.humanOutcome = label && c.evaluatorOutcome = label
  let fp := comparisons.countP fun c => c.evaluatorOutcome = label && c.humanOutcome ≠ label
  let fn := comparisons.countP fun c => c.humanOutcome = label && c.evaluatorOutcome ≠ label
  let precision := quotientOf tp (tp + fp)
  let «recall» := quotientOf tp (tp + fn)
  { label
    support := comparisons.countP fun c => c.humanOutcome = label
    precision
    «recall»
    f1 := do
      let p ← precision
      let r ← «recall»
      if p = 0 ∨ r = 0 then none else some (2 * p * r / (p + r)) }

def severeDisagreement (comparison : Comparison) : Option SevereDisagreement :=
  (classifySeverity comparison.humanOutcome comparison.evaluatorOutcome).map fun severity =>
    { caseId := comparison.caseId
      humanOutcome := comparison.humanOutcome
      evaluatorOutcome := comparison.evaluatorOutcome
      severity }

def validateEvaluatorAgainstGroundTruth (resultsByCase : String → Option AnswerQualityResult)
    (groundTruthsByCase : List (String × CaseGroundTruth)) (datasetVersion : String)
    (minimumSampleSize : Int) : Except Exn EvaluatorValidationReport := do
  let comparisons := groundTruthsByCase.filterMap (comparisonOf resultsByCase)
  let sampleSize := comparisons.length
  let answerModeAgreementRate :=
    quotientOf (comparisons.countP fun c => c.evaluatorMode = c.humanMode) sampleSize
  let outcomeAgreementRate :=
    quotientOf (comparisons.countP fun c => c.humanOutcome = c.evaluatorOutcome) sampleSize
  let labels := outcomes.filter fun label =>
    comparisons.any fun c => c.humanOutcome = label || c.evaluatorOutcome = label
  let report (status : ReportStatus) : EvaluatorValidationReport :=
    { datasetVersion
      sampleSize
      minimumSampleSize
      answerModeAgreementRate
      outcomeAgreementRate
      outcomeConfusionMatrix := confusionMatrix comparisons
      outcomeClassMetrics := labels.map (classMetric comparisons)
      severeDisagreements := comparisons.filterMap severeDisagreement
      excludedCaseCount :=
        groundTruthsByCase.countP fun entry => (comparisonOf resultsByCase entry).isNone
      status }
  if (sampleSize : Int) < minimumSampleSize then pure (report .insufficientData)
  else do
    formatted answerModeAgreementRate
    formatted outcomeAgreementRate
    pure (report .computed)

/-! ## The report of a run -/

variable (digest : String × List String × String → String)

/-- The evidence is sorted, so that its order does not count. -/
def computeCaseSnapshotHash (question : String) (evidenceTexts : List String)
    (candidateAnswer : String) : String :=
  digest (question, evidenceTexts.mergeSort, candidateAnswer)

/-- What `_build_human_ground_truth_report` is given and what it loads. -/
structure GroundTruthInput where
  /-- `load_annotatable_answer_quality_cases()`. -/
  annotatable : List AnswerQualityCase
  answerQualityCases : List AnswerQualityCase
  answerQualityResults : List AnswerQualityResult
  datasetVersion : String
  /-- `load_annotations(dataset_version)`, in the order of the file. -/
  annotations : List AnnotationDecision
  resolutions : List ResolutionAnnotation

structure HumanGroundTruthCoverage where
  datasetVersion : String
  annotationSchemaVersion : String
  totalCases : Nat
  annotatedCases : Nat
  doubleReviewedCases : Nat
  agreedCases : Nat
  unresolvedDisagreements : Nat
  provenanceCounts : List (String × Nat)
  eligibleForEvaluatorValidation : Nat

def defaultMinimumSampleSize : Int := 20

/-- A dict filled from a list: of equal keys the last one stays. -/
def byCase {α : Type} (caseId : α → String) (l : List α) (key : String) : Option α :=
  l.reverse.find? fun a => caseId a = key

namespace GroundTruthInput

def annotatableCases (input : GroundTruthInput) : String → Option AnswerQualityCase :=
  byCase (·.id) input.annotatable

/-- The case is part of this run and can be annotated. -/
def isRelevant (input : GroundTruthInput) (caseId : String) : Bool :=
  input.answerQualityCases.any (·.id = caseId) && (input.annotatableCases caseId).isSome

def resultsByCase (input : GroundTruthInput) : String → Option AnswerQualityResult :=
  byCase (·.caseId) (input.answerQualityResults.filter fun r => input.isRelevant r.caseId)

def annotationsByCase (input : GroundTruthInput) : List (String × List AnnotationDecision) :=
  Firsts.groupsOf (·.caseId) (input.annotations.filter fun a => input.isRelevant a.caseId)

def resolutionsByCase (input : GroundTruthInput) : String → Option ResolutionAnnotation :=
  byCase (·.caseId) (input.resolutions.filter fun r => input.isRelevant r.caseId)

/-- The hash of what this run has for the case, if it has a result. -/
def currentHash (input : GroundTruthInput) (caseId : String) : Option String := do
  let case ← input.annotatableCases caseId
  let result ← input.resultsByCase caseId
  pure (computeCaseSnapshotHash digest case.question case.evidenceTexts result.generatedAnswer)

/-- `anns[0]` was made for something else than this run has. -/
def isStale (input : GroundTruthInput) (entry : String × List AnnotationDecision) : Bool :=
  (input.currentHash digest entry.1).any fun hash =>
    entry.2.head?.any fun first => first.caseSnapshotHash ≠ hash

end GroundTruthInput

structure CoverageTally where
  groundTruthsByCase : List (String × CaseGroundTruth) := []
  agreed : Nat := 0
  unresolved : Nat := 0
  doubleReviewed : Nat := 0

/-- One round of the loop over the annotated cases. -/
def trustCase (input : GroundTruthInput) (tally : CoverageTally)
    (entry : String × List AnnotationDecision) : Except Exn CoverageTally :=
  match input.annotatableCases entry.1 with
  | none => .error (.keyError entry.1)
  | some case => do
    let groundTruth ← resolveGroundTruth case entry.2 (input.resolutionsByCase entry.1)
    if input.isStale digest entry then pure tally
    else
      let double := decide (2 ≤ entry.2.length)
      pure
        { groundTruthsByCase := tally.groundTruthsByCase ++ [(entry.1, groundTruth)]
          doubleReviewed := tally.doubleReviewed + if double then 1 else 0
          agreed := tally.agreed +
            if double && groundTruth.status = .agreedReview then 1 else 0
          unresolved := tally.unresolved +
            if double && groundTruth.status = .unresolvedDisagreement then 1 else 0 }

def provenanceCounts (input : GroundTruthInput) : List (String × Nat) :=
  let provenances := input.annotationsByCase.filterMap fun entry =>
    (input.annotatableCases entry.1).map (·.provenance)
  (firsts id [] provenances).map fun provenance => (provenance, provenances.count provenance)

def buildHumanGroundTruthReport (input : GroundTruthInput) :
    Except Exn (Option (HumanGroundTruthCoverage × AgreementReport × EvaluatorValidationReport)) :=
  if ¬ input.answerQualityCases.any (fun case => input.isRelevant case.id) then .ok none
  else do
    let tally ← input.annotationsByCase.foldlM (trustCase digest input) {}
    let coverage : HumanGroundTruthCoverage :=
      { datasetVersion := input.datasetVersion
        annotationSchemaVersion := "annotation-v1"
        totalCases := (firsts id [] (input.annotatable.map (·.id))).length
        annotatedCases := input.annotationsByCase.length
        doubleReviewedCases := tally.doubleReviewed
        agreedCases := tally.agreed
        unresolvedDisagreements := tally.unresolved
        provenanceCounts := provenanceCounts input
        eligibleForEvaluatorValidation :=
          tally.groundTruthsByCase.countP fun entry => entry.2.status ≠ .unresolvedDisagreement }
    let agreement ← computeInterAnnotatorAgreement input.annotatableCases input.annotationsByCase
      input.datasetVersion "annotation-v1" defaultMinimumSampleSize input.resolutionsByCase
    let validation ← validateEvaluatorAgainstGroundTruth input.resultsByCase
      tally.groundTruthsByCase input.datasetVersion defaultMinimumSampleSize
    pure (some (coverage, agreement, validation))

end Ekip.Evaluation.Semantic
