import Mathlib.Data.List.Sort
import Ekip.Core.Exceptions
import Ekip.Lib.CohensKappa

/-!
# Human ground truth: `evaluation/semantic/outcome.py` and `ground_truth.py`

Times are instants that can be compared. Ratings, rationales and provenance of an annotation
are left out, and so are the texts of the rationale of a report, of which only the numbers
that they format matter here.
-/
namespace Ekip.Evaluation.Semantic

open Ekip.Core Ekip.Lib

/-! ## Vocabulary -/

inductive ExpectedAnswerMode
  | answer
  | qualifiedAnswer
  | noAnswer
  | unlabeled

inductive ObservedAnswerMode
  | substantiveAnswer
  | qualifiedAnswer
  | noAnswer
deriving DecidableEq

instance instFintypeObservedAnswerMode : Fintype ObservedAnswerMode where
  elems := {.substantiveAnswer, .qualifiedAnswer, .noAnswer}
  complete mode := by cases mode <;> simp

inductive AnswerOutcomeCorrectness
  | correct
  | partiallyCorrect
  | overconfident
  | incorrectRefusal
  | criticalFailure
deriving DecidableEq

def classifyOutcomeCorrectness :
    ExpectedAnswerMode → ObservedAnswerMode → Option AnswerOutcomeCorrectness
  | .unlabeled, _ => none
  | .answer, .substantiveAnswer => some .correct
  | .answer, .qualifiedAnswer => some .partiallyCorrect
  | .answer, .noAnswer => some .incorrectRefusal
  | .qualifiedAnswer, .qualifiedAnswer => some .correct
  | .qualifiedAnswer, .substantiveAnswer => some .overconfident
  | .qualifiedAnswer, .noAnswer => some .correct
  | .noAnswer, .noAnswer => some .correct
  | .noAnswer, .substantiveAnswer => some .criticalFailure
  | .noAnswer, .qualifiedAnswer => some .criticalFailure

/-- Only cases without a label have no outcome. -/
theorem classify_isSome {expected : ExpectedAnswerMode} {observed : ObservedAnswerMode} :
    (classifyOutcomeCorrectness expected observed).isSome = true ↔ expected ≠ .unlabeled := by
  cases expected <;> cases observed <;> simp [classifyOutcomeCorrectness]

/-! ## Contracts -/

structure AnswerQualityCase where
  id : String
  provenance : String
  question : String
  evidenceTexts : List String
  expectedAnswerMode : ExpectedAnswerMode

structure AnnotationDecision where
  caseId : String
  datasetVersion : String
  caseSnapshotHash : String
  reviewerId : String
  annotatedAt : Int
  observedMode : ObservedAnswerMode
  usableForCalibration : Bool := true
deriving DecidableEq

structure ResolutionAnnotation extends AnnotationDecision where
  resolvedAnnotationIds : List String

inductive GroundTruthStatus
  | singleReview
  | agreedReview
  | resolvedDisagreement
  | unresolvedDisagreement
deriving DecidableEq

structure CaseGroundTruth where
  caseId : String
  datasetVersion : String
  annotations : List AnnotationDecision
  resolution : Option ResolutionAnnotation
  status : GroundTruthStatus
  finalObservedMode : Option ObservedAnswerMode
  finalOutcome : Option AnswerOutcomeCorrectness

inductive ReportStatus
  | computed
  | insufficientData

structure AgreementReport where
  datasetVersion : String
  annotationSchemaVersion : String
  reviewedCaseCount : Nat
  doubleReviewedCaseCount : Nat
  agreedCaseCount : Nat
  disagreedCaseCount : Nat
  unresolvedDisagreementCount : Nat
  rawAgreementRate : Option Rat
  cohensKappa : Option Rat
  minimumSampleSize : Int
  status : ReportStatus

/-! ## Resolving one case -/

/-- `sorted(annotations, key=lambda a: a.annotated_at)`. -/
def sortedByTime (annotations : List AnnotationDecision) : List AnnotationDecision :=
  annotations.insertionSort fun a b => a.annotatedAt ≤ b.annotatedAt

def resolveGroundTruth (case : AnswerQualityCase) (annotations : List AnnotationDecision)
    (resolution : Option ResolutionAnnotation) : Except Exn CaseGroundTruth :=
  match sortedByTime annotations with
  | [] => .error (.valueError ("cannot resolve ground truth for '" ++ case.id ++
      "' with zero annotations"))
  | [only] => .ok
      { caseId := case.id
        datasetVersion := only.datasetVersion
        annotations := sortedByTime annotations
        resolution
        status := .singleReview
        finalObservedMode := some only.observedMode
        finalOutcome := classifyOutcomeCorrectness case.expectedAnswerMode only.observedMode }
  | first :: second :: _ =>
    if first.observedMode = second.observedMode then .ok
      { caseId := case.id
        datasetVersion := first.datasetVersion
        annotations := sortedByTime annotations
        resolution
        status := .agreedReview
        finalObservedMode := some first.observedMode
        finalOutcome := classifyOutcomeCorrectness case.expectedAnswerMode first.observedMode }
    else
      match resolution with
      | some resolved => .ok
          { caseId := case.id
            datasetVersion := first.datasetVersion
            annotations := sortedByTime annotations
            resolution := some resolved
            status := .resolvedDisagreement
            finalObservedMode := some resolved.observedMode
            finalOutcome :=
              classifyOutcomeCorrectness case.expectedAnswerMode resolved.observedMode }
      | none => .ok
          { caseId := case.id
            datasetVersion := first.datasetVersion
            annotations := sortedByTime annotations
            resolution := none
            status := .unresolvedDisagreement
            finalObservedMode := none
            finalOutcome := none }

/-! ## Agreement of the annotators -/

/-- `math.isclose` with its default tolerances. -/
def isclose (a b : Rat) : Bool := |a - b| ≤ 1 / 10 ^ 9 * max |a| |b|

abbrev Labels := ObservedAnswerMode × ObservedAnswerMode

/-- The labels that occur, in the order of their names. -/
def labelsOf (pairs : List Labels) : List ObservedAnswerMode :=
  [.noAnswer, .qualifiedAnswer, .substantiveAnswer].filter fun label =>
    pairs.any fun pair => pair.1 = label || pair.2 = label

def expectedAgreement (pairs : List Labels) : Rat :=
  ((labelsOf pairs).map fun label =>
    (CohensKappa.rows pairs label : Rat) / pairs.length *
      (CohensKappa.cols pairs label / pairs.length)).sum

def cohensKappa (pairs : List Labels) : Option Rat :=
  if pairs.length = 0 then none
  else
    let pObserved : Rat := CohensKappa.agreeing pairs / pairs.length
    let pExpected := expectedAgreement pairs
    if isclose pExpected 1 then none else some ((pObserved - pExpected) / (1 - pExpected))

/-- A number that an f-string formats with two digits. -/
def formatted : Option Rat → Except Exn Unit
  | some _ => .ok ()
  | none => .error (.typeError "unsupported format string passed to NoneType.__format__")

structure Tally where
  pairs : List Labels := []
  agreed : Nat := 0
  disagreed : Nat := 0
  unresolved : Nat := 0

/-- A case with this pair and this status is counted. -/
def Tally.count (tally : Tally) (labels : Labels) : GroundTruthStatus → Tally
  | .agreedReview => { tally with pairs := tally.pairs ++ [labels], agreed := tally.agreed + 1 }
  | .unresolvedDisagreement =>
    { tally with
      pairs := tally.pairs ++ [labels]
      disagreed := tally.disagreed + 1
      unresolved := tally.unresolved + 1 }
  | _ => { tally with pairs := tally.pairs ++ [labels], disagreed := tally.disagreed + 1 }

def indexError : Exn := .runtimeError "list index out of range"

/-- One round of the loop. -/
def tallyCase (casesById : String → Option AnswerQualityCase)
    (resolutionsByCase : String → Option ResolutionAnnotation) (tally : Tally)
    (entry : String × List AnnotationDecision) : Except Exn Tally :=
  if entry.2.length < 2 then .ok tally
  else
    match casesById entry.1 with
    | none => .ok tally
    | some case => do
      let groundTruth ← resolveGroundTruth case entry.2 (resolutionsByCase entry.1)
      match (sortedByTime entry.2).take 2 with
      | [first, second] =>
        pure (tally.count (first.observedMode, second.observedMode) groundTruth.status)
      | _ => .error indexError

def computeInterAnnotatorAgreement (casesById : String → Option AnswerQualityCase)
    (annotationsByCase : List (String × List AnnotationDecision))
    (datasetVersion annotationSchemaVersion : String) (minimumSampleSize : Int)
    (resolutionsByCase : String → Option ResolutionAnnotation) : Except Exn AgreementReport := do
  let tally ← annotationsByCase.foldlM (tallyCase casesById resolutionsByCase) {}
  let doubleReviewedCaseCount := tally.pairs.length
  let rawAgreementRate : Option Rat :=
    if doubleReviewedCaseCount = 0 then none
    else some (tally.agreed / doubleReviewedCaseCount)
  let report (kappa : Option Rat) (status : ReportStatus) : AgreementReport :=
    { datasetVersion
      annotationSchemaVersion
      reviewedCaseCount := annotationsByCase.countP fun entry => entry.2 ≠ []
      doubleReviewedCaseCount
      agreedCaseCount := tally.agreed
      disagreedCaseCount := tally.disagreed
      unresolvedDisagreementCount := tally.unresolved
      rawAgreementRate
      cohensKappa := kappa
      minimumSampleSize
      status }
  if (doubleReviewedCaseCount : Int) < minimumSampleSize then
    pure (report none .insufficientData)
  else do
    let kappa := cohensKappa tally.pairs
    formatted rawAgreementRate
    pure (report kappa .computed)

end Ekip.Evaluation.Semantic
