import Ekip.Core.Exceptions
import Ekip.Lib.Text
import Ekip.Shared.Schemas

/-!
# The contracts of the evaluation: `evaluation/schemas.py`

A case, what it expects, and the result and report of a run. Times, tags and the details of a
result are left out.
-/
namespace Ekip.Evaluation

open Ekip.Lib Ekip.Shared Ekip.Database Ekip.Core

/-! ## Texts -/

/-- `str.lower`: what becomes of a letter may depend on the letters around it, and a space
ends a word. -/
structure Lower where
  apply : Text → Text
  nil : apply [] = []
  space : ∀ a b, apply (a ++ ' ' :: b) = apply a ++ ' ' :: apply b

def normalizeText (lower : Text → Text) (text : String) : Text := lower (Text.squeeze text.toList)

/-- How a message shows a value. -/
structure Rendering where
  names : List String → String
  quoted : String → String
  number : Rat → String
  fixed3 : Rat → String

/-! ## Vocabulary -/

inductive EvaluationMode
  | deterministic
  | integration
  | live

inductive EvaluationCategory
  | retrieval
  | grounding
  | answer
  | investigation
  | memory
  | graph
  | proactive
deriving DecidableEq

inductive FailureStage
  | retrieval
  | generation
  | none
deriving DecidableEq

inductive ExpectedOutcomeLabel
  | pass
  | fail
deriving DecidableEq

/-! ## What a case expects -/

structure EvalIdentity where
  userId : String := "eval-user"
  permissions : Finset String := ∅
  projectPermissions : Dict Uuid (Finset String) := ∅

def EvalIdentity.toIdentity (self : EvalIdentity) (organizationId : Uuid) : Identity :=
  { kind := .user
    subject := self.userId
    organizationId
    permissions := self.permissions
    projectPermissions := self.projectPermissions }

structure CitationExpectation where
  minimum : Int := 0
  mustSupportAnswer : Bool := true

structure ConfidenceExpectation where
  min : Option Rat := none
  max : Option Rat := none

def ConfidenceExpectation.satisfiedBy (self : ConfidenceExpectation) (confidence : Option Rat) : Bool :=
  match confidence with
  | none => false
  | some confidence =>
    let aboveMin := self.min.all fun min => decide (min ≤ confidence)
    let belowMax := self.max.all fun max => decide (confidence ≤ max)
    aboveMin && belowMax

/-- The value is a list where the type asks for one, and one text elsewhere. -/
inductive AnswerAssertion
  | exactMatch (value : String)
  | contains (value : String)
  | containsAny (value : List String)
  | containsAll (value : List String)
  | forbiddenContent (value : String)
  | regex (value : String)
  | semanticSimilarity (value : String) (threshold : Option Rat)

structure ExpectedHypothesis where
  concept : String
  requiredEvidenceIds : List String := []
  minimumSupport : Int := 1

structure ExpectedCritique where
  expectedVerdict : Option CritiqueVerdict := none
  expectReviewFailed : Bool := false

structure ExpectedInvestigation where
  hypotheses : List ExpectedHypothesis := []
  requiredEvidenceIds : List String := []
  critique : Option ExpectedCritique := none

/-- `ExpectedMemoryRecall` and `ExpectedProactiveFindings`. -/
structure ExpectedLabels where
  expectedLabels : List String := []
  forbiddenLabels : List String := []

structure ExpectedGraphTraversal extends ExpectedLabels where
  depth : Int := 2

structure ExpectedOutcome where
  relevantDocumentIds : List String := []
  requiredConcepts : List String := []
  forbiddenConcepts : List String := []
  citations : Option CitationExpectation := none
  confidence : Option ConfidenceExpectation := none
  answerAssertions : List AnswerAssertion := []
  investigation : Option ExpectedInvestigation := none
  memory : Option ExpectedLabels := none
  graph : Option ExpectedGraphTraversal := none
  proactive : Option ExpectedLabels := none

structure EvaluationCase where
  id : String
  category : EvaluationCategory
  query : String
  organizationId : String := "eval-org"
  identity : EvalIdentity := {}
  originLabel : Option String := none
  expected : ExpectedOutcome := {}
  expectedOutcome : ExpectedOutcomeLabel := .pass
  expectedFailureStage : Option FailureStage := none
  stage_meaningful : ∀ stage ∈ expectedFailureStage, stage ≠ .none ∧ expectedOutcome = .fail

structure DatasetMetadata where
  datasetName : String
  version : String := "1.0"

structure Dataset where
  metadata : DatasetMetadata
  cases : List EvaluationCase

/-! ## Results -/

/-- How a run of a case ends without a result. -/
inductive RunError
  | adapter (exn : Exn)
  | runtimeError (message : String)
  | valueError (message : String)
  | validationError (message : String)

structure MetricResult where
  name : String
  value : Option Rat

structure FailureDetail where
  stage : FailureStage
  reason : String

def FailureDetail.make (stage : FailureStage) (reason : String) : Except RunError FailureDetail :=
  if reason = "" then
    .error (.validationError
      "reason must be non-empty (use a short 'passed' description if stage=none)")
  else .ok { stage, reason }

structure EvaluationResult where
  caseId : String
  category : EvaluationCategory
  mode : EvaluationMode
  passed : Bool
  failure : FailureDetail
  expectedOutcome : ExpectedOutcomeLabel := .pass
  expectedFailureStage : Option FailureStage := none
  retrievedDocumentIds : List String := []
  predictedConfidence : Option Rat := none
  metrics : List MetricResult := []

def EvaluationResult.validate (result : EvaluationResult) : Except RunError EvaluationResult :=
  if result.passed = true ∧ result.failure.stage ≠ .none then
    .error (.validationError "a passing result must have failure.stage == 'none'")
  else if result.passed = false ∧ result.failure.stage = .none then
    .error (.validationError
      "a failing result must set failure.stage to 'retrieval' or 'generation'")
  else .ok result

def EvaluationResult.matchedExpectation (self : EvaluationResult) : Bool :=
  if self.expectedOutcome = .pass then self.passed
  else if self.passed then false
  else match self.expectedFailureStage with
    | none => true
    | some stage => decide (self.failure.stage = stage)

/-- The metric of a name, if the result has it. -/
def EvaluationResult.metric? (self : EvaluationResult) (name : String) : Option MetricResult :=
  self.metrics.find? fun metric => metric.name = name

structure AggregateMetric extends MetricResult where
  n : Nat

structure EvaluationReport where
  datasetName : String
  datasetVersion : String
  mode : EvaluationMode
  results : List EvaluationResult
  aggregateMetrics : List AggregateMetric

def EvaluationReport.regressions (self : EvaluationReport) : List EvaluationResult :=
  self.results.filter fun result => !result.matchedExpectation

def EvaluationReport.isClean (self : EvaluationReport) : Bool := self.regressions.isEmpty

end Ekip.Evaluation
