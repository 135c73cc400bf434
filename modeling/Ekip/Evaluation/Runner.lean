import Ekip.Evaluation.Metrics

/-!
# The runner: `evaluation/runner.py`

An adapter answers or raises. Calibration, provenance and times of a report are left out.
-/
namespace Ekip.Evaluation

open Ekip.Lib Ekip.Shared Ekip.Core

structure Runner (ω : Type) where
  mode : EvaluationMode
  search : EvaluationCase → Int → Except Exn (List (Retrieval.ScoredChunk ω))
  generateAnswer : Option (EvaluationCase → List (Retrieval.ScoredChunk ω) →
    Except Exn (String × List Citation × Rat)) := none
  investigate : Option (EvaluationCase → List (Retrieval.ScoredChunk ω) →
    Except Exn (List EvidenceItem × List RootCauseHypothesis)) := none
  critique : Option (EvaluationCase → Except Exn (String × Option String × Int)) := none
  «recall» : Option (EvaluationCase → Int → Except Exn (List String)) := none
  traverse : Option (EvaluationCase → Int → Except Exn (List String)) := none
  listFindings : Option (EvaluationCase → Except Exn (List String)) := none
  assertions : AssertionTools
  lower : Lower
  shown : Rendering
  kValues : List Int := [1, 3, 5, 10]
  contextTopK : Int := 3

variable {ω : Type}

/-- What an adapter raises ends the run of the case. -/
def adapted {α : Type} (answer : Except Exn α) : Except RunError α := answer.mapError .adapter

/-- The texts of what is not so. -/
def unmet (conditions : List (Bool × String)) : List String :=
  (conditions.filter fun condition => !condition.1).map Prod.snd

namespace Runner

variable (self : Runner ω)

def lowered : Text → Text := self.lower.apply

/-- Every runner of a category ends with its result, which is validated. -/
def finish (case : EvaluationCase) (passed : Bool) (stage : FailureStage) (reason : String)
    (metrics : List MetricResult) (retrievedDocumentIds : List String)
    (predictedConfidence : Option Rat) : Except RunError EvaluationResult := do
  let failure ← FailureDetail.make stage reason
  EvaluationResult.validate
    { caseId := case.id
      category := case.category
      mode := self.mode
      passed
      failure
      expectedOutcome := case.expectedOutcome
      expectedFailureStage := case.expectedFailureStage
      retrievedDocumentIds
      predictedConfidence
      metrics }

def documentIds (chunks : List (Retrieval.ScoredChunk ω)) : List String :=
  chunks.map fun chunk => toString chunk.documentId

/-- `" ".join(chunk.content for chunk in chunks)`. -/
def combinedText (chunks : List (Retrieval.ScoredChunk ω)) : String :=
  " ".intercalate (chunks.map Retrieval.ScoredChunk.content)

/-- Whether every relevant document was retrieved. -/
def coverageOk (chunks : List (Retrieval.ScoredChunk ω)) (relevantIds : Finset String) : Bool :=
  decide (relevantIds = ∅) ||
    (relevantDocumentCoverage (documentIds chunks) relevantIds).any fun coverage => decide (1 ≤ coverage)

/-! ## Retrieval -/

def retrievalMetrics (retrievedIds : List String) (relevantIds : Finset String) :
    Except RunError (List MetricResult) := do
  let ranked ← self.kValues.mapM fun k => do
    let «recall» ← recallAtK retrievedIds relevantIds k
    let precision ← precisionAtK retrievedIds relevantIds k
    pure [{ name := s!"recall_at_{k}", value := «recall» : MetricResult },
      { name := s!"precision_at_{k}", value := precision }]
  pure (ranked.flatten ++
    [{ name := "mrr", value := meanReciprocalRank retrievedIds relevantIds },
      { name := "relevant_document_coverage"
        value := relevantDocumentCoverage retrievedIds relevantIds }])

/-- The forbidden concepts that are found where the contents are joined. -/
def forbiddenHits (case : EvaluationCase) (chunks : List (Retrieval.ScoredChunk ω)) : List String :=
  checkForbiddenConcepts self.lowered (combinedText chunks) case.expected.forbiddenConcepts

def missingConcepts (case : EvaluationCase) (chunks : List (Retrieval.ScoredChunk ω)) : List String :=
  checkRequiredConcepts self.lowered (combinedText chunks) case.expected.requiredConcepts

def retrievalResult (case : EvaluationCase) (chunks : List (Retrieval.ScoredChunk ω)) :
    Except RunError EvaluationResult := do
  let retrievedIds := documentIds chunks
  let relevantIds := case.expected.relevantDocumentIds.toFinset
  let metrics ← self.retrievalMetrics retrievedIds relevantIds
  let missing := self.missingConcepts case chunks
  let forbidden := self.forbiddenHits case chunks
  let covered := coverageOk chunks relevantIds
  let passed := covered && missing.isEmpty && forbidden.isEmpty
  let missingDocs := (relevantIds \ retrievedIds.toFinset).sort (· ≤ ·)
  let reasons := unmet
    [(covered, "missing relevant docs: " ++ self.shown.names missingDocs),
      (missing.isEmpty, "missing required concepts: " ++ self.shown.names missing),
      (forbidden.isEmpty, "forbidden concepts present: " ++ self.shown.names forbidden)]
  self.finish case passed (if passed then .none else .retrieval)
    (if reasons.isEmpty then "retrieval satisfied expectations" else "; ".intercalate reasons)
    metrics retrievedIds none

def runRetrievalCase (case : EvaluationCase) : Except RunError EvaluationResult := do
  let some topK := self.kValues.max? | .error (.valueError "max() iterable argument is empty")
  let chunks ← adapted (self.search case topK)
  self.retrievalResult case chunks

/-! ## Grounding -/

def untraceableConcepts (case : EvaluationCase) (chunks : List (Retrieval.ScoredChunk ω)) :
    List String :=
  let traceability := conceptsTraceableToEvidence self.lowered case.expected.requiredConcepts
    (chunks.map Retrieval.ScoredChunk.content)
  (traceability.filter fun item => !item.2).map Prod.fst

def retrievalFailed (case : EvaluationCase) (chunks : List (Retrieval.ScoredChunk ω)) : Bool :=
  !(self.untraceableConcepts case chunks).isEmpty || !(self.forbiddenHits case chunks).isEmpty

def traceabilityRate (case : EvaluationCase) (chunks : List (Retrieval.ScoredChunk ω)) : Option Rat :=
  let traceability := conceptsTraceableToEvidence self.lowered case.expected.requiredConcepts
    (chunks.map Retrieval.ScoredChunk.content)
  meanOf (traceability.map fun item => some (if item.2 then 1 else 0))

/-- The checks of an answer that cites the chunks. -/
def citationCheck (chunks : List (Retrieval.ScoredChunk ω)) (citations : List Citation)
    (expectation : CitationExpectation) : CitationCheckResult :=
  checkCitations self.lowered citations (chunks.map Retrieval.ScoredChunk.chunkId)
    (chunkContents chunks) expectation

def generationReasons (case : EvaluationCase) (chunks : List (Retrieval.ScoredChunk ω))
    (expectation : CitationExpectation) (answerText : String) (citations : List Citation) :
    List String :=
  let result := self.citationCheck chunks citations expectation
  let answerMissing := checkRequiredConcepts self.lowered answerText case.expected.requiredConcepts
  unmet
    [(result.countSatisfied, "expected >= " ++ toString expectation.minimum ++ " citations"),
      (result.unresolvedCitations.isEmpty,
        "unresolved citations: " ++ self.shown.names result.unresolvedCitations),
      (result.unsupportedCitations.isEmpty,
        "unsupported citations: " ++ self.shown.names result.unsupportedCitations),
      (answerMissing.isEmpty, "answer missing required concepts: " ++ self.shown.names answerMissing)]

def citationMetrics (result : CitationCheckResult) : List MetricResult :=
  [{ name := "citation_count_satisfied", value := some (if result.countSatisfied then 1 else 0) },
    { name := "citations_unresolved", value := some result.unresolvedCitations.length },
    { name := "citations_unsupported", value := some result.unsupportedCitations.length }]

/-- The result once it is known what was generated, if anything was. -/
def groundingResult (case : EvaluationCase) (chunks : List (Retrieval.ScoredChunk ω))
    (citationMetrics : List MetricResult) (generationReasons : List String)
    (confidence : Option Rat) : Except RunError EvaluationResult :=
  let untraceable := self.untraceableConcepts case chunks
  let forbidden := self.forbiddenHits case chunks
  let failed := self.retrievalFailed case chunks
  let passed := !failed && generationReasons.isEmpty
  let retrievalReasons := unmet
    [(untraceable.isEmpty,
        "concepts not traceable to retrieved evidence: " ++ self.shown.names untraceable),
      (forbidden.isEmpty, "forbidden concepts present in evidence: " ++ self.shown.names forbidden)]
  let (stage, reason) : FailureStage × String :=
    if passed then (.none, "grounding satisfied")
    else if failed then (.retrieval, "; ".intercalate retrievalReasons)
    else (.generation, "; ".intercalate generationReasons)
  self.finish case passed stage reason
    ({ name := "concept_traceability_rate", value := self.traceabilityRate case chunks } ::
      citationMetrics) (documentIds chunks) confidence

def runGroundingCase (case : EvaluationCase) : Except RunError EvaluationResult := do
  let chunks ← adapted (self.search case self.contextTopK)
  match self.retrievalFailed case chunks, self.generateAnswer, case.expected.citations with
  | false, some generateAnswer, some expectation => do
    let (answerText, citations, confidence) ← adapted (generateAnswer case chunks)
    self.groundingResult case chunks
      (citationMetrics (self.citationCheck chunks citations expectation))
      (self.generationReasons case chunks expectation answerText citations) (some confidence)
  | _, _, _ => self.groundingResult case chunks [] [] none

/-! ## Answers -/

def runAnswerCase (case : EvaluationCase) : Except RunError EvaluationResult := do
  let some generateAnswer := self.generateAnswer
    | .error (.runtimeError "category 'answer' requires an AnswerAdapter to be configured")
  let chunks ← adapted (self.search case self.contextTopK)
  let retrievedIds := documentIds chunks
  let relevantIds := case.expected.relevantDocumentIds.toFinset
  let retrievalOk := coverageOk chunks relevantIds
  let (answerText, _, confidence) ← adapted (generateAnswer case chunks)
  let assertionResults ← evaluateAll self.lowered self.shown answerText self.assertions
    case.expected.answerAssertions
  let failedAssertions := assertionResults.filter fun item => !item.2.passed
  let confidenceOk := case.expected.confidence.all fun expectation =>
    expectation.satisfiedBy (some confidence)
  let passed := retrievalOk && failedAssertions.isEmpty && confidenceOk
  let reasons := failedAssertions.map (fun item => item.1.shownWith self.shown item.2.reason) ++
    unmet [(confidenceOk, "confidence " ++ self.shown.number confidence ++ " outside expected range")]
  let (stage, reason) : FailureStage × String :=
    if passed then (.none, "assertions and confidence satisfied")
    else if !retrievalOk then
      (.retrieval, "relevant evidence not retrieved: expected " ++
        self.shown.names (relevantIds.sort (· ≤ ·)) ++ ", got " ++ self.shown.names retrievedIds)
    else (.generation, "; ".intercalate reasons)
  let assertionPassRate : Option Rat :=
    if assertionResults.isEmpty then none
    else some (((assertionResults.length - failedAssertions.length : Int) : Rat) /
      assertionResults.length)
  self.finish case passed stage reason
    [{ name := "assertions_passed_rate", value := assertionPassRate }] retrievedIds (some confidence)

/-! ## Investigations -/

/-- Whether the outcome of the review is the expected one. -/
def critiqueOk (expectation : ExpectedCritique) (reviewStatus : String) (verdict : Option String) :
    Bool :=
  if expectation.expectReviewFailed then decide (reviewStatus = "review_failed")
  else match expectation.expectedVerdict with
    | none => true
    | some expected => decide (reviewStatus = "reviewed" ∧ verdict = some expected.value)

def investigationReasons (matchResults : List HypothesisMatchResult)
    (unsupported : List RootCauseHypothesis) (critiqueOk : Bool) (reviewStatus : Option String)
    (critiqueVerdict : Option String) : List String :=
  let neverMatched := (matchResults.filter fun item => !item.matched).map fun item => item.expected.concept
  let underSupported := (matchResults.filter fun item => item.matched && !item.supportSatisfied).map
    fun item => item.expected.concept
  unmet
    [(neverMatched.isEmpty, "expected concepts not mentioned by any produced hypothesis: " ++
        self.shown.names neverMatched),
      (underSupported.isEmpty, "hypotheses matched but under-supported (below minimum_support): " ++
        self.shown.names underSupported),
      (unsupported.isEmpty, toString unsupported.length ++
        " hypothesis(es) cite no real supporting evidence"),
      (critiqueOk, "critique outcome (review_status=" ++ reviewStatus.elim "None" self.shown.quoted ++
        ", critique_verdict=" ++ critiqueVerdict.elim "None" self.shown.quoted ++
        ") did not match expectation")]

/-- What the review said, where the case asks for it. -/
def runCritique (case : EvaluationCase) :
    Option ExpectedCritique → Except RunError (Bool × Option String × Option String × Int)
  | none => .ok (true, none, none, 0)
  | some expectation => do
    let some critique := self.critique
      | .error (.runtimeError ("case declares expected.investigation.critique but no " ++
          "CritiqueAdapter is configured"))
    let (reviewStatus, critiqueVerdict, revisionCount) ← adapted (critique case)
    pure (critiqueOk expectation reviewStatus critiqueVerdict, some reviewStatus, critiqueVerdict,
      revisionCount)

def runInvestigationCase (case : EvaluationCase) : Except RunError EvaluationResult := do
  let some investigate := self.investigate
    | .error (.runtimeError
        "category 'investigation' requires an InvestigationAdapter to be configured")
  let chunks ← adapted (self.search case self.contextTopK)
  let expectedInvestigation := case.expected.investigation.getD {}
  let (evidence, hypotheses) ← adapted (investigate case chunks)
  let coverage := evidenceCoverage evidence expectedInvestigation.requiredEvidenceIds
  let matchResults := matchExpectedHypotheses self.lowered hypotheses expectedInvestigation.hypotheses
  let unsupported := findUnsupportedHypotheses hypotheses evidence
  let evidenceOk := coverage.all fun coverage => decide (1 ≤ coverage)
  let hypothesesOk := matchResults.all HypothesisMatchResult.passed
  let (critiqueOk, reviewStatus, critiqueVerdict, revisionCount) ←
    self.runCritique case expectedInvestigation.critique
  let passed := evidenceOk && hypothesesOk && unsupported.isEmpty && critiqueOk
  let (stage, reason) : FailureStage × String :=
    if passed then (.none, "evidence and hypotheses satisfied")
    else if !evidenceOk then
      (.retrieval, "required evidence not gathered (coverage=" ++
        coverage.elim "None" self.shown.number ++ ")")
    else (.generation, "; ".intercalate (self.investigationReasons matchResults unsupported critiqueOk
      reviewStatus critiqueVerdict))
  let hypothesisMatchRate : Option Rat :=
    if matchResults.isEmpty then none
    else some ((matchResults.countP HypothesisMatchResult.passed : Rat) / matchResults.length)
  self.finish case passed stage reason
    ([{ name := "evidence_coverage", value := coverage },
      { name := "hypothesis_match_rate", value := hypothesisMatchRate }] ++
      if expectedInvestigation.critique.isSome then
        [{ name := "critique_revision_count", value := some revisionCount }] else [])
    (documentIds chunks) none

/-! ## Labels -/

/-- The words of a category that grades labels. -/
structure LabelWords where
  missing : String
  leaked : String
  matched : String
  rate : String
  leakedCount : String

/-- Labels that must and labels that must not be there. -/
def labelsResult (words : LabelWords) (case : EvaluationCase) (expectation : ExpectedLabels)
    (labels : List String) : Except RunError EvaluationResult :=
  let missing := expectation.expectedLabels.filter fun label => label ∉ labels
  let leaked := expectation.forbiddenLabels.filter fun label => label ∈ labels
  let passed := missing.isEmpty && leaked.isEmpty
  let reasons := unmet
    [(missing.isEmpty, words.missing ++ self.shown.names missing),
      (leaked.isEmpty, words.leaked ++ self.shown.names leaked)]
  let expectedCount := expectation.expectedLabels.length
  let rate : Option Rat :=
    if expectedCount = 0 then none
    else some (((expectedCount - missing.length : Int) : Rat) / expectedCount)
  self.finish case passed (if passed then .none else .retrieval)
    (if reasons.isEmpty then words.matched else "; ".intercalate reasons)
    [{ name := words.rate, value := rate }, { name := words.leakedCount, value := some leaked.length }]
    [] none

def memoryWords : LabelWords :=
  { missing := "expected memories not recalled: "
    leaked := "memories that must NOT be recalled were returned: "
    matched := "memory recall matched expectations"
    rate := "memory_recall_rate"
    leakedCount := "memory_leaked_count" }

def graphWords : LabelWords :=
  { missing := "expected entities not reached: "
    leaked := "entities that must NOT be reachable were returned: "
    matched := "graph traversal matched expectations"
    rate := "graph_reach_rate"
    leakedCount := "graph_leaked_count" }

def proactiveWords : LabelWords :=
  { missing := "expected findings not visible: "
    leaked := "findings that must NOT be visible were returned: "
    matched := "proactive findings matched expectations"
    rate := "proactive_visibility_rate"
    leakedCount := "proactive_leaked_count" }

def runMemoryCase (case : EvaluationCase) : Except RunError EvaluationResult := do
  let some adapter := self.«recall»
    | .error (.runtimeError "category 'memory' requires a MemoryAdapter to be configured")
  let some expectation := case.expected.memory
    | .error (.runtimeError ("case " ++ self.shown.quoted case.id ++
        " has category='memory' but no expected.memory block"))
  let recalled ← adapted (adapter case self.contextTopK)
  self.labelsResult memoryWords case expectation recalled

def runGraphCase (case : EvaluationCase) : Except RunError EvaluationResult := do
  let some traverse := self.traverse
    | .error (.runtimeError "category 'graph' requires a GraphAdapter to be configured")
  let some expectation := case.expected.graph
    | .error (.runtimeError ("case " ++ self.shown.quoted case.id ++
        " has category='graph' but no expected.graph block"))
  let reached ← adapted (traverse case expectation.depth)
  self.labelsResult graphWords case expectation.toExpectedLabels reached

def runProactiveCase (case : EvaluationCase) : Except RunError EvaluationResult := do
  let some listFindings := self.listFindings
    | .error (.runtimeError "category 'proactive' requires a ProactiveAdapter to be configured")
  let some expectation := case.expected.proactive
    | .error (.runtimeError ("case " ++ self.shown.quoted case.id ++
        " has category='proactive' but no expected.proactive block"))
  let visible ← adapted (listFindings case)
  self.labelsResult proactiveWords case expectation visible

def runCase (case : EvaluationCase) : Except RunError EvaluationResult :=
  match case.category with
  | .retrieval => self.runRetrievalCase case
  | .grounding => self.runGroundingCase case
  | .answer => self.runAnswerCase case
  | .investigation => self.runInvestigationCase case
  | .memory => self.runMemoryCase case
  | .graph => self.runGraphCase case
  | .proactive => self.runProactiveCase case

end Runner

/-! ## Reports -/

/-- The names of all metrics, sorted. -/
def metricNames (results : List EvaluationResult) : List String :=
  ((results.flatMap fun result => result.metrics.map MetricResult.name).toFinset).sort (· ≤ ·)

def metricValues (results : List EvaluationResult) (name : String) : List (Option Rat) :=
  results.filterMap fun result => (result.metric? name).map MetricResult.value

def aggregateMetrics (results : List EvaluationResult) : List AggregateMetric :=
  (metricNames results).map fun name =>
    { name, value := meanOf (metricValues results name), n := (metricValues results name).length }

namespace Runner

variable (self : Runner ω)

def runDataset (dataset : Dataset) : Except RunError EvaluationReport := do
  let results ← dataset.cases.mapM self.runCase
  pure
    { datasetName := dataset.metadata.datasetName
      datasetVersion := dataset.metadata.version
      mode := self.mode
      results
      aggregateMetrics := aggregateMetrics results }

/-- The results of the datasets, one report after the other. -/
def collectResults : List EvaluationResult → List Dataset → Except RunError (List EvaluationResult)
  | allResults, [] => .ok allResults
  | allResults, dataset :: datasets => do
    let report ← self.runDataset dataset
    collectResults (allResults ++ report.results) datasets

def runDatasets (datasets : List Dataset) (combinedName : String := "combined") :
    Except RunError EvaluationReport := do
  let allResults ← self.collectResults [] datasets
  pure
    { datasetName := combinedName
      datasetVersion := "/".intercalate (datasets.map fun dataset => dataset.metadata.version)
      mode := self.mode
      results := allResults
      aggregateMetrics := aggregateMetrics allResults }

end Runner

end Ekip.Evaluation
