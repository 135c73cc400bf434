import Ekip.Evaluation.Runner
import Ekip.Lib.Joined

/-!
# A result agrees with itself

The runners of all categories: what they hand to the constructor of a result is always
accepted, and says the same about passing in the flag, the stage and the reason.
-/
namespace Ekip.Evaluation

open Ekip.Lib Ekip.Lib.Joined Ekip.Shared Ekip.Core

variable {ω α β : Type}

/-! ## Runs without a validation error -/

def Valid (x : Except RunError α) : Prop := ∀ message, x ≠ .error (.validationError message)

namespace Valid

theorem ok (a : α) : Valid (.ok a : Except RunError α) := by
  intro message h
  cases h

theorem runtimeError (text : String) : Valid (.error (.runtimeError text) : Except RunError α) := by
  intro message h
  cases h

theorem valueError (text : String) : Valid (.error (.valueError text) : Except RunError α) := by
  intro message h
  cases h

theorem adapted (answer : Except Exn α) : Valid (Evaluation.adapted answer) := by
  intro message h
  cases answer with
  | error exn | ok a => cases h

theorem bind {x : Except RunError α} {f : α → Except RunError β} (hx : Valid x)
    (hf : ∀ a, x = .ok a → Valid (f a)) : Valid (x >>= f) := by
  cases x with
  | error error =>
    intro message h
    exact hx message (congrArg Except.error (Except.error.inj h))
  | ok a => exact hf a rfl

theorem mapM {f : α → Except RunError β} (hf : ∀ a, Valid (f a)) (as : List α) : Valid (as.mapM f) := by
  induction as with
  | nil => exact ok _
  | cons a as ih =>
    rw [List.mapM_cons]
    exact (hf a).bind fun _ _ => ih.bind fun _ _ => ok _

end Valid

/-! ## The constructor of a result -/

structure Consistent (result : EvaluationResult) : Prop where
  stage : result.passed = true ↔ result.failure.stage = .none
  reason : result.failure.reason ≠ ""

theorem FailureDetail.make_ok {stage : FailureStage} {reason : String} {failure : FailureDetail}
    (h : FailureDetail.make stage reason = .ok failure) :
    reason ≠ "" ∧ failure = { stage, reason } := by
  unfold FailureDetail.make at h
  split at h
  · cases h
  · rename_i hreason
    exact ⟨hreason, (Except.ok.inj h).symm⟩

theorem EvaluationResult.validate_ok {draft result : EvaluationResult}
    (h : draft.validate = .ok result) :
    result = draft ∧ (draft.passed = true ↔ draft.failure.stage = .none) := by
  unfold EvaluationResult.validate at h
  split at h
  · cases h
  · rename_i hpassing
    split at h
    · cases h
    · rename_i hfailing
      refine ⟨(Except.ok.inj h).symm, ?_⟩
      cases hpassed : draft.passed <;> simp_all

namespace Runner

variable {self : Runner ω} {case : EvaluationCase} {passed : Bool} {stage : FailureStage}
  {reason : String} {metrics : List MetricResult} {ids : List String} {confidence : Option Rat}
  {result : EvaluationResult}

/-- The flag, the stage and the reason of a result are those it was made of. -/
theorem finish_ok (h : self.finish case passed stage reason metrics ids confidence = .ok result) :
    Consistent result ∧ result.passed = passed ∧ result.failure.stage = stage := by
  unfold finish at h
  obtain ⟨failure, hfailure, hresult⟩ := Query.bind_ok.mp h
  obtain ⟨hreason, rfl⟩ := FailureDetail.make_ok hfailure
  obtain ⟨rfl, hstage⟩ := EvaluationResult.validate_ok hresult
  exact ⟨⟨hstage, hreason⟩, rfl, rfl⟩

theorem finish_eq (hreason : reason ≠ "") (hstage : passed = true ↔ stage = .none) :
    ∃ result, self.finish case passed stage reason metrics ids confidence = .ok result := by
  have hmake : FailureDetail.make stage reason = .ok { stage, reason } := if_neg hreason
  unfold finish
  rw [hmake]
  show ∃ result, EvaluationResult.validate _ = .ok result
  unfold EvaluationResult.validate
  cases passed <;> simp_all

theorem finish_valid (hreason : reason ≠ "") (hstage : passed = true ↔ stage = .none) :
    Valid (self.finish case passed stage reason metrics ids confidence) := by
  obtain ⟨result, hresult⟩ := @finish_eq _ self case passed stage reason metrics ids confidence
    hreason hstage
  rw [hresult]
  exact .ok result

end Runner

/-! ## Reasons are never empty -/

theorem shownWith_ne_empty (shown : Rendering) (reason : String) (assertion : AnswerAssertion) :
    assertion.shownWith shown reason ≠ "" := by
  cases assertion <;>
    exact append_ne_empty (append_ne_empty (append_ne_empty (by decide) _) _) _

section Unmet

variable {conditions : List (Bool × String)}

theorem unmet_eq_nil : unmet conditions = [] ↔ ∀ condition ∈ conditions, condition.1 = true := by
  unfold unmet
  rw [List.map_eq_nil_iff, List.filter_eq_nil_iff]
  refine forall₂_congr fun condition _ => ?_
  simp

theorem unmet_ne_empty (h : ∀ condition ∈ conditions, condition.2 ≠ "") :
    ∀ reason ∈ unmet conditions, reason ≠ "" := by
  intro reason hreason
  obtain ⟨condition, hcondition, rfl⟩ := List.mem_map.mp hreason
  exact h condition (List.mem_filter.mp hcondition).1

theorem joined_unmet_ne_empty (h : ∀ condition ∈ conditions, condition.2 ≠ "")
    (hunmet : ¬ ∀ condition ∈ conditions, condition.1 = true) :
    "; ".intercalate (unmet conditions) ≠ "" :=
  intercalate_ne_empty (fun hnil => hunmet (unmet_eq_nil.mp hnil)) (unmet_ne_empty h)

/-- With another text where everything is met. -/
theorem reason_ne_empty {otherwise : String} (h : ∀ condition ∈ conditions, condition.2 ≠ "")
    (hotherwise : otherwise ≠ "") :
    (if (unmet conditions).isEmpty then otherwise else "; ".intercalate (unmet conditions)) ≠ "" := by
  split
  · exact hotherwise
  · rename_i hreasons
    have hne : unmet conditions ≠ [] := fun hnil => hreasons (by rw [hnil]; rfl)
    exact intercalate_ne_empty hne (unmet_ne_empty h)

end Unmet

/-! ## The runners, one by one -/

namespace Runner

variable (self : Runner ω) (case : EvaluationCase)

theorem topK_valid (ids : List String) (k : Int) : Valid (topK ids k) := by
  unfold topK
  split
  · exact .valueError _
  · exact .ok _

theorem recallAtK_valid (ids : List String) (relevantIds : Finset String) (k : Int) :
    Valid (recallAtK ids relevantIds k) := by
  unfold recallAtK
  split
  · exact .ok _
  · exact (topK_valid ids k).bind fun _ _ => .ok _

theorem precisionAtK_valid (ids : List String) (relevantIds : Finset String) (k : Int) :
    Valid (precisionAtK ids relevantIds k) := by
  unfold precisionAtK
  refine (topK_valid ids k).bind fun top _ => ?_
  split
  · exact .ok _
  · exact .ok _

theorem retrievalMetrics_valid (ids : List String) (relevantIds : Finset String) :
    Valid (self.retrievalMetrics ids relevantIds) := by
  unfold retrievalMetrics
  refine (Valid.mapM (fun k => ?_) _).bind fun _ _ => .ok _
  exact (recallAtK_valid ids relevantIds k).bind fun _ _ =>
    (precisionAtK_valid ids relevantIds k).bind fun _ _ => .ok _

/-- Passing is the stage `none` where failing is another stage. -/
theorem passed_iff {passed : Bool} {stage : FailureStage} (hstage : stage ≠ .none) :
    passed = true ↔ (if passed then FailureStage.none else stage) = .none := by
  cases passed
  · simp [hstage]
  · simp

theorem retrievalResult_valid (chunks : List (Retrieval.ScoredChunk ω)) :
    Valid (self.retrievalResult case chunks) := by
  unfold retrievalResult
  refine (self.retrievalMetrics_valid _ _).bind fun metrics _ => ?_
  refine finish_valid (reason_ne_empty ?_ (by decide)) (passed_iff (by decide))
  intro condition hcondition
  simp only [List.mem_cons, List.not_mem_nil, or_false] at hcondition
  rcases hcondition with rfl | rfl | rfl <;> exact append_ne_empty (by decide) _

theorem runRetrievalCase_valid : Valid (self.runRetrievalCase case) := by
  unfold runRetrievalCase
  split
  · exact (Valid.adapted _).bind fun chunks _ => self.retrievalResult_valid case chunks
  · exact .valueError _

theorem generationReasons_ne_empty (chunks : List (Retrieval.ScoredChunk ω))
    (expectation : CitationExpectation) (answerText : String) (citations : List Citation) :
    ∀ reason ∈ self.generationReasons case chunks expectation answerText citations, reason ≠ "" := by
  unfold generationReasons
  apply unmet_ne_empty
  intro condition hcondition
  simp only [List.mem_cons, List.not_mem_nil, or_false] at hcondition
  rcases hcondition with rfl | rfl | rfl | rfl
  · exact append_ne_empty (append_ne_empty (by decide) _) _
  all_goals exact append_ne_empty (by decide) _

theorem groundingResult_valid (chunks : List (Retrieval.ScoredChunk ω)) (metrics : List MetricResult)
    {reasons : List String} (hreasons : ∀ reason ∈ reasons, reason ≠ "") (confidence : Option Rat) :
    Valid (self.groundingResult case chunks metrics reasons confidence) := by
  unfold groundingResult
  dsimp only
  by_cases hpassed : (!self.retrievalFailed case chunks && reasons.isEmpty) = true
  · rw [if_pos hpassed]
    exact finish_valid (by decide) (by simp [hpassed])
  · rw [if_neg hpassed]
    by_cases hfailed : self.retrievalFailed case chunks = true
    · rw [if_pos hfailed]
      refine finish_valid (joined_unmet_ne_empty ?_ ?_) (by simp [hpassed])
      · intro condition hcondition
        simp only [List.mem_cons, List.not_mem_nil, or_false] at hcondition
        rcases hcondition with rfl | rfl <;> exact append_ne_empty (by decide) _
      · intro hall
        unfold retrievalFailed at hfailed
        have huntraceable := hall _ List.mem_cons_self
        have hforbidden := hall _ (List.mem_cons_of_mem _ List.mem_cons_self)
        dsimp only at huntraceable hforbidden
        rw [huntraceable, hforbidden] at hfailed
        exact absurd hfailed (by decide)
    · rw [if_neg hfailed]
      refine finish_valid (intercalate_ne_empty ?_ hreasons) (by simp [hpassed])
      intro hnil
      rw [hnil] at hpassed
      simp [hfailed] at hpassed

theorem runGroundingCase_valid : Valid (self.runGroundingCase case) := by
  unfold runGroundingCase
  refine (Valid.adapted _).bind fun chunks _ => ?_
  split
  · refine (Valid.adapted _).bind fun generated _ => ?_
    exact self.groundingResult_valid case chunks _
      (self.generationReasons_ne_empty case chunks _ _ _) _
  · exact self.groundingResult_valid case chunks _ (by simp) _

theorem evaluateAssertion_valid (answer : String) (tools : AssertionTools) (assertion : AnswerAssertion) :
    Valid (evaluateAssertion self.lowered self.shown answer tools assertion) := by
  cases assertion with
  | semanticSimilarity value threshold => exact (Valid.adapted _).bind fun _ _ => .ok _
  | _ => exact .ok _

theorem evaluateAll_valid (answer : String) (tools : AssertionTools)
    (assertions : List AnswerAssertion) :
    Valid (evaluateAll self.lowered self.shown answer tools assertions) :=
  Valid.mapM (fun assertion => (self.evaluateAssertion_valid answer tools assertion).bind
    fun _ _ => .ok _) assertions

/-- The reasons for which the text or the confidence of an answer fails. -/
theorem answerReasons_ne_empty {failed : List (AnswerAssertion × AssertionResult)} {confidenceOk : Bool}
    {text : String} (htext : text ≠ "") (hfails : ¬ (failed.isEmpty && confidenceOk) = true) :
    "; ".intercalate (failed.map (fun item => item.1.shownWith self.shown item.2.reason) ++
      unmet [(confidenceOk, text)]) ≠ "" := by
  apply intercalate_ne_empty
  · intro hnil
    obtain ⟨hfailed, hconfidence⟩ := List.append_eq_nil_iff.mp hnil
    have hok := unmet_eq_nil.mp hconfidence _ List.mem_cons_self
    have hempty := List.map_eq_nil_iff.mp hfailed
    dsimp only at hok
    rw [hempty, hok] at hfails
    exact hfails rfl
  · intro reason hreason
    rcases List.mem_append.mp hreason with hassertion | hconfidence
    · obtain ⟨item, -, rfl⟩ := List.mem_map.mp hassertion
      exact shownWith_ne_empty _ _ _
    · refine unmet_ne_empty ?_ reason hconfidence
      intro condition hcondition
      obtain rfl := List.mem_singleton.mp hcondition
      exact htext

theorem runAnswerCase_valid : Valid (self.runAnswerCase case) := by
  unfold runAnswerCase
  split
  · refine (Valid.adapted _).bind fun chunks _ => ?_
    refine (Valid.adapted _).bind fun generated _ => ?_
    obtain ⟨answerText, citations, confidence⟩ := generated
    refine (self.evaluateAll_valid _ _ _).bind fun assertionResults _ => ?_
    dsimp only
    generalize coverageOk chunks case.expected.relevantDocumentIds.toFinset = retrievalOk
    generalize (assertionResults.filter fun item => !item.2.passed) = failed
    generalize (case.expected.confidence.all fun expectation =>
      expectation.satisfiedBy (some confidence)) = confidenceOk
    by_cases hpassed : (retrievalOk && failed.isEmpty && confidenceOk) = true
    · rw [if_pos hpassed]
      exact finish_valid (by decide) (by simp [hpassed])
    · rw [if_neg hpassed]
      cases retrievalOk with
      | false =>
        rw [if_pos (by rfl)]
        exact finish_valid (append_ne_empty (append_ne_empty (append_ne_empty (by decide) _) _) _)
          (by simp)
      | true =>
        rw [Bool.true_and] at hpassed
        rw [if_neg (by decide)]
        refine finish_valid (self.answerReasons_ne_empty ?_ hpassed) (by simp [hpassed])
        exact append_ne_empty (append_ne_empty (by decide) _) _
  · exact .runtimeError _

theorem runCritique_valid (expectation : Option ExpectedCritique) :
    Valid (self.runCritique case expectation) := by
  cases expectation with
  | none => exact .ok _
  | some expectation =>
    unfold runCritique
    dsimp only
    split
    · exact (Valid.adapted _).bind fun _ _ => .ok _
    · exact .runtimeError _

/-- A hypothesis that is not passed is not matched, or matched and not supported. -/
theorem investigationReasons_ne_empty {matchResults : List HypothesisMatchResult}
    {unsupported : List RootCauseHypothesis} {critiqueOk : Bool} {status verdict : Option String}
    (hfails : ¬ (matchResults.all HypothesisMatchResult.passed && unsupported.isEmpty && critiqueOk) =
      true) :
    "; ".intercalate (self.investigationReasons matchResults unsupported critiqueOk status verdict) ≠
      "" := by
  unfold investigationReasons
  apply joined_unmet_ne_empty
  · intro condition hcondition
    simp only [List.mem_cons, List.not_mem_nil, or_false] at hcondition
    rcases hcondition with rfl | rfl | rfl | rfl
    · exact append_ne_empty (by decide) _
    · exact append_ne_empty (by decide) _
    · rw [ne_eq, String.append_eq_empty_iff]
      exact fun hboth => absurd hboth.2 (by decide)
    · exact append_ne_empty (append_ne_empty (append_ne_empty (append_ne_empty (by decide) _) _) _) _
  · intro hall
    simp only [List.mem_cons, List.not_mem_nil, or_false, forall_eq_or_imp, forall_eq] at hall
    obtain ⟨hmatched, hsupported, hunsupported, hcritique⟩ := hall
    apply hfails
    rw [hunsupported, hcritique, Bool.and_true, Bool.and_true, List.all_eq_true]
    intro item hitem
    rw [List.isEmpty_iff, List.map_eq_nil_iff, List.filter_eq_nil_iff] at hmatched hsupported
    have hisMatched := hmatched item hitem
    have hisSupported := hsupported item hitem
    unfold HypothesisMatchResult.passed
    cases hm : item.matched <;> cases hs : item.supportSatisfied <;> simp_all

theorem runInvestigationCase_valid : Valid (self.runInvestigationCase case) := by
  unfold runInvestigationCase
  split
  · refine (Valid.adapted _).bind fun chunks _ => ?_
    refine (Valid.adapted _).bind fun gathered _ => ?_
    obtain ⟨evidence, hypotheses⟩ := gathered
    refine (self.runCritique_valid case _).bind fun reviewed _ => ?_
    obtain ⟨critiqueOk, status, verdict, revisionCount⟩ := reviewed
    dsimp only
    generalize hcoverage : evidenceCoverage evidence
      (case.expected.investigation.getD {}).requiredEvidenceIds = coverage
    generalize (coverage.all fun coverage => decide (1 ≤ coverage)) = evidenceOk
    generalize matchExpectedHypotheses self.lowered hypotheses
      (case.expected.investigation.getD {}).hypotheses = matchResults
    generalize findUnsupportedHypotheses hypotheses evidence = unsupported
    by_cases hpassed : (evidenceOk && matchResults.all HypothesisMatchResult.passed &&
        unsupported.isEmpty && critiqueOk) = true
    · rw [if_pos hpassed]
      exact finish_valid (by decide) (by simp [hpassed])
    · rw [if_neg hpassed]
      cases evidenceOk with
      | false =>
        rw [if_pos (by rfl)]
        exact finish_valid (append_ne_empty (append_ne_empty (by decide) _) _) (by simp)
      | true =>
        rw [Bool.true_and] at hpassed
        rw [if_neg (by decide)]
        exact finish_valid (self.investigationReasons_ne_empty hpassed) (by simp [hpassed])
  · exact .runtimeError _

theorem labelsResult_valid {words : LabelWords} (hmissing : words.missing ≠ "")
    (hleaked : words.leaked ≠ "") (hmatched : words.matched ≠ "") (expectation : ExpectedLabels)
    (labels : List String) : Valid (self.labelsResult words case expectation labels) := by
  unfold labelsResult
  refine finish_valid (reason_ne_empty ?_ hmatched) (passed_iff (by decide))
  intro condition hcondition
  simp only [List.mem_cons, List.not_mem_nil, or_false] at hcondition
  rcases hcondition with rfl | rfl
  · exact append_ne_empty hmissing _
  · exact append_ne_empty hleaked _

theorem runMemoryCase_valid : Valid (self.runMemoryCase case) := by
  unfold runMemoryCase
  split
  · split
    · exact (Valid.adapted _).bind fun _ _ =>
        self.labelsResult_valid case (by decide) (by decide) (by decide) _ _
    · exact .runtimeError _
  · exact .runtimeError _

theorem runGraphCase_valid : Valid (self.runGraphCase case) := by
  unfold runGraphCase
  split
  · split
    · exact (Valid.adapted _).bind fun _ _ =>
        self.labelsResult_valid case (by decide) (by decide) (by decide) _ _
    · exact .runtimeError _
  · exact .runtimeError _

theorem runProactiveCase_valid : Valid (self.runProactiveCase case) := by
  unfold runProactiveCase
  split
  · split
    · exact (Valid.adapted _).bind fun _ _ =>
        self.labelsResult_valid case (by decide) (by decide) (by decide) _ _
    · exact .runtimeError _
  · exact .runtimeError _

/-- No runner builds a result that its constructor refuses. -/
theorem runCase_valid : Valid (self.runCase case) := by
  unfold runCase
  split
  · exact self.runRetrievalCase_valid case
  · exact self.runGroundingCase_valid case
  · exact self.runAnswerCase_valid case
  · exact self.runInvestigationCase_valid case
  · exact self.runMemoryCase_valid case
  · exact self.runGraphCase_valid case
  · exact self.runProactiveCase_valid case

end Runner

end Ekip.Evaluation
