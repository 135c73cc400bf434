import Ekip.Evaluation.SoundVerdicts

/-!
# Verdicts and the order of the chunks

The verdict of a retrieval or grounding case on chunks that come in another order, where the
other adapters answer as before; and the reports of whole datasets.
-/
namespace Ekip.Evaluation

open Ekip.Lib Ekip.Shared Ekip.Core

variable {ω : Type}

namespace Runner

section Order

variable {self : Runner ω} {case : EvaluationCase} {result other : EvaluationResult}
  {chunks order : List (Retrieval.ScoredChunk ω)}

/-! ## What does not depend on the order -/

theorem coverageOk_perm (h : order.Perm chunks) (relevantIds : Finset String) :
    coverageOk order relevantIds = coverageOk chunks relevantIds := by
  have hids : (documentIds order).toFinset = (documentIds chunks).toFinset :=
    List.toFinset_eq_of_perm _ _ (h.map _)
  unfold coverageOk relevantDocumentCoverage
  rw [hids]

theorem lookup_perm (h : order.Perm chunks)
    (hids : (chunks.map Retrieval.ScoredChunk.chunkId).Nodup) {chunk : Retrieval.ScoredChunk ω}
    (hchunk : chunk ∈ chunks) :
    (chunkContents order).lookup chunk.chunkId = (chunkContents chunks).lookup chunk.chunkId := by
  have hidsOrder : (order.map Retrieval.ScoredChunk.chunkId).Nodup := (h.map _).nodup_iff.mpr hids
  rw [lookup_chunkContents hids hchunk, lookup_chunkContents hidsOrder (h.mem_iff.mpr hchunk)]

/-- The citations are looked up by the ids of the chunks. -/
theorem unresolved_perm (self : Runner ω) (h : order.Perm chunks) (citations : List Citation)
    (expectation : CitationExpectation) :
    (self.citationCheck order citations expectation).unresolvedCitations =
      (self.citationCheck chunks citations expectation).unresolvedCitations := by
  have hmem : ∀ id, id ∈ order.map Retrieval.ScoredChunk.chunkId ↔
      id ∈ chunks.map Retrieval.ScoredChunk.chunkId := fun id => (h.map _).mem_iff
  unfold citationCheck checkCitations
  simp only [hmem]

/-- Of chunks with different ids, each is found by its own. -/
theorem unsupported_perm (h : order.Perm chunks)
    (hids : (chunks.map Retrieval.ScoredChunk.chunkId).Nodup) (citations : List Citation)
    (expectation : CitationExpectation) :
    (self.citationCheck order citations expectation).unsupportedCitations =
      (self.citationCheck chunks citations expectation).unsupportedCitations := by
  have hmem : ∀ id, id ∈ order.map Retrieval.ScoredChunk.chunkId ↔
      id ∈ chunks.map Retrieval.ScoredChunk.chunkId := fun id => (h.map _).mem_iff
  unfold citationCheck checkCitations
  dsimp only
  congr 1
  apply List.filter_congr
  intro citation _
  by_cases hcited : citation.chunkId ∈ chunks.map Retrieval.ScoredChunk.chunkId
  · obtain ⟨chunk, hchunk, hid⟩ := List.mem_map.mp hcited
    have hcontent := lookup_perm h hids hchunk
    rw [hid] at hcontent
    simp only [hmem, hcontent]
  · have hcitedOrder := mt (hmem citation.chunkId).mp hcited
    simp [hcited, hcitedOrder]

theorem forbiddenHits_eq_nil (hapart : ∀ concept ∈ case.expected.forbiddenConcepts,
      ¬ self.Straddles concept chunks) : self.forbiddenHits case chunks = [] ↔
    ∀ concept ∈ case.expected.forbiddenConcepts, ∀ chunk ∈ chunks,
      ¬ self.Holds concept chunk.content := by
  rw [List.eq_nil_iff_forall_not_mem]
  constructor
  · intro hnone concept hconcept chunk hchunk hholds
    exact hnone concept
      (self.mem_forbiddenHits.mpr ⟨hconcept, self.holds_combined hchunk hholds⟩)
  · intro hnone concept hmem
    obtain ⟨hconcept, hholds⟩ := self.mem_forbiddenHits.mp hmem
    obtain ⟨chunk, hchunk, hchunkHolds⟩ := (self.holds_combined_iff (hapart concept hconcept)).mp hholds
    exact hnone concept hconcept chunk hchunk hchunkHolds

/-- The evidence is fine where each required concept is in a chunk and no forbidden one is. -/
theorem retrievalFailed_eq_false (hapart : ∀ concept ∈ case.expected.forbiddenConcepts,
      ¬ self.Straddles concept chunks) : self.retrievalFailed case chunks = false ↔
    (∀ concept ∈ case.expected.requiredConcepts, ∃ chunk ∈ chunks, self.Holds concept chunk.content) ∧
      ∀ concept ∈ case.expected.forbiddenConcepts, ∀ chunk ∈ chunks,
        ¬ self.Holds concept chunk.content := by
  unfold retrievalFailed
  rw [Bool.or_eq_false_iff, Bool.not_eq_false', Bool.not_eq_false', List.isEmpty_iff, List.isEmpty_iff,
    untraceableConcepts_eq_nil, forbiddenHits_eq_nil hapart]

/-! ## The chunks in another order -/

/-- The chunks that the verdict of the case is about. -/
def evidence? (self : Runner ω) (case : EvaluationCase) : Option (List (Retrieval.ScoredChunk ω)) :=
  match case.category with
  | .retrieval => self.kValues.max?.bind fun topK => (self.search case topK).toOption
  | .grounding => (self.search case self.contextTopK).toOption
  | _ => none

/-- The search returns the chunks in this order, and the answer stays the same. -/
def reordered (self : Runner ω) (chunks order : List (Retrieval.ScoredChunk ω)) : Runner ω :=
  { self with
    search := fun _ _ => .ok order
    generateAnswer := self.generateAnswer.map fun generate case _ => generate case chunks }

theorem evidence_of_retrieval {topK : Int} (hcategory : case.category = .retrieval)
    (hranked : self.kValues.max? = some topK) (hsearch : self.search case topK = .ok chunks) :
    self.evidence? case = some chunks := by
  unfold evidence?
  rw [hcategory]
  dsimp only
  rw [hranked, Option.bind_some, hsearch]
  rfl

theorem evidence_of_grounding (hcategory : case.category = .grounding)
    (hsearch : self.search case self.contextTopK = .ok chunks) : self.evidence? case = some chunks := by
  unfold evidence?
  rw [hcategory]
  dsimp only
  rw [hsearch]
  rfl

theorem category_of_evidence (h : self.evidence? case = some chunks) :
    case.category = .retrieval ∨ case.category = .grounding := by
  unfold evidence? at h
  split at h
  · exact .inl ‹_›
  · exact .inr ‹_›
  · cases h

/-- A retrieval case on its chunks, in any order. -/
theorem retrieval_verdict (hcategory : case.category = .retrieval)
    (hrun : (self.reordered chunks order).runCase case = .ok other) :
    other.passed = self.retrievalPassed case order ∧
      other.failure.stage = if self.retrievalPassed case order then .none else .retrieval := by
  unfold runCase at hrun
  rw [hcategory] at hrun
  obtain ⟨_, _, _, hsearch, hresult⟩ := runRetrievalCase_ok hrun
  obtain rfl := Except.ok.inj hsearch
  exact (retrievalResult_ok hresult).2

theorem retrieval_of_evidence (hcategory : case.category = .retrieval)
    (hevidence : self.evidence? case = some chunks) (h : self.runCase case = .ok result) :
    result.passed = self.retrievalPassed case chunks ∧
      result.failure.stage = if self.retrievalPassed case chunks then .none else .retrieval := by
  unfold runCase at h
  rw [hcategory] at h
  obtain ⟨topK, found, hranked, hsearch, hresult⟩ := runRetrievalCase_ok h
  have hfound := evidence_of_retrieval hcategory hranked hsearch
  obtain rfl := Option.some.inj (hfound.symm.trans hevidence)
  exact (retrievalResult_ok hresult).2

theorem grounding_of_evidence (hcategory : case.category = .grounding)
    (hevidence : self.evidence? case = some chunks) (h : self.runCase case = .ok result) :
    ∃ reasons, Generated self case chunks reasons ∧
      result.passed = (!self.retrievalFailed case chunks && reasons.isEmpty) ∧
      result.failure.stage = if !self.retrievalFailed case chunks && reasons.isEmpty then .none
        else if self.retrievalFailed case chunks then .retrieval else .generation := by
  unfold runCase at h
  rw [hcategory] at h
  obtain ⟨found, metrics, reasons, confidence, hsearch, hgenerated, hresult⟩ := runGroundingCase_ok h
  have hfound := evidence_of_grounding hcategory hsearch
  obtain rfl := Option.some.inj (hfound.symm.trans hevidence)
  exact ⟨reasons, hgenerated, (groundingResult_ok hresult).2⟩

/-- The chunks of the other order are the evidence there. -/
theorem evidence_reordered (hevidence : self.evidence? case = some chunks) :
    (self.reordered chunks order).evidence? case = some order := by
  rcases category_of_evidence hevidence with hcategory | hcategory
  · unfold evidence? at hevidence
    rw [hcategory] at hevidence
    obtain ⟨topK, hranked, -⟩ := Option.bind_eq_some_iff.mp hevidence
    exact evidence_of_retrieval hcategory hranked rfl
  · exact evidence_of_grounding hcategory rfl

theorem reasons_of_checked {reasons : List String}
    {generate : EvaluationCase → List (Retrieval.ScoredChunk ω) →
      Except Exn (String × List Citation × Rat)}
    {expectation : CitationExpectation} {text : String} {citations : List Citation} {confidence : Rat}
    (h : Generated self case chunks reasons) (hfine : self.retrievalFailed case chunks = false)
    (hgenerate : self.generateAnswer = some generate)
    (hexpected : case.expected.citations = some expectation)
    (hanswer : generate case chunks = .ok (text, citations, confidence)) :
    reasons = self.generationReasons case chunks expectation text citations := by
  cases h with
  | checked generate' expectation' text' citations' confidence' _ hgenerate' hexpected' hanswer' =>
    obtain rfl := Option.some.inj (hgenerate.symm.trans hgenerate')
    obtain rfl := Option.some.inj (hexpected.symm.trans hexpected')
    obtain ⟨rfl, rfl, rfl⟩ : text = text' ∧ citations = citations' ∧ confidence = confidence' := by
      simpa using Except.ok.inj (hanswer.symm.trans hanswer')
    rfl
  | unchecked hwhy =>
    rcases hwhy with hfails | hnone | hnone
    · rw [hfine] at hfails
      cases hfails
    · rw [hgenerate] at hnone
      cases hnone
    · rw [hexpected] at hnone
      cases hnone

/-- In both orders the same answer is checked, or none is. -/
theorem generated_reordered
    (hfailed : self.retrievalFailed case order = self.retrievalFailed case chunks)
    {reasons reasons' : List String} (hgenerated : Generated self case chunks reasons)
    (hgenerated' : Generated (self.reordered chunks order) case order reasons') :
    (reasons = [] ∧ reasons' = []) ∨
      ∃ generate ∈ self.generateAnswer, ∃ expectation ∈ case.expected.citations,
        ∃ text citations confidence, self.retrievalFailed case chunks = false ∧
          generate case chunks = .ok (text, citations, confidence) ∧
          reasons = self.generationReasons case chunks expectation text citations ∧
          reasons' = self.generationReasons case order expectation text citations := by
  have hsame : (self.reordered chunks order).retrievalFailed case order =
      self.retrievalFailed case chunks := hfailed
  cases hgenerated with
  | checked generate expectation text citations confidence hevidence hgenerate hexpected hanswer =>
    cases hgenerated' with
    | checked generate' expectation' text' citations' confidence' _ hgenerate' hexpected' hanswer' =>
      obtain rfl := Option.some.inj (hexpected.symm.trans hexpected')
      have hcopy : (self.reordered chunks order).generateAnswer =
          some fun case _ => generate case chunks := by
        show self.generateAnswer.map _ = _
        rw [hgenerate]
        rfl
      obtain rfl := Option.some.inj (hcopy.symm.trans hgenerate')
      obtain ⟨rfl, rfl, rfl⟩ : text = text' ∧ citations = citations' ∧ confidence = confidence' := by
        simpa using Except.ok.inj (hanswer.symm.trans hanswer')
      exact .inr ⟨generate, hgenerate, expectation, hexpected, text, citations, confidence,
        hevidence, hanswer, rfl, rfl⟩
    | unchecked hwhy =>
      rcases hwhy with hfails | hnone | hnone
      · rw [hsame, hevidence] at hfails
        cases hfails
      · have hmapped : self.generateAnswer.map _ = none := hnone
        rw [hgenerate] at hmapped
        cases hmapped
      · rw [hexpected] at hnone
        cases hnone
  | unchecked hwhy =>
    cases hgenerated' with
    | checked generate' expectation' text' citations' confidence' hevidence hgenerate' hexpected' _ =>
      rcases hwhy with hfails | hnone | hnone
      · rw [hsame, hfails] at hevidence
        cases hevidence
      · have hmapped : self.generateAnswer.map _ = some generate' := hgenerate'
        rw [hnone] at hmapped
        cases hmapped
      · rw [hexpected'] at hnone
        cases hnone
    | unchecked => exact .inl ⟨rfl, rfl⟩

/-! ## The run in another order returns -/

theorem topK_ok {ids found : List String} {k : Int} (h : topK ids k = .ok found) (other : List String) :
    topK other k = .ok (other.take k.toNat) := by
  unfold topK at h ⊢
  split at h
  · cases h
  · rename_i hpositive
    exact if_neg hpositive

theorem recallAtK_ok {k : Int} {ids found : List String} (h : topK ids k = .ok found)
    (relevantIds : Finset String) : ∃ «recall», recallAtK ids relevantIds k = .ok «recall» := by
  unfold recallAtK
  rw [h]
  split
  · exact ⟨_, rfl⟩
  · exact ⟨_, rfl⟩

theorem precisionAtK_ok {k : Int} {ids found : List String} (h : topK ids k = .ok found)
    (relevantIds : Finset String) : ∃ precision, precisionAtK ids relevantIds k = .ok precision := by
  unfold precisionAtK
  rw [h]
  show ∃ precision, (if found = [] then (pure none : Except RunError _) else _) = .ok precision
  split
  · exact ⟨_, rfl⟩
  · exact ⟨_, rfl⟩

theorem topK_of_precisionAtK {k : Int} {ids : List String} {relevantIds : Finset String}
    {precision : Option Rat} (h : precisionAtK ids relevantIds k = .ok precision) :
    ∃ found, topK ids k = .ok found := by
  unfold precisionAtK at h
  obtain ⟨found, hfound, -⟩ := Query.bind_ok.mp h
  exact ⟨found, hfound⟩

/-- The metrics of other chunks are there where those of these chunks are. -/
theorem retrievalMetrics_ok {ids : List String} {relevantIds : Finset String}
    {metrics : List MetricResult} (h : self.retrievalMetrics ids relevantIds = .ok metrics)
    (others : List String) : ∃ metrics', self.retrievalMetrics others relevantIds = .ok metrics' := by
  unfold retrievalMetrics at h ⊢
  obtain ⟨ranked, hranked, -⟩ := Query.bind_ok.mp h
  obtain ⟨ranked', hranked'⟩ : ∃ ranked', self.kValues.mapM (fun k => do
      let «recall» ← recallAtK others relevantIds k
      let precision ← precisionAtK others relevantIds k
      pure [{ name := s!"recall_at_{k}", value := «recall» : MetricResult },
        { name := s!"precision_at_{k}", value := precision }]) = .ok ranked' := by
    refine Query.mapM_ok_of ?_ hranked
    intro k round hround
    obtain ⟨recalled, -, hround⟩ := Query.bind_ok.mp hround
    obtain ⟨precision, hprecision, -⟩ := Query.bind_ok.mp hround
    obtain ⟨found, hfound⟩ := topK_of_precisionAtK hprecision
    have hothers := topK_ok hfound others
    obtain ⟨recalled', hrecall'⟩ := recallAtK_ok hothers relevantIds
    obtain ⟨precision', hprecision'⟩ := precisionAtK_ok hothers relevantIds
    rw [hrecall', hprecision']
    exact ⟨_, rfl⟩
  rw [hranked']
  exact ⟨_, rfl⟩

theorem finish_error {passed : Bool} {stage : FailureStage} {reason : String}
    {metrics : List MetricResult} {ids : List String} {confidence : Option Rat} {error : RunError}
    (h : self.finish case passed stage reason metrics ids confidence = .error error) :
    ∃ message, error = .validationError message := by
  unfold finish FailureDetail.make at h
  split at h
  · exact ⟨_, (Except.error.inj h).symm⟩
  · unfold bind EvaluationResult.validate at h
    dsimp only [Monad.toBind, Except.instMonad, Except.bind] at h
    split at h
    · exact ⟨_, (Except.error.inj h).symm⟩
    · split at h
      · exact ⟨_, (Except.error.inj h).symm⟩
      · cases h

theorem retrieval_returns (hcategory : case.category = .retrieval)
    (h : self.runCase case = .ok result) :
    ∃ other, (self.reordered chunks order).runCase case = .ok other := by
  unfold runCase at h ⊢
  rw [hcategory] at h ⊢
  dsimp only at h ⊢
  obtain ⟨topK, found, hranked, hsearch, hresult⟩ := runRetrievalCase_ok h
  obtain ⟨metrics, hmetrics, -⟩ := Query.bind_ok.mp hresult
  obtain ⟨metrics', hmetrics'⟩ := retrievalMetrics_ok hmetrics (documentIds order)
  have hvalid : Valid ((self.reordered chunks order).runRetrievalCase case) := runRetrievalCase_valid _ _
  cases hother : (self.reordered chunks order).runRetrievalCase case with
  | ok other => exact ⟨other, rfl⟩
  | error error =>
    exfalso
    have hrun : (self.reordered chunks order).retrievalResult case order = .error error := by
      rw [← hother]
      unfold runRetrievalCase
      have hsame : (self.reordered chunks order).kValues.max? = some topK := hranked
      rw [hsame]
      rfl
    unfold retrievalResult at hrun
    dsimp only at hrun
    have hsame : (self.reordered chunks order).retrievalMetrics (documentIds order)
        case.expected.relevantDocumentIds.toFinset = .ok metrics' := hmetrics'
    rw [hsame] at hrun
    obtain ⟨message, rfl⟩ := finish_error hrun
    exact hvalid message hother

/-- A grounding case returns where its adapters do. -/
theorem runGroundingCase_returns (hcategory : case.category = .grounding)
    (hsearch : self.search case self.contextTopK = .ok chunks)
    (hgenerate : ∀ generate ∈ self.generateAnswer, ∃ answer, generate case chunks = .ok answer) :
    ∃ result, self.runCase case = .ok result := by
  have hvalid : Valid (self.runGroundingCase case) := runGroundingCase_valid _ _
  unfold runCase
  rw [hcategory]
  dsimp only
  cases hresult : self.runGroundingCase case with
  | ok result => exact ⟨result, rfl⟩
  | error error =>
    exfalso
    have hrun := hresult
    unfold runGroundingCase at hrun
    rw [hsearch] at hrun
    dsimp only [adapted, Except.mapError, bind, Except.bind] at hrun
    split at hrun
    · rename_i generate expectation _ hadapter _
      obtain ⟨answer, hanswer⟩ := hgenerate generate hadapter
      rw [hanswer] at hrun
      obtain ⟨message, rfl⟩ := finish_error hrun
      exact hvalid message hresult
    · obtain ⟨message, rfl⟩ := finish_error hrun
      exact hvalid message hresult

theorem grounding_returns (hcategory : case.category = .grounding)
    (hgenerate : ∀ generate ∈ self.generateAnswer, ∃ answer, generate case chunks = .ok answer) :
    ∃ other, (self.reordered chunks order).runCase case = .ok other := by
  have hsearch : (self.reordered chunks order).search case (self.reordered chunks order).contextTopK =
    .ok order := rfl
  refine runGroundingCase_returns hcategory hsearch ?_
  intro generate hcopy
  obtain ⟨original, horiginal, rfl⟩ := Option.map_eq_some_iff.mp hcopy
  exact hgenerate original horiginal

end Order

end Runner

end Ekip.Evaluation
