import Ekip.Evaluation.Verdicts
import Mathlib.Algebra.Order.Field.Basic
import Mathlib.Algebra.Order.Field.Rat
import Mathlib.Data.List.Perm.Subperm
import Mathlib.Data.Nat.Cast.Order.Ring

/-!
# Concepts in joined contents

What a chunk holds, the joined contents hold, in whatever order they are joined. They may
hold more: a concept that begins in one chunk and ends in the next.
-/
namespace Ekip.Evaluation

open Ekip.Lib

variable {ω : Type}

/-! ## All chunks of a search -/

namespace Runner

variable (self : Runner ω) {chunks order : List (Retrieval.ScoredChunk ω)}
  {chunk : Retrieval.ScoredChunk ω} {concept : String} {case : EvaluationCase}

/-- The concept is in the content. -/
def Holds (concept content : String) : Prop :=
  normalizeText self.lowered concept <:+: normalizeText self.lowered content

instance instDecidableHolds (concept content : String) : Decidable (self.Holds concept content) :=
  inferInstanceAs (Decidable (normalizeText self.lowered concept <:+: normalizeText self.lowered content))

/-- The joined contents hold the concept, and no content does. -/
def Straddles (concept : String) (chunks : List (Retrieval.ScoredChunk ω)) : Prop :=
  self.Holds concept (combinedText chunks) ∧ ∀ chunk ∈ chunks, ¬ self.Holds concept chunk.content

def textOf (chunk : Retrieval.ScoredChunk ω) : Text := normalizeText self.lowered chunk.content

def squeezed (chunk : Retrieval.ScoredChunk ω) : Text := Text.squeeze chunk.content.toList

/-- The texts of the chunks that are not blank. -/
def texts (chunks : List (Retrieval.ScoredChunk ω)) : List Text :=
  (chunks.filter fun chunk => squeezed chunk ≠ []).map self.textOf

/-- The end of one chunk, whole chunks and the beginning of another make the concept. -/
def PutTogether (concept : String) (first : Retrieval.ScoredChunk ω)
    (between : List (Retrieval.ScoredChunk ω)) (last : Retrieval.ScoredChunk ω) : Prop :=
  (∀ chunk ∈ first :: (between ++ [last]), squeezed chunk ≠ []) ∧
    ∃ s p, s <:+ self.textOf first ∧ p <+: self.textOf last ∧
      normalizeText self.lowered concept = Text.spaced (s :: (between.map self.textOf ++ [p]))

theorem lower_spaced (lower : Lower) (texts : List Text) :
    lower.apply (Text.spaced texts) = Text.spaced (texts.map lower.apply) := by
  induction texts with
  | nil => exact lower.nil
  | cons text texts ih =>
    by_cases hlast : texts = []
    · subst hlast
      rfl
    · rw [Text.spaced_cons hlast, lower.space, ih, List.map_cons, Text.spaced_cons (by simpa using hlast)]

theorem squeeze_combined (chunks : List (Retrieval.ScoredChunk ω)) :
    Text.squeeze (combinedText chunks).toList =
      Text.spaced ((chunks.filter fun chunk => squeezed chunk ≠ []).map squeezed) := by
  induction chunks with
  | nil => rfl
  | cons first chunks ih =>
    by_cases hlast : chunks = []
    · subst hlast
      rw [combinedText, List.map_singleton, String.intercalate_singleton]
      by_cases hfirst : squeezed first = []
      · rw [List.filter_cons_of_neg (by simpa using hfirst)]
        exact hfirst
      · rw [List.filter_cons_of_pos (by simpa using hfirst)]
        rfl
    · have hjoined : (combinedText (first :: chunks)).toList =
          first.content.toList ++ ' ' :: (combinedText chunks).toList := by
        unfold combinedText
        rw [List.map_cons, String.intercalate_cons_of_ne_nil (by simpa using hlast)]
        simp
      rw [hjoined]
      by_cases hfirst : squeezed first = []
      · rw [List.filter_cons_of_neg (by simpa using hfirst), Text.squeeze_blank_append hfirst, ih]
      · rw [List.filter_cons_of_pos (by simpa using hfirst), List.map_cons]
        by_cases hrest : (chunks.filter fun chunk => squeezed chunk ≠ []).map squeezed = []
        · rw [hrest] at ih ⊢
          exact Text.squeeze_append_blank _ ih
        · have hnonblank : Text.spaced ((chunks.filter fun chunk => squeezed chunk ≠ []).map squeezed) ≠ [] := by
            refine Text.spaced_ne_nil hrest ?_
            intro text htext
            obtain ⟨chunk, hchunk, rfl⟩ := List.mem_map.mp htext
            exact of_decide_eq_true (List.mem_filter.mp hchunk).2
          rw [Text.spaced_cons hrest, ← ih]
          exact Text.squeeze_append hfirst (ih ▸ hnonblank)

/-- The text of a join is the join of the texts. -/
theorem normalizeText_combined (chunks : List (Retrieval.ScoredChunk ω)) :
    normalizeText self.lowered (combinedText chunks) = Text.spaced (self.texts chunks) := by
  unfold normalizeText texts
  rw [squeeze_combined]
  exact (lower_spaced self.lower _).trans (by rw [List.map_map]; rfl)

theorem holds_combined (hchunk : chunk ∈ chunks) (h : self.Holds concept chunk.content) :
    self.Holds concept (combinedText chunks) := by
  unfold Holds
  rw [normalizeText_combined]
  by_cases hblank : squeezed chunk = []
  · have htext : self.textOf chunk = [] := (congrArg self.lower.apply hblank).trans self.lower.nil
    exact (htext ▸ h : _ <:+: []).trans List.nil_infix
  · exact h.trans (Text.infix_spaced_of_mem (List.mem_map_of_mem (List.mem_filter.mpr ⟨hchunk, by simpa using hblank⟩)))

/-- Where no concept straddles, the joined contents hold what a content holds. -/
theorem holds_combined_iff (hapart : ¬ self.Straddles concept chunks) :
    self.Holds concept (combinedText chunks) ↔ ∃ chunk ∈ chunks, self.Holds concept chunk.content := by
  constructor
  · intro h
    by_contra hnone
    exact hapart ⟨h, fun chunk hchunk hholds => hnone ⟨chunk, hchunk, hholds⟩⟩
  · rintro ⟨chunk, hchunk, hholds⟩
    exact self.holds_combined hchunk hholds

/-- In some order a concept straddles that no chunk holds, where it is put together of several
chunks. A blank concept is in a join of no chunks. -/
theorem straddles_iff : (∃ order, order.Perm chunks ∧ self.Straddles concept order) ↔
    (∀ chunk ∈ chunks, ¬ self.Holds concept chunk.content) ∧
      (chunks = [] ∧ normalizeText self.lowered concept = [] ∨
        ∃ first between last, (first :: (between ++ [last])).Subperm chunks ∧
          self.PutTogether concept first between last) := by
  constructor
  · rintro ⟨order, horder, hjoined, hnone⟩
    have hnowhere : ∀ chunk ∈ chunks, ¬ self.Holds concept chunk.content :=
      fun chunk hchunk => hnone chunk (horder.mem_iff.mpr hchunk)
    refine ⟨hnowhere, ?_⟩
    by_cases hblank : normalizeText self.lowered concept = []
    · refine .inl ⟨List.eq_nil_iff_forall_not_mem.mpr fun chunk hchunk => hnowhere chunk hchunk ?_, hblank⟩
      unfold Holds
      rw [hblank]
      exact List.nil_infix
    · unfold Holds at hjoined
      rw [normalizeText_combined] at hjoined
      rcases Text.infix_spaced hblank hjoined with ⟨text, htext, hinfix⟩ |
        ⟨before, first, between, last, rest, s, p, htexts, hs, hp, hconcept⟩
      · obtain ⟨chunk, hchunk, rfl⟩ := List.mem_map.mp htext
        exact absurd hinfix (hnone chunk (List.mem_filter.mp hchunk).1)
      · obtain ⟨front, tail, hfilter, -, htail⟩ := List.map_eq_append_iff.mp htexts
        obtain ⟨firstChunk, behind, rfl, rfl, hbehind⟩ := List.map_eq_cons_iff.mp htail
        obtain ⟨middle, rear, rfl, rfl, hrear⟩ := List.map_eq_append_iff.mp hbehind
        obtain ⟨lastChunk, back, rfl, rfl, -⟩ := List.map_eq_cons_iff.mp hrear
        have hsublist : (firstChunk :: (middle ++ [lastChunk])).Sublist
            (order.filter fun chunk => squeezed chunk ≠ []) := by
          rw [hfilter]
          simp
        refine .inr ⟨firstChunk, middle, lastChunk,
          (hsublist.trans List.filter_sublist).subperm.trans horder.subperm, ?_, s, p, hs, hp, hconcept⟩
        intro chunk hchunk
        simpa using (List.mem_filter.mp (hsublist.subset hchunk)).2
  · rintro ⟨hnone, ⟨rfl, hblank⟩ | ⟨first, between, last, ⟨part, hpart, hsublist⟩, hnonblank, s, p, hs, hp, hconcept⟩⟩
    · refine ⟨[], List.Perm.refl _, ?_, hnone⟩
      unfold Holds
      rw [hblank]
      exact List.nil_infix
    · obtain ⟨rest, hrest⟩ := hsublist.exists_perm_append
      refine ⟨first :: (between ++ [last]) ++ rest, ((hpart.symm.append_right rest).trans hrest.symm), ?_, ?_⟩
      · have htexts : self.texts (first :: (between ++ [last]) ++ rest) =
            self.textOf first :: (between.map self.textOf ++ self.textOf last :: self.texts rest) := by
          unfold texts
          rw [List.filter_append, List.filter_eq_self.mpr (by simpa using hnonblank)]
          simp
        unfold Holds
        rw [normalizeText_combined, htexts, hconcept]
        exact Text.spaced_infix _ _ hs hp
      · intro chunk hchunk
        exact hnone chunk (hrest.mem_iff.mpr ((hpart.append_right rest).symm.mem_iff.mp hchunk))

theorem not_straddles_iff : (∀ order, order.Perm chunks → ¬ self.Straddles concept order) ↔
    ((∀ chunk ∈ chunks, ¬ self.Holds concept chunk.content) →
      (chunks = [] → normalizeText self.lowered concept ≠ []) ∧
      ∀ first between last, (first :: (between ++ [last])).Subperm chunks →
        ¬ self.PutTogether concept first between last) := by
  have hnot : ¬ (∃ order, order.Perm chunks ∧ self.Straddles concept order) ↔ _ :=
    not_congr self.straddles_iff
  simpa only [not_exists, not_and, not_or] using hnot

/-- A concept of one word does not straddle. -/
theorem word_not_straddles (hword : ' ' ∉ normalizeText self.lowered concept)
    (hne : normalizeText self.lowered concept ≠ []) (chunks : List (Retrieval.ScoredChunk ω)) :
    ¬ self.Straddles concept chunks := by
  intro hstraddles
  obtain ⟨-, hnone | ⟨first, between, last, -, -, s, p, -, -, hconcept⟩⟩ :=
    self.straddles_iff.mp ⟨chunks, List.Perm.refl _, hstraddles⟩
  · exact hne hnone.2
  · rw [hconcept, Text.spaced_cons (by simp)] at hword
    simp at hword

theorem mem_forbiddenHits : concept ∈ self.forbiddenHits case chunks ↔
    concept ∈ case.expected.forbiddenConcepts ∧ self.Holds concept (combinedText chunks) := by
  unfold forbiddenHits checkForbiddenConcepts
  rw [List.mem_filter, decide_eq_true_iff]
  rfl

theorem mem_untraceableConcepts : concept ∈ self.untraceableConcepts case chunks ↔
    concept ∈ case.expected.requiredConcepts ∧
      ∀ chunk ∈ chunks, ¬ self.Holds concept chunk.content := by
  unfold untraceableConcepts conceptsTraceableToEvidence Holds
  simp only [List.mem_map, List.mem_filter, List.mem_eraseDups]
  constructor
  · rintro ⟨⟨other, traced⟩, ⟨⟨_, hmem, heq⟩, hnot⟩, rfl⟩
    obtain ⟨rfl, rfl⟩ := Prod.mk.inj heq
    refine ⟨hmem, ?_⟩
    intro chunk hchunk hholds
    simp only [Bool.not_eq_true', List.any_eq_false, List.mem_map, decide_eq_true_eq] at hnot
    exact hnot _ ⟨chunk, hchunk, rfl⟩ hholds
  · rintro ⟨hmem, hnone⟩
    refine ⟨(concept, _), ⟨⟨concept, hmem, rfl⟩, ?_⟩, rfl⟩
    simp only [Bool.not_eq_true', List.any_eq_false, List.mem_map, decide_eq_true_eq]
    rintro _ ⟨chunk, hchunk, rfl⟩
    exact hnone chunk hchunk

end Runner

end Ekip.Evaluation

/-!
## Sound verdicts

What a passing case has shown, and when the verdict of a retrieval or grounding case is about
the chunks and not about the text that is made of them.
-/
namespace Ekip.Evaluation

open Ekip.Lib Ekip.Shared Ekip.Core

variable {ω : Type}

namespace Runner

section Graded

variable {self : Runner ω} {case : EvaluationCase} {result : EvaluationResult}
  {chunks order : List (Retrieval.ScoredChunk ω)}

/-! ## What a passing case has shown -/

/-- The labels that must be there are, and those that must not are not. -/
def LabelsMatch (expectation : ExpectedLabels) (labels : List String) : Prop :=
  (∀ label ∈ expectation.expectedLabels, label ∈ labels) ∧
    ∀ label ∈ expectation.forbiddenLabels, label ∉ labels

/-- The documents that a case names are there. -/
def Covered (case : EvaluationCase) (chunks : List (Retrieval.ScoredChunk ω)) : Prop :=
  ∀ id ∈ case.expected.relevantDocumentIds, ∃ chunk ∈ chunks, toString chunk.documentId = id

/-- No single chunk holds a forbidden concept. -/
def Clean (self : Runner ω) (case : EvaluationCase) (chunks : List (Retrieval.ScoredChunk ω)) : Prop :=
  ∀ concept ∈ case.expected.forbiddenConcepts, ∀ chunk ∈ chunks, ¬ self.Holds concept chunk.content

/-- Each required concept is in a single chunk. -/
def Traceable (self : Runner ω) (case : EvaluationCase) (chunks : List (Retrieval.ScoredChunk ω)) : Prop :=
  ∀ concept ∈ case.expected.requiredConcepts, ∃ chunk ∈ chunks, self.Holds concept chunk.content

/-- Every expectation that the category grades was checked, on what the adapters returned, and
is met. -/
inductive Graded (self : Runner ω) (case : EvaluationCase) : Prop
  | retrieval (category : case.category = .retrieval) (topK : Int)
      (chunks : List (Retrieval.ScoredChunk ω)) (ranked : self.kValues.max? = some topK)
      (searched : self.search case topK = .ok chunks) (covered : Covered case chunks)
      (required : ∀ concept ∈ case.expected.requiredConcepts,
        self.Holds concept (" ".intercalate (chunks.map Retrieval.ScoredChunk.content)))
      (forbidden : self.Clean case chunks)
  | grounding (category : case.category = .grounding) (chunks : List (Retrieval.ScoredChunk ω))
      (searched : self.search case self.contextTopK = .ok chunks)
      (required : self.Traceable case chunks) (forbidden : self.Clean case chunks)
      (citations : ∀ expectation ∈ case.expected.citations, ∃ generate ∈ self.generateAnswer,
        ∃ text citations confidence, generate case chunks = .ok (text, citations, confidence) ∧
          expectation.minimum ≤ citations.length ∧
          (∀ concept ∈ case.expected.requiredConcepts, self.Holds concept text) ∧
          (checkCitations self.lowered citations (chunks.map Retrieval.ScoredChunk.chunkId)
            (chunkContents chunks) expectation).unresolvedCitations = [] ∧
          (checkCitations self.lowered citations (chunks.map Retrieval.ScoredChunk.chunkId)
            (chunkContents chunks) expectation).unsupportedCitations = [])
  | answer (category : case.category = .answer) (chunks : List (Retrieval.ScoredChunk ω))
      (text : String) (citations : List Citation) (confidence : Rat)
      (results : List (AnswerAssertion × AssertionResult))
      (searched : self.search case self.contextTopK = .ok chunks) (covered : Covered case chunks)
      (generated : ∃ generate ∈ self.generateAnswer, generate case chunks = .ok (text, citations, confidence))
      (asserted : evaluateAll self.lowered self.shown text self.assertions
        case.expected.answerAssertions = .ok results)
      (passed : ∀ item ∈ results, item.2.passed = true)
      (confident : ∀ expectation ∈ case.expected.confidence,
        expectation.satisfiedBy (some confidence) = true)
  | investigation (category : case.category = .investigation) (chunks : List (Retrieval.ScoredChunk ω))
      (evidence : List EvidenceItem) (hypotheses : List RootCauseHypothesis)
      (searched : self.search case self.contextTopK = .ok chunks)
      (investigated : ∃ investigate ∈ self.investigate, investigate case chunks = .ok (evidence, hypotheses))
      (covered : ∀ id ∈ (case.expected.investigation.getD {}).requiredEvidenceIds,
        ∃ item ∈ evidence, item.reference = id)
      (matched : ∀ item ∈ matchExpectedHypotheses self.lowered hypotheses
        (case.expected.investigation.getD {}).hypotheses, item.passed = true)
      (supported : findUnsupportedHypotheses hypotheses evidence = [])
      (reviewed : ∀ expectation ∈ (case.expected.investigation.getD {}).critique,
        ∃ critique ∈ self.critique, ∃ status verdict revisionCount,
          critique case = .ok (status, verdict, revisionCount) ∧
            critiqueOk expectation status verdict = true)
  | memory (category : case.category = .memory) (expectation : ExpectedLabels) (labels : List String)
      (expected : case.expected.memory = some expectation)
      (recalled : ∃ adapter ∈ self.«recall», adapter case self.contextTopK = .ok labels)
      (matched : LabelsMatch expectation labels)
  | graph (category : case.category = .graph) (expectation : ExpectedGraphTraversal) (labels : List String)
      (expected : case.expected.graph = some expectation)
      (reached : ∃ traverse ∈ self.traverse, traverse case expectation.depth = .ok labels)
      (matched : LabelsMatch expectation.toExpectedLabels labels)
  | proactive (category : case.category = .proactive) (expectation : ExpectedLabels) (labels : List String)
      (expected : case.expected.proactive = some expectation)
      (visible : ∃ listFindings ∈ self.listFindings, listFindings case = .ok labels)
      (matched : LabelsMatch expectation labels)

/-! ## What the checks find -/

theorem checkRequiredConcepts_eq_nil {text : String} {concepts : List String} :
    checkRequiredConcepts self.lowered text concepts = [] ↔ ∀ concept ∈ concepts, self.Holds concept text := by
  unfold checkRequiredConcepts
  rw [List.filter_eq_nil_iff]
  simp only [decide_eq_true_iff, not_not]
  rfl

theorem untraceableConcepts_eq_nil : self.untraceableConcepts case chunks = [] ↔
    ∀ concept ∈ case.expected.requiredConcepts, ∃ chunk ∈ chunks, self.Holds concept chunk.content := by
  rw [List.eq_nil_iff_forall_not_mem]
  constructor
  · intro hnone concept hconcept
    by_contra hnowhere
    refine hnone concept (self.mem_untraceableConcepts.mpr ⟨hconcept, ?_⟩)
    exact fun chunk hchunk hholds => hnowhere ⟨chunk, hchunk, hholds⟩
  · intro hall concept hmem
    obtain ⟨hconcept, hnowhere⟩ := self.mem_untraceableConcepts.mp hmem
    obtain ⟨chunk, hchunk, hholds⟩ := hall concept hconcept
    exact hnowhere chunk hchunk hholds

/-- What no joined text holds, no chunk holds. -/
theorem clean_of_forbiddenHits (h : self.forbiddenHits case chunks = []) : self.Clean case chunks := by
  intro concept hconcept chunk hchunk hholds
  have hhit := self.mem_forbiddenHits.mpr ⟨hconcept, self.holds_combined hchunk hholds⟩
  rw [h] at hhit
  cases hhit

theorem generationReasons_eq_nil {expectation : CitationExpectation} {text : String}
    {citations : List Citation} :
    self.generationReasons case chunks expectation text citations = [] ↔
      expectation.minimum ≤ citations.length ∧
        (self.citationCheck chunks citations expectation).unresolvedCitations = [] ∧
        (self.citationCheck chunks citations expectation).unsupportedCitations = [] ∧
        checkRequiredConcepts self.lowered text case.expected.requiredConcepts = [] := by
  have hcount : (self.citationCheck chunks citations expectation).countSatisfied = true ↔
      expectation.minimum ≤ citations.length := decide_eq_true_iff
  unfold generationReasons
  dsimp only
  rw [unmet_eq_nil]
  simp only [List.forall_mem_cons, List.isEmpty_iff, hcount]
  simp only [List.not_mem_nil, false_implies, implies_true, and_true]

/-- A whole coverage is of all that is relevant. -/
theorem subset_of_coverage {retrievedIds : List String} {relevantIds : Finset String}
    (h : ∀ coverage ∈ relevantDocumentCoverage retrievedIds relevantIds, 1 ≤ coverage) :
    relevantIds ⊆ retrievedIds.toFinset := by
  by_cases hnone : relevantIds = ∅
  · rw [hnone]
    exact Finset.empty_subset _
  · have hpos : (0 : Rat) < relevantIds.card := Nat.cast_pos.mpr (Finset.card_pos.mpr (Finset.nonempty_of_ne_empty hnone))
    have hwhole := h _ (if_neg hnone)
    rw [one_le_div hpos, Nat.cast_le] at hwhole
    have hall := Finset.eq_of_subset_of_card_le Finset.inter_subset_right hwhole
    rw [← hall]
    exact Finset.inter_subset_left

theorem covered_of_coverageOk (h : coverageOk chunks case.expected.relevantDocumentIds.toFinset = true) :
    Covered case chunks := by
  have hsubset : case.expected.relevantDocumentIds.toFinset ⊆ (documentIds chunks).toFinset := by
    refine subset_of_coverage fun coverage hcoverage => ?_
    unfold coverageOk at h
    rcases (Bool.or_eq_true _ _).mp h with hnone | hwhole
    · rw [relevantDocumentCoverage, if_pos (of_decide_eq_true hnone)] at hcoverage
      cases hcoverage
    · rw [Option.mem_def.mp hcoverage] at hwhole
      exact of_decide_eq_true hwhole
  intro id hid
  simpa [documentIds] using hsubset (List.mem_toFinset.mpr hid)

theorem adapted_ok {α : Type} {answer : Except Exn α} {a : α} (h : adapted answer = .ok a) :
    answer = .ok a := by
  cases answer with
  | error exn => cases h
  | ok b => exact congrArg Except.ok (Except.ok.inj h)

/-- The verdict of a retrieval case. -/
def retrievalPassed (self : Runner ω) (case : EvaluationCase)
    (chunks : List (Retrieval.ScoredChunk ω)) : Bool :=
  coverageOk chunks case.expected.relevantDocumentIds.toFinset &&
    (self.missingConcepts case chunks).isEmpty && (self.forbiddenHits case chunks).isEmpty

theorem retrievalResult_ok (h : self.retrievalResult case chunks = .ok result) :
    Consistent result ∧ result.passed = self.retrievalPassed case chunks ∧
      result.failure.stage = if self.retrievalPassed case chunks then .none else .retrieval := by
  unfold retrievalResult at h
  obtain ⟨metrics, -, hfinish⟩ := Query.bind_ok.mp h
  exact finish_ok hfinish

theorem runRetrievalCase_ok (h : self.runRetrievalCase case = .ok result) :
    ∃ topK chunks, self.kValues.max? = some topK ∧ self.search case topK = .ok chunks ∧
      self.retrievalResult case chunks = .ok result := by
  unfold runRetrievalCase at h
  split at h
  · rename_i topK htopK
    obtain ⟨chunks, hsearch, hresult⟩ := Query.bind_ok.mp h
    exact ⟨topK, chunks, htopK, adapted_ok hsearch, hresult⟩
  · cases h

/-- What was generated for a grounding case. -/
inductive Generated (self : Runner ω) (case : EvaluationCase)
    (chunks : List (Retrieval.ScoredChunk ω)) : List String → Prop
  | checked (generate : EvaluationCase → List (Retrieval.ScoredChunk ω) →
        Except Exn (String × List Citation × Rat))
      (expectation : CitationExpectation) (text : String) (citations : List Citation) (confidence : Rat) :
      self.retrievalFailed case chunks = false → self.generateAnswer = some generate →
      case.expected.citations = some expectation →
      generate case chunks = .ok (text, citations, confidence) →
      Generated self case chunks (self.generationReasons case chunks expectation text citations)
  | unchecked : (self.retrievalFailed case chunks = true ∨ self.generateAnswer = none ∨
      case.expected.citations = none) → Generated self case chunks []

theorem groundingResult_ok {metrics : List MetricResult} {reasons : List String}
    {confidence : Option Rat}
    (h : self.groundingResult case chunks metrics reasons confidence = .ok result) :
    Consistent result ∧ result.passed = (!self.retrievalFailed case chunks && reasons.isEmpty) ∧
      result.failure.stage = if !self.retrievalFailed case chunks && reasons.isEmpty then .none
        else if self.retrievalFailed case chunks then .retrieval else .generation := by
  unfold groundingResult at h
  dsimp only at h
  obtain ⟨hconsistent, hpassed, hstage⟩ := finish_ok h
  refine ⟨hconsistent, hpassed, hstage.trans ?_⟩
  by_cases hpasses : (!self.retrievalFailed case chunks && reasons.isEmpty) = true
  · rw [if_pos hpasses, if_pos hpasses]
  · rw [if_neg hpasses, if_neg hpasses]
    by_cases hfailed : self.retrievalFailed case chunks = true
    · rw [if_pos hfailed, if_pos hfailed]
    · rw [if_neg hfailed, if_neg hfailed]

theorem runGroundingCase_ok (h : self.runGroundingCase case = .ok result) :
    ∃ chunks metrics reasons confidence, self.search case self.contextTopK = .ok chunks ∧
      Generated self case chunks reasons ∧
      self.groundingResult case chunks metrics reasons confidence = .ok result := by
  unfold runGroundingCase at h
  obtain ⟨chunks, hsearch, hrun⟩ := Query.bind_ok.mp h
  split at hrun
  · rename_i generate expectation hfailed hgenerate hexpected
    obtain ⟨⟨text, citations, confidence⟩, hanswer, hresult⟩ := Query.bind_ok.mp hrun
    exact ⟨chunks, _, _, _, adapted_ok hsearch,
      .checked generate expectation text citations confidence hfailed hgenerate hexpected
        (adapted_ok hanswer), hresult⟩
  · rename_i hother
    refine ⟨chunks, _, _, _, adapted_ok hsearch, .unchecked ?_, hrun⟩
    cases hfailed : self.retrievalFailed case chunks with
    | true => exact .inl rfl
    | false =>
      cases hgenerate : self.generateAnswer with
      | none => exact .inr (.inl rfl)
      | some generate =>
        cases hexpected : case.expected.citations with
        | none => exact .inr (.inr rfl)
        | some expectation => exact absurd hexpected (hother _ _ hfailed hgenerate)

theorem retrievalPassed_iff : self.retrievalPassed case chunks = true ↔
    coverageOk chunks case.expected.relevantDocumentIds.toFinset = true ∧
      self.missingConcepts case chunks = [] ∧ self.forbiddenHits case chunks = [] := by
  unfold retrievalPassed
  rw [Bool.and_eq_true, Bool.and_eq_true, List.isEmpty_iff, List.isEmpty_iff, and_assoc]

theorem graded_of_retrieval (hcategory : case.category = .retrieval)
    (h : self.runRetrievalCase case = .ok result) (hpassed : result.passed = true) :
    Graded self case := by
  obtain ⟨topK, chunks, hranked, hsearch, hresult⟩ := runRetrievalCase_ok h
  have hverdict := (retrievalResult_ok hresult).2.1
  rw [hpassed, eq_comm, retrievalPassed_iff] at hverdict
  exact .retrieval hcategory topK chunks hranked hsearch (covered_of_coverageOk hverdict.1)
    (checkRequiredConcepts_eq_nil.mp hverdict.2.1) (clean_of_forbiddenHits hverdict.2.2)

/-- Without an adapter for answers the citations are not checked. -/
theorem graded_of_grounding (hcategory : case.category = .grounding)
    (h : self.runGroundingCase case = .ok result) (hpassed : result.passed = true)
    (hadapter : case.expected.citations.isSome = true → self.generateAnswer.isSome = true) :
    Graded self case := by
  obtain ⟨chunks, metrics, reasons, confidence, hsearch, hgenerated, hresult⟩ := runGroundingCase_ok h
  have hverdict := (groundingResult_ok hresult).2.1
  rw [hpassed, eq_comm, Bool.and_eq_true, Bool.not_eq_true', List.isEmpty_iff] at hverdict
  obtain ⟨hevidence, hreasons⟩ := hverdict
  have hchecks := hevidence
  unfold retrievalFailed at hchecks
  rw [Bool.or_eq_false_iff, Bool.not_eq_false', Bool.not_eq_false', List.isEmpty_iff, List.isEmpty_iff] at hchecks
  refine .grounding hcategory chunks hsearch (untraceableConcepts_eq_nil.mp hchecks.1)
    (clean_of_forbiddenHits hchecks.2) ?_
  cases hgenerated with
  | checked generate expectation text citations confidence _ hgenerate hexpected hanswer =>
    intro other hother
    obtain rfl := Option.some.inj (hexpected.symm.trans hother)
    obtain ⟨hminimum, hresolved, hsupported, hconcepts⟩ := generationReasons_eq_nil.mp hreasons
    exact ⟨generate, hgenerate, text, citations, confidence, hanswer, hminimum,
      checkRequiredConcepts_eq_nil.mp hconcepts, hresolved, hsupported⟩
  | unchecked hwhy =>
    intro expectation hexpected
    rcases hwhy with hfailed | hnoAdapter | hnoCitations
    · rw [hevidence] at hfailed
      cases hfailed
    · have hsome := hadapter (Option.isSome_of_mem hexpected)
      rw [hnoAdapter] at hsome
      cases hsome
    · rw [hnoCitations] at hexpected
      cases hexpected

theorem runAnswerCase_ok (hcategory : case.category = .answer)
    (h : self.runAnswerCase case = .ok result) :
    Consistent result ∧ (result.passed = true → Graded self case) := by
  unfold runAnswerCase at h
  split at h
  · rename_i generate hgenerate
    obtain ⟨chunks, hsearch, h⟩ := Query.bind_ok.mp h
    obtain ⟨⟨text, citations, confidence⟩, hanswer, h⟩ := Query.bind_ok.mp h
    obtain ⟨results, hresults, h⟩ := Query.bind_ok.mp h
    dsimp only at h
    obtain ⟨hconsistent, hverdict, -⟩ := finish_ok h
    refine ⟨hconsistent, ?_⟩
    intro hpassed
    rw [hpassed, eq_comm, Bool.and_eq_true, Bool.and_eq_true, List.isEmpty_iff,
      List.filter_eq_nil_iff] at hverdict
    obtain ⟨⟨hcovered, hasserted⟩, hconfident⟩ := hverdict
    refine .answer hcategory chunks text citations confidence results (adapted_ok hsearch)
      (covered_of_coverageOk hcovered) ⟨generate, hgenerate, adapted_ok hanswer⟩ hresults ?_ ?_
    · intro item hitem
      simpa using hasserted item hitem
    · intro expectation hexpectation
      rw [hexpectation] at hconfident
      exact hconfident
  · cases h

theorem runInvestigationCase_ok (hcategory : case.category = .investigation)
    (h : self.runInvestigationCase case = .ok result) :
    Consistent result ∧ (result.passed = true → Graded self case) := by
  unfold runInvestigationCase at h
  split at h
  · rename_i investigate hinvestigate
    obtain ⟨chunks, hsearch, h⟩ := Query.bind_ok.mp h
    obtain ⟨⟨evidence, hypotheses⟩, hinvestigated, h⟩ := Query.bind_ok.mp h
    obtain ⟨⟨reviewOk, status, verdict, revisionCount⟩, hcritique, h⟩ := Query.bind_ok.mp h
    dsimp only at h
    obtain ⟨hconsistent, hverdict, -⟩ := finish_ok h
    refine ⟨hconsistent, ?_⟩
    intro hpassed
    rw [hpassed, eq_comm, Bool.and_eq_true, Bool.and_eq_true, Bool.and_eq_true, List.isEmpty_iff,
      List.all_eq_true] at hverdict
    obtain ⟨⟨⟨hcovered, hmatched⟩, hsupported⟩, hreviewed⟩ := hverdict
    refine .investigation hcategory chunks evidence hypotheses (adapted_ok hsearch)
      ⟨investigate, hinvestigate, adapted_ok hinvestigated⟩ ?_ hmatched hsupported ?_
    · intro id hid
      have hsubset : _ ⊆ (evidence.map EvidenceItem.reference).toFinset :=
        subset_of_coverage fun coverage hcoverage => by
          rw [evidenceCoverage, Option.mem_def.mp hcoverage] at hcovered
          exact of_decide_eq_true hcovered
      simpa using hsubset (List.mem_toFinset.mpr hid)
    · intro expectation hexpectation
      rw [hexpectation] at hcritique
      unfold runCritique at hcritique
      dsimp only at hcritique
      split at hcritique
      · rename_i critique hadapter
        obtain ⟨⟨status, verdict, revisionCount⟩, hanswer, hreview⟩ := Query.bind_ok.mp hcritique
        have hok := congrArg Prod.fst (Except.ok.inj hreview)
        exact ⟨critique, hadapter, status, verdict, revisionCount, adapted_ok hanswer,
          hok.trans hreviewed⟩
      · cases hcritique
  · cases h

theorem labelsResult_ok {words : LabelWords} {expectation : ExpectedLabels} {labels : List String}
    (h : self.labelsResult words case expectation labels = .ok result) :
    Consistent result ∧ (result.passed = true → LabelsMatch expectation labels) := by
  unfold labelsResult at h
  obtain ⟨hconsistent, hverdict, -⟩ := finish_ok h
  refine ⟨hconsistent, ?_⟩
  intro hpassed
  rw [hpassed, eq_comm, Bool.and_eq_true, List.isEmpty_iff, List.isEmpty_iff, List.filter_eq_nil_iff,
    List.filter_eq_nil_iff] at hverdict
  constructor
  · intro label hlabel
    simpa using hverdict.1 label hlabel
  · intro label hlabel
    simpa using hverdict.2 label hlabel

theorem runMemoryCase_ok (hcategory : case.category = .memory)
    (h : self.runMemoryCase case = .ok result) :
    Consistent result ∧ (result.passed = true → Graded self case) := by
  unfold runMemoryCase at h
  split at h
  · rename_i adapter hrecall
    split at h
    · rename_i expectation hexpectation
      obtain ⟨labels, hlabels, h⟩ := Query.bind_ok.mp h
      obtain ⟨hconsistent, hmatch⟩ := labelsResult_ok h
      exact ⟨hconsistent, fun hpassed => .memory hcategory expectation labels hexpectation
        ⟨adapter, hrecall, adapted_ok hlabels⟩ (hmatch hpassed)⟩
    · cases h
  · cases h

theorem runGraphCase_ok (hcategory : case.category = .graph)
    (h : self.runGraphCase case = .ok result) :
    Consistent result ∧ (result.passed = true → Graded self case) := by
  unfold runGraphCase at h
  split at h
  · rename_i traverse htraverse
    split at h
    · rename_i expectation hexpectation
      obtain ⟨labels, hlabels, h⟩ := Query.bind_ok.mp h
      obtain ⟨hconsistent, hmatch⟩ := labelsResult_ok h
      exact ⟨hconsistent, fun hpassed => .graph hcategory expectation labels hexpectation
        ⟨traverse, htraverse, adapted_ok hlabels⟩ (hmatch hpassed)⟩
    · cases h
  · cases h

theorem runProactiveCase_ok (hcategory : case.category = .proactive)
    (h : self.runProactiveCase case = .ok result) :
    Consistent result ∧ (result.passed = true → Graded self case) := by
  unfold runProactiveCase at h
  split at h
  · rename_i listFindings hlist
    split at h
    · rename_i expectation hexpectation
      obtain ⟨labels, hlabels, h⟩ := Query.bind_ok.mp h
      obtain ⟨hconsistent, hmatch⟩ := labelsResult_ok h
      exact ⟨hconsistent, fun hpassed => .proactive hcategory expectation labels hexpectation
        ⟨listFindings, hlist, adapted_ok hlabels⟩ (hmatch hpassed)⟩
    · cases h
  · cases h

theorem runCase_consistent (h : self.runCase case = .ok result) : Consistent result := by
  unfold runCase at h
  split at h
  · obtain ⟨_, _, _, _, hresult⟩ := runRetrievalCase_ok h
    exact (retrievalResult_ok hresult).1
  · obtain ⟨_, _, _, _, _, _, hresult⟩ := runGroundingCase_ok h
    exact (groundingResult_ok hresult).1
  · exact (runAnswerCase_ok ‹_› h).1
  · exact (runInvestigationCase_ok ‹_› h).1
  · exact (runMemoryCase_ok ‹_› h).1
  · exact (runGraphCase_ok ‹_› h).1
  · exact (runProactiveCase_ok ‹_› h).1

/-- Only the citations of a grounding case can be left unchecked. -/
theorem graded_of_passed (h : self.runCase case = .ok result) (hpassed : result.passed = true)
    (hadapter : case.category = .grounding → case.expected.citations.isSome = true →
      self.generateAnswer.isSome = true) : Graded self case := by
  unfold runCase at h
  split at h
  · exact graded_of_retrieval ‹_› h hpassed
  · rename_i hcategory
    exact graded_of_grounding hcategory h hpassed (hadapter hcategory)
  · exact (runAnswerCase_ok ‹_› h).2 hpassed
  · exact (runInvestigationCase_ok ‹_› h).2 hpassed
  · exact (runMemoryCase_ok ‹_› h).2 hpassed
  · exact (runGraphCase_ok ‹_› h).2 hpassed
  · exact (runProactiveCase_ok ‹_› h).2 hpassed

end Graded

end Runner

end Ekip.Evaluation
