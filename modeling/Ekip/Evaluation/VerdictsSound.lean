import Ekip.Evaluation.ChunkOrder

/-!
# When a verdict is about the chunks

The checks of concepts join the contents of the chunks first. The verdict is about the chunks
where what is found in the joined text does not depend on how they were joined.
-/
namespace Ekip.Evaluation

open Ekip.Lib

variable {ω : Type}

namespace Runner

/-! ## One case -/

section Case

variable (runner : Runner ω) (case : EvaluationCase)

structure SoundVerdict (result : EvaluationResult) : Prop where
  consistent : Consistent result
  graded : result.passed = true → Graded runner case
  reported : ∀ chunks, runner.evidence? case = some chunks → ∀ order, order.Perm chunks →
    ∀ concept ∈ runner.forbiddenHits case order, ∃ chunk ∈ order, runner.Holds concept chunk.content
  ordered : ∀ chunks, runner.evidence? case = some chunks → ∀ order, order.Perm chunks →
    ∀ other, (runner.reordered chunks order).runCase case = .ok other →
      other.passed = result.passed ∧ other.failure.stage = result.failure.stage

/-- Nothing that the verdict needs is found between two chunks in one order only. -/
structure ChunksDecide : Prop where
  /-- A forbidden concept that no chunk holds cannot be put together of several, and is not blank
  where there is no chunk. -/
  forbidden : ∀ chunks, runner.evidence? case = some chunks → ∀ concept ∈ case.expected.forbiddenConcepts,
    (∀ chunk ∈ chunks, ¬ runner.Holds concept chunk.content) →
      (chunks = [] → normalizeText runner.lowered concept ≠ []) ∧
      ∀ first between last, (first :: (between ++ [last])).Subperm chunks →
        ¬ runner.PutTogether concept first between last
  required : case.category = .retrieval → ∀ chunks, runner.evidence? case = some chunks →
    coverageOk chunks case.expected.relevantDocumentIds.toFinset = true → runner.Clean case chunks →
    ∀ order, order.Perm chunks →
      ((∀ concept ∈ case.expected.requiredConcepts, runner.Holds concept (combinedText order)) ↔
        ∀ concept ∈ case.expected.requiredConcepts, runner.Holds concept (combinedText chunks))
  cited : case.category = .grounding → ∀ chunks, runner.evidence? case = some chunks →
    runner.Traceable case chunks → runner.Clean case chunks →
    ∀ generate ∈ runner.generateAnswer, ∀ expectation ∈ case.expected.citations,
    ∀ text citations confidence, generate case chunks = .ok (text, citations, confidence) →
      expectation.minimum ≤ citations.length →
      (runner.citationCheck chunks citations expectation).unresolvedCitations = [] →
      checkRequiredConcepts runner.lowered text case.expected.requiredConcepts = [] →
      ∀ order, order.Perm chunks →
        ((runner.citationCheck order citations expectation).unsupportedCitations = [] ↔
          (runner.citationCheck chunks citations expectation).unsupportedCitations = [])
  adapter : case.category = .grounding → ∀ chunks, runner.evidence? case = some chunks →
    runner.Traceable case chunks → runner.Clean case chunks →
    case.expected.citations.isSome = true → runner.generateAnswer.isSome = true

end Case

section Proofs

variable {self : Runner ω} {case : EvaluationCase} {result other : EvaluationResult}
  {chunks order : List (Retrieval.ScoredChunk ω)}

theorem clean_perm (h : order.Perm chunks) : self.Clean case order ↔ self.Clean case chunks := by
  unfold Clean
  simp only [h.mem_iff]

theorem traceable_perm (h : order.Perm chunks) :
    self.Traceable case order ↔ self.Traceable case chunks := by
  unfold Traceable
  simp only [h.mem_iff]

theorem missingConcepts_eq_nil : self.missingConcepts case chunks = [] ↔
    ∀ concept ∈ case.expected.requiredConcepts, self.Holds concept (combinedText chunks) :=
  checkRequiredConcepts_eq_nil

/-- Without straddling concepts the evidence fails in all orders or in none. -/
theorem retrievalFailed_perm (h : order.Perm chunks)
    (hapart : ∀ concept ∈ case.expected.forbiddenConcepts, ¬ self.Straddles concept chunks)
    (hapartOrder : ∀ concept ∈ case.expected.forbiddenConcepts, ¬ self.Straddles concept order) :
    self.retrievalFailed case order = self.retrievalFailed case chunks := by
  have hiff : self.retrievalFailed case order = false ↔ self.retrievalFailed case chunks = false := by
    rw [retrievalFailed_eq_false hapartOrder, retrievalFailed_eq_false hapart]
    exact and_congr (traceable_perm h) (clean_perm h)
  cases hchunks : self.retrievalFailed case chunks with
  | false => exact hiff.mpr hchunks
  | true =>
    cases horder : self.retrievalFailed case order with
    | false =>
      rw [hiff.mp horder] at hchunks
      cases hchunks
    | true => rfl

/-! ## The chunks decide where the verdict is sound -/

theorem apart_of_reported (h : self.SoundVerdict case result)
    (hevidence : self.evidence? case = some chunks) (horder : order.Perm chunks) :
    ∀ concept ∈ case.expected.forbiddenConcepts, ¬ self.Straddles concept order := by
  rintro concept hconcept ⟨hjoined, hnone⟩
  have hreported := self.mem_forbiddenHits.mpr ⟨hconcept, hjoined⟩
  obtain ⟨chunk, hchunk, hholds⟩ := h.reported chunks hevidence order horder concept hreported
  exact hnone chunk hchunk hholds

theorem chunksDecide_of_sound (hrun : self.runCase case = .ok result)
    (h : self.SoundVerdict case result) : self.ChunksDecide case where
  forbidden chunks hevidence concept hconcept := self.not_straddles_iff.mp fun order horder =>
    apart_of_reported h hevidence horder concept hconcept
  required hcategory chunks hevidence hcovered hclean order horder := by
    have hverdict := (retrieval_of_evidence hcategory hevidence hrun).1
    obtain ⟨other, hother⟩ : ∃ other, (self.reordered chunks order).runCase case = .ok other :=
      retrieval_returns hcategory hrun
    have hsame := (h.ordered chunks hevidence order horder other hother).1
    have hpassed : self.retrievalPassed case order = self.retrievalPassed case chunks := by
      rw [← hverdict, ← hsame]
      exact (retrieval_verdict hcategory hother).1.symm
    have hapart := apart_of_reported h hevidence (List.Perm.refl chunks)
    have hapartOrder := apart_of_reported h hevidence horder
    have hforbidden := (forbiddenHits_eq_nil hapart).mpr hclean
    have hforbiddenOrder := (forbiddenHits_eq_nil hapartOrder).mpr ((clean_perm horder).mpr hclean)
    have hcoveredOrder := (coverageOk_perm horder _).trans hcovered
    rw [← missingConcepts_eq_nil, ← missingConcepts_eq_nil]
    constructor
    · intro hmissing
      have hpasses := hpassed.symm.trans
        (retrievalPassed_iff.mpr ⟨hcoveredOrder, hmissing, hforbiddenOrder⟩)
      exact (retrievalPassed_iff.mp hpasses).2.1
    · intro hmissing
      have hpasses := hpassed.trans (retrievalPassed_iff.mpr ⟨hcovered, hmissing, hforbidden⟩)
      exact (retrievalPassed_iff.mp hpasses).2.1
  cited hcategory chunks hevidence htraceable hclean generate hgenerate expectation hexpected text
      citations confidence hanswer hminimum hresolved hconcepts order horder := by
    have hapart := apart_of_reported h hevidence (List.Perm.refl chunks)
    have hapartOrder := apart_of_reported h hevidence horder
    have hfine := (retrievalFailed_eq_false hapart).mpr ⟨htraceable, hclean⟩
    have hfineOrder := (retrievalFailed_perm horder hapart hapartOrder).trans hfine
    obtain ⟨other, hother⟩ : ∃ other, (self.reordered chunks order).runCase case = .ok other := by
      refine grounding_returns hcategory ?_
      intro generate' hgenerate'
      obtain rfl := Option.some.inj (hgenerate.symm.trans hgenerate')
      exact ⟨_, hanswer⟩
    have hsame := (h.ordered chunks hevidence order horder other hother).1
    obtain ⟨reasons, hgenerated, hpassed, -⟩ := grounding_of_evidence hcategory hevidence hrun
    obtain ⟨reasons', hgenerated', hpassed', -⟩ :=
      grounding_of_evidence hcategory (evidence_reordered hevidence) hother
    have hverdicts : (reasons' = [] ↔ reasons = []) := by
      have hcopy : (self.reordered chunks order).retrievalFailed case order = false := hfineOrder
      rw [hpassed, hpassed', hfine, hcopy, Bool.not_false, Bool.true_and, Bool.true_and] at hsame
      rw [← List.isEmpty_iff, ← List.isEmpty_iff, hsame]
    have hreasons := reasons_of_checked hgenerated hfine hgenerate hexpected hanswer
    have hreasons' : reasons' = self.generationReasons case order expectation text citations := by
      have hcopy : (self.reordered chunks order).generateAnswer = some fun case _ => generate case chunks :=
        congrArg (Option.map _) hgenerate
      exact (reasons_of_checked hgenerated' hfineOrder hcopy hexpected hanswer :)
    have hresolvedOrder := (self.unresolved_perm horder citations expectation).trans hresolved
    rw [hreasons, hreasons', generationReasons_eq_nil, generationReasons_eq_nil] at hverdicts
    constructor
    · intro hsupported
      exact (hverdicts.mp ⟨hminimum, hresolvedOrder, hsupported, hconcepts⟩).2.2.1
    · intro hsupported
      exact (hverdicts.mpr ⟨hminimum, hresolved, hsupported, hconcepts⟩).2.2.1
  adapter hcategory chunks hevidence htraceable hclean hcitations := by
    have hapart := apart_of_reported h hevidence (List.Perm.refl chunks)
    have hfine := (retrievalFailed_eq_false hapart).mpr ⟨htraceable, hclean⟩
    obtain ⟨reasons, hgenerated, hpassed, -⟩ := grounding_of_evidence hcategory hevidence hrun
    cases hadapter : self.generateAnswer with
    | some generate => rfl
    | none =>
      exfalso
      have hunchecked : reasons = [] := by
        cases hgenerated with
        | checked generate _ _ _ _ _ hgenerate =>
          rw [hadapter] at hgenerate
          cases hgenerate
        | unchecked => rfl
      rw [hfine, hunchecked] at hpassed
      cases h.graded hpassed with
      | grounding category found searched required forbidden citations =>
        obtain ⟨expectation, hexpectation⟩ := Option.isSome_iff_exists.mp hcitations
        obtain ⟨generate, hgenerate, -⟩ := citations expectation hexpectation
        rw [hadapter] at hgenerate
        cases hgenerate
      | retrieval category | answer category | investigation category | memory category
      | graph category | proactive category => exact absurd (hcategory.symm.trans category) (by decide)

/-! ## The verdict is sound where the chunks decide -/

theorem evidence_of_ok (hcategory : case.category = .grounding) (h : self.runCase case = .ok result) :
    ∃ chunks, self.evidence? case = some chunks := by
  unfold runCase at h
  rw [hcategory] at h
  obtain ⟨chunks, _, _, _, hsearch, -⟩ := runGroundingCase_ok h
  exact ⟨chunks, evidence_of_grounding hcategory hsearch⟩

theorem ChunksDecide.apart (h : self.ChunksDecide case) (hevidence : self.evidence? case = some chunks)
    (horder : order.Perm chunks) :
    ∀ concept ∈ case.expected.forbiddenConcepts, ¬ self.Straddles concept order := fun concept hconcept =>
  self.not_straddles_iff.mpr (h.forbidden chunks hevidence concept hconcept) order horder

theorem retrievalPassed_perm (h : self.ChunksDecide case) (hcategory : case.category = .retrieval)
    (hevidence : self.evidence? case = some chunks) (horder : order.Perm chunks) :
    self.retrievalPassed case order = self.retrievalPassed case chunks := by
  have hapart := h.apart hevidence (List.Perm.refl chunks)
  have hapartOrder := h.apart hevidence horder
  rw [Bool.eq_iff_iff, retrievalPassed_iff, retrievalPassed_iff, coverageOk_perm horder,
    missingConcepts_eq_nil, missingConcepts_eq_nil, forbiddenHits_eq_nil hapart,
    forbiddenHits_eq_nil hapartOrder]
  apply and_congr_right
  intro hcovered
  have hclean : self.Clean case order ↔ self.Clean case chunks := clean_perm horder
  constructor
  · rintro ⟨hrequired, hcleanOrder⟩
    have hnone := hclean.mp hcleanOrder
    exact ⟨(h.required hcategory chunks hevidence hcovered hnone order horder).mp hrequired, hnone⟩
  · rintro ⟨hrequired, hnone⟩
    exact ⟨(h.required hcategory chunks hevidence hcovered hnone order horder).mpr hrequired,
      hclean.mpr hnone⟩

/-- The checks of the answer end the same way in both orders. -/
theorem reasons_perm (h : self.ChunksDecide case) (hcategory : case.category = .grounding)
    (hevidence : self.evidence? case = some chunks) (horder : order.Perm chunks)
    {reasons reasons' : List String} (hgenerated : Generated self case chunks reasons)
    (hgenerated' : Generated (self.reordered chunks order) case order reasons') :
    reasons' = [] ↔ reasons = [] := by
  have hapart := h.apart hevidence (List.Perm.refl chunks)
  have hapartOrder := h.apart hevidence horder
  have hfailed := retrievalFailed_perm horder hapart hapartOrder
  rcases generated_reordered hfailed hgenerated hgenerated' with ⟨hnone, hnone'⟩ |
    ⟨generate, hgenerate, expectation, hexpected, text, citations, confidence, hfine, hanswer,
      hreasons, hreasons'⟩
  · rw [hnone, hnone']
  · obtain ⟨htraceable, hclean⟩ := (retrievalFailed_eq_false hapart).mp hfine
    have hcited := h.cited hcategory chunks hevidence htraceable hclean generate hgenerate expectation
      hexpected text citations confidence hanswer
    have hresolved := self.unresolved_perm horder citations expectation
    rw [hreasons, hreasons', generationReasons_eq_nil, generationReasons_eq_nil, hresolved]
    constructor
    · rintro ⟨hminimum, hresolves, hsupported, hconcepts⟩
      exact ⟨hminimum, hresolves, (hcited hminimum hresolves hconcepts order horder).mp hsupported,
        hconcepts⟩
    · rintro ⟨hminimum, hresolves, hsupported, hconcepts⟩
      exact ⟨hminimum, hresolves, (hcited hminimum hresolves hconcepts order horder).mpr hsupported,
        hconcepts⟩

theorem sound_of_chunksDecide (hrun : self.runCase case = .ok result) (h : self.ChunksDecide case) :
    self.SoundVerdict case result where
  consistent := runCase_consistent hrun
  graded hpassed := by
    refine graded_of_passed hrun hpassed ?_
    intro hcategory hcitations
    obtain ⟨chunks, hevidence⟩ := evidence_of_ok hcategory hrun
    obtain ⟨reasons, -, hverdict, -⟩ := grounding_of_evidence hcategory hevidence hrun
    rw [hpassed, eq_comm, Bool.and_eq_true, Bool.not_eq_true'] at hverdict
    have hapart := h.apart hevidence (List.Perm.refl chunks)
    obtain ⟨htraceable, hclean⟩ := (retrievalFailed_eq_false hapart).mp hverdict.1
    exact h.adapter hcategory chunks hevidence htraceable hclean hcitations
  reported chunks hevidence order horder concept hreported := by
    obtain ⟨hconcept, hjoined⟩ := self.mem_forbiddenHits.mp hreported
    have hapart := h.apart hevidence horder concept hconcept
    exact (self.holds_combined_iff hapart).mp hjoined
  ordered chunks hevidence order horder other hother := by
    rcases category_of_evidence hevidence with hcategory | hcategory
    · obtain ⟨hpassed, hstage⟩ := retrieval_of_evidence hcategory hevidence hrun
      obtain ⟨hpassed', hstage'⟩ := retrieval_verdict hcategory hother
      have hsame := retrievalPassed_perm h hcategory hevidence horder
      rw [hpassed, hstage, hpassed', hstage', hsame]
      exact ⟨rfl, rfl⟩
    · obtain ⟨reasons, hgenerated, hpassed, hstage⟩ := grounding_of_evidence hcategory hevidence hrun
      obtain ⟨reasons', hgenerated', hpassed', hstage'⟩ :=
        grounding_of_evidence hcategory (evidence_reordered hevidence) hother
      have hapart := h.apart hevidence (List.Perm.refl chunks)
      have hapartOrder := h.apart hevidence horder
      have hfailed : (self.reordered chunks order).retrievalFailed case order =
          self.retrievalFailed case chunks := retrievalFailed_perm horder hapart hapartOrder
      have hreasons : reasons'.isEmpty = reasons.isEmpty := by
        rw [Bool.eq_iff_iff, List.isEmpty_iff, List.isEmpty_iff]
        exact reasons_perm h hcategory hevidence horder hgenerated hgenerated'
      rw [hpassed, hstage, hpassed', hstage', hfailed, hreasons]
      exact ⟨rfl, rfl⟩

/-! ## Concepts of one word -/

/-- The text of the concept is one word. -/
def OneWord (self : Runner ω) (concept : String) : Prop :=
  normalizeText self.lowered concept ≠ [] ∧ ' ' ∉ normalizeText self.lowered concept

theorem OneWord.not_straddles {concept : String} (h : self.OneWord concept)
    (chunks : List (Retrieval.ScoredChunk ω)) : ¬ self.Straddles concept chunks :=
  self.word_not_straddles h.2 h.1 chunks

/-- The chunks decide about single words where their ids differ. -/
theorem chunksDecide_of_words
    (hforbidden : ∀ concept ∈ case.expected.forbiddenConcepts, self.OneWord concept)
    (hrequired : ∀ concept ∈ case.expected.requiredConcepts, self.OneWord concept)
    (hids : ∀ chunks, self.evidence? case = some chunks →
      (chunks.map Retrieval.ScoredChunk.chunkId).Nodup)
    (hadapter : case.expected.citations.isSome = true → self.generateAnswer.isSome = true) :
    self.ChunksDecide case where
  forbidden _ _ concept hconcept :=
    self.not_straddles_iff.mp fun order _ => (hforbidden concept hconcept).not_straddles order
  required _ chunks _ _ _ order horder := by
    refine forall₂_congr fun concept hconcept => ?_
    have hword := hrequired concept hconcept
    rw [self.holds_combined_iff (hword.not_straddles order),
      self.holds_combined_iff (hword.not_straddles chunks)]
    simp only [horder.mem_iff]
  cited _ chunks hevidence _ _ _ _ expectation _ _ citations _ _ _ _ _ order horder := by
    rw [unsupported_perm horder (hids chunks hevidence)]
  adapter _ _ _ _ _ hcitations := hadapter hcitations

end Proofs

/-! ## Reports -/

section Reports

variable (self : Runner ω) {datasets : List Dataset} {acc all : List EvaluationResult}

/-- The values of the metric in the results that it applies to. -/
def applicableValues (results : List EvaluationResult) (name : String) : List Rat :=
  results.filterMap fun result => (result.metric? name).bind MetricResult.value

structure SoundReport (runner : Runner ω) (datasets : List Dataset) (report : EvaluationReport) :
    Prop where
  results : ∃ reports, datasets.mapM runner.runDataset = .ok reports ∧
    report.results = reports.flatMap EvaluationReport.results
  clean : report.isClean = true ↔ ∀ result ∈ report.results, result.matchedExpectation = true
  aggregates : ∀ aggregate ∈ report.aggregateMetrics, aggregate.value =
    let values := applicableValues report.results aggregate.name
    if values = [] then none else some (values.sum / values.length)
  complete : ∀ result ∈ report.results, ∀ metric ∈ result.metrics,
    ∃ aggregate ∈ report.aggregateMetrics, aggregate.name = metric.name

theorem collectResults_ok (h : self.collectResults acc datasets = .ok all) :
    ∃ reports, datasets.mapM self.runDataset = .ok reports ∧
      all = acc ++ reports.flatMap EvaluationReport.results := by
  induction datasets generalizing acc with
  | nil =>
    obtain rfl := Except.ok.inj h
    exact ⟨[], List.mapM_nil, (List.append_nil acc).symm⟩
  | cons dataset datasets ih =>
    unfold collectResults at h
    obtain ⟨report, hreport, hrest⟩ := Query.bind_ok.mp h
    obtain ⟨reports, hreports, rfl⟩ := ih hrest
    refine ⟨report :: reports, ?_, ?_⟩
    · rw [List.mapM_cons, hreport, hreports]
      rfl
    · rw [List.flatMap_cons, List.append_assoc]

theorem meanOf_metricValues (results : List EvaluationResult) (name : String) :
    meanOf (metricValues results name) =
      let values := applicableValues results name
      if values = [] then none else some (values.sum / values.length) := by
  have hvalues : (metricValues results name).filterMap id = applicableValues results name := by
    unfold metricValues applicableValues
    rw [List.filterMap_filterMap]
    congr 1
    funext result
    cases result.metric? name <;> rfl
  unfold meanOf
  rw [hvalues]

theorem isClean_iff (report : EvaluationReport) : report.isClean = true ↔
    ∀ result ∈ report.results, result.matchedExpectation = true := by
  unfold EvaluationReport.isClean EvaluationReport.regressions
  rw [List.isEmpty_iff, List.filter_eq_nil_iff]
  simp

theorem runDatasets_sound {name : String} {report : EvaluationReport}
    (h : self.runDatasets datasets name = .ok report) : SoundReport self datasets report := by
  unfold runDatasets at h
  obtain ⟨all, hall, hreport⟩ := Query.bind_ok.mp h
  obtain rfl := Except.ok.inj hreport
  obtain ⟨reports, hreports, hresults⟩ := collectResults_ok self hall
  refine ⟨⟨reports, hreports, hresults⟩, isClean_iff _, ?_, ?_⟩
  · intro aggregate haggregate
    obtain ⟨metric, -, rfl⟩ := List.mem_map.mp haggregate
    exact meanOf_metricValues all metric
  · intro result hresult metric hmetric
    have hname : metric.name ∈ metricNames all := by
      refine (Finset.mem_sort _).mpr (List.mem_toFinset.mpr (List.mem_flatMap.mpr ⟨result, hresult, ?_⟩))
      exact List.mem_map_of_mem hmetric
    exact ⟨_, List.mem_map_of_mem hname, rfl⟩

end Reports

end Runner

/-! ## Runs of one case -/

def asciiLower : Lower where
  apply := Text.lower
  nil := rfl
  space a b := by
    unfold Text.lower
    rw [List.map_append, List.map_cons]
    rfl

def plainRendering : Rendering where
  names := ", ".intercalate
  quoted := id
  number value := toString value
  fixed3 value := toString value

def contentChunk (id : Database.Uuid) (content : String) : Retrieval.ScoredChunk Unit :=
  { chunkId := id
    documentId := id
    collection := .documentation
    content
    score := ()
    sourceOffsetStart := 0
    sourceOffsetEnd := content.length }

def groundingRunner (chunks : List (Retrieval.ScoredChunk Unit)) : Runner Unit where
  mode := .deterministic
  search _ _ := .ok chunks
  assertions := { similarity := fun _ _ => .ok 0, search := fun _ _ => .ok false }
  lower := asciiLower
  shown := plainRendering

def groundingCase (forbiddenConcepts : List String) (citations : Option CitationExpectation) :
    EvaluationCase where
  id := "rotation"
  category := .grounding
  query := "How are keys rotated?"
  expected := { forbiddenConcepts, citations }
  stage_meaningful := by
    intro stage hstage
    cases hstage

def answeringRunner : Runner Unit :=
  { groundingRunner [contentChunk 1 "Rotate the key"] with
    generateAnswer := some fun _ _ =>
      .ok ("Rotate it", [{ documentId := 1, chunkId := 1, sourceUrl := none, excerpt := "the key" }], 1) }

theorem unanswered_returns (chunks : List (Retrieval.ScoredChunk Unit)) (forbiddenConcepts : List String)
    (citations : Option CitationExpectation) :
    ∃ result, (groundingRunner chunks).runCase (groundingCase forbiddenConcepts citations) =
      .ok result := by
  refine Runner.runGroundingCase_returns rfl rfl ?_
  intro generate hgenerate
  cases hgenerate

end Ekip.Evaluation
