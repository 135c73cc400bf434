import Ekip.Evaluation.Semantic.EvaluatorValidation

/-!
# What the labels of the ground truth rest on

A record applies to a run when it may be used for calibration and was made for what the run
has for its case. The script asks this of the first stored record of a case only, and only
for the hash: the earliest records decide the label, whatever they were made for.
-/
namespace Ekip.Evaluation.Semantic

open Ekip.Core Ekip.Lib CohensKappa

variable {digest : String × List String × String → String} {input other : GroundTruthInput}

/-! ## Resolving -/

theorem resolve_ok (case : AnswerQualityCase) {annotations : List AnnotationDecision}
    (h : annotations ≠ []) (resolution : Option ResolutionAnnotation) :
    ∃ groundTruth, resolveGroundTruth case annotations resolution = .ok groundTruth := by
  have hlength := length_sortedByTime annotations
  have hpos := List.length_pos_iff.mpr h
  unfold resolveGroundTruth
  split
  case h_1 hnil =>
    rw [hnil, List.length_nil] at hlength
    omega
  case h_2 => exact ⟨_, rfl⟩
  case h_3 first second _ _ =>
    by_cases hagree : first.observedMode = second.observedMode
    · rw [if_pos hagree]
      exact ⟨_, rfl⟩
    · rw [if_neg hagree]
      cases resolution with
      | none | some resolved => exact ⟨_, rfl⟩

/-- The outcome follows from the label. -/
theorem resolve_outcome {case : AnswerQualityCase} {annotations : List AnnotationDecision}
    {resolution : Option ResolutionAnnotation} {groundTruth : CaseGroundTruth}
    (h : resolveGroundTruth case annotations resolution = .ok groundTruth) :
    groundTruth.finalOutcome = groundTruth.finalObservedMode.bind
      (classifyOutcomeCorrectness case.expectedAnswerMode) := by
  unfold resolveGroundTruth at h
  split at h
  case h_1 => cases h
  case h_2 =>
    cases h
    rfl
  case h_3 =>
    split at h
    case isTrue =>
      cases h
      rfl
    case isFalse =>
      split at h
      case h_1 =>
        cases h
        rfl
      case h_2 =>
        cases h
        rfl

theorem resolve_agreed (case : AnswerQualityCase) {annotations : List AnnotationDecision}
    {mode : ObservedAnswerMode} (h : earliest annotations = some (mode, mode))
    (resolution : Option ResolutionAnnotation) :
    ∃ groundTruth, resolveGroundTruth case annotations resolution = .ok groundTruth ∧
      groundTruth.status = .agreedReview ∧ groundTruth.finalObservedMode = some mode := by
  unfold earliest at h
  unfold resolveGroundTruth
  split at h
  case h_2 => cases h
  case h_1 first second rest hsorted =>
    obtain ⟨hfirst, hsecond⟩ := Prod.mk.inj (Option.some.inj h)
    rw [hsorted]
    dsimp only
    rw [if_pos (hfirst.trans hsecond.symm), hfirst]
    exact ⟨_, rfl, rfl, rfl⟩

/-! ## The report of a run -/

/-- What the loop keeps of one annotated case. -/
def trustedEntry (digest : String × List String × String → String) (input : GroundTruthInput)
    (entry : String × List AnnotationDecision) : Option (String × CaseGroundTruth) := do
  let case ← input.annotatableCases entry.1
  let groundTruth ←
    (resolveGroundTruth case entry.2 (input.resolutionsByCase entry.1)).toOption
  if input.isStale digest entry then none else some (entry.1, groundTruth)

theorem trustedEntry_of {entry : String × List AnnotationDecision} {case : AnswerQualityCase}
    {groundTruth : CaseGroundTruth} (hcase : input.annotatableCases entry.1 = some case)
    (hresolve : resolveGroundTruth case entry.2 (input.resolutionsByCase entry.1) =
      .ok groundTruth) :
    trustedEntry digest input entry =
      if input.isStale digest entry then none else some (entry.1, groundTruth) := by
  unfold trustedEntry
  rw [hcase, Option.bind_eq_bind, Option.bind_some, hresolve]
  rfl

/-- The case can be annotated, and somebody did. -/
def Annotated (input : GroundTruthInput) (entry : String × List AnnotationDecision) : Prop :=
  entry.2 ≠ [] ∧ (input.annotatableCases entry.1).isSome = true

theorem relevant_of_mem {entry : String × List AnnotationDecision}
    (h : entry ∈ input.annotationsByCase) : input.isRelevant entry.1 = true := by
  obtain ⟨hne, hgroup⟩ := Firsts.mem_groupsOf h
  obtain ⟨decision, rest, hcons⟩ := List.exists_cons_of_ne_nil hne
  have hmem : decision ∈ entry.2 := by
    rw [hcons]
    exact List.mem_cons_self
  rw [hgroup, List.mem_filter, List.mem_filter] at hmem
  obtain ⟨⟨-, hrelevant⟩, hkey⟩ := hmem
  rwa [← of_decide_eq_true hkey]

theorem annotated (entry : String × List AnnotationDecision)
    (h : entry ∈ input.annotationsByCase) : Annotated input entry := by
  have hrelevant := relevant_of_mem h
  unfold GroundTruthInput.isRelevant at hrelevant
  rw [Bool.and_eq_true] at hrelevant
  exact ⟨(Firsts.mem_groupsOf h).1, hrelevant.2⟩

theorem trustCase_eq {entry : String × List AnnotationDecision} (h : Annotated input entry)
    (tally : CoverageTally) : ∃ tally', trustCase digest input tally entry = .ok tally' ∧
      tally'.groundTruthsByCase =
        tally.groundTruthsByCase ++ (trustedEntry digest input entry).toList := by
  obtain ⟨case, hcase⟩ := Option.isSome_iff_exists.mp h.2
  obtain ⟨groundTruth, hresolve⟩ :=
    resolve_ok case h.1 (input.resolutionsByCase entry.1)
  unfold trustCase
  rw [hcase, trustedEntry_of hcase hresolve]
  dsimp only
  rw [hresolve]
  dsimp only [bind, Except.bind]
  by_cases hstale : input.isStale digest entry = true
  · rw [if_pos hstale, if_pos hstale]
    exact ⟨tally, rfl, (List.append_nil _).symm⟩
  · rw [if_neg hstale, if_neg hstale]
    exact ⟨_, rfl, rfl⟩

theorem trustCases_eq (digest : String × List String × String → String)
    {entries : List (String × List AnnotationDecision)}
    (h : ∀ entry ∈ entries, Annotated input entry) (tally : CoverageTally) :
    ∃ tally', entries.foldlM (trustCase digest input) tally = .ok tally' ∧
      tally'.groundTruthsByCase =
        tally.groundTruthsByCase ++ entries.filterMap (trustedEntry digest input) := by
  induction entries generalizing tally with
  | nil => exact ⟨tally, rfl, (List.append_nil _).symm⟩
  | cons entry entries ih =>
    obtain ⟨next, hnext, hkept⟩ := trustCase_eq (h entry List.mem_cons_self) tally
    obtain ⟨tally', hrest, hkept'⟩ :=
      ih (fun e he => h e (List.mem_cons_of_mem _ he)) next
    refine ⟨tally', ?_, ?_⟩
    · rw [List.foldlM_cons, hnext]
      exact hrest
    · rw [hkept', hkept, List.append_assoc]
      congr 1
      cases htrusted : trustedEntry digest input entry <;> simp [htrusted]

theorem trustedEntry_isSome {entry : String × List AnnotationDecision}
    (h : Annotated input entry) : (trustedEntry digest input entry).isSome = true ↔
      input.isStale digest entry = false := by
  obtain ⟨case, hcase⟩ := Option.isSome_iff_exists.mp h.2
  obtain ⟨groundTruth, hresolve⟩ := resolve_ok case h.1 (input.resolutionsByCase entry.1)
  rw [trustedEntry_of hcase hresolve]
  cases input.isStale digest entry <;> simp

def rateOf (pairs : List Labels) : Option Rat :=
  if pairs.length = 0 then none else some ((agreeing pairs : Rat) / pairs.length)

theorem compute_rate {minimumSampleSize : Int} (h : 0 < minimumSampleSize)
    (casesById : String → Option AnswerQualityCase)
    (resolutionsByCase : String → Option ResolutionAnnotation)
    (annotationsByCase : List (String × List AnnotationDecision))
    (datasetVersion annotationSchemaVersion : String) :
    ∃ report, computeInterAnnotatorAgreement casesById annotationsByCase datasetVersion
        annotationSchemaVersion minimumSampleSize resolutionsByCase = .ok report ∧
      report.rawAgreementRate = rateOf (reviewPairs casesById annotationsByCase) := by
  have hpairs : (tallyOf casesById resolutionsByCase annotationsByCase).pairs =
      reviewPairs casesById annotationsByCase := rfl
  rw [compute_eq]
  dsimp only
  rw [hpairs]
  by_cases hfew : ((reviewPairs casesById annotationsByCase).length : Int) < minimumSampleSize
  · rw [if_pos hfew]
    exact ⟨_, rfl, rfl⟩
  · have hne : reviewPairs casesById annotationsByCase ≠ [] := by
      intro hnil
      rw [hnil, List.length_nil] at hfew
      exact hfew h
    rw [if_neg hfew, if_neg hne]
    exact ⟨_, rfl, rfl⟩

theorem length_filterMap_add {α β : Type} (f : α → Option β) (l : List α) :
    (l.filterMap f).length + (l.countP fun a => (f a).isNone) = l.length := by
  induction l with
  | nil => rfl
  | cons a l ih =>
    cases hf : f a with
    | none =>
      rw [List.filterMap_cons_none hf, List.countP_cons_of_pos (by simp [hf]),
        List.length_cons]
      omega
    | some b =>
      rw [List.filterMap_cons_some hf, List.countP_cons_of_neg (by simp [hf]),
        List.length_cons, List.length_cons]
      omega

theorem validate_ok {minimumSampleSize : Int} (h : 0 < minimumSampleSize)
    (resultsByCase : String → Option AnswerQualityResult)
    (groundTruthsByCase : List (String × CaseGroundTruth)) (datasetVersion : String) :
    ∃ report, validateEvaluatorAgainstGroundTruth resultsByCase groundTruthsByCase datasetVersion
        minimumSampleSize = .ok report ∧
      report.sampleSize + report.excludedCaseCount = groundTruthsByCase.length := by
  have hcount := length_filterMap_add (comparisonOf resultsByCase) groundTruthsByCase
  unfold validateEvaluatorAgainstGroundTruth
  dsimp only
  by_cases hfew : ((groundTruthsByCase.filterMap (comparisonOf resultsByCase)).length : Int) <
      minimumSampleSize
  · rw [if_pos hfew]
    exact ⟨_, rfl, hcount⟩
  · rw [if_neg hfew]
    have hne : ¬ (groundTruthsByCase.filterMap (comparisonOf resultsByCase)).length = 0 := by
      omega
    unfold quotientOf
    simp only [if_neg hne]
    exact ⟨_, rfl, hcount⟩

/-- Some case of the run can be annotated. -/
def HasRelevant (input : GroundTruthInput) : Prop :=
  ∃ case ∈ input.answerQualityCases, input.isRelevant case.id = true

theorem any_relevant :
    (input.answerQualityCases.any fun case => input.isRelevant case.id) = true ↔
      HasRelevant input := by
  unfold HasRelevant
  simp

theorem build_none (h : ¬ HasRelevant input) :
    buildHumanGroundTruthReport digest input = .ok none := by
  unfold buildHumanGroundTruthReport
  rw [if_pos (mt any_relevant.mp h)]

/-- The agreement rate of a run, and how many cases its reports count. -/
theorem build_some (digest : String × List String × String → String) (h : HasRelevant input) :
    ∃ coverage agreement validation,
    buildHumanGroundTruthReport digest input = .ok (some (coverage, agreement, validation)) ∧
      agreement.rawAgreementRate =
        rateOf (reviewPairs input.annotatableCases input.annotationsByCase) ∧
      coverage.annotatedCases = input.annotationsByCase.length ∧
      validation.sampleSize + validation.excludedCaseCount =
        (input.annotationsByCase.filterMap (trustedEntry digest input)).length := by
  obtain ⟨tally, htally, hkept⟩ := trustCases_eq digest (@annotated input) {}
  obtain ⟨agreement, hagreement, hrate⟩ := compute_rate (by decide : 0 < defaultMinimumSampleSize)
    input.annotatableCases input.resolutionsByCase input.annotationsByCase input.datasetVersion
    "annotation-v1"
  obtain ⟨validation, hvalidation, hcount⟩ := validate_ok
    (by decide : 0 < defaultMinimumSampleSize) input.resultsByCase tally.groundTruthsByCase
    input.datasetVersion
  rw [hkept] at hcount
  unfold buildHumanGroundTruthReport
  rw [if_neg (not_not.mpr (any_relevant.mpr h)), htally]
  dsimp only [bind, Except.bind]
  rw [hagreement]
  dsimp only
  rw [hvalidation]
  exact ⟨_, agreement, validation, rfl, hrate, rfl, hcount⟩

/-! ## A run rests on what the reviewers saw -/

/-- Usable for calibration, and made for what the run has for the case. -/
def isApplicable (digest : String × List String × String → String) (input : GroundTruthInput)
    (decision : AnnotationDecision) : Bool :=
  decision.usableForCalibration &&
    input.currentHash digest decision.caseId = some decision.caseSnapshotHash

/-- The same run over a store with other records. -/
def SameRun (input other : GroundTruthInput) : Prop :=
  other =
    { input with annotations := other.annotations, resolutions := other.resolutions }

/-- The validation compares this. -/
def Compared (digest : String × List String × String → String) (input : GroundTruthInput)
    (comparison : Comparison) : Prop :=
  ∃ tally, input.annotationsByCase.foldlM (trustCase digest input) {} = .ok tally ∧
    comparison ∈ tally.groundTruthsByCase.filterMap (comparisonOf input.resultsByCase)

/-- Records that apply to the run decide the label of every compared case. -/
def OnlyWhatWasSeen (digest : String × List String × String → String)
    (input : GroundTruthInput) : Prop :=
  ∀ other, SameRun input other →
    other.annotations.filter (isApplicable digest input) =
      input.annotations.filter (isApplicable digest input) →
    (other.resolutions.filter fun r => isApplicable digest input r.toAnnotationDecision) =
      (input.resolutions.filter fun r => isApplicable digest input r.toAnnotationDecision) →
    ∀ c c', Compared digest input c → Compared digest other c' → c.caseId = c'.caseId →
      c.humanMode = c'.humanMode

/-- The rates of agreement and of accuracy, and kappa. -/
def numbers (reports : AgreementReport × EvaluatorValidationReport) :
    Option Rat × Option Rat × Option Rat × Option Rat :=
  (reports.1.rawAgreementRate, reports.1.cohensKappa, reports.2.answerModeAgreementRate,
    reports.2.outcomeAgreementRate)

/-- Annotations that do not apply to the run change no agreement and no accuracy. -/
def StaleChangesNothing (digest : String × List String × String → String)
    (input : GroundTruthInput) : Prop :=
  ∀ other, SameRun input other → other.resolutions = input.resolutions →
    other.annotations.filter (isApplicable digest input) =
      input.annotations.filter (isApplicable digest input) →
    (buildHumanGroundTruthReport digest other).map (Option.map (numbers ·.2)) =
      (buildHumanGroundTruthReport digest input).map (Option.map (numbers ·.2))

/-- Every annotated case is compared or counted as excluded. -/
def AllCounted (digest : String × List String × String → String)
    (input : GroundTruthInput) : Prop :=
  ∀ coverage agreement validation,
    buildHumanGroundTruthReport digest input = .ok (some (coverage, agreement, validation)) →
      validation.sampleSize + validation.excludedCaseCount = coverage.annotatedCases

theorem annotationsByCase_nil (h : ¬ HasRelevant input) : input.annotationsByCase = [] := by
  have hnone : (input.annotations.filter fun a => input.isRelevant a.caseId) = [] := by
    refine List.filter_eq_nil_iff.mpr fun decision _ hrelevant => h ?_
    unfold GroundTruthInput.isRelevant at hrelevant
    rw [Bool.and_eq_true, List.any_eq_true] at hrelevant
    obtain ⟨⟨case, hcase, hid⟩, hannotatable⟩ := hrelevant
    refine ⟨case, hcase, ?_⟩
    unfold GroundTruthInput.isRelevant
    rw [Bool.and_eq_true, List.any_eq_true, of_decide_eq_true hid]
    exact ⟨⟨case, hcase, hid⟩, hannotatable⟩
  unfold GroundTruthInput.annotationsByCase
  rw [hnone]
  rfl

theorem allCounted_iff : AllCounted digest input ↔
    ∀ entry ∈ input.annotationsByCase, input.isStale digest entry = false := by
  by_cases hrelevant : HasRelevant input
  · obtain ⟨coverage, agreement, validation, hbuild, -, hannotated, hcount⟩ :=
      build_some digest hrelevant
    have hlength := length_filterMap_add (trustedEntry digest input) input.annotationsByCase
    constructor
    · intro h entry hentry
      have hall := h coverage agreement validation hbuild
      have hnone : (input.annotationsByCase.countP fun e => (trustedEntry digest input e).isNone) =
          0 := by omega
      have htrusted := List.countP_eq_zero.mp hnone entry hentry
      exact (trustedEntry_isSome (annotated entry hentry)).mp (by simpa [Option.isSome_iff_ne_none] using htrusted)
    · intro h coverage' agreement' validation' hbuild'
      obtain ⟨rfl, rfl, rfl⟩ : coverage = coverage' ∧ agreement = agreement' ∧
          validation = validation' := by
        simpa [hbuild] using hbuild'
      have hnone : (input.annotationsByCase.countP fun e => (trustedEntry digest input e).isNone) =
          0 := by
        refine List.countP_eq_zero.mpr fun entry hentry => ?_
        have htrusted := (trustedEntry_isSome (annotated entry hentry)).mpr (h entry hentry)
        simpa [Option.isSome_iff_ne_none] using htrusted
      omega
  · constructor
    · intro _ entry hentry
      rw [annotationsByCase_nil hrelevant] at hentry
      cases hentry
    · intro _ coverage agreement validation hbuild
      rw [build_none hrelevant] at hbuild
      cases hbuild

/-! ## Two records that nobody may use -/

def unusable (reviewerId caseId : String) (annotatedAt : Int) (observedMode : ObservedAnswerMode) :
    AnnotationDecision :=
  { caseId, datasetVersion := "", caseSnapshotHash := "", reviewerId, annotatedAt
    observedMode, usableForCalibration := false }

/-- The store with two more records of the case, at the end of the file. -/
def withEarlier (input : GroundTruthInput) (caseId : String) (time : Int)
    (first second : ObservedAnswerMode) : GroundTruthInput :=
  { input with
    annotations := input.annotations ++
      [unusable "bob" caseId (time - 1) first, unusable "carol" caseId time second] }

variable {caseId : String} {time : Int} {first second : ObservedAnswerMode}

theorem withEarlier_same : SameRun input (withEarlier input caseId time first second) := rfl

theorem withEarlier_applicable :
    (withEarlier input caseId time first second).annotations.filter (isApplicable digest input) =
      input.annotations.filter (isApplicable digest input) := by
  simp [withEarlier, unusable, isApplicable, List.filter_append]

theorem exists_before (annotations : List AnnotationDecision) :
    ∃ time : Int, ∀ a ∈ annotations, time < a.annotatedAt := by
  induction annotations with
  | nil => exact ⟨0, by simp⟩
  | cons a annotations ih =>
    obtain ⟨time, htime⟩ := ih
    refine ⟨min time (a.annotatedAt - 1), fun b hb => ?_⟩
    rcases List.mem_cons.mp hb with rfl | hb
    · omega
    · have hlater := htime b hb
      omega

/-- What is earlier than all the rest comes first. -/
theorem sorted_head {a : AnnotationDecision} {sorted rest : List AnnotationDecision}
    (hsorted : sorted.Pairwise fun a b => a.annotatedAt ≤ b.annotatedAt)
    (hperm : sorted.Perm (a :: rest)) (h : ∀ b ∈ rest, a.annotatedAt < b.annotatedAt) :
    ∃ sorted', sorted = a :: sorted' ∧ sorted'.Perm rest ∧
      sorted'.Pairwise fun a b => a.annotatedAt ≤ b.annotatedAt := by
  have hmem : a ∈ sorted := hperm.mem_iff.mpr List.mem_cons_self
  obtain ⟨x, sorted', rfl⟩ := List.exists_cons_of_ne_nil (List.ne_nil_of_mem hmem)
  have hx : x = a := by
    rcases List.mem_cons.mp (hperm.mem_iff.mp List.mem_cons_self) with hx | hx
    · exact hx
    · have hlater := h x hx
      rcases List.mem_cons.mp hmem with heq | ha
      · rw [heq] at hlater
        omega
      · have hle := List.rel_of_pairwise_cons hsorted ha
        omega
  subst hx
  exact ⟨sorted', rfl, hperm.cons_inv, hsorted.of_cons⟩

theorem earliest_append {annotations : List AnnotationDecision}
    (h : ∀ a ∈ annotations, time < a.annotatedAt) :
    earliest (annotations ++ [unusable "bob" caseId (time - 1) first, unusable "carol" caseId time second]) =
      some (first, second) := by
  have hsorted : (sortedByTime (annotations ++
      [unusable "bob" caseId (time - 1) first, unusable "carol" caseId time second])).Pairwise
      fun a b => a.annotatedAt ≤ b.annotatedAt :=
    haveI : Std.Total (fun a b : AnnotationDecision => a.annotatedAt ≤ b.annotatedAt) :=
      ⟨fun a b => le_total a.annotatedAt b.annotatedAt⟩
    haveI : IsTrans AnnotationDecision fun a b => a.annotatedAt ≤ b.annotatedAt :=
      ⟨fun _ _ _ => le_trans⟩
    List.pairwise_insertionSort _ _
  have hperm : (sortedByTime (annotations ++
      [unusable "bob" caseId (time - 1) first, unusable "carol" caseId time second])).Perm
      (unusable "bob" caseId (time - 1) first :: unusable "carol" caseId time second :: annotations) :=
    (List.perm_insertionSort _ _).trans List.perm_append_comm
  obtain ⟨sorted, hcons, hperm, hsorted⟩ := sorted_head hsorted hperm (by
    intro b hb
    rcases List.mem_cons.mp hb with rfl | hb
    · exact sub_one_lt time
    · exact (sub_one_lt time).trans (h b hb))
  obtain ⟨sorted, rfl, -, -⟩ := sorted_head hsorted hperm h
  unfold earliest
  rw [hcons]
  rfl

/-- The annotations of one case of the run. -/
def annotationsOf (input : GroundTruthInput) (caseId : String) : List AnnotationDecision :=
  (input.annotations.filter fun a => input.isRelevant a.caseId).filter (·.caseId = caseId)

theorem annotationsOf_withEarlier (h : input.isRelevant caseId = true) (key : String) :
    annotationsOf (withEarlier input caseId time first second) key =
      annotationsOf input key ++ if key = caseId then
        [unusable "bob" caseId (time - 1) first, unusable "carol" caseId time second] else [] := by
  have hsame : (withEarlier input caseId time first second).isRelevant = input.isRelevant := rfl
  unfold annotationsOf
  rw [hsame]
  unfold withEarlier
  dsimp only
  rw [List.filter_append, List.filter_append]
  congr 1
  by_cases hkey : key = caseId
  · rw [if_pos hkey, hkey]
    simp [unusable, h]
  · rw [if_neg hkey]
    simp [unusable, h, Ne.symm hkey]

theorem annotationsOf_before (h : ∀ a ∈ input.annotations, time < a.annotatedAt) (key : String) :
    ∀ a ∈ annotationsOf input key, time < a.annotatedAt :=
  fun a ha => h a (List.mem_filter.mp (List.mem_filter.mp ha).1).1

/-- The cases with an annotation, in the order of their first one. -/
def keysOf (input : GroundTruthInput) : List String :=
  firsts id [] ((input.annotations.filter fun a => input.isRelevant a.caseId).map (·.caseId))

theorem annotationsByCase_eq :
    input.annotationsByCase = (keysOf input).map fun key => (key, annotationsOf input key) :=
  Firsts.groupsOf_eq _

theorem keysOf_withEarlier (h : input.isRelevant caseId = true) :
    keysOf (withEarlier input caseId time first second) =
      firsts id [] ((input.annotations.filter fun a => input.isRelevant a.caseId).map (·.caseId) ++
        [caseId, caseId]) := by
  have hsame : (withEarlier input caseId time first second).isRelevant = input.isRelevant := rfl
  unfold keysOf
  rw [hsame]
  unfold withEarlier
  dsimp only
  rw [List.filter_append, List.map_append]
  simp [unusable, h]

/-- All pairs but that of the case stay, whatever the two records say. -/
theorem pairs_withEarlier (h : input.isRelevant caseId = true)
    (htime : ∀ a ∈ input.annotations, time < a.annotatedAt) :
    ∃ front back, ∀ first second,
      reviewPairs input.annotatableCases
          (withEarlier input caseId time first second).annotationsByCase =
        front ++ (first, second) :: back := by
  obtain ⟨keys, hkeys⟩ : ∃ keys, keys = firsts id []
      ((input.annotations.filter fun a => input.isRelevant a.caseId).map (·.caseId) ++
        [caseId, caseId]) := ⟨_, rfl⟩
  have hnodup : (keys.map id).Nodup := hkeys ▸ Firsts.nodup [] _
  have hmem : caseId ∈ keys.map id := by
    rw [hkeys]
    exact Firsts.mem_keys.mpr ⟨by simp, List.not_mem_nil⟩
  rw [List.map_id] at hnodup hmem
  obtain ⟨before, after, hsplit⟩ := List.append_of_mem hmem
  rw [hsplit, List.nodup_append, List.nodup_cons] at hnodup
  obtain ⟨-, ⟨hafter, -⟩, hbefore⟩ := hnodup
  have hbefore' : caseId ∉ before := fun hin => hbefore caseId hin caseId List.mem_cons_self rfl
  let pair (key : String) : Option Labels :=
    (input.annotatableCases key).bind fun _ => earliest (annotationsOf input key)
  refine ⟨before.filterMap pair, after.filterMap pair, fun first second => ?_⟩
  have hother (keys : List String) (hnot : caseId ∉ keys) :
      (keys.filterMap fun key => pairOf input.annotatableCases
        (key, annotationsOf (withEarlier input caseId time first second) key)) =
      keys.filterMap pair := by
    refine List.filterMap_congr fun key hkey => ?_
    have hne : key ≠ caseId := by
      rintro rfl
      exact hnot hkey
    rw [annotationsOf_withEarlier h, if_neg hne, List.append_nil]
    rfl
  have hthis : pairOf input.annotatableCases
      (caseId, annotationsOf (withEarlier input caseId time first second) caseId) =
        some (first, second) := by
    rw [annotationsOf_withEarlier h, if_pos rfl]
    unfold GroundTruthInput.isRelevant at h
    rw [Bool.and_eq_true] at h
    obtain ⟨case, hcase⟩ := Option.isSome_iff_exists.mp h.2
    unfold pairOf
    rw [hcase, Option.bind_some]
    exact earliest_append (annotationsOf_before htime caseId)
  unfold reviewPairs
  rw [annotationsByCase_eq, keysOf_withEarlier h, ← hkeys, hsplit, List.filterMap_map,
    List.filterMap_append, List.filterMap_cons]
  simp only [Function.comp_def]
  rw [hother before hbefore', hother after hafter, hthis]

theorem agreeing_between (front back : List Labels) (labels : Labels) :
    agreeing (front ++ labels :: back) =
      agreeing (front ++ back) + if labels.1 = labels.2 then 1 else 0 := by
  unfold agreeing
  rw [List.countP_append, List.countP_append, List.countP_cons]
  by_cases h : labels.1 = labels.2
  · simp only [h, decide_true, if_true]
    omega
  · simp only [h, decide_false, Bool.false_eq_true, if_false]
    omega

theorem rateOf_changes (front back : List Labels) {labels labels' : Labels}
    (h : labels.1 = labels.2) (h' : labels'.1 ≠ labels'.2) :
    rateOf (front ++ labels :: back) ≠ rateOf (front ++ labels' :: back) := by
  intro heq
  have hlength : (front ++ labels :: back).length = (front ++ labels' :: back).length := by simp
  have hpos : (front ++ labels' :: back).length ≠ 0 := by simp
  unfold rateOf at heq
  rw [hlength, if_neg hpos, if_neg hpos, agreeing_between, agreeing_between, if_pos h,
    if_neg h'] at heq
  have hpos' : ((front ++ labels' :: back).length : Rat) ≠ 0 := Nat.cast_ne_zero.mpr hpos
  rw [Option.some_inj, div_left_inj' hpos'] at heq
  have hcount : agreeing (front ++ back) + 1 = agreeing (front ++ back) + 0 := by
    exact_mod_cast heq
  omega

theorem staleChangesNothing_iff : StaleChangesNothing digest input ↔ ¬ HasRelevant input := by
  constructor
  · rintro hsame ⟨case, hcase, hrelevant⟩
    obtain ⟨time, htime⟩ := exists_before input.annotations
    obtain ⟨front, back, hpairs⟩ := pairs_withEarlier hrelevant htime
    have hnumbers (first second : ObservedAnswerMode) :=
      hsame (withEarlier input case.id time first second) withEarlier_same rfl
        withEarlier_applicable
    have hrate (first second : ObservedAnswerMode) : ∃ agreement validation,
        (buildHumanGroundTruthReport digest (withEarlier input case.id time first second)).map
            (Option.map (numbers ·.2)) = .ok (some (numbers (agreement, validation))) ∧
          agreement.rawAgreementRate = rateOf (front ++ (first, second) :: back) := by
      have hrelevant' : HasRelevant (withEarlier input case.id time first second) :=
        ⟨case, hcase, hrelevant⟩
      obtain ⟨coverage, agreement, validation, hbuild, hrate, -, -⟩ :=
        build_some digest hrelevant'
      refine ⟨agreement, validation, ?_, hrate.trans (congrArg rateOf (hpairs first second))⟩
      rw [hbuild]
      rfl
    obtain ⟨agreement, validation, hagree, hrateAgree⟩ := hrate .noAnswer .noAnswer
    obtain ⟨agreement', validation', hdiffer, hrateDiffer⟩ :=
      hrate .noAnswer .substantiveAnswer
    rw [hnumbers, ← hnumbers .noAnswer .substantiveAnswer, hdiffer] at hagree
    have hsameRate : agreement'.rawAgreementRate = agreement.rawAgreementRate :=
      congrArg Prod.fst (Option.some.inj (Except.ok.inj hagree))
    exact rateOf_changes front back rfl (by decide)
      (hrateAgree.symm.trans (hsameRate.symm.trans hrateDiffer))
  · intro h other hother _ _
    have hother' : ¬ HasRelevant other := by
      rw [hother]
      exact h
    rw [build_none h, build_none hother']

/-! ## The label of a compared case -/

theorem comparisonOf_eq_some {resultsByCase : String → Option AnswerQualityResult}
    {entry : String × CaseGroundTruth} {c : Comparison} :
    comparisonOf resultsByCase entry = some c ↔ ∃ result, resultsByCase entry.1 = some result ∧
      result.judgement = some c.evaluatorMode ∧ entry.2.status ≠ .unresolvedDisagreement ∧
      entry.2.finalObservedMode = some c.humanMode ∧
      result.outcomeCorrectness = some c.evaluatorOutcome ∧
      entry.2.finalOutcome = some c.humanOutcome ∧ c.caseId = entry.1 := by
  unfold comparisonOf
  constructor
  · intro h
    obtain ⟨result, hresult, h⟩ := Option.bind_eq_some_iff.mp h
    obtain ⟨evaluatorMode, hevaluatorMode, h⟩ := Option.bind_eq_some_iff.mp h
    obtain ⟨_, hresolved, h⟩ := Option.bind_eq_some_iff.mp h
    obtain ⟨humanMode, hhumanMode, h⟩ := Option.bind_eq_some_iff.mp h
    obtain ⟨evaluatorOutcome, hevaluatorOutcome, h⟩ := Option.bind_eq_some_iff.mp h
    obtain ⟨humanOutcome, hhumanOutcome, h⟩ := Option.bind_eq_some_iff.mp h
    cases h
    exact ⟨result, hresult, hevaluatorMode, by simpa [guard] using hresolved, hhumanMode,
      hevaluatorOutcome, hhumanOutcome, rfl⟩
  · rintro ⟨result, hresult, hevaluatorMode, hresolved, hhumanMode, hevaluatorOutcome,
      hhumanOutcome, hcase⟩
    rw [hresult, Option.bind_eq_bind, Option.bind_some, hevaluatorMode, Option.bind_eq_bind,
      Option.bind_some, hhumanMode, hevaluatorOutcome, hhumanOutcome]
    simp only [guard, hresolved, ne_eq, not_false_iff, if_true]
    rw [← hcase]
    rfl

theorem trustedEntry_eq_some {entry : String × List AnnotationDecision}
    {groundTruth : String × CaseGroundTruth} :
    trustedEntry digest input entry = some groundTruth ↔
      ∃ case, input.annotatableCases entry.1 = some case ∧
        resolveGroundTruth case entry.2 (input.resolutionsByCase entry.1) = .ok groundTruth.2 ∧
        input.isStale digest entry = false ∧ groundTruth.1 = entry.1 := by
  constructor
  · intro h
    obtain ⟨case, hcase, hrest⟩ := Option.bind_eq_some_iff.mp h
    cases hresolve : resolveGroundTruth case entry.2 (input.resolutionsByCase entry.1) with
    | error e =>
      rw [hresolve] at hrest
      cases hrest
    | ok resolved =>
      rw [trustedEntry_of hcase hresolve] at h
      split at h
      case isTrue => cases h
      case isFalse hfresh =>
        cases h
        exact ⟨case, hcase, hresolve, Bool.eq_false_iff.mpr hfresh, rfl⟩
  · rintro ⟨case, hcase, hresolve, hfresh, hid⟩
    rw [trustedEntry_of hcase hresolve, hfresh, if_neg Bool.false_ne_true, ← hid]

theorem compared_iff {c : Comparison} : Compared digest input c ↔
    ∃ entry ∈ input.annotationsByCase, ∃ groundTruth,
      trustedEntry digest input entry = some groundTruth ∧
        comparisonOf input.resultsByCase groundTruth = some c := by
  obtain ⟨tally, htally, hkept⟩ := trustCases_eq digest (@annotated input) {}
  unfold Compared
  constructor
  · rintro ⟨tally', htally', hc⟩
    obtain rfl := Except.ok.inj (htally.symm.trans htally')
    obtain ⟨groundTruth, hmem, hcompared⟩ := List.mem_filterMap.mp hc
    rw [hkept, List.nil_append] at hmem
    obtain ⟨entry, hentry, htrusted⟩ := List.mem_filterMap.mp hmem
    exact ⟨entry, hentry, groundTruth, htrusted, hcompared⟩
  · rintro ⟨entry, hentry, groundTruth, htrusted, hcompared⟩
    refine ⟨tally, htally, List.mem_filterMap.mpr ⟨groundTruth, ?_, hcompared⟩⟩
    rw [hkept, List.nil_append]
    exact List.mem_filterMap.mpr ⟨entry, hentry, htrusted⟩

theorem entry_eq {entry : String × List AnnotationDecision}
    (h : entry ∈ input.annotationsByCase) : entry.2 = annotationsOf input entry.1 :=
  (Firsts.mem_groupsOf h).2

theorem entry_withEarlier (h : input.isRelevant caseId = true) :
    (caseId, annotationsOf (withEarlier input caseId time first second) caseId) ∈
      (withEarlier input caseId time first second).annotationsByCase := by
  refine Firsts.groupsOf_mem (a := unusable "carol" caseId time second) (List.mem_filter.mpr ⟨?_, h⟩)
  unfold withEarlier
  simp

/-- Whatever is compared can be given another label by two records that nobody may use. -/
theorem compared_changes {c : Comparison} (h : Compared digest input c)
    (mode : ObservedAnswerMode) (htime : ∀ a ∈ input.annotations, time < a.annotatedAt) :
    ∃ c', Compared digest (withEarlier input c.caseId time mode mode) c' ∧
      c'.caseId = c.caseId ∧ c'.humanMode = mode := by
  obtain ⟨entry, hentry, groundTruth, htrusted, hcompared⟩ := compared_iff.mp h
  obtain ⟨result, hresult, hjudged, -, hmode, hevaluated, houtcome, hid⟩ :=
    comparisonOf_eq_some.mp hcompared
  obtain ⟨case, hcase, hresolve, hfresh, hid'⟩ := trustedEntry_eq_some.mp htrusted
  have hkey : c.caseId = entry.1 := hid.trans hid'
  have hrelevant := relevant_of_mem hentry
  rw [hid'] at hresult
  rw [← hkey] at hcase hresult hrelevant
  have hlabelled : case.expectedAnswerMode ≠ .unlabeled := by
    rw [resolve_outcome hresolve, hmode, Option.bind_some] at houtcome
    exact classify_isSome.mp (Option.isSome_iff_exists.mpr ⟨_, houtcome⟩)
  have hpair : earliest (annotationsOf (withEarlier input c.caseId time mode mode) c.caseId) =
      some (mode, mode) := by
    rw [annotationsOf_withEarlier hrelevant, if_pos rfl]
    exact earliest_append (annotationsOf_before htime c.caseId)
  obtain ⟨resolved, hresolved, hstatus, hfinal⟩ := resolve_agreed case hpair
    ((withEarlier input c.caseId time mode mode).resolutionsByCase c.caseId)
  have hfresh' : (withEarlier input c.caseId time mode mode).isStale digest
      (c.caseId, annotationsOf (withEarlier input c.caseId time mode mode) c.caseId) = false := by
    have hne := (Firsts.mem_groupsOf hentry).1
    obtain ⟨decision, rest, hcons⟩ := List.exists_cons_of_ne_nil hne
    have hhead : (annotationsOf (withEarlier input c.caseId time mode mode) c.caseId).head? =
        entry.2.head? := by
      rw [annotationsOf_withEarlier hrelevant, hkey, ← entry_eq hentry, hcons]
      rfl
    unfold GroundTruthInput.isStale at hfresh ⊢
    rw [hhead, hkey]
    exact hfresh
  obtain ⟨outcome, houtcome'⟩ : ∃ outcome, resolved.finalOutcome = some outcome := by
    rw [resolve_outcome hresolved, hfinal, Option.bind_some]
    exact Option.isSome_iff_exists.mp (classify_isSome.mpr hlabelled)
  refine ⟨{ caseId := c.caseId, humanMode := mode, evaluatorMode := c.evaluatorMode
            humanOutcome := outcome, evaluatorOutcome := c.evaluatorOutcome }, ?_, rfl, rfl⟩
  refine compared_iff.mpr ⟨_, entry_withEarlier hrelevant, (c.caseId, resolved), ?_, ?_⟩
  · exact trustedEntry_eq_some.mpr ⟨case, hcase, hresolved, hfresh', rfl⟩
  · exact comparisonOf_eq_some.mpr ⟨result, hresult, hjudged, by rw [hstatus]; decide, hfinal,
      hevaluated, houtcome', rfl⟩

theorem onlyWhatWasSeen_iff :
    OnlyWhatWasSeen digest input ↔ ∀ c, ¬ Compared digest input c := by
  constructor
  · intro honly c hc
    obtain ⟨time, htime⟩ := exists_before input.annotations
    obtain ⟨mode, hmode⟩ : ∃ mode, mode ≠ c.humanMode := by
      cases c.humanMode
      · exact ⟨.noAnswer, by decide⟩
      · exact ⟨.noAnswer, by decide⟩
      · exact ⟨.qualifiedAnswer, by decide⟩
    obtain ⟨c', hc', hid, hlabel⟩ := compared_changes hc mode htime
    have hsame := honly _ withEarlier_same withEarlier_applicable rfl c c' hc hc' hid.symm
    exact hmode (hlabel.symm.trans hsame.symm)
  · intro hnone other _ _ _ c c' hc
    exact absurd hc (hnone c)

/-- The law holds of a run exactly when no case of it can be annotated. -/
theorem ground_truth_rests_on_what_was_seen
    (digest : String × List String × String → String) (input : GroundTruthInput) :
    ((OnlyWhatWasSeen digest input ∧ StaleChangesNothing digest input ∧ AllCounted digest input) ↔
        ∀ case ∈ input.answerQualityCases, input.isRelevant case.id = false) ∧
      (OnlyWhatWasSeen digest input ↔ ∀ c, ¬ Compared digest input c) ∧
      (AllCounted digest input ↔
        ∀ entry ∈ input.annotationsByCase, input.isStale digest entry = false) := by
  refine ⟨?_, onlyWhatWasSeen_iff, allCounted_iff⟩
  have hrelevant : (∀ case ∈ input.answerQualityCases, input.isRelevant case.id = false) ↔
      ¬ HasRelevant input := by
    unfold HasRelevant
    simp
  rw [hrelevant]
  constructor
  · rintro ⟨-, hsame, -⟩
    exact staleChangesNothing_iff.mp hsame
  · intro hnone
    refine ⟨onlyWhatWasSeen_iff.mpr fun c hc => ?_, staleChangesNothing_iff.mpr hnone,
      allCounted_iff.mpr fun entry hentry => ?_⟩
    · obtain ⟨entry, hentry, -⟩ := compared_iff.mp hc
      rw [annotationsByCase_nil hnone] at hentry
      cases hentry
    · rw [annotationsByCase_nil hnone] at hentry
      cases hentry

/-- One case, refused by the run and by a reviewer who saw that refusal. -/
def refused : GroundTruthInput :=
  { annotatable := [someCase]
    answerQualityCases := [someCase]
    answerQualityResults :=
      [{ caseId := "case-1", generatedAnswer := "none", judgement := some .noAnswer
         outcomeCorrectness := some .incorrectRefusal }]
    datasetVersion := "v1"
    annotations :=
      [{ caseId := "case-1", datasetVersion := "v1", caseSnapshotHash := "none"
         reviewerId := "alice", annotatedAt := 2, observedMode := .noAnswer }]
    resolutions := [] }

/-- Two earlier records of no use give the refused case the label of an answer. -/
theorem earlier_records_decide :
    ¬ (OnlyWhatWasSeen (fun seen => seen.2.2) refused ∧
      StaleChangesNothing (fun seen => seen.2.2) refused ∧
      AllCounted (fun seen => seen.2.2) refused) := by
  rintro ⟨honly, -, -⟩
  have hcompared : Compared (fun seen => seen.2.2) refused
      { caseId := "case-1", humanMode := .noAnswer, evaluatorMode := .noAnswer
        humanOutcome := .incorrectRefusal, evaluatorOutcome := .incorrectRefusal } :=
    ⟨_, rfl, by decide⟩
  have hbefore : ∀ a ∈ refused.annotations, 1 < a.annotatedAt := by decide
  obtain ⟨c', hc', hid, hlabel⟩ := compared_changes hcompared .substantiveAnswer hbefore
  have hsame := honly _ withEarlier_same withEarlier_applicable rfl _ c' hcompared hc' hid.symm
  rw [hlabel] at hsame
  cases hsame

end Ekip.Evaluation.Semantic
