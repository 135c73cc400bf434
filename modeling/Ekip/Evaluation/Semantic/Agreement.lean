import Ekip.Evaluation.Semantic.GroundTruth
import Ekip.Lib.Query

/-!
# What the agreement of the annotators measures

The two columns of the table are the earlier and the later annotation of each case, whoever
made them: the statistic is that of the two reviewers only as far as turning pairs round
leaves the chance agreement alone.
-/
namespace Ekip.Evaluation.Semantic

open Ekip.Lib CohensKappa

variable {casesById : String → Option AnswerQualityCase}
  {resolutionsByCase : String → Option ResolutionAnnotation}

/-! ## The statistic -/

theorem sum_filter_of_zero {α : Type} {p : α → Bool} {f : α → Rat} {l : List α}
    (h : ∀ a ∈ l, p a = false → f a = 0) : ((l.filter p).map f).sum = (l.map f).sum := by
  induction l with
  | nil => rfl
  | cons a l ih =>
    have hrest := ih fun b hb => h b (List.mem_cons_of_mem _ hb)
    by_cases ha : p a = true
    · rw [List.filter_cons_of_pos ha, List.map_cons, List.map_cons, List.sum_cons,
        List.sum_cons, hrest]
    · have hzero := h a List.mem_cons_self (by simpa using ha)
      rw [List.filter_cons_of_neg ha, List.map_cons, List.sum_cons, hrest, hzero, zero_add]

/-- Labels that do not occur count for nothing. -/
theorem expectedAgreement_eq (pairs : List Labels) : expectedAgreement pairs = chance pairs := by
  have hzero : ∀ label ∈ [ObservedAnswerMode.noAnswer, .qualifiedAnswer, .substantiveAnswer],
      (pairs.any fun pair => pair.1 = label || pair.2 = label) = false →
        (rows pairs label : Rat) / pairs.length * (cols pairs label / pairs.length) = 0 := by
    intro label _ hnone
    have hrows : rows pairs label = 0 := by
      unfold rows
      rw [List.countP_eq_zero]
      intro pair hpair
      have hpair' := List.any_eq_false.mp hnone pair hpair
      simp only [Bool.or_eq_true, not_or] at hpair'
      simpa using hpair'.1
    rw [hrows]
    simp
  unfold expectedAgreement labelsOf chance products
  rw [sum_filter_of_zero hzero]
  have huniv : (Finset.univ : Finset ObservedAnswerMode) =
      {.substantiveAnswer, .qualifiedAnswer, .noAnswer} := rfl
  rw [huniv]
  simp only [List.map_cons, List.map_nil, List.sum_cons, List.sum_nil]
  rw [Finset.sum_insert (by decide), Finset.sum_insert (by decide), Finset.sum_singleton]
  push_cast
  ring

theorem isclose_one {p : Rat} (hnonneg : 0 ≤ p) (hle : p ≤ 1) :
    isclose p 1 = true ↔ 1 - p ≤ 1 / 10 ^ 9 := by
  have hmax : max |p| |(1 : Rat)| = 1 := by
    rw [abs_of_nonneg hnonneg, abs_one, max_eq_right hle]
  have habs : |p - 1| = 1 - p := by
    rw [abs_sub_comm, abs_of_nonneg (by linarith)]
  unfold isclose
  rw [decide_eq_true_iff, hmax, habs, mul_one]

/-- Chance agreement that is as good as certain, without being certain. -/
def NearlyCertain (pairs : List Labels) : Prop :=
  chance pairs ≠ 1 ∧ 1 - chance pairs ≤ 1 / 10 ^ 9

theorem cohensKappa_eq (pairs : List Labels) :
    cohensKappa pairs =
      if pairs = [] ∨ isclose (chance pairs) 1 = true then none
      else some ((observed pairs - chance pairs) / (1 - chance pairs)) := by
  unfold cohensKappa
  rw [expectedAgreement_eq]
  by_cases hnil : pairs = []
  · rw [if_pos (by simp [hnil]), if_pos (.inl hnil)]
  · rw [if_neg (by simpa using hnil)]
    dsimp only
    by_cases hclose : isclose (chance pairs) 1 = true
    · rw [if_pos hclose, if_pos (.inr hclose)]
    · rw [if_neg hclose, if_neg (by simp [hnil, hclose])]
      rfl

/-- Unless chance agreement is nearly certain, it is Cohen's kappa. -/
theorem cohensKappa_eq_kappa {pairs : List Labels} (h : ¬ NearlyCertain pairs) :
    cohensKappa pairs = kappa pairs := by
  rw [cohensKappa_eq]
  unfold kappa
  by_cases hnil : pairs = []
  · rw [if_pos (.inl hnil), if_pos (.inl hnil)]
  · have hclose : isclose (chance pairs) 1 = true ↔ chance pairs = 1 := by
      rw [isclose_one (chance_nonneg pairs) (chance_le_one hnil)]
      constructor
      · intro hnear
        by_contra hne
        exact h ⟨hne, hnear⟩
      · intro hone
        rw [hone]
        norm_num
    simp only [hclose]

theorem kappa_eq_of_chance {pairs pairs' : List Labels} (hlength : pairs'.length = pairs.length)
    (hagreeing : agreeing pairs' = agreeing pairs) (hproducts : products pairs' = products pairs) :
    cohensKappa pairs' = cohensKappa pairs := by
  have hnil : pairs' = [] ↔ pairs = [] := by
    rw [← List.length_eq_zero_iff, ← List.length_eq_zero_iff, hlength]
  rw [cohensKappa_eq, cohensKappa_eq]
  unfold chance observed
  simp only [hlength, hagreeing, hproducts, hnil]

/-- Where not all labels agree, kappa tells the chance agreement. -/
theorem chance_of_kappa {pairs pairs' : List Labels} {k : Rat}
    (hobserved : observed pairs' = observed pairs) (hdisagree : observed pairs ≠ 1)
    (hk : cohensKappa pairs' = some k) (hk' : kappa pairs = some k) :
    chance pairs' = chance pairs := by
  rw [cohensKappa_eq] at hk
  unfold kappa at hk'
  split at hk
  case isTrue => cases hk
  case isFalse hclose =>
    split at hk'
    case isTrue => cases hk'
    case isFalse hcertain =>
      rw [not_or] at hclose hcertain
      have hne' : chance pairs' ≠ 1 := by
        intro hone
        refine hclose.2 ?_
        rw [hone]
        unfold isclose
        norm_num
      have hpos : 1 - chance pairs ≠ 0 := sub_ne_zero.mpr (Ne.symm hcertain.2)
      have hpos' : 1 - chance pairs' ≠ 0 := sub_ne_zero.mpr (Ne.symm hne')
      have heq := (Option.some.inj hk).trans (Option.some.inj hk').symm
      rw [hobserved, div_eq_div_iff hpos' hpos] at heq
      have hproduct : (chance pairs - chance pairs') * (1 - observed pairs) = 0 := by linarith
      rcases mul_eq_zero.mp hproduct with hzero | hzero
      · linarith
      · exact absurd (by linarith) hdisagree

/-! ## The table -/

/-- The labels of the two earliest annotations. -/
def earliest (annotations : List AnnotationDecision) : Option Labels :=
  match sortedByTime annotations with
  | first :: second :: _ => some (first.observedMode, second.observedMode)
  | _ => none

/-- The pair that a case contributes, if it is known. -/
def pairOf (casesById : String → Option AnswerQualityCase)
    (entry : String × List AnnotationDecision) : Option Labels :=
  (casesById entry.1).bind fun _ => earliest entry.2

def reviewPairs (casesById : String → Option AnswerQualityCase)
    (annotationsByCase : List (String × List AnnotationDecision)) : List Labels :=
  annotationsByCase.filterMap (pairOf casesById)

/-- A disagreement of the pair that nothing resolves. -/
def isUnresolved (casesById : String → Option AnswerQualityCase)
    (resolutionsByCase : String → Option ResolutionAnnotation)
    (entry : String × List AnnotationDecision) : Bool :=
  match pairOf casesById entry with
  | some labels => labels.1 ≠ labels.2 ∧ (resolutionsByCase entry.1).isNone
  | none => false

def tallyOf (casesById : String → Option AnswerQualityCase)
    (resolutionsByCase : String → Option ResolutionAnnotation)
    (annotationsByCase : List (String × List AnnotationDecision)) : Tally :=
  { pairs := reviewPairs casesById annotationsByCase
    agreed := agreeing (reviewPairs casesById annotationsByCase)
    disagreed := (disagreeing (reviewPairs casesById annotationsByCase)).length
    unresolved := annotationsByCase.countP (isUnresolved casesById resolutionsByCase) }

theorem length_sortedByTime (annotations : List AnnotationDecision) :
    (sortedByTime annotations).length = annotations.length :=
  List.length_insertionSort _ _

theorem tallyCase_none {tally : Tally} {entry : String × List AnnotationDecision}
    (h : pairOf casesById entry = none) :
    tallyCase casesById resolutionsByCase tally entry = .ok tally := by
  unfold tallyCase
  by_cases hfew : entry.2.length < 2
  · rw [if_pos hfew]
  · rw [if_neg hfew]
    cases hcase : casesById entry.1 with
    | none => rfl
    | some case =>
      exfalso
      unfold pairOf earliest at h
      rw [hcase, Option.bind_some] at h
      have hlength := length_sortedByTime entry.2
      split at h
      case h_1 => cases h
      case h_2 hshort =>
        match hsorted : sortedByTime entry.2 with
        | [] =>
          rw [hsorted, List.length_nil] at hlength
          omega
        | [only] =>
          rw [hsorted, List.length_singleton] at hlength
          omega
        | first :: second :: rest => exact hshort first second rest hsorted

theorem tallyCase_some {tally : Tally} {entry : String × List AnnotationDecision} {labels : Labels}
    (h : pairOf casesById entry = some labels) :
    tallyCase casesById resolutionsByCase tally entry = .ok
      { pairs := tally.pairs ++ [labels]
        agreed := tally.agreed + if labels.1 = labels.2 then 1 else 0
        disagreed := tally.disagreed + if labels.1 = labels.2 then 0 else 1
        unresolved := tally.unresolved +
          if isUnresolved casesById resolutionsByCase entry = true then 1 else 0 } := by
  have hunresolved : isUnresolved casesById resolutionsByCase entry = true ↔
      labels.1 ≠ labels.2 ∧ (resolutionsByCase entry.1).isNone = true := by
    unfold isUnresolved
    rw [h]
    simp
  obtain ⟨case, hcase, hearliest⟩ := Option.bind_eq_some_iff.mp h
  unfold earliest at hearliest
  split at hearliest
  case h_2 => cases hearliest
  case h_1 first second rest hsorted =>
    obtain rfl := Option.some.inj hearliest
    have hlength := length_sortedByTime entry.2
    rw [hsorted, List.length_cons, List.length_cons] at hlength
    have htake : (first :: second :: rest).take 2 = [first, second] := rfl
    unfold tallyCase resolveGroundTruth
    rw [if_neg (by omega), hcase, hsorted]
    dsimp only
    by_cases hagree : first.observedMode = second.observedMode
    · have hnot : ¬ isUnresolved casesById resolutionsByCase entry = true :=
        fun hu => (hunresolved.mp hu).1 hagree
      rw [if_pos hagree, if_pos hagree, if_pos hagree, if_neg hnot]
      rfl
    · rw [if_neg hagree, if_neg hagree, if_neg hagree]
      cases hresolution : resolutionsByCase entry.1 with
      | none =>
        rw [if_pos (hunresolved.mpr ⟨hagree, by rw [hresolution]; rfl⟩)]
        rfl
      | some resolution =>
        have hnot : ¬ isUnresolved casesById resolutionsByCase entry = true := by
          intro hu
          have hisNone := (hunresolved.mp hu).2
          rw [hresolution] at hisNone
          cases hisNone
        rw [if_neg hnot]
        rfl

theorem foldlM_tallyCase (annotationsByCase : List (String × List AnnotationDecision))
    (tally : Tally) :
    annotationsByCase.foldlM (tallyCase casesById resolutionsByCase) tally = .ok
      { pairs := tally.pairs ++ (tallyOf casesById resolutionsByCase annotationsByCase).pairs
        agreed := tally.agreed + (tallyOf casesById resolutionsByCase annotationsByCase).agreed
        disagreed :=
          tally.disagreed + (tallyOf casesById resolutionsByCase annotationsByCase).disagreed
        unresolved :=
          tally.unresolved + (tallyOf casesById resolutionsByCase annotationsByCase).unresolved } := by
  induction annotationsByCase generalizing tally with
  | nil =>
    show Except.ok tally = _
    simp [tallyOf, reviewPairs, agreeing, disagreeing]
  | cons entry rest ih =>
    rw [List.foldlM_cons]
    cases hpair : pairOf casesById entry with
    | none =>
      have hpairs : reviewPairs casesById (entry :: rest) = reviewPairs casesById rest := by
        simp [reviewPairs, hpair]
      have hcount : (entry :: rest).countP (isUnresolved casesById resolutionsByCase) =
          rest.countP (isUnresolved casesById resolutionsByCase) := by
        refine List.countP_cons_of_neg ?_
        unfold isUnresolved
        rw [hpair]
        exact Bool.false_ne_true
      rw [tallyCase_none hpair]
      refine (ih tally).trans ?_
      simp only [tallyOf, hpairs, hcount]
    | some labels =>
      have hpairs : reviewPairs casesById (entry :: rest) =
          labels :: reviewPairs casesById rest := by
        simp [reviewPairs, hpair]
      rw [tallyCase_some hpair]
      refine (ih _).trans ?_
      have hdisagreeing : (disagreeing (labels :: reviewPairs casesById rest)).length =
          (if labels.1 = labels.2 then 0 else 1) +
            (disagreeing (reviewPairs casesById rest)).length := by
        by_cases hagree : labels.1 = labels.2
        · rw [if_pos hagree]
          simp [disagreeing, hagree]
        · rw [if_neg hagree]
          simp [disagreeing, hagree]
          omega
      simp only [tallyOf, hpairs, agreeing_cons, hdisagreeing, List.countP_cons,
        List.append_assoc, List.singleton_append, Except.ok.injEq, Tally.mk.injEq, true_and]
      omega

theorem agreeing_add_disagreeing (pairs : List Labels) :
    agreeing pairs + (disagreeing pairs).length = pairs.length := by
  unfold agreeing disagreeing
  rw [← List.countP_eq_length_filter]
  have hsplit := List.length_eq_countP_add_countP (fun pair : Labels => decide (pair.1 = pair.2))
    (l := pairs)
  rw [hsplit]
  congr 1
  exact List.countP_congr fun pair _ => by simp

/-- The report, without its kappa. -/
def agreementReport (tally : Tally) (reviewedCaseCount : Nat)
    (datasetVersion annotationSchemaVersion : String) (minimumSampleSize : Int)
    (kappa : Option Rat) (status : ReportStatus) : AgreementReport :=
  { datasetVersion
    annotationSchemaVersion
    reviewedCaseCount
    doubleReviewedCaseCount := tally.pairs.length
    agreedCaseCount := tally.agreed
    disagreedCaseCount := tally.disagreed
    unresolvedDisagreementCount := tally.unresolved
    rawAgreementRate :=
      if tally.pairs.length = 0 then none else some (tally.agreed / tally.pairs.length)
    cohensKappa := kappa
    minimumSampleSize
    status }

variable {annotationsByCase : List (String × List AnnotationDecision)}
  {datasetVersion annotationSchemaVersion : String} {minimumSampleSize : Int}

/-- What is reported, in terms of the pairs. -/
theorem compute_eq : computeInterAnnotatorAgreement casesById annotationsByCase datasetVersion
      annotationSchemaVersion minimumSampleSize resolutionsByCase =
    let tally := tallyOf casesById resolutionsByCase annotationsByCase
    let report := agreementReport tally (annotationsByCase.countP fun entry => entry.2 ≠ [])
      datasetVersion annotationSchemaVersion minimumSampleSize
    if (tally.pairs.length : Int) < minimumSampleSize then .ok (report none .insufficientData)
    else if tally.pairs = [] then
      .error (.typeError "unsupported format string passed to NoneType.__format__")
    else .ok (report (cohensKappa tally.pairs) .computed) := by
  have hfold := @foldlM_tallyCase casesById resolutionsByCase annotationsByCase {}
  have hstart : (tallyOf casesById resolutionsByCase annotationsByCase) =
      { pairs := [] ++ (tallyOf casesById resolutionsByCase annotationsByCase).pairs
        agreed := 0 + (tallyOf casesById resolutionsByCase annotationsByCase).agreed
        disagreed := 0 + (tallyOf casesById resolutionsByCase annotationsByCase).disagreed
        unresolved := 0 + (tallyOf casesById resolutionsByCase annotationsByCase).unresolved } := by
    simp
  unfold computeInterAnnotatorAgreement
  rw [hfold, ← hstart]
  generalize tallyOf casesById resolutionsByCase annotationsByCase = tally
  dsimp only
  show (if (tally.pairs.length : Int) < minimumSampleSize then _ else _) = _
  by_cases hfew : (tally.pairs.length : Int) < minimumSampleSize
  · rw [if_pos hfew, if_pos hfew]
    rfl
  · rw [if_neg hfew, if_neg hfew]
    by_cases hnil : tally.pairs = []
    · rw [if_pos hnil]
      simp only [hnil, List.length_nil, if_true]
      rfl
    · rw [if_neg hnil]
      have hlength : ¬ tally.pairs.length = 0 := by simpa using hnil
      simp only [hlength, if_false]
      unfold agreementReport
      simp only [hlength, if_false]
      rfl

/-! ## Two reviewers -/

/-- What the two reviewers said of one case. -/
structure Reviewed where
  caseId : String
  first : ObservedAnswerMode
  second : ObservedAnswerMode

def Reviewed.labels (reviewed : Reviewed) : Labels := (reviewed.first, reviewed.second)

/-- The annotations of the case are these two, in any order and at any two times. -/
def AnnotatedBy (reviewers : String × String) (reviewed : Reviewed)
    (entry : String × List AnnotationDecision) : Prop :=
  entry.1 = reviewed.caseId ∧ ∃ a b : AnnotationDecision, entry.2.Perm [a, b] ∧
    a.reviewerId = reviewers.1 ∧ b.reviewerId = reviewers.2 ∧
    a.observedMode = reviewed.first ∧ b.observedMode = reviewed.second ∧
    a.annotatedAt ≠ b.annotatedAt

def Recorded (reviewers : String × String) (reviewed : List Reviewed)
    (annotationsByCase : List (String × List AnnotationDecision)) : Prop :=
  List.Forall₂ (AnnotatedBy reviewers) reviewed annotationsByCase

variable {reviewers : String × String} {reviewed : List Reviewed}

theorem eq_of_perm_pair {α : Type} {a b : α} {l : List α} (h : l.Perm [a, b]) :
    l = [a, b] ∨ l = [b, a] := by
  obtain ⟨x, y, rfl⟩ := List.length_eq_two.mp h.length_eq
  have hx : x = a ∨ x = b := by simpa using h.subset List.mem_cons_self
  rcases hx with rfl | rfl
  · left
    rw [List.perm_singleton.mp ((List.perm_cons x).mp h)]
  · right
    have hswap := h.trans (List.Perm.swap x a [])
    rw [List.perm_singleton.mp ((List.perm_cons x).mp hswap)]

theorem sortedByTime_pair {a b : AnnotationDecision} (h : a.annotatedAt < b.annotatedAt)
    {annotations : List AnnotationDecision} (hperm : annotations.Perm [a, b]) :
    sortedByTime annotations = [a, b] := by
  have hsorted : sortedByTime [a, b] = [a, b] := by
    unfold sortedByTime
    simp [List.insertionSort, h.le]
  have hother : sortedByTime [b, a] = [a, b] := by
    unfold sortedByTime
    simp [List.insertionSort, List.orderedInsert, not_le.mpr h]
  rcases eq_of_perm_pair hperm with rfl | rfl
  · exact hsorted
  · exact hother

/-- The pair is that of the reviewers, or turned round. -/
theorem pairOf_annotated {reviewed : Reviewed} {entry : String × List AnnotationDecision}
    (h : AnnotatedBy reviewers reviewed entry) (hknown : (casesById reviewed.caseId).isSome = true) :
    ∃ labels, pairOf casesById entry = some labels ∧
      (labels = reviewed.labels ∨ labels = reviewed.labels.swap) := by
  obtain ⟨hid, a, b, hperm, -, -, hfirst, hsecond, htimes⟩ := h
  obtain ⟨case, hcase⟩ := Option.isSome_iff_exists.mp hknown
  unfold pairOf earliest
  rw [hid, hcase, Option.bind_some]
  rcases lt_or_gt_of_ne htimes with hlt | hgt
  · rw [sortedByTime_pair hlt hperm]
    exact ⟨_, rfl, .inl (by rw [hfirst, hsecond]; rfl)⟩
  · rw [sortedByTime_pair hgt (hperm.trans (List.Perm.swap b a []))]
    exact ⟨_, rfl, .inr (by rw [hfirst, hsecond]; rfl)⟩

theorem reviewPairs_recorded (h : Recorded reviewers reviewed annotationsByCase)
    (hknown : ∀ r ∈ reviewed, (casesById r.caseId).isSome = true) :
    Reordered (reviewed.map Reviewed.labels) (reviewPairs casesById annotationsByCase) := by
  induction h with
  | nil => exact .nil
  | @cons r entry reviewed entries hentry _ ih =>
    obtain ⟨labels, hlabels, hturned⟩ := pairOf_annotated hentry (hknown r List.mem_cons_self)
    have hpairs : reviewPairs casesById (entry :: entries) =
        labels :: reviewPairs casesById entries := by
      simp [reviewPairs, hlabels]
    rw [hpairs]
    exact .cons hturned (ih fun other hother => hknown other (List.mem_cons_of_mem _ hother))

/-- A disagreement of the reviewers that nothing resolves. -/
def unresolvedOf (resolutionsByCase : String → Option ResolutionAnnotation)
    (reviewed : Reviewed) : Bool :=
  reviewed.first ≠ reviewed.second ∧ (resolutionsByCase reviewed.caseId).isNone

theorem unresolved_recorded (h : Recorded reviewers reviewed annotationsByCase)
    (hknown : ∀ r ∈ reviewed, (casesById r.caseId).isSome = true) :
    annotationsByCase.countP (isUnresolved casesById resolutionsByCase) =
      reviewed.countP (unresolvedOf resolutionsByCase) := by
  induction h with
  | nil => rfl
  | @cons r entry reviewed entries hentry _ ih =>
    obtain ⟨labels, hlabels, hturned⟩ := pairOf_annotated hentry (hknown r List.mem_cons_self)
    have hsame : isUnresolved casesById resolutionsByCase entry =
        unresolvedOf resolutionsByCase r := by
      unfold isUnresolved unresolvedOf
      rw [hlabels, hentry.1]
      rcases hturned with rfl | rfl
      · rfl
      · simp only [Reviewed.labels, Prod.swap_prod_mk, ne_comm]
    rw [List.countP_cons, List.countP_cons, hsame,
      ih fun other hother => hknown other (List.mem_cons_of_mem _ hother)]

theorem reviewed_recorded (h : Recorded reviewers reviewed annotationsByCase) :
    (annotationsByCase.countP fun entry => entry.2 ≠ []) = reviewed.length := by
  induction h with
  | nil => rfl
  | @cons r entry reviewed entries hentry _ ih =>
    obtain ⟨-, a, b, hperm, -⟩ := hentry
    have hne : entry.2 ≠ [] := by
      intro hnil
      have hlength := hperm.length_eq
      rw [hnil] at hlength
      simp at hlength
    rw [List.countP_cons_of_pos (by simpa using hne), ih, List.length_cons]

/-! ## A report measures the reviewers -/

/-- The report measures what the reviewers said. -/
structure Measures (resolutionsByCase : String → Option ResolutionAnnotation)
    (minimumSampleSize : Int) (reviewed : List Reviewed) (report : AgreementReport) : Prop where
  double : report.doubleReviewedCaseCount = reviewed.length
  agreed : report.agreedCaseCount = reviewed.countP fun r => r.first = r.second
  total : report.agreedCaseCount + report.disagreedCaseCount = report.doubleReviewedCaseCount
  unresolved : report.unresolvedDisagreementCount =
    reviewed.countP (unresolvedOf resolutionsByCase)
  rate : report.rawAgreementRate = if reviewed.length = 0 then none
    else some ((report.agreedCaseCount : Rat) / report.doubleReviewedCaseCount)
  kappa : minimumSampleSize ≤ reviewed.length →
    report.cohensKappa = CohensKappa.kappa (reviewed.map Reviewed.labels)
  range : ∀ k, report.cohensKappa = some k →
    -1 ≤ k ∧ k ≤ 1 ∧ (k = 1 → ∀ r ∈ reviewed, r.first = r.second)

/-- One report, at whatever times the reviewers annotated. -/
def MeasuresReviewers (casesById : String → Option AnswerQualityCase)
    (resolutionsByCase : String → Option ResolutionAnnotation)
    (datasetVersion annotationSchemaVersion : String) (minimumSampleSize : Int)
    (reviewers : String × String) (reviewed : List Reviewed) : Prop :=
  ∃ report, Measures resolutionsByCase minimumSampleSize reviewed report ∧
    ∀ annotationsByCase, Recorded reviewers reviewed annotationsByCase →
      computeInterAnnotatorAgreement casesById annotationsByCase datasetVersion
        annotationSchemaVersion minimumSampleSize resolutionsByCase = .ok report

/-- When the statistic is that of the reviewers. -/
def Measurable (minimumSampleSize : Int) (reviewed : List Reviewed) : Prop :=
  (0 < minimumSampleSize ∨ reviewed ≠ []) ∧
    (minimumSampleSize ≤ reviewed.length →
      ¬ NearlyCertain (reviewed.map Reviewed.labels) ∧
        (reviewed.countP fun r => r.first ≠ r.second) ≤ 1)

theorem agreeing_labels (reviewed : List Reviewed) :
    agreeing (reviewed.map Reviewed.labels) = reviewed.countP fun r => r.first = r.second := by
  unfold agreeing
  rw [List.countP_map]
  rfl

theorem disagreeing_labels (reviewed : List Reviewed) :
    (disagreeing (reviewed.map Reviewed.labels)).length =
      reviewed.countP fun r => r.first ≠ r.second := by
  unfold disagreeing
  rw [← List.countP_eq_length_filter, List.countP_map]
  rfl

theorem labels_ne_nil : reviewed.map Reviewed.labels = [] ↔ reviewed = [] := List.map_eq_nil_iff

/-- The numbers of a report on recorded reviews, and its kappa where there is one. -/
theorem compute_recorded (h : Recorded reviewers reviewed annotationsByCase)
    (hknown : ∀ r ∈ reviewed, (casesById r.caseId).isSome = true) :
    let report := agreementReport
      { pairs := reviewPairs casesById annotationsByCase
        agreed := reviewed.countP fun r => r.first = r.second
        disagreed := reviewed.countP fun r => r.first ≠ r.second
        unresolved := reviewed.countP (unresolvedOf resolutionsByCase) }
      reviewed.length datasetVersion annotationSchemaVersion minimumSampleSize
    computeInterAnnotatorAgreement casesById annotationsByCase datasetVersion
      annotationSchemaVersion minimumSampleSize resolutionsByCase =
      if (reviewed.length : Int) < minimumSampleSize then .ok (report none .insufficientData)
      else if reviewed = [] then
        .error (.typeError "unsupported format string passed to NoneType.__format__")
      else .ok (report (cohensKappa (reviewPairs casesById annotationsByCase)) .computed) := by
  have hturned := reviewPairs_recorded h hknown
  have hlength : (reviewPairs casesById annotationsByCase).length = reviewed.length := by
    rw [hturned.length_eq, List.length_map]
  have hagreed : agreeing (reviewPairs casesById annotationsByCase) =
      reviewed.countP fun r => r.first = r.second := by
    rw [hturned.agreeing_eq, agreeing_labels]
  have hdisagreed : (disagreeing (reviewPairs casesById annotationsByCase)).length =
      reviewed.countP fun r => r.first ≠ r.second := by
    have hall := agreeing_add_disagreeing (reviewPairs casesById annotationsByCase)
    have hlabels := agreeing_add_disagreeing (reviewed.map Reviewed.labels)
    rw [agreeing_labels, disagreeing_labels, List.length_map] at hlabels
    omega
  have hnil : reviewPairs casesById annotationsByCase = [] ↔ reviewed = [] := by
    rw [← List.length_eq_zero_iff, ← List.length_eq_zero_iff, hlength]
  rw [compute_eq, reviewed_recorded h]
  simp only [tallyOf, hagreed, hdisagreed, unresolved_recorded h hknown, hlength, hnil]

theorem agreementReport_measures {pairs : List Labels} {kappa : Option Rat} {status : ReportStatus}
    (hlength : pairs.length = reviewed.length)
    (hkappa : minimumSampleSize ≤ reviewed.length →
      kappa = CohensKappa.kappa (reviewed.map Reviewed.labels))
    (hnone : ¬ minimumSampleSize ≤ reviewed.length → kappa = none) :
    Measures resolutionsByCase minimumSampleSize reviewed (agreementReport
      { pairs
        agreed := reviewed.countP fun r => r.first = r.second
        disagreed := reviewed.countP fun r => r.first ≠ r.second
        unresolved := reviewed.countP (unresolvedOf resolutionsByCase) }
      reviewed.length datasetVersion annotationSchemaVersion minimumSampleSize kappa status) where
  double := hlength
  agreed := rfl
  total := by
    have hlabels := agreeing_add_disagreeing (reviewed.map Reviewed.labels)
    rw [agreeing_labels, disagreeing_labels, List.length_map] at hlabels
    show (reviewed.countP fun r => r.first = r.second) +
      (reviewed.countP fun r => r.first ≠ r.second) = pairs.length
    omega
  unresolved := rfl
  rate := by
    simp only [agreementReport, hlength]
  kappa := hkappa
  range := by
    intro k hk
    have hk' : kappa = some k := hk
    by_cases henough : minimumSampleSize ≤ reviewed.length
    · obtain ⟨hlow, hhigh, hone⟩ := kappa_range ((hkappa henough).symm.trans hk')
      refine ⟨hlow, hhigh, fun heq r hr => ?_⟩
      exact hone heq r.labels (List.mem_map_of_mem hr)
    · rw [hnone henough] at hk'
      cases hk'

/-- What the report says when it measures the reviewers. -/
def reviewersReport (resolutionsByCase : String → Option ResolutionAnnotation)
    (datasetVersion annotationSchemaVersion : String) (minimumSampleSize : Int)
    (reviewed : List Reviewed) : AgreementReport :=
  agreementReport
    { pairs := reviewed.map Reviewed.labels
      agreed := reviewed.countP fun r => r.first = r.second
      disagreed := reviewed.countP fun r => r.first ≠ r.second
      unresolved := reviewed.countP (unresolvedOf resolutionsByCase) }
    reviewed.length datasetVersion annotationSchemaVersion minimumSampleSize
    (if minimumSampleSize ≤ reviewed.length then CohensKappa.kappa (reviewed.map Reviewed.labels)
      else none)
    (if minimumSampleSize ≤ reviewed.length then .computed else .insufficientData)

theorem reviewersReport_measures : Measures resolutionsByCase minimumSampleSize reviewed
    (reviewersReport resolutionsByCase datasetVersion annotationSchemaVersion minimumSampleSize
      reviewed) :=
  agreementReport_measures (List.length_map _) (fun hle => if_pos hle) fun hle => if_neg hle

/-- With one disagreement at most, no recording matters. -/
theorem measures_of_measurable (hknown : ∀ r ∈ reviewed, (casesById r.caseId).isSome = true)
    (h : Measurable minimumSampleSize reviewed) :
    MeasuresReviewers casesById resolutionsByCase datasetVersion annotationSchemaVersion
      minimumSampleSize reviewers reviewed := by
  obtain ⟨hsome, henough⟩ := h
  refine ⟨reviewersReport resolutionsByCase datasetVersion annotationSchemaVersion
    minimumSampleSize reviewed, reviewersReport_measures, ?_⟩
  intro annotationsByCase hrecorded
  have hturned := reviewPairs_recorded hrecorded hknown
  have hlength : (reviewPairs casesById annotationsByCase).length =
      (reviewed.map Reviewed.labels).length := hturned.length_eq
  rw [compute_recorded hrecorded hknown]
  unfold reviewersReport
  by_cases hfew : (reviewed.length : Int) < minimumSampleSize
  · rw [if_pos hfew, if_neg (not_le.mpr hfew), if_neg (not_le.mpr hfew)]
    unfold agreementReport
    simp only [hlength]
  · have hle : minimumSampleSize ≤ reviewed.length := not_lt.mp hfew
    obtain ⟨hcertain, hone⟩ := henough hle
    have hne : reviewed ≠ [] := by
      rcases hsome with hpos | hne
      · rintro rfl
        simp only [List.length_nil] at hle
        omega
      · exact hne
    have hkappa : cohensKappa (reviewPairs casesById annotationsByCase) =
        CohensKappa.kappa (reviewed.map Reviewed.labels) := by
      rw [← cohensKappa_eq_kappa hcertain]
      refine kappa_eq_of_chance hlength hturned.agreeing_eq (hturned.products_eq ?_)
      rw [disagreeing_labels]
      exact hone
    rw [if_neg hfew, if_neg hne, if_pos hle, if_pos hle, hkappa]
    unfold agreementReport
    simp only [hlength]

/-! ## Two disagreements -/

/-- A recording in which the second reviewer of the marked cases came first. -/
def recordOf (reviewers : String × String) (marked : Reviewed × Bool) :
    String × List AnnotationDecision :=
  (marked.1.caseId,
    [{ caseId := marked.1.caseId, datasetVersion := "", caseSnapshotHash := "",
       reviewerId := reviewers.1, annotatedAt := if marked.2 then 1 else 0,
       observedMode := marked.1.first },
     { caseId := marked.1.caseId, datasetVersion := "", caseSnapshotHash := "",
       reviewerId := reviewers.2, annotatedAt := if marked.2 then 0 else 1,
       observedMode := marked.1.second }])

theorem recordOf_annotated (reviewers : String × String) (marked : Reviewed × Bool) :
    AnnotatedBy reviewers marked.1 (recordOf reviewers marked) := by
  refine ⟨rfl, _, _, .refl _, rfl, rfl, rfl, rfl, ?_⟩
  obtain ⟨r, turned⟩ := marked
  cases turned <;> simp

theorem recordOf_recorded (reviewers : String × String) (marked : List (Reviewed × Bool)) :
    Recorded reviewers (marked.map Prod.fst) (marked.map (recordOf reviewers)) := by
  induction marked with
  | nil => exact .nil
  | cons m marked ih => exact .cons (recordOf_annotated reviewers m) ih

def turnedLabels (marked : Reviewed × Bool) : Labels :=
  if marked.2 then marked.1.labels.swap else marked.1.labels

theorem reviewPairs_recordOf (marked : List (Reviewed × Bool))
    (hknown : ∀ m ∈ marked, (casesById m.1.caseId).isSome = true) :
    reviewPairs casesById (marked.map (recordOf reviewers)) = marked.map turnedLabels := by
  unfold reviewPairs
  rw [List.filterMap_map, ← List.filterMap_eq_map]
  refine List.filterMap_congr fun m hm => ?_
  obtain ⟨case, hcase⟩ := Option.isSome_iff_exists.mp (hknown m hm)
  obtain ⟨r, turned⟩ := m
  show ((casesById r.caseId).bind fun _ => earliest _) = some (turnedLabels (r, turned))
  rw [hcase, Option.bind_some]
  cases turned
  · rfl
  · rfl

/-- Any two of three labels share one with any two others. -/
theorem labels_shared : ∀ a b c d : ObservedAnswerMode, a ≠ b → c ≠ d →
    a = c ∨ a = d ∨ b = c ∨ b = d := by
  decide

theorem two_of_countP {α : Type} {p : α → Bool} {l : List α} (h : 2 ≤ l.countP p) :
    ∃ a x b y c, l = a ++ x :: b ++ y :: c ∧ p x = true ∧ p y = true := by
  rw [List.countP_eq_length_filter] at h
  obtain ⟨x, rest, hfilter⟩ := List.exists_cons_of_length_pos (by omega : 0 < (l.filter p).length)
  rw [hfilter, List.length_cons] at h
  obtain ⟨y, rest, rfl⟩ := List.exists_cons_of_length_pos (by omega : 0 < rest.length)
  obtain ⟨a, l', rfl, -, hx, hrest⟩ := List.filter_eq_cons_iff.mp hfilter
  obtain ⟨b, c, rfl, -, hy, -⟩ := List.filter_eq_cons_iff.mp hrest
  exact ⟨a, x, b, y, c, by simp, hx, hy⟩

/-- Of all cases only these two may be turned round. -/
def turning (a b c : List Reviewed) (x y : Reviewed) (i j : Bool) : List (Reviewed × Bool) :=
  a.map (·, false) ++ (x, i) :: b.map (·, false) ++ (y, j) :: c.map (·, false)

variable {a b c : List Reviewed} {x y : Reviewed} {i j : Bool}

theorem map_fst_turning : (turning a b c x y i j).map Prod.fst = a ++ x :: b ++ y :: c := by
  have hfst (l : List Reviewed) : (l.map (·, false)).map Prod.fst = l := by
    rw [List.map_map]
    exact List.map_id l
  simp only [turning, List.map_append, List.map_cons, hfst]

theorem map_turnedLabels_turning : (turning a b c x y i j).map turnedLabels =
    a.map Reviewed.labels ++ turnedLabels (x, i) :: b.map Reviewed.labels ++
      turnedLabels (y, j) :: c.map Reviewed.labels := by
  have hkeep (l : List Reviewed) :
      (l.map (·, false)).map turnedLabels = l.map Reviewed.labels := by
    rw [List.map_map]
    rfl
  simp only [turning, List.map_append, List.map_cons, hkeep]

theorem turnedLabels_agree (marked : Reviewed × Bool) :
    (turnedLabels marked).1 = (turnedLabels marked).2 ↔ marked.1.first = marked.1.second := by
  obtain ⟨r, turned⟩ := marked
  cases turned
  · exact Iff.rfl
  · exact eq_comm

/-- Where the report measures the reviewers, every recording has their kappa. -/
theorem kappa_of_measures (hknown : ∀ r ∈ reviewed, (casesById r.caseId).isSome = true)
    (henough : minimumSampleSize ≤ reviewed.length) (hne : reviewed ≠ [])
    (h : MeasuresReviewers casesById resolutionsByCase datasetVersion annotationSchemaVersion
      minimumSampleSize reviewers reviewed)
    {marked : List (Reviewed × Bool)} (hmarked : marked.map Prod.fst = reviewed) :
    cohensKappa (marked.map turnedLabels) = CohensKappa.kappa (reviewed.map Reviewed.labels) := by
  obtain ⟨report, hmeasures, hreport⟩ := h
  have hrecorded := recordOf_recorded reviewers marked
  rw [hmarked] at hrecorded
  have hpairs : reviewPairs casesById (marked.map (recordOf reviewers)) =
      marked.map turnedLabels := by
    refine reviewPairs_recordOf marked fun m hm => hknown m.1 ?_
    rw [← hmarked]
    exact List.mem_map_of_mem hm
  have hcomputed := hreport _ hrecorded
  rw [compute_recorded hrecorded hknown, if_neg (not_lt.mpr henough), if_neg hne,
    hpairs] at hcomputed
  obtain rfl := Except.ok.inj hcomputed
  exact hmeasures.kappa henough

/-- Two disagreements can be recorded so that chance agreement comes out differently. -/
theorem disagreements_of_measures (hknown : ∀ r ∈ reviewed, (casesById r.caseId).isSome = true)
    (henough : minimumSampleSize ≤ reviewed.length) (hne : reviewed ≠ [])
    (h : MeasuresReviewers casesById resolutionsByCase datasetVersion annotationSchemaVersion
      minimumSampleSize reviewers reviewed) :
    (reviewed.countP fun r => r.first ≠ r.second) ≤ 1 := by
  by_contra hmany
  obtain ⟨a, x, b, y, c, hreviewed, hx, hy⟩ := two_of_countP (not_le.mp hmany)
  have hx' : x.first ≠ x.second := by simpa using hx
  have hy' : y.first ≠ y.second := by simpa using hy
  have hmem : x ∈ reviewed := by
    rw [hreviewed]
    simp
  have hlabels : reviewed.map Reviewed.labels ≠ [] := mt labels_ne_nil.mp hne
  have hdisagree : observed (reviewed.map Reviewed.labels) ≠ 1 := by
    rw [Ne, observed_eq_one hlabels]
    exact fun hall => hx' (hall _ (List.mem_map_of_mem hmem))
  have hchance : chance (reviewed.map Reviewed.labels) ≠ 1 :=
    fun hone => hx' (agree_of_chance hlabels hone _ (List.mem_map_of_mem hmem))
  obtain ⟨k, hk⟩ : ∃ k, CohensKappa.kappa (reviewed.map Reviewed.labels) = some k := by
    unfold CohensKappa.kappa
    rw [if_neg (not_or.mpr ⟨hlabels, hchance⟩)]
    exact ⟨_, rfl⟩
  have hproducts (i j : Bool) : products ((turning a b c x y i j).map turnedLabels) =
      products (reviewed.map Reviewed.labels) := by
    have hmarked : (turning a b c x y i j).map Prod.fst = reviewed := by
      rw [map_fst_turning, hreviewed]
    have hkappa := kappa_of_measures hknown henough hne h hmarked
    have hlength : ((turning a b c x y i j).map turnedLabels).length =
        (reviewed.map Reviewed.labels).length := by
      rw [List.length_map, List.length_map, ← hmarked, List.length_map]
    have hagreeing : agreeing ((turning a b c x y i j).map turnedLabels) =
        agreeing (reviewed.map Reviewed.labels) := by
      unfold agreeing
      rw [← hmarked, List.map_map, List.countP_map, List.countP_map]
      refine List.countP_congr fun marked _ => ?_
      show decide _ = true ↔ decide _ = true
      rw [decide_eq_true_iff, decide_eq_true_iff]
      exact turnedLabels_agree marked
    have hsame := chance_of_kappa (by unfold observed; rw [hlength, hagreeing]) hdisagree
      (hkappa.trans hk) hk
    have hpos := length_pos hlabels
    unfold chance at hsame
    rw [hlength, div_left_inj' (mul_pos hpos hpos).ne'] at hsame
    exact_mod_cast hsame
  have hoverlap := products_overlap (a.map Reviewed.labels) (b.map Reviewed.labels)
    (c.map Reviewed.labels) x.labels y.labels
  have hzero : overlap x.labels y.labels = 0 := by
    have hff := hproducts false false
    have htf := hproducts true false
    have hft := hproducts false true
    have htt := hproducts true true
    rw [map_turnedLabels_turning] at hff htf hft htt
    simp only [turnedLabels, if_true, Bool.false_eq_true, if_false] at hff htf hft htt
    omega
  exact overlap_ne_zero hx' hy' (labels_shared _ _ _ _ hx' hy') hzero

/-- The unturned recording tells a chance agreement that is nearly certain. -/
theorem not_nearlyCertain_of_measures
    (hknown : ∀ r ∈ reviewed, (casesById r.caseId).isSome = true)
    (henough : minimumSampleSize ≤ reviewed.length) (hne : reviewed ≠ [])
    (h : MeasuresReviewers casesById resolutionsByCase datasetVersion annotationSchemaVersion
      minimumSampleSize reviewers reviewed) :
    ¬ NearlyCertain (reviewed.map Reviewed.labels) := by
  rintro ⟨hchance, hnear⟩
  have hlabels : reviewed.map Reviewed.labels ≠ [] := mt labels_ne_nil.mp hne
  have hmarked : (reviewed.map (·, false)).map Prod.fst = reviewed := by
    rw [List.map_map]
    exact List.map_id reviewed
  have hturned : (reviewed.map (·, false)).map turnedLabels = reviewed.map Reviewed.labels := by
    rw [List.map_map]
    rfl
  have hkappa := kappa_of_measures hknown henough hne h hmarked
  have hclose := (isclose_one (chance_nonneg _) (chance_le_one hlabels)).mpr hnear
  rw [hturned, cohensKappa_eq, if_pos (.inr hclose)] at hkappa
  unfold CohensKappa.kappa at hkappa
  rw [if_neg (not_or.mpr ⟨hlabels, hchance⟩)] at hkappa
  cases hkappa

theorem measurable_of_measures (hknown : ∀ r ∈ reviewed, (casesById r.caseId).isSome = true)
    (h : MeasuresReviewers casesById resolutionsByCase datasetVersion annotationSchemaVersion
      minimumSampleSize reviewers reviewed) : Measurable minimumSampleSize reviewed := by
  have hsome : 0 < minimumSampleSize ∨ reviewed ≠ [] := by
    by_contra hneither
    rw [not_or, not_not, not_lt] at hneither
    obtain ⟨hfloor, rfl⟩ := hneither
    obtain ⟨report, -, hreport⟩ := h
    have hempty : Recorded reviewers [] [] := .nil
    have hcomputed := hreport [] hempty
    rw [compute_recorded hempty hknown, if_neg (by simpa using hfloor), if_pos rfl] at hcomputed
    cases hcomputed
  refine ⟨hsome, fun henough => ?_⟩
  have hne : reviewed ≠ [] := by
    rcases hsome with hpos | hne
    · rintro rfl
      simp only [List.length_nil] at henough
      omega
    · exact hne
  exact ⟨not_nearlyCertain_of_measures hknown henough hne h,
    disagreements_of_measures hknown henough hne h⟩

/-! ## A third annotation -/

/-- A known case has a third annotation. -/
def HasThird (casesById : String → Option AnswerQualityCase)
    (annotationsByCase : List (String × List AnnotationDecision)) : Prop :=
  ∃ entry ∈ annotationsByCase, 3 ≤ entry.2.length ∧ (casesById entry.1).isSome = true

/-- With a third annotation of a case there is no kappa. -/
def RefusesThird (casesById : String → Option AnswerQualityCase)
    (resolutionsByCase : String → Option ResolutionAnnotation)
    (datasetVersion annotationSchemaVersion : String) (minimumSampleSize : Int)
    (annotationsByCase : List (String × List AnnotationDecision)) : Prop :=
  HasThird casesById annotationsByCase →
    ∃ report, computeInterAnnotatorAgreement casesById annotationsByCase datasetVersion
        annotationSchemaVersion minimumSampleSize resolutionsByCase = .ok report ∧
      report.cohensKappa = none

/-- There are few pairs, or they agree by chance for as good as certain. -/
def WithoutKappa (casesById : String → Option AnswerQualityCase) (minimumSampleSize : Int)
    (annotationsByCase : List (String × List AnnotationDecision)) : Prop :=
  ((reviewPairs casesById annotationsByCase).length : Int) < minimumSampleSize ∨
    1 - chance (reviewPairs casesById annotationsByCase) ≤ 1 / 10 ^ 9

theorem pairs_of_third (h : HasThird casesById annotationsByCase) :
    reviewPairs casesById annotationsByCase ≠ [] := by
  obtain ⟨entry, hentry, hlength, hknown⟩ := h
  obtain ⟨case, hcase⟩ := Option.isSome_iff_exists.mp hknown
  have hsorted := length_sortedByTime entry.2
  obtain ⟨first, rest, hfirst⟩ :=
    List.exists_cons_of_length_pos (by omega : 0 < (sortedByTime entry.2).length)
  rw [hfirst, List.length_cons] at hsorted
  obtain ⟨second, rest, rfl⟩ := List.exists_cons_of_length_pos (by omega : 0 < rest.length)
  have hpair : pairOf casesById entry = some (first.observedMode, second.observedMode) := by
    unfold pairOf earliest
    rw [hcase, Option.bind_some, hfirst]
  exact List.ne_nil_of_mem (List.mem_filterMap.mpr ⟨entry, hentry, hpair⟩)

theorem refusesThird_iff :
    RefusesThird casesById resolutionsByCase datasetVersion annotationSchemaVersion
        minimumSampleSize annotationsByCase ↔
      (HasThird casesById annotationsByCase →
        WithoutKappa casesById minimumSampleSize annotationsByCase) := by
  refine forall_congr' fun hthird => ?_
  have hne := pairs_of_third hthird
  have hclose := isclose_one (chance_nonneg _) (chance_le_one hne)
  have hpairs : (tallyOf casesById resolutionsByCase annotationsByCase).pairs =
      reviewPairs casesById annotationsByCase := rfl
  rw [compute_eq]
  dsimp only
  unfold WithoutKappa
  rw [hpairs, if_neg hne]
  by_cases hfew : ((reviewPairs casesById annotationsByCase).length : Int) < minimumSampleSize
  · rw [if_pos hfew]
    exact ⟨fun _ => .inl hfew, fun _ => ⟨_, rfl, rfl⟩⟩
  · rw [if_neg hfew]
    constructor
    · rintro ⟨report, hreport, hnone⟩
      obtain rfl := Except.ok.inj hreport
      have hkappa : cohensKappa (reviewPairs casesById annotationsByCase) = none := hnone
      rw [cohensKappa_eq] at hkappa
      split at hkappa
      case isTrue hundefined => exact .inr (hclose.mp (hundefined.resolve_left hne))
      case isFalse => cases hkappa
    · intro hwithout
      refine ⟨_, rfl, ?_⟩
      show cohensKappa (reviewPairs casesById annotationsByCase) = none
      rw [cohensKappa_eq, if_pos (.inr (hclose.mpr (hwithout.resolve_left hfew)))]

/-- The report measures the reviewers when at most one case divides them. -/
theorem agreement_measures_reviewers
    (hknown : ∀ r ∈ reviewed, (casesById r.caseId).isSome = true) :
    (MeasuresReviewers casesById resolutionsByCase datasetVersion annotationSchemaVersion
        minimumSampleSize reviewers reviewed ∧
      RefusesThird casesById resolutionsByCase datasetVersion annotationSchemaVersion
        minimumSampleSize annotationsByCase) ↔
      Measurable minimumSampleSize reviewed ∧
        (HasThird casesById annotationsByCase →
          WithoutKappa casesById minimumSampleSize annotationsByCase) := by
  rw [refusesThird_iff]
  constructor
  · rintro ⟨hmeasures, hthird⟩
    exact ⟨measurable_of_measures hknown hmeasures, hthird⟩
  · rintro ⟨hmeasurable, hthird⟩
    exact ⟨measures_of_measurable hknown hmeasurable, hthird⟩

def someCase : AnswerQualityCase :=
  { id := "case-1", provenance := "synthetic_controlled", question := "", evidenceTexts := [],
    expectedAnswerMode := .answer }

def annotation (reviewerId : String) (annotatedAt : Int) (observedMode : ObservedAnswerMode) :
    AnnotationDecision :=
  { caseId := "case-4", datasetVersion := "v1", caseSnapshotHash := "", reviewerId, annotatedAt
    observedMode }

def thrice : String × List AnnotationDecision :=
  ("case-4", [ annotation "alice" 0 .noAnswer, annotation "bob" 1 .noAnswer,
    annotation "carol" 2 .substantiveAnswer])

/-- Three cases of which one divides the reviewers. Where a third person annotated a
single case there are too few pairs for a kappa. -/
theorem agreement_measures_reviewers_one :
    MeasuresReviewers (fun _ => some someCase) (fun _ => none) "v1" "v1" 3 ("alice", "bob")
        [⟨"case-1", .substantiveAnswer, .substantiveAnswer⟩, ⟨"case-2", .noAnswer, .noAnswer⟩,
          ⟨"case-3", .substantiveAnswer, .noAnswer⟩] ∧
      RefusesThird (fun _ => some someCase) (fun _ => none) "v1" "v1" 3 [thrice] := by
  refine (agreement_measures_reviewers fun _ _ => rfl).mpr ⟨⟨.inl (by decide), fun _ => ?_⟩, ?_⟩
  · have hchance : chance [(ObservedAnswerMode.substantiveAnswer, .substantiveAnswer),
        (.noAnswer, .noAnswer), (.substantiveAnswer, .noAnswer)] = 4 / 9 := by
      decide +kernel
    refine ⟨?_, by decide⟩
    rintro ⟨-, hnear⟩
    simp only [List.map_cons, List.map_nil, Reviewed.labels, hchance] at hnear
    norm_num at hnear
  · exact fun _ => .inl (by decide)

/-- Two cases that divide the reviewers have a kappa of 0 or of -1, by who annotated first. -/
theorem order_changes_kappa :
    ¬ MeasuresReviewers (fun _ => some someCase) (fun _ => none) "v1" "v1" 2 ("alice", "bob")
      [⟨"case-1", .substantiveAnswer, .noAnswer⟩, ⟨"case-2", .substantiveAnswer, .noAnswer⟩] := by
  intro h
  have hone := disagreements_of_measures (fun _ _ => rfl) (by decide) (by decide) h
  exact absurd hone (by decide)

example : cohensKappa [(.substantiveAnswer, .noAnswer), (.substantiveAnswer, .noAnswer)] = some 0 ∧
    cohensKappa [(.substantiveAnswer, .noAnswer), (.noAnswer, .substantiveAnswer)] = some (-1) := by
  decide +kernel

end Ekip.Evaluation.Semantic
