import Ekip.Evaluation.Semantic.Calibration
import Mathlib.Algebra.Order.Field.Rat
import Mathlib.Tactic.FieldSimp
import Mathlib.Tactic.Linarith
import Mathlib.Tactic.Positivity
import Mathlib.Tactic.Ring

/-!
# A threshold is recommended on evidence

What both calibrations recommend, in terms of the F1 of the thresholds on the sample: the
harmonic mean of precision and recall, and 0 where nothing is found.
-/
namespace Ekip.Evaluation

/-! ## F1 -/

def Confusion.f1 (c : Confusion) : Rat := 2 * c.tp / (2 * c.tp + c.fp + c.fn)

theorem Confusion.f1_nonneg (c : Confusion) : 0 ≤ c.f1 := by
  unfold Confusion.f1
  positivity

theorem quotient_pos {count total : Nat} (h : 0 < total) :
    quotient count total = some ((count : Rat) / total) := by
  unfold quotient
  rw [if_neg (by omega)]

/-- The metric is undefined where there is no true positive. -/
theorem Confusion.metrics_f1 (c : Confusion) :
    c.metrics.f1 = if c.tp = 0 then none else some c.f1 := by
  unfold Confusion.metrics
  dsimp only
  by_cases htp : c.tp = 0
  · rw [if_pos htp]
    unfold quotient
    split
    · rename_i p r hp hr
      split at hp
      · cases hp
      · have hzero : p = 0 := by
          rw [← Option.some.inj hp, htp, Nat.cast_zero, zero_div]
        rw [if_neg (fun hboth => hboth.1 hzero)]
    · rfl
  · have hpos : (0 : Rat) < c.tp := by exact_mod_cast Nat.pos_of_ne_zero htp
    have hprecision : (0 : Rat) < c.tp + c.fp := by positivity
    have hrecall : (0 : Rat) < c.tp + c.fn := by positivity
    rw [if_neg htp, quotient_pos (by omega), quotient_pos (by omega)]
    push_cast
    rw [if_pos ⟨(div_pos hpos hprecision).ne', (div_pos hpos hrecall).ne'⟩]
    congr 1
    unfold Confusion.f1
    have hsum : (0 : Rat) < 2 * c.tp + c.fp + c.fn := by positivity
    have htotal : (c.tp : Rat) * (c.tp + c.fn) + c.tp * (c.tp + c.fp) ≠ 0 := by positivity
    field_simp
    ring

theorem Confusion.getD_metrics_f1 (c : Confusion) : c.metrics.f1.getD 0 = c.f1 := by
  rw [c.metrics_f1]
  by_cases htp : c.tp = 0
  · rw [if_pos htp]
    unfold Confusion.f1
    rw [htp]
    simp
  · rw [if_neg htp]
    rfl

theorem Confusion.isSome_metrics_f1 (c : Confusion) : c.metrics.f1.isSome = true ↔ 0 < c.tp := by
  rw [c.metrics_f1]
  by_cases htp : c.tp = 0
  · simp [htp]
  · simp [htp]
    omega

/-! ## The sample -/

/-- The confusion that a threshold makes on the sample. -/
def confusionOn (higherScoreMeansPositive : Bool) (sample : List (Rat × Bool)) (threshold : Rat) :
    Confusion :=
  confusionOf (predictionsAt higherScoreMeansPositive sample threshold)

def f1At (higherScoreMeansPositive : Bool) (sample : List (Rat × Bool)) (threshold : Rat) : Rat :=
  (confusionOn higherScoreMeansPositive sample threshold).f1

/-- The results that are no errors. -/
def sampleOf (results : List QuestionResult) : List (Rat × Bool) :=
  (results.filter fun result => result.error.isNone).map fun result =>
    (result.confidence, result.isPositive)

theorem confusionAt_eq (results : List QuestionResult) (threshold : Rat) :
    confusionAt results threshold = confusionOn true (sampleOf results) threshold := by
  unfold confusionAt confusionOn confusionOf predictionsAt sampleOf
  simp only [List.countP_map, List.map_map]
  rfl

theorem confusionOf_total (predictions : List (Bool × Bool)) :
    let c := confusionOf predictions
    c.tp + c.fp + c.fn + c.tn = predictions.length := by
  unfold confusionOf
  dsimp only
  induction predictions with
  | nil => rfl
  | cons pair predictions ih =>
    obtain ⟨predicted, actual⟩ := pair
    simp only [List.countP_cons, List.length_cons]
    cases predicted <;> cases actual <;> simp <;> omega

theorem confusionOf_negatives (predictions : List (Bool × Bool)) :
    let c := confusionOf predictions
    c.fp + c.tn = predictions.countP fun pair => !pair.2 := by
  unfold confusionOf
  dsimp only
  induction predictions with
  | nil => rfl
  | cons pair predictions ih =>
    obtain ⟨predicted, actual⟩ := pair
    simp only [List.countP_cons]
    cases predicted <;> cases actual <;> simp <;> omega

/-! ## The best candidate -/

section Best

variable {higher : Bool} {sample : List (Rat × Bool)} {candidates : List Rat} {current v w : Rat}
  {results : List QuestionResult}

theorem firstBest_spec {α : Type} {metric threshold : α → Rat} {rows : List α} {best : α}
    (h : firstBest metric threshold rows = some best) :
    best ∈ rows ∧ ∀ row ∈ rows,
      toLex (metric row, threshold row) ≤ toLex (metric best, threshold best) := by
  have hmem : best ∈ rows.argmax fun row => toLex (metric row, threshold row) := h
  refine ⟨List.argmax_mem hmem, ?_⟩
  intro row hrow
  exact List.le_of_mem_argmax (f := fun row => toLex (metric row, threshold row)) hrow hmem

/-- Of the candidates with a true positive it has the highest F1, and is the highest one. -/
structure IsBest (higher : Bool) (sample : List (Rat × Bool)) (candidates : List Rat) (v : Rat) :
    Prop where
  mem : v ∈ candidates
  found : 0 < (confusionOn higher sample v).tp
  highest : ∀ c ∈ candidates, 0 < (confusionOn higher sample c).tp →
    toLex (f1At higher sample c, c) ≤ toLex (f1At higher sample v, v)

theorem f1At_eq_zero (h : (confusionOn higher sample v).tp = 0) : f1At higher sample v = 0 := by
  unfold f1At Confusion.f1
  rw [h]
  simp

theorem f1At_nonneg : 0 ≤ f1At higher sample v := Confusion.f1_nonneg _

theorem IsBest.f1_le (h : IsBest higher sample candidates v) :
    ∀ c ∈ candidates, f1At higher sample c ≤ f1At higher sample v := by
  intro c hc
  by_cases hfound : (confusionOn higher sample c).tp = 0
  · rw [f1At_eq_zero hfound]
    exact f1At_nonneg
  · have hle := h.highest c hc (by omega)
    rcases Prod.Lex.toLex_le_toLex.mp hle with hlt | ⟨heq, -⟩
    · exact hlt.le
    · exact heq.le

theorem IsBest.unique (hv : IsBest higher sample candidates v) (hw : IsBest higher sample candidates w) :
    v = w := by
  have hle := hw.highest v hv.mem hv.found
  have hge := hv.highest w hw.mem hw.found
  exact (Prod.mk.inj (toLex.injective (le_antisymm hle hge))).2

/-! ### In the sweep -/

theorem candidateRow_f1 (c : Rat) : (candidateRow higher sample c).metrics.f1.getD 0 =
    f1At higher sample c := Confusion.getD_metrics_f1 _

theorem find_candidateRow : (candidates.map (candidateRow higher sample)).find?
    (fun row => row.candidateValue = current) =
      if current ∈ candidates then some (candidateRow higher sample current) else none := by
  induction candidates with
  | nil => rfl
  | cons c candidates ih =>
    rw [List.map_cons, List.find?_cons]
    by_cases hc : c = current
    · subst hc
      simp [candidateRow]
    · have hne : current ≠ c := fun h => hc h.symm
      rw [ih]
      simp [candidateRow, hc, hne]

theorem best_of_sweep {best : CalibrationCandidateResult}
    (h : firstBest (fun row => row.metrics.f1.getD 0) CalibrationCandidateResult.candidateValue
      ((candidates.map (candidateRow higher sample)).filter fun row => row.metrics.f1.isSome) =
        some best) :
    best = candidateRow higher sample best.candidateValue ∧
      IsBest higher sample candidates best.candidateValue := by
  obtain ⟨hmem, hhighest⟩ := firstBest_spec h
  obtain ⟨hrow, hsome⟩ := List.mem_filter.mp hmem
  obtain ⟨v, hv, rfl⟩ := List.mem_map.mp hrow
  refine ⟨rfl, hv, (Confusion.isSome_metrics_f1 _).mp hsome, ?_⟩
  intro c hc hfound
  have hle := hhighest (candidateRow higher sample c)
    (List.mem_filter.mpr ⟨List.mem_map_of_mem hc, (Confusion.isSome_metrics_f1 _).mpr hfound⟩)
  rw [candidateRow_f1, candidateRow_f1] at hle
  exact hle

theorem none_of_sweep
    (h : firstBest (fun row => row.metrics.f1.getD 0) CalibrationCandidateResult.candidateValue
      ((candidates.map (candidateRow higher sample)).filter fun row => row.metrics.f1.isSome) = none) :
    ∀ c ∈ candidates, (confusionOn higher sample c).tp = 0 := by
  intro c hc
  have hnil := List.argmax_eq_none.mp h
  have hnone := List.filter_eq_nil_iff.mp hnil _ (List.mem_map_of_mem hc)
  have hzero := mt (Confusion.isSome_metrics_f1 (confusionOn higher sample c)).mpr hnone
  omega

/-! ### In the report -/

theorem sweepRow_f1 (c : Rat) : (sweepRow results c).metrics.f1.getD 0 =
    f1At true (sampleOf results) c := by
  unfold f1At
  rw [← confusionAt_eq]
  exact Confusion.getD_metrics_f1 _

theorem sweepRow_isSome (c : Rat) : (sweepRow results c).metrics.f1.isSome = true ↔
    0 < (confusionOn true (sampleOf results) c).tp := by
  rw [← confusionAt_eq]
  exact Confusion.isSome_metrics_f1 _

theorem find_sweepRow : (candidates.map (sweepRow results)).find?
    (fun row => row.threshold = current) =
      if current ∈ candidates then some (sweepRow results current) else none := by
  induction candidates with
  | nil => rfl
  | cons c candidates ih =>
    rw [List.map_cons, List.find?_cons]
    by_cases hc : c = current
    · subst hc
      simp [sweepRow]
    · have hne : current ≠ c := fun h => hc h.symm
      rw [ih]
      simp [sweepRow, hc, hne]

/-- The best row has the highest F1, also where no row has one. -/
theorem best_of_report {best : SweepRow} (h : pickBest (candidates.map (sweepRow results)) = some best) :
    best = sweepRow results best.threshold ∧ best.threshold ∈ candidates ∧
      (IsBest true (sampleOf results) candidates best.threshold ∨
        ∀ c ∈ candidates, (confusionOn true (sampleOf results) c).tp = 0) := by
  unfold pickBest at h
  dsimp only at h
  split at h
  · rename_i hnil
    obtain ⟨v, hv, rfl⟩ := List.mem_map.mp (firstBest_spec h).1
    refine ⟨rfl, hv, .inr ?_⟩
    intro c hc
    have hnone := List.filter_eq_nil_iff.mp hnil _ (List.mem_map_of_mem hc)
    have hzero := mt (sweepRow_isSome c).mpr hnone
    omega
  · obtain ⟨hmem, hhighest⟩ := firstBest_spec h
    obtain ⟨hrow, hsome⟩ := List.mem_filter.mp hmem
    obtain ⟨v, hv, rfl⟩ := List.mem_map.mp hrow
    refine ⟨rfl, hv, .inl ⟨hv, (sweepRow_isSome v).mp hsome, ?_⟩⟩
    intro c hc hfound
    have hle := hhighest (sweepRow results c)
      (List.mem_filter.mpr ⟨List.mem_map_of_mem hc, (sweepRow_isSome c).mpr hfound⟩)
    rw [sweepRow_f1, sweepRow_f1] at hle
    exact hle

end Best

/-! ## What is recommended -/

section Recommended

variable {settingName : String} {higher : Bool} {sample : List (Rat × Bool)} {candidates : List Rat}
  {current v margin : Rat} {minimum : Int} {results : List QuestionResult}

/-- The sample is large enough, and the value leads the current one by the margin. -/
structure Supported (higher : Bool) (sample : List (Rat × Bool)) (minimum : Int) (margin current v : Rat) :
    Prop where
  size : minimum ≤ sample.length
  lead : f1At higher sample current + margin ≤ f1At higher sample v

/-- What the current value is taken to reach: nothing where it is no candidate. -/
def sweptF1 (higher : Bool) (sample : List (Rat × Bool)) (candidates : List Rat) (current : Rat) : Rat :=
  if current ∈ candidates then f1At higher sample current else 0

inductive Swept (higher : Bool) (sample : List (Rat × Bool)) (candidates : List Rat) (minimum : Int)
    (margin current : Rat) : Option Rat → CalibrationStatus → Prop
  | insufficient : sample.length < minimum ∨
      (∀ c ∈ candidates, (confusionOn higher sample c).tp = 0) →
      Swept higher sample candidates minimum margin current none .insufficientData
  | ties (best : Rat) : minimum ≤ sample.length → IsBest higher sample candidates best →
      current ∈ candidates → f1At higher sample best ≤ f1At higher sample current →
      Swept higher sample candidates minimum margin current (some current) .calibrated
  | marginal (best : Rat) : minimum ≤ sample.length → IsBest higher sample candidates best →
      ¬ (current ∈ candidates ∧ f1At higher sample best ≤ f1At higher sample current) →
      f1At higher sample best - sweptF1 higher sample candidates current < margin →
      Swept higher sample candidates minimum margin current (some current) .provisional
  | outperforms (best : Rat) : minimum ≤ sample.length → IsBest higher sample candidates best →
      ¬ (current ∈ candidates ∧ f1At higher sample best ≤ f1At higher sample current) →
      margin ≤ f1At higher sample best - sweptF1 higher sample candidates current →
      Swept higher sample candidates minimum margin current (some best) .provisional

theorem sweep_cases :
    let report := sweepBinaryThreshold settingName current sample candidates minimum margin higher
    Swept higher sample candidates minimum margin current report.recommendedValue report.status := by
  unfold sweepBinaryThreshold
  dsimp only
  by_cases hsize : (sample.length : Int) < minimum
  · rw [if_pos hsize]
    exact .insufficient (.inl hsize)
  · rw [if_neg hsize]
    have hminimum : minimum ≤ sample.length := by omega
    have hf1 : (((candidates.map (candidateRow higher sample)).find?
        fun row => row.candidateValue = current).bind fun row => row.metrics.f1).getD 0 =
          sweptF1 higher sample candidates current := by
      rw [find_candidateRow]
      unfold sweptF1
      split
      · exact candidateRow_f1 current
      · rfl
    have hisSome : ((candidates.map (candidateRow higher sample)).find?
        fun row => row.candidateValue = current).isSome = true ↔ current ∈ candidates := by
      rw [find_candidateRow]
      split <;> simp_all
    rw [hf1]
    split
    · rename_i hnone
      exact .insufficient (.inr (none_of_sweep hnone))
    · rename_i row hrow
      obtain ⟨hself, hbest⟩ := best_of_sweep hrow
      have hrowF1 : row.metrics.f1.getD 0 = f1At higher sample row.candidateValue := by
        rw [hself]
        exact candidateRow_f1 _
      rw [hrowF1]
      have hcurrent : current ∈ candidates → sweptF1 higher sample candidates current =
          f1At higher sample current := fun hmem => if_pos hmem
      by_cases hties : current ∈ candidates ∧
          f1At higher sample row.candidateValue ≤ sweptF1 higher sample candidates current
      · rw [if_pos ⟨hisSome.mpr hties.1, hties.2⟩]
        exact .ties _ hminimum hbest hties.1 (hcurrent hties.1 ▸ hties.2)
      · rw [if_neg fun h => hties ⟨hisSome.mp h.1, h.2⟩]
        have hties' : ¬ (current ∈ candidates ∧
            f1At higher sample row.candidateValue ≤ f1At higher sample current) :=
          fun h => hties ⟨h.1, (hcurrent h.1).symm ▸ h.2⟩
        by_cases hmargin : f1At higher sample row.candidateValue -
            sweptF1 higher sample candidates current < margin
        · rw [if_pos hmargin]
          exact .marginal _ hminimum hbest hties' hmargin
        · rw [if_neg hmargin]
          exact .outperforms _ hminimum hbest hties' (not_lt.mp hmargin)

/-- What the report recommends, where `best` is its best threshold. -/
inductive Reported (sample : List (Rat × Bool)) (candidates : List Rat) (minimum : Int)
    (margin current best : Rat) : Option Rat → CalibrationStatus → Prop
  | insufficient : current ∉ candidates ∨ sample.length < minimum ∨
      (∀ scored ∈ sample, scored.2 = true) →
      Reported sample candidates minimum margin current best (some current) .insufficientData
  | ties : current ∈ candidates → minimum ≤ sample.length →
      best = current ∨ f1At true sample best ≤ f1At true sample current →
      Reported sample candidates minimum margin current best (some current) .calibrated
  | beaten : current ∈ candidates → minimum ≤ sample.length →
      f1At true sample current < f1At true sample best →
      Reported sample candidates minimum margin current best (some best) .provisional

theorem sweepRow_total (results : List QuestionResult) (threshold : Rat) :
    (sweepRow results threshold).tp.getD 0 + (sweepRow results threshold).fp.getD 0 +
      (sweepRow results threshold).fn.getD 0 + (sweepRow results threshold).tn.getD 0 =
        (sampleOf results).length := by
  show (confusionAt results threshold).tp + (confusionAt results threshold).fp +
    (confusionAt results threshold).fn + (confusionAt results threshold).tn = _
  rw [confusionAt_eq]
  have htotal := confusionOf_total (predictionsAt true (sampleOf results) threshold)
  rw [show (predictionsAt true (sampleOf results) threshold).length = (sampleOf results).length from
    List.length_map _] at htotal
  exact htotal

theorem sweepRow_negatives {results : List QuestionResult} {threshold : Rat}
    (h : (sweepRow results threshold).fp.getD 0 + (sweepRow results threshold).tn.getD 0 = 0) :
    ∀ scored ∈ sampleOf results, scored.2 = true := by
  have hcount : (confusionAt results threshold).fp + (confusionAt results threshold).tn = 0 := h
  have hnegatives := confusionOf_negatives (predictionsAt true (sampleOf results) threshold)
  rw [confusionAt_eq] at hcount
  have hnone := List.countP_eq_zero.mp (hnegatives.symm.trans hcount)
  intro scored hscored
  have hpair := hnone _ (List.mem_map_of_mem hscored)
  simpa using hpair

theorem report_cases {report : CalibrationReport} (h : calibrationFromEvalConfidenceReport
      (buildReport results candidates current) minimum margin = some report) :
    ∃ best ∈ candidates,
      (IsBest true (sampleOf results) candidates best ∨
        ∀ c ∈ candidates, (confusionOn true (sampleOf results) c).tp = 0) ∧
      Reported (sampleOf results) candidates minimum margin current best report.recommendedValue
        report.status := by
  obtain ⟨data, hdata, rfl⟩ := Option.map_eq_some_iff.mp h
  obtain ⟨best, hpick, rfl⟩ := Option.map_eq_some_iff.mp hdata
  obtain ⟨hself, hmem, hbest⟩ := best_of_report hpick
  refine ⟨best.threshold, hmem, hbest, ?_⟩
  have hbestF1 : best.metrics.f1.getD 0 = f1At true (sampleOf results) best.threshold := by
    rw [hself]
    exact sweepRow_f1 _
  unfold calibrationOf
  dsimp only [Option.bind_some]
  rw [find_sweepRow, hbestF1]
  by_cases hcurrent : current ∈ candidates
  · rw [if_pos hcurrent]
    simp only [Option.elim_some, Option.bind_some, sweepRow_total, sweepRow_f1]
    by_cases hsize : ((sampleOf results).length : Int) < minimum
    · rw [if_pos hsize]
      exact .insufficient (.inr (.inl hsize))
    · rw [if_neg hsize]
      have hminimum : minimum ≤ (sampleOf results).length := by omega
      by_cases hnegatives : (sweepRow results current).fp.getD 0 + (sweepRow results current).tn.getD 0 = 0
      · rw [if_pos hnegatives]
        exact .insufficient (.inr (.inr (sweepRow_negatives hnegatives)))
      · rw [if_neg hnegatives]
        by_cases hties : some best.threshold = some current ∨
            f1At true (sampleOf results) best.threshold ≤ f1At true (sampleOf results) current
        · rw [if_pos hties]
          exact .ties hcurrent hminimum (hties.imp_left Option.some.inj)
        · rw [if_neg hties]
          have hbeaten := not_le.mp fun hle => hties (.inr hle)
          split <;> exact .beaten hcurrent hminimum hbeaten
  · rw [if_neg hcurrent]
    simp only [Option.elim_none, if_true]
    by_cases hzero : ((0 : Nat) : Int) < minimum
    · rw [if_pos hzero]
      exact .insufficient (.inl hcurrent)
    · rw [if_neg hzero]
      exact .insufficient (.inl hcurrent)

/-! ## Soundness and agreement -/

/-- A candidate leads the current value, but the best one by less than the margin. -/
def Marginal (sample : List (Rat × Bool)) (candidates : List Rat) (margin current : Rat) : Prop :=
  ∃ best ∈ candidates, (∀ c ∈ candidates, f1At true sample c ≤ f1At true sample best) ∧
    f1At true sample current < f1At true sample best ∧
    f1At true sample best < f1At true sample current + margin

/-- The sample shows both classes, and the current value is one of the candidates. -/
structure Comparable (sample : List (Rat × Bool)) (candidates : List Rat) (minimum : Int) (current : Rat) :
    Prop where
  size : minimum ≤ sample.length
  negative : ∃ scored ∈ sample, scored.2 = false
  found : ∃ c ∈ candidates, 0 < (confusionOn true sample c).tp
  current_mem : current ∈ candidates

theorem Swept.supported {recommended : Option Rat} {status : CalibrationStatus}
    (h : Swept higher sample candidates minimum margin current recommended status)
    (hcurrent : current ∈ candidates) (hv : recommended = some v) (hne : v ≠ current) :
    Supported higher sample minimum margin current v := by
  cases h with
  | insufficient => cases hv
  | ties | marginal => exact absurd (Option.some.inj hv).symm hne
  | outperforms best hsize hbest hnot hmargin =>
    obtain rfl := Option.some.inj hv
    unfold sweptF1 at hmargin
    rw [if_pos hcurrent] at hmargin
    exact ⟨hsize, by linarith⟩

theorem Swept.calibrated {recommended : Option Rat} {status : CalibrationStatus}
    (h : Swept higher sample candidates minimum margin current recommended status)
    (hstatus : status = .calibrated) :
    ∀ c ∈ candidates, f1At higher sample c ≤ f1At higher sample current := by
  subst hstatus
  cases h with
  | ties best _ hbest _ hle => exact fun c hc => (hbest.f1_le c hc).trans hle

section Report

variable {best : Rat} {recommended : Option Rat} {status : CalibrationStatus}

/-- The best threshold of a report leads all candidates. -/
theorem best_leads (hbest : IsBest true sample candidates best ∨
      ∀ c ∈ candidates, (confusionOn true sample c).tp = 0) :
    ∀ c ∈ candidates, f1At true sample c ≤ f1At true sample best := by
  rcases hbest with hbest | hzero
  · exact hbest.f1_le
  · intro c hc
    rw [f1At_eq_zero (hzero c hc)]
    exact f1At_nonneg

theorem Reported.supported (h : Reported sample candidates minimum margin current best recommended status)
    (hmem : best ∈ candidates) (hleads : ∀ c ∈ candidates, f1At true sample c ≤ f1At true sample best)
    (hmarginal : ¬ Marginal sample candidates margin current) (hv : recommended = some v)
    (hne : v ≠ current) : Supported true sample minimum margin current v := by
  cases h with
  | insufficient | ties => exact absurd (Option.some.inj hv).symm hne
  | beaten _ hsize hbeaten =>
    obtain rfl := Option.some.inj hv
    refine ⟨hsize, ?_⟩
    by_contra hlead
    exact hmarginal ⟨best, hmem, hleads, hbeaten, not_le.mp hlead⟩

theorem Reported.calibrated
    (h : Reported sample candidates minimum margin current best recommended status)
    (hleads : ∀ c ∈ candidates, f1At true sample c ≤ f1At true sample best)
    (hstatus : status = .calibrated) :
    ∀ c ∈ candidates, f1At true sample c ≤ f1At true sample current := by
  subst hstatus
  cases h with
  | ties _ _ hties =>
    rcases hties with rfl | hle
    · exact hleads
    · exact fun c hc => (hleads c hc).trans hle

/-- On a sample that can be compared both recommend the same value. -/
theorem Reported.agrees {swept : Option Rat} {sweptStatus : CalibrationStatus}
    (h : Reported sample candidates minimum margin current best recommended status)
    (hsweep : Swept true sample candidates minimum margin current swept sweptStatus)
    (hbest : IsBest true sample candidates best ∨
      ∀ c ∈ candidates, (confusionOn true sample c).tp = 0)
    (hcomparable : Comparable sample candidates minimum current)
    (hmarginal : ¬ Marginal sample candidates margin current) : swept = recommended := by
  obtain ⟨hsize, ⟨scored, hscored, hnegative⟩, ⟨found, hfoundMem, hfound⟩, hcurrent⟩ := hcomparable
  have hbest' : IsBest true sample candidates best := by
    refine hbest.resolve_right ?_
    intro hzero
    have hnone := hzero found hfoundMem
    omega
  have hswept : sweptF1 true sample candidates current = f1At true sample current := if_pos hcurrent
  cases h with
  | insufficient hreason =>
    rcases hreason with hnot | hshort | hpositive
    · exact absurd hcurrent hnot
    · omega
    · exact absurd (hpositive scored hscored) (by rw [hnegative]; decide)
  | ties _ _ hties =>
    have hle : f1At true sample best ≤ f1At true sample current := by
      rcases hties with rfl | hle
      · exact le_rfl
      · exact hle
    cases hsweep with
    | insufficient hreason =>
      rcases hreason with hshort | hzero
      · omega
      · have hnone := hzero found hfoundMem
        omega
    | ties => rfl
    | marginal => rfl
    | outperforms other _ hother hnot _ =>
      obtain rfl := hother.unique hbest'
      exact absurd ⟨hcurrent, hle⟩ hnot
  | beaten _ _ hbeaten =>
    cases hsweep with
    | insufficient hreason =>
      rcases hreason with hshort | hzero
      · omega
      · have hnone := hzero found hfoundMem
        omega
    | ties other _ hother _ hle =>
      obtain rfl := hother.unique hbest'
      exact absurd hle (not_le.mpr hbeaten)
    | marginal other _ hother _ hshort =>
      obtain rfl := hother.unique hbest'
      rw [hswept] at hshort
      exact absurd ⟨other, hbest'.mem, hbest'.f1_le, hbeaten, by linarith⟩ hmarginal
    | outperforms other _ hother =>
      rw [hother.unique hbest']

end Report

/-- What is recommended has the evidence for it; a value is calibrated only where no candidate
has a higher F1; and the two calibrations agree where there is something to compare. -/
theorem recommendations_supported (candidates : List Rat) (current : Rat) (minimum : Int) (margin : Rat) :
    (∀ settingName higher sample,
      let report := sweepBinaryThreshold settingName current sample candidates minimum margin higher
      (current ∈ candidates → ∀ v, report.recommendedValue = some v → v ≠ current →
        Supported higher sample minimum margin current v) ∧
      (report.status = .calibrated →
        ∀ c ∈ candidates, f1At higher sample c ≤ f1At higher sample current)) ∧
    ∀ results report,
      calibrationFromEvalConfidenceReport (buildReport results candidates current) minimum margin =
        some report →
      (report.status = .calibrated → ∀ c ∈ candidates,
        f1At true (sampleOf results) c ≤ f1At true (sampleOf results) current) ∧
      (¬ Marginal (sampleOf results) candidates margin current →
        (∀ v, report.recommendedValue = some v → v ≠ current →
          Supported true (sampleOf results) minimum margin current v) ∧
        (Comparable (sampleOf results) candidates minimum current → ∀ settingName,
          (sweepBinaryThreshold settingName current (sampleOf results) candidates minimum margin
            true).recommendedValue = report.recommendedValue)) := by
  constructor
  · intro settingName higher sample
    have hswept := @sweep_cases settingName higher sample candidates current margin minimum
    exact ⟨fun hcurrent v hv hne => hswept.supported hcurrent hv hne, hswept.calibrated⟩
  · intro results report hreport
    obtain ⟨best, hmem, hbest, hreported⟩ := report_cases hreport
    have hleads := best_leads hbest
    refine ⟨?_, fun hmarginal => ⟨?_, ?_⟩⟩
    · exact hreported.calibrated hleads
    · intro v hv hne
      exact hreported.supported hmem hleads hmarginal hv hne
    · intro hcomparable settingName
      exact hreported.agrees sweep_cases hbest hcomparable hmarginal

end Recommended

/-! ## Two samples -/

def mixed : List QuestionResult :=
  List.replicate 12 { confidence := 1 / 2, isPositive := true } ++
    List.replicate 10 { confidence := 1 / 10, isPositive := false }

theorem recommendations_supported_mixed :
    Supported true (sampleOf mixed) 20 (1 / 20) (9 / 10) (3 / 10) ∧ ∃ report,
      calibrationFromEvalConfidenceReport (buildReport mixed [3 / 10, 9 / 10] (9 / 10)) 20 (1 / 20) =
        some report ∧ report.recommendedValue = some (3 / 10) := by
  have hcalibration : (calibrationFromEvalConfidenceReport
      (buildReport mixed [3 / 10, 9 / 10] (9 / 10)) 20 (1 / 20)).isSome = true := by decide +kernel
  obtain ⟨report, hreport⟩ := Option.isSome_iff_exists.mp hcalibration
  obtain ⟨hsweep, hreports⟩ := recommendations_supported [3 / 10, 9 / 10] (9 / 10) 20 (1 / 20)
  have hrecommended : (sweepBinaryThreshold "confidence_threshold" (9 / 10) (sampleOf mixed)
      [3 / 10, 9 / 10] 20 (1 / 20) true).recommendedValue = some (3 / 10) := by decide +kernel
  have hmarginal : ¬ Marginal (sampleOf mixed) [3 / 10, 9 / 10] (1 / 20) (9 / 10) := by
    unfold Marginal
    decide +kernel
  have hcomparable : Comparable (sampleOf mixed) [3 / 10, 9 / 10] 20 (9 / 10) :=
    ⟨by decide +kernel, by decide +kernel, by decide +kernel, by decide +kernel⟩
  have hagree := ((hreports mixed report hreport).2 hmarginal).2 hcomparable "confidence_threshold"
  refine ⟨?_, report, hreport, hagree.symm.trans hrecommended⟩
  exact (hsweep _ true (sampleOf mixed)).1 (by decide +kernel) _ hrecommended (by decide +kernel)

def positives : List QuestionResult :=
  List.replicate 10 { confidence := 9 / 10, isPositive := true } ++
    List.replicate 10 { confidence := 2 / 5, isPositive := true }

/-- On twenty positive examples the sweep recommends another value and the report does not. -/
theorem calibrations_disagree :
    (sweepBinaryThreshold "confidence_threshold" (3 / 5) (sampleOf positives)
        [3 / 10, 3 / 5]).recommendedValue = some (3 / 10) ∧
      (calibrationFromEvalConfidenceReport (buildReport positives [3 / 10, 3 / 5] (3 / 5))).map
        CalibrationReport.recommendedValue = some (some (3 / 5)) := by
  decide +kernel

end Ekip.Evaluation
