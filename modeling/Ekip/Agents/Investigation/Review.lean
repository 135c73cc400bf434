import Ekip.Agents.Investigation.Critique

/-!
# How a review ends

Every run of `review_investigation` returns, by one of its exits. An exit says which
calls were made, what they returned, and what the outcome is.
-/
namespace Ekip.Agents.Investigation

open Ekip.Lib Ekip.Shared

/-! ## Tags -/

section Tags

/-- A tag tells its position. -/
theorem tag_injective {start : String} {i j : Nat} (h : start ++ toString i = start ++ toString j) :
    i = j := by
  have hlists := congrArg String.toList h
  rw [String.toList_append, String.toList_append] at hlists
  have hdigits : Nat.toDigits 10 i = Nat.toDigits 10 j := by
    have hreprs : (Nat.repr i).toList = (Nat.repr j).toList := List.append_cancel_left hlists
    rw [Nat.toList_repr, Nat.toList_repr] at hreprs
    exact hreprs
  have hvalues := congrArg Text.natOf hdigits
  rw [Text.natOf_toDigits, Text.natOf_toDigits] at hvalues
  exact hvalues

theorem startsWith_append (start rest : String) :
    Answer.startsWith (start ++ rest).toList start = true := by
  unfold Answer.startsWith
  rw [String.toList_append]
  exact List.isPrefixOf_iff_prefix.mpr (List.prefix_append _ _)

/-- `int(tag[len(prefix):])` reads the position of which the tag was made. -/
theorem parseIndex_tag (index : Nat) :
    parseIndex ((overconfidenceTag index).toList.drop overconfidentTagPrefix.length) = .ok index := by
  have hdigits : (overconfidenceTag index).toList.drop overconfidentTagPrefix.length =
      Nat.toDigits 10 index := by
    unfold overconfidenceTag
    rw [String.toList_append, ← String.length_toList, List.drop_left]
    exact Nat.toList_repr
  have hall : (Nat.toDigits 10 index).all Text.isDecimal = true := by
    refine List.all_eq_true.mpr ?_
    intro c hc
    unfold Text.isDecimal
    rw [Text.decimal?_of_isDigit (Nat.isDigit_of_mem_toDigits (by decide) (by decide) hc)]
    rfl
  rw [hdigits]
  unfold parseIndex
  rw [if_pos ⟨Nat.toDigits_ne_nil, hall⟩, Text.natOf_toDigits]

theorem overconfidentIndices_tags (indices : List Nat) :
    overconfidentIndices (indices.map overconfidenceTag) = .ok indices := by
  induction indices with
  | nil => rfl
  | cons index indices ih =>
    have hstart : Answer.startsWith (overconfidenceTag index).toList overconfidentTagPrefix = true :=
      startsWith_append _ _
    rw [List.map_cons, overconfidentIndices, if_pos hstart, parseIndex_tag, ih]
    rfl

variable (settings : CritiqueSettings) {hypotheses : List RootCauseHypothesis}
  {evidence : List EvidenceItem}

/-- The positions of the hypotheses that are too confident. -/
def overconfidentAt (hypotheses : List RootCauseHypothesis) : List Nat :=
  (hypotheses.zipIdx.filter fun entry => isOverconfident settings entry.1).map Prod.snd

theorem validateStructurally_eq :
    validateStructurally settings hypotheses evidence =
      (if evidence.length < settings.minEvidenceCount then ["insufficient_information"] else []) ++
        (overconfidentAt settings hypotheses).map overconfidenceTag := by
  unfold validateStructurally overconfidentAt
  congr 1
  induction hypotheses.zipIdx with
  | nil => rfl
  | cons entry entries ih =>
    by_cases hflagged : isOverconfident settings entry.1 = true
    · simp [hflagged, ih]
    · simp [hflagged, ih]

theorem mem_overconfidentAt {index : Nat} :
    index ∈ overconfidentAt settings hypotheses ↔
      ∃ hypothesis, hypotheses[index]? = some hypothesis ∧
        isOverconfident settings hypothesis = true := by
  unfold overconfidentAt
  constructor
  · intro h
    obtain ⟨⟨hypothesis, position⟩, hfilter, rfl⟩ := List.mem_map.mp h
    obtain ⟨hmem, hflagged⟩ := List.mem_filter.mp hfilter
    exact ⟨hypothesis, List.mem_zipIdx_iff_getElem?.mp hmem, hflagged⟩
  · intro ⟨hypothesis, hget, hflagged⟩
    refine List.mem_map.mpr ⟨(hypothesis, index), List.mem_filter.mpr ⟨?_, hflagged⟩, rfl⟩
    exact List.mem_zipIdx_iff_getElem?.mpr hget

/-- A position is tagged where the hypothesis there is too confident. -/
theorem tag_mem_validateStructurally {index : Nat} :
    overconfidenceTag index ∈ validateStructurally settings hypotheses evidence ↔
      index ∈ overconfidentAt settings hypotheses := by
  rw [validateStructurally_eq, List.mem_append]
  constructor
  · rintro (hthin | htag)
    · have hplain : overconfidenceTag index = "insufficient_information" := by
        split at hthin
        · exact List.mem_singleton.mp hthin
        · exact absurd hthin List.not_mem_nil
      have hstart := startsWith_append overconfidentTagPrefix (toString index)
      rw [show overconfidentTagPrefix ++ toString index = _ from hplain] at hstart
      exact absurd hstart (by decide)
    · obtain ⟨position, hmem, heq⟩ := List.mem_map.mp htag
      rw [← tag_injective heq]
      exact hmem
  · intro hmem
    exact .inr (List.mem_map_of_mem hmem)

/-- The tags are read back as what they were made of. -/
theorem overconfidentIndices_validate :
    overconfidentIndices (validateStructurally settings hypotheses evidence) =
      .ok (overconfidentAt settings hypotheses) := by
  rw [validateStructurally_eq]
  by_cases hthin : evidence.length < settings.minEvidenceCount
  · rw [if_pos hthin, List.singleton_append, overconfidentIndices, if_neg (by decide)]
    exact overconfidentIndices_tags _
  · rw [if_neg hthin, List.nil_append]
    exact overconfidentIndices_tags _

end Tags

/-! ## Penalties -/

/-- What a penalty may change. -/
structure Lowered (before after : RootCauseHypothesis) : Prop where
  description : after.description = before.description
  cited : after.supportingEvidenceIds = before.supportingEvidenceIds
  confidence : after.confidence ≤ max 0 before.confidence

theorem penaltyAt_nonneg (overconfident unsupported : List Nat) (index : Nat) :
    0 ≤ penaltyAt overconfident unsupported index := by
  have hover : (0 : Rat) ≤ overconfidencePenalty := by norm_num [overconfidencePenalty]
  have hclaim : (0 : Rat) ≤ unsupportedClaimPenalty := by norm_num [unsupportedClaimPenalty]
  unfold penaltyAt
  apply add_nonneg
  · split
    · exact hover
    · exact le_rfl
  · split
    · exact hclaim
    · exact le_rfl

theorem penalize_lowered {penalty : Rat} (h : 0 ≤ penalty) (hypothesis : RootCauseHypothesis) :
    Lowered hypothesis (penalize penalty hypothesis) := by
  unfold penalize
  by_cases hzero : penalty = 0
  · rw [if_pos hzero]
    exact ⟨rfl, rfl, le_max_right 0 hypothesis.confidence⟩
  · rw [if_neg hzero]
    have hless : hypothesis.confidence - penalty ≤ hypothesis.confidence := sub_le_self _ h
    exact ⟨rfl, rfl, max_le_max_left 0 hless⟩

section Penalties

variable (settings : CritiqueSettings) (hypotheses : List RootCauseHypothesis)
  (evidence : List EvidenceItem) (semantic : SemanticCritiqueResult)

theorem forall₂_zipIdx {f : RootCauseHypothesis × Nat → RootCauseHypothesis}
    (h : ∀ entry, Lowered entry.1 (f entry)) (start : Nat) :
    List.Forall₂ Lowered hypotheses ((hypotheses.zipIdx start).map f) := by
  induction hypotheses generalizing start with
  | nil => exact .nil
  | cons hypothesis rest ih => exact .cons (h (hypothesis, start)) (ih (start + 1))

/-- The penalties are applied to each hypothesis, and nothing is raised. -/
theorem applyPenalties_lowered :
    ∃ lowered, applyPenalties hypotheses (validateStructurally settings hypotheses evidence)
      semantic = .ok lowered ∧ List.Forall₂ Lowered hypotheses lowered := by
  have hread : applyPenalties hypotheses (validateStructurally settings hypotheses evidence)
      semantic = .ok (hypotheses.zipIdx.map fun entry => penalize (penaltyAt
        (overconfidentAt settings hypotheses) semantic.unsupportedHypothesisIndices entry.2)
        entry.1) := by
    unfold applyPenalties
    rw [overconfidentIndices_validate]
    rfl
  refine ⟨_, hread, forall₂_zipIdx hypotheses ?_ 0⟩
  intro entry
  exact penalize_lowered (penaltyAt_nonneg _ _ _) entry.1

end Penalties

/-! ## What was called -/

/-- A run of a step that returns, and the calls it made. -/
structure Runs {α : Type} (x : Step α) (talk : Talk) (a : α) (talk' : Talk) (calls : List Call) :
    Prop where
  returns : x.Returns talk a talk'
  recorded : talk'.calls = talk.calls ++ calls
  asked : talk'.exchanges.length ≤ talk.exchanges.length + (maxRetries + 1) * calls.length

namespace Runs

variable {α β : Type} {x : Step α} {f : α → Step β} {talk talk' talk'' : Talk} {a : α} {b : β}
  {calls calls' : List Call}

theorem pure (a : α) (talk : Talk) : Runs (Pure.pure a) talk a talk [] where
  returns := rfl
  recorded := (List.append_nil _).symm
  asked := Nat.le_add_right _ _

theorem bind (hx : Runs x talk a talk' calls) (hf : Runs (f a) talk' b talk'' calls') :
    Runs (x >>= f) talk b talk'' (calls ++ calls') where
  returns := Service.bind_returns.mpr ⟨a, talk', hx.returns, hf.returns⟩
  recorded := by rw [hf.recorded, hx.recorded, List.append_assoc]
  asked := by
    have hfirst := hx.asked
    have hnext := hf.asked
    rw [List.length_append, Nat.mul_add]
    omega

/-- Nothing more is called where the rest only returns. -/
theorem bind_pure (hx : Runs x talk a talk' calls) (hf : f a = Pure.pure b) :
    Runs (x >>= f) talk b talk' calls := by
  have hlast : Runs (f a) talk' b talk' [] := by
    rw [hf]
    exact pure b talk'
  have hall := hx.bind hlast
  rw [List.append_nil] at hall
  exact hall

/-- The call, and what becomes of it where its exception is caught. -/
theorem attempt (nodeName : String) (call : Option α → Call) (prompt : Prompt)
    (read : Text → Except StepExn α) (model : Model) (talk : Talk) :
    ∃ r talk', Runs (Service.attempt (Talk.callWithRetry nodeName call (ask model prompt read)))
      talk r talk' [call r.toOption] ∧ ∀ a, r = .ok a → ∃ response, read response = .ok a := by
  have hrun : Talk.callWithRetry nodeName call (ask model prompt read) talk =
    ((Talk.callWithRetry nodeName call (ask model prompt read) talk).1,
      (Talk.callWithRetry nodeName call (ask model prompt read) talk).2) := rfl
  refine ⟨_, _, ⟨Service.attempt_returns.mpr hrun, callWithRetry_calls, ?_⟩, ?_⟩
  · rw [List.length_singleton, Nat.mul_one]
    exact callWithRetry_exchanges
  · intro a ha
    exact callWithRetry_returns (show Service.Returns _ talk a _ from Prod.ext ha rfl)

end Runs

/-! ## The exits -/

section Exits

variable (settings : CritiqueSettings) (evidence : List EvidenceItem)

/-- The exits after a revision. -/
inductive EndsRevised (issues1 : List String) (revised : Hypotheses) :
    List Call → ReviewOutcome → Prop
  | emptied (h : revised.hypotheses = []) :
      EndsRevised issues1 revised [] (rejected (issues1 ++ ["revision_produced_no_hypotheses"]) 1)
  | thin (h : revised.hypotheses ≠ []) :
      EndsRevised issues1 revised []
        (rejected (issues1 ++ validateStructurally settings revised.hypotheses evidence) 1)
  | unavailable (h : revised.hypotheses ≠ []) :
      EndsRevised issues1 revised [.critique critiqueRevisionNode revised.hypotheses none]
        (reviewFailed revised (some .revise) 1
          (issues1 ++ validateStructurally settings revised.hypotheses evidence))
  | rejected (h : revised.hypotheses ≠ []) (semantic2 : SemanticCritiqueResult) :
      EndsRevised issues1 revised
        [.critique critiqueRevisionNode revised.hypotheses (some semantic2)]
        (rejected (issueTags (validateStructurally settings revised.hypotheses evidence) semantic2 ++
          issues1) 1)
  | accepted (h : revised.hypotheses ≠ []) (semantic2 : SemanticCritiqueResult)
      (lowered : List RootCauseHypothesis)
      (hlowered : List.Forall₂ Lowered revised.hypotheses lowered) :
      EndsRevised issues1 revised
        [.critique critiqueRevisionNode revised.hypotheses (some semantic2)]
        (accepted revised lowered 1
          (issueTags (validateStructurally settings revised.hypotheses evidence) semantic2 ++ issues1))

/-- The exits of a review that takes place. -/
inductive EndsReviewed (given : Hypotheses) : List Call → ReviewOutcome → Prop
  | thin : EndsReviewed given []
      (rejected (validateStructurally settings given.hypotheses evidence) 0)
  | unavailable : EndsReviewed given [.critique critiqueNode given.hypotheses none]
      (reviewFailed given none 0 (validateStructurally settings given.hypotheses evidence))
  | rejected (semantic1 : SemanticCritiqueResult) :
      EndsReviewed given [.critique critiqueNode given.hypotheses (some semantic1)]
        (rejected (issueTags (validateStructurally settings given.hypotheses evidence) semantic1) 0)
  | accepted (semantic1 : SemanticCritiqueResult) (lowered : List RootCauseHypothesis)
      (hlowered : List.Forall₂ Lowered given.hypotheses lowered) :
      EndsReviewed given [.critique critiqueNode given.hypotheses (some semantic1)]
        (accepted given lowered 0
          (issueTags (validateStructurally settings given.hypotheses evidence) semantic1))
  | unrevised (semantic1 : SemanticCritiqueResult) :
      EndsReviewed given [.critique critiqueNode given.hypotheses (some semantic1),
          .draft revisionNode none]
        (reviewFailed given (some .revise) 0
          (issueTags (validateStructurally settings given.hypotheses evidence) semantic1))
  | revised (semantic1 : SemanticCritiqueResult) (revised : Hypotheses)
      (hwell : ∀ hypothesis ∈ revised.hypotheses, WellFormed (references evidence) hypothesis)
      (calls : List Call) (outcome : ReviewOutcome)
      (hend : EndsRevised settings evidence
        (issueTags (validateStructurally settings given.hypotheses evidence) semantic1) revised calls
        outcome) :
      EndsReviewed given (.critique critiqueNode given.hypotheses (some semantic1) ::
        .draft revisionNode (some revised) :: calls) outcome

inductive Ends (given : Hypotheses) : List Call → ReviewOutcome → Prop
  | notReviewed (h : settings.enabled = false ∨ given.hypotheses = []) :
      Ends given [] (notReviewed given)
  | reviewed (henabled : settings.enabled = true) (hgiven : given.hypotheses ≠ [])
      (calls : List Call) (outcome : ReviewOutcome)
      (hend : EndsReviewed settings evidence given calls outcome) : Ends given calls outcome

variable (model : Model) (query : String)

theorem runSemanticCritique_runs (nodeName : String) (hypotheses : List RootCauseHypothesis)
    (structuralIssues : List String) (talk : Talk) :
    ∃ returned talk', Runs
      (runSemanticCritique model nodeName query hypotheses evidence structuralIssues) talk returned
      talk' [.critique nodeName hypotheses returned] := by
  obtain ⟨r, talk', hrun, -⟩ := Runs.attempt nodeName (Call.critique nodeName hypotheses) _
    (readCritique model evidence) model talk
  exact ⟨r.toOption, talk', hrun.bind_pure rfl⟩

theorem reviewRevised_ends (issues1 : List String) (revised : Hypotheses) (talk : Talk) :
    ∃ outcome talk' calls,
      Runs (reviewRevised settings model query evidence issues1 revised) talk outcome talk' calls ∧
        EndsRevised settings evidence issues1 revised calls outcome := by
  unfold reviewRevised
  by_cases hempty : revised.hypotheses = []
  · rw [if_pos hempty]
    exact ⟨_, talk, [], .pure _ _, .emptied hempty⟩
  rw [if_neg hempty]
  dsimp only
  by_cases hforced : forcedVerdict (validateStructurally settings revised.hypotheses evidence)
      revised.hypotheses.length = some .reject
  · rw [if_pos hforced]
    exact ⟨_, talk, [], .pure _ _, .thin hempty⟩
  rw [if_neg hforced]
  obtain ⟨returned, talk', hcritique⟩ := runSemanticCritique_runs evidence model query
    critiqueRevisionNode revised.hypotheses
    (validateStructurally settings revised.hypotheses evidence) talk
  cases returned with
  | none => exact ⟨_, talk', _, hcritique.bind_pure rfl, .unavailable hempty⟩
  | some semantic2 =>
    cases hverdict : semantic2.verdict with
    | revise | reject =>
      refine ⟨_, talk', _, hcritique.bind_pure ?_, .rejected hempty semantic2⟩
      simp only [hverdict]
    | accept =>
      obtain ⟨lowered, hread, hlowered⟩ := applyPenalties_lowered settings
        revised.hypotheses evidence semantic2
      refine ⟨_, talk', _, hcritique.bind_pure ?_, .accepted hempty semantic2 lowered hlowered⟩
      simp only [hverdict, hread]
      rfl

theorem reviseOnce_runs (given : Hypotheses) (issues1 : List String) (guidance : Option String)
    (talk : Talk) :
    (∃ talk', Runs (reviseOnce settings model query evidence given issues1 guidance) talk
      (reviewFailed given (some .revise) 0 issues1) talk' [.draft revisionNode none]) ∨
    ∃ revised outcome talk' calls,
      (∀ hypothesis ∈ revised.hypotheses, WellFormed (references evidence) hypothesis) ∧
      Runs (reviseOnce settings model query evidence given issues1 guidance) talk outcome talk'
        (.draft revisionNode (some revised) :: calls) ∧
      EndsRevised settings evidence issues1 revised calls outcome := by
  obtain ⟨r, talk', hrun, hread⟩ := Runs.attempt revisionNode (Call.draft revisionNode) _
    (readHypotheses model evidence) model talk
  cases r with
  | error e => exact .inl ⟨talk', hrun.bind_pure rfl⟩
  | ok revised =>
    obtain ⟨response, hresponse⟩ := hread revised rfl
    obtain ⟨outcome, talk'', calls, hreview, hend⟩ := reviewRevised_ends settings evidence model
      query issues1 revised talk'
    exact .inr ⟨revised, outcome, talk'', calls, readHypotheses_wellFormed hresponse,
      hrun.bind hreview, hend⟩

/-- Every run returns, by one of the exits. -/
theorem reviewInvestigation_ends (given : Hypotheses) (talk : Talk) :
    ∃ outcome talk' calls,
      Runs (reviewInvestigation settings model query evidence given) talk outcome talk' calls ∧
        Ends settings evidence given calls outcome := by
  unfold reviewInvestigation
  by_cases hskip : settings.enabled = false ∨ given.hypotheses = []
  · rw [if_pos hskip]
    exact ⟨_, talk, [], .pure _ _, .notReviewed hskip⟩
  rw [if_neg hskip]
  obtain ⟨hoff, hgiven⟩ := not_or.mp hskip
  have henabled : settings.enabled = true := Bool.not_eq_false _ ▸ hoff
  suffices h : ∃ outcome talk' calls, Runs _ talk outcome talk' calls ∧
      EndsReviewed settings evidence given calls outcome by
    obtain ⟨outcome, talk', calls, hrun, hend⟩ := h
    exact ⟨outcome, talk', calls, hrun, .reviewed henabled hgiven calls outcome hend⟩
  dsimp only
  by_cases hforced : forcedVerdict (validateStructurally settings given.hypotheses evidence)
      given.hypotheses.length = some .reject
  · rw [if_pos hforced]
    exact ⟨_, talk, [], .pure _ _, .thin⟩
  rw [if_neg hforced]
  obtain ⟨returned, talk', hcritique⟩ := runSemanticCritique_runs evidence model query
    critiqueNode given.hypotheses (validateStructurally settings given.hypotheses evidence) talk
  cases returned with
  | none => exact ⟨_, talk', _, hcritique.bind_pure rfl, .unavailable⟩
  | some semantic1 =>
    cases hverdict : semantic1.verdict with
    | reject =>
      refine ⟨_, talk', _, hcritique.bind_pure ?_, .rejected semantic1⟩
      simp only [hverdict]
    | accept =>
      obtain ⟨lowered, hread, hlowered⟩ := applyPenalties_lowered settings
        given.hypotheses evidence semantic1
      refine ⟨_, talk', _, hcritique.bind_pure ?_, .accepted semantic1 lowered hlowered⟩
      simp only [hverdict, hread]
      rfl
    | revise =>
      rcases reviseOnce_runs settings evidence model query given
          (issueTags (validateStructurally settings given.hypotheses evidence) semantic1)
          semantic1.revisionGuidance talk' with
        ⟨talk'', hrevise⟩ | ⟨revised, outcome, talk'', calls, hwell, hrevise, hend⟩
      · refine ⟨_, talk'', _, hcritique.bind ?_, .unrevised semantic1⟩
        simp only [hverdict]
        exact hrevise
      · refine ⟨outcome, talk'', _, hcritique.bind ?_,
          .revised semantic1 revised hwell calls outcome hend⟩
        simp only [hverdict]
        exact hrevise

end Exits

end Ekip.Agents.Investigation
