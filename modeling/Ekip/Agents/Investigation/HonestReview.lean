import Ekip.Agents.Investigation.Review

/-!
# What the outcome of a review says

The status, the verdict and the count of revisions agree with what was called, and
what is shown cites the evidence that was given.
-/
namespace Ekip.Agents.Investigation

open Ekip.Lib Ekip.Shared Ekip.Core

def Call.isCritique : Call → Bool
  | critique .. => true
  | draft .. => false

def Call.isDraft (call : Call) : Bool := !call.isCritique

def CitesOnly (knownReferences : List String) (hypotheses : List RootCauseHypothesis) : Prop :=
  ∀ hypothesis ∈ hypotheses, ∀ id ∈ hypothesis.supportingEvidenceIds, id ∈ knownReferences

/-- Two critiques, each of its own set, around one revision. -/
structure Bounded (calls : List Call) : Prop where
  critiques : (calls.filter Call.isCritique).length ≤ 2
  revisions : (calls.filter Call.isDraft).length ≤ 1

structure Honest (settings : CritiqueSettings) (evidence : List EvidenceItem) (given : Hypotheses)
    (calls : List Call) (outcome : ReviewOutcome) : Prop where
  verdict : (outcome.critiqueVerdict = some .accept ∨ outcome.critiqueVerdict = some .reject) ↔
    outcome.reviewStatus = .reviewed
  rejection : outcome.critiqueVerdict = some .reject →
    outcome.hypotheses = [] ∧ outcome.suggestedOwnerTeam = none
  count : outcome.revisionCount = 0 ∨ outcome.revisionCount = 1
  revision : outcome.revisionCount = 1 ↔ ∃ revised, Call.draft revisionNode (some revised) ∈ calls
  unreviewed : outcome.reviewStatus = .notReviewed →
    settings.enabled = false ∨ given.hypotheses = []
  cited : CitesOnly (references evidence) given.hypotheses →
    CitesOnly (references evidence) outcome.hypotheses
  /-- The last critique is the one that accepted. -/
  confidence : outcome.critiqueVerdict = some .accept → ∃ nodeName critiqued semantic,
    calls.getLast? = some (.critique nodeName critiqued (some semantic)) ∧
      List.Forall₂ Lowered critiqued outcome.hypotheses
  unraised : (∀ hypothesis ∈ given.hypotheses, 0 ≤ hypothesis.confidence) →
    outcome.critiqueVerdict = some .accept → ∃ nodeName critiqued semantic,
      calls.getLast? = some (.critique nodeName critiqued (some semantic)) ∧
        List.Forall₂ (fun before after => after.confidence ≤ before.confidence) critiqued
          outcome.hypotheses

section Honesty

variable {settings : CritiqueSettings} {evidence : List EvidenceItem} {given : Hypotheses}
  {calls : List Call} {outcome : ReviewOutcome}

theorem citesOnly_nil (knownReferences : List String) : CitesOnly knownReferences [] := by
  intro hypothesis hmem
  exact absurd hmem List.not_mem_nil

theorem citesOnly_of_wellFormed {knownReferences : List String}
    {hypotheses : List RootCauseHypothesis}
    (h : ∀ hypothesis ∈ hypotheses, WellFormed knownReferences hypothesis) :
    CitesOnly knownReferences hypotheses :=
  fun hypothesis hmem => (h hypothesis hmem).known

/-- A penalty leaves the citations alone. -/
theorem citesOnly_of_lowered {knownReferences : List String}
    {critiqued lowered : List RootCauseHypothesis} (h : List.Forall₂ Lowered critiqued lowered)
    (hcited : CitesOnly knownReferences critiqued) : CitesOnly knownReferences lowered := by
  induction h with
  | nil => exact citesOnly_nil _
  | @cons before after critiqued lowered hone _ ih =>
    intro hypothesis hmem
    rcases List.mem_cons.mp hmem with rfl | hrest
    · rw [hone.cited]
      exact hcited before List.mem_cons_self
    · have htail : CitesOnly knownReferences critiqued := by
        intro other hother
        exact hcited other (List.mem_cons_of_mem _ hother)
      exact ih htail hypothesis hrest

/-! ## Exit by exit -/

theorem Ends.bounded (h : Ends settings evidence given calls outcome) : Bounded calls := by
  cases h with
  | notReviewed => exact ⟨by decide, by decide⟩
  | reviewed _ _ _ _ hend =>
    cases hend with
    | thin => exact ⟨Nat.zero_le 2, Nat.zero_le 1⟩
    | unavailable | rejected | accepted => exact ⟨Nat.le_succ 1, Nat.zero_le 1⟩
    | unrevised => exact ⟨Nat.le_succ 1, Nat.le_refl 1⟩
    | revised _ _ _ _ _ hrevised =>
      cases hrevised with
      | emptied | thin => exact ⟨Nat.le_succ 1, Nat.le_refl 1⟩
      | unavailable | rejected | accepted => exact ⟨Nat.le_refl 2, Nat.le_refl 1⟩

theorem Ends.verdict (h : Ends settings evidence given calls outcome) :
    (outcome.critiqueVerdict = some .accept ∨ outcome.critiqueVerdict = some .reject) ↔
      outcome.reviewStatus = .reviewed := by
  cases h with
  | notReviewed => simp [Investigation.notReviewed]
  | reviewed _ _ _ _ hend =>
    cases hend with
    | revised _ _ _ _ _ hrevised =>
      cases hrevised <;> simp [rejected, reviewFailed, accepted]
    | _ => simp [rejected, reviewFailed, accepted]

theorem Ends.rejection (h : Ends settings evidence given calls outcome)
    (hreject : outcome.critiqueVerdict = some .reject) :
    outcome.hypotheses = [] ∧ outcome.suggestedOwnerTeam = none := by
  cases h with
  | notReviewed => cases hreject
  | reviewed _ _ _ _ hend =>
    cases hend with
    | thin | rejected => exact ⟨rfl, rfl⟩
    | unavailable | accepted | unrevised => cases hreject
    | revised _ _ _ _ _ hrevised =>
      cases hrevised with
      | emptied | thin | rejected => exact ⟨rfl, rfl⟩
      | unavailable | accepted => cases hreject

theorem EndsRevised.count {issues1 : List String} {revised : Hypotheses}
    (h : EndsRevised settings evidence issues1 revised calls outcome) : outcome.revisionCount = 1 := by
  cases h <;> rfl

/-- The count is 1 where a revision came back, and 0 otherwise. -/
theorem Ends.revision (h : Ends settings evidence given calls outcome) :
    (outcome.revisionCount = 0 ∧ ∀ revised, Call.draft revisionNode (some revised) ∉ calls) ∨
      (outcome.revisionCount = 1 ∧ ∃ revised, Call.draft revisionNode (some revised) ∈ calls) := by
  cases h with
  | notReviewed => exact .inl ⟨rfl, by simp⟩
  | reviewed _ _ _ _ hend =>
    cases hend with
    | revised _ revised _ _ _ hrevised =>
      exact .inr ⟨hrevised.count, revised, by simp⟩
    | _ => exact .inl ⟨rfl, by simp⟩

theorem Ends.unreviewed (h : Ends settings evidence given calls outcome)
    (hstatus : outcome.reviewStatus = .notReviewed) :
    settings.enabled = false ∨ given.hypotheses = [] := by
  cases h with
  | notReviewed hskip => exact hskip
  | reviewed _ _ _ _ hend =>
    cases hend with
    | revised _ _ _ _ _ hrevised => cases hrevised <;> cases hstatus
    | _ => cases hstatus

theorem Ends.cited (h : Ends settings evidence given calls outcome)
    (hgiven : CitesOnly (references evidence) given.hypotheses) :
    CitesOnly (references evidence) outcome.hypotheses := by
  cases h with
  | notReviewed => exact hgiven
  | reviewed _ _ _ _ hend =>
    cases hend with
    | thin | rejected => exact citesOnly_nil _
    | unavailable | unrevised => exact hgiven
    | accepted _ _ hlowered => exact citesOnly_of_lowered hlowered hgiven
    | revised _ _ hwell _ _ hrevised =>
      have hdrafted := citesOnly_of_wellFormed hwell
      cases hrevised with
      | emptied | thin | rejected => exact citesOnly_nil _
      | unavailable => exact hdrafted
      | accepted _ _ _ hlowered => exact citesOnly_of_lowered hlowered hdrafted

/-- Where a review accepts, the last call criticised what it has lowered. A generated
confidence is not negative, and neither is one of a revision. -/
theorem Ends.criticised (h : Ends settings evidence given calls outcome)
    (haccept : outcome.critiqueVerdict = some .accept) : ∃ nodeName critiqued semantic,
      calls.getLast? = some (.critique nodeName critiqued (some semantic)) ∧
        List.Forall₂ Lowered critiqued outcome.hypotheses ∧
          ((∀ hypothesis ∈ given.hypotheses, 0 ≤ hypothesis.confidence) →
            ∀ hypothesis ∈ critiqued, 0 ≤ hypothesis.confidence) := by
  cases h with
  | notReviewed => cases haccept
  | reviewed _ _ _ _ hend =>
    cases hend with
    | thin | unavailable | rejected | unrevised => cases haccept
    | accepted semantic1 _ hlowered => exact ⟨_, _, semantic1, rfl, hlowered, id⟩
    | revised _ _ hwell _ _ hrevised =>
      cases hrevised with
      | emptied | thin | unavailable | rejected => cases haccept
      | accepted _ semantic2 _ hlowered =>
        exact ⟨_, _, semantic2, rfl, hlowered, fun _ hypothesis hmem => (hwell hypothesis hmem).nonneg⟩

theorem unraised_of_lowered {critiqued lowered : List RootCauseHypothesis}
    (h : List.Forall₂ Lowered critiqued lowered)
    (hnonneg : ∀ hypothesis ∈ critiqued, 0 ≤ hypothesis.confidence) :
    List.Forall₂ (fun before after => after.confidence ≤ before.confidence) critiqued lowered := by
  induction h with
  | nil => exact .nil
  | @cons before after critiqued lowered hone _ ih =>
    have hbefore := hnonneg before List.mem_cons_self
    refine .cons ?_ (ih fun other hother => hnonneg other (List.mem_cons_of_mem _ hother))
    exact le_of_le_of_eq hone.confidence (max_eq_right hbefore)

theorem Ends.honest (h : Ends settings evidence given calls outcome) :
    Honest settings evidence given calls outcome where
  verdict := h.verdict
  rejection := h.rejection
  count := by
    rcases h.revision with ⟨hzero, -⟩ | ⟨hone, -⟩
    · exact .inl hzero
    · exact .inr hone
  revision := by
    rcases h.revision with ⟨hzero, hnone⟩ | ⟨hone, hsome⟩
    · constructor
      · intro hcount
        rw [hzero] at hcount
        cases hcount
      · intro ⟨revised, hmem⟩
        exact absurd hmem (hnone revised)
    · exact ⟨fun _ => hsome, fun _ => hone⟩
  unreviewed := h.unreviewed
  cited := h.cited
  confidence := by
    intro haccept
    obtain ⟨nodeName, critiqued, semantic, hlast, hlowered, -⟩ := h.criticised haccept
    exact ⟨nodeName, critiqued, semantic, hlast, hlowered⟩
  unraised := by
    intro hgiven haccept
    obtain ⟨nodeName, critiqued, semantic, hlast, hlowered, hnonneg⟩ := h.criticised haccept
    exact ⟨nodeName, critiqued, semantic, hlast, unraised_of_lowered hlowered (hnonneg hgiven)⟩

end Honesty

/-! ## The claim of every run -/

/-- Whatever the model answers, the review returns, and its outcome is honest. -/
theorem review_returns_honest (settings : CritiqueSettings) (model : Model) (query : String)
    (evidence : List EvidenceItem) (given : Hypotheses) (talk : Talk) :
    ∃ outcome talk' calls,
      (reviewInvestigation settings model query evidence given).Returns talk outcome talk' ∧
        talk'.calls = talk.calls ++ calls ∧ Bounded calls ∧
        talk'.exchanges.length ≤ talk.exchanges.length + (maxRetries + 1) * calls.length ∧
        Honest settings evidence given calls outcome := by
  obtain ⟨outcome, talk', calls, hrun, hend⟩ := reviewInvestigation_ends settings evidence model query
    given talk
  exact ⟨outcome, talk', calls, hrun.returns, hrun.recorded, hend.bounded, hrun.asked, hend.honest⟩

/-! ### A negative confidence -/

def acceptingText : Text :=
  "\x7b\"verdict\": \"accept\", \"unsupported_hypothesis_indices\": [0]\x7d".toList

/-- It always accepts, and finds the first hypothesis unsupported. -/
def acceptingModel : Model where
  ainvoke _ _ := .ok acceptingText
  loads _ := .ok (.dict [("verdict", .str "accept"),
    ("unsupported_hypothesis_indices", .list [.int 0])])
  isoformat _ := ""

def logLine (reference : String) : EvidenceItem :=
  { source := .monitoring, reference, summary := "", retrievedAt := 0 }

def negativeGuess : Hypotheses :=
  { hypotheses := [⟨"disk full", -1, ["a"]⟩], suggestedOwnerTeam := none, suggestedNextSteps := [] }

/-- The penalty is cut off at 0, which is more than there was. -/
theorem penalty_raises_negative :
    ((reviewInvestigation {} acceptingModel "" [logLine "a", logLine "b"] negativeGuess {}).1
      |>.toOption.map fun outcome =>
        (outcome.critiqueVerdict, outcome.hypotheses.map RootCauseHypothesis.confidence)) =
      some (some .accept, [0]) ∧
    ∀ hypothesis ∈ negativeGuess.hypotheses, hypothesis.confidence < 0 := by
  decide +kernel

end Ekip.Agents.Investigation
