import Mathlib.Tactic.NormNum
import Ekip.Agents.Investigation.Hypothesis

/-!
# The critique of hypotheses: `agents/investigation/critique.py`

Two checks of the code itself, two questions to the model, and at most one revision.
-/
namespace Ekip.Agents.Investigation

open Ekip.Lib Ekip.Database Ekip.Shared Ekip.Core

/-- The default threshold passes its own check. -/
theorem defaultThreshold_nonneg : (0 : Rat) ≤ 3 / 4 := by norm_num

theorem defaultThreshold_le_one : (3 / 4 : Rat) ≤ 1 := by norm_num

structure CritiqueSettings where
  enabled : Bool := true
  minEvidenceCount : Nat := 2
  overconfidenceThreshold : Rat := 3 / 4
  minEvidencePerHypothesis : Nat := 2
  threshold_nonneg : 0 ≤ overconfidenceThreshold := by exact defaultThreshold_nonneg
  threshold_le_one : overconfidenceThreshold ≤ 1 := by exact defaultThreshold_le_one
  one_le_perHypothesis : 1 ≤ minEvidencePerHypothesis := by decide

def overconfidencePenalty : Rat := 2 / 10

def unsupportedClaimPenalty : Rat := 3 / 10

def maxRevisionGuidanceChars : Nat := 500

def rejectedNextSteps : List String :=
  ["Automated critique found the generated hypothesis/hypotheses insufficiently supported by the " ++
    "available evidence. Recommend manual investigation of the evidence listed below."]

variable (settings : CritiqueSettings) (model : Model)

/-! ## Structural validation -/

def overconfidentTagPrefix : String := "overconfidence:hypothesis_"

def overconfidenceTag (index : Nat) : String := overconfidentTagPrefix ++ toString index

def unsupportedClaimTag (index : Nat) : String :=
  "unsupported_claim:hypothesis_" ++ toString index

/-- A high confidence with few citations. -/
def isOverconfident (hypothesis : RootCauseHypothesis) : Bool :=
  settings.overconfidenceThreshold ≤ hypothesis.confidence ∧
    hypothesis.supportingEvidenceIds.length < settings.minEvidencePerHypothesis

def validateStructurally (hypotheses : List RootCauseHypothesis) (evidence : List EvidenceItem) :
    List String :=
  (if evidence.length < settings.minEvidenceCount then ["insufficient_information"] else []) ++
    hypotheses.zipIdx.filterMap fun entry =>
      if isOverconfident settings entry.1 then some (overconfidenceTag entry.2) else none

def forcedVerdict (structuralIssues : List String) (hypothesisCount : Nat) :
    Option CritiqueVerdict :=
  if "insufficient_information" ∈ structuralIssues ∨ hypothesisCount = 0 then some .reject else none

/-! ## Semantic critique -/

/-- `{:.2f}`: from the middle, to the even neighbour. -/
def twoDecimals (confidence : Rat) : String :=
  let scaled := |confidence| * 100
  let below := scaled.floor.toNat
  let rest := scaled - below
  let nearest :=
    if rest < 1 / 2 ∨ (rest = 1 / 2 ∧ below % 2 = 0) then below else below + 1
  let cents := nearest % 100
  let sign := if confidence < 0 then "-" else ""
  let pad := if cents < 10 then "0" else ""
  s!"{sign}{nearest / 100}.{pad}{cents}"

def formatHypothesis (index : Nat) (hypothesis : RootCauseHypothesis) : String :=
  let cited := ", ".intercalate hypothesis.supportingEvidenceIds
  s!"Hypothesis {index}: {hypothesis.description}\n" ++
    s!"  self-reported confidence: {twoDecimals hypothesis.confidence}\n  cites: [{cited}]"

def buildHypothesisBlock (hypotheses : List RootCauseHypothesis) : String :=
  "\n\n".intercalate (hypotheses.zipIdx.map fun entry => formatHypothesis entry.2 entry.1)

namespace Critique

def buildEvidenceBlock (evidence : List EvidenceItem) : String :=
  "\n\n".intercalate (evidence.map fun item =>
    s!"[{item.reference}] ({EvidenceSource.value item.source}): {item.summary}")

end Critique

def verdictOf : Option JsonValue → Option CritiqueVerdict
  | some (.str "accept") => some .accept
  | some (.str "revise") => some .revise
  | some (.str "reject") => some .reject
  | _ => none

/-- `isinstance(i, int) and not isinstance(i, bool) and i >= 0`. -/
def index? : JsonValue → Option Nat
  | .int n => if 0 ≤ n then some n.toNat else none
  | _ => none

def filterContradiction (knownEvidenceIds : List String) : JsonValue → Option ContradictionNote
  | .dict entry =>
    match entry.lookup "evidence_ids", entry.lookup "detail" with
    | some (.list rawIds), some (.str detail) =>
      let ids := realIds knownEvidenceIds rawIds
      if isBlank detail ∨ ids.length < 2 then none
      else some { evidenceIds := ids, detail := stripped detail }
    | _, _ => none
  | _ => none

def filterContradictions (raw : JsonValue) (knownEvidenceIds : List String) :
    List ContradictionNote :=
  match raw with
  | .list entries => entries.filterMap (filterContradiction knownEvidenceIds)
  | _ => []

def guidanceOf : Option JsonValue → Option String
  | some (.str guidance) =>
    if isBlank guidance then none
    else some (String.ofList ((Text.strip guidance.toList).take maxRevisionGuidanceChars))
  | _ => none

/-- What is malformed is never an acceptance. -/
def validateCritiqueResult (parsed : List (String × JsonValue)) (knownEvidenceIds : List String) :
    Except StepExn SemanticCritiqueResult :=
  match verdictOf (parsed.lookup "verdict") with
  | none => .error (.critiqueParsing .invalidVerdict)
  | some verdict =>
    match (parsed.lookup "unsupported_hypothesis_indices").getD (.list []) with
    | .list rawIndices => .ok
        { verdict
          unsupportedHypothesisIndices := rawIndices.filterMap index?
          contradictoryEvidence := filterContradictions
            ((parsed.lookup "contradictory_evidence").getD (.list [])) knownEvidenceIds
          revisionGuidance := guidanceOf (parsed.lookup "revision_guidance") }
    | _ => .error (.critiqueParsing .indicesNotList)

def readCritique (evidence : List EvidenceItem) (response : Text) :
    Except StepExn SemanticCritiqueResult := do
  let parsed ← parseResponse model (Text.strip response)
  match parsed with
  | none => .error (.critiqueParsing (.notJson ((Text.strip response).take 200)))
  | some parsed => validateCritiqueResult parsed (references evidence)

def runSemanticCritiqueCall (query : String) (hypotheses : List RootCauseHypothesis)
    (evidence : List EvidenceItem) (structuralIssues : List String) : Step SemanticCritiqueResult :=
  ask model
    { instructions := .critique structuralIssues
      evidenceBlock :=
        s!"{buildHypothesisBlock hypotheses}\n\n---\n\n{Critique.buildEvidenceBlock evidence}"
      task := s!"Incident: {query}" }
    (readCritique model evidence)

/-- `none` on failure. -/
def runSemanticCritique (nodeName query : String) (hypotheses : List RootCauseHypothesis)
    (evidence : List EvidenceItem) (structuralIssues : List String) :
    Step (Option SemanticCritiqueResult) := do
  let outcome ← Service.attempt (Talk.callWithRetry nodeName (.critique nodeName hypotheses)
    (runSemanticCritiqueCall model query hypotheses evidence structuralIssues))
  pure outcome.toOption

/-! ## Penalties and tags -/

/-- `int(...)`, of decimal digits; a position has few. -/
def parseIndex (digits : Text) : Except StepExn Nat :=
  if digits ≠ [] ∧ digits.all Text.isDecimal then .ok (Text.natOf digits) else .error .valueError

def overconfidentIndices : List String → Except StepExn (List Nat)
  | [] => .ok []
  | tag :: tags =>
    if Answer.startsWith tag.toList overconfidentTagPrefix then do
      let index ← parseIndex (tag.toList.drop overconfidentTagPrefix.length)
      let indices ← overconfidentIndices tags
      pure (index :: indices)
    else overconfidentIndices tags

def penalize (penalty : Rat) (hypothesis : RootCauseHypothesis) : RootCauseHypothesis :=
  if penalty = 0 then hypothesis
  else { hypothesis with confidence := max 0 (hypothesis.confidence - penalty) }

def penaltyAt (overconfident unsupported : List Nat) (index : Nat) : Rat :=
  (if index ∈ overconfident then overconfidencePenalty else 0) +
    (if index ∈ unsupported then unsupportedClaimPenalty else 0)

def applyPenalties (hypotheses : List RootCauseHypothesis) (structuralIssues : List String)
    (semantic : SemanticCritiqueResult) : Except StepExn (List RootCauseHypothesis) := do
  let overconfident ← overconfidentIndices structuralIssues
  pure (hypotheses.zipIdx.map fun entry =>
    penalize (penaltyAt overconfident semantic.unsupportedHypothesisIndices entry.2) entry.1)

def issueTags (structuralIssues : List String) (semantic : SemanticCritiqueResult) : List String :=
  structuralIssues ++ semantic.unsupportedHypothesisIndices.map unsupportedClaimTag ++
    if semantic.contradictoryEvidence = [] then [] else ["contradictory_evidence"]

/-! ## The outcome -/

def rejected (issues : List String) (revisionCount : Nat) : ReviewOutcome :=
  { hypotheses := []
    suggestedOwnerTeam := none
    suggestedNextSteps := rejectedNextSteps
    reviewStatus := .reviewed
    critiqueVerdict := some .reject
    revisionCount
    critiqueIssues := issues }

/-- The critique or the revision could not be had. -/
def reviewFailed (shown : Hypotheses) (verdict : Option CritiqueVerdict) (revisionCount : Nat)
    (issues : List String) : ReviewOutcome :=
  { shown with
    reviewStatus := .reviewFailed
    critiqueVerdict := verdict
    revisionCount
    critiqueIssues := issues }

def accepted (shown : Hypotheses) (hypotheses : List RootCauseHypothesis) (revisionCount : Nat)
    (issues : List String) : ReviewOutcome :=
  { shown with
    hypotheses
    reviewStatus := .reviewed
    critiqueVerdict := some .accept
    revisionCount
    critiqueIssues := issues }

def notReviewed (shown : Hypotheses) : ReviewOutcome :=
  { shown with
    reviewStatus := .notReviewed
    critiqueVerdict := none
    revisionCount := 0
    critiqueIssues := [] }

def critiqueNode : String := "investigation_agent.critique"

def revisionNode : String := "investigation_agent.revision"

def critiqueRevisionNode : String := "investigation_agent.critique_revision"

variable (query : String) (evidence : List EvidenceItem)

/-- Pass 2 of `review_investigation`, on what the revision returned. A second "revise" is
a rejection. -/
def reviewRevised (issues1 : List String) (revised : Hypotheses) : Step ReviewOutcome :=
  if revised.hypotheses = [] then
    pure (rejected (issues1 ++ ["revision_produced_no_hypotheses"]) 1)
  else
    let structural2 := validateStructurally settings revised.hypotheses evidence
    if forcedVerdict structural2 revised.hypotheses.length = some .reject then
      pure (rejected (issues1 ++ structural2) 1)
    else do
      let semantic2 ← runSemanticCritique model critiqueRevisionNode query revised.hypotheses
        evidence structural2
      match semantic2 with
      | none => pure (reviewFailed revised (some .revise) 1 (issues1 ++ structural2))
      | some semantic2 =>
        let issues2 := issueTags structural2 semantic2 ++ issues1
        match semantic2.verdict with
        | .revise | .reject => pure (rejected issues2 1)
        | .accept => do
          let hypotheses ← Service.ofExcept
            (applyPenalties revised.hypotheses structural2 semantic2)
          pure (accepted revised hypotheses 1 issues2)

/-- The one bounded revision attempt of `review_investigation`. -/
def reviseOnce (given : Hypotheses) (issues1 : List String) (guidance : Option String) :
    Step ReviewOutcome := do
  let revised ← Service.attempt (Talk.callWithRetry revisionNode (.draft revisionNode)
    (generateHypotheses model query evidence guidance))
  match revised with
  | .error _ => pure (reviewFailed given (some .revise) 0 issues1)
  | .ok revised => reviewRevised settings model query evidence issues1 revised

def reviewInvestigation (given : Hypotheses) : Step ReviewOutcome :=
  if settings.enabled = false ∨ given.hypotheses = [] then pure (notReviewed given)
  else
    let structural1 := validateStructurally settings given.hypotheses evidence
    if forcedVerdict structural1 given.hypotheses.length = some .reject then
      pure (rejected structural1 0)
    else do
      let semantic1 ← runSemanticCritique model critiqueNode query given.hypotheses evidence
        structural1
      match semantic1 with
      | none => pure (reviewFailed given none 0 structural1)
      | some semantic1 =>
        let issues1 := issueTags structural1 semantic1
        match semantic1.verdict with
        | .reject => pure (rejected issues1 0)
        | .accept => do
          let hypotheses ← Service.ofExcept
            (applyPenalties given.hypotheses structural1 semantic1)
          pure (accepted given hypotheses 0 issues1)
        | .revise =>
          reviseOnce settings model query evidence given issues1 semantic1.revisionGuidance

end Ekip.Agents.Investigation
