import Ekip.Agents.Answer.Node
import Ekip.Agents.Investigation.Node
import Ekip.Lib.Json
import Ekip.Lib.Retry

/-!
# The Investigation Agent and its language model

What is asked and answered, under the retries of `agents/retry.py`. The model may
answer anything or fail, and each answer may depend on all that was said before.
-/
namespace Ekip.Agents.Investigation

open Ekip.Lib Ekip.Database Ekip.Shared

/-! ## Prompts -/

/-- The fixed instructions of a prompt, and what is inserted into them. -/
inductive Instructions
  | hypotheses (critiqueFeedback : Option String)
  | critique (structuralIssues : List String)

structure Prompt where
  instructions : Instructions
  evidenceBlock : String
  task : String

/-- An answer, or the text of what the call raised. -/
structure Exchange where
  prompt : Prompt
  reply : Except String Text

/-- The language model, and what is used of the standard library. -/
structure Model where
  ainvoke : List Exchange → Prompt → Except String Text
  loads : Text → Except LoadsError JsonValue
  isoformat : Instant → String

/-! ## What is raised, and caught -/

inductive CritiqueProblem
  | notJson (rawText : Text)
  | invalidVerdict
  | indicesNotList

inductive StepExn
  | model (text : String)
  | recursionError
  | overflowError
  | valueError
  | hypothesisParsing (rawText : Text)
  | critiqueParsing (problem : CritiqueProblem)

/-! ## The conversation -/

structure ContradictionNote where
  evidenceIds : List String
  detail : String
deriving DecidableEq

structure SemanticCritiqueResult where
  verdict : CritiqueVerdict
  unsupportedHypothesisIndices : List Nat := []
  contradictoryEvidence : List ContradictionNote := []
  revisionGuidance : Option String := none

/-- A use of `call_with_retry`: under which name, on what, and what it returned. -/
inductive Call
  | draft (nodeName : String) (returned : Option Hypotheses)
  | critique (nodeName : String) (hypotheses : List RootCauseHypothesis)
      (returned : Option SemanticCritiqueResult)

/-- Nothing in the code reads `calls`. -/
structure Talk where
  exchanges : List Exchange := []
  retryCount : Dict String Nat := ∅
  calls : List Call := []

abbrev Step (α : Type) := Service StepExn Talk α

variable (model : Model)

def ainvoke (prompt : Prompt) : Step Text := fun talk =>
  let reply := model.ainvoke talk.exchanges prompt
  (reply.mapError .model, { talk with exchanges := talk.exchanges ++ [⟨prompt, reply⟩] })

def Talk.countRetry (nodeName : String) (attempts : Nat) (talk : Talk) : Talk :=
  { talk with retryCount := talk.retryCount.insert nodeName attempts }

def Talk.record (talk : Talk) (call : Call) : Talk := { talk with calls := talk.calls ++ [call] }

/-- The step is tried again whatever it raised. -/
def Talk.callWithRetry {α : Type} (nodeName : String) (call : Option α → Call) (operation : Step α) :
    Step α := fun talk =>
  let outcome := Service.retry (fun _ => true) (Talk.countRetry nodeName) (fun _ => operation) 0
    maxRetries talk
  (outcome.1, outcome.2.record (call outcome.1.toOption))

/-! ## Reading an answer -/

/-- `text.strip("`")`. -/
def stripBackticks (text : Text) : Text :=
  (text.dropWhile fun c => c = '`').rdropWhile fun c => c = '`'

/-- A code fence around the answer is passed over, with its language. -/
def unfence (text : Text) : Text :=
  if Answer.startsWith text "```" then
    let inner := Text.strip (stripBackticks text)
    if Answer.startsWith (Text.lower inner) "json" then Text.strip (inner.drop "json".length)
    else inner
  else text

/-- `none` for what is no JSON object. -/
def parseResponse (rawText : Text) : Except StepExn (Option (List (String × JsonValue))) :=
  match model.loads (unfence (Text.strip rawText)) with
  | .ok (.dict entries) => .ok (some entries)
  | .ok _ | .error .valueError => .ok none
  | .error .recursionError => .error .recursionError

/-- `[ref for ref in raw_ids if isinstance(ref, str) and ref in known_references]`. -/
def realIds (knownReferences : List String) (rawIds : List JsonValue) : List String :=
  rawIds.filterMap fun raw => match raw with
    | .str reference => if reference ∈ knownReferences then some reference else none
    | _ => none

def references (evidence : List EvidenceItem) : List String :=
  evidence.map EvidenceItem.reference

theorem mem_realIds {knownReferences : List String} {rawIds : List JsonValue} {reference : String}
    (h : reference ∈ realIds knownReferences rawIds) : reference ∈ knownReferences := by
  obtain ⟨raw, -, hraw⟩ := List.mem_filterMap.mp h
  cases raw with
  | str text =>
    by_cases hknown : text ∈ knownReferences
    · have heq : some text = some reference := (if_pos hknown).symm.trans hraw
      obtain rfl := Option.some.inj heq
      exact hknown
    · have heq : none = some reference := (if_neg hknown).symm.trans hraw
      cases heq
  | _ => cases hraw

/-! ## What a step does to the conversation -/

/-- A step that asks one question and then reads the answer. -/
def ask {α : Type} (prompt : Prompt) (read : Text → Except StepExn α) : Step α := do
  let response ← ainvoke model prompt
  Service.ofExcept (read response)

section Talk

variable {model} {α : Type} {prompt : Prompt} {read : Text → Except StepExn α}

theorem ask_end (talk : Talk) :
    (ask model prompt read talk).2 =
      { talk with exchanges :=
          talk.exchanges ++ [⟨prompt, model.ainvoke talk.exchanges prompt⟩] } := by
  unfold ask
  cases hreply : model.ainvoke talk.exchanges prompt with
  | error e =>
    have hasked : ainvoke model prompt talk = (.error (.model e), { talk with exchanges :=
        talk.exchanges ++ [⟨prompt, .error e⟩] }) := by
      unfold ainvoke
      rw [hreply]
      rfl
    rw [Service.bind_of_error hasked]
  | ok response =>
    have hasked : ainvoke model prompt talk = (.ok response, { talk with exchanges :=
        talk.exchanges ++ [⟨prompt, .ok response⟩] }) := by
      unfold ainvoke
      rw [hreply]
      rfl
    rw [Service.bind_of_ok hasked]
    rfl

theorem ask_returns {talk talk' : Talk} {a : α} (h : (ask model prompt read).Returns talk a talk') :
    ∃ response, read response = .ok a := by
  obtain ⟨response, u, -, hread⟩ := Service.bind_returns.mp h
  exact ⟨response, (Service.ofExcept_returns.mp hread).1⟩

variable {nodeName : String} {call : Option α → Call} {talk talk' : Talk}

/-- Each use of `call_with_retry` is recorded once, with what it returned. -/
theorem callWithRetry_calls :
    (Talk.callWithRetry nodeName call (ask model prompt read) talk).2.calls =
      talk.calls ++
        [call (Talk.callWithRetry nodeName call (ask model prompt read) talk).1.toOption] := by
  have hask : ∀ (k : Nat) talk, (ask model prompt read talk).2.calls = talk.calls := by
    intro _ talk
    rw [ask_end]
  have hkept := Service.retry_keeps (fun _ => true) (Talk.countRetry nodeName)
    (fun _ => ask model prompt read) Talk.calls hask (fun _ _ => rfl) 0 maxRetries talk
  show _ ++ [_] = _
  rw [hkept]
  rfl

/-- No more than `_MAX_RETRIES + 1` questions. -/
theorem callWithRetry_exchanges :
    (Talk.callWithRetry nodeName call (ask model prompt read) talk).2.exchanges.length ≤
      talk.exchanges.length + (maxRetries + 1) := by
  have hask : ∀ (k : Nat) talk,
      (ask model prompt read talk).2.exchanges.length ≤ talk.exchanges.length + 1 := by
    intro _ talk
    rw [ask_end]
    simp
  have hcost := Service.retry_cost (fun _ => true) (Talk.countRetry nodeName)
    (fun _ => ask model prompt read) (fun talk : Talk => talk.exchanges.length) 1 hask
    (fun _ _ => rfl) 0 maxRetries talk
  rw [Nat.mul_one] at hcost
  exact hcost

theorem callWithRetry_returns {a : α}
    (h : (Talk.callWithRetry nodeName call (ask model prompt read)).Returns talk a talk') :
    ∃ response, read response = .ok a := by
  have hfirst : (Service.retry (fun _ => true) (Talk.countRetry nodeName)
      (fun _ => ask model prompt read) 0 maxRetries talk).1 = .ok a := congrArg Prod.fst h
  obtain ⟨k, u, hone⟩ := Service.retry_returns (show Service.Returns _ talk a _ from
    Prod.ext hfirst rfl)
  exact ask_returns hone

end Talk

end Ekip.Agents.Investigation

/-!
## Hypothesis generation: `agents/investigation/hypothesis.py`

What the model answers is kept as far as it is well formed and cites evidence that it
was given.
-/
namespace Ekip.Agents.Investigation

open Ekip.Lib Ekip.Database Ekip.Shared

def EvidenceSource.value : EvidenceSource → String
  | .github => "github"
  | .pullRequest => "pull_request"
  | .commit => "commit"
  | .issue => "issue"
  | .slack => "slack"
  | .jira => "jira"
  | .deployment => "deployment"
  | .postmortem => "postmortem"
  | .monitoring => "monitoring"
  | .runbook => "runbook"

variable (model : Model)

/-! ## The prompt -/

/-- `sorted(item.metadata.items())`, as `key=value`. -/
def metadataFacts (item : EvidenceItem) : List String :=
  let items := item.metadata.entries.map fun entry => (entry.1, entry.2)
  (items.insertionSort fun a b => a.1 ≤ b.1).map fun fact => s!"{fact.1}={fact.2}"

def formatEvidenceLine (item : EvidenceItem) : String :=
  let timestamp := match item.sourceTimestamp with
    | none => ""
    | some instant => s!", {model.isoformat instant}"
  let header := s!"[{item.reference}] ({EvidenceSource.value item.source}{timestamp}): {item.summary}"
  if item.metadata.entries.isEmpty then header
  else header ++ "\n  [" ++ ", ".intercalate (metadataFacts item) ++ "]"

def buildEvidenceBlock (evidence : List EvidenceItem) : String :=
  "\n\n".intercalate (evidence.map (formatEvidenceLine model))

/-! ## `_validate_hypotheses` -/

def isBlank (text : String) : Bool := Text.strip text.toList = []

def stripped (text : String) : String := String.ofList (Text.strip text.toList)

/-- A confidence that is a number, as `float` makes it; `none` for anything else. -/
def confidenceOf : Option JsonValue → Option (Except StepExn Rat)
  | some (.int n) => some (((FloatValue.ofInt n).map FloatValue.clamp).elim (.error .overflowError) .ok)
  | some (.float x) => some (.ok x.clamp)
  | _ => none

/-- One hypothesis of the answer; `none` where it is dropped. -/
def validateHypothesis (knownReferences : List String) :
    JsonValue → Except StepExn (Option RootCauseHypothesis)
  | .dict raw =>
    match raw.lookup "description", confidenceOf (raw.lookup "confidence"),
        raw.lookup "supporting_evidence_ids" with
    | some (.str description), some confidence, some (.list rawIds) =>
      let ids := realIds knownReferences rawIds
      if isBlank description ∨ ids = [] then .ok none
      else confidence.map fun confidence => some
        { description := stripped description
          confidence
          supportingEvidenceIds := ids }
    | _, _, _ => .ok none
  | _ => .ok none

def validateItems (knownReferences : List String) :
    List JsonValue → Except StepExn (List RootCauseHypothesis)
  | [] => .ok []
  | raw :: rest => do
    let hypothesis ← validateHypothesis knownReferences raw
    let others ← validateItems knownReferences rest
    pure (hypothesis.toList ++ others)

def validateHypotheses (rawHypotheses : JsonValue) (knownReferences : List String) :
    Except StepExn (List RootCauseHypothesis) :=
  match rawHypotheses with
  | .list items => validateItems knownReferences items
  | _ => .ok []

/-! ## `generate_hypotheses` -/

def ownerTeam : Option JsonValue → Option String
  | some (.str team) => if isBlank team then none else some team
  | _ => none

def nextSteps : Option JsonValue → List String
  | some (.list steps) => steps.filterMap fun step => match step with
      | .str text => if isBlank text then none else some text
      | _ => none
  | _ => []

/-- What an answer is read as. -/
def readHypotheses (evidence : List EvidenceItem) (response : Text) :
    Except StepExn Hypotheses := do
  let parsed ← parseResponse model (Text.strip response)
  match parsed with
  | none => .error (.hypothesisParsing ((Text.strip response).take 200))
  | some parsed => do
    let hypotheses ← validateHypotheses ((parsed.lookup "hypotheses").getD (.list []))
      (references evidence)
    pure
      { hypotheses
        suggestedOwnerTeam := ownerTeam (parsed.lookup "suggested_owner_team")
        suggestedNextSteps := nextSteps (parsed.lookup "suggested_next_steps") }

def generateHypotheses (query : String) (evidence : List EvidenceItem)
    (critiqueFeedback : Option String) : Step Hypotheses :=
  ask model
    { instructions := .hypotheses (critiqueFeedback.filter fun feedback => feedback ≠ "")
      evidenceBlock := buildEvidenceBlock model evidence
      task := s!"Incident: {query}" }
    (readHypotheses model evidence)

/-! ## What is kept of an answer -/

/-- A hypothesis as `generate_hypotheses` makes it. -/
structure WellFormed (knownReferences : List String) (hypothesis : RootCauseHypothesis) : Prop where
  nonneg : 0 ≤ hypothesis.confidence
  le_one : hypothesis.confidence ≤ 1
  cited : hypothesis.supportingEvidenceIds ≠ []
  known : ∀ id ∈ hypothesis.supportingEvidenceIds, id ∈ knownReferences

section Kept

variable {model} {knownReferences : List String}

theorem confidenceOf_bounds {raw : Option JsonValue} {confidence : Rat}
    (h : confidenceOf raw = some (.ok confidence)) : 0 ≤ confidence ∧ confidence ≤ 1 := by
  have hclamp : ∀ x : FloatValue, x.clamp = confidence → 0 ≤ confidence ∧ confidence ≤ 1 := by
    intro x hx
    rw [← hx]
    exact ⟨x.clamp_nonneg, x.clamp_le_one⟩
  cases raw with
  | none => cases h
  | some value =>
    cases value with
    | int n =>
      cases hfloat : FloatValue.ofInt n with
      | none => simp [confidenceOf, hfloat] at h
      | some x => exact hclamp x (by simpa [confidenceOf, hfloat] using h)
    | float x => exact hclamp x (by simpa [confidenceOf] using h)
    | _ => cases h

theorem validateHypothesis_wellFormed {raw : JsonValue} {hypothesis : RootCauseHypothesis}
    (h : validateHypothesis knownReferences raw = .ok (some hypothesis)) :
    WellFormed knownReferences hypothesis := by
  unfold validateHypothesis at h
  split at h
  · split at h
    · rename_i confidence rawIds _ hconfidence _
      dsimp only at h
      split at h
      · cases h
      · rename_i hkept
        cases confidence with
        | error e => cases h
        | ok confidence =>
          obtain rfl := Option.some.inj (Except.ok.inj h)
          have hbounds := confidenceOf_bounds hconfidence
          exact
            { nonneg := hbounds.1
              le_one := hbounds.2
              cited := fun hnone => hkept (.inr hnone)
              known := fun id hid => mem_realIds hid }
    · cases h
  · cases h

theorem validateItems_wellFormed {items : List JsonValue} {hypotheses : List RootCauseHypothesis}
    (h : validateItems knownReferences items = .ok hypotheses) :
    ∀ hypothesis ∈ hypotheses, WellFormed knownReferences hypothesis := by
  induction items generalizing hypotheses with
  | nil =>
    obtain rfl := Except.ok.inj h
    intro hypothesis hmem
    exact absurd hmem List.not_mem_nil
  | cons raw rest ih =>
    unfold validateItems at h
    cases hone : validateHypothesis knownReferences raw with
    | error e =>
      rw [hone] at h
      cases h
    | ok kept =>
      cases hrest : validateItems knownReferences rest with
      | error e =>
        rw [hone, hrest] at h
        cases h
      | ok others =>
        rw [hone, hrest] at h
        obtain rfl := Except.ok.inj h
        intro hypothesis hmem
        rcases List.mem_append.mp hmem with hfirst | hother
        · have hkept : kept = some hypothesis := Option.mem_toList.mp hfirst
          rw [hkept] at hone
          exact validateHypothesis_wellFormed hone
        · exact ih hrest hypothesis hother

theorem validateHypotheses_wellFormed {raw : JsonValue} {hypotheses : List RootCauseHypothesis}
    (h : validateHypotheses raw knownReferences = .ok hypotheses) :
    ∀ hypothesis ∈ hypotheses, WellFormed knownReferences hypothesis := by
  unfold validateHypotheses at h
  split at h
  · exact validateItems_wellFormed h
  · obtain rfl := Except.ok.inj h
    intro hypothesis hmem
    exact absurd hmem List.not_mem_nil

/-- Whatever the model answers. -/
theorem readHypotheses_wellFormed {evidence : List EvidenceItem} {response : Text}
    {generated : Hypotheses} (h : readHypotheses model evidence response = .ok generated) :
    ∀ hypothesis ∈ generated.hypotheses, WellFormed (references evidence) hypothesis := by
  unfold readHypotheses at h
  cases hparsed : parseResponse model (Text.strip response) with
  | error e =>
    rw [hparsed] at h
    cases h
  | ok parsed =>
    rw [hparsed] at h
    cases parsed with
    | none => cases h
    | some parsed =>
      cases hvalid : validateHypotheses ((parsed.lookup "hypotheses").getD (.list []))
          (references evidence) with
      | error e =>
        simp only [bind, Except.bind, hvalid] at h
        cases h
      | ok hypotheses =>
        simp only [bind, Except.bind, hvalid] at h
        obtain rfl := Except.ok.inj h
        exact validateHypotheses_wellFormed hvalid

end Kept

end Ekip.Agents.Investigation
