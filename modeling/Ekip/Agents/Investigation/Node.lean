import Ekip.Agents.Retrieval.Node
import Ekip.Core.Tenancy.Connectors

/-!
# The Investigation Agent node

`agents/investigation/evidence.py` and `agents/investigation/node.py`, statement by
statement, with the faults of its awaits and what they leave of the session. A source
that fails for good contributes nothing, and so does the timeline entry that cannot be
written. The chunks that make evidence are chosen as in the module on gathering evidence,
which follows, without faults of the session, what items are made of them.
-/
namespace Ekip.Agents.Investigation

open Ekip.Lib Ekip.Database Ekip.Shared Ekip.Core

variable {ε κ τ ω : Type}

/-- The columns of a connector that live evidence looks at. -/
structure LiveConnector where
  id : Uuid
  source : Tenancy.ConnectorSource
  status : String

structure Hypotheses where
  hypotheses : List RootCauseHypothesis
  suggestedOwnerTeam : Option String
  suggestedNextSteps : List String

structure ReviewOutcome extends Hypotheses where
  reviewStatus : ReviewStatus
  critiqueVerdict : Option CritiqueVerdict
  revisionCount : Nat
  critiqueIssues : List String

/-- What the node calls outside the database, and the pure helpers whose result no
statement depends on. -/
structure Env (ε κ τ ω : Type) where
  engine : Retrieval.Engine ε τ ω
  /-- By the name of the source, the attempt and the collection. -/
  embedQuery : String → Nat → CollectionName → String → Except Exn ε
  chunkToEvidence : Retrieval.ScoredChunk ω → Option EvidenceSource → EvidenceItem
  postmortemCreatedAt : Postmortem → Instant
  /-- Without those that the evidence has as runbooks. -/
  postmortemEvidence : List Postmortem → List EvidenceItem → List EvidenceItem
  /-- The setting, and `_should_augment_with_live_evidence`. -/
  augmentsWithLive : List EvidenceItem → Option Uuid → Bool
  connectors : κ → Uuid → List LiveConnector
  /-- What a live source answers after the retries; some connectors have none. -/
  live : LiveConnector → Option (String → Except Exn (List EvidenceItem))
  /-- The model's hypotheses, after the retries. -/
  generateHypotheses : String → List EvidenceItem → Except Exn Hypotheses
  reviewInvestigation : String → List EvidenceItem → Hypotheses → ReviewOutcome

variable (env : Env ε κ τ ω) (faults : Faults AgentExn)

/-! ## Evidence -/

def searchSource (name : String) (attempt : Nat) (query : String) (actor : Identity)
    (collection : CollectionName) (includeMetadata : Bool) :
    NodeM ε κ (List (Retrieval.ScoredChunk ω)) :=
  searchOne env.engine faults (env.embedQuery name attempt collection query) query
    (actorFilters actor) perSourceTopK collection includeMetadata

def searchCodeAndDocumentation (attempt : Nat) (query : String) (actor : Identity) :
    NodeM ε κ (List (Retrieval.ScoredChunk ω) × List (Retrieval.ScoredChunk ω)) := do
  let codeChunks ← searchSource env faults "investigation_agent.evidence.code" attempt query actor
    .code true
  let docChunks ← searchSource env faults "investigation_agent.evidence.code" attempt query actor
    .documentation true
  pure (codeChunks, docChunks)

def gatherCodeEvidence (query : String) (actor : Identity) : NodeM ε κ (List EvidenceItem) :=
  orFallback [] do
    let found ← callWithRetry fun attempt =>
      searchCodeAndDocumentation env faults attempt query actor
    pure ((combined env.engine.le found).map fun chunk => env.chunkToEvidence chunk none)

def gatherKnowledgeEvidence (query : String) (actor : Identity) : NodeM ε κ (List EvidenceItem) :=
  orFallback [] do
    let chunks ← callWithRetry fun attempt =>
      searchSource env faults "investigation_agent.evidence.knowledge" attempt query actor
        .documentation true
    pure ((runbooks chunks).map fun chunk => env.chunkToEvidence chunk (some .runbook))

def gatherSlackEvidence (query : String) (actor : Identity) : NodeM ε κ (List EvidenceItem) :=
  orFallback [] do
    let chunks ← callWithRetry fun attempt =>
      searchSource env faults "investigation_agent.evidence.slack" attempt query actor
        .conversations false
    pure (chunks.map fun chunk => env.chunkToEvidence chunk (some .slack))

/-- The approved and published ones, newest first. -/
def listRecentPostmortems (organizationId : Uuid) (limit : Int) (db : PlatformDb ε κ) :
    List Postmortem :=
  Query.sliceTo limit
    (Query.orderBy (fun a b => decide (b ≤ a)) env.postmortemCreatedAt
      (db.postmortems.filter fun postmortem => postmortem.organizationId = organizationId ∧
        (postmortem.status = .approved ∨ postmortem.status = .published)))

def gatherPostmortemEvidence (actor : Identity) (existingEvidence : List EvidenceItem) :
    NodeM ε κ (List EvidenceItem) :=
  orFallback [] do
    let postmortems ← callWithRetry fun _ => fallibleRead faults fun db =>
      .ok (listRecentPostmortems env actor.organizationId perSourceTopK db)
    pure (env.postmortemEvidence postmortems existingEvidence)

/-- The registered connectors are configuration of the tenant. -/
def listConnectors (actor : Identity) : NodeM ε κ (List LiveConnector) := do
  answered (if Users.authorize actor Tenancy.managePermission none then .ok ()
    else .error (permissionDenied "You do not have permission to perform this action."
      "permission_denied" [("required_permission", Tenancy.managePermission)]))
  fallibleRead faults fun db => .ok (env.connectors db.rest actor.organizationId)

/-- A connector that is not active, or whose source has no live lookup, is passed over. -/
def liveItems (query : String) (connector : LiveConnector) : NodeM ε κ (List EvidenceItem) :=
  match (env.live connector).filter fun _ => connector.status = "active" with
  | none => pure []
  | some source => orFallback [] (answered (source query))

def fetchLive (query : String) : List LiveConnector → NodeM ε κ (List EvidenceItem)
  | [] => pure []
  | connector :: connectors => do
    let items ← liveItems env query connector
    let more ← fetchLive query connectors
    pure (items ++ more)

def gatherLiveEvidence (query : String) (actor : Identity) : NodeM ε κ (List EvidenceItem) := do
  let connectors ← orFallback none do
    let connectors ← listConnectors env faults actor
    pure (some connectors)
  fetchLive env query (connectors.getD [])

/-- A source is asked as long as there is not enough. -/
def whileShort (evidence : List EvidenceItem)
    (source : List EvidenceItem → NodeM ε κ (List EvidenceItem)) :
    NodeM ε κ (List EvidenceItem) :=
  if evidence.length < evidenceCap then do
    let more ← source evidence
    pure (evidence ++ more)
  else pure evidence

/-- Tickets and monitoring have nothing to search yet. -/
def gatherEvidence (query : String) (actor : Identity) (incidentId : Option Uuid) :
    NodeM ε κ (List EvidenceItem) := do
  let code ← gatherCodeEvidence env faults query actor
  let knowledge ← whileShort code fun _ => gatherKnowledgeEvidence env faults query actor
  let slack ← whileShort knowledge fun _ => gatherSlackEvidence env faults query actor
  let postmortems ← whileShort slack fun evidence =>
    gatherPostmortemEvidence env faults actor evidence
  let evidence ← whileShort postmortems fun evidence =>
    if env.augmentsWithLive evidence incidentId then gatherLiveEvidence env faults query actor
    else pure []
  pure (evidence.take evidenceCap)

/-! ## The node -/

def noEvidenceNextSteps : List String :=
  ["No automated evidence was found across code, chat, or existing postmortems. Recommend manual " ++
    "investigation starting with recent deploys and on-call escalation."]

def noHypothesisNextSteps : List String :=
  ["Evidence was gathered but no well-supported root-cause hypothesis could be generated " ++
    "automatically. Recommend manual review of the evidence listed below."]

/-- The id that the timeline entry draws, and the time of the transaction. -/
structure Draw where
  entryId : Uuid
  now : Instant

/-- Best effort: whatever goes wrong is logged. -/
def attachToTimeline (draw : Draw) (state : GraphState ω) (investigation : InvestigationResult) :
    NodeM ε κ Unit :=
  match state.incidentId with
  | none => pure ()
  | some incidentId =>
    orFallback () do
      let entry ← statement (domainErrors (onTimeline
        (Incidents.recordInvestigationResult draw.entryId draw.now state.actor
          state.actor.organizationId incidentId investigation)))
      let _ ← Service.ofExcept entry

def toResult (evidence : List EvidenceItem) (outcome : ReviewOutcome) : InvestigationResult :=
  { evidence
    hypotheses := outcome.hypotheses
    suggestedOwnerTeam := outcome.suggestedOwnerTeam
    suggestedNextSteps := outcome.suggestedNextSteps
    reviewStatus := outcome.reviewStatus
    critiqueVerdict := outcome.critiqueVerdict
    revisionCount := outcome.revisionCount
    critiqueIssues := outcome.critiqueIssues }

/-- What the evidence is made into, by the model and its critique. -/
def investigate (query : String) (evidence : List EvidenceItem) : NodeM ε κ InvestigationResult :=
  if evidence.isEmpty then
    pure
      { evidence := []
        hypotheses := []
        suggestedOwnerTeam := none
        suggestedNextSteps := noEvidenceNextSteps }
  else do
    let generated ← orFallback
      { hypotheses := [], suggestedOwnerTeam := none, suggestedNextSteps := noHypothesisNextSteps }
      (answered (env.generateHypotheses query evidence))
    pure (toResult evidence (env.reviewInvestigation query evidence generated))

def investigationAgentNode (draw : Draw) (state : GraphState ω) : NodeM ε κ (GraphState ω) := do
  let evidence ← gatherEvidence env faults state.query state.actor state.incidentId
  let investigation ← investigate env state.query evidence
  attachToTimeline draw state investigation
  pure
    { state with
      evidence
      hypotheses := investigation.hypotheses
      result := some
        { confidence := state.confidenceScore.getD 0
          routeTaken := .investigation
          investigation := some investigation } }

end Ekip.Agents.Investigation
