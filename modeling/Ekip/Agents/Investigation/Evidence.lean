import Ekip.Agents.Investigation.LiveSources
import Ekip.Agents.Searches
import Ekip.Core.Incidents.Postmortems

/-!
# Gathering evidence: `agents/investigation/evidence.py`

The sources one after the other, each as long as there is not enough, and the decision
whether what was found is worth asking the sites themselves. Every item stands with what it
was made of. A source here answers or fails; what its failures do to the session of the
request is the subject of the module on the node.
-/
namespace Ekip.Agents.Investigation.Evidence

open Ekip.Lib Ekip.Database Ekip.Shared Ekip.Core Ekip.Retrieval

variable {ε τ ω α : Type}

/-! ## What the sources answer -/

inductive Source
  | code
  | knowledge
  | slack
  | postmortems
  | connectors
  /-- The live source of the connector at this place of the list. -/
  | live (position : Nat)
deriving DecidableEq

structure EvidenceDb (ε : Type) extends ContentDb ε where
  postmortems : List Incidents.PostmortemRow := []
  connectorConfigs : List Connector := []

/-- What a source comes to after its retries. -/
structure Answers (ω : Type) where
  code : Except Exn (List (ScoredChunk ω) × List (ScoredChunk ω))
  knowledge : Except Exn (List (ScoredChunk ω))
  slack : Except Exn (List (ScoredChunk ω))
  postmortems : Except Exn (List Incidents.PostmortemRow)
  connectors : Except Exn (List Connector)
  /-- `none` where the connector has no live source. -/
  live : Nat → Connector → Option (Asked (List GatheredItem))

/-- Attempts are numbered from 0, and the requests of all of them are made. -/
def callWithRetry (operation : Nat → Asked α) (remaining : Nat) : Asked α :=
  match remaining with
  | 0 => operation maxRetries
  | remaining + 1 =>
    match operation (maxRetries - (remaining + 1)) with
    | (requests, .ok a) => (requests, .ok a)
    | (requests, .error _) =>
      let (more, outcome) := callWithRetry operation remaining
      (requests ++ more, outcome)

/-- What the gathering is run in. `fault` says which attempt of which call raises, whatever
the call would have answered; the sites may answer every attempt differently. -/
structure Env (ε τ ω : Type) where
  engine : Engine ε τ ω
  fault : Source → Nat → Option Exn
  sites : Nat → Nat → Sites
  clock : Clock
  investigationLiveEvidenceEnabled : Bool := true

section Answers

variable (env : Env ε τ ω) (query : String) (actor : Identity) (db : EvidenceDb ε)

def attempted (source : Source) (attempt : Nat) (answer : Except Exn α) : Except Exn α :=
  match env.fault source attempt with
  | some e => .error e
  | none => answer

/-- A call that makes no request of a site. -/
def retried (source : Source) (answer : Except Exn α) : Except Exn α :=
  (callWithRetry (fun attempt => ([], attempted env source attempt answer)) maxRetries).2

def listPostmortemsByOrganization (organizationId : Uuid) (limit : Int) :
    List Incidents.PostmortemRow :=
  Query.sliceTo limit (Query.orderBy (fun a b => decide (b ≤ a)) (fun row => row.createdAt)
    (db.postmortems.filter fun row => row.organizationId = organizationId ∧
      (row.status = .approved ∨ row.status = .published)))

/-- The live source of the connector, asked until it answers. -/
def askLive (position : Nat) (connector : Connector) : Option (Asked (List GatheredItem)) :=
  (liveSources connector.source).map fun fetchLiveEvidence =>
    callWithRetry (fun attempt =>
      let (requests, answer) := fetchLiveEvidence (env.sites position attempt) env.clock query
        connector perSourceTopK.toNat
      (requests, attempted env (.live position) attempt answer)) maxRetries

def answersOf : Answers ω where
  code := retried env .code (searchCodeAndDocumentation env.engine query (actorFilters actor)
    db.toContentDb)
  knowledge := retried env .knowledge (searchEvidence env.engine query (actorFilters actor)
    .documentation true db.toContentDb)
  slack := retried env .slack (searchEvidence env.engine query (actorFilters actor)
    .conversations false db.toContentDb)
  postmortems := retried env .postmortems
    (.ok (listPostmortemsByOrganization db actor.organizationId perSourceTopK))
  connectors := attempted env .connectors 0
    (listConnectors actor actor.organizationId db.connectorConfigs)
  live := askLive env query

end Answers

/-! ## Items -/

/-- What an item was made of. -/
inductive Origin (ω : Type)
  | code (chunk : ScoredChunk ω)
  | runbook (chunk : ScoredChunk ω)
  | slack (chunk : ScoredChunk ω)
  | postmortem (row : Incidents.PostmortemRow)
  | live (position : Nat)

/-- The number of the source in the order of priority. -/
def Origin.priority : Origin ω → Nat
  | code _ => 1
  | runbook _ => 2
  | slack _ => 3
  | postmortem _ => 5
  | live _ => 7

abbrev Gathered (ω : Type) := List (Origin ω × GatheredItem)

def kindToSource (kind : String) : EvidenceSource :=
  if kind = "commit" then .commit
  else if kind = "pull_request" then .pullRequest
  else if kind = "issue" then .issue
  else .github

def chunkToEvidence (now : Datetime) (source : Option EvidenceSource) (chunk : ScoredChunk ω) :
    GatheredItem where
  source := source.getD (kindToSource ((chunk.metadata.lookup "kind").getD ""))
  reference := (truthy chunk.sourceUrl).getD ("chunk:" ++ toString chunk.chunkId)
  summary := truncate chunk.content
  retrievedAt := now
  sourceTimestamp := parseTimestamp (chunk.metadata.lookup "timestamp")
  metadata := chunk.metadata

section Gather

variable (now : Datetime)

def gatherCodeEvidence (le : ω → ω → Bool)
    (answer : Except Exn (List (ScoredChunk ω) × List (ScoredChunk ω))) : Gathered ω :=
  match answer with
  | .error _ => []
  | .ok found => (combined le found).map fun chunk => (.code chunk, chunkToEvidence now none chunk)

def gatherKnowledgeEvidence (answer : Except Exn (List (ScoredChunk ω))) : Gathered ω :=
  match answer with
  | .error _ => []
  | .ok chunks => (runbooks chunks).map fun chunk =>
    (.runbook chunk, chunkToEvidence now (some .runbook) chunk)

def gatherSlackEvidence (answer : Except Exn (List (ScoredChunk ω))) : Gathered ω :=
  match answer with
  | .error _ => []
  | .ok chunks => chunks.map fun chunk => (.slack chunk, chunkToEvidence now (some .slack) chunk)

/-! ## Postmortems -/

def noRootCause : String := "(no root cause recorded)"

/-- `postmortem.root_cause`, cut without a mark. -/
def postmortemSummary (row : Incidents.PostmortemRow) : String :=
  String.ofList (((truthy row.rootCause).getD noRootCause).toList.take summaryMaxChars)

/-- `item.metadata.get("incident_id")`, if it is truthy. -/
def incidentIdOf (item : GatheredItem) : Option String := truthy (item.metadata.lookup "incident_id")

/-- The same incident, or the summary verbatim in a runbook that names no incident. -/
def isDuplicateOfRunbookEvidence (runbookEvidence : List GatheredItem)
    (row : Incidents.PostmortemRow) : Bool :=
  let summary := Text.strip (postmortemSummary row).toList
  if (runbookEvidence.filterMap incidentIdOf).contains (toString row.incidentId) then true
  else if summary = [] || summary = noRootCause.toList then false
  else
    (runbookEvidence.filter fun item => (incidentIdOf item).isNone).any fun item =>
      decide (summary <:+: item.summary.toList)

def postmortemItem (row : Incidents.PostmortemRow) : GatheredItem where
  source := .postmortem
  reference := "postmortem:" ++ toString row.id
  summary := postmortemSummary row
  retrievedAt := now
  metadata := (AList.insert "incident_id" (toString row.incidentId) ∅).insert "postmortem_id"
    (toString row.id)

def gatherPostmortemEvidence (answer : Except Exn (List Incidents.PostmortemRow))
    (existingEvidence : Gathered ω) : Gathered ω :=
  match answer with
  | .error _ => []
  | .ok postmortems =>
    let runbookEvidence := (existingEvidence.map Prod.snd).filter fun item => item.source = .runbook
    (postmortems.filter fun row => !isDuplicateOfRunbookEvidence runbookEvidence row).map fun row =>
      (.postmortem row, postmortemItem now row)

/-! ## The live decision -/

def liveEvidenceMinCount : Nat := 3

/-- Two hours, in microseconds. -/
def freshnessWindow : Int := 2 * 60 * 60 * 1000000

/-- `max` of a list, from left to right. -/
def newest (best : Datetime) : List Datetime → Except Exn Datetime
  | [] => .ok best
  | timestamp :: rest =>
    match timestamp.subtract best with
    | none => .error incomparable
    | some ahead => newest (if 0 < ahead then timestamp else best) rest

def shouldAugmentWithLiveEvidence (evidence : List GatheredItem) (incidentId : Option Uuid) :
    Except Exn Bool :=
  if incidentId.isSome then .ok true
  else if evidence.length < liveEvidenceMinCount then .ok true
  else
    match evidence.filterMap GatheredItem.sourceTimestamp with
    | [] => .ok true
    | timestamp :: rest => do
      let freshest ← newest timestamp rest
      match now.subtract freshest with
      | none => .error incomparable
      | some age => .ok (decide (freshnessWindow < age))

/-- A connector that is not active, or that has no live source, is passed over. -/
def askConnector (answers : Answers ω) (entry : Connector × Nat) :
    List (Nat × Request) × Gathered ω :=
  if entry.1.status = .active then
    match answers.live entry.2 entry.1 with
    | none => ([], [])
    | some (requests, outcome) =>
      (requests.map fun request => (entry.2, request),
        match outcome with
        | .error _ => []
        | .ok items => items.map fun item => (.live entry.2, item))
  else ([], [])

/-- The requests, each with the place of its connector, and the items. -/
def gatherLiveEvidence (answers : Answers ω) : List (Nat × Request) × Gathered ω :=
  match answers.connectors with
  | .error _ => ([], [])
  | .ok connectorConfigs =>
    (connectorConfigs.zipIdx.flatMap fun entry => (askConnector answers entry).1,
      connectorConfigs.zipIdx.flatMap fun entry => (askConnector answers entry).2)

/-! ## `gather_evidence` -/

/-- A source is asked as long as there is not enough. -/
def whileShort (evidence more : Gathered ω) : Gathered ω :=
  if evidence.length < evidenceCap then evidence ++ more else evidence

/-- What the index has. Tickets and monitoring have nothing to search yet. -/
def indexedEvidence (le : ω → ω → Bool) (answers : Answers ω) : Gathered ω :=
  let code := gatherCodeEvidence now le answers.code
  let knowledge := whileShort code (gatherKnowledgeEvidence now answers.knowledge)
  let slack := whileShort knowledge (gatherSlackEvidence now answers.slack)
  let jira := whileShort slack []
  let postmortems := whileShort jira (gatherPostmortemEvidence now answers.postmortems jira)
  whileShort postmortems []

/-- The requests that are made, and the evidence. -/
def gatherFrom (le : ω → ω → Bool) (enabled : Bool) (incidentId : Option Uuid) (answers : Answers ω) :
    List (Nat × Request) × Except Exn (Gathered ω) :=
  let evidence := indexedEvidence now le answers
  if evidence.length < evidenceCap ∧ enabled then
    match shouldAugmentWithLiveEvidence now (evidence.map Prod.snd) incidentId with
    | .error e => ([], .error e)
    | .ok false => ([], .ok (evidence.take evidenceCap))
    | .ok true =>
      ((gatherLiveEvidence answers).1,
        .ok ((evidence ++ (gatherLiveEvidence answers).2).take evidenceCap))
  else ([], .ok (evidence.take evidenceCap))

end Gather

def gatherEvidence (env : Env ε τ ω) (query : String) (actor : Identity) (incidentId : Option Uuid)
    (db : EvidenceDb ε) : List (Nat × Request) × Except Exn (Gathered ω) :=
  gatherFrom env.clock.now env.engine.le env.investigationLiveEvidenceEnabled incidentId
    (answersOf env query actor db)

end Ekip.Agents.Investigation.Evidence
