import Ekip.Shared.Schemas

/-!
# Rows of contents, incidents, agents and the graph

First those of documents and of the retrieval index:
`documents` and `document_metadata` with the columns that the review and the
retrieval functions read or write; the four chunk tables share one row type.
The text index of a chunk is generated from its content, so it is no column.
-/
namespace Ekip.Database

/-- The Literal of `shared/schemas.py`. -/
inductive DocumentStatus
  | proposed
  | published
deriving DecidableEq

def DocumentStatus.value : DocumentStatus → String
  | proposed => "proposed"
  | published => "published"

structure Document where
  id : Uuid
  organizationId : Uuid
  projectId : Uuid
  /-- `manual` for what was proposed, the connector's name for what was ingested. -/
  source : String
  externalId : String
  contentHash : String
  title : Option String
  sourceUrl : Option String := none
  status : DocumentStatus
  version : Nat := 1
  deletedAt : Option Instant := none
deriving DecidableEq

structure DocumentMetadata where
  documentId : Uuid
  key : String
  value : String
deriving DecidableEq

inductive CollectionName
  | documentation
  | code
  | conversations
  | incidents
deriving DecidableEq

def CollectionName.value : CollectionName → String
  | documentation => "documentation"
  | code => "code"
  | conversations => "conversations"
  | incidents => "incidents"

/-- A row of a chunk table, with an embedding in `ε`. Only the tables of code and
documentation have the column `repoFullName`; elsewhere it stays unset. -/
structure Chunk (ε : Type) where
  id : Uuid
  organizationId : Uuid
  projectId : Uuid
  documentId : Uuid
  chunkIndex : Int
  content : String
  embedding : ε
  sourceOffsetStart : Int
  sourceOffsetEnd : Int
  aclPermissionCode : Option String := none
  repoFullName : Option String := none
deriving DecidableEq

structure ContentDb (ε : Type) where
  projects : List Project := []
  documents : List Document := []
  documentMetadata : List DocumentMetadata := []
  chunks : CollectionName → List (Chunk ε) := fun _ => []

/-! ## Rows of incidents and agent executions -/

structure Incident where
  id : Uuid
  organizationId : Uuid
  projectId : Uuid
  title : String
  severity : String
  reportedBy : Uuid
  createdAt : Instant
  deletedAt : Option Instant := none
deriving DecidableEq

structure AgentExecution where
  id : Uuid
  organizationId : Uuid
  userId : Option Uuid
  agentName : String
deriving DecidableEq

/-!
## Rows of incidents and postmortems

The incident service reads more columns of an incident than privacy and
detection do. `IncidentDb` stands beside the documents and the index, which
incidents are copied into.
-/

inductive IncidentStatus
  | «open»
  | investigating
  | resolved
  | closed
deriving DecidableEq

def IncidentStatus.value : IncidentStatus → String
  | «open» => "open"
  | investigating => "investigating"
  | resolved => "resolved"
  | closed => "closed"

inductive PostmortemStatus
  | draft
  | inReview
  | approved
  | published
deriving DecidableEq

structure IncidentRow extends Incident where
  description : String
  status : IncidentStatus := .open
  ownerTeam : Option String := none
  resolvedAt : Option Instant := none
  updatedAt : Instant
deriving DecidableEq

structure Postmortem where
  id : Uuid
  organizationId : Uuid
  incidentId : Uuid
  status : PostmortemStatus := .draft
  rootCause : Option String := none
  updatedAt : Instant
deriving DecidableEq

structure IncidentDb (ε : Type) extends ContentDb ε where
  incidents : List IncidentRow := []
  postmortems : List Postmortem := []

/-!
## Rows that the agents write

`agent_executions` with every column, and the timeline of an incident.
-/

open Ekip.Shared

inductive ExecutionStatus
  | running
  | succeeded
  | failed
deriving DecidableEq

inductive TriggerSource
  | mcp
  | coreApi
  | scheduled
deriving DecidableEq

/-- The JSON of `input_summary`, by the entry point that writes it. -/
inductive InputSummary
  | question (query : String) (incidentId : Option Uuid) (recalledMemoryCount : Nat)
  | incident (incidentId : Uuid)
  | organization (organizationId : Uuid)
deriving DecidableEq

structure AgentExecutionRow extends AgentExecution where
  triggerSource : TriggerSource
  inputSummary : Option InputSummary := none
  confidenceScore : Option Rat := none
  status : ExecutionStatus := .running
  errorDetail : Option String := none
  startedAt : Instant
  completedAt : Option Instant := none
  /-- The four columns are unset where no usage was captured. -/
  modelUsed : Option String := none
  promptTokens : Option Nat := none
  completionTokens : Option Nat := none
  totalTokens : Option Nat := none
deriving DecidableEq

inductive ActionItemStatus
  | «open»
  | inProgress
  | done

structure ActionItem where
  description : String
  owner : Option String := none
  status : ActionItemStatus := .open

/-- The JSON of `event_data`. -/
inductive TimelineEvent
  | note (note : String)
  | investigation (result : InvestigationResult)

def TimelineEvent.eventType : TimelineEvent → String
  | note _ => "note"
  | investigation _ => "investigation"

structure TimelineEntry where
  id : Uuid
  organizationId : Uuid
  incidentId : Uuid
  event : TimelineEvent
  /-- The audit tag of who wrote it. -/
  actor : String
  occurredAt : Instant

structure TimelineDb (ε : Type) extends IncidentDb ε where
  incidentTimeline : List TimelineEntry := []

/-! ## `knowledge_gap_reports` -/

inductive GapReportStatus
  | «open»
  | dismissed
deriving DecidableEq

inductive SuggestedAction
  | newRunbook
  | updateExisting
deriving DecidableEq

/-- The ids of executions are kept as their texts, which sort as the ids do. -/
structure KnowledgeGapReport where
  id : Uuid
  organizationId : Uuid
  suggestedTopic : String
  topicEmbedding : List Rat
  supportingExecutionIds : List Uuid
  suggestedAction : SuggestedAction
  relatedDocumentId : Option Uuid
  status : GapReportStatus := .open
  createdAt : Instant
deriving DecidableEq

structure GapDb where
  agentExecutions : List AgentExecutionRow := []
  gapReports : List KnowledgeGapReport := []
deriving DecidableEq

/-!
## Rows of findings, their evidence, and the knowledge graph

The tables that detection reads stand beside the two that it writes.
-/

inductive FindingType
  | recurringIncidentSeverity
  | incidentMultiDocument
deriving DecidableEq

def FindingType.value : FindingType → String
  | recurringIncidentSeverity => "recurring_incident_severity"
  | incidentMultiDocument => "incident_multi_document"

inductive EvidenceEntityType
  | incident
  | document
deriving DecidableEq

inductive FindingStatus
  | active
  | inactive
deriving DecidableEq

def FindingStatus.value : FindingStatus → String
  | active => "active"
  | inactive => "inactive"

inductive EdgeStatus
  | active
  | inactive
deriving DecidableEq

structure KnowledgeGraphEdge where
  id : Uuid
  organizationId : Uuid
  sourceEntityId : Uuid
  relationshipType : String
  targetEntityId : Uuid
  status : EdgeStatus := .active

structure ProactiveFinding where
  id : Uuid
  organizationId : Uuid
  projectId : Option Uuid
  findingType : FindingType
  status : FindingStatus := .active
  title : String
  summary : String
  fingerprint : String
  supportCount : Nat
  detectorName : String
  firstSeenAt : Instant
  lastSeenAt : Instant
  deactivatedAt : Option Instant := none

structure ProactiveFindingEvidence where
  findingId : Uuid
  entityType : EvidenceEntityType
  entityId : Uuid
  role : String
deriving DecidableEq

structure ProactiveDb where
  incidents : List Incident := []
  documents : List Document := []
  knowledgeGraphEdges : List KnowledgeGraphEdge := []
  proactiveFindings : List ProactiveFinding := []
  proactiveFindingEvidence : List ProactiveFindingEvidence := []

/-!
## Rows of the knowledge graph

The graph reads and writes more columns of an edge than detection does. Its
vocabulary is no constraint of the database, so the columns of the types are texts.
-/

/-- `inactive` is the status `removed`. -/
structure KnowledgeGraphEdgeRow extends KnowledgeGraphEdge where
  projectId : Option Uuid
  sourceEntityType : String
  targetEntityType : String
  provenanceType : String
  createdBy : String

/-- The columns of the unique constraint. -/
structure LogicalIdentity where
  organizationId : Uuid
  sourceEntityType : String
  sourceEntityId : Uuid
  relationshipType : String
  targetEntityType : String
  targetEntityId : Uuid
deriving DecidableEq

def KnowledgeGraphEdgeRow.logicalIdentity (edge : KnowledgeGraphEdgeRow) : LogicalIdentity :=
  { organizationId := edge.organizationId
    sourceEntityType := edge.sourceEntityType
    sourceEntityId := edge.sourceEntityId
    relationshipType := edge.relationshipType
    targetEntityType := edge.targetEntityType
    targetEntityId := edge.targetEntityId }

structure GraphDb (ε : Type) extends TimelineDb ε where
  knowledgeGraphEdges : List KnowledgeGraphEdgeRow := []

/-! ## Rows of `agent_memories` -/

inductive MemoryScope
  | user
  | project
deriving DecidableEq

inductive MemoryType
  | preference
  | fact
  | investigationConclusion
deriving DecidableEq

inductive MemoryStatus
  | active
  | superseded
  | deleted
deriving DecidableEq

inductive MemorySourceType
  | explicit
  | investigation
  | incident
deriving DecidableEq

/-- A memory with an embedding in `ε`; the metadata is kept as its JSON text. -/
structure AgentMemory (ε : Type) where
  id : Uuid
  organizationId : Uuid
  scope : MemoryScope
  ownerUserId : Option Uuid := none
  projectId : Option Uuid := none
  memoryType : MemoryType
  content : String
  embedding : ε
  sourceType : Option MemorySourceType := none
  sourceId : Option Uuid := none
  createdBy : String
  status : MemoryStatus := .active
  supersedesMemoryId : Option Uuid := none
  memoryMetadata : Option String := none
  lastAccessedAt : Option Instant := none
  createdAt : Instant
  updatedAt : Instant
deriving DecidableEq

end Ekip.Database
