import Ekip.Core.Incidents.Timeline
import Ekip.Core.Graph.Repository

/-!
# `core/graph/service.py`: resolution, manual edges and discovery

Every entity that is returned has passed its resolver, which reads the row again and
applies the read rule of its type. The log and the audit rows are left out.
-/
namespace Ekip.Core.Graph

open Ekip.Lib Ekip.Database Ekip.Shared Ekip.Core

/-- What the standard library makes of texts: `uuid.UUID`, which reads several spellings
of one uuid, and the day of an instant as `strftime` prints it. -/
structure Texts where
  uuid : String → Option Uuid
  day : Instant → String

def postmortemWritePermission : String := "postmortem:write"
def postmortemApprovePermission : String := "postmortem:approve"

variable {ε : Type} (texts : Texts)

/-! ## Entity resolution -/

def getPostmortemById (db : GraphDb ε) (postmortemId : Uuid) : Option Postmortem :=
  Table.get? Postmortem.id db.postmortems postmortemId

def getProjectById (db : GraphDb ε) (projectId : Uuid) : Option Project :=
  Table.get? Project.id db.projects projectId

def getTimelineEntry (db : GraphDb ε) (entryId : Uuid) : Option TimelineEntry :=
  Table.get? TimelineEntry.id db.incidentTimeline entryId

def incidentReadable (actor : Identity) (row : IncidentRow) : Bool :=
  row.organizationId = actor.organizationId ∧
    actor.hasPermission Incidents.incidentReadPermission (some row.projectId) = true

def resolveIncident (db : GraphDb ε) (actor : Identity) (entityId : Uuid) : Option EntityRef := do
  let row ← (Incidents.Repository.getIncidentById db.toIncidentDb entityId).filter
    (incidentReadable actor)
  pure { entityType := .incident, entityId := row.id, label := some row.title }

/-- A draft is for those who may write or approve postmortems of its incident. -/
def postmortemReadable (db : GraphDb ε) (actor : Identity) (row : Postmortem) : Bool :=
  let projectId := (Incidents.Repository.getIncidentById db.toIncidentDb row.incidentId).map
    fun incident => incident.projectId
  row.organizationId = actor.organizationId ∧
    (row.status = .approved ∨ row.status = .published ∨
      actor.hasPermission postmortemWritePermission projectId = true ∨
      actor.hasPermission postmortemApprovePermission projectId = true)

def resolvePostmortem (db : GraphDb ε) (actor : Identity) (entityId : Uuid) : Option EntityRef := do
  let row ← (getPostmortemById db entityId).filter (postmortemReadable db actor)
  pure { entityType := .postmortem, entityId := row.id }

def documentReadable (actor : Identity) (row : Document) : Bool :=
  row.organizationId = actor.organizationId ∧ row.deletedAt = none ∧
    (row.status = .published ∨
      actor.hasPermission Knowledge.reviewPermission (some row.projectId) = true)

def resolveDocument (db : GraphDb ε) (actor : Identity) (entityId : Uuid) : Option EntityRef := do
  let row ← (Knowledge.Repository.getDocumentById db.toContentDb entityId).filter
    (documentReadable actor)
  pure { entityType := .document, entityId := row.id, label := row.title }

def projectReadable (actor : Identity) (row : Project) : Bool :=
  row.organizationId = actor.organizationId

def resolveProject (db : GraphDb ε) (actor : Identity) (entityId : Uuid) : Option EntityRef := do
  let row ← (getProjectById db entityId).filter (projectReadable actor)
  pure { entityType := .project, entityId := row.id, label := some row.name }

/-- An investigation is for those who may read its incident. -/
def investigationReadable (db : GraphDb ε) (actor : Identity) (row : TimelineEntry) : Bool :=
  row.organizationId = actor.organizationId ∧ row.event.eventType = "investigation" ∧
    (resolveIncident db actor row.incidentId).isSome = true

def resolveInvestigation (db : GraphDb ε) (actor : Identity) (entityId : Uuid) :
    Option EntityRef := do
  let row ← (getTimelineEntry db entityId).filter (investigationReadable db actor)
  pure
    { entityType := .investigation
      entityId := row.id
      label := some s!"Investigation on {texts.day row.occurredAt}" }

def resolveEntity (db : GraphDb ε) (actor : Identity) : EntityType → Uuid → Option EntityRef
  | .incident => resolveIncident db actor
  | .postmortem => resolvePostmortem db actor
  | .document => resolveDocument db actor
  | .project => resolveProject db actor
  | .investigation => resolveInvestigation texts db actor

/-! ## Manual relationships -/

/-- An operation on the tables that the entities come from. -/
def onTimeline {α : Type} (x : Incidents.TimelineM ε α) : GraphM ε α :=
  Service.zoom GraphDb.toTimelineDb (fun timeline db => { db with toTimelineDb := timeline }) x

def onContent {α : Type} (x : Knowledge.ContentM ε α) : GraphM ε α :=
  onTimeline (Incidents.onIncidents (Incidents.onContent x))

def requireProjectPermission (actor : Identity) (projectId : Uuid) (permissionCode : String) :
    GraphM ε Unit :=
  Service.raiseIf (!Users.authorize actor permissionCode (some projectId))
    (permissionDenied "You do not have permission to perform this action." "permission_denied"
      [("required_permission", permissionCode)])

def invalidRelationship (data : RelationshipCreate) (message : String) : Exn :=
  validation message "graph.invalid_relationship"
    [("source_entity_type", data.sourceEntityType.value),
      ("relationship_type", data.relationshipType.value),
      ("target_entity_type", data.targetEntityType.value)]

def entityNotFound (message : String) (entityType : EntityType) (entityId : Uuid) : Exn :=
  notFound message "graph.entity_not_found"
    [("entity_type", entityType.value), ("entity_id", toString entityId)]

/-- Reading a column of a missing row. -/
def missingRow : Exn := .runtimeError "'NoneType' object has no attribute 'project_id'"

/-- The spec of a relationship that may be asserted by hand. -/
def manualSpec (data : RelationshipCreate) : Except Exn RelationshipSpec :=
  match Contract.getDerivedSpec data.sourceEntityType.value data.relationshipType.value
      data.targetEntityType.value with
  | .error message => .error (invalidRelationship data message)
  | .ok spec =>
    if spec.provenanceType ≠ .manual then
      .error (validation "This relationship is not manually assertable." "graph.not_manual"
        [("relationship_type", data.relationshipType.value)])
    else .ok spec

def resolveOrRaise (actor : Identity) (message : String) (entityType : EntityType)
    (entityId : Uuid) : GraphM ε EntityRef := do
  let ref ← Service.read fun db => resolveEntity texts db actor entityType entityId
  Service.orRaise ref (entityNotFound message entityType entityId)

/-- Both incidents must be writable. -/
def requireWritable (actor : Identity) (sourceId targetId : Uuid) : GraphM ε Unit := do
  let source ← Service.read fun db =>
    Incidents.Repository.getIncidentById db.toIncidentDb sourceId
  let target ← Service.read fun db =>
    Incidents.Repository.getIncidentById db.toIncidentDb targetId
  let source ← Service.orRaise source missingRow
  requireProjectPermission actor source.projectId Incidents.incidentWritePermission
  let target ← Service.orRaise target missingRow
  requireProjectPermission actor target.projectId Incidents.incidentWritePermission

/-- `id` is drawn by the database for the row that is inserted. -/
def createManualRelationship (id : Uuid) (actor : Identity) (data : RelationshipCreate) :
    GraphM ε GraphRelationship := do
  let spec ← Service.ofExcept (manualSpec data)
  let sourceRef ← resolveOrRaise texts actor "Source entity not found." data.sourceEntityType
    data.sourceEntityId
  let targetRef ← resolveOrRaise texts actor "Target entity not found." data.targetEntityType
    data.targetEntityId
  Service.raiseIf
    ((spec.sourceType, spec.relationshipType, spec.targetType) ≠
      (.incident, .relatedTo, .incident))
    (validation "No authorization rule implemented for this manual relationship type."
      "graph.manual_not_supported" [("relationship_type", data.relationshipType.value)])
  requireWritable actor data.sourceEntityId data.targetEntityId
  let ends := Contract.canonicalDirection spec data.sourceEntityId data.targetEntityId
  let refs := if ends.1 = data.sourceEntityId then (sourceRef, targetRef) else (targetRef, sourceRef)
  let upserted ← Repository.upsertDerivedEdge
    { id
      organizationId := actor.organizationId
      projectId := none
      sourceEntityType := spec.sourceType.value
      sourceEntityId := ends.1
      relationshipType := spec.relationshipType.value
      targetEntityType := spec.targetType.value
      targetEntityId := ends.2
      provenanceType := ProvenanceType.manual.value
      createdBy := actor.auditTag }
  pure
    { source := refs.1
      relationshipType := spec.relationshipType
      target := refs.2
      provenanceType := .manual
      meaning := spec.meaning
      edgeId := some upserted.1.id }

/-! ## Discovery -/

def documentInOrganization (organizationId : Uuid) (row : Document) : Bool :=
  row.organizationId = organizationId ∧ row.deletedAt = none

def incidentInOrganization (organizationId : Uuid) (row : IncidentRow) : Bool :=
  row.organizationId = organizationId

def documentOf (db : GraphDb ε) (organizationId documentId : Uuid) : Option Document :=
  (Knowledge.Repository.getDocumentById db.toContentDb documentId).filter
    (documentInOrganization organizationId)

def incidentOf (db : GraphDb ε) (organizationId incidentId : Uuid) : Option IncidentRow :=
  (Incidents.Repository.getIncidentById db.toIncidentDb incidentId).filter
    (incidentInOrganization organizationId)

/-- The document and the incident that a metadata row names; a row that names none is
passed over. -/
def namedBy (db : GraphDb ε) (organizationId : Uuid) (row : DocumentMetadata) :
    Option (Document × IncidentRow) := do
  let document ← documentOf db organizationId row.documentId
  let incidentId ← texts.uuid row.value
  let incident ← incidentOf db organizationId incidentId
  pure (document, incident)

def DiscoveryResult.count (result : DiscoveryResult) : UpsertAction → DiscoveryResult
  | .created => { result with edgesCreated := result.edgesCreated + 1 }
  | .revived => { result with edgesRevived := result.edgesRevived + 1 }
  | .unchanged => { result with edgesUnchanged := result.edgesUnchanged + 1 }

def systemActor : String := "system:graph_discovery"

/-- What one pass is given: the organization, who runs it, and the ids that the database
would draw. -/
structure Pass where
  organizationId : Uuid
  createdBy : String := systemActor
  draw : DocumentMetadata → Uuid
  now : Instant

def documentsEdge (pass : Pass) (row : DocumentMetadata) (document : Document)
    (incident : IncidentRow) : KnowledgeGraphEdgeRow :=
  { id := pass.draw row
    organizationId := pass.organizationId
    projectId := some document.projectId
    sourceEntityType := "document"
    sourceEntityId := document.id
    relationshipType := documentsSpec.relationshipType.value
    targetEntityType := "incident"
    targetEntityId := incident.id
    provenanceType := documentsSpec.provenanceType.value
    createdBy := pass.createdBy }

/-- The read half. -/
def scan (pass : Pass) : List DocumentMetadata → DiscoveryResult → GraphM ε DiscoveryResult
  | [], result => pure result
  | row :: rows, result => do
    let named ← Service.read fun db => namedBy texts db pass.organizationId row
    match named with
    | none => scan pass rows result
    | some (document, incident) => do
      let upserted ← Repository.upsertDerivedEdge (documentsEdge pass row document incident)
      scan pass rows (result.count upserted.2)

/-- An end of the edge is gone. -/
def stale (db : GraphDb ε) (organizationId : Uuid) (edge : KnowledgeGraphEdgeRow) : Bool :=
  (documentOf db organizationId edge.sourceEntityId).isNone ||
    (incidentOf db organizationId edge.targetEntityId).isNone

/-- The repair half. -/
def repair (organizationId : Uuid) : List KnowledgeGraphEdgeRow → Nat → GraphM ε Nat
  | [], removed => pure removed
  | edge :: edges, removed => do
    let gone ← Service.read fun db => stale db organizationId edge
    match gone with
    | true => do
      let count ← Repository.deactivateEdge edge.id
      repair organizationId edges (removed + count)
    | false => repair organizationId edges removed

/-- The metadata rows that a pass reads, of whatever organization. -/
def sourceRows (db : GraphDb ε) : List DocumentMetadata :=
  db.documentMetadata.filter fun row => row.key = Knowledge.sourceIncidentMetadataKey

def discoverDocumentIncidentEdges (pass : Pass) : GraphM ε DiscoveryResult := do
  let spec ← Service.ofExcept <|
    (Contract.getDerivedSpec "document" "documents" "incident").mapError .valueError
  let metadataRows ← Service.read sourceRows
  let result ← scan texts pass metadataRows { scannedAt := pass.now }
  let existingEdges ← Service.read fun db =>
    Repository.listActiveEdgesByRelationshipType db pass.organizationId spec.relationshipType.value
  let removed ← repair pass.organizationId existingEdges 0
  pure { result with edgesRemovedStale := removed }

/-! ## Lifecycle -/

def removeEdgesForEntity (organizationId : Uuid) (entityType : String) (entityId : Uuid) :
    GraphM ε Nat :=
  Repository.deactivateEdgesTouchingEntity organizationId entityType entityId

/-- The edges go in the transaction of the rejection. `cleanup` is how the hook of the
findings ends, which comes after. -/
def rejectDocument (now : Instant) (cleanup : Except Exn Unit) (actor : Identity)
    (organizationId documentId : Uuid) : GraphM ε Knowledge.Document := do
  let document ← onContent (Knowledge.rejectDocument now cleanup actor organizationId documentId)
  let _ ← removeEdgesForEntity organizationId EntityType.document.value documentId
  pure document

end Ekip.Core.Graph
