import Ekip.Core.Exceptions
import Ekip.Database.ContentModels
import Ekip.Lib.Query

/-!
# Findings: `core/proactive/contract.py` and `core/proactive/repository.py`
-/
namespace Ekip.Core.Proactive

open Ekip.Database Ekip.Core

/-! ## `core/proactive/contract.py`, and how a finding is identified -/

def recurringSeverityMinSupport : Nat := 3
def multiDocumentMinSupport : Nat := 2
def recurringSeverityWindowDays : Nat := 14
def recurringSeverityQualifyingValues : List String := ["high", "critical"]
def supportingRolePrefix : String := "supporting_"

structure FindingSpec where
  findingType : FindingType
  evidenceRoles : List String
  minimumSupport : Nat

def FindingType.spec : FindingType → FindingSpec
  | .recurringIncidentSeverity =>
    { findingType := .recurringIncidentSeverity
      evidenceRoles := ["supporting_incident"]
      minimumSupport := recurringSeverityMinSupport }
  | .incidentMultiDocument =>
    { findingType := .incidentMultiDocument
      evidenceRoles := ["anchor_incident", "supporting_document"]
      minimumSupport := multiDocumentMinSupport }

/-- In the order of `sorted(FINDING_TYPES)`. -/
def findingTypes : List FindingType := [.incidentMultiDocument, .recurringIncidentSeverity]

/-- An unknown type raises `InvalidFindingTypeError`, a `ValueError`. -/
def getFindingSpec (findingType : String) : Except Exn FindingSpec :=
  match findingTypes.find? fun known => known.value = findingType with
  | some known => .ok (FindingType.spec known)
  | none => .error (.valueError (s!"unknown finding type '{findingType}'; valid: " ++
      "['incident_multi_document', 'recurring_incident_severity']"))

/-- `role.startswith("supporting_")`. -/
def countsTowardSupport (role : String) : Bool :=
  supportingRolePrefix.toList.isPrefixOf role.toList

/-- `_fingerprint`, for the one key part that both detectors use. -/
def fingerprint (findingType : FindingType) (key : Uuid) : String :=
  findingType.value ++ ":" ++ toString key

/-!
## `core/proactive/repository.py`, with the reads of other modules

An insert raises where the table has a constraint. The number of rows that a
statement matched is returned where a caller looks at it.
-/

open Ekip.Lib

abbrev ProactiveM (α : Type) := Service Exn ProactiveDb α

/-- One reference to an entity: its type, its id and the role it plays. -/
structure CandidateEvidence where
  entityType : EvidenceEntityType
  entityId : Uuid
  role : String
deriving DecidableEq

inductive UpsertAction
  | created
  | updated
  | reactivated
  | unchanged
deriving DecidableEq

namespace Repository

/-! ## Sources -/

/-- `incidents_repository.list_incidents_by_severity_since`. -/
def listIncidentsBySeveritySince (organizationId : Uuid) (severities : List String)
    (since : Instant) (db : ProactiveDb) : List Incident :=
  db.incidents.filter fun incident => incident.organizationId = organizationId ∧
    incident.severity ∈ severities ∧ since ≤ incident.createdAt

/-- `incidents_repository.get_incident_by_id`. -/
def getIncidentById (incidentId : Uuid) (db : ProactiveDb) : Option Incident :=
  Table.get? Incident.id db.incidents incidentId

/-- `knowledge_repository.get_document_by_id`. -/
def getDocumentById (documentId : Uuid) (db : ProactiveDb) : Option Document :=
  Table.get? Document.id db.documents documentId

/-- `graph_repository.list_active_edges_by_relationship_type`. -/
def listActiveEdgesByRelationshipType (organizationId : Uuid) (relationshipType : String)
    (db : ProactiveDb) : List KnowledgeGraphEdge :=
  db.knowledgeGraphEdges.filter fun edge => edge.organizationId = organizationId ∧
    edge.status = .active ∧ edge.relationshipType = relationshipType

/-! ## Reads -/

def getFindingByFingerprint (organizationId : Uuid) (fingerprint : String) (db : ProactiveDb) :
    Option ProactiveFinding :=
  db.proactiveFindings.find? fun row =>
    row.organizationId = organizationId ∧ row.fingerprint = fingerprint

/-- Of any status. -/
def getFinding (findingId organizationId : Uuid) (db : ProactiveDb) : Option ProactiveFinding :=
  db.proactiveFindings.find? fun row => row.id = findingId ∧ row.organizationId = organizationId

def negativeLimit : Exn := .runtimeError "LIMIT must not be negative"
def negativeOffset : Exn := .runtimeError "OFFSET must not be negative"

/-- The rows before the page is cut, last seen first. -/
def listedFindings (organizationId : Uuid) (status findingType : Option String)
    (db : ProactiveDb) : List ProactiveFinding :=
  (db.proactiveFindings.filter fun row => row.organizationId = organizationId ∧
    (∀ wanted ∈ status, row.status.value = wanted) ∧
      ∀ wanted ∈ findingType, row.findingType.value = wanted)
      |>.insertionSort fun a b => b.lastSeenAt ≤ a.lastSeenAt

def listFindings (organizationId : Uuid) (status findingType : Option String)
    (limit offset : Int) (db : ProactiveDb) :
    Except Exn (List ProactiveFinding) := do
  let rows ← Query.offset negativeOffset offset
    (listedFindings organizationId status findingType db)
  Query.limit negativeLimit limit rows

def listActiveFindingsByType (organizationId : Uuid) (findingType : FindingType)
    (db : ProactiveDb) : List ProactiveFinding :=
  db.proactiveFindings.filter fun row => row.organizationId = organizationId ∧
    row.findingType = findingType ∧ row.status = .active

def listEvidence (findingId : Uuid) (db : ProactiveDb) : List ProactiveFindingEvidence :=
  db.proactiveFindingEvidence.filter fun row => row.findingId = findingId

/-! ## Writes -/

/-- What the detector knows of a finding. -/
structure FindingValues where
  projectId : Option Uuid
  findingType : FindingType
  fingerprint : String
  title : String
  summary : String
  supportCount : Nat
  detectorName : String

/-- The row of a finding that is new. -/
def createdFinding (newId organizationId : Uuid) (values : FindingValues) (seenAt : Instant) :
    ProactiveFinding :=
  { id := newId
    organizationId
    projectId := values.projectId
    findingType := values.findingType
    title := values.title
    summary := values.summary
    fingerprint := values.fingerprint
    supportCount := values.supportCount
    detectorName := values.detectorName
    firstSeenAt := seenAt
    lastSeenAt := seenAt }

/-- What becomes of a row that is there, and how that is reported. -/
def rewrittenFinding (existing : ProactiveFinding) (values : FindingValues) (seenAt : Instant) :
    ProactiveFinding × UpsertAction :=
  if existing.status = .active ∧ existing.title = values.title ∧
      existing.summary = values.summary ∧ existing.supportCount = values.supportCount then
    (existing, .unchanged)
  else
    ({ existing with
        status := .active
        projectId := values.projectId
        title := values.title
        summary := values.summary
        supportCount := values.supportCount
        detectorName := values.detectorName
        lastSeenAt := seenAt
        deactivatedAt := if existing.status = .active then existing.deactivatedAt else none },
      if existing.status = .active then .updated else .reactivated)

def insertFinding (row : ProactiveFinding) : ProactiveM Unit := do
  let rows ← Service.read ProactiveDb.proactiveFindings
  Service.raiseIf (rows.any fun other => other.id = row.id ∨
      (other.organizationId = row.organizationId ∧ other.fingerprint = row.fingerprint))
    (.integrityError "uq_proactive_findings_fingerprint")
  Service.write fun db => { db with proactiveFindings := db.proactiveFindings ++ [row] }

/-- `UPDATE proactive_findings … WHERE id`. -/
def updateFinding (findingId : Uuid) (change : ProactiveFinding → ProactiveFinding)
    (db : ProactiveDb) : ProactiveDb :=
  { db with
    proactiveFindings :=
      Table.updateWhere db.proactiveFindings (fun row => row.id = findingId) change }

/-- `newId` is drawn by the database if the row is new. -/
def upsertFinding (newId organizationId : Uuid) (values : FindingValues) (seenAt : Instant) :
    ProactiveM (ProactiveFinding × UpsertAction) := do
  let existing ← Service.read (getFindingByFingerprint organizationId values.fingerprint)
  match existing with
  | none => do
    insertFinding (createdFinding newId organizationId values seenAt)
    pure (createdFinding newId organizationId values seenAt, .created)
  | some existing => do
    Service.write (updateFinding existing.id fun row => (rewrittenFinding row values seenAt).1)
    pure (rewrittenFinding existing values seenAt)

def updateSupport (findingId : Uuid) (supportCount : Nat) (seenAt : Instant) : ProactiveM Unit :=
  Service.write (updateFinding findingId fun row =>
    { row with supportCount, lastSeenAt := seenAt })

/-- Only an active row. -/
def deactivated (deactivatedAt : Instant) (row : ProactiveFinding) : ProactiveFinding :=
  if row.status = .active then
    { row with status := .inactive, deactivatedAt := some deactivatedAt }
  else row

def deactivateFinding (findingId : Uuid) (deactivatedAt : Instant) : ProactiveM Nat := do
  let matched ← Service.read fun db => db.proactiveFindings.countP fun row =>
    row.id = findingId ∧ row.status = .active
  Service.write (updateFinding findingId (deactivated deactivatedAt))
  pure matched

def evidenceRow (findingId : Uuid) (item : CandidateEvidence) : ProactiveFindingEvidence :=
  { findingId, entityType := item.entityType, entityId := item.entityId, role := item.role }

/-- Every row of the finding goes, and those of `evidence` come. -/
def replaceEvidence (findingId : Uuid) (evidence : List CandidateEvidence) : ProactiveM Unit := do
  Service.raiseIf (!decide evidence.Nodup)
    (.integrityError "uq_proactive_finding_evidence_identity")
  Service.write fun db =>
    { db with
      proactiveFindingEvidence :=
        (db.proactiveFindingEvidence.filter fun row => row.findingId ≠ findingId) ++
          evidence.map (evidenceRow findingId) }

def names (entityType : EvidenceEntityType) (entityId : Uuid) (row : ProactiveFindingEvidence) :
    Bool :=
  row.entityType = entityType ∧ row.entityId = entityId

/-- The findings that lose a row. -/
def removeEvidenceForEntity (entityType : EvidenceEntityType) (entityId : Uuid) :
    ProactiveM (List Uuid) := do
  let findingIds ← Service.read fun db =>
    (db.proactiveFindingEvidence.filter (names entityType entityId)).map
      ProactiveFindingEvidence.findingId
  Service.write fun db =>
    { db with
      proactiveFindingEvidence :=
        db.proactiveFindingEvidence.filter fun row => !names entityType entityId row }
  pure findingIds

end Repository

end Ekip.Core.Proactive
