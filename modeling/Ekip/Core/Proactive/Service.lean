import Ekip.Core.Proactive.Repository
import Ekip.Core.Tenancy.Provisioning

/-!
# `core/proactive/service.py`

Detectors read the whole organization; reads resolve every piece of evidence for
the caller. The audit records, the log and the duration of a run are left out. A
detector may raise for a reason of its own: `outage` names those that do.
-/
namespace Ekip.Core.Proactive

open Ekip.Lib Ekip.Database Ekip.Shared Ekip.Core

def incidentReadPermission : String := "incident:read"
def reviewPermission : String := "knowledge:review"
def detectorAgentName : String := "pattern_detection_agent"

structure CandidateFinding where
  findingType : FindingType
  organizationId : Uuid
  projectId : Option Uuid
  fingerprint : String
  supportCount : Nat
  title : String
  summary : String
  evidence : List CandidateEvidence

/-! ## Detectors -/

/-- `str(n)`, with zeros in front up to the width. -/
def padded (width n : Nat) : String :=
  String.ofList ((toString n).toList.leftpad width '0')

/-- `t.date().isoformat()`, with days counted from 1970-01-01: the year begins in
March, so that the leap day is its last. -/
def isoDate (t : Instant) : String :=
  let day := t / Tenancy.day + 719468
  let era := day / 146097
  let dayOfEra := day % 146097
  let yearOfEra := (dayOfEra - dayOfEra / 1460 + dayOfEra / 36524 - dayOfEra / 146096) / 365
  let dayOfYear := dayOfEra - (365 * yearOfEra + yearOfEra / 4 - yearOfEra / 100)
  let month := (5 * dayOfYear + 2) / 153
  let year := yearOfEra + era * 400 + (if month < 10 then 0 else 1)
  padded 4 year ++ "-" ++ padded 2 (if month < 10 then month + 3 else month - 9) ++ "-" ++
    padded 2 (dayOfYear - (153 * month + 2) / 5 + 1)

example : isoDate 0 = "1970-01-01" := by decide
example : isoDate (19782 * Tenancy.day) = "2024-02-29" := by decide

/-- A finding about the incidents of one project. -/
def recurringCandidate (organizationId projectId : Uuid) (group : List Incident) :
    CandidateFinding :=
  let group := group.insertionSort fun a b => a.createdAt ≤ b.createdAt
  let windowStart := (group.head?.map fun row => isoDate row.createdAt).getD ""
  let windowEnd := (group.getLast?.map fun row => isoDate row.createdAt).getD ""
  { findingType := .recurringIncidentSeverity
    organizationId
    projectId := some projectId
    fingerprint := fingerprint .recurringIncidentSeverity projectId
    supportCount := group.length
    title := s!"{group.length} high/critical incidents in the last " ++
      s!"{recurringSeverityWindowDays} days"
    summary := s!"{group.length} incidents of severity " ++
      "/".intercalate recurringSeverityQualifyingValues ++
      s!" were created in this project between {windowStart} and {windowEnd}."
    evidence := group.map fun row =>
      { entityType := .incident, entityId := row.id, role := "supporting_incident" } }

/-- The groups of the dictionary `by_project`. -/
def detectRecurringIncidentSeverity (now : Instant) (organizationId : Uuid) (db : ProactiveDb) :
    List CandidateFinding :=
  let since := now - recurringSeverityWindowDays * Tenancy.day
  let incidents := Repository.listIncidentsBySeveritySince organizationId
    recurringSeverityQualifyingValues since db
  let byProject := (incidents.map Incident.projectId).dedup.map fun projectId =>
    (projectId, incidents.filter fun incident => incident.projectId = projectId)
  (byProject.filter fun entry => recurringSeverityMinSupport ≤ entry.2.length).map fun entry =>
    recurringCandidate organizationId entry.1 entry.2

/-- A finding about the documents of one incident. -/
def multiDocumentCandidate (organizationId : Uuid) (incident : Incident)
    (documentIds : List Uuid) : CandidateFinding :=
  { findingType := .incidentMultiDocument
    organizationId
    projectId := some incident.projectId
    fingerprint := fingerprint .incidentMultiDocument incident.id
    supportCount := documentIds.length
    title := s!"{documentIds.length} documents linked to '{incident.title}'"
    summary := s!"{documentIds.length} documents are connected to this incident via the " ++
      "knowledge graph's `documents` relationship."
    evidence := { entityType := .incident, entityId := incident.id, role := "anchor_incident" } ::
      (documentIds.insertionSort (· ≤ ·)).map fun documentId =>
        { entityType := .document, entityId := documentId, role := "supporting_document" } }

/-- A stale edge, whose incident is gone or elsewhere, is dropped. -/
def detectIncidentMultiDocument (organizationId : Uuid) (db : ProactiveDb) :
    List CandidateFinding :=
  let edges := Repository.listActiveEdgesByRelationshipType organizationId "documents" db
  let byIncident := (edges.map KnowledgeGraphEdge.targetEntityId).dedup.map fun incidentId =>
    (incidentId, ((edges.filter fun edge => edge.targetEntityId = incidentId).map
      KnowledgeGraphEdge.sourceEntityId).dedup)
  (byIncident.filter fun entry => multiDocumentMinSupport ≤ entry.2.length).filterMap fun entry =>
    ((Repository.getIncidentById entry.1 db).filter fun incident =>
      incident.organizationId = organizationId).map fun incident =>
        multiDocumentCandidate organizationId incident entry.2

/-- `_DETECTORS`. -/
def detector (now : Instant) : FindingType → Uuid → ProactiveDb → List CandidateFinding
  | .recurringIncidentSeverity => detectRecurringIncidentSeverity now
  | .incidentMultiDocument => detectIncidentMultiDocument

/-- `sorted(unknown_roles)`. -/
def unknownRoles (spec : FindingSpec) (candidate : CandidateFinding) : List String :=
  (((candidate.evidence.map CandidateEvidence.role).filter fun role =>
    role ∉ spec.evidenceRoles).dedup).insertionSort (· ≤ ·)

def validateCandidate (spec : FindingSpec) (candidate : CandidateFinding) : ProactiveM Unit := do
  Service.raiseIf (decide (candidate.supportCount < spec.minimumSupport))
    (validation (s!"candidate support_count {candidate.supportCount} is below the minimum " ++
      s!"{spec.minimumSupport} for '{spec.findingType.value}'")
      "proactive.candidate_below_threshold")
  Service.raiseIf (unknownRoles spec candidate ≠ [])
    (validation ("candidate evidence roles [" ++
      ", ".intercalate ((unknownRoles spec candidate).map fun role => "'" ++ role ++ "'") ++
      "] are not declared for '" ++ spec.findingType.value ++ "'")
      "proactive.unknown_evidence_role")

/-! ## Detection runs -/

structure ReconciliationResult where
  detectorName : String := detectorAgentName
  findingType : FindingType
  organizationId : Uuid
  candidateCount : Nat := 0
  createdCount : Nat := 0
  updatedCount : Nat := 0
  reactivatedCount : Nat := 0
  unchangedCount : Nat := 0
  deactivatedCount : Nat := 0
  error : Option Exn := none

/-- The detectors that raise. -/
abbrev Outage := FindingType → Option Exn

/-- The ids that the database draws for the rows it creates, by their fingerprint. -/
abbrev NewIds := String → Uuid

def CandidateFinding.values (candidate : CandidateFinding) : Repository.FindingValues :=
  { projectId := candidate.projectId
    findingType := candidate.findingType
    fingerprint := candidate.fingerprint
    title := candidate.title
    summary := candidate.summary
    supportCount := candidate.supportCount
    detectorName := "agent:" ++ detectorAgentName }

section Runs

variable (newIds : NewIds) (now : Instant) (organizationId : Uuid)

/-- One round of the loop over the candidates. -/
def reconcileCandidate (spec : FindingSpec) (candidate : CandidateFinding) :
    ProactiveM UpsertAction := do
  validateCandidate spec candidate
  let (row, action) ← Repository.upsertFinding (newIds candidate.fingerprint) organizationId
    candidate.values now
  Repository.replaceEvidence row.id candidate.evidence
  pure action

def reconcileCandidates (spec : FindingSpec) : List CandidateFinding → ProactiveM (List UpsertAction)
  | [] => pure []
  | candidate :: candidates => do
    let action ← reconcileCandidate newIds now organizationId spec candidate
    let actions ← reconcileCandidates spec candidates
    pure (action :: actions)

/-- The second loop: findings that no candidate supports any more. -/
def deactivateUnseen (seenFingerprints : List String) : List ProactiveFinding → ProactiveM Nat
  | [] => pure 0
  | existing :: rest => do
    if existing.fingerprint ∈ seenFingerprints then
      deactivateUnseen seenFingerprints rest
    else do
      let rowsAffected ← Repository.deactivateFinding existing.id now
      let deactivatedCount ← deactivateUnseen seenFingerprints rest
      pure ((if 0 < rowsAffected then 1 else 0) + deactivatedCount)

def runOneDetector (outage : Outage) (findingType : FindingType) :
    ProactiveM ReconciliationResult :=
  match outage findingType with
  | some e => pure { findingType, organizationId, error := some e }
  | none => do
    let candidates ← Service.read (detector now findingType organizationId)
    let actions ← reconcileCandidates newIds now organizationId (FindingType.spec findingType)
      candidates
    let active ← Service.read (Repository.listActiveFindingsByType organizationId findingType)
    let deactivatedCount ← deactivateUnseen now (candidates.map CandidateFinding.fingerprint)
      active
    pure
      { findingType
        organizationId
        candidateCount := candidates.length
        createdCount := actions.count .created
        updatedCount := actions.count .updated
        reactivatedCount := actions.count .reactivated
        unchangedCount := actions.count .unchanged
        deactivatedCount }

/-- One detector after the other; the name of a type is looked up first. -/
def runDetectors (outage : Outage) : List String → ProactiveM (List ReconciliationResult)
  | [] => pure []
  | findingType :: findingTypes => do
    let spec ← Service.ofExcept (getFindingSpec findingType)
    let result ← runOneDetector newIds now organizationId outage spec.findingType
    let results ← runDetectors outage findingTypes
    pure (result :: results)

def runDetection (outage : Outage) (requested : Option (List String)) :
    ProactiveM (List ReconciliationResult) :=
  runDetectors newIds now organizationId outage
    (requested.getD (findingTypes.map FindingType.value))

end Runs

/-! ## Removal of an entity -/

/-- What a finding that lost evidence becomes; the number of findings touched. -/
def recomputeFinding (now : Instant) (organizationId findingId : Uuid) : ProactiveM Nat := do
  let found ← Service.read (Repository.getFinding findingId organizationId)
  match found with
  | none => pure 0
  | some finding => do
    let remaining ← Service.read (Repository.listEvidence findingId)
    let support := remaining.countP fun row => countsTowardSupport row.role
    if support < (FindingType.spec finding.findingType).minimumSupport then
      if finding.status = .active then do
        let _ ← Repository.deactivateFinding findingId now
        pure 1
      else pure 0
    else if finding.supportCount ≠ support then do
      Repository.updateSupport findingId support now
      pure 1
    else pure 0

def recomputeFindings (now : Instant) (organizationId : Uuid) : List Uuid → ProactiveM Nat
  | [] => pure 0
  | findingId :: findingIds => do
    let touched ← recomputeFinding now organizationId findingId
    let rest ← recomputeFindings now organizationId findingIds
    pure (touched + rest)

def handleEvidenceEntityRemoved (now : Instant) (organizationId : Uuid)
    (entityType : EvidenceEntityType) (entityId : Uuid) : ProactiveM Nat := do
  let findingIds ← Repository.removeEvidenceForEntity entityType entityId
  recomputeFindings now organizationId findingIds

/-! ## Reads -/

structure FindingEvidenceRef where
  entityType : EvidenceEntityType
  entityId : Uuid
  role : String
  label : Option String

/-- The row as it is returned, with the support that the caller may know of. -/
def shown (row : ProactiveFinding) (support : Nat) : ProactiveFinding :=
  { row with supportCount := support }

structure FindingDetail where
  finding : ProactiveFinding
  supportingEntities : List FindingEvidenceRef

def mayReadIncident (actor : Identity) (row : Incident) : Bool :=
  row.organizationId = actor.organizationId ∧
    actor.hasPermission incidentReadPermission (some row.projectId)

def mayReadDocument (actor : Identity) (row : Document) : Bool :=
  row.organizationId = actor.organizationId ∧ row.deletedAt = none ∧
    (row.status = .published ∨ actor.hasPermission reviewPermission (some row.projectId))

/-- `None` where the entity is gone or hidden from the caller. -/
def resolveEvidence (actor : Identity) (row : ProactiveFindingEvidence) (db : ProactiveDb) :
    Option FindingEvidenceRef :=
  match row.entityType with
  | .incident =>
    ((Repository.getIncidentById row.entityId db).filter (mayReadIncident actor)).map
      fun incident => { entityType := .incident, entityId := incident.id, role := row.role
                        label := some incident.title }
  | .document =>
    ((Repository.getDocumentById row.entityId db).filter (mayReadDocument actor)).map
      fun document => { entityType := .document, entityId := document.id, role := row.role
                        label := document.title }

def visibleEvidenceAndRecomputedSupport (actor : Identity) (finding : ProactiveFinding)
    (db : ProactiveDb) : Option (List FindingEvidenceRef × Nat) :=
  if actor.hasPermission incidentReadPermission finding.projectId then
    let resolved := (Repository.listEvidence finding.id db).filterMap fun row =>
      resolveEvidence actor row db
    let support := resolved.countP fun ref => countsTowardSupport ref.role
    if support < (FindingType.spec finding.findingType).minimumSupport then none
    else some (resolved, support)
  else none

def listFindings (actor : Identity) (status : Option String := none)
    (findingType : Option String := none) (limit : Int := 50) (offset : Int := 0) :
    ProactiveM (List ProactiveFinding) := do
  let listed ← Service.read
    (Repository.listFindings actor.organizationId status findingType limit offset)
  let rows ← Service.ofExcept listed
  Service.read fun db => rows.filterMap fun row =>
    (visibleEvidenceAndRecomputedSupport actor row db).map fun resolved => shown row resolved.2

def findingNotFound (findingId : Uuid) : Exn :=
  notFound "Finding not found." "proactive.finding_not_found" [("finding_id", toString findingId)]

def getFinding (actor : Identity) (findingId : Uuid) : ProactiveM FindingDetail := do
  let found ← Service.read (Repository.getFinding findingId actor.organizationId)
  let row ← Service.orRaise found (findingNotFound findingId)
  let visible ← Service.read (visibleEvidenceAndRecomputedSupport actor row)
  let resolved ← Service.orRaise visible (findingNotFound findingId)
  pure { finding := shown row resolved.2, supportingEntities := resolved.1 }

end Ekip.Core.Proactive
