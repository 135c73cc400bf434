import Ekip.Core.Incidents.Repository
import Ekip.Core.Knowledge.Service

/-!
# `core/incidents/service.py`: creating, reading and updating incidents
-/
namespace Ekip.Core.Incidents

open Ekip.Lib Ekip.Database Ekip.Shared Ekip.Core

def incidentReadPermission : String := "incident:read"
def incidentWritePermission : String := "incident:write"

structure IncidentCreate where
  title : String
  description : String
  severity : String
  projectId : Option Uuid := none

/-- A field that the request leaves out is unset; one that it names may be `null`. -/
structure IncidentUpdate where
  status : Option (Option IncidentStatus) := none
  severity : Option (Option String) := none
  ownerTeam : Option (Option String) := none
deriving DecidableEq

/-- What one request draws, and the time of its transaction. -/
structure Draw where
  incidentId : Uuid
  now : Instant

variable {ε : Type} (draw : Draw)

def ensureSameOrganization (actor : Identity) (organizationId : Uuid) : IncidentM ε Unit :=
  Service.raiseIf (actor.organizationId ≠ organizationId)
    (permissionDenied "Cannot access another organization's data."
      "incident.cross_organization_denied" [("organization_id", toString organizationId)])

def requireProjectPermission (actor : Identity) (projectId : Uuid) (permissionCode : String) :
    IncidentM ε Unit :=
  Service.raiseIf (!Users.authorize actor permissionCode (some projectId))
    (permissionDenied "You do not have permission to perform this action." "permission_denied"
      [("required_permission", permissionCode)])

def getOwnedIncident (organizationId incidentId : Uuid) : IncidentM ε IncidentRow := do
  let row ← Service.read fun db => Repository.getIncidentById db incidentId
  Service.orRaise (row.filter fun row => row.organizationId = organizationId)
    (notFound "Incident not found." "incident.not_found" [("incident_id", toString incidentId)])

/-- An operation on documents and chunks, among the incidents. -/
def onContent {α : Type} (x : Knowledge.ContentM ε α) : IncidentM ε α :=
  Service.zoom IncidentDb.toContentDb (fun content db => { db with toContentDb := content }) x

def incidentProject (organizationId : Uuid) : Option Uuid → IncidentM ε Uuid
  | some projectId => pure projectId
  | none => do
    let project ← onContent (Knowledge.getDefaultProject organizationId)
    pure project.id

def invalidActor : Exn :=
  validation "Only a user identity can report an incident." "incident.invalid_actor"

def createIncident (actor : Identity) (organizationId : Uuid) (data : IncidentCreate) :
    IncidentM ε IncidentRow := do
  ensureSameOrganization actor organizationId
  let reportedBy ← Service.orRaise actor.userId invalidActor
  let projectId ← incidentProject organizationId data.projectId
  requireProjectPermission actor projectId incidentWritePermission
  Repository.insertIncident draw.incidentId draw.now organizationId projectId data.title
    data.description data.severity reportedBy

def getIncident (actor : Identity) (organizationId incidentId : Uuid) : IncidentM ε IncidentRow := do
  ensureSameOrganization actor organizationId
  let row ← getOwnedIncident organizationId incidentId
  requireProjectPermission actor row.projectId incidentReadPermission
  pure row

/-- The time of resolution follows the status. -/
def resolution (existing : IncidentRow) : Option IncidentStatus → Option Instant
  | some .resolved | some .closed => existing.resolvedAt.or (some draw.now)
  | some .open | some .investigating => none
  | none => existing.resolvedAt

/-- A column that is not nullable: the value that the request names, or the present one. -/
def notNull {α : Type} (column : String) (current : α) : Option (Option α) → Except Exn α
  | none => .ok current
  | some (some value) => .ok value
  | some none => .error (.integrityError column)

def patchFields (existing : IncidentRow) (patch : IncidentUpdate) : Except Exn IncidentRow := do
  let status ← notNull "incidents.status" existing.status patch.status
  let severity ← notNull "incidents.severity" existing.severity patch.severity
  pure
    { existing with
      status
      severity
      ownerTeam := patch.ownerTeam.getD existing.ownerTeam
      resolvedAt := resolution draw existing patch.status.join }

def disappeared : Exn := .runtimeError "Incident disappeared mid-update."

def updateIncident (actor : Identity) (organizationId incidentId : Uuid) (patch : IncidentUpdate) :
    IncidentM ε IncidentRow := do
  ensureSameOrganization actor organizationId
  let existing ← getOwnedIncident organizationId incidentId
  requireProjectPermission actor existing.projectId incidentWritePermission
  if patch = {} then pure existing
  else do
    let patched ← Service.ofExcept (patchFields draw existing patch)
    let row ← Repository.updateIncident draw.now incidentId fun _ => patched
    Service.orRaise row disappeared

/-! ## What the operations return -/

variable {draw} {db db' : IncidentDb ε} {actor : Identity} {organizationId incidentId : Uuid}
  {row : IncidentRow}

theorem getOwnedIncident_returns :
    (getOwnedIncident organizationId incidentId).Returns db row db' ↔
      Repository.getIncidentById db incidentId = some row ∧ row.organizationId = organizationId ∧
        db = db' := by
  simp only [getOwnedIncident, Service.bind_returns, Service.read_returns,
    Service.orRaise_returns, Option.filter_eq_some_iff, decide_eq_true_eq]
  constructor
  · intro h
    obtain ⟨_, _, ⟨rfl, rfl⟩, ⟨hrow, horg⟩, rfl⟩ := h
    exact ⟨hrow, horg, rfl⟩
  · intro h
    obtain ⟨hrow, horg, rfl⟩ := h
    exact ⟨_, _, ⟨rfl, rfl⟩, ⟨hrow, horg⟩, rfl⟩

theorem getIncident_returns :
    (getIncident actor organizationId incidentId).Returns db row db' ↔
      actor.organizationId = organizationId ∧
        Repository.getIncidentById db incidentId = some row ∧
        row.organizationId = organizationId ∧
        actor.hasPermission incidentReadPermission (some row.projectId) = true ∧ db = db' := by
  simp only [getIncident, ensureSameOrganization, requireProjectPermission, Service.bind_returns,
    Service.raiseIf_returns, getOwnedIncident_returns, Service.pure_returns,
    decide_eq_false_iff_not, not_not, Bool.not_eq_eq_eq_not, Bool.not_false, Users.authorize]
  constructor
  · intro h
    obtain ⟨_, _, ⟨hactor, rfl⟩, _, _, ⟨hrow, horg, rfl⟩, _, _, ⟨hread, rfl⟩, rfl, rfl⟩ := h
    exact ⟨hactor, hrow, horg, hread, rfl⟩
  · intro h
    obtain ⟨hactor, hrow, horg, hread, rfl⟩ := h
    exact ⟨(), _, ⟨hactor, rfl⟩, row, _, ⟨hrow, horg, rfl⟩, (), _, ⟨hread, rfl⟩, rfl, rfl⟩

/-- Looking for an incident writes nothing, and fails with a domain error. -/
theorem getOwnedIncident_cases (organizationId incidentId : Uuid) (db : IncidentDb ε) :
    (∃ row, getOwnedIncident organizationId incidentId db = (.ok row, db)) ∨
      ∃ error, getOwnedIncident organizationId incidentId db = (.error (.ekip error), db) := by
  unfold getOwnedIncident
  rw [Service.bind_read]
  cases (Repository.getIncidentById db incidentId).filter
      fun row => decide (row.organizationId = organizationId) with
  | none => exact .inr ⟨_, Service.orRaise_none⟩
  | some row => exact .inl ⟨row, Service.orRaise_some⟩

/-- So does reading it. -/
theorem getIncident_cases (actor : Identity) (organizationId incidentId : Uuid) (db : IncidentDb ε) :
    (∃ row, getIncident actor organizationId incidentId db = (.ok row, db)) ∨
      ∃ error, getIncident actor organizationId incidentId db = (.error (.ekip error), db) := by
  unfold getIncident ensureSameOrganization requireProjectPermission
  cases hsame : decide (actor.organizationId ≠ organizationId) with
  | true => exact .inr ⟨_, Service.bind_of_error (Service.raiseIf_of_true rfl)⟩
  | false =>
    simp only [Service.bind_of_ok (Service.raiseIf_of_false rfl)]
    rcases getOwnedIncident_cases organizationId incidentId db with ⟨row, hfound⟩ | ⟨error, hmissing⟩
    · simp only [Service.bind_of_ok hfound]
      cases hread : !Users.authorize actor incidentReadPermission (some row.projectId) with
      | true => exact .inr ⟨_, Service.bind_of_error (Service.raiseIf_of_true rfl)⟩
      | false => exact .inl ⟨row, Service.bind_of_ok (Service.raiseIf_of_false rfl)⟩
    · exact .inr ⟨error, Service.bind_of_error hmissing⟩

theorem incidentProject_returns {named : Option Uuid} {projectId : Uuid}
    (h : (incidentProject organizationId named).Returns db projectId db') :
    db' = db ∧ Knowledge.Chosen db.projects organizationId named projectId := by
  cases named with
  | some id =>
    obtain ⟨rfl, rfl⟩ := Service.pure_returns.mp h
    exact ⟨rfl, .inl rfl⟩
  | none =>
    simp only [incidentProject, onContent, Service.bind_returns, Service.zoom_returns,
      Service.pure_returns] at h
    obtain ⟨project, _, ⟨_, hdefault, rfl⟩, rfl, rfl⟩ := h
    obtain ⟨rfl, hproject, horg⟩ := Knowledge.getDefaultProject_returns hdefault
    exact ⟨rfl, .inr ⟨rfl, project, hproject, rfl, horg⟩⟩

/-- A new incident is the actor's organization's, under the project that the request
names or the default project. -/
theorem createIncident_returns {data : IncidentCreate}
    (h : (createIncident draw actor organizationId data).Returns db row db') :
    actor.organizationId = organizationId ∧ (∀ other ∈ db.incidents, other.id ≠ draw.incidentId) ∧
      row.id = draw.incidentId ∧ row.organizationId = organizationId ∧
      (∃ project ∈ db.projects, project.id = row.projectId) ∧
      Knowledge.Chosen db.projects organizationId data.projectId row.projectId ∧
      db' = { db with incidents := db.incidents ++ [row] } := by
  simp only [createIncident, ensureSameOrganization, requireProjectPermission,
    Service.bind_returns, Service.raiseIf_returns, Service.orRaise_returns,
    decide_eq_false_iff_not, not_not] at h
  obtain ⟨_, _, ⟨hactor, rfl⟩, reportedBy, _, ⟨-, rfl⟩, projectId, _, hproject, _, _, ⟨-, rfl⟩,
    hinsert⟩ := h
  obtain ⟨rfl, hnamed⟩ := incidentProject_returns hproject
  obtain ⟨hfresh, hexists, hid, horg, rfl, hdb⟩ := Repository.insertIncident_returns hinsert
  exact ⟨hactor, hfresh, hid, horg, hexists, hnamed, hdb⟩

/-- The columns that an update does not change. -/
def SameIncident (row row' : IncidentRow) : Prop :=
  row'.id = row.id ∧ row'.organizationId = row.organizationId ∧ row'.projectId = row.projectId

theorem patchFields_ok {existing patched : IncidentRow} {patch : IncidentUpdate}
    (h : patchFields draw existing patch = .ok patched) : SameIncident existing patched := by
  unfold patchFields at h
  obtain ⟨status, -, h⟩ := Query.bind_ok.mp h
  obtain ⟨severity, -, h⟩ := Query.bind_ok.mp h
  cases h
  exact ⟨rfl, rfl, rfl⟩

theorem touch_same {now : Instant} {existing patched : IncidentRow}
    (h : SameIncident existing patched) :
    SameIncident existing (Repository.touch now existing patched) := by
  unfold Repository.touch
  split
  · exact ⟨rfl, rfl, rfl⟩
  · exact h

/-- An update returns with nothing written, or the row that it read is patched in place. -/
theorem updateIncident_patched {patch : IncidentUpdate}
    (h : (updateIncident draw actor organizationId incidentId patch).Returns db row db') :
    db' = db ∨ ∃ existing patched, Repository.getIncidentById db incidentId = some existing ∧
      patchFields draw existing patch = .ok patched ∧
      db' = { db with
        incidents := Table.updateWhere db.incidents (fun row => row.id = incidentId)
          (fun row => Repository.touch draw.now row patched) } := by
  simp only [updateIncident, ensureSameOrganization, requireProjectPermission,
    Service.bind_returns, Service.raiseIf_returns, getOwnedIncident_returns] at h
  obtain ⟨_, _, ⟨-, rfl⟩, existing, _, ⟨hexisting, -, rfl⟩, _, _, ⟨-, rfl⟩, h⟩ := h
  rcases Service.ite_returns.mp h with ⟨-, hsame⟩ | ⟨-, hwrite⟩
  · obtain ⟨-, rfl⟩ := Service.pure_returns.mp hsame
    exact .inl rfl
  · simp only [Service.bind_returns, Service.ofExcept_returns, Service.orRaise_returns] at hwrite
    obtain ⟨patched, _, ⟨hpatched, rfl⟩, _, _, hupdate, -, rfl⟩ := hwrite
    exact .inr ⟨existing, patched, hexisting, hpatched, Repository.updateIncident_returns hupdate⟩

/-- An update rewrites the one row in place. -/
theorem updateIncident_returns {patch : IncidentUpdate}
    (h : (updateIncident draw actor organizationId incidentId patch).Returns db row db') :
    db' = db ∨ ∃ existing patched, Repository.getIncidentById db incidentId = some existing ∧
      SameIncident existing patched ∧
      db' = { db with
        incidents := Table.updateWhere db.incidents (fun row => row.id = incidentId)
          (fun row => Repository.touch draw.now row patched) } := by
  rcases updateIncident_patched h with hsame | ⟨existing, patched, hexisting, hpatched, hdb⟩
  · exact .inl hsame
  · exact .inr ⟨existing, patched, hexisting, patchFields_ok hpatched, hdb⟩

end Ekip.Core.Incidents
