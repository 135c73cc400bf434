import Ekip.Lib.Query
import Ekip.Core.Exceptions
import Ekip.Database.ContentModels

/-!
# `core/incidents/repository.py`
-/
namespace Ekip.Core.Incidents

open Ekip.Lib Ekip.Database Ekip.Core

/-- An operation on incidents, documents and chunks. -/
abbrev IncidentM (ε α : Type) := Service Exn (IncidentDb ε) α

namespace Repository

variable {ε : Type}

/-- `id` is drawn by the database, `now` is the time of its transaction. -/
def insertIncident (id : Uuid) (now : Instant) (organizationId projectId : Uuid)
    (title description severity : String) (reportedBy : Uuid) : IncidentM ε IncidentRow := do
  let incidents ← Service.read IncidentDb.incidents
  Service.raiseIf (incidents.any fun row => row.id = id) (.integrityError "incidents_pkey")
  let projects ← Service.read fun db => db.projects
  Service.raiseIf (projects.all fun project => project.id ≠ projectId)
    (.integrityError "incidents_project_id_fkey")
  let row : IncidentRow :=
    { id
      organizationId
      projectId
      title
      severity
      reportedBy
      createdAt := now
      description
      updatedAt := now }
  Service.write fun db => { db with incidents := db.incidents ++ [row] }
  pure row

def getIncidentById (db : IncidentDb ε) (incidentId : Uuid) : Option IncidentRow :=
  Table.get? (fun row => row.id) db.incidents incidentId

/-- An `UPDATE` is sent only where a column changes, and then stamps the row. -/
def touch (now : Instant) (old new : IncidentRow) : IncidentRow :=
  if new = old then old else { new with updatedAt := now }

def updateIncident (now : Instant) (incidentId : Uuid) (f : IncidentRow → IncidentRow) :
    IncidentM ε (Option IncidentRow) := do
  let row ← Service.read fun db => getIncidentById db incidentId
  Service.write fun db =>
    { db with
      incidents := Table.updateWhere db.incidents (fun row => row.id = incidentId)
        (fun row => touch now row (f row)) }
  pure (row.map fun row => touch now row (f row))

/-- The approved or published postmortems of an incident. -/
def reviewedPostmortems (db : IncidentDb ε) (incident : IncidentRow) : List Postmortem :=
  db.postmortems.filter fun postmortem =>
    postmortem.incidentId = incident.id ∧
      (postmortem.status = .approved ∨ postmortem.status = .published)

/-- The outer join: an incident without such a postmortem is paired with none. -/
def withResolution (db : IncidentDb ε) (incident : IncidentRow) :
    List (IncidentRow × Option Postmortem) :=
  match reviewedPostmortems db incident with
  | [] => [(incident, none)]
  | postmortems => postmortems.map fun postmortem => (incident, some postmortem)

/-- `greatest(incidents.updated_at, postmortems.updated_at)`, which ignores a null. -/
def lastModified (pair : IncidentRow × Option Postmortem) : Instant :=
  pair.2.elim pair.1.updatedAt fun postmortem => max pair.1.updatedAt postmortem.updatedAt

def listIncidentsForIngestion (db : IncidentDb ε) (organizationId : Uuid) (since : Option Instant)
    (offset limit : Nat) : List (IncidentRow × Option String) :=
  let incidents := db.incidents.filter fun row =>
    row.organizationId = organizationId ∧ row.deletedAt = none
  let pairs := (incidents.flatMap (withResolution db)).filter fun pair =>
    since.all fun t => t ≤ lastModified pair
  let ordered := pairs.insertionSort fun a b => lastModified a ≤ lastModified b
  ((ordered.drop offset).take limit).map fun pair => (pair.1, pair.2.bind Postmortem.rootCause)

/-! ## What the queries return -/

variable {db db' : IncidentDb ε} {organizationId : Uuid}

theorem getIncidentById_some {incidentId : Uuid} {row : IncidentRow}
    (h : getIncidentById db incidentId = some row) : row ∈ db.incidents ∧ row.id = incidentId :=
  Table.get?_some h

/-- Every page holds incidents of the organization. -/
theorem mem_listIncidentsForIngestion {since : Option Instant} {offset limit : Nat}
    {pair : IncidentRow × Option String}
    (h : pair ∈ listIncidentsForIngestion db organizationId since offset limit) :
    pair.1 ∈ db.incidents ∧ pair.1.organizationId = organizationId := by
  unfold listIncidentsForIngestion at h
  obtain ⟨joined, hjoined, rfl⟩ := List.mem_map.mp h
  have hordered := List.mem_of_mem_drop (List.mem_of_mem_take hjoined)
  have hpairs := (List.mem_insertionSort _).mp hordered
  obtain ⟨incident, hincident, hjoin⟩ := List.mem_flatMap.mp (List.mem_filter.mp hpairs).1
  have hfirst : joined.1 = incident := by
    unfold withResolution at hjoin
    split at hjoin
    · obtain rfl := List.mem_singleton.mp hjoin
      rfl
    · obtain ⟨postmortem, -, rfl⟩ := List.mem_map.mp hjoin
      rfl
  rw [hfirst]
  have hkept := List.mem_filter.mp hincident
  have horg : incident.organizationId = organizationId ∧ incident.deletedAt = none := by
    simpa using hkept.2
  exact ⟨hkept.1, horg.1⟩

theorem insertIncident_returns {id projectId reportedBy : Uuid} {now : Instant}
    {title description severity : String} {row : IncidentRow}
    (h : (insertIncident id now organizationId projectId title description severity
      reportedBy).Returns db row db') :
    (∀ other ∈ db.incidents, other.id ≠ id) ∧ (∃ project ∈ db.projects, project.id = projectId) ∧
      row.id = id ∧ row.organizationId = organizationId ∧ row.projectId = projectId ∧
      db' = { db with incidents := db.incidents ++ [row] } := by
  simp only [insertIncident, Service.bind_returns, Service.read_returns, Service.raiseIf_returns,
    Service.write_returns, Service.pure_returns] at h
  obtain ⟨_, _, ⟨rfl, rfl⟩, _, _, ⟨hfresh, rfl⟩, _, _, ⟨rfl, rfl⟩, _, _, ⟨hproject, rfl⟩, _, _, rfl,
    rfl, rfl⟩ := h
  refine ⟨?_, ?_, rfl, rfl, rfl, rfl⟩
  · intro other hother
    simpa using List.any_eq_false.mp hfresh other hother
  · simpa using hproject

theorem updateIncident_returns {now : Instant} {incidentId : Uuid} {f : IncidentRow → IncidentRow}
    {row : Option IncidentRow} (h : (updateIncident now incidentId f).Returns db row db') :
    db' = { db with
      incidents := Table.updateWhere db.incidents (fun row => row.id = incidentId)
        (fun row => touch now row (f row)) } := by
  simp only [updateIncident, Service.bind_returns, Service.read_returns, Service.write_returns,
    Service.pure_returns] at h
  obtain ⟨_, _, ⟨-, rfl⟩, _, _, rfl, -, rfl⟩ := h
  rfl

end Repository

end Ekip.Core.Incidents
