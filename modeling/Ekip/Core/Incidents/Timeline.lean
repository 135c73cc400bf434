import Ekip.Core.Incidents.Service

/-!
# The timeline of an incident

The operations of `core/incidents/service.py` on `incident_timeline`.
-/
namespace Ekip.Core.Incidents

open Ekip.Lib Ekip.Database Ekip.Shared Ekip.Core

variable {ε : Type}

abbrev TimelineM (ε α : Type) := Service Exn (TimelineDb ε) α

namespace Repository

/-- `id` is drawn by the database, `now` is the time of its transaction. -/
def insertTimelineEntry (id : Uuid) (now : Instant) (organizationId incidentId : Uuid)
    (event : TimelineEvent) (actor : String) : TimelineM ε TimelineEntry := do
  let entries ← Service.read TimelineDb.incidentTimeline
  Service.raiseIf (entries.any fun entry => entry.id = id) (.integrityError "incident_timeline_pkey")
  let row : TimelineEntry := { id, organizationId, incidentId, event, actor, occurredAt := now }
  Service.write fun db => { db with incidentTimeline := db.incidentTimeline ++ [row] }
  pure row

def listTimelineEntries (db : TimelineDb ε) (incidentId : Uuid) : List TimelineEntry :=
  Query.orderBy (fun a b => decide (a ≤ b)) TimelineEntry.occurredAt
    (db.incidentTimeline.filter fun entry => entry.incidentId = incidentId)

end Repository

/-- An operation on incidents, beside their timeline. -/
def onIncidents {α : Type} (x : IncidentM ε α) : TimelineM ε α :=
  Service.zoom TimelineDb.toIncidentDb (fun incidents db => { db with toIncidentDb := incidents }) x

/-- Who may not read the incident may not read its timeline. -/
def getTimeline (actor : Identity) (organizationId incidentId : Uuid) :
    TimelineM ε (List TimelineEntry) := do
  let _ ← onIncidents (getIncident actor organizationId incidentId)
  Service.read fun db => Repository.listTimelineEntries db incidentId

def recordInvestigationResult (id : Uuid) (now : Instant) (actor : Identity)
    (organizationId incidentId : Uuid) (investigation : InvestigationResult) :
    TimelineM ε TimelineEntry := do
  onIncidents (ensureSameOrganization actor organizationId)
  let _ ← onIncidents (getOwnedIncident organizationId incidentId)
  Repository.insertTimelineEntry id now organizationId incidentId (.investigation investigation)
    actor.auditTag

/-- Under an id that no entry has, the result is recorded, or the incident is another
organization's. -/
theorem recordInvestigationResult_cases {id : Uuid} (now : Instant) (actor : Identity)
    (incidentId : Uuid) (investigation : InvestigationResult) {db : TimelineDb ε}
    (hfresh : ∀ entry ∈ db.incidentTimeline, entry.id ≠ id) :
    (∃ entry db', recordInvestigationResult id now actor actor.organizationId incidentId investigation
      db = (.ok entry, db')) ∨
    ∃ error db', recordInvestigationResult id now actor actor.organizationId incidentId investigation
      db = (.error (.ekip error), db') := by
  have hsame : onIncidents (ensureSameOrganization actor actor.organizationId) db = (.ok (), db) := by
    unfold onIncidents ensureSameOrganization Service.zoom
    rw [Service.raiseIf_of_false (by simp)]
  have hunique : (db.incidentTimeline.any fun entry => decide (entry.id = id)) = false := by
    apply List.any_eq_false.mpr
    intro entry hentry heq
    exact hfresh entry hentry (of_decide_eq_true heq)
  unfold recordInvestigationResult
  rw [Service.bind_of_ok hsame]
  rcases getOwnedIncident_cases actor.organizationId incidentId db.toIncidentDb with
    ⟨row, hfound⟩ | ⟨error, hmissing⟩
  · have howned : onIncidents (getOwnedIncident actor.organizationId incidentId) db = (.ok row, db) := by
      unfold onIncidents Service.zoom
      rw [hfound]
    rw [Service.bind_of_ok howned]
    unfold Repository.insertTimelineEntry
    rw [Service.bind_read, Service.bind_of_ok (Service.raiseIf_of_false hunique)]
    exact .inl ⟨_, _, rfl⟩
  · have hnone : onIncidents (getOwnedIncident actor.organizationId incidentId) db =
        (.error (.ekip error), db) := by
      unfold onIncidents Service.zoom
      rw [hmissing]
    exact .inr ⟨error, db, Service.bind_of_error hnone⟩

end Ekip.Core.Incidents
