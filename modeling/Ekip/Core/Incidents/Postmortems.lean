import Ekip.Lib.Paging
import Ekip.Core.Incidents.Service

/-!
# Postmortems: `core/incidents/service.py`, `core/incidents/repository.py`

A draft is written for an incident, and a user approves it later. The table stands
beside the incidents it belongs to.
-/
namespace Ekip.Core.Incidents

open Ekip.Lib Ekip.Lib.Paging Ekip.Database Ekip.Shared Ekip.Core

inductive ActionItemStatus
  | «open»
  | inProgress
  | done
deriving DecidableEq

structure ActionItem where
  description : String
  owner : Option String := none
  status : ActionItemStatus := .open
deriving DecidableEq

structure PostmortemRow extends Postmortem where
  actionItems : List ActionItem := []
  generatedBy : String
  reviewedBy : Option Uuid := none
  createdAt : Instant
deriving DecidableEq

structure PostmortemDb where
  incidents : List IncidentRow := []
  postmortems : List PostmortemRow := []

abbrev PostmortemM (α : Type) := Service Exn PostmortemDb α

/-- The id that the database draws, and the time of its transaction. -/
structure PostmortemDraw where
  postmortemId : Uuid
  now : Instant

def postmortemApprovePermission : String := "postmortem:approve"

/-- An operation on the incidents. -/
def onIncidentTable {α : Type} (x : IncidentM Unit α) : PostmortemM α :=
  Service.zoom (fun db => { incidents := db.incidents })
    (fun tables db => { db with incidents := tables.incidents }) x

namespace Repository

def getPostmortemById (db : PostmortemDb) (postmortemId : Uuid) : Option PostmortemRow :=
  Table.get? (fun row => row.id) db.postmortems postmortemId

def getPostmortemByIncidentId (db : PostmortemDb) (incidentId : Uuid) : Option PostmortemRow :=
  db.postmortems.find? fun row => row.incidentId = incidentId

def insertPostmortem (draw : PostmortemDraw) (organizationId incidentId : Uuid)
    (rootCause : Option String) (actionItems : List ActionItem) (generatedBy : String) :
    PostmortemM PostmortemRow := do
  let postmortems ← Service.read PostmortemDb.postmortems
  Service.raiseIf (postmortems.any fun row => row.id = draw.postmortemId)
    (.integrityError "postmortems_pkey")
  let row : PostmortemRow :=
    { id := draw.postmortemId, organizationId, incidentId, rootCause, actionItems, generatedBy
      createdAt := draw.now, updatedAt := draw.now }
  Service.write fun db => { db with postmortems := db.postmortems ++ [row] }
  pure row

def approved (reviewedBy : Uuid) (now : Instant) (row : PostmortemRow) : PostmortemRow :=
  { row with status := .approved, reviewedBy := some reviewedBy, updatedAt := now }

def updatePostmortem (postmortemId : Uuid) (fields : PostmortemRow → PostmortemRow) :
    PostmortemM Unit :=
  Service.write fun db =>
    { db with
      postmortems := Table.updateWhere db.postmortems (fun row => row.id = postmortemId) fields }

/-- Approved or published. -/
def isReviewed (row : PostmortemRow) : Bool := row.status = .approved ∨ row.status = .published

def listPostmortemsForIngestion (db : PostmortemDb) (organizationId : Uuid) (since : Option Instant)
    (offset limit : Nat) : List PostmortemRow :=
  slice offset limit (ordered PostmortemRow.createdAt (db.postmortems.filter fun row =>
    (row.organizationId = organizationId ∧ isReviewed row) ∧ since.all fun t => t ≤ row.createdAt))

end Repository

def getOwnedPostmortem (organizationId postmortemId : Uuid) : PostmortemM PostmortemRow := do
  let row ← Service.read fun db => Repository.getPostmortemById db postmortemId
  Service.orRaise (row.filter fun row => row.organizationId = organizationId)
    (notFound "Postmortem not found." "postmortem.not_found"
      [("postmortem_id", toString postmortemId)])

def createPostmortem (draw : PostmortemDraw) (actor : Identity) (organizationId incidentId : Uuid)
    (rootCause : Option String) (actionItems : List ActionItem) : PostmortemM PostmortemRow := do
  onIncidentTable (ensureSameOrganization actor organizationId)
  let _ ← onIncidentTable (getOwnedIncident organizationId incidentId)
  let existingPostmortem ← Service.read fun db => Repository.getPostmortemByIncidentId db incidentId
  Service.raiseIf existingPostmortem.isSome
    (conflict "A postmortem already exists for this incident." "postmortem.already_exists"
      [("incident_id", toString incidentId)])
  Repository.insertPostmortem draw organizationId incidentId rootCause actionItems actor.auditTag

/-- The review is over once the postmortem is approved. -/
def reviewable (row : PostmortemRow) : Bool := row.status = .draft ∨ row.status = .inReview

def statusValue : PostmortemStatus → String
  | .draft => "draft"
  | .inReview => "in_review"
  | .approved => "approved"
  | .published => "published"

def approvePostmortem (now : Instant) (actor : Identity) (organizationId postmortemId : Uuid) :
    PostmortemM PostmortemRow := do
  onIncidentTable (ensureSameOrganization actor organizationId)
  let reviewedBy ← Service.orRaise actor.userId
    (validation "Only a user identity can approve a postmortem." "postmortem.invalid_actor")
  let existing ← getOwnedPostmortem organizationId postmortemId
  Service.raiseIf (!reviewable existing)
    (conflict "Only a draft or in-review postmortem can be approved." "postmortem.not_reviewable"
      [("status", statusValue existing.status)])
  let incident ← Service.read fun db => Table.get? (fun row => row.id) db.incidents existing.incidentId
  Service.raiseIf (!Users.authorize actor postmortemApprovePermission
      (incident.map fun row => row.projectId))
    (permissionDenied "You do not have permission to perform this action." "permission_denied"
      [("required_permission", postmortemApprovePermission)])
  Repository.updatePostmortem postmortemId (Repository.approved reviewedBy now)
  pure (Repository.approved reviewedBy now existing)

/-! ## What the operations return -/

variable {draw : PostmortemDraw} {now : Instant} {actor : Identity}
  {organizationId incidentId postmortemId : Uuid} {rootCause : Option String}
  {actionItems : List ActionItem} {db db' : PostmortemDb} {row : PostmortemRow}

theorem ensureSameOrganization_keeps {answer : Unit}
    (h : (onIncidentTable (ensureSameOrganization actor organizationId)).Returns db answer db') :
    db' = db := by
  simp only [onIncidentTable, ensureSameOrganization, Service.zoom_returns, Service.raiseIf_returns] at h
  obtain ⟨_, ⟨-, rfl⟩, rfl⟩ := h
  rfl

theorem getOwnedIncident_keeps {incident : IncidentRow}
    (h : (onIncidentTable (getOwnedIncident organizationId incidentId)).Returns db incident db') :
    db' = db := by
  simp only [onIncidentTable, Service.zoom_returns, getOwnedIncident_returns] at h
  obtain ⟨_, ⟨-, -, rfl⟩, rfl⟩ := h
  rfl

/-- A new draft is added to the table. -/
theorem createPostmortem_returns
    (h : (createPostmortem draw actor organizationId incidentId rootCause actionItems).Returns db row
      db') :
    row.id = draw.postmortemId ∧ row.organizationId = organizationId ∧ row.status = .draft ∧
      row.createdAt = draw.now ∧ (∀ other ∈ db.postmortems, other.id ≠ row.id) ∧
      db' = { db with postmortems := db.postmortems ++ [row] } := by
  unfold createPostmortem at h
  obtain ⟨_, db₁, hsame, howned⟩ := Service.bind_returns.mp h
  obtain rfl := ensureSameOrganization_keeps hsame
  obtain ⟨_, db₂, hincident, hnew⟩ := Service.bind_returns.mp howned
  obtain rfl := getOwnedIncident_keeps hincident
  simp only [Repository.insertPostmortem, Service.bind_returns, Service.read_returns,
    Service.raiseIf_returns, Service.write_returns, Service.pure_returns] at hnew
  obtain ⟨_, _, ⟨-, rfl⟩, _, _, ⟨-, rfl⟩, _, _, ⟨rfl, rfl⟩, _, _, ⟨hfresh, rfl⟩, _, _, rfl, rfl, rfl⟩ :=
    hnew
  refine ⟨rfl, rfl, rfl, rfl, ?_, rfl⟩
  intro other hother hid
  have htaken : (db₂.postmortems.any fun row => row.id = draw.postmortemId) = true :=
    List.any_eq_true.mpr ⟨other, hother, decide_eq_true hid⟩
  rw [htaken] at hfresh
  cases hfresh

/-- A postmortem that was not reviewed yet is approved; the others stay. -/
theorem approvePostmortem_returns
    (h : (approvePostmortem now actor organizationId postmortemId).Returns db row db') :
    ∃ existing reviewedBy, Repository.getPostmortemById db postmortemId = some existing ∧
      existing.organizationId = organizationId ∧ reviewable existing = true ∧
      actor.userId = some reviewedBy ∧ row = Repository.approved reviewedBy now existing ∧
      db' = { db with postmortems := (Table.updateWhere db.postmortems
        (fun row => row.id = postmortemId) (Repository.approved reviewedBy now)) } := by
  unfold approvePostmortem at h
  obtain ⟨_, db₁, hsame, happrove⟩ := Service.bind_returns.mp h
  obtain rfl := ensureSameOrganization_keeps hsame
  simp only [getOwnedPostmortem, Repository.updatePostmortem, Service.bind_returns,
    Service.orRaise_returns, Service.read_returns, Service.raiseIf_returns, Service.write_returns,
    Service.pure_returns, Option.filter_eq_some_iff, decide_eq_true_eq] at happrove
  obtain ⟨reviewedBy, _, ⟨hreviewer, rfl⟩, existing, _, ⟨_, _, ⟨rfl, rfl⟩, ⟨hexisting, horg⟩, rfl⟩,
    _, _, ⟨hreviewable, rfl⟩, _, _, ⟨rfl, rfl⟩, _, _, ⟨-, rfl⟩, _, _, rfl, rfl, rfl⟩ :=
    happrove
  exact ⟨existing, reviewedBy, hexisting, horg, by simpa using hreviewable, hreviewer, rfl, rfl⟩

end Ekip.Core.Incidents
