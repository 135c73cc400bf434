import Ekip.Core.Incidents.Postmortems
import Ekip.Ingestion.Connectors.Base

/-!
# The runbooks connector: `ingestion/connectors/runbooks.py`

Its source is the postmortem table of the organization itself. The cursor is the
offset of the next page.
-/
namespace Ekip.Ingestion.Runbooks

open Ekip.Lib Ekip.Lib.Paging Ekip.Database Ekip.Shared Ekip.Core Ekip.Core.Incidents

structure RunbooksClient where
  organizationId : Uuid
  actor : Identity

def pageSize : Nat := 50

def authenticate (organizationId : Uuid) : RunbooksClient where
  organizationId := organizationId
  actor := { kind := .agent, subject := "ingestion_worker", organizationId }

def fetchBatch (client : RunbooksClient) (db : PostmortemDb) (since : Option Instant)
    (cursor : Option Nat) : FetchResult PostmortemRow Nat Empty :=
  let offset := cursor.getD 0
  let items := Repository.listPostmortemsForIngestion db client.organizationId since offset pageSize
  let hasMore := items.length = pageSize
  { items
    nextCursor := if hasMore then some (offset + items.length) else none
    hasMore }

def actionItemStatus : Incidents.ActionItemStatus → String
  | .open => "open"
  | .inProgress => "in_progress"
  | .done => "done"

def actionLine (item : Incidents.ActionItem) : String :=
  "- [" ++ actionItemStatus item.status ++ "] " ++ item.description ++
    (given item.owner).elim "" fun owner => " (owner: " ++ owner ++ ")"

def content (rawItem : PostmortemRow) : String :=
  let cause := "Root cause: " ++ (given rawItem.rootCause).getD "(no root cause recorded)"
  let actions :=
    if rawItem.actionItems = [] then []
    else "" :: "Action items:" :: rawItem.actionItems.map actionLine
  "\n".intercalate (cause :: actions)

def normalize (rawItem : PostmortemRow) : RawDocument where
  source := "runbooks"
  externalId := toString rawItem.id
  content := content rawItem
  title := some ("Postmortem: incident " ++ toString rawItem.incidentId)
  metadata :=
    (((AList.insert "incident_id" (toString rawItem.incidentId) ∅).insert "status"
      (statusValue rawItem.status)).insert "generated_by" rawItem.generatedBy).insert
        "updated" (toString rawItem.updatedAt)

def runbooksConnector (organizationId : Uuid) :
    Connector Unit RunbooksClient PostmortemDb PostmortemRow Nat Empty where
  sourceName := "runbooks"
  authenticate := fun _ => .ok (authenticate organizationId)
  fetchBatch := fun client db since cursor _ => (fetchBatch client db since cursor, client)
  normalize := normalize

/-! ## The list behind the pages -/

/-- What the repository lists. -/
def eligible (organizationId : Uuid) (since : Option Instant) (row : PostmortemRow) : Bool :=
  (row.organizationId = organizationId ∧ Repository.isReviewed row) ∧
    since.all fun t => t ≤ row.createdAt

def listedIds (organizationId : Uuid) (since : Option Instant) (db : PostmortemDb) : List Uuid :=
  (ordered PostmortemRow.createdAt (db.postmortems.filter (eligible organizationId since))).map
    fun row => row.id

variable {client : RunbooksClient} {db db' : PostmortemDb} {organizationId : Uuid}
  {since : Option Instant} {cursor : Option Nat} {id : Uuid}

theorem mem_listedIds {row : PostmortemRow} (hrow : row ∈ db.postmortems)
    (heligible : eligible organizationId since row = true) :
    row.id ∈ listedIds organizationId since db :=
  List.mem_map_of_mem ((mem_ordered _).mpr (List.mem_filter.mpr ⟨hrow, heligible⟩))

theorem fetchBatch_ids : (fetchBatch client db since cursor).items.map (fun row => row.id) =
    slice (cursor.getD 0) pageSize (listedIds client.organizationId since db) := by
  unfold listedIds
  rw [← map_slice]
  rfl

/-- What lies ahead of the cursor is on the page, or ahead of the next one. -/
theorem fetchBatch_covers (hahead : id ∈ (listedIds client.organizationId since db).drop (cursor.getD 0)) :
    (∃ raw ∈ (fetchBatch client db since cursor).items, raw.id = id) ∨
      ∃ next, (fetchBatch client db since cursor).next = some next ∧
        id ∈ (listedIds client.organizationId since db).drop next := by
  have hlength : (fetchBatch client db since cursor).items.length =
      (slice (cursor.getD 0) pageSize (listedIds client.organizationId since db)).length := by
    rw [← fetchBatch_ids, List.length_map]
  have hshown : ∀ id ∈ slice (cursor.getD 0) pageSize (listedIds client.organizationId since db),
      ∃ raw ∈ (fetchBatch client db since cursor).items, raw.id = id := by
    intro id hid
    rw [← fetchBatch_ids] at hid
    exact List.mem_map.mp hid
  by_cases hfull : (fetchBatch client db since cursor).items.length = pageSize
  · rcases mem_slice_or_ahead_of_length pageSize hahead with hslice | hnext
    · exact .inl (hshown id hslice)
    · refine .inr ⟨_, ?_, hnext⟩
      have hcursor : (fetchBatch client db since cursor).nextCursor =
          some (cursor.getD 0 + (fetchBatch client db since cursor).items.length) := if_pos hfull
      have hmore : (fetchBatch client db since cursor).hasMore = true := decide_eq_true hfull
      unfold FetchResult.next
      rw [if_pos hmore, hcursor, hlength]
  · refine .inl (hshown id ?_)
    have hsplit : id ∈ slice (cursor.getD 0) pageSize (listedIds client.organizationId since db) ∨
        id ∈ (listedIds client.organizationId since db).drop (cursor.getD 0 + pageSize) :=
      mem_slice_or_ahead hahead
    rcases hsplit with hslice | hnext
    · exact hslice
    · rw [hlength] at hfull
      rw [drop_of_short hfull] at hnext
      cases hnext

/-- A new draft is on no page. -/
theorem listedIds_created {row : PostmortemRow} (hdraft : row.status = .draft) :
    listedIds organizationId since { db with postmortems := db.postmortems ++ [row] } =
      listedIds organizationId since db := by
  have hnone : eligible organizationId since row = false := by
    simp [eligible, Repository.isReviewed, hdraft]
  unfold listedIds
  rw [List.filter_append, List.filter_cons_of_neg (by simp [hnone]), List.filter_nil, List.append_nil]

/-- An approval adds to the list, and takes nothing out of it. -/
theorem listedIds_approved {existing : PostmortemRow} {reviewedBy : Uuid} {now : Instant} {offset : Nat}
    (hnodup : (db.postmortems.map fun row => row.id).Nodup) (hmem : existing ∈ db.postmortems)
    (hreviewable : reviewable existing = true) :
    Keeps offset (listedIds organizationId since db)
      (listedIds organizationId since { db with postmortems := (Table.updateWhere db.postmortems
        (fun row => row.id = existing.id) (Repository.approved reviewedBy now)) }) := by
  refine keeps_touched (y := existing.id) (eligible organizationId since) hnodup ?_ ?_ ?_ ?_ ?_
  · intro row _
    dsimp only
    split
    · rfl
    · rfl
  · intro row _ hother
    exact if_neg (by simpa using hother)
  · intro row _
    dsimp only
    split
    · exact Nat.le_refl _
    · exact Nat.le_refl _
  · intro row _ heligible
    dsimp only
    split
    · obtain ⟨⟨horg, -⟩, hsince⟩ := of_decide_eq_true heligible
      exact decide_eq_true ⟨⟨horg, decide_eq_true (Or.inl rfl)⟩, hsince⟩
    · exact heligible
  · -- what is still to be approved is not listed
    intro hlisted
    obtain ⟨row, hrow, hid⟩ := List.mem_map.mp (List.mem_of_mem_take hlisted)
    obtain ⟨hrowMem, heligible⟩ := List.mem_filter.mp ((mem_ordered _).mp hrow)
    have hsame : row = existing := List.inj_on_of_nodup_map hnodup hrowMem hmem hid
    have hreviewed := (of_decide_eq_true heligible).1.2
    rw [hsame] at hreviewed
    rcases of_decide_eq_true hreviewable with hdraft | hreview
    · simp [Repository.isReviewed, hdraft] at hreviewed
    · simp [Repository.isReviewed, hreview] at hreviewed

end Ekip.Ingestion.Runbooks
