import Ekip.Ingestion.Connectors.UpdateOrder

/-!
# The Azure DevOps connector: `ingestion/connectors/azure_devops.py`

The ids of a project are queried again for each page, and a slice of them is
resolved to work items.
-/
namespace Ekip.Ingestion.AzureDevOps

open Ekip.Lib.Paging Ekip.Database Ekip.Ingestion.UpdateOrder

/-! ## The connector -/

structure Comment where
  createdBy : String := "unknown"
  text : String := ""

structure WorkItem where
  id : Nat
  title : String := ""
  description : String := ""
  workItemType : Option String := none
  state : Option String := none
  assignedTo : Option String := none
  createdDate : Option String := none
  changedDate : Instant
  comments : List Comment := []

def WorkItem.entry (item : WorkItem) : Entry := { id := toString item.id, updatedAt := item.changedDate }

structure AzureDevOpsClient where
  organization : String
  projects : List String
  /-- So many comments come in a response, and one response is read. -/
  commentsPerResponse : Nat := 200

/-- A work item with its `_project`, `_organization` and `_comments_text`. -/
structure RawItem where
  project : String
  organization : String
  item : WorkItem
  commentsText : String

structure Cursor where
  projectIndex : Nat := 0
  batchStart : Nat := 0

abbrev AzureDevOpsSource := Source String WorkItem.entry

def batchSize : Nat := 200

/-- `strftime("%Y-%m-%dT%H:%M:%SZ")`: the fraction of the second is cut off. -/
def sinceStr (since : Instant) : Instant := since - since % 1000000

/-- `[System.ChangedDate] >= '{since_str}'`. -/
def passes (since : Option Instant) (entry : Entry) : Bool :=
  since.all fun t => sinceStr t ≤ entry.updatedAt

def queryWorkItemIds (source : AzureDevOpsSource) (project : String) (since : Option Instant) :
    List Nat :=
  (source.listed (passes since) project).map WorkItem.id

def fetchWorkItems (source : AzureDevOpsSource) (project : String) (ids : List Nat) : List WorkItem :=
  ids.filterMap fun id => (source.items project).find? fun item => item.id = id

def fetchCommentsText (item : WorkItem) : String :=
  "\n\n".intercalate (item.comments.map fun comment => comment.createdBy ++ ": " ++ comment.text)

def WorkItem.firstResponse (item : WorkItem) (perResponse : Nat) : WorkItem :=
  { item with comments := item.comments.take perResponse }

/-- `System.CommentCount` is the number of all comments. -/
def rawItem (client : AzureDevOpsClient) (project : String) (perResponse : Nat) (item : WorkItem) :
    RawItem where
  project
  organization := client.organization
  item
  commentsText :=
    if item.comments.length ≠ 0 then fetchCommentsText (item.firstResponse perResponse) else ""

def fetchBatch (client : AzureDevOpsClient) (since : Option Instant) (source : AzureDevOpsSource)
    (cursor : Option Cursor) : FetchResult RawItem Cursor Unit :=
  let state := cursor.getD {}
  match client.projects[state.projectIndex]? with
  | none => {}
  | some project =>
    let workItemIds := queryWorkItemIds source project since
    let batchIds := slice state.batchStart batchSize workItemIds
    let items := (fetchWorkItems source project batchIds).map
      (rawItem client project client.commentsPerResponse)
    let nextBatchStart := state.batchStart + batchIds.length
    if nextBatchStart < workItemIds.length then
      { items, nextCursor := some { state with batchStart := nextBatchStart }, hasMore := true }
    else
      let hasMore := state.projectIndex + 1 < client.projects.length
      { items
        nextCursor :=
          if hasMore then some { projectIndex := state.projectIndex + 1, batchStart := 0 } else none
        hasMore }

/-- A report and its comments. -/
def content (rawItem : RawItem) : String :=
  let report :=
    if rawItem.item.description = "" then rawItem.item.title
    else rawItem.item.title ++ "\n\n" ++ rawItem.item.description
  if rawItem.commentsText = "" then report
  else report ++ "\n\n--- Comments ---\n\n" ++ rawItem.commentsText

def normalize (rawItem : RawItem) : RawDocument where
  source := "azure_devops"
  externalId := rawItem.project ++ ":" ++ toString rawItem.item.id
  content := content rawItem
  title := if rawItem.item.title = "" then none else some rawItem.item.title
  sourceUrl := some ("https://dev.azure.com/" ++ rawItem.organization ++ "/" ++ rawItem.project ++
    "/_workitems/edit/" ++ toString rawItem.item.id)
  metadata :=
    let project := AList.insert "project" rawItem.project ∅
    let described := withEntry "assigned_to" rawItem.item.assignedTo
      (withEntry "state" rawItem.item.state (withEntry "work_item_type" rawItem.item.workItemType project))
    ((withEntry "created" rawItem.item.createdDate described).insert "updated"
      (toString rawItem.item.changedDate)).insert "comments_count"
        (toString rawItem.item.comments.length)

/-! ## Its walk over the projects -/

def plan (client : AzureDevOpsClient) : Plan String RawItem Cursor where
  count := client.projects.length
  container i := client.projects[i]?
  place cursor := ((cursor.getD {}).projectIndex, (cursor.getD {}).batchStart)
  shows project id raw := raw.project = project ∧ raw.item.entry.id = id

theorem rising (since : Option Instant) : Rising (passes since) := by
  intro a b hab ha
  cases since with
  | none => rfl
  | some t =>
    have ht : sinceStr t ≤ a.updatedAt := of_decide_eq_true ha
    exact decide_eq_true (Nat.le_trans ht hab)

/-- Each id of the batch is resolved to the work item that has it. -/
theorem fetchWorkItems_shows {source : AzureDevOpsSource} {project : String} {since : Option Instant}
    {offset : Nat} {id : String} (h : id ∈ slice offset batchSize (source.ids (passes since) project)) :
    ∃ item ∈ fetchWorkItems source project
        (slice offset batchSize (queryWorkItemIds source project since)), item.entry.id = id := by
  obtain ⟨item, hitem, rfl⟩ := mem_slice_ids h
  have hmem : item ∈ source.items project :=
    (List.mem_filter.mp (List.mem_of_mem_drop (List.mem_of_mem_take hitem))).1
  have hsome : ((source.items project).find? fun other => other.id = item.id).isSome := by
    rw [List.find?_isSome]
    exact ⟨item, hmem, decide_eq_true rfl⟩
  obtain ⟨found, hfound⟩ := Option.isSome_iff_exists.mp hsome
  have hid : found.id = item.id := by simpa using List.find?_some hfound
  refine ⟨found, List.mem_filterMap.mpr ⟨item.id, ?_, hfound⟩, ?_⟩
  · unfold queryWorkItemIds
    rw [← map_slice]
    exact List.mem_map_of_mem hitem
  · unfold WorkItem.entry
    rw [hid]

theorem turns (client : AzureDevOpsClient) (since : Option Instant) (source : AzureDevOpsSource)
    (cursor : Option Cursor) {project : String}
    (hproject : (plan client).container ((plan client).place cursor).1 = some project) :
    (plan client).Turns batchSize project (source.ids (passes since) project) cursor
      (fetchBatch client since source cursor) := by
  have hindex : client.projects[(cursor.getD {}).projectIndex]? = some project := hproject
  have hids : (queryWorkItemIds source project since).length =
      (source.ids (passes since) project).length := by
    unfold queryWorkItemIds Source.ids
    rw [List.length_map, List.length_map]
  unfold fetchBatch
  dsimp only
  rw [hindex]
  dsimp only
  have hitems : ∀ id ∈ slice (cursor.getD {}).batchStart batchSize (source.ids (passes since) project),
      ∃ raw ∈ (fetchWorkItems source project (slice (cursor.getD {}).batchStart batchSize
        (queryWorkItemIds source project since))).map
          (rawItem client project client.commentsPerResponse),
        (plan client).shows project id raw := by
    intro id hid
    obtain ⟨item, hitem, hshown⟩ := fetchWorkItems_shows hid
    exact ⟨_, List.mem_map_of_mem hitem, rfl, hshown⟩
  have hlength : (slice (cursor.getD {}).batchStart batchSize
      (queryWorkItemIds source project since)).length =
        min batchSize ((queryWorkItemIds source project since).length - (cursor.getD {}).batchStart) := by
    unfold slice
    rw [List.length_take, List.length_drop]
  split
  · rename_i hmore
    refine ⟨hitems, .inl ⟨rfl, ?_⟩⟩
    have hfull : (slice (cursor.getD {}).batchStart batchSize
        (queryWorkItemIds source project since)).length = batchSize := by
      omega
    show ((cursor.getD {}).projectIndex, (cursor.getD {}).batchStart + _) = _
    rw [hfull]
    rfl
  · rename_i hend
    refine ⟨hitems, .inr ⟨?_, ?_⟩⟩
    · apply List.drop_eq_nil_of_le
      show _ ≤ (cursor.getD {}).batchStart + batchSize
      omega
    · intro hlater
      have hmore : (cursor.getD {}).projectIndex + 1 < client.projects.length := hlater
      refine ⟨decide_eq_true hmore, ?_⟩
      rw [if_pos hmore]
      rfl

theorem container_of_project {client : AzureDevOpsClient} {project : String}
    (h : project ∈ client.projects) :
    ∃ i < (plan client).count, (plan client).container i = some project := by
  obtain ⟨i, hi, rfl⟩ := List.mem_iff_getElem.mp h
  exact ⟨i, hi, List.getElem?_eq_getElem hi⟩

theorem pages (client : AzureDevOpsClient) (since : Option Instant) :
    ((plan client).layout WorkItem.entry (passes since)).Pages (fetchBatch client since) := by
  refine Plan.pages batchSize rfl ?_ fun source cursor project hproject =>
    turns client since source cursor hproject
  intro i hi
  exact ⟨_, List.getElem?_eq_getElem hi⟩

end Ekip.Ingestion.AzureDevOps
