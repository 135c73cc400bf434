import Ekip.Ingestion.Connectors.UpdateOrder

/-!
# The ServiceNow connector: `ingestion/connectors/servicenow.py`
-/
namespace Ekip.Ingestion.ServiceNow

open Ekip.Lib.Paging Ekip.Database Ekip.Ingestion.UpdateOrder

/-! ## The connector -/

structure Record where
  sysId : String
  number : Option String := none
  shortDescription : Option String := none
  description : Option String := none
  text : Option String := none
  resolutionNotes : Option String := none
  closeNotes : Option String := none
  workNotes : Option String := none
  state : String := ""
  sysUpdatedOn : Instant

def Record.entry (record : Record) : Entry := { id := record.sysId, updatedAt := record.sysUpdatedOn }

structure ServiceNowClient where
  tables : List String := ["incident", "kb_knowledge"]
  instanceUrl : String

/-- A record with its `_table` and `_instance_url`. -/
structure RawItem where
  table : String
  instanceUrl : String
  record : Record

structure Cursor where
  tableIndex : Nat := 0
  offset : Nat := 0

abbrev ServiceNowSource := Source String Record.entry

/-- `sysparm_limit`. -/
def sysparmLimit : Nat := 100

/-- `strftime("%Y-%m-%d %H:%M:%S")`: the fraction of the second is cut off. -/
def stamp (since : Instant) : Instant := since - since % 1000000

/-- `sys_updated_on>{stamp}`. -/
def passes (since : Option Instant) (entry : Entry) : Bool :=
  since.all fun t => stamp t < entry.updatedAt

def fetchBatch (client : ServiceNowClient) (since : Option Instant) (source : ServiceNowSource)
    (cursor : Option Cursor) : FetchResult RawItem Cursor Unit :=
  let state := cursor.getD {}
  match client.tables[state.tableIndex]? with
  | none => {}
  | some table =>
    let answer := source.listed (passes since) table
    let items := (slice state.offset sysparmLimit answer).map fun record =>
      { table, instanceUrl := client.instanceUrl, record }
    if items.length = sysparmLimit then
      { items
        nextCursor := some { state with offset := state.offset + sysparmLimit }
        hasMore := true }
    else
      let hasMore := state.tableIndex + 1 < client.tables.length
      { items
        nextCursor := if hasMore then some { tableIndex := state.tableIndex + 1, offset := 0 } else none
        hasMore }

def title (record : Record) : String :=
  (given record.shortDescription).getD ((given record.number).getD record.sysId)

def normalize (rawItem : RawItem) : RawDocument where
  source := "servicenow"
  externalId := rawItem.table ++ ":" ++ rawItem.record.sysId
  title := some (title rawItem.record)
  content := title rawItem.record ++ "\n\n" ++ "\n\n".intercalate
    ([rawItem.record.description, rawItem.record.text, rawItem.record.resolutionNotes,
      rawItem.record.closeNotes, rawItem.record.workNotes].filterMap given)
  sourceUrl := some (rawItem.instanceUrl ++ "/" ++ rawItem.table ++ ".do?sys_id=" ++
    rawItem.record.sysId)
  metadata :=
    (((AList.insert "table" rawItem.table ∅).insert "number" (rawItem.record.number.getD "")).insert
      "state" rawItem.record.state).insert "updated" (toString rawItem.record.sysUpdatedOn)

/-! ## Its walk over the tables -/

def plan (client : ServiceNowClient) : Plan String RawItem Cursor where
  count := client.tables.length
  container i := client.tables[i]?
  place cursor := ((cursor.getD {}).tableIndex, (cursor.getD {}).offset)
  shows table id raw := raw.table = table ∧ raw.record.entry.id = id

theorem rising (since : Option Instant) : Rising (passes since) := by
  intro a b hab ha
  cases since with
  | none => rfl
  | some t =>
    have ht : stamp t < a.updatedAt := of_decide_eq_true ha
    exact decide_eq_true (Nat.lt_of_lt_of_le ht hab)

theorem turns (client : ServiceNowClient) (since : Option Instant) (source : ServiceNowSource)
    (cursor : Option Cursor) {table : String}
    (htable : (plan client).container ((plan client).place cursor).1 = some table) :
    (plan client).Turns sysparmLimit table (source.ids (passes since) table) cursor
      (fetchBatch client since source cursor) := by
  have hindex : client.tables[(cursor.getD {}).tableIndex]? = some table := htable
  unfold fetchBatch
  dsimp only
  rw [hindex]
  dsimp only
  have hitems : ∀ id ∈ slice (cursor.getD {}).offset sysparmLimit (source.ids (passes since) table),
      ∃ raw ∈ (slice (cursor.getD {}).offset sysparmLimit (source.listed (passes since) table)).map
        (fun record => RawItem.mk table client.instanceUrl record),
        (plan client).shows table id raw := by
    intro id hid
    obtain ⟨record, hrecord, rfl⟩ := mem_slice_ids hid
    exact ⟨_, List.mem_map_of_mem hrecord, rfl, rfl⟩
  split
  · exact ⟨hitems, .inl ⟨rfl, rfl⟩⟩
  · rename_i hshort
    refine ⟨hitems, .inr ⟨?_, ?_⟩⟩
    · rw [List.length_map] at hshort
      exact ids_drop_of_short hshort
    · intro hlater
      have hmore : (cursor.getD {}).tableIndex + 1 < client.tables.length := hlater
      refine ⟨decide_eq_true hmore, ?_⟩
      rw [if_pos hmore]
      rfl

theorem container_of_table {client : ServiceNowClient} {table : String} (h : table ∈ client.tables) :
    ∃ i < (plan client).count, (plan client).container i = some table := by
  obtain ⟨i, hi, rfl⟩ := List.mem_iff_getElem.mp h
  exact ⟨i, hi, List.getElem?_eq_getElem hi⟩

theorem pages (client : ServiceNowClient) (since : Option Instant) :
    ((plan client).layout Record.entry (passes since)).Pages (fetchBatch client since) := by
  refine Plan.pages sysparmLimit rfl ?_ fun source cursor table htable =>
    turns client since source cursor htable
  intro i hi
  exact ⟨_, List.getElem?_eq_getElem hi⟩

end Ekip.Ingestion.ServiceNow
