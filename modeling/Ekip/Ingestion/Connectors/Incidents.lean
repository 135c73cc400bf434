import Ekip.Core.Incidents.Repository
import Ekip.Ingestion.Connectors.Base

/-!
# The incidents connector: `ingestion/connectors/incidents.py`

Its source is the incident table of the organization itself. The cursor is the
offset of the next page.
-/
namespace Ekip.Ingestion.Incidents

open Ekip.Database Ekip.Core.Incidents

def pageSize : Nat := 50

/-- What `model_dump` keeps of a row, and the root cause beside it. -/
structure RawIncident where
  id : Uuid
  title : String
  description : String
  status : IncidentStatus
  severity : String
  rootCause : Option String

def rawIncident (pair : IncidentRow × Option String) : RawIncident :=
  { id := pair.1.id
    title := pair.1.title
    description := pair.1.description
    status := pair.1.status
    severity := pair.1.severity
    rootCause := pair.2 }

variable {ε : Type}

def fetchBatch (db : IncidentDb ε) (organizationId : Uuid) (since : Option Instant)
    (cursor : Option Nat) : FetchResult RawIncident Nat Unit :=
  let offset := cursor.getD 0
  let pairs := Repository.listIncidentsForIngestion db organizationId since offset pageSize
  let items := pairs.map rawIncident
  let hasMore := items.length = pageSize
  { items
    nextCursor := if hasMore then some (offset + items.length) else none
    hasMore }

/-- The resolution is appended where there is one. -/
def content (rawItem : RawIncident) : String :=
  let report := rawItem.title ++ "\n\n" ++ rawItem.description
  match rawItem.rootCause.filter (· ≠ "") with
  | some rootCause => report ++ "\n\nResolution: " ++ rootCause
  | none => report

def normalize (rawItem : RawIncident) : RawDocument where
  source := "incidents"
  externalId := toString rawItem.id
  content := content rawItem
  title := some rawItem.title
  sourceUrl := some ("/incidents/" ++ toString rawItem.id)
  metadata :=
    ((AList.insert "incident_id" (toString rawItem.id) ∅).insert "status"
      rawItem.status.value).insert "severity" rawItem.severity

/-- A page is made of incidents of the organization. -/
theorem mem_fetchBatch {db : IncidentDb ε} {organizationId : Uuid} {since : Option Instant}
    {cursor : Option Nat} {item : RawIncident}
    (h : item ∈ (fetchBatch db organizationId since cursor).items) :
    ∃ row ∈ db.incidents, row.id = item.id ∧ row.organizationId = organizationId := by
  obtain ⟨pair, hpair, rfl⟩ := List.mem_map.mp h
  obtain ⟨hrow, horg⟩ := Repository.mem_listIncidentsForIngestion hpair
  exact ⟨pair.1, hrow, rfl, horg⟩

end Ekip.Ingestion.Incidents
