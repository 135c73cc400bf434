import Ekip.Lib.Paging
import Ekip.Lib.Visits
import Ekip.Ingestion.Connectors.Base

/-!
# The PagerDuty connector: `ingestion/connectors/pagerduty.py`
-/
namespace Ekip.Ingestion.PagerDuty

open Ekip.Lib Ekip.Lib.Paging Ekip.Database

/-! ## The connector -/

structure Incident where
  id : String
  title : Option String := none
  status : String := ""
  urgency : String := ""
  serviceId : String := ""
  serviceSummary : String := ""
  createdAt : Instant
  resolvedAt : Option Instant := none
  htmlUrl : Option String := none

structure PagerDutyClient where
  serviceIds : List String := []

/-- The incidents in the order of their creation. -/
structure PagerDutySource where
  incidents : List Incident

/-- `limit`. -/
def limit : Nat := 100

/-- `since` and `service_ids[]`; without the latter every service is meant. -/
def selected (client : PagerDutyClient) (since : Option Instant) (incident : Incident) : Bool :=
  admitsTime since incident.createdAt && (client.serviceIds.isEmpty ||
    decide (incident.serviceId ∈ client.serviceIds))

def answer (client : PagerDutyClient) (since : Option Instant) (source : PagerDutySource) :
    List Incident :=
  source.incidents.filter (selected client since)

def fetchBatch (client : PagerDutyClient) (since : Option Instant) (source : PagerDutySource)
    (cursor : Option Nat) : FetchResult Incident Nat Unit :=
  let offset := cursor.getD 0
  let items := slice offset limit (answer client since source)
  let hasMore := offset + items.length < (answer client since source).length
  { items
    nextCursor := if hasMore then some (offset + items.length) else none
    hasMore }

def normalize (rawItem : Incident) : RawDocument where
  source := "pagerduty"
  externalId := rawItem.id
  title := rawItem.title
  content := "\n".intercalate
    [rawItem.title.getD "",
      "Status: " ++ rawItem.status,
      "Urgency: " ++ rawItem.urgency,
      "Service: " ++ rawItem.serviceSummary,
      "Created: " ++ toString rawItem.createdAt,
      "Resolved: " ++ (rawItem.resolvedAt.map toString).getD ""]
  sourceUrl := rawItem.htmlUrl
  metadata :=
    (((AList.insert "status" rawItem.status ∅).insert "urgency" rawItem.urgency).insert "service"
      rawItem.serviceSummary).insert "created" (toString rawItem.createdAt)

/-! ## Its walk over the incidents -/

variable (client : PagerDutyClient) (since : Option Instant) (source : PagerDutySource)

def fetch (cursor : Option Nat) : List Incident × Option (Option Nat) :=
  ((fetchBatch client since source cursor).items,
    (fetchBatch client since source cursor).next.map some)

theorem visits : Visits [()] (fun _ => answer client since source) (fun _ incident => [incident])
    (fun cursor => (0, cursor.getD 0)) (fetch client since source) where
  ended := by
    intro c h
    cases h
  turn := by
    intro c container _
    have hnext : (fetch client since source c).2 =
        if c.getD 0 + (slice (c.getD 0) limit (answer client since source)).length <
            (answer client since source).length then
          some (some (c.getD 0 + (slice (c.getD 0) limit (answer client since source)).length))
        else none := by
      unfold fetch fetchBatch
      dsimp only
      rw [FetchResult.next_ite]
      split <;> rfl
    have hsize : limit = 100 := rfl
    have hlength : (slice (c.getD 0) limit (answer client since source)).length =
        min limit ((answer client since source).length - c.getD 0) := by
      rw [slice, List.length_take, List.length_drop]
    refine ⟨slice (c.getD 0) limit (answer client since source),
      (answer client since source).drop
        (c.getD 0 + (slice (c.getD 0) limit (answer client since source)).length), ?_,
      (List.flatMap_singleton' _).symm, ?_⟩
    · rw [← List.drop_drop, hlength]
      have hdrop := List.take_append_drop
        (min limit ((answer client since source).length - c.getD 0))
        ((answer client since source).drop (c.getD 0))
      have htake : ((answer client since source).drop (c.getD 0)).take
          (min limit ((answer client since source).length - c.getD 0)) =
            slice (c.getD 0) limit (answer client since source) := by
        rw [← List.length_drop, slice, ← List.take_eq_take_min]
      rw [htake] at hdrop
      exact hdrop.symm
    · rw [hnext]
      by_cases hmore : c.getD 0 + (slice (c.getD 0) limit (answer client since source)).length <
          (answer client since source).length
      · rw [if_pos hmore]
        refine .inl ⟨?_, some _, rfl, rfl, rfl⟩
        intro hnil
        rw [hnil] at hlength hmore
        simp only [List.length_nil] at hlength hmore
        omega
      · rw [if_neg hmore]
        exact .inr (.inr ⟨List.drop_eq_nil_of_le (Nat.le_of_not_lt hmore), Nat.le_refl 1, rfl⟩)

/-- A full walk returns what the filter selects. -/
theorem collects : Collects (fetch client since source) none (answer client since source) := by
  have h := (visits client since source).collects_all (c := none) rfl
  rw [List.flatMap_singleton, itemsOf, List.flatMap_singleton'] at h
  exact h

end Ekip.Ingestion.PagerDuty
