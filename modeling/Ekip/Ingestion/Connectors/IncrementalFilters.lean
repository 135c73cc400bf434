import Ekip.Ingestion.Connectors.Notion
import Ekip.Ingestion.Connectors.PagerDuty
import Ekip.Ingestion.Connectors.Jira
import Ekip.Ingestion.Connectors.ServiceNow

/-!
# What an incremental walk admits

A walk with `since` should return what was modified then or later. Each connector compares
at a granularity of its own, or compares another time, so that some late changes are not
returned.
-/
namespace Ekip.Ingestion.IncrementalFilters

open Ekip.Lib Ekip.Lib.Paging Ekip.Database

variable {ι κ : Type}

/-- The full walk ends and has returned an item as wanted. -/
def Returns (fetch : Option κ → List ι × Option (Option κ)) (wanted : ι → Prop) : Prop :=
  ∃ items, Collects fetch none items ∧ ∃ raw ∈ items, wanted raw

theorem returns_iff {fetch : Option κ → List ι × Option (Option κ)} {items : List ι}
    {wanted : ι → Prop} (h : Collects fetch none items) :
    Returns fetch wanted ↔ ∃ raw ∈ items, wanted raw := by
  constructor
  · rintro ⟨items', hitems', hwanted⟩
    rw [h.unique hitems']
    exact hwanted
  · exact fun hwanted => ⟨items, h, hwanted⟩

/-! ## The four walks -/

section Walks

variable {since modifiedAt : Instant}

/-- Notion reports times to the minute. -/
def reported (modifiedAt : Instant) : Instant := modifiedAt - modifiedAt % 60000000

theorem notion_returns_iff {source : Notion.NotionSource} {page : Notion.Page}
    (hpage : page ∈ source.pages) (htime : page.lastEditedTime = some (reported modifiedAt)) :
    Returns (Notion.fetch (some since) source) (fun raw => raw.page = page) ↔
      page.inTrash = false ∧ page.archived = false ∧ since < reported modifiedAt := by
  have hskipped : Notion.skipped (some since) page = false ↔
      page.inTrash = false ∧ page.archived = false ∧ since < reported modifiedAt := by
    unfold Notion.skipped Notion.stale
    rw [htime]
    simp [and_assoc]
  rw [returns_iff (Notion.collects (some since) source), ← hskipped]
  constructor
  · rintro ⟨raw, hraw, rfl⟩
    obtain ⟨shown, hshown, hmem⟩ := List.mem_flatMap.mp hraw
    unfold Notion.shown at hmem
    by_cases hskip : Notion.skipped (some since) shown = true
    · rw [if_pos hskip] at hmem
      cases hmem
    · rw [if_neg hskip] at hmem
      rw [List.mem_singleton.mp hmem]
      exact Bool.eq_false_iff.mpr hskip
  · intro hkept
    refine ⟨{ page, content := Notion.pageText source page.id },
      List.mem_flatMap.mpr ⟨page, hpage, ?_⟩, rfl⟩
    unfold Notion.shown
    rw [if_neg (Bool.eq_false_iff.mp hkept)]
    exact List.mem_singleton_self _

theorem pagerDuty_returns_iff {client : PagerDuty.PagerDutyClient}
    {source : PagerDuty.PagerDutySource} {incident : PagerDuty.Incident}
    (hincident : incident ∈ source.incidents)
    (hservice : client.serviceIds = [] ∨ incident.serviceId ∈ client.serviceIds) :
    Returns (PagerDuty.fetch client (some since) source) (fun raw => raw = incident) ↔
      since ≤ incident.createdAt := by
  rw [returns_iff (PagerDuty.collects client (some since) source)]
  have hselected : PagerDuty.selected client (some since) incident = true ↔
      since ≤ incident.createdAt := by
    unfold PagerDuty.selected admitsTime
    simp [hservice]
  constructor
  · rintro ⟨raw, hraw, rfl⟩
    exact hselected.mp (List.mem_filter.mp hraw).2
  · intro hlate
    exact ⟨incident, List.mem_filter.mpr ⟨hincident, hselected.mpr hlate⟩, rfl⟩

theorem jira_returns_iff {client : Jira.JiraClient} {source : Jira.JiraSource} {projectKey : String}
    {issue : Jira.Issue} (hproject : projectKey ∈ client.projects)
    (hissue : issue ∈ source.issues projectKey) :
    Returns (Jira.fetch client (some since) source)
        (fun raw => raw.projectKey = projectKey ∧ raw.issue = issue) ↔
      (Jira.sinceStr since : Int) ≤ issue.updated + source.utcoffset := by
  rw [returns_iff (Jira.collects client (some since) source)]
  have hpasses : Jira.passes source (some since) issue = true ↔
      (Jira.sinceStr since : Int) ≤ issue.updated + source.utcoffset := by
    unfold Jira.passes
    rw [Option.all_some, decide_eq_true_iff]
    omega
  constructor
  · rintro ⟨raw, hraw, rfl, rfl⟩
    obtain ⟨key, -, hitems⟩ := List.mem_flatMap.mp hraw
    obtain ⟨row, hrow, hshown⟩ := List.mem_flatMap.mp hitems
    rw [List.mem_singleton.mp hshown]
    rw [List.mem_singleton.mp hshown] at hpasses
    exact hpasses.mp (List.mem_filter.mp hrow).2
  · intro hlate
    refine ⟨Jira.rawItem source projectKey issue, List.mem_flatMap.mpr ⟨projectKey, hproject, ?_⟩,
      rfl, rfl⟩
    exact List.mem_flatMap.mpr
      ⟨issue, List.mem_filter.mpr ⟨hissue, hpasses.mpr hlate⟩, List.mem_singleton_self _⟩

/-- ServiceNow stores times to the second. -/
def stored (modifiedAt : Instant) : Instant := modifiedAt - modifiedAt % 1000000

section ServiceNow

variable (client : ServiceNow.ServiceNowClient) (since : Option Instant)
  (source : ServiceNow.ServiceNowSource)

def fetchTables (cursor : Option ServiceNow.Cursor) :
    List ServiceNow.RawItem × Option (Option ServiceNow.Cursor) :=
  ((ServiceNow.fetchBatch client since source cursor).items,
    (ServiceNow.fetchBatch client since source cursor).next.map some)

def tableRows (table : String) : List ServiceNow.Record :=
  source.listed (ServiceNow.passes since) table

def tableItems (table : String) (record : ServiceNow.Record) : List ServiceNow.RawItem :=
  [{ table, instanceUrl := client.instanceUrl, record }]

def tablePlace (cursor : Option ServiceNow.Cursor) : Nat × Nat :=
  ((cursor.getD {}).tableIndex, (cursor.getD {}).offset)

theorem serviceNow_visits : Visits client.tables (tableRows since source) (tableItems client)
    tablePlace (fetchTables client since source) where
  ended := by
    intro c h
    have hnone : client.tables[(c.getD {}).tableIndex]? = none := h
    have hempty : ServiceNow.fetchBatch client since source c = {} := by
      unfold ServiceNow.fetchBatch
      dsimp only
      rw [hnone]
    unfold fetchTables
    rw [hempty]
    rfl
  turn := by
    intro c table h
    have htable : client.tables[(c.getD {}).tableIndex]? = some table := h
    have hitems : (fetchTables client since source c).1 =
        (slice (tablePlace c).2 ServiceNow.sysparmLimit (tableRows since source table)).flatMap
          (tableItems client table) := by
      have hmap : (fetchTables client since source c).1 =
          (slice (tablePlace c).2 ServiceNow.sysparmLimit (tableRows since source table)).map
            (fun record => { table, instanceUrl := client.instanceUrl, record }) := by
        unfold fetchTables ServiceNow.fetchBatch
        dsimp only
        rw [htable]
        dsimp only
        split <;> rfl
      rw [hmap]
      exact (List.flatMap_pure_eq_map _ _).symm
    refine ⟨slice (tablePlace c).2 ServiceNow.sysparmLimit (tableRows since source table),
      (tableRows since source table).drop ((tablePlace c).2 + ServiceNow.sysparmLimit), ?_, hitems, ?_⟩
    · rw [← List.drop_drop]
      exact (List.take_append_drop _ _).symm
    · by_cases hfull : (slice (tablePlace c).2 ServiceNow.sysparmLimit
          (tableRows since source table)).length = ServiceNow.sysparmLimit
      · refine .inl ⟨?_, some { c.getD {} with offset := (tablePlace c).2 + ServiceNow.sysparmLimit },
          ?_, rfl, rfl⟩
        · intro hnil
          rw [hnil] at hfull
          cases hfull
        · unfold tablePlace tableRows at hfull
          unfold fetchTables ServiceNow.fetchBatch
          dsimp only
          rw [htable]
          dsimp only
          rw [List.length_map, if_pos hfull]
          rfl
      · have hrest : (tableRows since source table).drop
            ((tablePlace c).2 + ServiceNow.sysparmLimit) = [] := drop_of_short hfull
        have hnext : (fetchTables client since source c).2 =
            (if (c.getD {}).tableIndex + 1 < client.tables.length then
              some { tableIndex := (c.getD {}).tableIndex + 1, offset := 0 } else none).map some := by
          unfold tablePlace tableRows at hfull
          unfold fetchTables ServiceNow.fetchBatch
          dsimp only
          rw [htable]
          dsimp only
          rw [List.length_map, if_neg hfull, FetchResult.next_ite]
        refine .inr ?_
        by_cases hlater : (c.getD {}).tableIndex + 1 < client.tables.length
        · rw [if_pos hlater] at hnext
          exact .inl ⟨hrest, hlater, _, hnext, rfl⟩
        · rw [if_neg hlater] at hnext
          exact .inr ⟨hrest, Nat.le_of_not_lt hlater, hnext⟩

end ServiceNow

theorem serviceNow_returns_iff {client : ServiceNow.ServiceNowClient}
    {source : ServiceNow.ServiceNowSource} {table : String} {record : ServiceNow.Record}
    (htable : table ∈ client.tables) (hrecord : record ∈ source.items table)
    (htime : record.sysUpdatedOn = stored modifiedAt) :
    Returns (fetchTables client (some since) source)
        (fun raw => raw.table = table ∧ raw.record = record) ↔
      stored since < stored modifiedAt := by
  have hcollects := (serviceNow_visits client (some since) source).collects_all (c := none) rfl
  rw [returns_iff hcollects]
  have hpasses : ServiceNow.passes (some since) record.entry = true ↔
      stored since < stored modifiedAt := by
    unfold ServiceNow.passes
    rw [Option.all_some, decide_eq_true_iff, ← htime]
    rfl
  constructor
  · rintro ⟨raw, hraw, rfl, rfl⟩
    obtain ⟨key, -, hitems⟩ := List.mem_flatMap.mp hraw
    obtain ⟨row, hrow, hshown⟩ := List.mem_flatMap.mp hitems
    rw [List.mem_singleton.mp hshown] at hpasses
    exact hpasses.mp (List.mem_filter.mp hrow).2
  · intro hlate
    refine ⟨{ table, instanceUrl := client.instanceUrl, record },
      List.mem_flatMap.mpr ⟨table, htable, ?_⟩, rfl, rfl⟩
    exact List.mem_flatMap.mpr
      ⟨record, List.mem_filter.mpr ⟨hrecord, hpasses.mpr hlate⟩, List.mem_singleton_self _⟩

end Walks

/-! ## One item in each source -/

def editedPage (modifiedAt : Instant) : Notion.Page :=
  { id := "page", lastEditedTime := some (reported modifiedAt) }

def workspace (modifiedAt : Instant) : Notion.NotionSource := { pages := [editedPage modifiedAt] }

def storedRecord (modifiedAt : Instant) : ServiceNow.Record :=
  { sysId := "record", sysUpdatedOn := stored modifiedAt }

def helpDesk : ServiceNow.ServiceNowClient := { tables := ["incident"], instanceUrl := "" }

def records (modifiedAt : Instant) : ServiceNow.ServiceNowSource where
  items _ := [storedRecord modifiedAt]
  keyed _ := List.nodup_singleton _

def openedAt (createdAt : Instant) : PagerDuty.Incident := { id := "incident", createdAt }

def site : Jira.JiraClient := { projects := ["OPS"], baseUrl := "" }

def updatedIssue (modifiedAt : Instant) : Jira.Issue := { key := "OPS-1", updated := modifiedAt }

/-- Read by a user whose clock is so far ahead of UTC. -/
def issuesSeenAt (utcoffset : Int) (modifiedAt : Instant) : Jira.JiraSource :=
  { issues := fun _ => [updatedIssue modifiedAt], utcoffset }

/-- What was modified at `since` or later is returned by the walks exactly as far as the
times they compare are later: the minute at Notion, the second at ServiceNow, the creation at
PagerDuty, and the minute on the clock of the user at Jira. -/
theorem later_changes_iff (since modifiedAt : Instant) :
    (∀ (source : Notion.NotionSource), ∀ page ∈ source.pages,
      page.lastEditedTime = some (reported modifiedAt) →
        ((since ≤ modifiedAt → Returns (Notion.fetch (some since) source) fun raw => raw.page = page) ↔
          (since ≤ modifiedAt → page.inTrash = false ∧ page.archived = false ∧
            since < reported modifiedAt))) ∧
    (∀ (client : ServiceNow.ServiceNowClient) (source : ServiceNow.ServiceNowSource),
      ∀ table ∈ client.tables, ∀ record ∈ source.items table,
        record.sysUpdatedOn = stored modifiedAt →
          ((since ≤ modifiedAt → Returns (fetchTables client (some since) source) fun raw =>
              raw.table = table ∧ raw.record = record) ↔
            (since ≤ modifiedAt → stored since < stored modifiedAt))) ∧
    (∀ (client : PagerDuty.PagerDutyClient) (source : PagerDuty.PagerDutySource),
      ∀ incident ∈ source.incidents,
        client.serviceIds = [] ∨ incident.serviceId ∈ client.serviceIds →
          ((since ≤ modifiedAt → Returns (PagerDuty.fetch client (some since) source) fun raw =>
              raw = incident) ↔
            (since ≤ modifiedAt → since ≤ incident.createdAt))) ∧
    (∀ (client : Jira.JiraClient) (source : Jira.JiraSource), ∀ projectKey ∈ client.projects,
      ∀ issue ∈ source.issues projectKey, issue.updated = modifiedAt →
        ((since ≤ modifiedAt → Returns (Jira.fetch client (some since) source) fun raw =>
            raw.projectKey = projectKey ∧ raw.issue = issue) ↔
          (since ≤ modifiedAt → (Jira.sinceStr since : Int) ≤ modifiedAt + source.utcoffset))) := by
  refine ⟨?_, ?_, ?_, ?_⟩
  · intro source page hpage htime
    exact imp_congr_right fun _ => notion_returns_iff hpage htime
  · intro client source table htable record hrecord htime
    exact imp_congr_right fun _ => serviceNow_returns_iff htable hrecord htime
  · intro client source incident hincident hservice
    exact imp_congr_right fun _ => pagerDuty_returns_iff hincident hservice
  · intro client source projectKey hproject issue hissue hupdated
    rw [← hupdated]
    exact imp_congr_right fun _ => jira_returns_iff hproject hissue

/-- What was modified a minute later, or created then, is returned. -/
theorem later_changes_next_minute :
    Returns (Notion.fetch (some 0) (workspace 60000000)) (fun raw => raw.page = editedPage 60000000) ∧
      Returns (fetchTables helpDesk (some 0) (records 60000000))
        (fun raw => raw.table = "incident" ∧ raw.record = storedRecord 60000000) ∧
      Returns (PagerDuty.fetch {} (some 0) { incidents := [openedAt 60000000] })
        (fun raw => raw = openedAt 60000000) ∧
      Returns (Jira.fetch site (some 0) (issuesSeenAt 0 60000000))
        (fun raw => raw.projectKey = "OPS" ∧ raw.issue = updatedIssue 60000000) := by
  obtain ⟨hnotion, hserviceNow, hpagerDuty, hjira⟩ := later_changes_iff 0 60000000
  have hlater : 0 ≤ 60000000 := Nat.zero_le _
  refine ⟨?_, ?_, ?_, ?_⟩
  · exact (hnotion _ _ List.mem_cons_self rfl).mpr (fun _ => ⟨rfl, rfl, by decide⟩) hlater
  · exact (hserviceNow helpDesk (records 60000000) _ List.mem_cons_self _ List.mem_cons_self rfl).mpr
      (fun _ => by decide) hlater
  · exact (hpagerDuty {} _ _ List.mem_cons_self (.inl rfl)).mpr (fun _ => Nat.zero_le _) hlater
  · exact (hjira site (issuesSeenAt 0 60000000) _ List.mem_cons_self _ List.mem_cons_self rfl).mpr
      (fun _ => by decide) hlater

/-- A page edited a second after `since` in the same minute, a record updated in the same
second, an older incident that is resolved, and an issue that is updated at once while the
clock of the user is an hour behind UTC. -/
theorem later_changes_missed :
    ¬ Returns (Notion.fetch (some 30000000) (workspace 31000000))
        (fun raw => raw.page = editedPage 31000000) ∧
      ¬ Returns (fetchTables helpDesk (some 1200000) (records 1500000))
        (fun raw => raw.table = "incident" ∧ raw.record = storedRecord 1500000) ∧
      ¬ Returns (PagerDuty.fetch {} (some 1) { incidents := [openedAt 0] })
        (fun raw => raw = openedAt 0) ∧
      ¬ Returns (Jira.fetch site (some 0) (issuesSeenAt (-3600000000) 0))
        (fun raw => raw.projectKey = "OPS" ∧ raw.issue = updatedIssue 0) := by
  refine ⟨?_, ?_, ?_, ?_⟩
  · intro h
    have hminute := ((notion_returns_iff List.mem_cons_self rfl).mp h).2.2
    exact absurd hminute (by decide)
  · intro h
    have hsecond := (serviceNow_returns_iff List.mem_cons_self List.mem_cons_self rfl).mp h
    exact absurd hsecond (by decide)
  · intro h
    have hcreated := (pagerDuty_returns_iff List.mem_cons_self (.inl rfl)).mp h
    exact absurd hcreated (by decide)
  · intro h
    have hminute := (jira_returns_iff List.mem_cons_self List.mem_cons_self).mp h
    exact absurd hminute (by decide)

end Ekip.Ingestion.IncrementalFilters
