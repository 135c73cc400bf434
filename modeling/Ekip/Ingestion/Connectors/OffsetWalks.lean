import Ekip.Ingestion.Connectors.GitLab
import Ekip.Ingestion.Connectors.ServiceNow
import Ekip.Ingestion.Connectors.Confluence
import Ekip.Ingestion.Connectors.AzureDevOps

/-!
# Walks over sources that are ordered by the time of update

An update of an item that was fetched already takes it out of the pages before the
offset, and the first item after the offset slips into its place.
-/
namespace Ekip.Ingestion.OffsetWalks

open Ekip.Lib Ekip.Database Ekip.Ingestion.PageWalk Ekip.Ingestion.UpdateOrder

/-! ## The four connectors -/

theorem gitLab_complete (client : GitLab.GitLabClient) (since : Option Instant) :
    Complete (fun container => container.1 ∈ client.projects) (GitLab.plan client)
      (GitLab.passes since) (fun _ => true) (GitLab.fetchBatch client since) :=
  complete_of_pages (GitLab.rising since) (GitLab.pages client since) fun container hproject =>
    GitLab.container_of_project container.2 hproject

theorem serviceNow_complete (client : ServiceNow.ServiceNowClient) (since : Option Instant) :
    Complete (· ∈ client.tables) (ServiceNow.plan client) (ServiceNow.passes since) (fun _ => true)
      (ServiceNow.fetchBatch client since) :=
  complete_of_pages (ServiceNow.rising since) (ServiceNow.pages client since) fun _ htable =>
    ServiceNow.container_of_table htable

theorem azureDevOps_complete (client : AzureDevOps.AzureDevOpsClient) (since : Option Instant) :
    Complete (· ∈ client.projects) (AzureDevOps.plan client) (AzureDevOps.passes since)
      (fun _ => true) (AzureDevOps.fetchBatch client since) :=
  complete_of_pages (AzureDevOps.rising since) (AzureDevOps.pages client since) fun _ hproject =>
    AzureDevOps.container_of_project hproject

section Search

open Confluence

variable {client : ConfluenceClient} {since : Option Instant}
  {w : Walk ConfluenceSource (String × Content) Cursor} {spaceKey id : String}

abbrev Admitted (client : ConfluenceClient) (since : Option Instant) (spaceKey id : String)
    (w : Walk ConfluenceSource (String × Content) Cursor) (a : Label (Update String Content)) : Prop :=
  Undisturbed (searchPlan client) (passes since) w a ∧
    StaysReadable Content.entry readable spaceKey id a

/-- A content that can be read whenever it is updated can be read wherever it is listed. -/
theorem search_readable {source : ConfluenceSource}
    (hrun : Run (step (search client since) touch) (Admitted client since spaceKey id) { source } w)
    (hsource : ∀ content ∈ source.items spaceKey, content.id = id → readable content = true) :
    ∀ result ∈ w.returned, result.1 = spaceKey → result.2.id = id → readable result.2 = true := by
  have hall := hrun.invariant
    (I := fun w => (∀ content ∈ w.source.items spaceKey, content.id = id → readable content = true) ∧
      ∀ result ∈ w.returned, result.1 = spaceKey → result.2.id = id → readable result.2 = true) (by
    intro w a w' hw hok hstep
    rcases step_cases (search client since) touch hstep with
      ⟨update, source, rfl, hsource, rfl⟩ | ⟨rfl, -, rfl⟩
    · exact ⟨readable_moved hsource hok.2 hw.1, hw.2⟩
    · refine ⟨hw.1, ?_⟩
      intro result hresult hspace hid
      rcases List.mem_append.mp hresult with hbefore | hpage
      · exact hw.2 result hbefore hspace hid
      · have hlisted := mem_search hpage
        rw [hspace] at hlisted
        exact hw.1 result.2 hlisted hid)
  refine (hall ⟨hsource, ?_⟩).2
  intro result hresult
  cases hresult

theorem confluence_complete (client : ConfluenceClient) (since : Option Instant) :
    Complete (· ∈ client.spaces) (plan client) (passes since) readable (fetchBatch client since) := by
  intro source w spaceKey content hcontent hspace hpass hreadable hrun hend
  have hok : ∀ (v : Walk ConfluenceSource (String × Content) Cursor)
      (w : Walk ConfluenceSource RawItem Cursor) a, v.Kept (rawItem client) w →
        Undisturbed (plan client) (passes since) w a ∧
            StaysReadable Content.entry readable spaceKey content.id a →
          Admitted client since spaceKey content.id v a := by
    intro v w a hkept hadmitted
    refine ⟨?_, hadmitted.2⟩
    cases a with
    | changed update =>
      intro hcontainer hfetched
      rw [hkept.source, hkept.cursor] at hfetched ⊢
      rw [hkept.cursor] at hcontainer
      exact hadmitted.1 hcontainer hfetched
    | fetched => exact trivial
  obtain ⟨v, hv, hkept⟩ := run_kept (search client since) (rawItem client) (fun _ _ => rfl) hok hrun
  obtain ⟨i, hi, hplanned⟩ := container_of_space hspace
  obtain ⟨result, hresult, hshown, hid⟩ := returned_of_undisturbed (rising since)
    (pages client since) (hv.weaken fun _ _ hadmitted => hadmitted.1) (hkept.hasMore.trans hend) hi
    hplanned hcontent hpass
  have hsource : ∀ other ∈ source.items spaceKey, other.id = content.id → readable other = true := by
    intro other hother hsame
    have heq : other = content := List.inj_on_of_nodup_map (source.keyed spaceKey) hother hcontent hsame
    rw [heq]
    exact hreadable
  obtain ⟨raw, hraw, hrawSpace, hrawContent⟩ := rawItem_of_readable client
    (search_readable hv hsource result hresult hshown hid)
  refine ⟨raw, ?_, hrawSpace.trans hshown, ?_⟩
  · rw [hkept.returned]
    exact List.mem_filterMap.mpr ⟨result, hresult, hraw⟩
  · rw [hrawContent]
    exact hid

end Search

/-- Each of the four connectors returns what passes its filter, as long as no item of the
fetched pages is updated while others are ahead. -/
theorem walks_complete (gitLab : GitLab.GitLabClient) (serviceNow : ServiceNow.ServiceNowClient)
    (confluence : Confluence.ConfluenceClient) (azureDevOps : AzureDevOps.AzureDevOpsClient)
    (since : Option Instant) :
    Complete (fun container => container.1 ∈ gitLab.projects) (GitLab.plan gitLab)
        (GitLab.passes since) (fun _ => true) (GitLab.fetchBatch gitLab since) ∧
      Complete (· ∈ serviceNow.tables) (ServiceNow.plan serviceNow) (ServiceNow.passes since)
        (fun _ => true) (ServiceNow.fetchBatch serviceNow since) ∧
      Complete (· ∈ confluence.spaces) (Confluence.plan confluence) (Confluence.passes since)
        Confluence.readable (Confluence.fetchBatch confluence since) ∧
      Complete (· ∈ azureDevOps.projects) (AzureDevOps.plan azureDevOps) (AzureDevOps.passes since)
        (fun _ => true) (AzureDevOps.fetchBatch azureDevOps since) :=
  ⟨gitLab_complete gitLab since, serviceNow_complete serviceNow since,
    confluence_complete confluence since, azureDevOps_complete azureDevOps since⟩

/-! ## One work item more than a batch holds -/

section Example

open AzureDevOps

def workItem (changedDate : Nat) : WorkItem := { id := changedDate, title := "Outage", changedDate }

def backlog : AzureDevOpsSource where
  items project := if project = "Checkout" then (List.range 201).map workItem else []
  keyed project := by
    by_cases h : project = "Checkout"
    · have hread : (((List.range 201).map workItem).map fun item => item.entry.id).map
          (fun id => id.toList.foldl (fun n digit => 10 * n + (digit.toNat - 48)) 0) =
            List.range 201 := by
        decide +kernel
      rw [if_pos h]
      exact List.Nodup.of_map _ (hread ▸ List.nodup_range)
    · rw [if_neg h]
      exact List.nodup_nil

def operations : AzureDevOpsClient := { organization := "acme", projects := ["Checkout"] }

theorem mem_backlog : workItem 200 ∈ backlog.items "Checkout" := by
  show workItem 200 ∈ if "Checkout" = "Checkout" then (List.range 201).map workItem else []
  rw [if_pos rfl]
  exact List.mem_map_of_mem (List.mem_range.mpr (by decide))

/-- What no batch has shown yet is edited after the first batch. -/
def editedAhead : List (Label (Update String WorkItem)) :=
  [.fetched, .changed { container := "Checkout", item := { workItem 200 with changedDate := 300 } },
    .fetched]

def Admits (w : Walk AzureDevOpsSource RawItem Cursor) (a : Label (Update String WorkItem)) : Prop :=
  Undisturbed (plan operations) (passes none) w a ∧
    StaysReadable WorkItem.entry (fun _ => true) "Checkout" (workItem 200).entry.id a

instance (w : Walk AzureDevOpsSource RawItem Cursor) : DecidablePred (Admits w) :=
  fun _ => instDecidableAnd

theorem walks_complete_backlog :
    ∃ w, execWithin (step (fetchBatch operations none) touch) Admits { source := backlog }
        editedAhead = some w ∧ w.hasMore = false ∧
      ∃ raw ∈ w.returned, (plan operations).shows "Checkout" (workItem 200).entry.id raw := by
  have hwalk : ((execWithin (step (fetchBatch operations none) touch) Admits { source := backlog }
      editedAhead).any fun w => !w.hasMore) = true := by
    decide +kernel
  obtain ⟨w, hexec, hend⟩ := (Option.any_eq_true _ _).mp hwalk
  have hend : w.hasMore = false := by simpa using hend
  have hconfigured : "Checkout" ∈ operations.projects := List.mem_singleton_self _
  obtain ⟨-, -, -, hcomplete⟩ := walks_complete { projects := ["checkout"] }
    { instanceUrl := "https://acme.service-now.com" }
    { spaces := ["OPS"], baseUrl := "https://acme.atlassian.net" } operations none
  exact ⟨w, hexec, hend, hcomplete backlog w "Checkout" (workItem 200) mem_backlog hconfigured rfl rfl
    (run_of_execWithin hexec) hend⟩

/-- The oldest work item is edited after the first batch. -/
def editedWalk : List (Label (Update String WorkItem)) :=
  [.fetched, .changed { container := "Checkout", item := { workItem 0 with changedDate := 300 } },
    .fetched]

/-- The last work item is in no batch. -/
theorem batch_skips :
    ∃ w, Run (step (fetchBatch operations none) touch) anyStep { source := backlog } w ∧
      w.hasMore = false ∧ workItem 200 ∈ backlog.items "Checkout" ∧
      passes none (workItem 200).entry = true ∧ ∀ raw ∈ w.returned, raw.item.id ≠ 200 := by
  have hwalk : ∃ w, exec (step (fetchBatch operations none) touch) { source := backlog } editedWalk =
      some w ∧ (w.hasMore = false ∧ ∀ raw ∈ w.returned, raw.item.id ≠ 200) :=
    exists_of_exec (by decide +kernel)
  obtain ⟨w, hexec, hend, hskipped⟩ := hwalk
  exact ⟨w, run_of_exec hexec, hend, mem_backlog, rfl, hskipped⟩

end Example

end Ekip.Ingestion.OffsetWalks
