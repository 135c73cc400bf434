import Ekip.Ingestion.Versions
import Ekip.Ingestion.Connectors.AzureDevOps
import Ekip.Ingestion.Connectors.Confluence
import Ekip.Ingestion.Connectors.GitHub
import Ekip.Ingestion.Connectors.GitLab
import Ekip.Ingestion.Connectors.Listed
import Ekip.Ingestion.Connectors.Incidents
import Ekip.Ingestion.Connectors.Jira
import Ekip.Ingestion.Connectors.Notion
import Ekip.Ingestion.Connectors.PagerDuty
import Ekip.Ingestion.Connectors.Runbooks
import Ekip.Ingestion.Connectors.ServiceNow
import Ekip.Ingestion.Connectors.SharePoint
import Ekip.Ingestion.Connectors.Teams

/-!
# Which items share a document

A document is kept under its organization, its source and its external id. The external id
is made of the container and the id that the source gives an item, and of nothing that
says which site of the source it was read from.
-/
namespace Ekip.Ingestion

open Ekip.Lib Ekip.Database Ekip.Core

/-- A raw item of any of the connectors. -/
inductive RawItem
  | azureDevOps (raw : AzureDevOps.RawItem)
  | confluence (raw : Confluence.RawItem)
  | gitHub (raw : GitHub.RawItem)
  | gitLab (raw : GitLab.RawItem)
  | googleDrive (raw : GoogleDrive.RawItem)
  | incident (raw : Incidents.RawIncident)
  | jira (raw : Jira.RawItem)
  | notion (raw : Notion.RawItem)
  | pagerDuty (raw : PagerDuty.Incident)
  | runbook (raw : Core.Incidents.PostmortemRow)
  | serviceNow (raw : ServiceNow.RawItem)
  | sharePoint (raw : SharePoint.RawItem)
  | slack (raw : Slack.RawItem)
  | teams (raw : Teams.RawItem)

namespace RawItem

def normalize : RawItem → RawDocument
  | azureDevOps raw => AzureDevOps.normalize raw
  | confluence raw => Confluence.normalize raw
  | gitHub raw => GitHub.normalize raw
  | gitLab raw => GitLab.normalize raw
  | googleDrive raw => GoogleDrive.normalize raw
  | incident raw => Incidents.normalize raw
  | jira raw => Jira.normalize raw
  | notion raw => Notion.normalize raw
  | pagerDuty raw => PagerDuty.normalize raw
  | runbook raw => Runbooks.normalize raw
  | serviceNow raw => ServiceNow.normalize raw
  | sharePoint raw => SharePoint.normalize raw
  | slack raw => Slack.normalize raw
  | teams raw => Teams.normalize raw

end RawItem

/-- What a site of a source calls an item: the source, the containers from the outside in,
and the id within them. -/
structure Native where
  source : String
  containers : List String
  id : String
deriving DecidableEq

namespace RawItem

def native : RawItem → Native
  | azureDevOps raw => ⟨"azure_devops", [raw.project], toString raw.item.id⟩
  | confluence raw => ⟨"confluence", [raw.spaceKey], raw.content.id⟩
  | gitHub raw => ⟨"github", [raw.repo, raw.part.1], raw.part.2⟩
  | gitLab raw => ⟨"gitlab", [raw.project, raw.kind.singular], toString raw.issue.iid⟩
  | googleDrive raw => ⟨"google_drive", [], raw.id⟩
  | incident raw => ⟨"incidents", [], toString raw.id⟩
  | jira raw => ⟨"jira", [], raw.issue.key⟩
  | notion raw => ⟨"notion", [], raw.page.id⟩
  | pagerDuty raw => ⟨"pagerduty", [], raw.id⟩
  | runbook raw => ⟨"runbooks", [], toString raw.id⟩
  | serviceNow raw => ⟨"servicenow", [raw.table], raw.record.sysId⟩
  | sharePoint raw => ⟨"sharepoint", [raw.siteId], raw.entry.id⟩
  | slack raw => ⟨"slack", [raw.channelId], raw.ts⟩
  | teams raw => ⟨"teams", [raw.channelId], raw.message.id⟩

/-- The services write the ids that stand behind a colon without one, and no name of a
repository holds a separator. -/
def WellNamed : RawItem → Prop
  | confluence raw => Joined.Plain raw.content.id
  | gitHub raw => GitHub.NamePlain raw.repo
  | serviceNow raw => Joined.Plain raw.record.sysId
  | sharePoint raw => Joined.Plain raw.entry.id
  | slack raw => Joined.Plain raw.ts
  | teams raw => Joined.Plain raw.message.id
  | _ => True

/-- The part of a document's key that an item decides. -/
def key (raw : RawItem) : String × String := (raw.normalize.source, raw.normalize.externalId)

theorem source_native (raw : RawItem) : raw.normalize.source = raw.native.source := by
  cases raw with
  | gitHub raw => cases raw <;> rfl
  | _ => rfl

theorem plain_singular (kind : GitLab.Kind) : Joined.Plain kind.singular := by
  cases kind <;> decide

/-- Within one source, the external id names the container and the id. -/
theorem native_of_externalId {a b : RawItem} (ha : a.WellNamed) (hb : b.WellNamed)
    (hsource : a.native.source = b.native.source)
    (hid : a.normalize.externalId = b.normalize.externalId) : a.native = b.native := by
  have hbare : ∀ {source id id' : String}, id = id' →
      (⟨source, [], id⟩ : Native) = ⟨source, [], id'⟩ := by
    rintro source id id' rfl
    rfl
  have hjoined : ∀ {source container container' id id' : String}, Joined.Plain id →
      Joined.Plain id' → container ++ ":" ++ id = container' ++ ":" ++ id' →
        (⟨source, [container], id⟩ : Native) = ⟨source, [container'], id'⟩ := by
    intro source container container' id id' hid hid' heq
    obtain ⟨rfl, rfl⟩ := (Joined.colon_inj hid hid').mp heq
    rfl
  cases a <;> cases b
  -- Items of two sources have nothing to do with each other.
  all_goals try (simp [native] at hsource; done)
  case azureDevOps.azureDevOps a b =>
    exact hjoined (Joined.plain_toString _) (Joined.plain_toString _) hid
  case confluence.confluence a b => exact hjoined ha hb hid
  case gitHub.gitHub a b =>
    obtain ⟨hrepo, hpart⟩ := (GitHub.externalId_inj ha hb).mp hid
    show (⟨"github", [a.repo, a.part.1], a.part.2⟩ : Native) = _
    rw [hrepo, hpart]
    rfl
  case gitLab.gitLab a b =>
    obtain ⟨hleft, hiid⟩ := (Joined.colon_inj (Joined.plain_toString _)
      (Joined.plain_toString _)).mp hid
    obtain ⟨hproject, hkind⟩ := (Joined.colon_inj (plain_singular _) (plain_singular _)).mp hleft
    show (⟨"gitlab", [a.project, a.kind.singular], toString a.issue.iid⟩ : Native) = _
    rw [hproject, hkind, hiid]
    rfl
  case googleDrive.googleDrive a b => exact hbare hid
  case incident.incident a b => exact hbare hid
  case jira.jira a b => exact hbare hid
  case notion.notion a b => exact hbare hid
  case pagerDuty.pagerDuty a b => exact hbare hid
  case runbook.runbook a b => exact hbare hid
  case serviceNow.serviceNow a b => exact hjoined ha hb hid
  case sharePoint.sharePoint a b => exact hjoined ha hb hid
  case slack.slack a b => exact hjoined ha hb hid
  case teams.teams a b => exact hjoined ha hb hid

/-- The external id is made of nothing else. -/
theorem externalId_of_native {a b : RawItem} (ha : a.WellNamed) (hb : b.WellNamed)
    (h : a.native = b.native) : a.normalize.externalId = b.normalize.externalId := by
  have hjoined : ∀ {source container container' id id' : String},
      (⟨source, [container], id⟩ : Native) = ⟨source, [container'], id'⟩ →
        container ++ ":" ++ id = container' ++ ":" ++ id' := by
    intro source container container' id id' heq
    obtain ⟨-, ⟨rfl, -⟩, rfl⟩ : source = source ∧ (container = container' ∧ True) ∧ id = id' := by
      simpa using heq
    rfl
  have hsource := congrArg Native.source h
  have hid := congrArg Native.id h
  cases a <;> cases b
  all_goals try (simp [native] at hsource; done)
  case azureDevOps.azureDevOps a b => exact hjoined h
  case confluence.confluence a b => exact hjoined h
  case gitHub.gitHub a b =>
    have hcontainers : a.repo = b.repo ∧ a.part.1 = b.part.1 := by
      simpa [native] using congrArg Native.containers h
    exact (GitHub.externalId_inj ha hb).mpr ⟨hcontainers.1, Prod.ext hcontainers.2 hid⟩
  case gitLab.gitLab a b =>
    have hcontainers : a.project = b.project ∧ a.kind.singular = b.kind.singular := by
      simpa [native] using congrArg Native.containers h
    show a.project ++ ":" ++ a.kind.singular ++ ":" ++ toString a.issue.iid = _
    rw [hcontainers.1, hcontainers.2, show toString a.issue.iid = toString b.issue.iid from hid]
    rfl
  case googleDrive.googleDrive a b => exact hid
  case incident.incident a b => exact hid
  case jira.jira a b => exact hid
  case notion.notion a b => exact hid
  case pagerDuty.pagerDuty a b => exact hid
  case runbook.runbook a b => exact hid
  case serviceNow.serviceNow a b => exact hjoined h
  case sharePoint.sharePoint a b => exact hjoined h
  case slack.slack a b => exact hjoined h
  case teams.teams a b => exact hjoined h

theorem key_inj {a b : RawItem} (ha : a.WellNamed) (hb : b.WellNamed) :
    a.key = b.key ↔ a.native = b.native := by
  unfold key
  rw [Prod.mk.injEq, source_native, source_native]
  constructor
  · rintro ⟨hsource, hid⟩
    exact native_of_externalId ha hb hsource hid
  · intro h
    exact ⟨congrArg Native.source h, externalId_of_native ha hb h⟩

end RawItem

/-! ## Their documents -/

section Documents

open Indexing

variable {ε τ ω : Type} {env : Env ε τ ω} {target : Target} {draw : Draw} {db db' : ContentDb ε}

/-- An item leaves the documents under another key alone. -/
theorem documentsOf_of_key_ne {a b : RawItem} (h : a.key ≠ b.key) {written : Nat}
    (hreturns : (Indexing.processOneItem env target draw b.normalize).Returns db written db')
    (organizationId : Uuid) :
    documentsOf organizationId a.normalize.source a.normalize.externalId db' =
      documentsOf organizationId a.normalize.source a.normalize.externalId db := by
  rcases (processOneItem_cases hreturns).2 with ⟨_, _, rfl⟩ | ⟨_, _, _, hdocuments, _⟩
  · rfl
  · unfold documentsOf
    rw [hdocuments, List.filter_append]
    have hother : ¬ ((nextRow env target draw b.normalize db).organizationId = organizationId ∧
        (nextRow env target draw b.normalize db).source = a.normalize.source ∧
        (nextRow env target draw b.normalize db).externalId = a.normalize.externalId) := by
      rintro ⟨_, hsource, hid⟩
      exact h (Prod.ext hsource.symm hid.symm)
    rw [List.filter_cons_of_neg (by simpa using hother), List.filter_nil, List.append_nil]

/-- Two items have one key exactly when they have one name within their sites, and an item
of another name never touches the documents of the first. -/
theorem native_items_have_own_documents (organizationId : Uuid) (a b : RawItem)
    (ha : a.WellNamed) (hb : b.WellNamed) :
    (a.key = b.key ↔ a.native = b.native) ∧
      (a.native ≠ b.native → ∀ (env : Env ε τ ω) (target : Target) (draw : Draw)
        (db db' : ContentDb ε) (written : Nat),
        (Indexing.processOneItem env target draw b.normalize).Returns db written db' →
          documentsOf organizationId a.normalize.source a.normalize.externalId db' =
            documentsOf organizationId a.normalize.source a.normalize.externalId db) := by
  refine ⟨RawItem.key_inj ha hb, ?_⟩
  intro hne env target draw db db' written hreturns
  exact documentsOf_of_key_ne (fun hkey => hne ((RawItem.key_inj ha hb).mp hkey)) hreturns _

end Documents

def messageAt (ts : String) : RawItem := .slack { channelId := "C0123456", ts, text := "Deployed" }

theorem two_messages_have_own_documents :
    (messageAt "1700000000.000100").key ≠ (messageAt "1700000000.000200").key := by
  have hnamed : (messageAt "1700000000.000100").WellNamed ∧
      (messageAt "1700000000.000200").WellNamed := by
    constructor
    · show Joined.Plain _
      decide +kernel
    · show Joined.Plain _
      decide +kernel
  have hkeys := (native_items_have_own_documents (ε := Unit) (τ := Unit) (ω := Nat) 1 _ _ hnamed.1
    hnamed.2).1
  intro hsame
  exact absurd (hkeys.mp hsame) (by decide +kernel)

/-! ## Two sites -/

/-- The first issue of a project that two servers have under one name. -/
def issueAt (host title : String) : RawItem :=
  .gitLab
    { project := "ops/api"
      kind := .issues
      issue := { iid := 1, title, webUrl := some (host ++ "/ops/api/-/issues/1"), updatedAt := 0 } }

def onFirst : RawItem := issueAt "https://gitlab.acme.com" "Disk full"

def onSecond : RawItem := issueAt "https://git.acme.com" "Login fails"

open Indexing in
/-- Cleaning and hashing change nothing, and every text is one vector. -/
def plainEnv : Env Unit Unit Nat where
  engine :=
    { embedQuery := fun _ => .ok ()
      embedTexts := fun texts => .ok (texts.map fun _ => ())
      maxInnerProduct := fun _ _ => 0
      websearchToTsquery := fun _ => ()
      plaintoTsquery := fun _ => ()
      tsMatches := fun _ _ => false
      tsRankCd := fun _ _ => 0
      le := fun a b => a ≤ b
      neg := id
      zero := 0
      add := fun a b => a + b
      reciprocal := id }
  processors :=
    { cleanContent := id
      sha256Hexdigest := id
      chunkDocument := fun _ _ => [] }
  limits := { ingestionMaxDocumentBytes := 1000, ingestionMaxChunksPerDocument := 10 }

def twoProjects : ContentDb Unit :=
  { projects := [{ id := 10, organizationId := 1, name := "Platform" },
      { id := 20, organizationId := 1, name := "Payments" }] }

/-- The connectors of two servers read their issues, one after the other. -/
def syncBoth : Knowledge.ContentM Unit Nat := do
  let _ ← Indexing.processOneItem plainEnv { organizationId := 1, projectId := 10 }
    { documentId := 100, chunkId := id } onFirst.normalize
  Indexing.processOneItem plainEnv { organizationId := 1, projectId := 20 }
    { documentId := 200, chunkId := id } onSecond.normalize

/-- The issue of the second server becomes a new version of the issue of the first, in the
project of the second connector. -/
theorem sites_share_documents :
    onFirst.normalize.sourceUrl ≠ onSecond.normalize.sourceUrl ∧ onFirst.key = onSecond.key ∧
      (syncBoth twoProjects).2.documents.map (fun row => (row.externalId, row.projectId, row.version)) =
        [("ops/api:issue:1", 10, 1), ("ops/api:issue:1", 20, 2)] := by
  decide +kernel

end Ekip.Ingestion
