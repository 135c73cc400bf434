import Ekip.Ingestion.FullWalk
import Ekip.Ingestion.Connectors.Teams
import Ekip.Ingestion.DeltaLink

/-!
# Full syncs and forced resyncs

First the full syncs of the Teams connector. Without `since` the connector walks the plain
listing of each channel, from the beginning of the first one to the end of the last.
-/
namespace Ekip.Ingestion.Teams

open Ekip.Lib Ekip.Database Ekip.Core

/-- The messages of each channel in the order in which a walk over the listing comes
to them, and how many there are at a time. -/
structure Listing where
  messages : String → List Message
  made : Instant → String → Nat
  made_mono : ∀ {t t'}, t ≤ t' → ∀ channelId, made t channelId ≤ made t' channelId

/-- What there is to be listed at a time. -/
def Listing.listed (listing : Listing) (now : Instant) (channelId : String) (position : Nat) :
    List Message :=
  ((listing.messages channelId).take (listing.made now channelId)).drop position

/-- The answer to a link into a listing: a page of it, and a link to what comes after
unless nothing does. -/
def Answers (listing : Listing) (now : Instant) (response : Response) : Link → Prop
  | .messages channelId position =>
    (response.value <+: listing.listed now channelId position ∧
        response.nextLink = some (.messages channelId (position + response.value.length))) ∨
      (response.value = listing.listed now channelId position ∧ response.nextLink = none)
  | .delta _ _ _ => True

/-- The answers to a full sync. -/
def answers (listing : Listing) (now : Instant) (client : TeamsClient) (cursor : Option Cursor)
    (resumeToken : Option ResumeState) (response : Response) : Prop :=
  ∀ url ∈ (client.seed resumeToken).request none (decodeCursor cursor),
    Answers listing now response url

/-- Where the walk stands in its channel. -/
def position : Option Link → Nat
  | some (.messages _ position) => position
  | _ => 0

/-- The walk has been returned a message, or still comes to it. -/
def Ahead (w : FullWalk TeamsClient RawItem Cursor) (i q : Nat) : Prop :=
  w.hasMore = true ∧ ((decodeCursor w.cursor).channelIndex < i ∨
    (decodeCursor w.cursor).channelIndex = i ∧ position (decodeCursor w.cursor).nextLink ≤ q)

structure ReadsListing (channels : List String) (listing : Listing) (start : Instant)
    (w : FullWalk TeamsClient RawItem Cursor) : Prop where
  known : w.client.channels = channels
  /-- The cursor leads into the listing of its own channel. -/
  located : w.hasMore = true → ∀ link ∈ (decodeCursor w.cursor).nextLink, ∃ channelId,
    channels[(decodeCursor w.cursor).channelIndex]? = some channelId ∧
      link = .messages channelId (position (some link))
  clock : start ≤ w.clock
  covers : ∀ i channelId q message, channels[i]? = some channelId →
    (listing.messages channelId)[q]? = some message → q < listing.made start channelId →
      RawItem.mk channelId message ∈ w.returned ∨ Ahead w i q

variable {channels : List String} {listing : Listing} {start now : Instant}
  {w w' : FullWalk TeamsClient RawItem Cursor} {token : Option ResumeState}
  {a : FetchedPage Response}

theorem getElem?_listed {channelId : String} {p q : Nat} {message : Message}
    (h : (listing.messages channelId)[q]? = some message) (hmade : q < listing.made now channelId)
    (hle : p ≤ q) : (listing.listed now channelId p)[q - p]? = some message := by
  unfold Listing.listed
  rw [List.getElem?_drop, List.getElem?_take, Nat.add_sub_cancel' hle, if_pos hmade]
  exact h

/-- What a walk asks for when it stands at a channel. -/
theorem request_of_channel {channelId : String} (h : ReadsListing channels listing start w)
    (hmore : w.hasMore = true)
    (hchannel : channels[(decodeCursor w.cursor).channelIndex]? = some channelId) :
    (w.client.seed token).request none (decodeCursor w.cursor) =
      some (.messages channelId (position (decodeCursor w.cursor).nextLink)) := by
  unfold TeamsClient.request
  rw [seed_channels, h.known, hchannel]
  cases hlink : (decodeCursor w.cursor).nextLink with
  | none => rfl
  | some link =>
    obtain ⟨other, hother, heq⟩ := h.located hmore link hlink
    obtain rfl := Option.some.inj (hchannel.symm.trans hother)
    show some link = _
    rw [heq]
    rfl

/-- A message at or behind the position is on the page, or the page has a link to a
position that is not behind it. -/
theorem Answers.reaches {response : Response} {channelId : String} {p q : Nat} {message : Message}
    (h : Answers listing now response (.messages channelId p))
    (hq : (listing.messages channelId)[q]? = some message) (hmade : q < listing.made now channelId)
    (hle : p ≤ q) : message ∈ response.value ∨
      response.nextLink = some (.messages channelId (p + response.value.length)) ∧
        p + response.value.length ≤ q := by
  have hlisted := getElem?_listed hq hmade hle
  rcases h with ⟨⟨tail, htail⟩, hnext⟩ | ⟨hall, -⟩
  · by_cases hlt : q - p < response.value.length
    · rw [← htail, List.getElem?_append_left hlt] at hlisted
      exact .inl (List.mem_of_getElem? hlisted)
    · exact .inr ⟨hnext, by omega⟩
  · exact .inl (hall ▸ List.mem_of_getElem? hlisted)

theorem readsListing_fetch (h : ReadsListing channels listing start w)
    (hanswered : FullWalk.Answered token (answers listing) w a)
    (hfetch : w.fetch teamsConnector token a = some w') : ReadsListing channels listing start w' := by
  obtain ⟨hmore, hclock, rfl⟩ := FullWalk.fetch_some teamsConnector token hfetch
  have hlater := h.clock.trans hclock
  cases hchannel : channels[(decodeCursor w.cursor).channelIndex]? with
  | none =>
    have hpage : w.page teamsConnector token a.remote = ({}, w.client.seed token) :=
      fetchBatch_nowhere (h.known ▸ hchannel)
    rw [hpage]
    refine ⟨(seed_channels _ _).trans h.known, fun hend => (by cases hend), hlater, ?_⟩
    intro i channelId q message hi hq hmade
    have hlength := List.getElem?_eq_none_iff.mp hchannel
    obtain ⟨hlt, -⟩ := List.getElem?_eq_some_iff.mp hi
    rcases h.covers i channelId q message hi hq hmade with hreturned | ⟨-, hahead⟩
    · exact .inl (List.mem_append_left _ hreturned)
    · omega
  | some channelId =>
    have hanswer := hanswered _ (request_of_channel h hmore hchannel)
    have hpage : w.page teamsConnector token a.remote = _ := fetchBatch_channel (h.known ▸ hchannel)
    rw [hpage]
    refine ⟨(seed_channels _ _).trans h.known, ?_, hlater, ?_⟩
    · intro _ link hlink
      change link ∈ (decodeCursor (fetchFullSyncPage _ _ _ _).1.next).nextLink at hlink
      rcases hanswer with ⟨-, hnext⟩ | ⟨-, hnext⟩
      · rw [fetchFullSyncPage_nextLink _ hnext] at hlink
        obtain rfl := Option.some.inj hlink
        refine ⟨channelId, ?_, rfl⟩
        show channels[(decodeCursor (fetchFullSyncPage _ _ _ _).1.next).channelIndex]? = _
        rw [fetchFullSyncPage_nextLink _ hnext]
        exact hchannel
      · rw [fetchFullSyncPage_lastPage _ hnext] at hlink
        split at hlink <;> cases hlink
    · intro i other q message hi hq hmade
      show _ ∨ (fetchFullSyncPage w.client a.remote _ channelId).1.next.isSome = true ∧
        ((decodeCursor (fetchFullSyncPage w.client a.remote _ channelId).1.next).channelIndex < i ∨
          (decodeCursor (fetchFullSyncPage w.client a.remote _ channelId).1.next).channelIndex = i ∧
            position (decodeCursor (fetchFullSyncPage w.client a.remote _ channelId).1.next).nextLink ≤ q)
      rcases h.covers i other q message hi hq hmade with hreturned | ⟨-, hafter | ⟨rfl, hle⟩⟩
      · exact .inl (List.mem_append_left _ hreturned)
      · right
        rcases hanswer with ⟨-, hnext⟩ | ⟨-, hnext⟩
        · rw [fetchFullSyncPage_nextLink _ hnext]
          exact ⟨rfl, .inl hafter⟩
        · obtain ⟨hlength, -⟩ := List.getElem?_eq_some_iff.mp hi
          rw [fetchFullSyncPage_lastPage _ hnext, h.known, if_pos (by omega)]
          rcases Nat.lt_or_eq_of_le hafter with hlt | heq
          · exact ⟨rfl, .inl hlt⟩
          · exact ⟨rfl, .inr ⟨heq, Nat.zero_le q⟩⟩
      · obtain rfl := Option.some.inj (hchannel.symm.trans hi)
        have hnow := hmade.trans_le (listing.made_mono hlater channelId)
        rcases hanswer.reaches hq hnow hle with hon | ⟨hnext, hbehind⟩
        · exact .inl (List.mem_append_right _ (List.mem_map_of_mem hon))
        · rw [fetchFullSyncPage_nextLink _ hnext]
          exact .inr ⟨rfl, .inr ⟨rfl, hbehind⟩⟩

def teamsWorker (settings : Settings) (contentHash : RawDocument → Except Exn String) :
    Worker TeamsConfig TeamsClient Response RawItem Cursor ResumeState where
  settings := settings
  contentHash := contentHash
  connector := teamsConnector

/-- Whatever token is stored, a full sync is returned all the messages of the channels. -/
theorem fullSync_listing {config : TeamsConfig} {finish : Instant} {returned : List RawItem}
    (h : FullSync teamsConnector config token (answers listing) start finish returned)
    {channelId : String} {q : Nat} {message : Message} (hchannel : channelId ∈ config.channels)
    (hq : (listing.messages channelId)[q]? = some message)
    (hmade : q < listing.made start channelId) : RawItem.mk channelId message ∈ returned := by
  obtain ⟨client, w, hauth, hwalks, hend, -, rfl⟩ := h
  have hknown := authenticate_channels hauth
  have hbegun : ReadsListing config.channels listing start { client, clock := start } := by
    refine ⟨hknown, fun _ link hlink => (by cases hlink), Nat.le_refl _, ?_⟩
    intro i other q message _ _ _
    refine .inr ⟨rfl, ?_⟩
    by_cases hzero : i = 0
    · exact .inr ⟨hzero.symm, Nat.zero_le q⟩
    · exact .inl (Nat.pos_of_ne_zero hzero)
  have hreads := hwalks.invariant (I := ReadsListing config.channels listing start)
    (fun _ _ _ hI hok hstep => readsListing_fetch hI hok hstep) hbegun
  obtain ⟨i, hi⟩ := List.mem_iff_getElem?.mp hchannel
  rcases hreads.covers i channelId q message hi hq hmade with hreturned | ⟨hmore, -⟩
  · exact hreturned
  · rw [hend] at hmore
    cases hmore

/-- What a full sync is returned is of the connector's own channels. -/
theorem fullSync_channels {config : TeamsConfig}
    {answers : Instant → TeamsClient → Option Cursor → Option ResumeState → Response → Prop} {finish : Instant}
    {returned : List RawItem} (h : FullSync teamsConnector config token answers start finish returned)
    {x : RawItem} (hx : x ∈ returned) : x.channelId ∈ config.channels := by
  obtain ⟨client, w, hauth, hwalks, -, -, rfl⟩ := h
  have hknown := authenticate_channels hauth
  refine (hwalks.invariant (I := fun w => w.client.channels = config.channels ∧
    ∀ x ∈ w.returned, x.channelId ∈ config.channels) ?_ ⟨hknown, nofun⟩).2 x hx
  rintro w a w' ⟨hclient, hall⟩ - hfetch
  obtain ⟨-, -, rfl⟩ := FullWalk.fetch_some teamsConnector token hfetch
  have hpage : (w.page teamsConnector token a.remote).2.channels = config.channels ∧
      ∀ x ∈ (w.page teamsConnector token a.remote).1.items, x.channelId ∈ config.channels := by
    show (fetchBatch w.client a.remote none w.cursor token).2.channels = _ ∧
      ∀ x ∈ (fetchBatch w.client a.remote none w.cursor token).1.items, _
    unfold fetchBatch
    dsimp only
    rw [seed_channels, hclient]
    split
    · exact ⟨(seed_channels _ _).trans hclient, nofun⟩
    · rename_i channelId hchannel
      refine ⟨(seed_channels _ _).trans hclient, fun x hitem => ?_⟩
      obtain ⟨message, -, rfl⟩ := List.mem_map.mp hitem
      exact List.mem_of_getElem? hchannel
  refine ⟨hpage.1, fun x hitem => ?_⟩
  rcases List.mem_append.mp hitem with hbefore | hnow
  · exact hall x hbefore
  · exact hpage.2 x hnow

end Ekip.Ingestion.Teams

/-!
## Forced resyncs, and `reindex` in `ingestion/service.py`

A forced resync is to fetch whatever the source holds. The Teams connector walks the
plain listing when there is no `since`; the SharePoint connector begins every walk
at the delta link that it finds in the stored token.
-/
namespace Ekip.Ingestion.ForcedResync

open Ekip.Lib Ekip.Database Ekip.Core

/-! ## Reindexing a document -/

structure DocumentRow where
  id : Uuid
  organizationId : Uuid
  source : String
  externalId : String

structure ConnectorEntry where
  id : Uuid
  organizationId : Uuid
  source : String
  createdAt : Instant

/-- The connector of the source that was created last. -/
def getConnectorConfigForSource (connectorConfigs : List ConnectorEntry) (organizationId : Uuid)
    (source : String) : Option ConnectorEntry :=
  (connectorConfigs.filter fun row =>
    row.organizationId = organizationId ∧ row.source = source).argmax ConnectorEntry.createdAt

def documentNotFound (documentId : Uuid) : Exn :=
  notFound "Document not found." "document.not_found" [("document_id", toString documentId)]

def reindexUnavailable (document : DocumentRow) : Exn :=
  conflict "No connector configuration is registered for this document's source; cannot reindex."
    "document.reindex_unavailable"
    [("source", document.source), ("organization_id", toString document.organizationId)]

/-- The connector that is executed, and `force_full_sync`. -/
def reindex (documents : List DocumentRow) (connectorConfigs : List ConnectorEntry)
    (documentId : Uuid) : Except Exn (Uuid × Bool) :=
  match documents.find? fun row => row.id = documentId with
  | none => .error (documentNotFound documentId)
  | some document =>
    match getConnectorConfigForSource connectorConfigs document.organizationId document.source with
    | none => .error (reindexUnavailable document)
    | some connectorConfig => .ok (connectorConfig.id, true)

theorem reindex_ok {documents : List DocumentRow} {connectorConfigs : List ConnectorEntry}
    {documentId connectorConfigId : Uuid} {forceFullSync : Bool}
    (h : reindex documents connectorConfigs documentId = .ok (connectorConfigId, forceFullSync)) :
    forceFullSync = true ∧ ∃ document ∈ documents, document.id = documentId ∧
      ∃ row ∈ connectorConfigs, row.id = connectorConfigId ∧ row.source = document.source ∧
        row.organizationId = document.organizationId ∧ ∀ other ∈ connectorConfigs,
          other.source = document.source → other.organizationId = document.organizationId →
            other.createdAt ≤ row.createdAt := by
  unfold reindex at h
  split at h
  · cases h
  · rename_i document hdocument
    split at h
    · cases h
    · rename_i row hrow
      cases h
      have hmem : row ∈ connectorConfigs ∧ row.organizationId = document.organizationId ∧
          row.source = document.source := by
        simpa using List.argmax_mem hrow
      refine ⟨rfl, document, List.mem_of_find?_eq_some hdocument,
        by simpa using List.find?_some hdocument, row, hmem.1, rfl, hmem.2.2, hmem.2.1, ?_⟩
      intro other hother hsource horganization
      exact List.le_of_mem_argmax (List.mem_filter.mpr ⟨hother, by simp [hsource, horganization]⟩) hrow

section Covers

variable {υ χ ρ ι κ τ : Type} (connector : Connector υ χ ρ ι κ τ) (operator : υ)
  (answers : Instant → χ → Option κ → Option τ → ρ → Prop) (start finish : Instant) (x : ι)

/-- Every first sync of the connector, as it is configured, is returned the item. -/
def Covers : Prop := ∀ returned, FullSync connector operator none answers start finish returned → x ∈ returned

/-- That depends on the configuration and not on how the pages are cut. -/
def Decided : Prop :=
  Covers connector operator answers start finish x ∨
    ∀ returned, FullSync connector operator none answers start finish returned → x ∉ returned

end Covers

/-! ## SharePoint -/

section SharePoint

open SharePoint ResumeToken

/-- A file that the source holds from the one time to the other: its last change before
the first is at this place of the log of its site, and it is not changed before the
second. -/
structure HeldThroughout (log : ChangeLog) (start finish : Instant) (p : Nat) (x : RawItem) :
    Prop where
  change : (log.changes x.siteId)[p]? = some x.entry
  made : p < log.made start x.siteId
  ingestible : ingestible none x.siteId x.entry = some x
  last : ∀ q, p < q → q < log.made finish x.siteId →
    ∀ entry, (log.changes x.siteId)[q]? = some entry → entry.id ≠ x.entry.id

/-- The token by which a walk begins. -/
def stored (s : SharePointSt) : ResumeState := s.row.config.resumeToken.getD ∅

/-- The file belongs to a configured site, and the delta link that is stored for the
site does not lead past its last change. -/
def Reached (s : SharePointSt) (p : Nat) (x : RawItem) : Prop :=
  x.siteId ∈ s.row.config.operator.siteIds ∧
    (SharePointClient.startUrl (stored s) x.siteId).position ≤ p

variable {settings : Settings} {contentHash : RawDocument → Except Exn String} {log : ChangeLog}
  {s₀ s : SharePointSt} {job : Job Response RawItem Cursor ResumeState}
  {start finish : Instant} {p : Nat} {x : RawItem}

/-- A forced sync is returned just those files that it reaches. -/
theorem returned_iff_reached (hlocated : Located (stored s₀))
    (hrun : SyncRun (sharePointWorker settings contentHash) (answers log) s₀ start true s job)
    (hfinish : s.clock ≤ finish) (hheld : HeldThroughout log start finish p x) :
    x ∈ job.returned ↔ Reached s₀ p x := by
  have hsync := fullSync_of_forced hrun
  obtain ⟨hfile, hadmits, -, -, hcontent⟩ := ingestible_eq_some.mp hheld.ingestible
  obtain ⟨hcovers, hsound⟩ :=
    fullSync_reads (follows s₀.row.config.operator.siteIds log) hlocated hsync
  constructor
  · intro hreturned
    obtain ⟨⟨site, q⟩, ⟨hsite, hchange, -, -⟩, hwritten, hahead⟩ := hsound x hreturned
    obtain ⟨hmem, hle⟩ := ahead_start.mp hahead
    obtain rfl : x.siteId = site := hsite
    refine ⟨hmem, ?_⟩
    have hmade : q < log.made finish x.siteId := hwritten.trans_le (log.made_mono hfinish x.siteId)
    by_cases hlater : p < q
    · exact absurd rfl (hheld.last q hlater hmade x.entry hchange)
    · have hle' : (SharePointClient.startUrl (stored s₀) x.siteId).position ≤ q := hle
      omega
  · rintro ⟨hmem, hle⟩
    exact hcovers (x.siteId, p) x ⟨rfl, hheld.change, hfile, hcontent⟩ hheld.made hadmits
      (ahead_start.mpr ⟨hmem, hle⟩)

end SharePoint

/-! ## The resync -/

section Example

open SharePoint ResumeToken

instance (log : ChangeLog) (s : SharePointSt) (a : Label Response) :
    Decidable (Within plainWorker (answers log) s a) :=
  inferInstanceAs (Decidable (_ ∧ _))

theorem exists_of_walkedOut {s : SharePointSt} {owed returned : List RawItem}
    (h : walkedOut s = some (owed, returned)) : ∃ job client page,
      s.phase = .processing job client page [] ∧ page.hasMore = false ∧ job.returned = returned := by
  unfold walkedOut at h
  split at h
  · rename_i job client page hphase
    split at h
    · cases h
    · rename_i hlast
      cases h
      exact ⟨job, client, page, hphase, Bool.eq_false_iff.mpr hlast, rfl⟩
  · cases h

/-- The sync that a forced start leads to, as it can be computed. -/
def forcedSync (s₀ : SharePointSt) (labels : List (Label Response)) : Option SharePointSt :=
  if ((s₀.tick 4).load plainWorker true).isNone then
    (step plainWorker s₀ (.started 4 true)).bind fun s₁ =>
      execWithin (step plainWorker) (Within plainWorker (answers twoFiles)) s₁ labels
  else none

theorem syncRun_of_forcedSync {s₀ s : SharePointSt} {labels : List (Label Response)}
    {owed returned : List RawItem} (h : forcedSync s₀ labels = some s)
    (hend : walkedOut s = some (owed, returned)) : ∃ job,
      SyncRun plainWorker (answers twoFiles) s₀ 4 true s job ∧ job.returned = returned := by
  obtain ⟨job, client, page, hphase, hlast, hreturned⟩ := exists_of_walkedOut hend
  obtain ⟨hfresh, h⟩ := Option.ite_none_right_eq_some.mp h
  obtain ⟨s₁, hstarted, hexec⟩ := Option.bind_eq_some_iff.mp h
  exact ⟨job, ⟨Option.isNone_iff_eq_none.mp hfresh, ⟨s₁, hstarted, run_of_execWithin hexec⟩,
    ⟨client, page, hphase, hlast⟩⟩, hreturned⟩

theorem held_notes : HeldThroughout twoFiles 4 9 0 ⟨"site", notes, "notes"⟩ where
  change := rfl
  made := by decide
  ingestible := rfl
  last := by
    intro q hlater hmade entry hentry
    obtain rfl : q = 1 := by
      have hmade : q < 2 := hmade
      omega
    obtain rfl : plan = entry := Option.some.inj hentry
    decide

end Example

end Ekip.Ingestion.ForcedResync
