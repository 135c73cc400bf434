import Ekip.Ingestion.Execution
import Ekip.Ingestion.Connectors.Runbooks

/-!
# Postmortems and the syncs of the runbooks connector

Postmortems are created and approved while incremental syncs run one after another,
and each sync reads the table as it is at the time of each of its pages. The syncs
succeed: none raises.
-/
namespace Ekip.Ingestion.Runbooks

open Ekip.Lib Ekip.Database Ekip.Shared Ekip.Core Ekip.Core.Incidents
  Ekip.Core.Tenancy

/-! ## The system -/

abbrev RunbooksWorker := Worker Unit RunbooksClient PostmortemDb PostmortemRow Nat Empty

abbrev RunbooksSt := St Unit RunbooksClient PostmortemDb PostmortemRow Nat Empty

structure System where
  db : PostmortemDb
  sync : RunbooksSt

/-- No postmortem, and a connector that has not been synced. -/
def System.registered (incidents : List IncidentRow) : System where
  db := { incidents }
  sync := .registered "runbooks" () []

inductive Event
  | created (draw : PostmortemDraw) (actor : Identity) (incidentId : Uuid)
      (rootCause : Option String) (actionItems : List Incidents.ActionItem)
  | approved (now : Instant) (actor : Identity) (postmortemId : Uuid)
  | started (now : Instant)
  | authenticated (now : Instant)
  | fetched (now : Instant)
  | processed (now : Instant)
  | saved (now : Instant)
  | completed (now : Instant)

def runbooksWorker (settings : Settings) (contentHash : RawDocument → Except Exn String)
    (organizationId : Uuid) : RunbooksWorker where
  settings := settings
  contentHash := contentHash
  connector := runbooksConnector organizationId

section Steps

variable (worker : RunbooksWorker) (organizationId : Uuid)

/-- A request in a transaction of its own. -/
def System.request {α : Type} (s : System) (now : Instant) (x : PostmortemM α) : Option System :=
  if s.sync.clock ≤ now then
    some { db := (Service.transaction x s.db).2, sync := s.sync.tick now }
  else none

def System.advance (s : System) (a : Label PostmortemDb) : Option System :=
  (step worker s.sync a).map fun sync => { s with sync }

def systemStep (s : System) : Event → Option System
  | .created draw actor incidentId rootCause actionItems =>
    s.request draw.now
      (createPostmortem draw actor organizationId incidentId rootCause actionItems)
  | .approved now actor postmortemId =>
    s.request now (approvePostmortem now actor organizationId postmortemId)
  | .started now => s.advance worker (.started now false)
  | .authenticated now => s.advance worker (.authenticated now)
  | .fetched now => s.advance worker (.fetched now s.db)
  | .processed now => s.advance worker (.processed now)
  | .saved now => s.advance worker (.saved now)
  | .completed now => s.advance worker (.completed now)

end Steps

/-- The postmortem has a document. -/
def Ingested (documents : List Document) (id : Uuid) : Prop :=
  ∃ row, getLatestDocument documents (toString id) = some row

instance (documents : List Document) (id : Uuid) : Decidable (Ingested documents id) :=
  decidable_of_iff _ Option.isSome_iff_exists

/-- When a sync starts, each reviewed postmortem that its filter leaves out has been
ingested. -/
def NoneLate (organizationId : Uuid) : System → Event → Prop
  | s, .started _ => ∀ row ∈ s.db.postmortems, row.organizationId = organizationId →
      Repository.isReviewed row = true →
        admitsTime s.sync.row.lastSyncedAt row.createdAt = true ∨
          Ingested s.sync.documents row.id
  | _, _ => True

instance (organizationId : Uuid) (s : System) : DecidablePred (NoneLate organizationId s)
  | .started _ => inferInstanceAs (Decidable (∀ row ∈ s.db.postmortems, _ → _ → _ ∨ _))
  | .created .. | .approved .. | .authenticated _ | .fetched _ | .processed _ | .saved _
  | .completed _ => isTrue trivial

/-! ## What a step can do -/

def Event.label (db : PostmortemDb) : Event → Option (Label PostmortemDb)
  | .created _ _ _ _ _ | .approved _ _ _ => none
  | .started now => some (.started now false)
  | .authenticated now => some (.authenticated now)
  | .fetched now => some (.fetched now db)
  | .processed now => some (.processed now)
  | .saved now => some (.saved now)
  | .completed now => some (.completed now)

/-- What a request does to the tables. -/
inductive Written (db : PostmortemDb) : PostmortemDb → Prop
  | refused : Written db db
  | created {row : PostmortemRow} (hdraft : row.status = .draft)
      (hfresh : ∀ other ∈ db.postmortems, other.id ≠ row.id) :
      Written db { db with postmortems := db.postmortems ++ [row] }
  | approved {existing : PostmortemRow} {reviewedBy : Uuid} {now : Instant}
      (hmem : existing ∈ db.postmortems) (hreviewable : reviewable existing = true) :
      Written db { db with postmortems := (Table.updateWhere db.postmortems
        (fun row => row.id = existing.id) (Repository.approved reviewedBy now)) }

variable {worker : RunbooksWorker} {organizationId : Uuid} {s s' s₁ s₂ s₃ s₄ : System} {e : Event}
  {id : Uuid}

theorem created_written {draw : PostmortemDraw} {actor : Identity} {incidentId : Uuid}
    {rootCause : Option String} {actionItems : List Incidents.ActionItem} (db : PostmortemDb) :
    Written db (Service.transaction
      (createPostmortem draw actor organizationId incidentId rootCause actionItems) db).2 := by
  rcases Service.transaction_cases
      (createPostmortem draw actor organizationId incidentId rootCause actionItems) db with
    ⟨row, db', hreturns, heq⟩ | ⟨error, -, heq⟩
  · rw [heq]
    obtain ⟨-, -, hdraft, -, hfresh, rfl⟩ := createPostmortem_returns hreturns
    exact .created hdraft hfresh
  · rw [heq]
    exact .refused

theorem approved_written {now : Instant} {actor : Identity} {postmortemId : Uuid} (db : PostmortemDb) :
    Written db (Service.transaction
      (approvePostmortem now actor organizationId postmortemId) db).2 := by
  rcases Service.transaction_cases (approvePostmortem now actor organizationId postmortemId) db with
    ⟨row, db', hreturns, heq⟩ | ⟨error, -, heq⟩
  · rw [heq]
    obtain ⟨existing, reviewedBy, hfound, -, hreviewable, -, -, rfl⟩ :=
      approvePostmortem_returns hreturns
    obtain ⟨hmem, rfl⟩ := Table.get?_some hfound
    exact .approved hmem hreviewable
  · rw [heq]
    exact .refused

theorem request_some {α : Type} {now : Instant} {x : PostmortemM α}
    (h : s.request now x = some s') :
    s' = { db := (Service.transaction x s.db).2, sync := s.sync.tick now } := by
  unfold System.request at h
  split at h
  · exact (Option.some.inj h).symm
  · cases h

/-- A step is a request, or a move of the sync on the tables as they are. -/
theorem systemStep_cases (h : systemStep worker organizationId s e = some s') :
    (e.label s.db = none ∧ ∃ now db, Written s.db db ∧ s' = { db, sync := s.sync.tick now }) ∨
      ∃ a sync, e.label s.db = some a ∧ Move worker (s.sync.tick a.now) a sync ∧
        s' = { s with sync } := by
  have hadvance : ∀ a, s.advance worker a = some s' →
      ∃ sync, Move worker (s.sync.tick a.now) a sync ∧ s' = { s with sync } := by
    intro a ha
    obtain ⟨sync, hsync, rfl⟩ := Option.map_eq_some_iff.mp ha
    exact ⟨sync, (move_of_step hsync).2, rfl⟩
  cases e with
  | created draw actor incidentId rootCause actionItems =>
    exact .inl ⟨rfl, _, _, created_written s.db, request_some h⟩
  | approved now actor postmortemId =>
    exact .inl ⟨rfl, _, _, approved_written s.db, request_some h⟩
  | started now | authenticated now | fetched now | processed now | saved now | completed now =>
    obtain ⟨sync, hmove, heq⟩ := hadvance _ h
    exact .inr ⟨_, sync, rfl, hmove, heq⟩

/-- No sync fails, and each is incremental and reads the present table. -/
theorem label_some {db : PostmortemDb} {a : Label PostmortemDb} (h : e.label db = some a) :
    (∀ now recorded, a ≠ .raised now recorded) ∧ (∀ now remote, a = .fetched now remote → remote = db) ∧
      ∀ now force, a = .started now force → force = false := by
  cases e with
  | created _ _ _ _ _ | approved _ _ _ => cases h
  | started _ | authenticated _ | fetched _ | processed _ | saved _ | completed _ =>
    obtain rfl := Option.some.inj h
    refine ⟨?_, ?_, ?_⟩
    · intro now recorded heq
      cases heq
    · intro now remote heq
      cases heq
      try rfl
    · intro now force heq
      cases heq
      try rfl

/-! ## Between two syncs -/

/-- Ids are unique, and a sync that has ended leaves no checkpoint. -/
structure Orderly (s : System) : Prop where
  ids : (s.db.postmortems.map fun row => row.id).Nodup
  connected : s.sync.row.status ≠ .disconnected
  checkpoint : s.sync.phase = .idle → s.sync.row.config.ingestionCheckpoint = none

theorem Written.ids {db db' : PostmortemDb} (h : Written db db')
    (hids : (db.postmortems.map fun row => row.id).Nodup) :
    (db'.postmortems.map fun row => row.id).Nodup := by
  cases h with
  | refused => exact hids
  | created _ hfresh => exact Table.nodup_keys_append hids hfresh
  | @approved existing reviewedBy now _ _ =>
    have hsame : (Table.updateWhere db.postmortems (fun row => row.id = existing.id)
        (Repository.approved reviewedBy now)).map (fun row => row.id) =
          db.postmortems.map fun row => row.id :=
      Table.map_key_updateWhere fun _ => rfl
    exact hsame ▸ hids

theorem Orderly.step (horderly : Orderly s) (h : systemStep worker organizationId s e = some s') :
    Orderly s' := by
  rcases systemStep_cases h with ⟨-, now, db, hwritten, rfl⟩ | ⟨a, sync, hlabel, hmove, rfl⟩
  · exact ⟨hwritten.ids horderly.ids, horderly.connected, horderly.checkpoint⟩
  · obtain ⟨hraised, -, -⟩ := label_some hlabel
    cases hmove with
    | started hphase hconnected => exact ⟨horderly.ids, horderly.connected, fun hidle => by cases hidle⟩
    | authenticated hphase hclient =>
      exact ⟨horderly.ids, horderly.connected, fun hidle => by cases hidle⟩
    | refused hphase hpage => exact ⟨horderly.ids, horderly.connected, fun hidle => by cases hidle⟩
    | accepted hphase hpage hvalid | processed hphase hprocess =>
      exact ⟨horderly.ids, horderly.connected, fun hidle => by cases hidle⟩
    | @saved now job client page cursor hphase hnext =>
      refine ⟨horderly.ids, ?_, fun hidle => by cases hidle⟩
      have hrow := St.saveCheckpoint_row worker (s.sync.tick now) job cursor horderly.connected
      show (St.saveCheckpoint worker (s.sync.tick now) job cursor).row.status ≠ .disconnected
      rw [hrow]
      exact horderly.connected
    | @completed now job client page hphase hlast =>
      have hrow := St.complete_row (s.sync.tick now) job horderly.connected
      refine ⟨horderly.ids, ?_, ?_⟩
      · show (St.complete (s.sync.tick now) job).row.status ≠ .disconnected
        rw [hrow]
        intro hdisconnected
        cases hdisconnected
      · intro _
        show (St.complete (s.sync.tick now) job).row.config.ingestionCheckpoint = none
        rw [hrow]
        rfl
    | recorded hjob | lost hjob => exact absurd rfl (hraised _ _)

theorem orderly_registered (incidents : List IncidentRow) : Orderly (System.registered incidents) where
  ids := List.nodup_nil
  connected := by
    intro hdisconnected
    cases hdisconnected
  checkpoint := fun _ => rfl

/-! ## From the start of a sync to its end -/

/-- The postmortem is listed from the offset on. -/
def Ahead (organizationId : Uuid) (db : PostmortemDb) (since : Option Instant) (offset : Nat) (id : Uuid) :
    Prop :=
  id ∈ (listedIds organizationId since db).drop offset

/-- The sync that is under way still comes to the postmortem. -/
def Pending (organizationId : Uuid) (db : PostmortemDb) (id : Uuid) :
    Phase RunbooksClient PostmortemDb PostmortemRow Nat Empty → Prop
  | .idle => False
  | .authenticating job => Ahead organizationId db job.since (job.cursor.getD 0) id
  | .fetching job client =>
    client.organizationId = organizationId ∧
      Ahead organizationId db job.since (job.cursor.getD 0) id
  | .refused _ => True
  | .processing job client page rest =>
    client.organizationId = organizationId ∧ ((∃ raw ∈ rest, raw.id = id) ∨
      ∃ next, page.next = some next ∧ Ahead organizationId db job.since next id)

def Covered (organizationId : Uuid) (id : Uuid) (s : System) : Prop :=
  Ingested s.sync.documents id ∨ Pending organizationId s.db id s.sync.phase

theorem Written.ahead {db db' : PostmortemDb} {since : Option Instant} {offset : Nat}
    (h : Written db db') (hids : (db.postmortems.map fun row => row.id).Nodup)
    (hahead : Ahead organizationId db since offset id) : Ahead organizationId db' since offset id := by
  cases h with
  | refused => exact hahead
  | created hdraft _ =>
    unfold Ahead
    rw [listedIds_created hdraft]
    exact hahead
  | approved hmem hreviewable => exact listedIds_approved hids hmem hreviewable id hahead

theorem Covered.written {db : PostmortemDb} {now : Instant} (hcovered : Covered organizationId id s)
    (hids : (s.db.postmortems.map fun row => row.id).Nodup) (h : Written s.db db) :
    Covered organizationId id { db, sync := s.sync.tick now } := by
  refine hcovered.imp_right ?_
  intro hpending
  show Pending organizationId db id s.sync.phase
  cases hphase : s.sync.phase with
  | idle =>
    rw [hphase] at hpending
    cases hpending
  | authenticating job =>
    rw [hphase] at hpending
    exact h.ahead hids hpending
  | fetching job client =>
    rw [hphase] at hpending
    exact ⟨hpending.1, h.ahead hids hpending.2⟩
  | refused job => exact trivial
  | processing job client page rest =>
    rw [hphase] at hpending
    refine ⟨hpending.1, hpending.2.imp_right ?_⟩
    intro hlater
    obtain ⟨next, hnext, hahead⟩ := hlater
    exact ⟨next, hnext, h.ahead hids hahead⟩

/-- An item that is processed has a document, and no document is lost. -/
theorem ingested_processed {documents documents' : List Document} {raw : PostmortemRow} {written : Nat}
    (hnormalize : worker.connector.normalize = normalize)
    (h : processOneItem worker documents raw = .ok (written, documents')) :
    Ingested documents' raw.id ∧ ∀ id, Ingested documents id → Ingested documents' id := by
  obtain ⟨⟨_, _, hcurrent⟩, hothers⟩ := processOneItem_ok h
  rw [hnormalize] at hcurrent hothers
  have hnew : Ingested documents' raw.id := by
    obtain ⟨row, hrow, -⟩ := Option.map_eq_some_iff.mp hcurrent
    exact ⟨row, hrow⟩
  refine ⟨hnew, ?_⟩
  intro id hid
  by_cases hsame : toString id = toString raw.id
  · unfold Ingested at hnew ⊢
    rw [hsame]
    exact hnew
  · obtain ⟨row, hrow⟩ := hid
    exact ⟨row, (hothers _ hsame).trans hrow⟩

variable {settings : Settings} {contentHash : RawDocument → Except Exn String}

theorem Covered.moved {a : Label PostmortemDb} {sync : RunbooksSt} {now : Instant}
    (hcovered : Covered organizationId id s)
    (hmove : Move (runbooksWorker settings contentHash organizationId) (s.sync.tick now) a sync)
    (hraised : ∀ now recorded, a ≠ .raised now recorded)
    (hfetched : ∀ now remote, a = .fetched now remote → remote = s.db) :
    Covered organizationId id { s with sync } := by
  cases hmove with
  | started hphase _ =>
    have hidle : s.sync.phase = .idle := hphase
    unfold Covered at hcovered
    rw [hidle] at hcovered
    rcases hcovered with hingested | hnever
    · exact .inl hingested
    · cases hnever
  | @authenticated _ job client hphase hclient =>
    have hauthenticating : s.sync.phase = .authenticating job := hphase
    unfold Covered at hcovered
    rw [hauthenticating] at hcovered
    refine hcovered.imp_right fun hahead => ⟨?_, hahead⟩
    obtain rfl := Except.ok.inj hclient
    rfl
  | refused _ _ => exact .inr trivial
  | @accepted _ remote job client client' page hphase hpage _ =>
    obtain rfl := hfetched _ _ rfl
    have hfetching : s.sync.phase = .fetching job client := hphase
    unfold Covered at hcovered
    rw [hfetching] at hcovered
    refine hcovered.imp_right ?_
    intro hpending
    obtain ⟨hclient, hahead⟩ := hpending
    obtain ⟨rfl, rfl⟩ := Prod.mk.inj hpage
    refine ⟨hclient, ?_⟩
    rw [← hclient] at hahead ⊢
    exact fetchBatch_covers hahead
  | @processed _ job client page raw rest written documents hphase hprocess =>
    have hprocessing : s.sync.phase = .processing job client page (raw :: rest) := hphase
    obtain ⟨hnew, hkept⟩ := ingested_processed rfl hprocess
    unfold Covered at hcovered
    rw [hprocessing] at hcovered
    rcases hcovered with hingested | ⟨hclient, hlisted | hlater⟩
    · exact .inl (hkept id hingested)
    · obtain ⟨other, hother, hid⟩ := hlisted
      rcases List.mem_cons.mp hother with rfl | hrest
      · rw [← hid]
        exact .inl hnew
      · exact .inr ⟨hclient, .inl ⟨other, hrest, hid⟩⟩
    · exact .inr ⟨hclient, .inr hlater⟩
  | @saved _ job client page cursor hphase hnext =>
    have hprocessing : s.sync.phase = .processing job client page [] := hphase
    unfold Covered at hcovered
    rw [hprocessing] at hcovered
    rcases hcovered with hingested | ⟨hclient, hlisted | hlater⟩
    · exact .inl hingested
    · obtain ⟨raw, hraw, -⟩ := hlisted
      cases hraw
    · obtain ⟨next, hpageNext, hahead⟩ := hlater
      obtain rfl := Option.some.inj (hnext.symm.trans hpageNext)
      exact .inr ⟨hclient, hahead⟩
  | @completed _ job client page hphase hlast =>
    have hprocessing : s.sync.phase = .processing job client page [] := hphase
    unfold Covered at hcovered
    rw [hprocessing] at hcovered
    rcases hcovered with hingested | ⟨-, hlisted | hlater⟩
    · exact .inl hingested
    · obtain ⟨raw, hraw, -⟩ := hlisted
      cases hraw
    · obtain ⟨next, hpageNext, -⟩ := hlater
      simp [FetchResult.next, hlast] at hpageNext
  | recorded _ | lost _ => exact absurd rfl (hraised _ _)

theorem Covered.step (horderly : Orderly s) (hcovered : Covered organizationId id s)
    (h : systemStep (runbooksWorker settings contentHash organizationId) organizationId s e = some s') :
    Covered organizationId id s' := by
  rcases systemStep_cases h with ⟨-, now, db, hwritten, rfl⟩ | ⟨a, sync, hlabel, hmove, rfl⟩
  · exact hcovered.written horderly.ids hwritten
  · obtain ⟨hraised, hfetched, -⟩ := label_some hlabel
    exact hcovered.moved hmove hraised hfetched

/-- A sync that starts covers each reviewed postmortem that its filter admits. -/
theorem covered_started {now : Instant} {row : PostmortemRow} (horderly : Orderly s)
    (hlate : NoneLate organizationId s (.started now))
    (h : systemStep (runbooksWorker settings contentHash organizationId) organizationId s
      (.started now) = some s') (hrow : row ∈ s.db.postmortems)
    (horg : row.organizationId = organizationId) (hreviewed : Repository.isReviewed row = true) :
    Covered organizationId row.id s' := by
  rcases systemStep_cases h with ⟨hrequest, -⟩ | ⟨a, sync, hlabel, hmove, rfl⟩
  · cases hrequest
  · obtain rfl := Option.some.inj hlabel
    cases hmove with
    | started hphase hconnected =>
      rcases hlate row hrow horg hreviewed with hadmitted | hingested
      · right
        have hload : (s.sync.tick now).load (runbooksWorker settings contentHash organizationId)
            false = none := by
          unfold St.load loadIngestionCheckpoint
          rw [show (s.sync.tick now).row.config.ingestionCheckpoint = none from
            horderly.checkpoint hphase]
          rfl
        show Ahead organizationId s.db ((s.sync.tick now).begin _ false).since
          (((s.sync.tick now).begin _ false).cursor.getD 0) row.id
        unfold St.begin
        rw [hload]
        exact mem_listedIds hrow (decide_eq_true ⟨⟨horg, hreviewed⟩, hadmitted⟩)
      · exact .inl hingested

/-- A sync that ends has ingested what it covered. -/
theorem ingested_completed {now : Instant} (hcovered : Covered organizationId id s)
    (h : systemStep (runbooksWorker settings contentHash organizationId) organizationId s
      (.completed now) = some s') (horderly : Orderly s) : Ingested s'.sync.documents id := by
  have hafter := hcovered.step horderly h
  rcases systemStep_cases h with ⟨hrequest, -⟩ | ⟨a, sync, hlabel, hmove, rfl⟩
  · cases hrequest
  · obtain rfl := Option.some.inj hlabel
    cases hmove with
    | completed hphase hlast =>
      rcases hafter with hingested | hpending
      · exact hingested
      · cases hpending

/-- What was reviewed when a sync starts has a document when a sync ends after that, if
no sync starts while a reviewed postmortem without one was created before the last sync
ended. Postmortems of one time are taken to come in the order of the table, which
`ORDER BY` does not promise. -/
theorem reviewed_ingested {incidents : List IncidentRow} {now now' : Instant} {row : PostmortemRow}
    (hbefore : Run (systemStep (runbooksWorker settings contentHash organizationId) organizationId)
      (NoneLate organizationId) (.registered incidents) s₁)
    (hlate : NoneLate organizationId s₁ (.started now))
    (hstart : systemStep (runbooksWorker settings contentHash organizationId) organizationId s₁
      (.started now) = some s₂)
    (hduring : Run (systemStep (runbooksWorker settings contentHash organizationId) organizationId)
      (NoneLate organizationId) s₂ s₃)
    (hend : systemStep (runbooksWorker settings contentHash organizationId) organizationId s₃
      (.completed now') = some s₄) (hrow : row ∈ s₁.db.postmortems)
    (horg : row.organizationId = organizationId) (hreviewed : Repository.isReviewed row = true) :
    Ingested s₄.sync.documents row.id := by
  have horderly : Orderly s₁ := hbefore.invariant (fun _ _ _ hs _ hstep => hs.step hstep)
    (orderly_registered incidents)
  have hcovered := covered_started horderly hlate hstart hrow horg hreviewed
  obtain ⟨horderly₃, hcovered₃⟩ := hduring.invariant
    (I := fun s => Orderly s ∧ Covered organizationId row.id s)
    (fun _ _ _ hs _ hstep => ⟨hs.1.step hstep, hs.2.step hs.1 hstep⟩)
    ⟨horderly.step hstart, hcovered⟩
  exact ingested_completed hcovered₃ hend horderly₃

/-! ## A late approval -/

section Example

def outage : IncidentRow :=
  { id := 5, organizationId := 1, projectId := 3, title := "Outage", severity := "high"
    reportedBy := 7, createdAt := 1, description := "Errors", updatedAt := 1 }

def laterOutage : IncidentRow := { outage with id := 6 }

def reviewer : Identity :=
  { kind := .user, subject := "7", organizationId := 1, userId := some 7
    permissions := {postmortemApprovePermission} }

def plainWorker : RunbooksWorker :=
  runbooksWorker
    { ingestionCheckpointTtl := 0, ingestionMaxPagesPerAttempt := 5, ingestionMaxItemsPerPage := 50 }
    (fun raw => .ok raw.content) 1

def draft : Event := .created { postmortemId := 9, now := 10 } reviewer 5 (some "A full disk") []

def laterDraft : Event := .created { postmortemId := 10, now := 40 } reviewer 6 (some "A full queue") []

/-- A sync ends between the creation of the postmortem and its approval. -/
def lateApproval : List Event :=
  [draft, .started 11, .authenticated 12, .fetched 13, .completed 14, .approved 20 reviewer 9]

/-- A sync ingests the first postmortem, and the second comes after it. -/
def promptApprovals : List Event :=
  [draft, .approved 20 reviewer 9, .started 30, .authenticated 31, .fetched 32, .processed 33,
    .completed 34, laterDraft, .approved 50 reviewer 10]

/-- An approved postmortem that exists, and what was synced by then. -/
def approvedBefore (lastSyncedAt : Option Instant) (id : Uuid) (s : System) : Bool :=
  s.sync.row.lastSyncedAt = lastSyncedAt ∧
    ∃ row ∈ s.db.postmortems, row.organizationId = 1 ∧ row.status = .approved ∧ row.id = id

/-- The next sync leaves the first postmortem out, which has its document. -/
theorem reviewed_ingested_prompt :
    ∃ s₁ s₄ : System, execWithin (systemStep plainWorker 1) (NoneLate 1)
        (.registered [outage, laterOutage]) promptApprovals = some s₁ ∧
      approvedBefore (some 34) 10 s₁ = true ∧ Ingested s₄.sync.documents 10 := by
  have hreplay : ((execWithin (systemStep plainWorker 1) (NoneLate 1)
      (.registered [outage, laterOutage]) promptApprovals).any fun s₁ =>
        (approvedBefore (some 34) 10 s₁ && decide (NoneLate 1 s₁ (.started 60))) &&
          (systemStep plainWorker 1 s₁ (.started 60)).any fun s₂ =>
            (execWithin (systemStep plainWorker 1) (NoneLate 1) s₂
              [.authenticated 61, .fetched 62, .processed 63]).any fun s₃ =>
                (systemStep plainWorker 1 s₃ (.completed 64)).isSome) = true := by
    decide +kernel
  obtain ⟨s₁, h₁, hreplay⟩ := (Option.any_eq_true _ _).mp hreplay
  obtain ⟨hbefore, hreplay⟩ := (Bool.and_eq_true_iff).mp hreplay
  obtain ⟨happroved, hlate⟩ := (Bool.and_eq_true_iff).mp hbefore
  obtain ⟨s₂, h₂, hreplay⟩ := (Option.any_eq_true _ _).mp hreplay
  obtain ⟨s₃, h₃, hreplay⟩ := (Option.any_eq_true _ _).mp hreplay
  obtain ⟨s₄, h₄⟩ := Option.isSome_iff_exists.mp hreplay
  obtain ⟨-, row, hrow, horg, hstatus, hid⟩ := of_decide_eq_true happroved
  have hreviewed : Repository.isReviewed row = true := decide_eq_true (.inl hstatus)
  have hingested := reviewed_ingested (run_of_execWithin h₁) (of_decide_eq_true hlate) h₂
    (run_of_execWithin h₃) h₄ hrow horg hreviewed
  rw [hid] at hingested
  exact ⟨s₁, s₄, h₁, happroved, hingested⟩

/-- The approved postmortem has no document after a sync that starts after its approval. -/
theorem approved_missed :
    ∃ s₁ s₂ s₃ s₄ : System, ∃ row ∈ s₁.db.postmortems,
      Run (systemStep plainWorker 1) anyStep (.registered [outage]) s₁ ∧
      systemStep plainWorker 1 s₁ (.started 30) = some s₂ ∧
      Run (systemStep plainWorker 1) anyStep s₂ s₃ ∧
      systemStep plainWorker 1 s₃ (.completed 33) = some s₄ ∧ row.organizationId = 1 ∧
      row.status = .approved ∧ ¬ Ingested s₄.sync.documents row.id := by
  have hreplay : ((exec (systemStep plainWorker 1) (.registered [outage]) lateApproval).any fun s₁ =>
      approvedBefore (some 14) 9 s₁ && (systemStep plainWorker 1 s₁ (.started 30)).any fun s₂ =>
        (exec (systemStep plainWorker 1) s₂ [.authenticated 31, .fetched 32]).any fun s₃ =>
          (systemStep plainWorker 1 s₃ (.completed 33)).any fun s₄ =>
            s₄.sync.documents.isEmpty) = true := by
    decide +kernel
  obtain ⟨s₁, h₁, hreplay⟩ := (Option.any_eq_true _ _).mp hreplay
  obtain ⟨happroved, hreplay⟩ := (Bool.and_eq_true_iff).mp hreplay
  obtain ⟨s₂, h₂, hreplay⟩ := (Option.any_eq_true _ _).mp hreplay
  obtain ⟨s₃, h₃, hreplay⟩ := (Option.any_eq_true _ _).mp hreplay
  obtain ⟨s₄, h₄, hempty⟩ := (Option.any_eq_true _ _).mp hreplay
  obtain ⟨-, row, hrow, horg, hstatus, -⟩ := of_decide_eq_true happroved
  refine ⟨s₁, s₂, s₃, s₄, row, hrow, run_of_exec h₁, h₂, run_of_exec h₃, h₄, horg, hstatus, ?_⟩
  intro hingested
  obtain ⟨document, hdocument⟩ := hingested
  rw [List.isEmpty_iff.mp hempty] at hdocument
  cases hdocument

end Example

end Ekip.Ingestion.Runbooks
