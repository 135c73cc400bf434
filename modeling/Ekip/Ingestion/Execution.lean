import Ekip.Lib.Run
import Ekip.Ingestion.Service

/-!
# Executions of `_execute_ingestion_job` on one connector

One connector and the executions that run on it, one after another. A step goes
from one commit, or one answer of the source, to the next. An execution may stop
anywhere: it raises, or is cancelled, or its process dies. The state also holds
what the database does not record and the properties speak of: what the source
has returned and what of it has been committed.
-/
namespace Ekip.Ingestion

open Ekip.Lib Ekip.Database Ekip.Core Ekip.Core.Tenancy

variable {υ χ ρ ι κ τ : Type}

/-- A page that the source returned, with what it answered and when. -/
structure FetchedPage (ρ : Type) where
  fetchedAt : Instant
  remote : ρ

/-- The local variables of an execution, less its counters. -/
structure Job (ρ ι κ τ : Type) where
  forceFullSync : Bool
  since : Option Instant
  cursor : Option κ
  resumeTokenIn : Option τ
  latestResumeToken : Option τ
  seenCursors : List κ
  pagesFetched : Nat := 0
  /-- The pages of this walk: its own, after those that were walked before the
  checkpoint it was resumed from. -/
  walked : List (FetchedPage ρ)
  /-- What the source has returned to this execution. -/
  returned : List ι := []
  /-- What earlier executions were returned and had not committed when it began. -/
  owed : List ι

inductive Phase (χ ρ ι κ τ : Type)
  | idle
  | authenticating (job : Job ρ ι κ τ)
  | fetching (job : Job ρ ι κ τ) (client : χ)
  /-- The page that was fetched is not accepted. -/
  | refused (job : Job ρ ι κ τ)
  | processing (job : Job ρ ι κ τ) (client : χ) (page : FetchResult ι κ τ) (rest : List ι)

namespace Phase

def job? : Phase χ ρ ι κ τ → Option (Job ρ ι κ τ)
  | idle => none
  | authenticating job | fetching job _ | refused job | processing job _ _ _ => some job

/-- The items still to be processed of a page that came with a resume token. -/
def restOfTokenPage : Phase χ ρ ι κ τ → List ι
  | processing _ _ page rest => if page.resumeToken.isSome then rest else []
  | _ => []

end Phase

structure St (υ χ ρ ι κ τ : Type) where
  row : IngestionRow υ κ τ
  documents : List Document := []
  phase : Phase χ ρ ι κ τ := .idle
  clock : Instant := 0
  /-- When the last page was fetched. -/
  fetchedAt : Instant := 0
  /-- What the source has ever returned. -/
  returned : List ι := []
  committed : List ι := []
  /-- What was left of pages that came with a resume token, when their execution
  recorded its failure. -/
  exposed : List ι := []
  /-- The pages that were walked before the stored checkpoint. -/
  walked : List (FetchedPage ρ) := []
  /-- The stored checkpoint was saved by the last execution, or resumed by it. -/
  ownCheckpoint : Bool := false

/-- A connector is registered and has not been synced. The documents are those of
other connectors of the source. -/
def St.registered (source : String) (operator : υ) (documents : List Document) :
    St υ χ ρ ι κ τ where
  row := { source, config := { operator } }
  documents := documents

inductive Label (ρ : Type)
  | started (now : Instant) (forceFullSync : Bool)
  | authenticated (now : Instant)
  | fetched (now : Instant) (remote : ρ)
  | processed (now : Instant)
  | saved (now : Instant)
  | completed (now : Instant)
  /-- Whatever raises, at whichever await. `recorded` says whether the failure
  path could write; a process that dies writes nothing. -/
  | raised (now : Instant) (recorded : Bool)

def Label.now : Label ρ → Instant
  | started now _ | authenticated now | fetched now _ | processed now | saved now
  | completed now | raised now _ => now

section Parts

variable (worker : Worker υ χ ρ ι κ τ) (s : St υ χ ρ ι κ τ)

/-! ## The start -/

section Start

def St.load [DecidableEq υ] (forceFullSync : Bool) : Option (Option Instant × κ × Option τ) :=
  loadIngestionCheckpoint worker.connector.blank worker.connector.sourceName s.row.config
    forceFullSync s.clock worker.settings.ingestionCheckpointTtl

/-- `None if force_full_sync else last_synced_at`. -/
def St.baseSince (forceFullSync : Bool) : Option Instant :=
  if forceFullSync then none else s.row.lastSyncedAt

def St.owed [DecidableEq ι] : List ι := s.returned.filter fun x => x ∉ s.committed

/-- `config["_resume_token"]`, for a connector that has resume tokens. -/
def St.storedToken : Option τ :=
  if worker.connector.supportsResumeToken then s.row.config.resumeToken else none

variable [DecidableEq ι]

/-- The locals of an execution that loads no checkpoint. -/
def St.beginning (forceFullSync : Bool) : Job ρ ι κ τ where
  forceFullSync := forceFullSync
  since := s.baseSince forceFullSync
  cursor := none
  resumeTokenIn := s.storedToken worker
  latestResumeToken := none
  seenCursors := []
  walked := []
  owed := s.owed

/-- The locals of an execution that loads one: it goes on with the `since` and
the cursor of the checkpoint, and with its token if it has one. -/
def St.resuming (forceFullSync : Bool) (since : Option Instant) (cursor : κ)
    (checkpointResumeToken : Option τ) : Job ρ ι κ τ where
  forceFullSync := forceFullSync
  since := since
  cursor := some cursor
  resumeTokenIn := checkpointResumeToken.or (s.storedToken worker)
  latestResumeToken := checkpointResumeToken
  seenCursors := [cursor]
  walked := s.walked
  owed := s.owed

variable [DecidableEq υ]

def St.begin (forceFullSync : Bool) : Job ρ ι κ τ :=
  match s.load worker forceFullSync with
  | none => s.beginning worker forceFullSync
  | some (since, cursor, checkpointResumeToken) =>
    s.resuming worker forceFullSync since cursor checkpointResumeToken

theorem begin_cases (worker : Worker υ χ ρ ι κ τ) (s : St υ χ ρ ι κ τ) (forceFullSync : Bool) :
    (s.load worker forceFullSync = none ∧
        s.begin worker forceFullSync = s.beginning worker forceFullSync) ∨
      ∃ raw, s.row.config.ingestionCheckpoint = some raw ∧
        (s.load worker forceFullSync).isSome = true ∧
        s.begin worker forceFullSync =
          s.resuming worker forceFullSync raw.since raw.cursor raw.resumeToken := by
  unfold St.begin
  cases hload : s.load worker forceFullSync with
  | none => exact .inl ⟨rfl, rfl⟩
  | some loaded =>
    obtain ⟨since, cursor, token⟩ := loaded
    obtain ⟨raw, hraw, -, rfl, rfl, rfl⟩ := loadIngestionCheckpoint_some hload
    exact .inr ⟨raw, hraw, rfl, rfl⟩

def St.start (forceFullSync : Bool) : St υ χ ρ ι κ τ :=
  { s with
    phase := .authenticating (s.begin worker forceFullSync)
    ownCheckpoint := (s.load worker forceFullSync).isSome }

end Start

/-! ## The page loop -/

namespace Job

/-- `fetch_kwargs["resume_token"]`. -/
def passedToken (job : Job ρ ι κ τ) : Option τ :=
  if worker.connector.supportsResumeToken then job.resumeTokenIn else none

def fetchBatch (job : Job ρ ι κ τ) (client : χ) (remote : ρ) : FetchResult ι κ τ × χ :=
  worker.connector.fetchBatch client remote job.since job.cursor (job.passedToken worker)

def receive (job : Job ρ ι κ τ) (now : Instant) (remote : ρ) (page : FetchResult ι κ τ) :
    Job ρ ι κ τ :=
  { job with
    pagesFetched := job.pagesFetched + 1
    walked := job.walked ++ [FetchedPage.mk now remote]
    returned := job.returned ++ page.items }

def accept (job : Job ρ ι κ τ) (page : FetchResult ι κ τ) : Job ρ ι κ τ :=
  { job with latestResumeToken := page.resumeToken.or job.latestResumeToken }

def validate [DecidableEq κ] (job : Job ρ ι κ τ) (page : FetchResult ι κ τ) : Except Exn Unit :=
  validateFetchResult worker.settings worker.connector.blank worker.connector.sourceName page
    job.pagesFetched job.seenCursors

def advance (job : Job ρ ι κ τ) (cursor : κ) : Job ρ ι κ τ :=
  { job with cursor := some cursor, seenCursors := cursor :: job.seenCursors }

end Job

namespace St

def receive (page : FetchResult ι κ τ) : St υ χ ρ ι κ τ :=
  { s with fetchedAt := s.clock, returned := s.returned ++ page.items }

def commitItem (documents : List Document) (rawItem : ι) : St υ χ ρ ι κ τ :=
  { s with documents, committed := s.committed ++ [rawItem] }

def checkpointValue (job : Job ρ ι κ τ) (cursor : κ) : Checkpoint υ κ τ :=
  buildIngestionCheckpoint worker.connector.sourceName s.row.config job.forceFullSync job.since
    cursor job.latestResumeToken s.clock

def saveCheckpoint (job : Job ρ ι κ τ) (cursor : κ) : St υ χ ρ ι κ τ :=
  { s with
    row := s.row.patchConnectorConfigIngestionCheckpoint
      { ingestionCheckpoint := some (some (s.checkpointValue worker job cursor)) }
    walked := job.walked
    ownCheckpoint := true }

/-! ## The end -/

def complete (job : Job ρ ι κ τ) : St υ χ ρ ι κ τ :=
  { s with
    row := s.row.updateConnectorConfigSyncStatus .active (some s.clock)
      (some { ingestionCheckpoint := some none, resumeToken := job.latestResumeToken })
    phase := .idle }

/-- The failure path: the status, and the latest resume token if there is one. -/
def recordFailure (job : Job ρ ι κ τ) : St υ χ ρ ι κ τ :=
  { s with
    row := s.row.updateConnectorConfigSyncStatus .error none
      (job.latestResumeToken.map fun token => { resumeToken := some token })
    exposed := s.exposed ++ s.phase.restOfTokenPage
    phase := .idle }

section Rows

variable (job : Job ρ ι κ τ) (cursor : κ)

/-- A failure leaves the watermark, the checkpoint and the operator's part of the
configuration alone. -/
theorem recordFailure_row : (s.recordFailure job).row.lastSyncedAt = s.row.lastSyncedAt ∧
    (s.recordFailure job).row.config.ingestionCheckpoint = s.row.config.ingestionCheckpoint ∧
    (s.recordFailure job).row.config.operator = s.row.config.operator := by
  unfold recordFailure ConnectorConfig.updateConnectorConfigSyncStatus
  dsimp only
  split
  · exact ⟨rfl, rfl, rfl⟩
  · cases job.latestResumeToken with
    | none | some token => exact ⟨rfl, rfl, rfl⟩

theorem saveCheckpoint_row (h : s.row.status ≠ .disconnected) :
    (s.saveCheckpoint worker job cursor).row =
      { s.row with config := (s.row.config.merge
          { ingestionCheckpoint := some (some (s.checkpointValue worker job cursor)) }) } :=
  ConnectorConfig.patchConnectorConfigIngestionCheckpoint_of_connected h

theorem complete_row (h : s.row.status ≠ .disconnected) :
    (s.complete job).row =
      { s.row with
        status := .active
        lastSyncedAt := some s.clock
        config := (s.row.config.merge
          { ingestionCheckpoint := some none, resumeToken := job.latestResumeToken }) } :=
  ConnectorConfig.updateConnectorConfigSyncStatus_of_connected h

end Rows

end St

end Parts

variable [DecidableEq υ] [DecidableEq ι] [DecidableEq κ] (worker : Worker υ χ ρ ι κ τ)
  (s : St υ χ ρ ι κ τ)

/-- One step at the time `s.clock`. -/
def act : Label ρ → Option (St υ χ ρ ι κ τ)
  | .started _ forceFullSync =>
    match s.phase with
    | .idle =>
      -- otherwise a `ConflictError` is raised before anything is read
      if s.row.status = .disconnected ∨ s.row.source ≠ worker.connector.sourceName then none
      else some (s.start worker forceFullSync)
    | _ => none
  | .authenticated _ =>
    match s.phase with
    | .authenticating job =>
      match worker.connector.authenticate s.row.config.operator with
      | .ok client => some { s with phase := .fetching job client }
      | .error _ => none
    | _ => none
  | .fetched _ remote =>
    match s.phase with
    | .fetching job client =>
      let (page, client) := job.fetchBatch worker client remote
      let job := job.receive s.clock remote page
      match job.validate worker page with
      | .error _ => some { s.receive page with phase := .refused job }
      | .ok () => some { s.receive page with
          phase := .processing (job.accept page) client page page.items }
    | _ => none
  | .processed _ =>
    match s.phase with
    | .processing job client page (rawItem :: rest) =>
      match processOneItem worker s.documents rawItem with
      | .error _ => none
      | .ok (_, documents) => some { s.commitItem documents rawItem with
          phase := .processing job client page rest }
    | _ => none
  | .saved _ =>
    match s.phase with
    | .processing job client page [] =>
      match page.next with
      | some cursor => some { s.saveCheckpoint worker job cursor with
          phase := .fetching (job.advance cursor) client }
      | none => none
    | _ => none
  | .completed _ =>
    match s.phase with
    | .processing job _ page [] => if page.hasMore then none else some (s.complete job)
    | _ => none
  | .raised _ recorded =>
    match s.phase.job? with
    | none => none
    | some job => some (if recorded then s.recordFailure job else { s with phase := .idle })

def St.tick (s : St υ χ ρ ι κ τ) (now : Instant) : St υ χ ρ ι κ τ := { s with clock := now }

/-- The clock does not run backwards. -/
def step (a : Label ρ) : Option (St υ χ ρ ι κ τ) :=
  if s.clock ≤ a.now then act worker (s.tick a.now) a else none

/-! ## What a step can do -/

inductive Move : Label ρ → St υ χ ρ ι κ τ → Prop
  | started {now : Instant} {forceFullSync : Bool} (hphase : s.phase = .idle)
      (hconnected : s.row.status ≠ .disconnected) :
      Move (.started now forceFullSync) (s.start worker forceFullSync)
  | authenticated {now : Instant} {job : Job ρ ι κ τ} {client : χ}
      (hphase : s.phase = .authenticating job)
      (hclient : worker.connector.authenticate s.row.config.operator = .ok client) :
      Move (.authenticated now) { s with phase := .fetching job client }
  | refused {now : Instant} {remote : ρ} {job : Job ρ ι κ τ} {client client' : χ}
      {page : FetchResult ι κ τ} (hphase : s.phase = .fetching job client)
      (hpage : job.fetchBatch worker client remote = (page, client')) :
      Move (.fetched now remote)
        { s.receive page with phase := .refused (job.receive s.clock remote page) }
  | accepted {now : Instant} {remote : ρ} {job : Job ρ ι κ τ} {client client' : χ}
      {page : FetchResult ι κ τ} (hphase : s.phase = .fetching job client)
      (hpage : job.fetchBatch worker client remote = (page, client'))
      (hvalid : (job.receive s.clock remote page).validate worker page = .ok ()) :
      Move (.fetched now remote) { s.receive page with
        phase := .processing ((job.receive s.clock remote page).accept page) client' page
          page.items }
  | processed {now : Instant} {job : Job ρ ι κ τ} {client : χ} {page : FetchResult ι κ τ}
      {rawItem : ι} {rest : List ι} {written : Nat} {documents : List Document}
      (hphase : s.phase = .processing job client page (rawItem :: rest))
      (hprocess : processOneItem worker s.documents rawItem = .ok (written, documents)) :
      Move (.processed now)
        { s.commitItem documents rawItem with phase := .processing job client page rest }
  | saved {now : Instant} {job : Job ρ ι κ τ} {client : χ} {page : FetchResult ι κ τ} {cursor : κ}
      (hphase : s.phase = .processing job client page []) (hnext : page.next = some cursor) :
      Move (.saved now) { s.saveCheckpoint worker job cursor with
        phase := .fetching (job.advance cursor) client }
  | completed {now : Instant} {job : Job ρ ι κ τ} {client : χ} {page : FetchResult ι κ τ}
      (hphase : s.phase = .processing job client page []) (hlast : page.hasMore = false) :
      Move (.completed now) (s.complete job)
  | recorded {now : Instant} {job : Job ρ ι κ τ} (hjob : s.phase.job? = some job) :
      Move (.raised now true) (s.recordFailure job)
  | lost {now : Instant} {job : Job ρ ι κ τ} (hjob : s.phase.job? = some job) :
      Move (.raised now false) { s with phase := .idle }

variable {worker s} {s' : St υ χ ρ ι κ τ} {a : Label ρ}

theorem move_of_act (h : act worker s a = some s') : Move worker s a s' := by
  cases a with
  | started now forceFullSync =>
    simp only [act] at h
    split at h
    · rename_i hphase
      split at h
      · cases h
      · rename_i hguard
        cases h
        exact .started hphase fun hdisconnected => hguard (.inl hdisconnected)
    · cases h
  | authenticated now =>
    simp only [act] at h
    split at h
    · rename_i job hphase
      split at h
      · rename_i client hclient
        cases h
        exact .authenticated hphase hclient
      · cases h
    · cases h
  | fetched now remote =>
    simp only [act] at h
    split at h
    · rename_i job client hphase
      split at h
      · cases h
        exact .refused hphase rfl
      · rename_i hvalid
        cases h
        exact .accepted hphase rfl hvalid
    · cases h
  | processed now =>
    simp only [act] at h
    split at h
    · rename_i job client page rawItem rest hphase
      split at h
      · cases h
      · rename_i written documents hprocess
        cases h
        exact .processed hphase hprocess
    · cases h
  | saved now =>
    simp only [act] at h
    split at h
    · rename_i job client page hphase
      split at h
      · rename_i cursor hnext
        cases h
        exact .saved hphase hnext
      · cases h
    · cases h
  | completed now =>
    simp only [act] at h
    split at h
    · rename_i job client page hphase
      split at h
      · cases h
      · rename_i hlast
        cases h
        exact .completed hphase (Bool.eq_false_iff.mpr hlast)
    · cases h
  | raised now recorded =>
    simp only [act] at h
    split at h
    · cases h
    · rename_i job hjob
      cases h
      cases recorded with
      | true => exact .recorded hjob
      | false => exact .lost hjob

/-- Every step is one of the moves, at a time that is not before the last. -/
theorem move_of_step (h : step worker s a = some s') :
    s.clock ≤ a.now ∧ Move worker (s.tick a.now) a s' := by
  unfold step at h
  split at h
  case isFalse => cases h
  case isTrue hclock => exact ⟨hclock, move_of_act h⟩

end Ekip.Ingestion
