import Mathlib.Data.List.MinMax
import Ekip.Ingestion.Connectors.Base
import Ekip.Core.Tenancy.Connectors

/-!
# Documents and the parts of a sync: `ingestion/repository.py` and `ingestion/service.py`
-/
namespace Ekip.Ingestion

open Ekip.Core

/-!
## Documents: `ingestion/repository.py`

The documents of one organization and one source. Each content of an item that
was persisted is a row of its own, and the row with the highest version is the
current one. A unique constraint spans the item and the hash of the content.
-/

structure Document where
  externalId : String
  contentHash : String
  title : Option String := none
  sourceUrl : Option String := none
  version : Nat

variable {documents : List Document} {externalId : String}

def getLatestDocument (documents : List Document) (externalId : String) : Option Document :=
  (documents.filter fun row => row.externalId = externalId).argmax Document.version

def insertDocument (documents : List Document) (row : Document) : Except Exn (List Document) :=
  if documents.any fun other =>
      other.externalId = row.externalId ∧ other.contentHash = row.contentHash then
    .error (.integrityError "uq_documents_org_source_external_hash")
  else .ok (documents ++ [row])

theorem getLatestDocument_mem {row : Document} (h : getLatestDocument documents externalId = some row) :
    row ∈ documents ∧ row.externalId = externalId := by
  simpa using List.argmax_mem h

theorem getLatestDocument_le {row : Document} (h : getLatestDocument documents externalId = some row)
    {other : Document} (hother : other ∈ documents) (hid : other.externalId = externalId) :
    other.version ≤ row.version :=
  List.le_of_mem_argmax (by simp [hother, hid]) h

theorem insertDocument_ok {row : Document} {documents' : List Document}
    (h : insertDocument documents row = .ok documents') : documents' = documents ++ [row] := by
  unfold insertDocument at h
  split at h
  · cases h
  · cases h
    rfl

/-- The version that follows the current one is new. -/
theorem version_lt_next {other : Document} (hother : other ∈ documents)
    (hid : other.externalId = externalId) :
    other.version < (getLatestDocument documents externalId).elim 1 fun row => row.version + 1 := by
  cases hlatest : getLatestDocument documents externalId with
  | none =>
    have hempty := List.argmax_eq_none.mp hlatest
    have hmem : other ∈ documents.filter fun row => row.externalId = externalId := by
      simp [hother, hid]
    rw [hempty] at hmem
    cases hmem
  | some latest => exact Nat.lt_succ_of_le (getLatestDocument_le hlatest hother hid)

/-- A row of a new highest version is the current one. -/
theorem getLatestDocument_append {row : Document} (hid : row.externalId = externalId)
    (hversion : ∀ other ∈ documents, other.externalId = externalId → other.version < row.version) :
    getLatestDocument (documents ++ [row]) externalId = some row := by
  have hrow : [row].filter (fun other => other.externalId = externalId) = [row] := by
    simp [hid]
  unfold getLatestDocument
  rw [List.filter_append, hrow, List.argmax_concat]
  cases hlatest : (documents.filter fun row => row.externalId = externalId).argmax
      Document.version with
  | none => rfl
  | some latest =>
    obtain ⟨hmem, hlatestId⟩ := getLatestDocument_mem hlatest
    exact if_pos (hversion latest hmem hlatestId)

/-- Rows of other items do not matter. -/
theorem getLatestDocument_append_ne {row : Document} (hid : row.externalId ≠ externalId) :
    getLatestDocument (documents ++ [row]) externalId = getLatestDocument documents externalId := by
  have hrow : [row].filter (fun other => other.externalId = externalId) = [] := by
    simp [hid]
  unfold getLatestDocument
  rw [List.filter_append, hrow, List.append_nil]

end Ekip.Ingestion

/-!
## The parts of a sync: `ingestion/service.py`

The durable page checkpoint, the contract that every page must meet, and what is
done with one item. Cleaning, hashing and chunking are functions of the raw
document; a worker is given what they come to.
-/
namespace Ekip.Ingestion

open Ekip.Lib Ekip.Database Ekip.Core Ekip.Core.Tenancy

variable {υ χ ρ ι κ τ : Type}

structure Settings where
  ingestionCheckpointTtl : Instant
  ingestionMaxPagesPerAttempt : Nat
  ingestionMaxItemsPerPage : Nat

/-! ## The checkpoint -/

structure Checkpoint (υ κ τ : Type) where
  version : Nat
  source : String
  forceFullSync : Bool
  since : Option Instant
  cursor : κ
  resumeToken : Option τ
  configFingerprint : String × υ
  updatedAt : Instant

abbrev IngestionConfig (υ κ τ : Type) := Config υ τ (Checkpoint υ κ τ)

abbrev IngestionRow (υ κ τ : Type) := ConnectorConfig υ τ (Checkpoint υ κ τ)

def checkpointVersion : Nat := 1

/-- 300 seconds. -/
def checkpointSkew : Instant := 300000000

/-- What is hashed stands for its hash. -/
def connectorConfigFingerprint (source : String) (config : IngestionConfig υ κ τ) : String × υ :=
  (source, config.operator)

def loadIngestionCheckpoint [DecidableEq υ] (blank : κ → Bool) (source : String)
    (config : IngestionConfig υ κ τ) (forceFullSync : Bool) (now ttl : Instant) :
    Option (Option Instant × κ × Option τ) :=
  config.ingestionCheckpoint.bind fun raw =>
    if now + checkpointSkew < raw.updatedAt ∨ raw.updatedAt + ttl < now then none
    else if raw.version ≠ checkpointVersion then none
    else if raw.source ≠ source ∨ raw.forceFullSync ≠ forceFullSync then none
    else if raw.configFingerprint ≠ connectorConfigFingerprint source config then none
    else if blank raw.cursor then none
    else some (raw.since, raw.cursor, raw.resumeToken)

def buildIngestionCheckpoint (source : String) (config : IngestionConfig υ κ τ)
    (forceFullSync : Bool) (since : Option Instant) (cursor : κ) (resumeToken : Option τ)
    (now : Instant) : Checkpoint υ κ τ where
  version := checkpointVersion
  source := source
  forceFullSync := forceFullSync
  since := since
  cursor := cursor
  resumeToken := resumeToken
  configFingerprint := connectorConfigFingerprint source config
  updatedAt := now

/-- What loads is what the stored envelope says. -/
theorem loadIngestionCheckpoint_some [DecidableEq υ] {blank : κ → Bool} {source : String}
    {config : IngestionConfig υ κ τ} {forceFullSync : Bool} {now ttl : Instant}
    {since : Option Instant} {cursor : κ} {resumeToken : Option τ}
    (h : loadIngestionCheckpoint blank source config forceFullSync now ttl =
      some (since, cursor, resumeToken)) :
    ∃ raw, config.ingestionCheckpoint = some raw ∧ raw.forceFullSync = forceFullSync ∧
      raw.since = since ∧ raw.cursor = cursor ∧ raw.resumeToken = resumeToken := by
  obtain ⟨raw, hraw, h⟩ := Option.bind_eq_some_iff.mp h
  simp only [Option.ite_none_left_eq_some, Option.some.injEq, Prod.mk.injEq, not_or,
    not_not] at h
  obtain ⟨-, -, ⟨-, hforce⟩, -, -, hsince, hcursor, htoken⟩ := h
  exact ⟨raw, hraw, hforce, hsince, hcursor, htoken⟩

/-! ## One page -/

def pageLimitText : String := "Connector exceeded ingestion_max_pages_per_attempt."

def itemLimitText : String := "Connector page exceeded ingestion_max_items_per_page."

/-- `IngestionSafetyLimitError` is a `RuntimeError`. -/
def validateFetchResult [DecidableEq κ] (settings : Settings) (blank : κ → Bool) (source : String)
    (fetchResult : FetchResult ι κ τ) (pageNumber : Nat) (seenCursors : List κ) :
    Except Exn Unit :=
  if settings.ingestionMaxPagesPerAttempt < pageNumber then
    .error (.runtimeError pageLimitText)
  else if settings.ingestionMaxItemsPerPage < fetchResult.items.length then
    .error (.runtimeError itemLimitText)
  else if fetchResult.hasMore = false then .ok ()
  else
    match fetchResult.nextCursor with
    | none =>
      .error (.runtimeError
        ("Connector '" ++ source ++ "' returned has_more=True without a next_cursor."))
    | some cursor =>
      if blank cursor then
        .error (.runtimeError
          ("Connector '" ++ source ++ "' returned has_more=True without a next_cursor."))
      else if cursor ∈ seenCursors then
        .error (.runtimeError ("Connector '" ++ source ++ "' repeated a pagination cursor."))
      else .ok ()

/-! ## One item -/

/-- The configuration of the worker around one connector. -/
structure Worker (υ χ ρ ι κ τ : Type) where
  settings : Settings
  /-- The hash of the cleaned content; an error where the document exceeds one of
  the limits on its size. -/
  contentHash : RawDocument → Except Exn String
  connector : Connector υ χ ρ ι κ τ

/-- `process_document`. -/
def processDocument (worker : Worker υ χ ρ ι κ τ) (raw : RawDocument) :
    Except Exn ProcessedDocument := do
  let contentHash ← worker.contentHash raw
  return { source := raw.source, externalId := raw.externalId, contentHash
           title := raw.title, sourceUrl := raw.sourceUrl }

/-- The number of documents that were written, and the table afterwards. -/
def processOneItem (worker : Worker υ χ ρ ι κ τ) (documents : List Document) (rawItem : ι) :
    Except Exn (Nat × List Document) := do
  let processed ← processDocument worker (worker.connector.normalize rawItem)
  let existing := getLatestDocument documents processed.externalId
  if existing.map Document.contentHash = some processed.contentHash then
    return (0, documents)
  else
    let nextVersion := existing.elim 1 fun row => row.version + 1
    let documents ← insertDocument documents
      { externalId := processed.externalId, contentHash := processed.contentHash
        title := processed.title, sourceUrl := processed.sourceUrl, version := nextVersion }
    return (1, documents)

theorem processDocument_ok {worker : Worker υ χ ρ ι κ τ} {raw : RawDocument}
    {processed : ProcessedDocument} (h : processDocument worker raw = .ok processed) :
    worker.contentHash raw = .ok processed.contentHash ∧ processed.externalId = raw.externalId := by
  unfold processDocument at h
  cases hhash : worker.contentHash raw with
  | error error =>
    rw [hhash] at h
    cases h
  | ok contentHash =>
    rw [hhash] at h
    cases h
    exact ⟨rfl, rfl⟩

/-- The current document of the item that `raw` was made of has its content. -/
def Current (worker : Worker υ χ ρ ι κ τ) (documents : List Document) (raw : RawDocument) : Prop :=
  ∃ contentHash, worker.contentHash raw = .ok contentHash ∧
    (getLatestDocument documents raw.externalId).map Document.contentHash = some contentHash

/-- An item that is processed is current; the current rows of other documents
are what they were. -/
theorem processOneItem_ok {worker : Worker υ χ ρ ι κ τ} {documents documents' : List Document}
    {rawItem : ι} {written : Nat}
    (h : processOneItem worker documents rawItem = .ok (written, documents')) :
    Current worker documents' (worker.connector.normalize rawItem) ∧
      ∀ externalId ≠ (worker.connector.normalize rawItem).externalId,
        getLatestDocument documents' externalId = getLatestDocument documents externalId := by
  unfold processOneItem at h
  cases hprocessed : processDocument worker (worker.connector.normalize rawItem) with
  | error error =>
    rw [hprocessed] at h
    cases h
  | ok processed =>
    obtain ⟨hhash, hid⟩ := processDocument_ok hprocessed
    rw [hprocessed] at h
    simp only [bind, Except.bind, pure, Except.pure] at h
    unfold Current
    rw [← hid]
    split at h
    case isTrue hunchanged =>
      cases h
      exact ⟨⟨_, hhash, hunchanged⟩, fun _ _ => rfl⟩
    case isFalse =>
      split at h
      · cases h
      · rename_i inserted hinsert
        cases h
        obtain rfl := insertDocument_ok hinsert
        refine ⟨⟨_, hhash, ?_⟩, fun externalId hne => getLatestDocument_append_ne hne.symm⟩
        rw [getLatestDocument_append rfl fun other => version_lt_next]
        rfl

end Ekip.Ingestion
