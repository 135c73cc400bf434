import Mathlib.Logic.Function.Basic
import Ekip.Lib.Query
import Ekip.Core.Exceptions
import Ekip.Database.ContentModels

/-!
# `retrieval/schemas.py` and the reads and writes of `retrieval/pgvector/store.py`

Vectors, text queries and scores belong to the database and to the embedding
model: `Engine` collects what the store asks of them. Every query joins a chunk
table to `documents`, filters, and only then orders and limits.
-/
namespace Ekip.Retrieval

open Ekip.Lib Ekip.Database Ekip.Shared Ekip.Core

/-- Vectors in `ε`, text queries in `τ`, floating point scores in `ω`. -/
structure Engine (ε τ ω : Type) where
  embedQuery : String → Except Exn ε
  embedTexts : List String → Except Exn (List ε)
  /-- The negated inner product. -/
  maxInnerProduct : ε → ε → ω
  websearchToTsquery : String → τ
  plaintoTsquery : String → τ
  /-- `content_tsv @@ tsquery`. -/
  tsMatches : String → τ → Bool
  tsRankCd : String → τ → ω
  le : ω → ω → Bool
  neg : ω → ω
  zero : ω
  add : ω → ω → ω
  /-- `1.0 / n`. -/
  reciprocal : Nat → ω

structure SearchFilters where
  organizationId : Uuid
  /-- Unset: no restriction to projects. -/
  projectIds : Option (List Uuid) := none
  permissionCodes : Finset String := ∅
  repository : Option String := none

structure UpsertChunk where
  documentId : Uuid
  organizationId : Uuid
  projectId : Uuid
  collection : CollectionName
  chunkIndex : Int
  content : String
  sourceOffsetStart : Int
  sourceOffsetEnd : Int
  aclPermissionCode : Option String := none
  repoFullName : Option String := none

structure ScoredChunk (ω : Type) where
  chunkId : Uuid
  documentId : Uuid
  collection : CollectionName
  content : String
  score : ω
  sourceOffsetStart : Int
  sourceOffsetEnd : Int
  title : Option String := none
  sourceUrl : Option String := none
  metadata : Dict String String := ∅

/-- `_COLLECTION_MODELS`, the tables that a search of everything goes through. -/
def collectionModels : List CollectionName := [.documentation, .code, .conversations]

/-- `_REPO_SCOPED_COLLECTIONS`. -/
def repoScoped : CollectionName → Bool
  | .code | .documentation => true
  | .conversations | .incidents => false

variable {ε τ ω : Type}

/-! ## The common select -/

/-- The clause is built before the statement is sent, and building it may fail. -/
def repositoryFilterClause (collection : CollectionName) (repository : String) :
    Except Exn (Chunk ε → Bool) :=
  if repoScoped collection then .ok fun chunk => chunk.repoFullName = some repository
  else
    .error (.valueError ("SearchFilters.repository is only supported for the 'code' and " ++
      s!"'documentation' collections, got collection='{collection.value}'."))

def repositoryClause (filters : SearchFilters) (collection : CollectionName) :
    Except Exn (Chunk ε → Bool) :=
  match filters.repository with
  | none => .ok fun _ => true
  | some repository => repositoryFilterClause collection repository

/-- Tenant, access code and projects. -/
def tenantClause (filters : SearchFilters) (chunk : Chunk ε) : Bool :=
  chunk.organizationId = filters.organizationId ∧
    (∀ code ∈ chunk.aclPermissionCode, code ∈ filters.permissionCodes) ∧
    (∀ projectIds ∈ filters.projectIds, chunk.projectId ∈ projectIds)

/-- A row of the join, with the expression it will be ordered by. -/
structure ChunkRow (ω : Type) where
  id : Uuid
  documentId : Uuid
  collection : CollectionName
  content : String
  sourceOffsetStart : Int
  sourceOffsetEnd : Int
  key : ω
  title : Option String
  sourceUrl : Option String

/-- The document that a chunk is joined to is not soft-deleted. -/
def joinDocument (documents : List Document) (collection : CollectionName) (key : Chunk ε → ω)
    (chunk : Chunk ε) : List (ChunkRow ω) :=
  (documents.filter fun document => document.id = chunk.documentId ∧ document.deletedAt = none).map
    fun document =>
      { id := chunk.id
        documentId := chunk.documentId
        collection
        content := chunk.content
        sourceOffsetStart := chunk.sourceOffsetStart
        sourceOffsetEnd := chunk.sourceOffsetEnd
        key := key chunk
        title := document.title
        sourceUrl := document.sourceUrl }

def selectChunks (filters : SearchFilters) (collection : CollectionName) (on : Chunk ε → Bool)
    (key : Chunk ε → ω) (db : ContentDb ε) : Except Exn (List (ChunkRow ω)) := do
  let repository ← repositoryClause filters collection
  pure (((db.chunks collection).filter fun chunk =>
      on chunk && tenantClause filters chunk && repository chunk).flatMap
    (joinDocument db.documents collection key))

def negativeLimit : Exn := .runtimeError "LIMIT must not be negative"

def toScoredChunk (score : ω → ω) (metadata : Dict Uuid (Dict String String)) (row : ChunkRow ω) :
    ScoredChunk ω :=
  { chunkId := row.id
    documentId := row.documentId
    collection := row.collection
    content := row.content
    score := score row.key
    sourceOffsetStart := row.sourceOffsetStart
    sourceOffsetEnd := row.sourceOffsetEnd
    title := row.title
    sourceUrl := row.sourceUrl
    metadata := (metadata.lookup row.documentId).getD ∅ }

/-- `metadata_by_document.setdefault(document_id, {})[key] = value`. -/
def addMetadata (metadataByDocument : Dict Uuid (Dict String String)) (row : DocumentMetadata) :
    Dict Uuid (Dict String String) :=
  metadataByDocument.insert row.documentId
    (((metadataByDocument.lookup row.documentId).getD ∅).insert row.key row.value)

def loadMetadataByDocument (documentIds : List Uuid) (db : ContentDb ε) :
    Dict Uuid (Dict String String) :=
  (db.documentMetadata.filter fun row => row.documentId ∈ documentIds).foldl addMetadata ∅

/-! ## The four queries -/

namespace PgVectorStore

variable (engine : Engine ε τ ω)

/-- Nearest first: the negated inner product ascends. -/
def search (collection : CollectionName) (queryEmbedding : ε) (filters : SearchFilters)
    (topK : Int) (includeMetadata : Bool) (db : ContentDb ε) :
    Except Exn (List (ScoredChunk ω)) := do
  let rows ← selectChunks filters collection (fun _ => true)
    (fun chunk => engine.maxInnerProduct chunk.embedding queryEmbedding) db
  let rows ← Query.limit negativeLimit topK (Query.orderBy engine.le ChunkRow.key rows)
  let documentIds := if includeMetadata then rows.map ChunkRow.documentId else []
  pure (rows.map (toScoredChunk engine.neg (loadMetadataByDocument documentIds db)))

def searchAll (queryEmbedding : ε) (filters : SearchFilters) (topK : Int) (db : ContentDb ε) :
    Except Exn (List (ScoredChunk ω)) := do
  let branches ← collectionModels.mapM fun collection =>
    selectChunks filters collection (fun _ => true)
      (fun chunk => engine.maxInnerProduct chunk.embedding queryEmbedding) db
  let rows ← Query.limit negativeLimit topK
    (Query.orderBy engine.le ChunkRow.key branches.flatten)
  pure (rows.map (toScoredChunk engine.neg ∅))

/-- Best rank first. -/
def lexicalSearchAll (queryText : String) (filters : SearchFilters) (topK : Int)
    (db : ContentDb ε) : Except Exn (List (ScoredChunk ω)) := do
  let tsquery := engine.websearchToTsquery queryText
  let branches ← collectionModels.mapM fun collection =>
    selectChunks filters collection (fun chunk => engine.tsMatches chunk.content tsquery)
      (fun chunk => engine.tsRankCd chunk.content tsquery) db
  let rows ← Query.limit negativeLimit topK
    (Query.orderBy (fun a b => engine.le b a) ChunkRow.key branches.flatten)
  pure (rows.map (toScoredChunk id ∅))

def lexicalSearch (collection : CollectionName) (queryText : String) (filters : SearchFilters)
    (topK : Int) (includeMetadata : Bool) (db : ContentDb ε) :
    Except Exn (List (ScoredChunk ω)) := do
  let tsquery := engine.plaintoTsquery queryText
  let rows ← selectChunks filters collection
    (fun chunk => engine.tsMatches chunk.content tsquery)
    (fun chunk => engine.tsRankCd chunk.content tsquery) db
  let rows ← Query.limit negativeLimit topK
    (Query.orderBy (fun a b => engine.le b a) ChunkRow.key rows)
  let documentIds := if includeMetadata then rows.map ChunkRow.documentId else []
  pure (rows.map (toScoredChunk id (loadMetadataByDocument documentIds db)))

/-! ## Writes -/

/-- The values of one row; `id` is kept by a row that is there already. -/
def chunkValues (collection : CollectionName) (chunk : UpsertChunk) (embedding : ε) (id : Uuid) :
    Chunk ε :=
  { id
    organizationId := chunk.organizationId
    projectId := chunk.projectId
    documentId := chunk.documentId
    chunkIndex := chunk.chunkIndex
    content := chunk.content
    embedding
    sourceOffsetStart := chunk.sourceOffsetStart
    sourceOffsetEnd := chunk.sourceOffsetEnd
    aclPermissionCode := chunk.aclPermissionCode
    repoFullName := if repoScoped collection then chunk.repoFullName else none }

/-- `INSERT … ON CONFLICT (document_id, chunk_index) DO UPDATE`; `id` is drawn for a
row that is new. -/
def upsertRow (collection : CollectionName) (rows : List (Chunk ε))
    (item : Uuid × UpsertChunk × ε) : List (Chunk ε) :=
  let (id, chunk, embedding) := item
  if rows.any fun row => row.documentId = chunk.documentId ∧ row.chunkIndex = chunk.chunkIndex then
    rows.map fun row =>
      if row.documentId = chunk.documentId ∧ row.chunkIndex = chunk.chunkIndex then
        chunkValues collection chunk embedding row.id
      else row
  else rows ++ [chunkValues collection chunk embedding id]

theorem mem_upsertRow {name : CollectionName} {rows : List (Chunk ε)} {id : Uuid}
    {values : UpsertChunk} {embedding : ε} {chunk : Chunk ε}
    (h : chunk ∈ upsertRow name rows (id, values, embedding)) :
    chunk ∈ rows ∨ ∃ id', chunk = chunkValues name values embedding id' := by
  unfold upsertRow at h
  dsimp only at h
  split at h
  · obtain ⟨old, hold, rfl⟩ := List.mem_map.mp h
    split
    · exact .inr ⟨old.id, rfl⟩
    · exact .inl hold
  · rcases List.mem_append.mp h with hold | hnew
    · exact .inl hold
    · exact .inr ⟨id, List.mem_singleton.mp hnew⟩

/-- A row of the table after the statement was there before, or was written by it. -/
theorem mem_foldl_upsertRow {name : CollectionName} {items : List (Uuid × UpsertChunk × ε)}
    {rows : List (Chunk ε)} {chunk : Chunk ε}
    (h : chunk ∈ items.foldl (upsertRow name) rows) :
    chunk ∈ rows ∨ ∃ item ∈ items, ∃ id, chunk = chunkValues name item.2.1 item.2.2 id := by
  induction items generalizing rows with
  | nil => exact .inl h
  | cons item items ih =>
    rw [List.foldl_cons] at h
    rcases ih h with hrows | ⟨other, hother, id, rfl⟩
    · rcases mem_upsertRow hrows with hold | ⟨id, rfl⟩
      · exact .inl hold
      · exact .inr ⟨item, List.mem_cons_self, id, rfl⟩
    · exact .inr ⟨other, List.mem_cons_of_mem _ hother, id, rfl⟩

/-- A row of another document is left alone. -/
theorem upsertRow_keeps {name : CollectionName} {rows : List (Chunk ε)}
    {item : Uuid × UpsertChunk × ε} {chunk : Chunk ε} (hne : item.2.1.documentId ≠ chunk.documentId)
    (h : chunk ∈ rows) : chunk ∈ upsertRow name rows item := by
  unfold upsertRow
  dsimp only
  split
  · refine List.mem_map.mpr ⟨chunk, h, if_neg ?_⟩
    intro hkey
    exact hne hkey.1.symm
  · exact List.mem_append_left _ h

theorem foldl_upsertRow_keeps {name : CollectionName} {items : List (Uuid × UpsertChunk × ε)}
    {rows : List (Chunk ε)} {chunk : Chunk ε}
    (hne : ∀ item ∈ items, item.2.1.documentId ≠ chunk.documentId) (h : chunk ∈ rows) :
    chunk ∈ items.foldl (upsertRow name) rows := by
  induction items generalizing rows with
  | nil => exact h
  | cons item items ih =>
    rw [List.foldl_cons]
    apply ih
    · intro later hlater
      exact hne later (List.mem_cons_of_mem _ hlater)
    · exact upsertRow_keeps (hne item List.mem_cons_self) h

def setChunks (collection : CollectionName) (f : List (Chunk ε) → List (Chunk ε))
    (db : ContentDb ε) : ContentDb ε :=
  { db with chunks := Function.update db.chunks collection (f (db.chunks collection)) }

theorem mem_setChunks {target name : CollectionName} {f : List (Chunk ε) → List (Chunk ε)}
    {db : ContentDb ε} {chunk : Chunk ε} (h : chunk ∈ (setChunks target f db).chunks name) :
    (name = target ∧ chunk ∈ f (db.chunks target)) ∨
      (name ≠ target ∧ chunk ∈ db.chunks name) := by
  by_cases hname : name = target
  · subst hname
    have hself : (setChunks name f db).chunks name = f (db.chunks name) :=
      Function.update_self name _ _
    rw [hself] at h
    exact .inl ⟨rfl, h⟩
  · have hother : (setChunks target f db).chunks name = db.chunks name :=
      Function.update_of_ne hname _ _
    rw [hother] at h
    exact .inr ⟨hname, h⟩

/-- One statement cannot write a row twice. -/
def upsert (collection : CollectionName) (items : List (Uuid × UpsertChunk × ε)) :
    Service Exn (ContentDb ε) Unit := do
  Service.raiseIf
    (¬ (items.map fun item => (item.2.1.documentId, item.2.1.chunkIndex)).Nodup)
    (.runtimeError "ON CONFLICT DO UPDATE command cannot affect row a second time")
  Service.write (setChunks collection fun rows => items.foldl (upsertRow collection) rows)

def delete (collection : CollectionName) (documentId : Uuid) :
    Service Exn (ContentDb ε) Unit :=
  Service.write (setChunks collection fun rows => rows.filter fun row => row.documentId ≠ documentId)

end PgVectorStore

end Ekip.Retrieval
