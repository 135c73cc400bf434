import Mathlib.Data.List.MinMax
import Ekip.Core.Knowledge.Repository
import Ekip.Ingestion.Service

/-!
# `_process_one_item` on the whole database

`Ekip.Ingestion.Service` follows the documents of one connector; here an item is
also cut into chunks, which go to the index under the organization and the project
of the sync. Cleaning, hashing and the cutting of a text are parameters.
-/
namespace Ekip.Ingestion.Indexing

open Ekip.Lib Ekip.Database Ekip.Core Ekip.Retrieval

/-! ## Document processing: `ingestion/processors/` -/

inductive ContentType
  | document
  | code
  | chat
  | incident

def codeExtensions : List String :=
  [".py", ".js", ".jsx", ".ts", ".tsx", ".go", ".java", ".rb", ".rs", ".c", ".h", ".cpp", ".hpp",
    ".cs", ".php", ".swift", ".kt", ".scala", ".sql"]

def chatSources : List String := ["slack", "teams"]

def incidentSources : List String := ["incidents"]

/-- The first of the three that is not empty. -/
def classifiedPath (raw : RawDocument) : String :=
  (((raw.metadata.lookup "path").filter (· ≠ "")).or (raw.title.filter (· ≠ ""))).getD
    raw.externalId

def classifyContentType (raw : RawDocument) : ContentType :=
  if raw.source ∈ chatSources then .chat
  else if raw.source ∈ incidentSources then .incident
  else if codeExtensions.any fun extension => (classifiedPath raw).endsWith extension then .code
  else .document

/-- `_CONTENT_TYPE_TO_COLLECTION`. -/
def ContentType.collection : ContentType → CollectionName
  | document => .documentation
  | code => .code
  | chat => .conversations
  | incident => .incidents

/-- A chunk of a document; its index is its position. -/
structure ChunkPiece where
  content : String
  sourceOffsetStart : Int
  sourceOffsetEnd : Int

structure Processors where
  cleanContent : String → String
  sha256Hexdigest : String → String
  chunkDocument : String → ContentType → List ChunkPiece

structure Limits where
  ingestionMaxDocumentBytes : Nat
  ingestionMaxChunksPerDocument : Nat

/-- The entries of the metadata, by their keys. -/
def extractMetadata (raw : RawDocument) : List (String × String) :=
  (raw.metadata.entries.map fun entry => (entry.1, entry.2)).insertionSort fun a b => a.1 ≤ b.1

structure ProcessedDocument extends Ingestion.ProcessedDocument where
  contentType : ContentType
  metadataEntries : List (String × String)
  chunks : List ChunkPiece

def processDocument (processors : Processors) (raw : RawDocument) : ProcessedDocument :=
  let cleaned := processors.cleanContent raw.content
  let contentType := classifyContentType raw
  { source := raw.source
    externalId := raw.externalId
    contentHash := processors.sha256Hexdigest cleaned
    title := raw.title
    sourceUrl := raw.sourceUrl
    contentType
    metadataEntries := extractMetadata raw
    chunks := processors.chunkDocument cleaned contentType }

/-! ## Rows: `ingestion/repository.py` -/

def maxMetadataValueBytes : Nat := 2000

def metadataTruncationMarker : String := "…[truncated]"

/-- The longest prefix of whole characters within the number of bytes. -/
def fitBytes : Nat → List Char → List Char
  | _, [] => []
  | limit, c :: cs => if c.utf8Size ≤ limit then c :: fitBytes (limit - c.utf8Size) cs else []

def fitMetadataValue (value : String) : String :=
  if value.utf8ByteSize ≤ maxMetadataValueBytes then value
  else
    String.ofList
        (fitBytes (maxMetadataValueBytes - metadataTruncationMarker.utf8ByteSize) value.toList) ++
      metadataTruncationMarker

variable {ε τ ω : Type}

def getLatestDocument (organizationId : Uuid) (source externalId : String)
    (documents : List Database.Document) : Option Database.Document :=
  (documents.filter fun row =>
    row.organizationId = organizationId ∧ row.source = source ∧ row.externalId = externalId).argmax
    Database.Document.version

/-- The constraints of the table. -/
def insertDocument (row : Database.Document) : Knowledge.ContentM ε Database.Document := do
  let documents ← Service.read ContentDb.documents
  Service.raiseIf (documents.any fun other => other.id = row.id) (.integrityError "documents_pkey")
  let projects ← Service.read ContentDb.projects
  Service.raiseIf (projects.all fun project => project.id ≠ row.projectId)
    (.integrityError "documents_project_id_fkey")
  Service.raiseIf
    (documents.any fun other =>
      other.organizationId = row.organizationId ∧ other.source = row.source ∧
        other.externalId = row.externalId ∧ other.contentHash = row.contentHash)
    (.integrityError "uq_documents_org_source_external_hash")
  Service.write fun db => { db with documents := db.documents ++ [row] }
  pure row

def insertDocumentMetadata (documentId : Uuid) (entries : List (String × String)) :
    Knowledge.ContentM ε Unit :=
  Service.write fun db =>
    { db with
      documentMetadata := db.documentMetadata ++ entries.map fun entry =>
        { documentId, key := entry.1, value := fitMetadataValue entry.2 } }

/-! ## One item -/

/-- Where a sync writes: the organization of the connector, and its project or the
default project. -/
structure Target where
  organizationId : Uuid
  projectId : Uuid

/-- The ids that the database draws for the rows of one item. -/
structure Draw where
  documentId : Uuid
  chunkId : Nat → Uuid

structure Env (ε τ ω : Type) where
  engine : Engine ε τ ω
  processors : Processors
  limits : Limits

def documentLimitText : String := "Normalized document exceeded ingestion_max_document_bytes."

def chunkLimitText : String := "Document exceeded ingestion_max_chunks_per_document."

/-- What ingestion writes is published at once, and under no access code. -/
def documentRow (target : Target) (draw : Draw) (processed : ProcessedDocument) (version : Nat) :
    Database.Document :=
  { id := draw.documentId
    organizationId := target.organizationId
    projectId := target.projectId
    source := processed.source
    externalId := processed.externalId
    contentHash := processed.contentHash
    title := processed.title
    sourceUrl := processed.sourceUrl
    status := .published
    version }

def upsertChunk (target : Target) (draw : Draw) (raw : RawDocument) (contentType : ContentType)
    (piece : ChunkPiece × Nat) : Uuid × UpsertChunk :=
  (draw.chunkId piece.2,
    { documentId := draw.documentId
      organizationId := target.organizationId
      projectId := target.projectId
      collection := contentType.collection
      chunkIndex := piece.2
      content := piece.1.content
      sourceOffsetStart := piece.1.sourceOffsetStart
      sourceOffsetEnd := piece.1.sourceOffsetEnd
      aclPermissionCode := none
      repoFullName := raw.metadata.lookup "repo" })

variable (env : Env ε τ ω)

/-- The number of documents that were written. -/
def processOneItem (target : Target) (draw : Draw) (raw : RawDocument) :
    Knowledge.ContentM ε Nat := do
  Service.raiseIf (env.limits.ingestionMaxDocumentBytes < raw.content.utf8ByteSize)
    (.runtimeError documentLimitText)
  let processed := processDocument env.processors raw
  Service.raiseIf (env.limits.ingestionMaxChunksPerDocument < processed.chunks.length)
    (.runtimeError chunkLimitText)
  let existing ← Service.read fun db =>
    getLatestDocument target.organizationId processed.source processed.externalId db.documents
  if existing.map Database.Document.contentHash = some processed.contentHash then pure 0
  else do
    let nextVersion := existing.elim 1 fun row => row.version + 1
    let row ← insertDocument (documentRow target draw processed nextVersion)
    insertDocumentMetadata row.id processed.metadataEntries
    upsert env.engine
      (processed.chunks.zipIdx.map (upsertChunk target draw raw processed.contentType))
    pure 1

/-! ## What an item leaves -/

variable {env} {target : Target} {draw : Draw} {raw : RawDocument} {db db' : ContentDb ε}

theorem insertDocument_returns {row row' : Database.Document}
    (h : (insertDocument row).Returns db row' db') :
    row' = row ∧ (∀ other ∈ db.documents, other.id ≠ row.id) ∧
      (∃ project ∈ db.projects, project.id = row.projectId) ∧
      db' = { db with documents := db.documents ++ [row] } := by
  simp only [insertDocument, Service.bind_returns, Service.read_returns, Service.raiseIf_returns,
    Service.write_returns, Service.pure_returns] at h
  obtain ⟨_, _, ⟨rfl, rfl⟩, _, _, ⟨hfresh, rfl⟩, _, _, ⟨rfl, rfl⟩, _, _, ⟨hproject, rfl⟩, _, _,
    ⟨-, rfl⟩, _, _, rfl, rfl, rfl⟩ := h
  refine ⟨rfl, ?_, ?_, rfl⟩
  · intro other hother
    simpa using List.any_eq_false.mp hfresh other hother
  · simpa using hproject

/-- A new version: one document under a new id, its metadata and its chunks, all in
the target. -/
structure Ingested (env : Env ε τ ω) (target : Target) (draw : Draw) (raw : RawDocument)
    (db db' : ContentDb ε) : Prop where
  fresh : ∀ other ∈ db.documents, other.id ≠ draw.documentId
  project : ∃ project ∈ db.projects, project.id = target.projectId
  projects : db'.projects = db.projects
  documents : ∃ version, db'.documents =
    db.documents ++ [documentRow target draw (processDocument env.processors raw) version]
  metadata : ∃ entries, db'.documentMetadata = db.documentMetadata ++ entries ∧
    ∀ entry ∈ entries, entry.documentId = draw.documentId
  chunks : ∀ name, ∀ chunk ∈ db'.chunks name, chunk ∈ db.chunks name ∨
    name = (classifyContentType raw).collection ∧ chunk.documentId = draw.documentId ∧
      chunk.organizationId = target.organizationId ∧ chunk.projectId = target.projectId

theorem processOneItem_returns {written : Nat}
    (h : (processOneItem env target draw raw).Returns db written db') :
    db' = db ∨ Ingested env target draw raw db db' := by
  simp only [processOneItem, Service.bind_returns, Service.raiseIf_returns,
    Service.read_returns] at h
  obtain ⟨_, _, ⟨-, rfl⟩, _, _, ⟨-, rfl⟩, existing, _, ⟨-, rfl⟩, h⟩ := h
  rcases Service.ite_returns.mp h with ⟨-, hsame⟩ | ⟨-, hwrite⟩
  · obtain ⟨-, rfl⟩ := Service.pure_returns.mp hsame
    exact .inl rfl
  · simp only [insertDocumentMetadata, Service.bind_returns, Service.write_returns,
      Service.pure_returns] at hwrite
    obtain ⟨row, _, hinsert, _, _, rfl, _, _, hupsert, -, rfl⟩ := hwrite
    obtain ⟨rfl, hfresh, hproject, rfl⟩ := insertDocument_returns hinsert
    obtain ⟨hframe, hchunks⟩ := upsert_returns env.engine hupsert
    refine .inr ⟨hfresh, hproject, ?_, ?_, ?_, ?_⟩
    · rw [hframe]
    · refine ⟨existing.elim 1 fun row => row.version + 1, ?_⟩
      rw [hframe]
    · refine ⟨_, by rw [hframe], ?_⟩
      intro entry hentry
      obtain ⟨pair, -, rfl⟩ := List.mem_map.mp hentry
      rfl
    · intro name chunk hchunk
      rcases hchunks name chunk hchunk with hold | ⟨item, hitem, rfl, embedding, id, rfl⟩
      · exact .inl hold
      · obtain ⟨piece, -, rfl⟩ := List.mem_map.mp hitem
        exact .inr ⟨rfl, rfl, rfl, rfl⟩

end Ekip.Ingestion.Indexing
