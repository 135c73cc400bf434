import Ekip.Retrieval.Service

/-!
# `core/knowledge/repository.py`

The text of a proposed document is a metadata row under the key `content`.
-/
namespace Ekip.Core.Knowledge

open Ekip.Lib Ekip.Database Ekip.Core

abbrev DocumentRow := Database.Document

/-- An operation on documents and chunks. -/
abbrev ContentM (ε α : Type) := Service Exn (ContentDb ε) α

namespace Repository

variable {ε : Type}

/-- `id` is drawn by the database, `externalId` by `uuid4`. -/
def insertDocument (id organizationId projectId : Uuid) (externalId contentHash title : String) :
    ContentM ε DocumentRow := do
  let documents ← Service.read ContentDb.documents
  Service.raiseIf (documents.any fun row => row.id = id) (.integrityError "documents_pkey")
  let projects ← Service.read ContentDb.projects
  Service.raiseIf (projects.all fun project => project.id ≠ projectId)
    (.integrityError "documents_project_id_fkey")
  let row : DocumentRow :=
    { id
      organizationId
      projectId
      source := "manual"
      externalId
      contentHash
      title := some title
      sourceUrl := none
      status := .proposed
      version := 1 }
  Service.write fun db => { db with documents := db.documents ++ [row] }
  pure row

def insertMetadata (documentId : Uuid) (key value : String) : ContentM ε Unit :=
  Service.write fun db =>
    { db with documentMetadata := db.documentMetadata ++ [{ documentId, key, value }] }

def getDocumentById (db : ContentDb ε) (documentId : Uuid) : Option DocumentRow :=
  Table.get? Database.Document.id db.documents documentId

/-- The values under `key`: the table has no unique constraint. -/
def metadataValues (db : ContentDb ε) (documentId : Uuid) (key : String) : List String :=
  (db.documentMetadata.filter fun row => row.documentId = documentId ∧ row.key = key).map
    DocumentMetadata.value

def scalarOneOrNone {α : Type} : List α → Except Exn (Option α)
  | [] => .ok none
  | [value] => .ok (some value)
  | _ => .error (.runtimeError "Multiple rows were found when one or none was required")

theorem scalarOneOrNone_some {α : Type} {rows : List α} {a : α} :
    scalarOneOrNone rows = .ok (some a) ↔ rows = [a] := by
  rcases rows with _ | ⟨value, _ | ⟨other, rest⟩⟩ <;> simp [scalarOneOrNone]

theorem mem_of_scalarOneOrNone {α : Type} {rows : List α} {a : α}
    (h : scalarOneOrNone rows = .ok (some a)) : a ∈ rows := by
  rw [scalarOneOrNone_some] at h
  simp [h]

def getMetadataValue (documentId : Uuid) (key : String) : ContentM ε (Option String) := do
  let values ← Service.read fun db => metadataValues db documentId key
  Service.ofExcept (scalarOneOrNone values)

/-- Change columns of one row and return it as it then stands. -/
def updateDocument (documentId : Uuid) (f : DocumentRow → DocumentRow) :
    ContentM ε (Option DocumentRow) := do
  let row ← Service.read fun db => getDocumentById db documentId
  Service.write fun db =>
    { db with documents := Table.updateWhere db.documents (fun row => row.id = documentId) f }
  pure (row.map f)

def updateDocumentStatus (documentId : Uuid) (status : DocumentStatus) :
    ContentM ε (Option DocumentRow) :=
  updateDocument documentId fun row => { row with status }

def updateDocumentTitle (documentId : Uuid) (title : Option String) :
    ContentM ε (Option DocumentRow) :=
  updateDocument documentId fun row => { row with title, version := row.version + 1 }

def bumpDocumentVersion (documentId : Uuid) : ContentM ε (Option DocumentRow) :=
  updateDocument documentId fun row => { row with version := row.version + 1 }

def softDeleteDocument (documentId : Uuid) (deletedAt : Instant) :
    ContentM ε (Option DocumentRow) :=
  updateDocument documentId fun row => { row with deletedAt := some deletedAt }

/-- The column is not nullable. -/
def upsertMetadata (documentId : Uuid) (key : String) (value : Option String) :
    ContentM ε Unit := do
  let existing ← getMetadataValue documentId key
  let value ← Service.orRaise value (.integrityError "document_metadata.value")
  match existing with
  | some _ =>
    Service.write fun db =>
      { db with
        documentMetadata := Table.updateWhere db.documentMetadata
          (fun row => row.documentId = documentId ∧ row.key = key)
          (fun row => { row with value }) }
  | none => insertMetadata documentId key value

/-! ## What the writes leave alone -/

variable {db db' : ContentDb ε}

theorem updateDocument_returns {documentId : Uuid} {f : DocumentRow → DocumentRow}
    {updated : Option DocumentRow} (h : (updateDocument documentId f).Returns db updated db') :
    updated = (getDocumentById db documentId).map f ∧
      db' = { db with
        documents := Table.updateWhere db.documents (fun row => row.id = documentId) f } := by
  simp only [updateDocument, Service.bind_returns, Service.read_returns, Service.write_returns,
    Service.pure_returns] at h
  obtain ⟨_, _, ⟨rfl, rfl⟩, _, _, rfl, rfl, rfl⟩ := h
  exact ⟨rfl, rfl⟩

theorem getMetadataValue_returns {documentId : Uuid} {key : String} {value : Option String} :
    (getMetadataValue documentId key).Returns db value db' ↔
      scalarOneOrNone (metadataValues db documentId key) = .ok value ∧ db = db' := by
  simp only [getMetadataValue, Service.bind_returns, Service.read_returns,
    Service.ofExcept_returns]
  constructor
  · intro h
    obtain ⟨_, _, ⟨rfl, rfl⟩, hvalue, rfl⟩ := h
    exact ⟨hvalue, rfl⟩
  · intro h
    obtain ⟨hvalue, rfl⟩ := h
    exact ⟨_, _, ⟨rfl, rfl⟩, hvalue, rfl⟩

/-- Writing metadata changes that table only. -/
theorem upsertMetadata_returns {documentId : Uuid} {key : String} {value : Option String} {u : Unit}
    (h : (upsertMetadata documentId key value).Returns db u db') :
    db' = { db with documentMetadata := db'.documentMetadata } := by
  simp only [upsertMetadata, Service.bind_returns, getMetadataValue_returns,
    Service.orRaise_returns] at h
  obtain ⟨existing, _, ⟨-, rfl⟩, text, _, ⟨-, rfl⟩, h⟩ := h
  cases existing with
  | some old | none =>
    have hwrite := Service.write_returns.mp h
    rw [← hwrite]

end Repository

end Ekip.Core.Knowledge
