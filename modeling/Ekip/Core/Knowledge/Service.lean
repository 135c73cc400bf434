import Ekip.Core.Users.Service
import Ekip.Core.Knowledge.Repository

/-!
# `core/knowledge/service.py`: proposals and their review

A proposal is published, edited or rejected by a reviewer of its project. What
the hooks of the graph and of the findings write in their own tables is left
out; how they end is an input of the rejection.
-/
namespace Ekip.Core.Knowledge

open Ekip.Lib Ekip.Database Ekip.Shared Ekip.Core Ekip.Retrieval

def reviewPermission : String := "knowledge:review"
def contentMetadataKey : String := "content"
def sourceIncidentMetadataKey : String := "source_incident_id"

structure DocumentProposalCreate where
  title : String
  content : String
  sourceIncidentId : Option Uuid := none
  projectId : Option Uuid := none

/-- A field that the request leaves out is unset; one that it names may be `null`. -/
structure DocumentUpdate where
  title : Option (Option String) := none
  content : Option (Option String) := none

structure Document where
  id : Uuid
  organizationId : Uuid
  projectId : Uuid
  title : Option String
  status : DocumentStatus
  version : Nat
  content : Option String
  source : String
  sourceUrl : Option String
  sourceIncidentId : Option Uuid

/-- The embedding model and the hash. -/
structure Env (ε τ ω : Type) where
  engine : Engine ε τ ω
  sha256Hexdigest : String → String

/-- What one request draws. -/
structure Draw where
  documentId : Uuid
  externalId : String
  chunkId : Uuid

variable {ε τ ω : Type} (env : Env ε τ ω) (draw : Draw)

def ensureSameOrganization (actor : Identity) (organizationId : Uuid) : ContentM ε Unit :=
  Service.raiseIf (actor.organizationId ≠ organizationId)
    (permissionDenied "Cannot access another organization's data."
      "knowledge.cross_organization_denied" [("organization_id", toString organizationId)])

def requireProjectPermission (actor : Identity) (projectId : Uuid) (permissionCode : String) :
    ContentM ε Unit :=
  Service.raiseIf (!Users.authorize actor permissionCode (some projectId))
    (permissionDenied "You do not have permission to perform this action." "permission_denied"
      [("required_permission", permissionCode)])

/-- A soft-deleted document reads as not found. -/
def getOwnedDocument (organizationId documentId : Uuid) : ContentM ε DocumentRow := do
  let row ← Service.read fun db => Repository.getDocumentById db documentId
  Service.orRaise
    (row.filter fun row => row.organizationId = organizationId ∧ row.deletedAt = none)
    (notFound "Document not found." "document.not_found" [("document_id", toString documentId)])

/-- `uuid.UUID(raw) if raw else None`. -/
def parseSourceIncident : Option String → Except Exn (Option Uuid)
  | none => .ok none
  | some "" => .ok none
  | some raw =>
    match raw.toNat? with
    | some id => .ok (some id)
    | none => .error (.valueError "badly formed hexadecimal UUID string")

def toSchema (row : DocumentRow) : ContentM ε Document := do
  let content ← Repository.getMetadataValue row.id contentMetadataKey
  let raw ← Repository.getMetadataValue row.id sourceIncidentMetadataKey
  let sourceIncidentId ← Service.ofExcept (parseSourceIncident raw)
  pure
    { id := row.id
      organizationId := row.organizationId
      projectId := row.projectId
      title := row.title
      status := row.status
      version := row.version
      content
      source := row.source
      sourceUrl := row.sourceUrl
      sourceIncidentId }

/-- `tenancy_service.get_default_project`. -/
def getDefaultProject (organizationId : Uuid) : ContentM ε Project := do
  let projects ← Service.read fun db =>
    db.projects.filter fun project => project.organizationId = organizationId ∧ project.isDefault
  let project ← Service.ofExcept (Repository.scalarOneOrNone projects)
  Service.orRaise project
    (notFound "This organization has no default project." "project.default_missing"
      [("organization_id", toString organizationId)])

def proposalProject (organizationId : Uuid) : Option Uuid → ContentM ε Uuid
  | some projectId => pure projectId
  | none => do
    let project ← getDefaultProject organizationId
    pure project.id

def noteSourceIncident (documentId : Uuid) : Option Uuid → ContentM ε Unit
  | some incidentId =>
    Repository.insertMetadata documentId sourceIncidentMetadataKey (toString incidentId)
  | none => pure ()

def proposeDocument (actor : Identity) (organizationId : Uuid) (data : DocumentProposalCreate) :
    ContentM ε Document := do
  ensureSameOrganization actor organizationId
  let projectId ← proposalProject organizationId data.projectId
  let row ← Repository.insertDocument draw.documentId organizationId projectId draw.externalId
    (env.sha256Hexdigest data.content) data.title
  Repository.insertMetadata row.id contentMetadataKey data.content
  noteSourceIncident row.id data.sourceIncidentId
  toSchema row

/-- What the three review operations check before they write. -/
def requireProposed (actor : Identity) (organizationId documentId : Uuid) (message : String) :
    ContentM ε DocumentRow := do
  ensureSameOrganization actor organizationId
  let row ← getOwnedDocument organizationId documentId
  requireProjectPermission actor row.projectId reviewPermission
  Service.raiseIf (row.status ≠ .proposed)
    (conflict message "document.not_proposed" [("status", row.status.value)])
  pure row

def disappeared : Exn := .runtimeError "Document disappeared mid-update."

/-- The whole text is one chunk. -/
def contentChunk (organizationId : Uuid) (row : DocumentRow) (text : String) : UpsertChunk :=
  { documentId := row.id
    organizationId
    projectId := row.projectId
    collection := .documentation
    chunkIndex := 0
    content := text
    sourceOffsetStart := 0
    sourceOffsetEnd := text.length }

/-- An empty text is not indexed. -/
def indexContent (organizationId : Uuid) (row : DocumentRow) (content : Option String) :
    ContentM ε Unit :=
  match content.filter (· ≠ "") with
  | none => pure ()
  | some text => upsert env.engine [(draw.chunkId, contentChunk organizationId row text)]

def publishDocument (actor : Identity) (organizationId documentId : Uuid) :
    ContentM ε Document := do
  let row ← requireProposed actor organizationId documentId
    "Only a pending proposal can be published."
  let content ← Repository.getMetadataValue row.id contentMetadataKey
  let updated ← Repository.updateDocumentStatus documentId .published
  let updated ← Service.orRaise updated disappeared
  indexContent env draw organizationId row content
  toSchema updated

/-- A new title and an edited text both count as a new version. -/
def writeTitle (documentId : Uuid) : Option (Option String) → ContentM ε (Option DocumentRow)
  | some title => Repository.updateDocumentTitle documentId title
  | none => Repository.bumpDocumentVersion documentId

def writeContent (documentId : Uuid) : Option (Option String) → ContentM ε Unit
  | some content => Repository.upsertMetadata documentId contentMetadataKey content
  | none => pure ()

def updateDocument (actor : Identity) (organizationId documentId : Uuid) (data : DocumentUpdate) :
    ContentM ε Document := do
  let row ← requireProposed actor organizationId documentId
    "Only a pending proposal can be edited."
  if data.title = none ∧ data.content = none then toSchema row
  else do
    let updated ← writeTitle documentId data.title
    let updated ← Service.orRaise updated disappeared
    writeContent documentId data.content
    toSchema updated

def purgeDocumentChunks (documentId : Uuid) : ContentM ε Unit :=
  forM [CollectionName.documentation, .code, .conversations] fun collection =>
    delete collection documentId

def rejectDocument (now : Instant) (cleanup : Except Exn Unit) (actor : Identity)
    (organizationId documentId : Uuid) : ContentM ε Document := do
  let _ ← requireProposed actor organizationId documentId
    "Only a pending proposal can be rejected."
  let updated ← Repository.softDeleteDocument documentId now
  let updated ← Service.orRaise updated disappeared
  purgeDocumentChunks documentId
  Service.ofExcept cleanup
  toSchema updated

/-! ## What the operations return -/

variable {env draw} {db db' : ContentDb ε} {actor : Identity} {organizationId documentId : Uuid}
  {out : Document}

theorem getOwnedDocument_returns {row : DocumentRow} :
    (getOwnedDocument organizationId documentId).Returns db row db' ↔
      Repository.getDocumentById db documentId = some row ∧ row.organizationId = organizationId ∧
        row.deletedAt = none ∧ db = db' := by
  simp only [getOwnedDocument, Service.bind_returns, Service.read_returns,
    Service.orRaise_returns, Option.filter_eq_some_iff, decide_eq_true_eq]
  constructor
  · intro h
    obtain ⟨_, _, ⟨rfl, rfl⟩, ⟨hrow, horg, hlive⟩, rfl⟩ := h
    exact ⟨hrow, horg, hlive, rfl⟩
  · intro h
    obtain ⟨hrow, horg, hlive, rfl⟩ := h
    exact ⟨_, _, ⟨rfl, rfl⟩, ⟨hrow, horg, hlive⟩, rfl⟩

/-- The document as the response shows it is the row, with its text from the metadata. -/
theorem toSchema_returns {row : DocumentRow} (h : (toSchema row).Returns db out db') :
    db' = db ∧ Repository.scalarOneOrNone
      (Repository.metadataValues db row.id contentMetadataKey) = .ok out.content := by
  simp only [toSchema, Service.bind_returns, Repository.getMetadataValue_returns,
    Service.ofExcept_returns, Service.pure_returns] at h
  obtain ⟨content, _, ⟨hcontent, rfl⟩, raw, _, ⟨-, rfl⟩, incident, _, ⟨-, rfl⟩, rfl, rfl⟩ := h
  exact ⟨rfl, hcontent⟩

/-- A review operation that gets past its checks is by a reviewer of the project
of a proposal of the actor's organization. -/
structure Reviewed (db : ContentDb ε) (actor : Identity) (organizationId documentId : Uuid)
    (row : DocumentRow) : Prop where
  found : Repository.getDocumentById db documentId = some row
  organization : row.organizationId = organizationId
  live : row.deletedAt = none
  proposed : row.status = .proposed
  sameOrganization : actor.organizationId = organizationId
  permitted : actor.hasPermission reviewPermission (some row.projectId) = true

theorem requireProposed_returns {message : String} {row : DocumentRow} :
    (requireProposed actor organizationId documentId message).Returns db row db' ↔
      Reviewed db actor organizationId documentId row ∧ db = db' := by
  simp only [requireProposed, ensureSameOrganization, requireProjectPermission,
    Service.bind_returns, Service.raiseIf_returns, getOwnedDocument_returns,
    Service.pure_returns, decide_eq_false_iff_not, not_not, Bool.not_eq_eq_eq_not, Bool.not_false,
    Users.authorize]
  constructor
  · intro h
    obtain ⟨_, _, ⟨hactor, rfl⟩, found, _, ⟨hfound, horg, hlive, rfl⟩, _, _, ⟨hpermitted, rfl⟩, _,
      _, ⟨hproposed, rfl⟩, rfl, rfl⟩ := h
    exact ⟨⟨hfound, horg, hlive, hproposed, hactor, hpermitted⟩, rfl⟩
  · intro h
    obtain ⟨hreviewed, rfl⟩ := h
    exact ⟨(), _, ⟨hreviewed.sameOrganization, rfl⟩, row, _, ⟨hreviewed.found, hreviewed.organization,
      hreviewed.live, rfl⟩, (), _, ⟨hreviewed.permitted, rfl⟩, (), _, ⟨hreviewed.proposed, rfl⟩,
      rfl, rfl⟩

/-- The row that a proposal adds. -/
def proposalRow (env : Env ε τ ω) (draw : Draw) (organizationId projectId : Uuid)
    (data : DocumentProposalCreate) : DocumentRow :=
  { id := draw.documentId
    organizationId
    projectId
    source := "manual"
    externalId := draw.externalId
    contentHash := env.sha256Hexdigest data.content
    title := some data.title
    sourceUrl := none
    status := .proposed
    version := 1 }

theorem getDefaultProject_returns {project : Project}
    (h : (getDefaultProject organizationId).Returns db project db') :
    db' = db ∧ project ∈ db.projects ∧ project.organizationId = organizationId := by
  simp only [getDefaultProject, Service.bind_returns, Service.read_returns,
    Service.ofExcept_returns, Service.orRaise_returns] at h
  obtain ⟨_, _, ⟨rfl, rfl⟩, found, _, ⟨hfound, rfl⟩, rfl, rfl⟩ := h
  have hkept := List.mem_filter.mp (Repository.mem_of_scalarOneOrNone hfound)
  have horg : project.organizationId = organizationId ∧ project.isDefault = true := by
    simpa using hkept.2
  exact ⟨rfl, hkept.1, horg.1⟩

/-- The project that a request comes to: the one that it names, or else one of the
organization. -/
def Chosen (projects : List Project) (organizationId : Uuid) (named : Option Uuid)
    (projectId : Uuid) : Prop :=
  named = some projectId ∨ named = none ∧
    ∃ project ∈ projects, project.id = projectId ∧ project.organizationId = organizationId

theorem proposalProject_returns {named : Option Uuid} {projectId : Uuid}
    (h : (proposalProject organizationId named).Returns db projectId db') :
    db' = db ∧ Chosen db.projects organizationId named projectId := by
  cases named with
  | some id =>
    obtain ⟨rfl, rfl⟩ := Service.pure_returns.mp h
    exact ⟨rfl, .inl rfl⟩
  | none =>
    simp only [proposalProject, Service.bind_returns, Service.pure_returns] at h
    obtain ⟨project, _, hdefault, rfl, rfl⟩ := h
    obtain ⟨rfl, hproject, horg⟩ := getDefaultProject_returns hdefault
    exact ⟨rfl, .inr ⟨rfl, project, hproject, rfl, horg⟩⟩

theorem noteSourceIncident_returns {incidentId : Option Uuid} {u : Unit}
    (h : (noteSourceIncident documentId incidentId).Returns db u db') :
    db' = { db with documentMetadata := db'.documentMetadata } := by
  cases incidentId with
  | some id =>
    have hwrite := Service.write_returns.mp h
    rw [← hwrite]
  | none =>
    obtain ⟨-, rfl⟩ := Service.pure_returns.mp h
    rfl

theorem proposeDocument_returns {data : DocumentProposalCreate}
    (h : (proposeDocument env draw actor organizationId data).Returns db out db') :
    ∃ projectId, Chosen db.projects organizationId data.projectId projectId ∧
      (∃ project ∈ db.projects, project.id = projectId) ∧
      (∀ row ∈ db.documents, row.id ≠ draw.documentId) ∧
      db' = { db with
        documents := db.documents ++ [proposalRow env draw organizationId projectId data]
        documentMetadata := db'.documentMetadata } := by
  simp only [proposeDocument, ensureSameOrganization, Repository.insertDocument,
    Repository.insertMetadata, Service.bind_returns, Service.raiseIf_returns,
    Service.read_returns, Service.write_returns, Service.pure_returns] at h
  obtain ⟨_, _, ⟨-, rfl⟩, projectId, _, hproject, _, _, ⟨_, _, ⟨rfl, rfl⟩, _, _, ⟨hfresh, rfl⟩, _, _,
    ⟨rfl, rfl⟩, _, _, ⟨hexists, rfl⟩, _, _, rfl, rfl, rfl⟩, _, _, rfl, _, _, hnote, hschema⟩ := h
  obtain ⟨rfl, hchosen⟩ := proposalProject_returns hproject
  have hnoted := noteSourceIncident_returns hnote
  obtain ⟨rfl, -⟩ := toSchema_returns hschema
  refine ⟨projectId, hchosen, by simpa using hexists, ?_, ?_⟩
  · intro row hrow
    simpa using List.any_eq_false.mp hfresh row hrow
  · rw [hnoted]
    rfl

theorem noteSourceIncident_keeps {incidentId : Option Uuid} {u : Unit}
    (h : (noteSourceIncident documentId incidentId).Returns db u db') :
    ∀ row ∈ db.documentMetadata, row ∈ db'.documentMetadata := by
  intro row hrow
  cases incidentId with
  | some id =>
    have hwrite := Service.write_returns.mp h
    rw [← hwrite]
    exact List.mem_append_left _ hrow
  | none =>
    obtain ⟨-, rfl⟩ := Service.pure_returns.mp h
    exact hrow

/-- A proposal adds metadata, and changes none. -/
theorem proposeDocument_keeps {data : DocumentProposalCreate}
    (h : (proposeDocument env draw actor organizationId data).Returns db out db') :
    ∀ row ∈ db.documentMetadata, row ∈ db'.documentMetadata := by
  simp only [proposeDocument, ensureSameOrganization, Repository.insertDocument,
    Repository.insertMetadata, Service.bind_returns, Service.raiseIf_returns,
    Service.read_returns, Service.write_returns, Service.pure_returns] at h
  obtain ⟨_, _, ⟨-, rfl⟩, projectId, _, hproject, _, _, ⟨_, _, ⟨rfl, rfl⟩, _, _, ⟨-, rfl⟩, _, _,
    ⟨rfl, rfl⟩, _, _, ⟨-, rfl⟩, _, _, rfl, rfl, rfl⟩, _, _, rfl, _, _, hnote, hschema⟩ := h
  obtain ⟨rfl, -⟩ := proposalProject_returns hproject
  obtain ⟨rfl, -⟩ := toSchema_returns hschema
  intro row hrow
  exact noteSourceIncident_keeps hnote row (List.mem_append_left _ hrow)

/-- `db'` is `db` with the text in the index, unless there is none. -/
def Indexes (organizationId : Uuid) (row : DocumentRow) (content : Option String)
    (db db' : ContentDb ε) : Prop :=
  (content.filter (· ≠ "") = none ∧ db' = db) ∨
    ∃ text id embedding, content = some text ∧
      db' = PgVectorStore.setChunks .documentation (fun rows =>
        PgVectorStore.upsertRow .documentation rows
          (id, contentChunk organizationId row text, embedding)) db

theorem indexContent_returns {row : DocumentRow} {content : Option String} {u : Unit}
    (h : (indexContent env draw organizationId row content).Returns db u db') :
    Indexes organizationId row content db db' := by
  unfold indexContent at h
  cases hcontent : content.filter (· ≠ "") with
  | none =>
    rw [hcontent] at h
    obtain ⟨-, rfl⟩ := Service.pure_returns.mp h
    exact .inl ⟨hcontent, rfl⟩
  | some text =>
    rw [hcontent] at h
    obtain ⟨embedding, hdb⟩ := upsert_returns_one env.engine h
    exact .inr ⟨text, draw.chunkId, embedding, (Option.filter_eq_some_iff.mp hcontent).1, hdb⟩

/-- The update of the one row. -/
def withDocument (documentId : Uuid) (f : DocumentRow → DocumentRow) (db : ContentDb ε) :
    ContentDb ε :=
  { db with documents := Table.updateWhere db.documents (fun row => row.id = documentId) f }

/-- Publishing changes the status of the proposal and indexes the text that it shows. -/
theorem publishDocument_returns
    (h : (publishDocument env draw actor organizationId documentId).Returns db out db') :
    ∃ row, Reviewed db actor organizationId documentId row ∧
      Repository.scalarOneOrNone (Repository.metadataValues db documentId contentMetadataKey) =
        .ok out.content ∧
      Indexes organizationId row out.content
        (withDocument documentId (fun row => { row with status := .published }) db) db' := by
  simp only [publishDocument, Repository.updateDocumentStatus, Service.bind_returns,
    requireProposed_returns, Repository.getMetadataValue_returns, Service.orRaise_returns] at h
  obtain ⟨row, _, ⟨hreviewed, rfl⟩, content, _, ⟨hcontent, rfl⟩, updated, _, hupdate, row', _,
    ⟨hsome, rfl⟩, _, _, hindex, hschema⟩ := h
  have hid : row.id = documentId := (Table.get?_some hreviewed.found).2
  obtain ⟨hrow, rfl⟩ := Repository.updateDocument_returns hupdate
  rw [hreviewed.found, Option.map_some] at hrow
  obtain rfl : { row with status := .published } = row' := Option.some.inj (hrow.symm.trans hsome)
  obtain ⟨rfl, hshown⟩ := toSchema_returns hschema
  have hindexed := indexContent_returns hindex
  have hsame : db'.documentMetadata = db.documentMetadata := by
    rcases hindexed with ⟨-, rfl⟩ | ⟨_, _, _, -, rfl⟩ <;> rfl
  have hmetadata : Repository.metadataValues db' documentId contentMetadataKey =
      Repository.metadataValues db documentId contentMetadataKey := by
    unfold Repository.metadataValues
    rw [hsame]
  have heq : content = out.content := by
    rw [hid] at hcontent
    have hshown' : Repository.scalarOneOrNone
        (Repository.metadataValues db' documentId contentMetadataKey) = .ok out.content := by
      rw [← hid]
      exact hshown
    rw [hmetadata, hcontent] at hshown'
    exact Except.ok.inj hshown'
  rw [hid, heq] at hcontent
  rw [heq] at hindexed
  exact ⟨row, hreviewed, hcontent, hindexed⟩

/-- `f` changes no column but the title and the version. -/
def Retitles (f : DocumentRow → DocumentRow) : Prop :=
  ∀ row, f row = { row with title := (f row).title, version := (f row).version }

theorem writeTitle_returns {title : Option (Option String)} {updated : Option DocumentRow}
    (h : (writeTitle documentId title).Returns db updated db') :
    ∃ f, Retitles f ∧ db' = withDocument documentId f db := by
  cases title with
  | none | some title =>
    obtain ⟨-, hdb⟩ := Repository.updateDocument_returns h
    exact ⟨_, fun row => rfl, hdb⟩

theorem writeContent_returns {content : Option (Option String)} {u : Unit}
    (h : (writeContent documentId content).Returns db u db') :
    db' = { db with documentMetadata := db'.documentMetadata } := by
  cases content with
  | none =>
    obtain ⟨-, rfl⟩ := Service.pure_returns.mp h
    rfl
  | some value => exact Repository.upsertMetadata_returns h

/-- Editing touches the title and the version of the row, and the metadata. -/
theorem updateDocument_returns {data : DocumentUpdate}
    (h : (updateDocument actor organizationId documentId data).Returns db out db') :
    ∃ row, Reviewed db actor organizationId documentId row ∧ ∃ f, Retitles f ∧
      db' = { withDocument documentId f db with documentMetadata := db'.documentMetadata } := by
  simp only [updateDocument, Service.bind_returns, requireProposed_returns] at h
  obtain ⟨row, _, ⟨hreviewed, rfl⟩, h⟩ := h
  refine ⟨row, hreviewed, ?_⟩
  rcases Service.ite_returns.mp h with ⟨-, hschema⟩ | ⟨-, hwrite⟩
  · obtain ⟨rfl, -⟩ := toSchema_returns hschema
    refine ⟨id, fun row => rfl, ?_⟩
    have hsame : Table.updateWhere db'.documents (fun row => row.id = documentId) id =
        db'.documents := by
      simp [Table.updateWhere]
    unfold withDocument
    rw [hsame]
  · simp only [Service.bind_returns, Service.orRaise_returns] at hwrite
    obtain ⟨updated, _, htitle, row', _, ⟨-, rfl⟩, _, _, hcontent, hschema⟩ := hwrite
    obtain ⟨rfl, -⟩ := toSchema_returns hschema
    obtain ⟨f, hf, rfl⟩ := writeTitle_returns htitle
    exact ⟨f, hf, writeContent_returns hcontent⟩

theorem purgeDocumentChunks_returns {u : Unit}
    (h : (purgeDocumentChunks documentId).Returns db u db') :
    ∃ chunks, db' = { db with chunks } ∧
      ∀ name, ∀ chunk ∈ chunks name, chunk ∈ db.chunks name := by
  simp only [purgeDocumentChunks, delete, PgVectorStore.delete, List.forM_cons, List.forM_nil,
    Service.bind_returns, Service.write_returns, Service.pure_returns] at h
  obtain ⟨_, _, rfl, _, _, rfl, _, _, rfl, -, rfl⟩ := h
  refine ⟨_, rfl, ?_⟩
  intro name chunk hchunk
  cases name <;> simp_all [PgVectorStore.setChunks, Function.update]

/-- Rejecting deletes the proposal softly, and only removes from the index. -/
theorem rejectDocument_returns {now : Instant} {cleanup : Except Exn Unit}
    (h : (rejectDocument now cleanup actor organizationId documentId).Returns db out db') :
    ∃ row, Reviewed db actor organizationId documentId row ∧ ∃ chunks,
      db' = { withDocument documentId (fun row => { row with deletedAt := some now }) db with
        chunks } ∧
      ∀ name, ∀ chunk ∈ chunks name, chunk ∈ db.chunks name := by
  simp only [rejectDocument, Repository.softDeleteDocument, Service.bind_returns,
    requireProposed_returns, Service.orRaise_returns, Service.ofExcept_returns] at h
  obtain ⟨row, _, ⟨hreviewed, rfl⟩, updated, _, hupdate, row', _, ⟨-, rfl⟩, _, _, hpurge, _, _,
    ⟨-, rfl⟩, hschema⟩ := h
  obtain ⟨-, rfl⟩ := Repository.updateDocument_returns hupdate
  obtain ⟨chunks, hdb, hsub⟩ := purgeDocumentChunks_returns hpurge
  obtain ⟨rfl, -⟩ := toSchema_returns hschema
  exact ⟨row, hreviewed, chunks, hdb, hsub⟩

end Ekip.Core.Knowledge
