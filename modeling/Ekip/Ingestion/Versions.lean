import Ekip.Lib.History
import Ekip.Ingestion.Indexing
import Ekip.Retrieval.Filtering

/-!
# The versions of one item

The contents of one item are fetched one after another. `_process_one_item` compares
the hash of a content with that of the latest version only, while the unique key of
the table ranges over all versions: a content that comes back after a change is an
insert that the table refuses. Without such a return the rows of the item are the
changes of its content, numbered from one.
-/
namespace Ekip.Ingestion.Indexing

open Ekip.Lib Ekip.Lib.History Ekip.Database Ekip.Core Ekip.Retrieval

variable {ε τ ω : Type} {env : Env ε τ ω} {target : Target} {draw : Draw} {raw : RawDocument}
  {db db' : ContentDb ε} {source externalId : String}

/-! ## One call -/

/-- The hash of the cleaned content. -/
def contentHash (processors : Processors) (raw : RawDocument) : String :=
  processors.sha256Hexdigest (processors.cleanContent raw.content)

/-- The limits that the settings put on one item. -/
def WithinLimits (env : Env ε τ ω) (raw : RawDocument) : Prop :=
  raw.content.utf8ByteSize ≤ env.limits.ingestionMaxDocumentBytes ∧
    (env.processors.chunkDocument (env.processors.cleanContent raw.content)
      (classifyContentType raw)).length ≤ env.limits.ingestionMaxChunksPerDocument

instance (env : Env ε τ ω) (raw : RawDocument) : Decidable (WithinLimits env raw) :=
  inferInstanceAs (Decidable (_ ∧ _))

/-- The rows of one item, in the order in which they were inserted. -/
def documentsOf (organizationId : Uuid) (source externalId : String) (db : ContentDb ε) :
    List Database.Document :=
  db.documents.filter fun row =>
    row.organizationId = organizationId ∧ row.source = source ∧ row.externalId = externalId

theorem documentsOf_append {row : Database.Document} (organizationId : Uuid)
    (source externalId : String) (hdocuments : db'.documents = db.documents ++ [row])
    (hkey : row.organizationId = organizationId ∧ row.source = source ∧
      row.externalId = externalId) :
    documentsOf organizationId source externalId db' =
      documentsOf organizationId source externalId db ++ [row] := by
  unfold documentsOf
  rw [hdocuments, List.filter_append]
  simp [hkey]

theorem insertDocument_of_fresh (row : Database.Document)
    (hid : ∀ other ∈ db.documents, other.id ≠ row.id)
    (hproject : ∃ project ∈ db.projects, project.id = row.projectId)
    (hhash : ∀ other ∈ documentsOf row.organizationId row.source row.externalId db,
      other.contentHash ≠ row.contentHash) :
    (insertDocument row).Returns db row { db with documents := db.documents ++ [row] } := by
  have hkey : (db.documents.any fun other => other.id = row.id) = false := by
    simpa using hid
  have hforeign : (db.projects.all fun project => project.id ≠ row.projectId) = false := by
    simpa using hproject
  have hunique : (db.documents.any fun other =>
      other.organizationId = row.organizationId ∧ other.source = row.source ∧
        other.externalId = row.externalId ∧ other.contentHash = row.contentHash) = false := by
    rw [List.any_eq_false]
    intro other hother
    have hne := hhash other
    simp only [documentsOf, List.mem_filter, decide_eq_true_eq] at hne ⊢
    intro hsame
    exact hne ⟨hother, hsame.1, hsame.2.1, hsame.2.2.1⟩ hsame.2.2.2
  simp only [insertDocument, Service.bind_returns, Service.read_returns, Service.raiseIf_returns,
    Service.write_returns, Service.pure_returns]
  exact ⟨_, db, ⟨rfl, rfl⟩, (), db, ⟨hkey, rfl⟩, _, db, ⟨rfl, rfl⟩, (), db, ⟨hforeign, rfl⟩, (), db,
    ⟨hunique, rfl⟩, (), _, rfl, trivial, rfl⟩

theorem insertDocument_unique {row row' : Database.Document}
    (h : (insertDocument row).Returns db row' db') :
    ∀ other ∈ documentsOf row.organizationId row.source row.externalId db,
      other.contentHash ≠ row.contentHash := by
  simp only [insertDocument, Service.bind_returns, Service.read_returns, Service.raiseIf_returns,
    Service.write_returns, Service.pure_returns] at h
  obtain ⟨_, _, ⟨rfl, rfl⟩, _, _, ⟨-, rfl⟩, _, _, ⟨rfl, rfl⟩, _, _, ⟨-, rfl⟩, _, _,
    ⟨hunique, rfl⟩, _, _, -, -, -⟩ := h
  intro other hother hsame
  obtain ⟨hmem, hkey⟩ := List.mem_filter.mp hother
  have hclash := List.any_eq_false.mp hunique other hmem
  simp only [decide_eq_true_eq] at hkey hclash
  exact hclash ⟨hkey.1, hkey.2.1, hkey.2.2, hsame⟩

/-- The row that a changed content is persisted as. -/
def nextRow (env : Env ε τ ω) (target : Target) (draw : Draw) (raw : RawDocument)
    (db : ContentDb ε) : Database.Document :=
  documentRow target draw (processDocument env.processors raw)
    ((getLatestDocument target.organizationId raw.source raw.externalId db.documents).elim 1
      fun row => row.version + 1)

/-- The content is that of the latest version. -/
def Unchanged (env : Env ε τ ω) (target : Target) (raw : RawDocument) (db : ContentDb ε) : Prop :=
  (getLatestDocument target.organizationId raw.source raw.externalId db.documents).map
    Database.Document.contentHash = some (contentHash env.processors raw)

instance (env : Env ε τ ω) (target : Target) (raw : RawDocument) (db : ContentDb ε) :
    Decidable (Unchanged env target raw db) :=
  inferInstanceAs (Decidable (_ = _))

/-- What a call that returns has done. -/
theorem processOneItem_cases {written : Nat}
    (h : (processOneItem env target draw raw).Returns db written db') :
    WithinLimits env raw ∧
      ((Unchanged env target raw db ∧ written = 0 ∧ db' = db) ∨
        (¬ Unchanged env target raw db ∧ written = 1 ∧
          (∀ other ∈ documentsOf target.organizationId raw.source raw.externalId db,
            other.contentHash ≠ contentHash env.processors raw) ∧
          db'.documents = db.documents ++ [nextRow env target draw raw db] ∧
          db'.projects = db.projects)) := by
  simp only [processOneItem, Service.bind_returns, Service.raiseIf_returns,
    Service.read_returns] at h
  obtain ⟨_, _, ⟨hbytes, rfl⟩, _, _, ⟨hchunks, rfl⟩, existing, _, ⟨rfl, rfl⟩, h⟩ := h
  have hlimits : WithinLimits env raw :=
    ⟨Nat.le_of_not_lt (of_decide_eq_false hbytes), Nat.le_of_not_lt (of_decide_eq_false hchunks)⟩
  refine ⟨hlimits, ?_⟩
  rcases Service.ite_returns.mp h with ⟨hsame, hreturn⟩ | ⟨hchanged, hwrite⟩
  · obtain ⟨hwritten, hdb⟩ := Service.pure_returns.mp hreturn
    exact .inl ⟨hsame, hwritten.symm, hdb.symm⟩
  · simp only [insertDocumentMetadata, Service.bind_returns, Service.write_returns,
      Service.pure_returns] at hwrite
    obtain ⟨row, _, hinsert, _, _, rfl, _, _, hupsert, hwritten, rfl⟩ := hwrite
    have hunique := insertDocument_unique hinsert
    obtain ⟨rfl, -, -, rfl⟩ := insertDocument_returns hinsert
    obtain ⟨hframe, -⟩ := upsert_returns env.engine hupsert
    refine .inr ⟨hchanged, hwritten.symm, hunique, ?_, ?_⟩
    · rw [hframe]
      rfl
    · rw [hframe]

/-- The chunks of one call differ in their indices. -/
theorem upsertChunk_keys (target : Target) (draw : Draw) (raw : RawDocument)
    (contentType : ContentType) (pieces : List ChunkPiece) :
    ((pieces.zipIdx.map (upsertChunk target draw raw contentType)).map fun chunk =>
      (chunk.2.documentId, chunk.2.chunkIndex)).Nodup := by
  rw [List.map_map]
  have hindices : ((pieces.zipIdx.map Prod.snd).map fun i : Nat =>
      (draw.documentId, (i : Int))).Nodup := by
    rw [List.zipIdx_map_snd]
    apply List.Nodup.map
    · intro i j hij
      exact Int.ofNat_inj.mp (Prod.ext_iff.mp hij).2
    · exact List.nodup_range'
  rw [List.map_map] at hindices
  exact hindices

/-- When a call returns. -/
theorem processOneItem_answers (hembeds : env.engine.Embeds)
    (hid : ∀ other ∈ db.documents, other.id ≠ draw.documentId)
    (hproject : ∃ project ∈ db.projects, project.id = target.projectId)
    (hlimits : WithinLimits env raw)
    (h : Unchanged env target raw db ∨
      ∀ other ∈ documentsOf target.organizationId raw.source raw.externalId db,
        other.contentHash ≠ contentHash env.processors raw) :
    ∃ written db', (processOneItem env target draw raw).Returns db written db' := by
  have hbytes : decide (env.limits.ingestionMaxDocumentBytes < raw.content.utf8ByteSize) = false :=
    decide_eq_false (Nat.not_lt.mpr hlimits.1)
  have hchunks : decide (env.limits.ingestionMaxChunksPerDocument <
      (processDocument env.processors raw).chunks.length) = false :=
    decide_eq_false (Nat.not_lt.mpr hlimits.2)
  simp only [processOneItem, Service.bind_returns, Service.raiseIf_returns, Service.read_returns,
    Service.ite_returns]
  by_cases hsame : Unchanged env target raw db
  · exact ⟨0, db, (), db, ⟨hbytes, rfl⟩, (), db, ⟨hchunks, rfl⟩, _, db, ⟨rfl, rfl⟩,
      .inl ⟨hsame, Service.pure_returns.mpr ⟨rfl, rfl⟩⟩⟩
  · have hinsert := insertDocument_of_fresh (nextRow env target draw raw db) hid hproject
      (h.resolve_left hsame)
    obtain ⟨db', hupsert⟩ := upsert_answers env.engine hembeds
      (upsertChunk_keys target draw raw (classifyContentType raw)
        (processDocument env.processors raw).chunks)
      { db with
        documents := db.documents ++ [nextRow env target draw raw db]
        documentMetadata := db.documentMetadata ++
          (processDocument env.processors raw).metadataEntries.map fun entry =>
            { documentId := draw.documentId, key := entry.1, value := fitMetadataValue entry.2 } }
    refine ⟨1, db', (), db, ⟨hbytes, rfl⟩, (), db, ⟨hchunks, rfl⟩, _, db, ⟨rfl, rfl⟩,
      .inr ⟨hsame, ?_⟩⟩
    refine ⟨_, _, hinsert, (), _, ?_, (), db', hupsert, Service.pure_returns.mpr ⟨rfl, rfl⟩⟩
    exact Service.write_returns.mpr rfl

/-! ## A sequence of contents -/

/-- A content that was fetched, with the ids that the database draws for its rows. -/
structure Fetch where
  draw : Draw
  raw : RawDocument

/-- The calls one after another; each answers the number of documents it wrote. -/
def processAll (env : Env ε τ ω) (target : Target) : List Fetch → Knowledge.ContentM ε (List Nat)
  | [] => pure []
  | fetch :: rest => do
    let written ← processOneItem env target fetch.draw fetch.raw
    let later ← processAll env target rest
    pure (written :: later)

def hashes (processors : Processors) (fetches : List Fetch) : List String :=
  fetches.map fun fetch => contentHash processors fetch.raw

/-- One for each content that differs from the one before, and zero for the others. -/
def newVersions (latest : Option String) : List String → List Nat
  | [] => []
  | hash :: rest => (if latest = some hash then 0 else 1) :: newVersions (some hash) rest

/-- The rows of the item are the changes of its content, under the versions 1, 2, 3, …,
and the latest of them carries the last content. -/
structure Versioned (organizationId : Uuid) (source externalId : String) (observed : List String)
    (db : ContentDb ε) : Prop where
  hashes : (documentsOf organizationId source externalId db).map Database.Document.contentHash =
    changes observed
  numbered : Numbered Database.Document.version (documentsOf organizationId source externalId db)
  latest : (getLatestDocument organizationId source externalId db.documents).map
    Database.Document.contentHash = observed.getLast?

/-- The fetched contents are those of one item, the ids drawn for its rows are new, and
the project that the connector writes to exists. -/
structure Ready (target : Target) (source externalId : String) (fetches : List Fetch)
    (db : ContentDb ε) : Prop where
  key : ∀ fetch ∈ fetches, fetch.raw.source = source ∧ fetch.raw.externalId = externalId
  drawn : (fetches.map fun fetch => fetch.draw.documentId).Nodup
  fresh : ∀ fetch ∈ fetches, ∀ row ∈ db.documents, row.id ≠ fetch.draw.documentId
  project : ∃ project ∈ db.projects, project.id = target.projectId

/-- The latest version follows from the rows and their numbers. -/
theorem Versioned.of_rows {organizationId : Uuid} {observed : List String}
    (hhashes : (documentsOf organizationId source externalId db).map
      Database.Document.contentHash = changes observed)
    (hnumbered : Numbered Database.Document.version
      (documentsOf organizationId source externalId db)) :
    Versioned organizationId source externalId observed db where
  hashes := hhashes
  numbered := hnumbered
  latest := by
    show ((documentsOf organizationId source externalId db).argmax _).map _ = _
    rw [hnumbered.argmax, ← List.getLast?_map, hhashes, getLast?_changes]

/-- One call on a versioned item keeps it versioned. -/
theorem Versioned.processed {observed : List String} {written : Nat}
    (hv : Versioned target.organizationId raw.source raw.externalId observed db)
    (h : (processOneItem env target draw raw).Returns db written db') :
    Versioned target.organizationId raw.source raw.externalId
        (observed ++ [contentHash env.processors raw]) db' ∧
      written = if observed.getLast? = some (contentHash env.processors raw) then 0 else 1 := by
  have hlatest : Unchanged env target raw db ↔
      observed.getLast? = some (contentHash env.processors raw) := by
    unfold Unchanged
    rw [hv.latest]
  obtain ⟨-, ⟨hsame, rfl, rfl⟩ | ⟨hchanged, rfl, -, hdocuments, -⟩⟩ := processOneItem_cases h
  · have hlast := hlatest.mp hsame
    refine ⟨Versioned.of_rows ?_ hv.numbered, (if_pos hlast).symm⟩
    rw [hv.hashes, changes_concat, if_pos hlast]
  · have hlast := mt hlatest.mpr hchanged
    have hrows := documentsOf_append target.organizationId raw.source raw.externalId hdocuments
      ⟨rfl, rfl, rfl⟩
    refine ⟨Versioned.of_rows ?_ ?_, (if_neg hlast).symm⟩
    · rw [hrows, List.map_append, hv.hashes, changes_concat, if_neg hlast]
      rfl
    · rw [hrows]
      exact hv.numbered.concat hv.numbered.next

/-- A call on a versioned item returns unless its content is too large, or comes back. -/
theorem Versioned.returns_iff {observed : List String}
    (hv : Versioned target.organizationId raw.source raw.externalId observed db)
    (hnodup : (changes observed).Nodup) (hembeds : env.engine.Embeds)
    (hid : ∀ other ∈ db.documents, other.id ≠ draw.documentId)
    (hproject : ∃ project ∈ db.projects, project.id = target.projectId) :
    (∃ written db', (processOneItem env target draw raw).Returns db written db') ↔
      WithinLimits env raw ∧ (changes (observed ++ [contentHash env.processors raw])).Nodup := by
  have hlatest : Unchanged env target raw db ↔
      observed.getLast? = some (contentHash env.processors raw) := by
    unfold Unchanged
    rw [hv.latest]
  have hnew : (∀ other ∈ documentsOf target.organizationId raw.source raw.externalId db,
      other.contentHash ≠ contentHash env.processors raw) ↔
        contentHash env.processors raw ∉ changes observed := by
    rw [← hv.hashes, List.mem_map]
    simp
  rw [nodup_changes_concat hnodup, ← hlatest, ← hnew]
  constructor
  · intro h
    obtain ⟨written, db', hreturns⟩ := h
    obtain ⟨hlimits, ⟨hsame, -, -⟩ | ⟨-, -, hunique, -, -⟩⟩ := processOneItem_cases hreturns
    · exact ⟨hlimits, .inl hsame⟩
    · exact ⟨hlimits, .inr hunique⟩
  · intro h
    exact processOneItem_answers hembeds hid hproject h.1 h.2

/-- What remains to be fetched is ready for the state after a call. -/
theorem Ready.processed {fetch : Fetch} {rest : List Fetch} {written : Nat}
    (hr : Ready target source externalId (fetch :: rest) db)
    (h : (processOneItem env target fetch.draw fetch.raw).Returns db written db') :
    Ready target source externalId rest db' := by
  have hdrawn := List.nodup_cons.mp hr.drawn
  have hold : ∀ later ∈ rest, ∀ row ∈ db.documents, row.id ≠ later.draw.documentId :=
    fun later hlater => hr.fresh later (List.mem_cons_of_mem _ hlater)
  obtain ⟨-, ⟨-, -, rfl⟩ | ⟨-, -, -, hdocuments, hprojects⟩⟩ := processOneItem_cases h
  · exact ⟨fun later hlater => hr.key later (List.mem_cons_of_mem _ hlater), hdrawn.2, hold,
      hr.project⟩
  · refine ⟨fun later hlater => hr.key later (List.mem_cons_of_mem _ hlater), hdrawn.2, ?_, ?_⟩
    · intro later hlater row hrow
      rw [hdocuments] at hrow
      rcases List.mem_append.mp hrow with hbefore | hadded
      · exact hold later hlater row hbefore
      · rw [List.mem_singleton.mp hadded]
        intro heq
        apply hdrawn.1
        exact List.mem_map.mpr ⟨later, hlater, heq.symm⟩
    · rw [hprojects]
      exact hr.project

/-- The rest of a sequence, after the contents that were observed before. -/
theorem processAll_versioned (hembeds : env.engine.Embeds) {fetches : List Fetch}
    (observed : List String) (hr : Ready target source externalId fetches db)
    (hv : Versioned target.organizationId source externalId observed db)
    (hnodup : (changes observed).Nodup) :
    ((∃ written db', (processAll env target fetches).Returns db written db') ↔
      (∀ fetch ∈ fetches, WithinLimits env fetch.raw) ∧
        (changes (observed ++ hashes env.processors fetches)).Nodup) ∧
    ∀ written db', (processAll env target fetches).Returns db written db' →
      written = newVersions observed.getLast? (hashes env.processors fetches) ∧
      Versioned target.organizationId source externalId
        (observed ++ hashes env.processors fetches) db' := by
  induction fetches generalizing db observed with
  | nil =>
    constructor
    · simpa [processAll, hashes] using hnodup
    · intro written db' h
      obtain ⟨rfl, rfl⟩ := Service.pure_returns.mp h
      exact ⟨rfl, by simpa [hashes] using hv⟩
  | cons fetch rest ih =>
    obtain ⟨rfl, rfl⟩ := hr.key fetch List.mem_cons_self
    have hone := hv.returns_iff hnodup hembeds (hr.fresh fetch List.mem_cons_self) hr.project
    have hsplit : observed ++ hashes env.processors (fetch :: rest) =
        (observed ++ [contentHash env.processors fetch.raw]) ++ hashes env.processors rest := by
      simp [hashes]
    rw [hsplit]
    have hlater : ∀ written mid, (processOneItem env target fetch.draw fetch.raw).Returns db
        written mid → _ := fun written mid hfirst =>
      ih (observed ++ [contentHash env.processors fetch.raw]) (hr.processed hfirst)
        (hv.processed hfirst).1 (hone.mp ⟨written, mid, hfirst⟩).2
    constructor
    · constructor
      · intro h
        obtain ⟨written, db', h⟩ := h
        obtain ⟨first, mid, hfirst, h⟩ := Service.bind_returns.mp h
        obtain ⟨later, db'', hrest, -⟩ := Service.bind_returns.mp h
        have hlimit := (hone.mp ⟨first, mid, hfirst⟩).1
        have hall := (hlater first mid hfirst).1.mp ⟨later, db'', hrest⟩
        refine ⟨?_, hall.2⟩
        intro other hother
        rcases List.mem_cons.mp hother with rfl | hother
        · exact hlimit
        · exact hall.1 other hother
      · intro h
        have hprefix := nodup_changes_of_append h.2
        obtain ⟨first, mid, hfirst⟩ := hone.mpr ⟨h.1 fetch List.mem_cons_self, hprefix⟩
        obtain ⟨later, db', hrest⟩ := (hlater first mid hfirst).1.mpr
          ⟨fun other hother => h.1 other (List.mem_cons_of_mem _ hother), h.2⟩
        refine ⟨first :: later, db', Service.bind_returns.mpr ⟨first, mid, hfirst, ?_⟩⟩
        exact Service.bind_returns.mpr ⟨later, db', hrest, Service.pure_returns.mpr ⟨rfl, rfl⟩⟩
    · intro written db' h
      obtain ⟨first, mid, hfirst, h⟩ := Service.bind_returns.mp h
      obtain ⟨later, db'', hrest, h⟩ := Service.bind_returns.mp h
      obtain ⟨rfl, rfl⟩ := Service.pure_returns.mp h
      obtain ⟨hwritten, hversioned⟩ := (hlater first mid hfirst).2 later db'' hrest
      refine ⟨?_, hversioned⟩
      rw [hwritten, (hv.processed hfirst).2, List.getLast?_concat]
      rfl

/-- The calls on the contents of a new item all return, with versions 1, 2, 3, … for its
changes and the last content in the latest version, exactly if each content is within the
limits and no content comes back after a change. -/
theorem versions_iff (env : Env ε τ ω) (target : Target) (source externalId : String)
    (fetches : List Fetch) (db : ContentDb ε) (hembeds : env.engine.Embeds)
    (hready : Ready target source externalId fetches db)
    (hnone : documentsOf target.organizationId source externalId db = []) :
    (∃ written db', (processAll env target fetches).Returns db written db' ∧
      written = newVersions none (hashes env.processors fetches) ∧
      Versioned target.organizationId source externalId (hashes env.processors fetches) db') ↔
    (∀ fetch ∈ fetches, WithinLimits env fetch.raw) ∧
      (changes (hashes env.processors fetches)).Nodup := by
  have hstart : Versioned target.organizationId source externalId [] db := by
    apply Versioned.of_rows
    · rw [hnone]
      rfl
    · rw [hnone]
      exact Numbered.nil
  obtain ⟨hreturns, hleaves⟩ := processAll_versioned hembeds [] hready hstart List.nodup_nil
  rw [List.nil_append] at hreturns hleaves
  rw [← hreturns]
  constructor
  · intro h
    obtain ⟨written, db', h, -⟩ := h
    exact ⟨written, db', h⟩
  · intro h
    obtain ⟨written, db', h⟩ := h
    exact ⟨written, db', h, hleaves written db' h⟩

/-! ## A content that comes back -/

/-- A text is one chunk, and its own hash. -/
def textEnv : Env (Rat × Rat) String Rat where
  engine := planeEngine
  processors :=
    { cleanContent := id
      sha256Hexdigest := id
      chunkDocument := fun content _ => [⟨content, 0, content.length⟩] }
  limits := { ingestionMaxDocumentBytes := 1000, ingestionMaxChunksPerDocument := 10 }

def wiki : Target := { organizationId := 1, projectId := 5 }

def wikiDb : ContentDb (Rat × Rat) :=
  { projects := [{ id := 5, organizationId := 1, name := "Default", isDefault := true }] }

/-- A content of the page `home`. -/
def homePage (documentId : Uuid) (content : String) : Fetch :=
  { draw := { documentId, chunkId := fun i => 100 * documentId + i }
    raw := { source := "confluence", externalId := "home", content } }

theorem planeEngine_embeds : planeEngine.Embeds :=
  fun texts => ⟨texts.map fun _ => (1, 0), rfl, List.length_map _⟩

theorem homePage_ready (contents : List (Uuid × String)) (hdrawn : (contents.map Prod.fst).Nodup) :
    Ready wiki "confluence" "home" (contents.map fun page => homePage page.1 page.2) wikiDb where
  key := by
    intro fetch hfetch
    obtain ⟨page, -, rfl⟩ := List.mem_map.mp hfetch
    exact ⟨rfl, rfl⟩
  drawn := by
    rw [List.map_map]
    exact hdrawn
  fresh fetch hfetch row hrow := by cases hrow
  project := ⟨_, List.mem_singleton_self _, rfl⟩

theorem versions_iff_edited :
    ∃ written db', (processAll textEnv wiki [homePage 1 "A", homePage 2 "B"]).Returns wikiDb written
        db' ∧
      written = newVersions none (hashes textEnv.processors [homePage 1 "A", homePage 2 "B"]) ∧
      Versioned wiki.organizationId "confluence" "home"
        (hashes textEnv.processors [homePage 1 "A", homePage 2 "B"]) db' :=
  (versions_iff textEnv wiki "confluence" "home" [homePage 1 "A", homePage 2 "B"] wikiDb
    planeEngine_embeds (homePage_ready [(1, "A"), (2, "B")] (by decide)) rfl).mpr
      ⟨by decide, by decide⟩

/-- An edit that is taken back: the third call violates the unique key. -/
theorem content_returns :
    Ready wiki "confluence" "home" [homePage 1 "A", homePage 2 "B", homePage 3 "A"] wikiDb ∧
    documentsOf wiki.organizationId "confluence" "home" wikiDb = [] ∧
    (processAll textEnv wiki [homePage 1 "A", homePage 2 "B", homePage 3 "A"]).Raises wikiDb
      (.integrityError "uq_documents_org_source_external_hash") ∧
    ¬ ∃ written db', (processAll textEnv wiki
        [homePage 1 "A", homePage 2 "B", homePage 3 "A"]).Returns wikiDb written db' := by
  have hraises : (processAll textEnv wiki [homePage 1 "A", homePage 2 "B", homePage 3 "A"]).Raises
      wikiDb (.integrityError "uq_documents_org_source_external_hash") := by
    unfold Service.Raises
    decide +kernel
  refine ⟨homePage_ready [(1, "A"), (2, "B"), (3, "A")] (by decide), rfl, hraises, ?_⟩
  intro h
  obtain ⟨written, db', hreturns⟩ := h
  unfold Service.Raises at hraises
  unfold Service.Returns at hreturns
  rw [hreturns] at hraises
  cases hraises

end Ekip.Ingestion.Indexing
