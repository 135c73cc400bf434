import Ekip.Ingestion.Versions

/-!
# What the searches find of an item that changed

A changed content is a new document with chunks of its own; the chunks of the earlier
versions stay in the index, and no search asks for the version of a document. So the
searches serve current content only as long as no item with chunks in the index changes.
-/
namespace Ekip.Ingestion.Indexing

open Ekip.Lib Ekip.Lib.Query Ekip.Database Ekip.Core Ekip.Retrieval

variable {ε τ ω : Type} {env : Env ε τ ω} {target : Target} {draw : Draw} {raw : RawDocument}
  {db db' : ContentDb ε}

/-! ## Ingesting items -/

/-- An item that a connector hands over. -/
structure Item where
  target : Target
  draw : Draw
  raw : RawDocument

/-- The call in its savepoint. -/
def ingest (env : Env ε τ ω) (db : ContentDb ε) (item : Item) : ContentDb ε :=
  (Service.transaction (processOneItem env item.target item.draw item.raw) db).2

def ingestAll (env : Env ε τ ω) (db : ContentDb ε) (items : List Item) : ContentDb ε :=
  items.foldl (ingest env) db

/-- The rows of the item that a document belongs to. -/
def versionsOf (document : Database.Document) (db : ContentDb ε) : List Database.Document :=
  documentsOf document.organizationId document.source document.externalId db

def Item.documents (item : Item) (db : ContentDb ε) : List Database.Document :=
  documentsOf item.target.organizationId item.raw.source item.raw.externalId db

/-- The document has the highest version of its item. -/
def Current (db : ContentDb ε) (documentId : Uuid) : Prop :=
  ∃ document ∈ db.documents, document.id = documentId ∧
    ∀ other ∈ versionsOf document db, other.version ≤ document.version

instance (db : ContentDb ε) (documentId : Uuid) : Decidable (Current db documentId) :=
  inferInstanceAs (Decidable (∃ _ ∈ _, _ ∧ ∀ _ ∈ _, _))

/-- No search finds a chunk of an earlier version. -/
structure ServesCurrent (engine : Engine ε τ ω) (db : ContentDb ε) : Prop where
  search : ∀ collection queryEmbedding filters topK includeMetadata scored,
    PgVectorStore.search engine collection queryEmbedding filters topK includeMetadata db =
      .ok scored → ∀ c ∈ scored, Current db c.documentId
  lexicalSearch : ∀ collection queryText filters topK includeMetadata scored,
    PgVectorStore.lexicalSearch engine collection queryText filters topK includeMetadata db =
      .ok scored → ∀ c ∈ scored, Current db c.documentId
  searchAll : ∀ queryEmbedding filters topK scored,
    PgVectorStore.searchAll engine queryEmbedding filters topK db = .ok scored →
      ∀ c ∈ scored, Current db c.documentId
  lexicalSearchAll : ∀ queryText filters topK scored,
    PgVectorStore.lexicalSearchAll engine queryText filters topK db = .ok scored →
      ∀ c ∈ scored, Current db c.documentId

/-- The item changes no indexed content: it is over the limits, or one of its versions
has the same content, or the index holds no chunk of it, as when it is new. -/
def Harmless (env : Env ε τ ω) (db : ContentDb ε) (item : Item) : Prop :=
  WithinLimits env item.raw →
    (∃ other ∈ item.documents db, other.contentHash = contentHash env.processors item.raw) ∨
    ∀ collection, ∀ chunk ∈ db.chunks collection, ∀ document ∈ item.documents db,
      chunk.documentId ≠ document.id

/-! ## What the calls keep -/

/-- The rows have the ids that were drawn for them, none is deleted, and each chunk
belongs to one of them. -/
structure Inv (ids : List Uuid) (db : ContentDb ε) : Prop where
  keys : Table.KeyUnique Database.Document.id db.documents
  drawn : ∀ document ∈ db.documents, document.id ∈ ids
  live : ∀ document ∈ db.documents, document.deletedAt = none
  linked : ∀ collection, ∀ chunk ∈ db.chunks collection,
    ∃ document ∈ db.documents, document.id = chunk.documentId

theorem ingest_cases (env : Env ε τ ω) (db : ContentDb ε) (item : Item) :
    (∃ written, (processOneItem env item.target item.draw item.raw).Returns db written
      (ingest env db item)) ∨
    (¬ ∃ written db', (processOneItem env item.target item.draw item.raw).Returns db written db') ∧
      ingest env db item = db := by
  rcases Service.transaction_cases (processOneItem env item.target item.draw item.raw) db with
    ⟨written, db', hreturns, heq⟩ | ⟨e, hraises, heq⟩
  · refine .inl ⟨written, ?_⟩
    unfold ingest
    rw [heq]
    exact hreturns
  · refine .inr ⟨?_, ?_⟩
    · intro h
      obtain ⟨written, db', hreturns⟩ := h
      unfold Service.Raises at hraises
      unfold Service.Returns at hreturns
      rw [hreturns] at hraises
      cases hraises
    · unfold ingest
      rw [heq]

theorem Inv.weaken {ids ids' : List Uuid} (hi : Inv ids db) (h : ids ⊆ ids') : Inv ids' db :=
  { hi with drawn := fun document hdocument => h (hi.drawn document hdocument) }

theorem Inv.ingested {ids : List Uuid} (hi : Inv ids db)
    (h : Ingested env target draw raw db db') : Inv (ids ++ [draw.documentId]) db' := by
  obtain ⟨version, hdocuments⟩ := h.documents
  have hmem : ∀ document ∈ db'.documents, document ∈ db.documents ∨
      document = documentRow target draw (processDocument env.processors raw) version := by
    intro document hdocument
    rw [hdocuments] at hdocument
    simpa using hdocument
  constructor
  · rw [hdocuments]
    exact Table.keyUnique_append hi.keys h.fresh
  · intro document hdocument
    rcases hmem document hdocument with hold | rfl
    · exact List.mem_append_left _ (hi.drawn document hold)
    · exact List.mem_append_right _ (List.mem_singleton_self _)
  · intro document hdocument
    rcases hmem document hdocument with hold | rfl
    · exact hi.live document hold
    · rfl
  · intro collection chunk hchunk
    rw [hdocuments]
    rcases h.chunks collection chunk hchunk with hold | ⟨-, hnew, -⟩
    · obtain ⟨document, hdocument, hid⟩ := hi.linked collection chunk hold
      exact ⟨document, List.mem_append_left _ hdocument, hid⟩
    · exact ⟨_, List.mem_append_right _ (List.mem_singleton_self _), hnew.symm⟩

theorem Inv.ingest {ids : List Uuid} (env : Env ε τ ω) (hi : Inv ids db) (item : Item) :
    Inv (ids ++ [item.draw.documentId]) (ingest env db item) := by
  have hold := hi.weaken (List.subset_append_left ids [item.draw.documentId])
  rcases ingest_cases env db item with ⟨written, hreturns⟩ | ⟨-, heq⟩
  · rcases processOneItem_returns hreturns with heq | hingested
    · rw [heq]
      exact hold
    · exact hi.ingested hingested
  · rw [heq]
    exact hold

theorem ingest_projects (env : Env ε τ ω) (db : ContentDb ε) (item : Item) :
    (ingest env db item).projects = db.projects := by
  rcases ingest_cases env db item with ⟨written, hreturns⟩ | ⟨-, heq⟩
  · rcases processOneItem_returns hreturns with heq | hingested
    · rw [heq]
    · exact hingested.projects
  · rw [heq]

/-! ## What the searches can find -/

/-- A search with room for all rows finds every chunk that its filters admit. -/
theorem search_finds (engine : Engine ε τ ω) (queryEmbedding : ε) {filters : SearchFilters}
    {collection : CollectionName} {chunk : Chunk ε} (hchunk : chunk ∈ db.chunks collection)
    (hadmitted : Retrievable filters db.documents chunk) (hrepository : filters.repository = none) :
    ∃ topK scored, PgVectorStore.search engine collection queryEmbedding filters topK false db =
      .ok scored ∧ ∃ c ∈ scored, c.documentId = chunk.documentId := by
  have hclause : (repositoryClause filters collection : Except Exn (Chunk ε → Bool)) =
      .ok fun _ => true := by
    unfold repositoryClause
    rw [hrepository]
  let key := fun row : Chunk ε => engine.maxInnerProduct row.embedding queryEmbedding
  let rows := ((retrievableChunks filters db collection).filter fun _ => true).flatMap
    (joinDocument db.documents collection key)
  have hselect : selectChunks filters collection (fun _ => true) key db = .ok rows := by
    rw [selectChunks_eq, hclause]
    rfl
  have hrow : ∃ row ∈ rows, row.documentId = chunk.documentId := by
    obtain ⟨document, hdocument, hid, hlive⟩ := hadmitted.2.2.2.2
    have hkept : chunk ∈ (retrievableChunks filters db collection).filter fun _ => true := by
      simp [retrievableChunks, hchunk, hadmitted]
    have hjoin : document ∈ db.documents.filter fun document =>
        document.id = chunk.documentId ∧ document.deletedAt = none := by
      simp [hdocument, hid, hlive]
    exact ⟨_, List.mem_flatMap.mpr ⟨chunk, hkept, List.mem_map_of_mem hjoin⟩, rfl⟩
  obtain ⟨row, hmem, hid⟩ := hrow
  have hpage : limit negativeLimit rows.length (orderBy engine.le ChunkRow.key rows) =
      .ok (orderBy engine.le ChunkRow.key rows) := by
    unfold limit
    rw [if_neg (by omega), Int.toNat_natCast, List.take_of_length_le (by simp [orderBy])]
  refine ⟨rows.length, (orderBy engine.le ChunkRow.key rows).map
    (toScoredChunk engine.neg (loadMetadataByDocument [] db)), ?_, ?_⟩
  · unfold PgVectorStore.search
    exact bind_ok.mpr ⟨rows, hselect, bind_ok.mpr ⟨_, hpage, rfl⟩⟩
  · exact ⟨_, List.mem_map_of_mem (mem_orderBy.mpr hmem), hid⟩

/-- The filters of a caller who may read the chunk. -/
def ownFilters (chunk : Chunk ε) : SearchFilters :=
  { organizationId := chunk.organizationId
    permissionCodes := chunk.aclPermissionCode.elim ∅ fun code => {code} }

theorem retrievable_ownFilters {documents : List Database.Document} {chunk : Chunk ε}
    (hdocument : ∃ document ∈ documents, document.id = chunk.documentId ∧
      document.deletedAt = none) : Retrievable (ownFilters chunk) documents chunk := by
  refine ⟨rfl, ?_, ?_, ?_, hdocument⟩
  · intro code hcode
    have hsome : chunk.aclPermissionCode = some code := hcode
    simp [ownFilters, hsome]
  · intro projectIds hprojects
    cases hprojects
  · intro repository hrepository
    cases hrepository

theorem current_of_shows {filters : SearchFilters} {names : List CollectionName}
    {c : ScoredChunk ω} (h : ∀ collection, ∀ chunk ∈ db.chunks collection,
      Current db chunk.documentId) (hshows : ShowsIn names filters db c) :
    Current db c.documentId := by
  obtain ⟨-, chunk, hchunk, -, -, hid, -⟩ := hshows
  rw [hid]
  exact h _ chunk hchunk

/-- The searches serve current content exactly if the index holds nothing else. -/
theorem servesCurrent_iff {ids : List Uuid} (engine : Engine ε τ ω) (hi : Inv ids db) :
    ServesCurrent engine db ↔
      ∀ collection, ∀ chunk ∈ db.chunks collection, Current db chunk.documentId := by
  constructor
  · intro h collection chunk hchunk
    obtain ⟨document, hdocument, hid⟩ := hi.linked collection chunk hchunk
    obtain ⟨topK, scored, hsearch, c, hc, heq⟩ := search_finds engine chunk.embedding hchunk
      (retrievable_ownFilters ⟨document, hdocument, hid, hi.live document hdocument⟩) rfl
    rw [← heq]
    exact h.search _ _ _ _ _ _ hsearch c hc
  · intro h
    constructor
    · intro collection queryEmbedding filters topK includeMetadata scored hsearch c hc
      exact current_of_shows h (search_shows hsearch c hc)
    · intro collection queryText filters topK includeMetadata scored hsearch c hc
      exact current_of_shows h (lexicalSearch_shows hsearch c hc)
    · intro queryEmbedding filters topK scored hsearch c hc
      exact current_of_shows h (searchAll_shows hsearch c hc)
    · intro queryText filters topK scored hsearch c hc
      exact current_of_shows h (lexicalSearchAll_shows hsearch c hc)

/-! ## One call -/

theorem processOneItem_keeps {written : Nat} {collection : CollectionName} {chunk : Chunk ε}
    (h : (processOneItem env target draw raw).Returns db written db')
    (hchunk : chunk ∈ db.chunks collection) (hne : draw.documentId ≠ chunk.documentId) :
    chunk ∈ db'.chunks collection := by
  simp only [processOneItem, Service.bind_returns, Service.raiseIf_returns,
    Service.read_returns] at h
  obtain ⟨_, _, ⟨-, rfl⟩, _, _, ⟨-, rfl⟩, existing, _, ⟨-, rfl⟩, h⟩ := h
  rcases Service.ite_returns.mp h with ⟨-, hsame⟩ | ⟨-, hwrite⟩
  · obtain ⟨-, rfl⟩ := Service.pure_returns.mp hsame
    exact hchunk
  · simp only [insertDocumentMetadata, Service.bind_returns, Service.write_returns,
      Service.pure_returns] at hwrite
    obtain ⟨row, _, hinsert, _, _, rfl, _, _, hupsert, -, rfl⟩ := hwrite
    obtain ⟨rfl, -, -, rfl⟩ := insertDocument_returns hinsert
    refine upsert_keeps env.engine hupsert ?_ hchunk
    intro item hitem
    obtain ⟨piece, -, rfl⟩ := List.mem_map.mp hitem
    exact hne

theorem documentsOf_version_lt {organizationId : Uuid} {source externalId : String}
    {document : Database.Document} (h : document ∈ documentsOf organizationId source externalId db) :
    document.version < (getLatestDocument organizationId source externalId db.documents).elim 1
      fun row => row.version + 1 := by
  cases hlatest : getLatestDocument organizationId source externalId db.documents with
  | none =>
    have hempty := List.argmax_eq_none.mp hlatest
    unfold documentsOf at h
    rw [hempty] at h
    cases h
  | some latest => exact Nat.lt_succ_of_le (List.le_of_mem_argmax h hlatest)

/-- A new version is the current one, and the earlier versions of its item are no longer. -/
theorem current_inserted {ids : List Uuid} {item : Item} (hi : Inv ids db)
    (hdocuments : db'.documents = db.documents ++
      [nextRow env item.target item.draw item.raw db]) (documentId : Uuid) :
    Current db' documentId ↔ documentId = item.draw.documentId ∨
      Current db documentId ∧ ∀ document ∈ item.documents db, document.id ≠ documentId := by
  let row := nextRow env item.target item.draw item.raw db
  have hmem : ∀ document, document ∈ db'.documents ↔ document ∈ db.documents ∨ document = row := by
    intro document
    rw [hdocuments, List.mem_append, List.mem_singleton]
  have hversions : ∀ document other, other ∈ versionsOf document db' ↔
      other ∈ versionsOf document db ∨ (other = row ∧ document.organizationId = row.organizationId ∧
        document.source = row.source ∧ document.externalId = row.externalId) := by
    intro document other
    unfold versionsOf documentsOf
    rw [hdocuments, List.filter_append, List.mem_append]
    apply or_congr_right
    rw [List.mem_filter, List.mem_singleton, decide_eq_true_eq]
    constructor
    · intro h
      obtain ⟨rfl, h⟩ := h
      exact ⟨rfl, h.1.symm, h.2.1.symm, h.2.2.symm⟩
    · intro h
      obtain ⟨rfl, h⟩ := h
      exact ⟨rfl, h.1.symm, h.2.1.symm, h.2.2.symm⟩
  have hitem : ∀ document ∈ db.documents, (document.organizationId = row.organizationId ∧
      document.source = row.source ∧ document.externalId = row.externalId) ↔
        document ∈ item.documents db := by
    intro document hdocument
    unfold Item.documents documentsOf
    rw [List.mem_filter, decide_eq_true_eq]
    exact ⟨fun h => ⟨hdocument, h⟩, fun h => h.2⟩
  constructor
  · intro h
    obtain ⟨document, hdocument, hid, hmax⟩ := h
    rcases (hmem document).mp hdocument with hold | rfl
    · refine .inr ⟨⟨document, hold, hid, ?_⟩, ?_⟩
      · intro other hother
        exact hmax other ((hversions document other).mpr (.inl hother))
      · intro other hother heq
        have hsame := hi.keys other (List.mem_filter.mp hother).1 document hold (heq.trans hid.symm)
        rw [hsame] at hother
        have hle := hmax row ((hversions document row).mpr
          (.inr ⟨rfl, (hitem document hold).mpr hother⟩))
        exact absurd (documentsOf_version_lt hother) (Nat.not_lt.mpr hle)
    · exact .inl hid.symm
  · intro h
    rcases h with rfl | ⟨⟨document, hdocument, hid, hmax⟩, hother⟩
    · refine ⟨row, (hmem row).mpr (.inr rfl), rfl, ?_⟩
      intro other hversion
      rcases (hversions row other).mp hversion with hold | ⟨rfl, -⟩
      · exact Nat.le_of_lt (documentsOf_version_lt hold)
      · exact Nat.le_refl _
    · refine ⟨document, (hmem document).mpr (.inl hdocument), hid, ?_⟩
      intro other hversion
      rcases (hversions document other).mp hversion with hold | ⟨-, hkey⟩
      · exact hmax other hold
      · exact absurd hid (hother document ((hitem document hdocument).mp hkey))

/-- A call keeps the index current exactly if the item is harmless. -/
theorem ingest_current_iff {ids : List Uuid} (hembeds : env.engine.Embeds) (hi : Inv ids db)
    {item : Item} (hdrawn : item.draw.documentId ∉ ids)
    (hproject : ∃ project ∈ db.projects, project.id = item.target.projectId)
    (hcurrent : ∀ collection, ∀ chunk ∈ db.chunks collection, Current db chunk.documentId) :
    (∀ collection, ∀ chunk ∈ (ingest env db item).chunks collection,
      Current (ingest env db item) chunk.documentId) ↔ Harmless env db item := by
  have hfresh : ∀ other ∈ db.documents, other.id ≠ item.draw.documentId := by
    intro other hother heq
    exact hdrawn (heq ▸ hi.drawn other hother)
  have hchunkId : ∀ collection, ∀ chunk ∈ db.chunks collection,
      item.draw.documentId ≠ chunk.documentId := by
    intro collection chunk hchunk heq
    obtain ⟨document, hdocument, hid⟩ := hi.linked collection chunk hchunk
    exact hfresh document hdocument (hid.trans heq.symm)
  rcases ingest_cases env db item with ⟨written, hreturns⟩ | ⟨hfails, heq⟩
  · obtain ⟨hlimits, ⟨hsame, -, heq⟩ | ⟨-, -, hunique, hdocuments, -⟩⟩ :=
      processOneItem_cases hreturns
    · rw [heq]
      refine iff_of_true hcurrent fun _ => .inl ?_
      obtain ⟨latest, hlatest, hhash⟩ := Option.map_eq_some_iff.mp hsame
      exact ⟨latest, List.argmax_mem hlatest, hhash⟩
    · have hinserted := current_inserted hi hdocuments
      constructor
      · intro h _
        refine .inr ?_
        intro collection chunk hchunk document hdocument heq
        have hkept := processOneItem_keeps hreturns hchunk (hchunkId collection chunk hchunk)
        rcases (hinserted chunk.documentId).mp (h collection chunk hkept) with hnew | ⟨-, hne⟩
        · exact hchunkId collection chunk hchunk hnew.symm
        · exact hne document hdocument heq.symm
      · intro h collection chunk hchunk
        have hunindexed := (h hlimits).resolve_left fun ⟨other, hother, hhash⟩ =>
          hunique other hother hhash
        refine (hinserted chunk.documentId).mpr ?_
        rcases processOneItem_returns hreturns with heq | hingested
        · rw [heq] at hchunk
          exact .inr ⟨hcurrent collection chunk hchunk, fun document hdocument heq =>
            hunindexed collection chunk hchunk document hdocument heq.symm⟩
        · rcases hingested.chunks collection chunk hchunk with hold | ⟨-, hnew, -⟩
          · exact .inr ⟨hcurrent collection chunk hold, fun document hdocument heq =>
              hunindexed collection chunk hold document hdocument heq.symm⟩
          · exact .inl hnew
  · rw [heq]
    refine iff_of_true hcurrent fun hlimits => ?_
    by_contra hharm
    rw [not_or] at hharm
    apply hfails
    apply processOneItem_answers hembeds hfresh hproject hlimits
    refine .inr ?_
    intro other hother hhash
    exact hharm.1 ⟨other, hother, hhash⟩

/-! ## Every sequence of calls -/

theorem ingestAll_succ (env : Env ε τ ω) (db : ContentDb ε) {items : List Item} {n : Nat}
    {item : Item} (hget : items[n]? = some item) :
    ingestAll env db (items.take (n + 1)) = ingest env (ingestAll env db (items.take n)) item := by
  unfold ingestAll
  rw [List.take_add_one, hget, List.foldl_append]
  rfl

theorem ingestAll_projects (env : Env ε τ ω) (db : ContentDb ε) (items : List Item) :
    (ingestAll env db items).projects = db.projects := by
  induction items generalizing db with
  | nil => rfl
  | cons item items ih =>
    show (ingestAll env (ingest env db item) items).projects = db.projects
    rw [ih, ingest_projects]

theorem Inv.ingestAll {ids : List Uuid} (hi : Inv ids db) (items : List Item) :
    Inv (ids ++ items.map fun item => item.draw.documentId) (ingestAll env db items) := by
  induction items generalizing db ids with
  | nil => exact hi.weaken (List.subset_append_left _ _)
  | cons item items ih =>
    have hrest := ih (hi.ingest env item)
    rw [List.append_assoc] at hrest
    exact hrest

theorem ingestAll_inv (env : Env ε τ ω) (items : List Item) (hdocuments : db.documents = [])
    (hchunks : ∀ collection, db.chunks collection = []) (n : Nat) :
    Inv ((items.take n).map fun item => item.draw.documentId)
      (ingestAll env db (items.take n)) := by
  have hstart : Inv [] db := by
    constructor
    · rw [hdocuments]
      exact Table.keyUnique_nil
    · simp [hdocuments]
    · simp [hdocuments]
    · intro collection chunk hchunk
      rw [hchunks] at hchunk
      cases hchunk
  exact hstart.ingestAll _

/-- The id drawn for an item was not drawn for those before it. -/
theorem not_mem_drawn {items : List Item} {n : Nat} {item : Item}
    (hdrawn : (items.map fun item => item.draw.documentId).Nodup) (hget : items[n]? = some item) :
    item.draw.documentId ∉ (items.take n).map fun item => item.draw.documentId := by
  have hprefix : ((items.take (n + 1)).map fun item => item.draw.documentId).Nodup :=
    hdrawn.sublist ((List.take_sublist _ _).map _)
  rw [List.take_add_one, hget, List.map_append] at hprefix
  intro hmem
  exact (List.nodup_append.mp hprefix).2.2 _ hmem _ (List.mem_singleton_self _) rfl

/-- Each search of each state that the calls reach finds current content only, exactly
if each item was harmless when it was ingested. The ids drawn for the documents differ,
and the projects that the connectors write to exist. -/
theorem serves_current_iff (env : Env ε τ ω) (items : List Item) (db : ContentDb ε)
    (hembeds : env.engine.Embeds) (hdocuments : db.documents = [])
    (hchunks : ∀ collection, db.chunks collection = [])
    (hdrawn : (items.map fun item => item.draw.documentId).Nodup)
    (hprojects : ∀ item ∈ items, ∃ project ∈ db.projects, project.id = item.target.projectId) :
    (∀ n, ServesCurrent env.engine (ingestAll env db (items.take n))) ↔
      ∀ n item, items[n]? = some item → Harmless env (ingestAll env db (items.take n)) item := by
  have hprojectOf : ∀ {n item}, items[n]? = some item →
      ∃ project ∈ (ingestAll env db (items.take n)).projects, project.id = item.target.projectId := by
    intro n item hget
    rw [ingestAll_projects]
    exact hprojects item (List.mem_of_getElem? hget)
  have hcurrent := fun n => servesCurrent_iff env.engine (ingestAll_inv env items hdocuments hchunks n)
  constructor
  · intro h n item hget
    have hnow := (hcurrent n).mp (h n)
    have hnext := (hcurrent (n + 1)).mp (h (n + 1))
    rw [ingestAll_succ env db hget] at hnext
    exact (ingest_current_iff hembeds (ingestAll_inv env items hdocuments hchunks n)
      (not_mem_drawn hdrawn hget) (hprojectOf hget) hnow).mp hnext
  · intro h n
    rw [hcurrent]
    induction n with
    | zero =>
      intro collection chunk hchunk
      rw [List.take_zero] at hchunk
      have hnone : chunk ∈ db.chunks collection := hchunk
      rw [hchunks] at hnone
      cases hnone
    | succ n ih =>
      cases hget : items[n]? with
      | none =>
        rw [List.take_add_one, hget, Option.toList_none, List.append_nil]
        exact ih
      | some item =>
        rw [ingestAll_succ env db hget]
        exact (ingest_current_iff hembeds (ingestAll_inv env items hdocuments hchunks n)
          (not_mem_drawn hdrawn hget) (hprojectOf hget) ih).mpr (h n item hget)

/-! ## An edited page -/

def homeItem (documentId : Uuid) (content : String) : Item :=
  { target := wiki, draw := (homePage documentId content).draw, raw := (homePage documentId content).raw }

/-- Another page of the wiki. -/
def aboutItem : Item :=
  { homeItem 2 "B" with raw := { source := "confluence", externalId := "about", content := "B" } }

/-- Two pages, and the first once more as it was. -/
def fetchedAgain : List Item := [homeItem 1 "A", aboutItem, homeItem 3 "A"]

theorem serves_current_iff_new :
    ServesCurrent textEnv.engine (ingestAll textEnv wikiDb fetchedAgain) :=
  (serves_current_iff textEnv fetchedAgain wikiDb planeEngine_embeds rfl (fun _ => rfl)
    (by decide) (by decide +kernel)).mpr (by
      intro n item hget _
      match n with
      | 0 => exact .inr fun collection chunk hchunk => by cases hchunk
      | 1 =>
        obtain rfl := Option.some.inj hget
        have hnone : aboutItem.documents (ingestAll textEnv wikiDb [homeItem 1 "A"]) = [] := by
          decide +kernel
        refine .inr fun collection chunk _ document hdocument => ?_
        rw [show aboutItem.documents (ingestAll textEnv wikiDb (fetchedAgain.take 1)) = [] from hnone]
          at hdocument
        cases hdocument
      | 2 =>
        obtain rfl := Option.some.inj hget
        exact .inl (by decide +kernel)
      | _ + 3 => cases hget) 3

/-- The page as it was before the edit is still found. -/
theorem superseded_found :
    ∃ topK scored, PgVectorStore.search textEnv.engine .documentation (1, 0) { organizationId := 1 }
        topK false (ingestAll textEnv wikiDb [homeItem 1 "A", homeItem 2 "B"]) = .ok scored ∧
      ∃ c ∈ scored,
        ¬ Current (ingestAll textEnv wikiDb [homeItem 1 "A", homeItem 2 "B"]) c.documentId := by
  have hindexed : ∃ chunk ∈ (ingestAll textEnv wikiDb
      [homeItem 1 "A", homeItem 2 "B"]).chunks .documentation, chunk.documentId = 1 ∧
        Retrievable { organizationId := 1 }
          (ingestAll textEnv wikiDb [homeItem 1 "A", homeItem 2 "B"]).documents chunk := by
    decide +kernel
  have hsuperseded :
      ¬ Current (ingestAll textEnv wikiDb [homeItem 1 "A", homeItem 2 "B"]) 1 := by
    decide +kernel
  obtain ⟨chunk, hchunk, hid, hadmitted⟩ := hindexed
  obtain ⟨topK, scored, hsearch, c, hc, heq⟩ :=
    search_finds textEnv.engine (1, 0) hchunk hadmitted rfl
  refine ⟨topK, scored, hsearch, c, hc, ?_⟩
  rw [heq, hid]
  exact hsuperseded

end Ekip.Ingestion.Indexing
