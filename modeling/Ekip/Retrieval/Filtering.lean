import Ekip.Retrieval.Service

/-!
# Retrieval filters before it ranks

Each of the four queries selects the chunks that the filters admit before it
orders and limits them. So what a search returns was admitted, and chunks that
were not admitted have no influence on what is returned, in which order and
with which scores.
-/
namespace Ekip.Retrieval

open Ekip.Lib Ekip.Lib.Query Ekip.Database Ekip.Shared Ekip.Core

variable {ε τ ω : Type} {filters : SearchFilters}

/-- The conditions under which a search may return a chunk. -/
def Retrievable (filters : SearchFilters) (documents : List Document) (chunk : Chunk ε) : Prop :=
  chunk.organizationId = filters.organizationId ∧
    (∀ code ∈ chunk.aclPermissionCode, code ∈ filters.permissionCodes) ∧
    (∀ projectIds ∈ filters.projectIds, chunk.projectId ∈ projectIds) ∧
    (∀ repository ∈ filters.repository, chunk.repoFullName = some repository) ∧
    ∃ document ∈ documents, document.id = chunk.documentId ∧ document.deletedAt = none

instance (filters : SearchFilters) (documents : List Document) (chunk : Chunk ε) :
    Decidable (Retrievable filters documents chunk) :=
  inferInstanceAs (Decidable (_ ∧ (∀ _ ∈ _, _) ∧ (∀ _ ∈ _, _) ∧ (∀ _ ∈ _, _) ∧ ∃ _ ∈ _, _ ∧ _))

def retrievableChunks (filters : SearchFilters) (db : ContentDb ε) (collection : CollectionName) :
    List (Chunk ε) :=
  (db.chunks collection).filter fun chunk => Retrievable filters db.documents chunk

/-- What a search learns of a state: the documents with their metadata, and the
chunks that the filters admit. -/
def searchable (filters : SearchFilters) (db : ContentDb ε) :
    List Document × List DocumentMetadata × (CollectionName → List (Chunk ε)) :=
  (db.documents, db.documentMetadata, retrievableChunks filters db)

/-! ## The common select -/

/-- A chunk whose document is soft-deleted joins no row. -/
theorem joinDocument_eq_nil {documents : List Document} {collection : CollectionName}
    {key : Chunk ε → ω} {chunk : Chunk ε}
    (h : ¬ ∃ document ∈ documents, document.id = chunk.documentId ∧ document.deletedAt = none) :
    joinDocument documents collection key chunk = [] := by
  unfold joinDocument
  rw [List.map_eq_nil_iff, List.filter_eq_nil_iff]
  intro document hdocument hjoin
  exact h ⟨document, hdocument, by simpa using hjoin⟩

theorem repositoryClause_ok {collection : CollectionName} {clause : Chunk ε → Bool}
    (h : repositoryClause filters collection = .ok clause) (chunk : Chunk ε) :
    clause chunk = true ↔ ∀ repository ∈ filters.repository, chunk.repoFullName = some repository := by
  unfold repositoryClause at h
  cases hrepository : filters.repository with
  | none =>
    rw [hrepository] at h
    cases h
    simp
  | some repository =>
    rw [hrepository] at h
    unfold repositoryFilterClause at h
    dsimp only at h
    split at h
    · cases h
      simp
    · cases h

/-- The select reads the admitted chunks and nothing else of the chunk table. -/
theorem selectChunks_eq (collection : CollectionName) (on : Chunk ε → Bool) (key : Chunk ε → ω)
    (db : ContentDb ε) :
    selectChunks filters collection on key db =
      (repositoryClause filters collection : Except Exn (Chunk ε → Bool)) >>= fun _ =>
        .ok (((retrievableChunks filters db collection).filter on).flatMap
          (joinDocument db.documents collection key)) := by
  unfold selectChunks
  cases hclause : (repositoryClause filters collection : Except Exn (Chunk ε → Bool)) with
  | error e => rfl
  | ok clause =>
    have hlive : ∀ chunk, decide (∃ document ∈ db.documents,
        document.id = chunk.documentId ∧ document.deletedAt = none) = false →
        joinDocument db.documents collection key chunk = [] := by
      intro chunk hdead
      exact joinDocument_eq_nil (by simpa using hdead)
    have hrows : ((db.chunks collection).filter fun chunk =>
          on chunk && tenantClause filters chunk && clause chunk).flatMap
            (joinDocument db.documents collection key) =
        ((retrievableChunks filters db collection).filter on).flatMap
          (joinDocument db.documents collection key) := by
      rw [← flatMap_filter hlive, List.filter_filter]
      unfold retrievableChunks
      rw [List.filter_filter]
      congr 1
      apply List.filter_congr
      intro chunk _
      have hrepository := repositoryClause_ok hclause chunk
      rw [Bool.eq_iff_iff]
      simp only [Bool.and_eq_true, decide_eq_true_eq, tenantClause, hrepository]
      unfold Retrievable
      tauto
    exact congrArg Except.ok hrows

theorem selectChunks_dependsOn (collection : CollectionName) (on : Chunk ε → Bool)
    (key : Chunk ε → ω) :
    DependsOn (searchable filters) (selectChunks filters collection on key) := by
  intro db db' h
  obtain ⟨hdocuments, -, hchunks⟩ : db.documents = db'.documents ∧
      db.documentMetadata = db'.documentMetadata ∧
      retrievableChunks filters db = retrievableChunks filters db' := by
    simpa [searchable] using h
  rw [selectChunks_eq, selectChunks_eq, hdocuments, hchunks]

/-- The scored chunk is an admitted chunk of its collection. -/
def Shows (filters : SearchFilters) (db : ContentDb ε) (scored : ScoredChunk ω) : Prop :=
  ∃ chunk ∈ db.chunks scored.collection, Retrievable filters db.documents chunk ∧
    scored.chunkId = chunk.id ∧ scored.documentId = chunk.documentId ∧
    scored.content = chunk.content ∧ scored.sourceOffsetStart = chunk.sourceOffsetStart ∧
    scored.sourceOffsetEnd = chunk.sourceOffsetEnd

/-- The collection is also one of those that were searched. -/
def ShowsIn (names : List CollectionName) (filters : SearchFilters) (db : ContentDb ε)
    (scored : ScoredChunk ω) : Prop :=
  scored.collection ∈ names ∧ Shows filters db scored

/-- The collections that a search of the service goes through. -/
def searchedCollections (collection : Option CollectionName) : List CollectionName :=
  collection.elim collectionModels fun name => [name]

theorem selectChunks_shows {collection : CollectionName} {on : Chunk ε → Bool}
    {key : Chunk ε → ω} {db : ContentDb ε} {rows : List (ChunkRow ω)}
    (h : selectChunks filters collection on key db = .ok rows) {row : ChunkRow ω} (hrow : row ∈ rows)
    (score : ω → ω) (metadata : Dict Uuid (Dict String String)) :
    ShowsIn [collection] filters db (toScoredChunk score metadata row) := by
  rw [selectChunks_eq] at h
  obtain ⟨-, -, h⟩ := bind_ok.mp h
  cases h
  obtain ⟨chunk, hchunk, hjoin⟩ := List.mem_flatMap.mp hrow
  obtain ⟨document, -, rfl⟩ := List.mem_map.mp hjoin
  have hadmitted := List.mem_filter.mp (List.mem_filter.mp hchunk).1
  exact ⟨List.mem_singleton_self _, chunk, hadmitted.1, by simpa using hadmitted.2, rfl, rfl, rfl,
    rfl, rfl⟩

/-! ## The four queries -/

variable {engine : Engine ε τ ω} {queryEmbedding : ε} {queryText : String} {topK : Int}
  {collection : CollectionName} {includeMetadata : Bool}

theorem loadMetadataByDocument_dependsOn (documentIds : List Uuid) :
    DependsOn (searchable (ε := ε) filters) (loadMetadataByDocument documentIds) := by
  intro db db' h
  obtain ⟨-, hmetadata, -⟩ : db.documents = db'.documents ∧
      db.documentMetadata = db'.documentMetadata ∧
      retrievableChunks filters db = retrievableChunks filters db' := by
    simpa [searchable] using h
  unfold loadMetadataByDocument
  rw [hmetadata]

theorem search_dependsOn : DependsOn (searchable filters)
    (PgVectorStore.search engine collection queryEmbedding filters topK includeMetadata) := by
  unfold PgVectorStore.search
  refine DependsOn.bind (selectChunks_dependsOn _ _ _) fun rows => ?_
  refine DependsOn.bind (DependsOn.const _) fun page => ?_
  exact (loadMetadataByDocument_dependsOn _).map fun metadata =>
    (pure (page.map (toScoredChunk engine.neg metadata)) : Except Exn (List (ScoredChunk ω)))

theorem searchAll_dependsOn : DependsOn (searchable filters)
    (PgVectorStore.searchAll engine queryEmbedding filters topK) := by
  unfold PgVectorStore.searchAll
  refine DependsOn.bind (DependsOn.mapM (fun name => ?_) collectionModels) fun branches => ?_
  · exact selectChunks_dependsOn name _ _
  · exact DependsOn.const _

theorem lexicalSearch_dependsOn : DependsOn (searchable filters)
    (PgVectorStore.lexicalSearch engine collection queryText filters topK includeMetadata) := by
  unfold PgVectorStore.lexicalSearch
  refine DependsOn.bind (selectChunks_dependsOn _ _ _) fun rows => ?_
  refine DependsOn.bind (DependsOn.const _) fun page => ?_
  exact (loadMetadataByDocument_dependsOn _).map fun metadata =>
    (pure (page.map (toScoredChunk id metadata)) : Except Exn (List (ScoredChunk ω)))

theorem lexicalSearchAll_dependsOn : DependsOn (searchable filters)
    (PgVectorStore.lexicalSearchAll engine queryText filters topK) := by
  unfold PgVectorStore.lexicalSearchAll
  refine DependsOn.bind (DependsOn.mapM (fun name => ?_) collectionModels) fun branches => ?_
  · exact selectChunks_dependsOn name _ _
  · exact DependsOn.const _

variable {db : ContentDb ε} {scored : List (ScoredChunk ω)}

/-- A page of rows that show admitted chunks, once they are scored. -/
theorem page_shows {rows page : List (ChunkRow ω)} {le : ω → ω → Bool} {score : ω → ω}
    {metadata : Dict Uuid (Dict String String)} {names : List CollectionName}
    (hrows : ∀ row ∈ rows, ShowsIn names filters db (toScoredChunk score metadata row))
    (hpage : limit negativeLimit topK (orderBy le ChunkRow.key rows) = .ok page) :
    ∀ c ∈ page.map (toScoredChunk score metadata), ShowsIn names filters db c := by
  intro c hc
  obtain ⟨row, hrow, rfl⟩ := List.mem_map.mp hc
  exact hrows row (mem_orderBy.mp (mem_of_limit hpage hrow))

theorem search_shows (h : PgVectorStore.search engine collection queryEmbedding filters topK
    includeMetadata db = .ok scored) : ∀ c ∈ scored, ShowsIn [collection] filters db c := by
  unfold PgVectorStore.search at h
  obtain ⟨rows, hrows, h⟩ := bind_ok.mp h
  obtain ⟨page, hpage, h⟩ := bind_ok.mp h
  cases h
  exact page_shows (fun row hrow => selectChunks_shows hrows hrow _ _) hpage

theorem lexicalSearch_shows (h : PgVectorStore.lexicalSearch engine collection queryText filters
    topK includeMetadata db = .ok scored) : ∀ c ∈ scored, ShowsIn [collection] filters db c := by
  unfold PgVectorStore.lexicalSearch at h
  obtain ⟨rows, hrows, h⟩ := bind_ok.mp h
  obtain ⟨page, hpage, h⟩ := bind_ok.mp h
  cases h
  exact page_shows (fun row hrow => selectChunks_shows hrows hrow _ _) hpage

/-- The rows of the union come from the select of one collection. -/
theorem branches_show {on : Chunk ε → Bool} {key : Chunk ε → ω} {branches : List (List (ChunkRow ω))}
    (h : (collectionModels.mapM fun collection => selectChunks filters collection on key db) =
      .ok branches) (score : ω → ω) (metadata : Dict Uuid (Dict String String)) :
    ∀ row ∈ branches.flatten,
      ShowsIn collectionModels filters db (toScoredChunk score metadata row) := by
  intro row hrow
  obtain ⟨branch, hbranch, hmem⟩ := List.mem_flatten.mp hrow
  obtain ⟨name, hname, hselect⟩ := mem_of_mapM_ok h hbranch
  obtain ⟨hcollection, hshows⟩ := selectChunks_shows hselect hmem score metadata
  rw [← List.mem_singleton.mp hcollection] at hname
  exact ⟨hname, hshows⟩

theorem searchAll_shows (h : PgVectorStore.searchAll engine queryEmbedding filters topK db =
    .ok scored) : ∀ c ∈ scored, ShowsIn collectionModels filters db c := by
  unfold PgVectorStore.searchAll at h
  obtain ⟨branches, hbranches, h⟩ := bind_ok.mp h
  obtain ⟨page, hpage, h⟩ := bind_ok.mp h
  cases h
  exact page_shows (branches_show hbranches _ _) hpage

theorem lexicalSearchAll_shows (h : PgVectorStore.lexicalSearchAll engine queryText filters topK
    db = .ok scored) : ∀ c ∈ scored, ShowsIn collectionModels filters db c := by
  unfold PgVectorStore.lexicalSearchAll at h
  obtain ⟨branches, hbranches, h⟩ := bind_ok.mp h
  obtain ⟨page, hpage, h⟩ := bind_ok.mp h
  cases h
  exact page_shows (branches_show hbranches _ _) hpage

/-! ## Fusion -/

/-- What holds of every chunk of the lists, whatever its score, holds of every
chunk of the fused list. -/
structure Scoreless (P : ScoredChunk ω → Prop) : Prop where
  rescore : ∀ c, P c → ∀ score, P { c with score }

variable {P : ScoredChunk ω → Prop}

theorem creditRank_forall (hP : Scoreless P) {k : Nat} {fused : List (ScoredChunk ω)}
    (hfused : ∀ c ∈ fused, P c) {ranked : ScoredChunk ω × Nat} (hranked : P ranked.1) :
    ∀ c ∈ creditRank engine k fused ranked, P c := by
  intro c hc
  unfold creditRank at hc
  dsimp only at hc
  split at hc
  · obtain ⟨entry, hentry, rfl⟩ := List.mem_map.mp hc
    split
    · exact hP.rescore entry (hfused entry hentry) _
    · exact hfused entry hentry
  · rcases List.mem_append.mp hc with hold | hnew
    · exact hfused c hold
    · obtain rfl := List.mem_singleton.mp hnew
      exact hP.rescore ranked.1 hranked _

theorem creditList_forall (hP : Scoreless P) {k : Nat} {fused resultList : List (ScoredChunk ω)}
    (hfused : ∀ c ∈ fused, P c) (hlist : ∀ c ∈ resultList, P c) :
    ∀ c ∈ creditList engine k fused resultList, P c := by
  unfold creditList
  have hranked : ∀ ranked ∈ resultList.zipIdx 1, P ranked.1 := by
    intro ranked hmem
    exact hlist _ (List.fst_mem_of_mem_zipIdx hmem)
  generalize resultList.zipIdx 1 = rankedList at hranked ⊢
  induction rankedList generalizing fused with
  | nil => exact hfused
  | cons ranked rest ih =>
    rw [List.foldl_cons]
    apply ih
    · exact creditRank_forall hP hfused (hranked ranked List.mem_cons_self)
    · intro later hlater
      exact hranked later (List.mem_cons_of_mem _ hlater)

theorem reciprocalRankFusion_forall (hP : Scoreless P) {resultLists : List (List (ScoredChunk ω))}
    {k : Nat} (h : ∀ resultList ∈ resultLists, ∀ c ∈ resultList, P c) :
    ∀ c ∈ reciprocalRankFusion engine resultLists topK k, P c := by
  have hfused : ∀ fused : List (ScoredChunk ω), (∀ c ∈ fused, P c) →
      ∀ c ∈ resultLists.foldl (creditList engine k) fused, P c := by
    induction resultLists with
    | nil =>
      intro fused hfused
      exact hfused
    | cons resultList resultLists ih =>
      intro fused hfused
      rw [List.foldl_cons]
      apply ih
      · intro later hlater
        exact h later (List.mem_cons_of_mem _ hlater)
      · exact creditList_forall hP hfused (h resultList List.mem_cons_self)
  intro c hc
  unfold reciprocalRankFusion at hc
  have hmem := mem_orderBy.mp (mem_of_mem_sliceTo hc)
  refine hfused [] ?_ c hmem
  intro c hc
  cases hc

theorem showsIn_scoreless {names : List CollectionName} :
    Scoreless (ShowsIn (ω := ω) names filters db) where
  rescore _ hc _ := hc

/-! ## The service -/

variable {query : String} {named : Option CollectionName}

theorem searchCollection_dependsOn (name : CollectionName) : DependsOn (searchable filters) fun db =>
    searchCollection engine query queryEmbedding filters topK includeMetadata db name := by
  unfold searchCollection
  refine DependsOn.bind search_dependsOn fun dense => ?_
  refine DependsOn.bind lexicalSearch_dependsOn fun lexical => ?_
  exact DependsOn.const _

theorem searchCollection_shows {name : CollectionName} {resultLists : List (List (ScoredChunk ω))}
    (h : searchCollection engine query queryEmbedding filters topK includeMetadata db name =
      .ok resultLists) :
    ∀ resultList ∈ resultLists, ∀ c ∈ resultList, ShowsIn [name] filters db c := by
  unfold searchCollection at h
  obtain ⟨dense, hdense, h⟩ := bind_ok.mp h
  obtain ⟨lexical, hlexical, h⟩ := bind_ok.mp h
  cases h
  intro resultList hlist
  simp only [List.mem_cons, List.not_mem_nil, or_false] at hlist
  rcases hlist with rfl | rfl
  · exact search_shows hdense
  · exact lexicalSearch_shows hlexical

/-- Fusing lists that show admitted chunks. -/
theorem fusion_shows {resultLists : List (List (ScoredChunk ω))} {names : List CollectionName}
    (h : ∀ resultList ∈ resultLists, ∀ c ∈ resultList, ShowsIn names filters db c) :
    ∀ c ∈ reciprocalRankFusion engine resultLists topK, ShowsIn names filters db c :=
  reciprocalRankFusion_forall showsIn_scoreless h

theorem fusion_pair_shows {dense lexical : List (ScoredChunk ω)} {names : List CollectionName}
    (hdense : ∀ c ∈ dense, ShowsIn names filters db c)
    (hlexical : ∀ c ∈ lexical, ShowsIn names filters db c) :
    ∀ c ∈ reciprocalRankFusion engine [dense, lexical] topK, ShowsIn names filters db c := by
  apply fusion_shows
  intro resultList hlist
  simp only [List.mem_cons, List.not_mem_nil, or_false] at hlist
  rcases hlist with rfl | rfl
  · exact hdense
  · exact hlexical

theorem service_search_dependsOn :
    DependsOn (searchable filters) (search engine query filters topK named includeMetadata) := by
  unfold search
  refine DependsOn.bind (DependsOn.const _) fun queryEmbedding => ?_
  by_cases hall : named = none ∧ includeMetadata = false
  · simp only [if_pos hall]
    refine DependsOn.bind searchAll_dependsOn fun dense => ?_
    refine DependsOn.bind lexicalSearchAll_dependsOn fun lexical => ?_
    exact DependsOn.const _
  · simp only [if_neg hall]
    refine DependsOn.bind (DependsOn.mapM (fun name => ?_) _) fun resultLists => ?_
    · exact searchCollection_dependsOn name
    · exact DependsOn.const _

theorem service_search_shows (h : search engine query filters topK named includeMetadata db =
    .ok scored) : ∀ c ∈ scored, ShowsIn (searchedCollections named) filters db c := by
  unfold search at h
  obtain ⟨queryEmbedding, -, h⟩ := bind_ok.mp h
  split at h
  · rename_i hall
    rw [hall.1]
    obtain ⟨dense, hdense, h⟩ := bind_ok.mp h
    obtain ⟨lexical, hlexical, h⟩ := bind_ok.mp h
    cases h
    exact fusion_pair_shows (searchAll_shows hdense) (lexicalSearchAll_shows hlexical)
  · obtain ⟨resultLists, hlists, h⟩ := bind_ok.mp h
    cases h
    apply fusion_shows
    intro resultList hlist
    obtain ⟨pair, hpair, hmem⟩ := List.mem_flatten.mp hlist
    obtain ⟨name, hsearched, hname⟩ := mem_of_mapM_ok hlists hpair
    intro c hc
    obtain ⟨hcollection, hshows⟩ := searchCollection_shows hname resultList hmem c hc
    rw [← List.mem_singleton.mp hcollection] at hsearched
    exact ⟨hsearched, hshows⟩

/-! ## Metadata -/

/-- The dict of one document. -/
def metadataOf (db : ContentDb ε) (documentId : Uuid) : Dict String String :=
  (db.documentMetadata.filter fun row => row.documentId = documentId).foldl
    (fun metadata row => metadata.insert row.key row.value) ∅

theorem lookup_foldl_addMetadata (documentId : Uuid) (rows : List DocumentMetadata)
    (start : Dict Uuid (Dict String String)) :
    ((rows.foldl addMetadata start).lookup documentId).getD ∅ =
      (rows.filter fun row => row.documentId = documentId).foldl
        (fun metadata row => metadata.insert row.key row.value) ((start.lookup documentId).getD ∅) := by
  induction rows generalizing start with
  | nil => rfl
  | cons row rows ih =>
    rw [List.foldl_cons, ih]
    unfold addMetadata
    by_cases hrow : row.documentId = documentId
    · rw [List.filter_cons_of_pos (by simpa using hrow), List.foldl_cons, hrow, AList.lookup_insert]
      rfl
    · rw [List.filter_cons_of_neg (by simpa using hrow), AList.lookup_insert_ne (Ne.symm hrow)]

/-- It does not matter which other documents are asked for. -/
theorem lookup_loadMetadataByDocument {documentIds : List Uuid} {documentId : Uuid}
    (h : documentId ∈ documentIds) :
    ((loadMetadataByDocument documentIds db).lookup documentId).getD ∅ = metadataOf db documentId := by
  have hsame : ((db.documentMetadata.filter fun row => row.documentId ∈ documentIds).filter
      fun row => row.documentId = documentId) =
        db.documentMetadata.filter fun row => row.documentId = documentId := by
    rw [List.filter_filter]
    apply List.filter_congr
    intro row _
    by_cases hrow : row.documentId = documentId
    · simp [hrow, h]
    · simp [hrow]
  unfold loadMetadataByDocument metadataOf
  rw [lookup_foldl_addMetadata, hsame]
  rfl

/-- The chunk carries the metadata of its document. -/
def Described (db : ContentDb ε) (c : ScoredChunk ω) : Prop := c.metadata = metadataOf db c.documentId

theorem described_scoreless : Scoreless (Described (ω := ω) db) where
  rescore _ hc _ := hc

theorem page_described (score : ω → ω) (page : List (ChunkRow ω)) :
    ∀ c ∈ page.map (toScoredChunk score
      (loadMetadataByDocument (page.map ChunkRow.documentId) db)), Described db c := by
  intro c hc
  obtain ⟨row, hrow, rfl⟩ := List.mem_map.mp hc
  exact lookup_loadMetadataByDocument (List.mem_map_of_mem hrow)

/-- A search that includes the metadata. -/
theorem service_search_described (h : search engine query filters topK named true db = .ok scored) :
    ∀ c ∈ scored, Described db c := by
  unfold search at h
  obtain ⟨queryEmbedding, -, h⟩ := bind_ok.mp h
  rw [if_neg (by simp)] at h
  obtain ⟨resultLists, hlists, h⟩ := bind_ok.mp h
  cases h
  apply reciprocalRankFusion_forall described_scoreless
  intro resultList hlist
  obtain ⟨pair, hpair, hmem⟩ := List.mem_flatten.mp hlist
  obtain ⟨name, -, hname⟩ := mem_of_mapM_ok hlists hpair
  obtain ⟨dense, hdense, hname⟩ := bind_ok.mp hname
  obtain ⟨lexical, hlexical, hname⟩ := bind_ok.mp hname
  obtain ⟨_, -, hdense⟩ := bind_ok.mp hdense
  obtain ⟨page, -, hdense⟩ := bind_ok.mp hdense
  obtain ⟨_, -, hlexical⟩ := bind_ok.mp hlexical
  obtain ⟨lexicalPage, -, hlexical⟩ := bind_ok.mp hlexical
  cases hdense
  cases hlexical
  cases hname
  simp only [List.mem_cons, List.not_mem_nil, or_false] at hmem
  rcases hmem with rfl | rfl
  · exact page_described engine.neg page
  · exact page_described id lexicalPage

theorem signalLists_dependsOn : DependsOn (searchable filters)
    (signalLists engine query queryEmbedding filters topK named) := by
  cases named with
  | none =>
    refine DependsOn.bind searchAll_dependsOn fun dense => ?_
    refine DependsOn.bind lexicalSearchAll_dependsOn fun lexical => ?_
    exact DependsOn.const _
  | some name =>
    refine DependsOn.bind search_dependsOn fun dense => ?_
    refine DependsOn.bind lexicalSearch_dependsOn fun lexical => ?_
    exact DependsOn.const _

theorem signalLists_show {lists : List (ScoredChunk ω) × List (ScoredChunk ω)}
    (h : signalLists engine query queryEmbedding filters topK named db = .ok lists) :
    (∀ c ∈ lists.1, ShowsIn (searchedCollections named) filters db c) ∧
      ∀ c ∈ lists.2, ShowsIn (searchedCollections named) filters db c := by
  cases named with
  | none =>
    obtain ⟨dense, hdense, h⟩ := bind_ok.mp h
    obtain ⟨lexical, hlexical, h⟩ := bind_ok.mp h
    cases h
    exact ⟨searchAll_shows hdense, lexicalSearchAll_shows hlexical⟩
  | some name =>
    obtain ⟨dense, hdense, h⟩ := bind_ok.mp h
    obtain ⟨lexical, hlexical, h⟩ := bind_ok.mp h
    cases h
    exact ⟨search_shows hdense, lexicalSearch_shows hlexical⟩

theorem searchWithSignals_dependsOn :
    DependsOn (searchable filters) (searchWithSignals engine query filters topK named) := by
  unfold searchWithSignals
  refine DependsOn.bind (DependsOn.const _) fun queryEmbedding => ?_
  refine DependsOn.bind signalLists_dependsOn fun lists => ?_
  exact DependsOn.const _

theorem searchWithSignals_shows {result : HybridSearchResult ω}
    (h : searchWithSignals engine query filters topK named db = .ok result) :
    ∀ c ∈ result.chunks, ShowsIn (searchedCollections named) filters db c := by
  unfold searchWithSignals at h
  obtain ⟨queryEmbedding, -, h⟩ := bind_ok.mp h
  obtain ⟨lists, hlists, h⟩ := bind_ok.mp h
  cases h
  obtain ⟨hdense, hlexical⟩ := signalLists_show hlists
  exact fusion_pair_shows hdense hlexical

/-- Every chunk that is returned was admitted by the filters, and two states with
the same admitted chunks, documents and metadata have the same results, down to
the scores and the similarity of the best dense hit. -/
theorem retrieval_filtered (engine : Engine ε τ ω) (query : String) (filters : SearchFilters)
    (topK : Int) (collection : Option CollectionName) (includeMetadata : Bool)
    (db : ContentDb ε) :
    (∀ chunks, search engine query filters topK collection includeMetadata db = .ok chunks →
      ∀ c ∈ chunks, Shows filters db c) ∧
    (∀ result, searchWithSignals engine query filters topK collection db = .ok result →
      ∀ c ∈ result.chunks, Shows filters db c) ∧
    ∀ db', searchable filters db = searchable filters db' →
      search engine query filters topK collection includeMetadata db =
          search engine query filters topK collection includeMetadata db' ∧
        searchWithSignals engine query filters topK collection db =
          searchWithSignals engine query filters topK collection db' := by
  refine ⟨fun chunks h c hc => (service_search_shows h c hc).2,
    fun result h c hc => (searchWithSignals_shows h c hc).2, ?_⟩
  intro db' hsame
  exact ⟨service_search_dependsOn db db' hsame, searchWithSignals_dependsOn db db' hsame⟩

/-! ## A chunk of another organization -/

/-- Unit vectors in the plane; a text matches the query that it contains. -/
def planeEngine : Engine (Rat × Rat) String Rat where
  embedQuery _ := .ok (1, 0)
  embedTexts texts := .ok (texts.map fun _ => (1, 0))
  maxInnerProduct v w := -(v.1 * w.1 + v.2 * w.2)
  websearchToTsquery := id
  plaintoTsquery := id
  tsMatches content tsquery := content = tsquery
  tsRankCd _ _ := 1 / 10
  le a b := a ≤ b
  neg a := -a
  zero := 0
  add a b := a + b
  reciprocal n := 1 / n

def runbook (id organizationId : Uuid) (embedding : Rat × Rat) : Chunk (Rat × Rat) where
  id
  organizationId
  projectId := organizationId
  documentId := 1
  chunkIndex := id
  content := "restart"
  embedding
  sourceOffsetStart := 0
  sourceOffsetEnd := 7

def indexOf (rows : List (Chunk (Rat × Rat))) : ContentDb (Rat × Rat) where
  documents := [{
    id := 1, organizationId := 1, projectId := 1, source := "github", externalId := "readme"
    contentHash := "h", title := some "Runbook", status := .published }]
  chunks name := if name = .documentation then rows else []

/-- A better match of another organization, ahead of the limit of one, changes nothing. -/
theorem retrieval_filtered_foreign :
    searchable { organizationId := 1 } (indexOf [runbook 1 1 (0, 1)]) =
        searchable { organizationId := 1 } (indexOf [runbook 2 2 (1, 0), runbook 1 1 (0, 1)]) ∧
      search planeEngine "restart" { organizationId := 1 } 1 none false
          (indexOf [runbook 1 1 (0, 1)]) =
        search planeEngine "restart" { organizationId := 1 } 1 none false
          (indexOf [runbook 2 2 (1, 0), runbook 1 1 (0, 1)]) := by
  have hsame : searchable { organizationId := 1 } (indexOf [runbook 1 1 (0, 1)]) =
      searchable { organizationId := 1 } (indexOf [runbook 2 2 (1, 0), runbook 1 1 (0, 1)]) := by
    have hchunks : retrievableChunks { organizationId := 1 } (indexOf [runbook 1 1 (0, 1)]) =
        retrievableChunks { organizationId := 1 }
          (indexOf [runbook 2 2 (1, 0), runbook 1 1 (0, 1)]) := by
      funext name
      cases name <;> decide
    show (_, _, retrievableChunks _ _) = (_, _, retrievableChunks _ _)
    rw [hchunks]
    rfl
  have hresults := retrieval_filtered planeEngine "restart" { organizationId := 1 } 1 none false
    (indexOf [runbook 1 1 (0, 1)])
  exact ⟨hsame, (hresults.2.2 _ hsame).1⟩

end Ekip.Retrieval
