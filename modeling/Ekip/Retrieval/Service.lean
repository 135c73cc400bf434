import Ekip.Retrieval.Store

/-!
# `retrieval/ranking/fusion.py` and `retrieval/service.py`

The lists of the dense and of the text queries are fused into one by the ranks
of their chunks.
-/
namespace Ekip.Retrieval

open Ekip.Lib Ekip.Database Ekip.Core

variable {ε τ ω : Type} (engine : Engine ε τ ω)

/-! ## Fusion -/

/-- `_DEFAULT_K`. -/
def defaultK : Nat := 60

/-- `fused_scores` and `representative_chunks` have the same keys in the same
order, so one list holds both: a chunk, with its score so far in place of the
score of its list. -/
def creditRank (k : Nat) (fused : List (ScoredChunk ω)) (ranked : ScoredChunk ω × Nat) :
    List (ScoredChunk ω) :=
  let contribution := engine.reciprocal (k + ranked.2)
  if fused.any fun entry => entry.chunkId = ranked.1.chunkId then
    fused.map fun entry =>
      if entry.chunkId = ranked.1.chunkId then
        { entry with score := engine.add entry.score contribution }
      else entry
  else fused ++ [{ ranked.1 with score := engine.add engine.zero contribution }]

/-- One ranked list; ranks count from 1. -/
def creditList (k : Nat) (fused : List (ScoredChunk ω)) (resultList : List (ScoredChunk ω)) :
    List (ScoredChunk ω) :=
  (resultList.zipIdx 1).foldl (creditRank engine k) fused

def reciprocalRankFusion (resultLists : List (List (ScoredChunk ω))) (topK : Int)
    (k : Nat := defaultK) : List (ScoredChunk ω) :=
  let fused := resultLists.foldl (creditList engine k) []
  Query.sliceTo topK (Query.orderBy (fun a b => engine.le b a) ScoredChunk.score fused)

/-! ## Search -/

structure HybridSearchResult (ω : Type) where
  chunks : List (ScoredChunk ω)
  topDenseSimilarity : Option ω

/-- The lists of one collection, dense first. -/
def searchCollection (query : String) (queryEmbedding : ε) (filters : SearchFilters) (topK : Int)
    (includeMetadata : Bool) (db : ContentDb ε) (collection : CollectionName) :
    Except Exn (List (List (ScoredChunk ω))) := do
  let dense ← PgVectorStore.search engine collection queryEmbedding filters topK includeMetadata db
  let lexical ← PgVectorStore.lexicalSearch engine collection query filters topK includeMetadata db
  pure [dense, lexical]

def search (query : String) (filters : SearchFilters) (topK : Int)
    (collection : Option CollectionName) (includeMetadata : Bool) (db : ContentDb ε) :
    Except Exn (List (ScoredChunk ω)) := do
  let queryEmbedding ← engine.embedQuery query
  if collection = none ∧ includeMetadata = false then
    let dense ← PgVectorStore.searchAll engine queryEmbedding filters topK db
    let lexical ← PgVectorStore.lexicalSearchAll engine query filters topK db
    pure (reciprocalRankFusion engine [dense, lexical] topK)
  else
    let collectionsToSearch := collection.elim collectionModels fun name => [name]
    let resultLists ← collectionsToSearch.mapM
      (searchCollection engine query queryEmbedding filters topK includeMetadata db)
    pure (reciprocalRankFusion engine resultLists.flatten topK)

/-- The dense and the lexical list, of everything or of one collection. -/
def signalLists (query : String) (queryEmbedding : ε) (filters : SearchFilters) (topK : Int)
    (collection : Option CollectionName) (db : ContentDb ε) :
    Except Exn (List (ScoredChunk ω) × List (ScoredChunk ω)) :=
  match collection with
  | none => do
    let dense ← PgVectorStore.searchAll engine queryEmbedding filters topK db
    let lexical ← PgVectorStore.lexicalSearchAll engine query filters topK db
    pure (dense, lexical)
  | some name => do
    let dense ← PgVectorStore.search engine name queryEmbedding filters topK false db
    let lexical ← PgVectorStore.lexicalSearch engine name query filters topK false db
    pure (dense, lexical)

def searchWithSignals (query : String) (filters : SearchFilters) (topK : Int)
    (collection : Option CollectionName) (db : ContentDb ε) :
    Except Exn (HybridSearchResult ω) := do
  let queryEmbedding ← engine.embedQuery query
  let lists ← signalLists engine query queryEmbedding filters topK collection db
  pure
    { chunks := reciprocalRankFusion engine [lists.1, lists.2] topK
      topDenseSimilarity := lists.1.head?.map ScoredChunk.score }

/-! ## Writes -/

/-- The items of one collection, in the order of the call. -/
def inCollection (items : List (Uuid × UpsertChunk × ε)) (collection : CollectionName) :
    List (Uuid × UpsertChunk × ε) :=
  items.filter fun item => item.2.1.collection = collection

/-- Each chunk comes with the id that the database draws for its row. -/
def upsert (chunks : List (Uuid × UpsertChunk)) : Service Exn (ContentDb ε) Unit :=
  if chunks.isEmpty then pure ()
  else do
    let embeddings ← Service.ofExcept (engine.embedTexts (chunks.map fun chunk => chunk.2.content))
    Service.raiseIf (embeddings.length ≠ chunks.length)
      (.valueError "zip() arguments have different lengths")
    let items := (chunks.zip embeddings).map fun pair => (pair.1.1, pair.1.2, pair.2)
    forM (chunks.map fun chunk => chunk.2.collection).eraseDups fun collection =>
      PgVectorStore.upsert collection (inCollection items collection)

def delete (collection : CollectionName) (documentId : Uuid) : Service Exn (ContentDb ε) Unit :=
  PgVectorStore.delete collection documentId

/-- What the upsert of one collection after the other leaves of the database. -/
theorem forM_upsert_returns {items : List (Uuid × UpsertChunk × ε)} {names : List CollectionName}
    {db db' : ContentDb ε} {u : Unit}
    (h : (forM names fun name => PgVectorStore.upsert name (inCollection items name)).Returns db u
      db') :
    db' = { db with chunks := db'.chunks } ∧ ∀ name, ∀ chunk ∈ db'.chunks name,
      chunk ∈ db.chunks name ∨ ∃ item ∈ items, item.2.1.collection = name ∧
        ∃ id, chunk = PgVectorStore.chunkValues name item.2.1 item.2.2 id := by
  induction names generalizing db with
  | nil =>
    rw [List.forM_nil] at h
    obtain ⟨-, rfl⟩ := Service.pure_returns.mp h
    exact ⟨rfl, fun _ _ hchunk => .inl hchunk⟩
  | cons target names ih =>
    rw [List.forM_cons] at h
    obtain ⟨_, middle, hfirst, hrest⟩ := Service.bind_returns.mp h
    simp only [PgVectorStore.upsert, Service.bind_returns, Service.raiseIf_returns,
      Service.write_returns] at hfirst
    obtain ⟨_, _, ⟨-, rfl⟩, rfl⟩ := hfirst
    obtain ⟨hframe, hmem⟩ := ih hrest
    refine ⟨hframe, ?_⟩
    intro name chunk hchunk
    rcases hmem name chunk hchunk with hold | hnew
    · rcases PgVectorStore.mem_setChunks hold with ⟨rfl, hwritten⟩ | ⟨-, hother⟩
      · rcases PgVectorStore.mem_foldl_upsertRow hwritten with hbefore | ⟨item, hitem, hvalues⟩
        · exact .inl hbefore
        · have hkept := List.mem_filter.mp hitem
          exact .inr ⟨item, hkept.1, by simpa using hkept.2, hvalues⟩
      · exact .inl hother
    · exact .inr hnew

/-- An upsert writes the chunk tables, and there only the chunks that it was given. -/
theorem upsert_returns {chunks : List (Uuid × UpsertChunk)} {db db' : ContentDb ε} {u : Unit}
    (h : (upsert engine chunks).Returns db u db') :
    db' = { db with chunks := db'.chunks } ∧ ∀ name, ∀ chunk ∈ db'.chunks name,
      chunk ∈ db.chunks name ∨ ∃ item ∈ chunks, item.2.collection = name ∧
        ∃ embedding id, chunk = PgVectorStore.chunkValues name item.2 embedding id := by
  unfold upsert at h
  rcases Service.ite_returns.mp h with ⟨-, hnone⟩ | ⟨-, hwrite⟩
  · obtain ⟨-, rfl⟩ := Service.pure_returns.mp hnone
    exact ⟨rfl, fun _ _ hchunk => .inl hchunk⟩
  · simp only [Service.bind_returns, Service.ofExcept_returns, Service.raiseIf_returns] at hwrite
    obtain ⟨embeddings, _, ⟨-, rfl⟩, _, _, ⟨-, rfl⟩, hloop⟩ := hwrite
    obtain ⟨hframe, hmem⟩ := forM_upsert_returns hloop
    refine ⟨hframe, ?_⟩
    intro name chunk hchunk
    rcases hmem name chunk hchunk with hold | ⟨item, hitem, hname, id, hvalues⟩
    · exact .inl hold
    · obtain ⟨pair, hpair, rfl⟩ := List.mem_map.mp hitem
      have hgiven : pair.1 ∈ chunks := (List.of_mem_zip hpair).1
      exact .inr ⟨pair.1, hgiven, hname, pair.2, id, hvalues⟩

theorem forM_upsert_keeps {items : List (Uuid × UpsertChunk × ε)} {names : List CollectionName}
    {db db' : ContentDb ε} {u : Unit} {name : CollectionName} {chunk : Chunk ε}
    (h : (forM names fun name => PgVectorStore.upsert name (inCollection items name)).Returns db u
      db') (hne : ∀ item ∈ items, item.2.1.documentId ≠ chunk.documentId)
    (hchunk : chunk ∈ db.chunks name) : chunk ∈ db'.chunks name := by
  induction names generalizing db with
  | nil =>
    rw [List.forM_nil] at h
    obtain ⟨-, rfl⟩ := Service.pure_returns.mp h
    exact hchunk
  | cons target names ih =>
    rw [List.forM_cons] at h
    obtain ⟨_, middle, hfirst, hrest⟩ := Service.bind_returns.mp h
    simp only [PgVectorStore.upsert, Service.bind_returns, Service.raiseIf_returns,
      Service.write_returns] at hfirst
    obtain ⟨_, _, ⟨-, rfl⟩, rfl⟩ := hfirst
    refine ih hrest ?_
    by_cases hname : name = target
    · subst hname
      have hself : (PgVectorStore.setChunks name (fun rows => (inCollection items name).foldl
          (PgVectorStore.upsertRow name) rows) db).chunks name =
            (inCollection items name).foldl (PgVectorStore.upsertRow name) (db.chunks name) :=
        Function.update_self name _ _
      rw [hself]
      apply PgVectorStore.foldl_upsertRow_keeps _ hchunk
      intro item hitem
      exact hne item (List.mem_filter.mp hitem).1
    · have hother : (PgVectorStore.setChunks target (fun rows => (inCollection items target).foldl
          (PgVectorStore.upsertRow target) rows) db).chunks name = db.chunks name :=
        Function.update_of_ne hname _ _
      rw [hother]
      exact hchunk

/-- Chunks of other documents stay in the index. -/
theorem upsert_keeps {chunks : List (Uuid × UpsertChunk)} {db db' : ContentDb ε} {u : Unit}
    {name : CollectionName} {chunk : Chunk ε} (h : (upsert engine chunks).Returns db u db')
    (hne : ∀ item ∈ chunks, item.2.documentId ≠ chunk.documentId)
    (hchunk : chunk ∈ db.chunks name) : chunk ∈ db'.chunks name := by
  unfold upsert at h
  rcases Service.ite_returns.mp h with ⟨-, hnone⟩ | ⟨-, hwrite⟩
  · obtain ⟨-, rfl⟩ := Service.pure_returns.mp hnone
    exact hchunk
  · simp only [Service.bind_returns, Service.ofExcept_returns, Service.raiseIf_returns] at hwrite
    obtain ⟨embeddings, _, ⟨-, rfl⟩, _, _, ⟨-, rfl⟩, hloop⟩ := hwrite
    refine forM_upsert_keeps hloop ?_ hchunk
    intro item hitem
    obtain ⟨pair, hpair, rfl⟩ := List.mem_map.mp hitem
    exact hne pair.1 (List.of_mem_zip hpair).1

/-- Embedding a single chunk writes the one row. -/
theorem upsert_returns_one {id : Uuid} {chunk : UpsertChunk} {db db' : ContentDb ε} {u : Unit}
    (h : (upsert engine [(id, chunk)]).Returns db u db') :
    ∃ embedding, db' = PgVectorStore.setChunks chunk.collection
      (fun rows => PgVectorStore.upsertRow chunk.collection rows (id, chunk, embedding)) db := by
  simp only [upsert, List.isEmpty_cons, Bool.false_eq_true, if_false, List.map_cons, List.map_nil,
    Service.bind_returns, Service.ofExcept_returns, Service.raiseIf_returns] at h
  obtain ⟨embeddings, _, ⟨-, rfl⟩, _, _, ⟨hlength, rfl⟩, h⟩ := h
  have hone : embeddings.length = 1 := by simpa using hlength
  obtain ⟨embedding, rfl⟩ := List.length_eq_one_iff.mp hone
  have hnames : [chunk.collection].eraseDups = [chunk.collection] := by
    simp [List.eraseDups_cons]
  have hitems : inCollection [(id, chunk, embedding)] chunk.collection =
      [(id, chunk, embedding)] := by
    simp [inCollection]
  rw [hnames] at h
  simp only [List.zip_cons_cons, List.zip_nil_right, List.map_cons, List.map_nil, hitems,
    List.forM_cons, List.forM_nil, PgVectorStore.upsert, Service.bind_returns,
    Service.raiseIf_returns, Service.write_returns, Service.pure_returns] at h
  obtain ⟨_, _, ⟨_, _, ⟨-, rfl⟩, rfl⟩, -, rfl⟩ := h
  exact ⟨embedding, rfl⟩

/-- The embedding model answers every call with one vector for each text. -/
def Engine.Embeds (engine : Engine ε τ ω) : Prop :=
  ∀ texts, ∃ vectors, engine.embedTexts texts = .ok vectors ∧ vectors.length = texts.length

theorem forM_upsert_answers {items : List (Uuid × UpsertChunk × ε)}
    (hkeys : (items.map fun item => (item.2.1.documentId, item.2.1.chunkIndex)).Nodup)
    (names : List CollectionName) (db : ContentDb ε) :
    ∃ db', (forM names fun name => PgVectorStore.upsert name (inCollection items name)).Returns db ()
      db' := by
  induction names generalizing db with
  | nil => exact ⟨db, Service.pure_returns.mpr ⟨rfl, rfl⟩⟩
  | cons name names ih =>
    have hkept : ((inCollection items name).map fun item =>
        (item.2.1.documentId, item.2.1.chunkIndex)).Nodup :=
      hkeys.sublist (List.filter_sublist.map _)
    obtain ⟨db', hrest⟩ := ih (PgVectorStore.setChunks name (fun rows =>
      (inCollection items name).foldl (PgVectorStore.upsertRow name) rows) db)
    refine ⟨db', ?_⟩
    rw [List.forM_cons]
    refine Service.bind_returns.mpr ⟨(), _, ?_, hrest⟩
    simp only [PgVectorStore.upsert, Service.bind_returns, Service.raiseIf_returns,
      Service.write_returns]
    exact ⟨(), db, ⟨by simpa using hkept, rfl⟩, rfl⟩

/-- An upsert of distinct chunks goes through. -/
theorem upsert_answers {chunks : List (Uuid × UpsertChunk)} (hembeds : engine.Embeds)
    (hkeys : (chunks.map fun chunk => (chunk.2.documentId, chunk.2.chunkIndex)).Nodup)
    (db : ContentDb ε) : ∃ db', (upsert engine chunks).Returns db () db' := by
  obtain ⟨vectors, hanswer, hlength⟩ := hembeds (chunks.map fun chunk => chunk.2.content)
  rw [List.length_map] at hlength
  have hitems : (((chunks.zip vectors).map fun pair => (pair.1.1, pair.1.2, pair.2)).map fun item =>
      (item.2.1.documentId, item.2.1.chunkIndex)) =
        chunks.map fun chunk => (chunk.2.documentId, chunk.2.chunkIndex) := by
    have hfirst : (chunks.zip vectors).map Prod.fst = chunks :=
      List.map_fst_zip (Nat.le_of_eq hlength.symm)
    conv_rhs => rw [← hfirst]
    rw [List.map_map, List.map_map]
    rfl
  by_cases hnone : chunks.isEmpty
  · refine ⟨db, ?_⟩
    rw [upsert, if_pos hnone]
    exact Service.pure_returns.mpr ⟨rfl, rfl⟩
  · obtain ⟨db', hloop⟩ := forM_upsert_answers (hitems ▸ hkeys)
      (chunks.map fun chunk => chunk.2.collection).eraseDups db
    refine ⟨db', ?_⟩
    rw [upsert, if_neg hnone]
    simp only [Service.bind_returns, Service.ofExcept_returns, Service.raiseIf_returns]
    exact ⟨vectors, db, ⟨hanswer, rfl⟩, (), db, ⟨by simpa using hlength, rfl⟩, hloop⟩

end Ekip.Retrieval
