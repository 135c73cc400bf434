import Ekip.Retrieval.Fusion

/-!
# The two paths of `search`

Without metadata, a search of everything fuses one dense and one text list. With
metadata it fuses a dense and a text list for each collection, and the text query is
parsed in another way.
-/
namespace Ekip.Retrieval

open Ekip.Lib Ekip.Database Ekip.Shared Ekip.Core

variable {ε τ ω : Type}

/-! ## What fusion reads of its lists -/

/-- All but the score and the metadata. -/
def bare (zero : ω) (chunk : ScoredChunk ω) : ScoredChunk ω :=
  { chunk with score := zero, metadata := ∅ }

def withoutMetadata (chunk : ScoredChunk ω) : ScoredChunk ω := { chunk with metadata := ∅ }

section Bare

variable (engine : Engine ε τ ω) (k : Nat)

theorem creditRank_bare (fused : List (ScoredChunk ω)) (chunk : ScoredChunk ω) (rank : Nat) :
    (creditRank engine k fused (chunk, rank)).map withoutMetadata =
      creditRank engine k (fused.map withoutMetadata) (bare engine.zero chunk, rank) := by
  have hany : ((fused.map withoutMetadata).any fun entry => decide (entry.chunkId = chunk.chunkId)) =
      fused.any fun entry => decide (entry.chunkId = chunk.chunkId) := by
    rw [List.any_map]
    rfl
  unfold creditRank
  show _ = if (_ : Bool) then _ else _
  rw [show (bare engine.zero chunk).chunkId = chunk.chunkId from rfl, hany]
  split
  · rw [List.map_map, List.map_map]
    apply List.map_congr_left
    intro entry _
    show withoutMetadata (if entry.chunkId = chunk.chunkId then _ else entry) =
      if entry.chunkId = chunk.chunkId then _ else withoutMetadata entry
    split <;> rfl
  · rw [List.map_append]
    rfl

theorem creditZip_bare (resultList fused : List (ScoredChunk ω)) (start : Nat) :
    ((resultList.zipIdx start).foldl (creditRank engine k) fused).map withoutMetadata =
      ((resultList.map (bare engine.zero)).zipIdx start).foldl (creditRank engine k)
        (fused.map withoutMetadata) := by
  induction resultList generalizing fused start with
  | nil => rfl
  | cons chunk rest ih =>
    rw [List.zipIdx_cons, List.foldl_cons, ih, creditRank_bare]
    rfl

theorem creditLists_bare (resultLists : List (List (ScoredChunk ω))) (fused : List (ScoredChunk ω)) :
    (resultLists.foldl (creditList engine k) fused).map withoutMetadata =
      (resultLists.map fun resultList => resultList.map (bare engine.zero)).foldl
        (creditList engine k) (fused.map withoutMetadata) := by
  induction resultLists generalizing fused with
  | nil => rfl
  | cons resultList rest ih =>
    rw [List.foldl_cons, ih]
    show _ = List.foldl _ (creditList engine k (fused.map withoutMetadata)
      (resultList.map (bare engine.zero))) _
    rw [show (creditList engine k fused resultList).map withoutMetadata = _ from
      creditZip_bare engine k resultList fused 1]
    rfl

/-- Scores and metadata of the lists do not matter. -/
theorem fusion_bare (resultLists : List (List (ScoredChunk ω))) (topK : Int) :
    (reciprocalRankFusion engine resultLists topK).map withoutMetadata =
      reciprocalRankFusion engine
        (resultLists.map fun resultList => resultList.map (bare engine.zero)) topK := by
  have hsort : ∀ rows : List (ScoredChunk ω),
      (Query.orderBy (fun a b => engine.le b a) ScoredChunk.score rows).map withoutMetadata =
        Query.orderBy (fun a b => engine.le b a) ScoredChunk.score (rows.map withoutMetadata) := by
    intro rows
    exact List.map_mergeSort fun a _ b _ => rfl
  have hslice : ∀ rows : List (ScoredChunk ω),
      (Query.sliceTo topK rows).map withoutMetadata =
        Query.sliceTo topK (rows.map withoutMetadata) := by
    intro rows
    rw [sliceTo_eq_take, sliceTo_eq_take, List.map_take, List.length_map]
  unfold reciprocalRankFusion
  dsimp only
  rw [hslice, hsort, creditLists_bare]
  rfl

end Bare

/-! ## Candidates -/

def pairsOf (documents : List Document) (chunk : Chunk ε) : List (Chunk ε × Document) :=
  (documents.filter fun document => document.id = chunk.documentId ∧ document.deletedAt = none).map
    fun document => (chunk, document)

/-- The chunks of a collection that pass the filters, each with its document. -/
def candidates (filters : SearchFilters) (db : ContentDb ε) (collection : CollectionName) :
    List (Chunk ε × Document) :=
  ((db.chunks collection).filter (tenantClause filters)).flatMap (pairsOf db.documents)

def rowOf (collection : CollectionName) (key : Chunk ε → ω) (candidate : Chunk ε × Document) :
    ChunkRow ω :=
  { id := candidate.1.id
    documentId := candidate.1.documentId
    collection
    content := candidate.1.content
    sourceOffsetStart := candidate.1.sourceOffsetStart
    sourceOffsetEnd := candidate.1.sourceOffsetEnd
    key := key candidate.1
    title := candidate.2.title
    sourceUrl := candidate.2.sourceUrl }

def bareOf (zero : ω) (collection : CollectionName) (candidate : Chunk ε × Document) :
    ScoredChunk ω :=
  { chunkId := candidate.1.id
    documentId := candidate.1.documentId
    collection
    content := candidate.1.content
    score := zero
    sourceOffsetStart := candidate.1.sourceOffsetStart
    sourceOffsetEnd := candidate.1.sourceOffsetEnd
    title := candidate.2.title
    sourceUrl := candidate.2.sourceUrl }

/-- The first few of the candidates, as a list that is to be fused. -/
def bestOf (zero : ω) (collection : CollectionName) (le : Chunk ε → Chunk ε → Bool) (topK : Int)
    (rows : List (Chunk ε × Document)) : List (ScoredChunk ω) :=
  ((rows.mergeSort fun a b => le a.1 b.1).take topK.toNat).map (bareOf zero collection)

section Lists

variable (engine : Engine ε τ ω) {filters : SearchFilters} {topK : Int} {db : ContentDb ε}

theorem joinDocument_eq (documents : List Document) (collection : CollectionName)
    (key : Chunk ε → ω) (chunk : Chunk ε) :
    joinDocument documents collection key chunk =
      (pairsOf documents chunk).map (rowOf collection key) := by
  unfold joinDocument pairsOf
  rw [List.map_map]
  rfl

theorem filter_pairsOf (documents : List Document) (on : Chunk ε → Bool) (chunk : Chunk ε) :
    (pairsOf documents chunk).filter (fun candidate => on candidate.1) =
      if on chunk then pairsOf documents chunk else [] := by
  have hfst : ∀ candidate ∈ pairsOf documents chunk, candidate.1 = chunk := by
    intro candidate hmem
    obtain ⟨document, -, rfl⟩ := List.mem_map.mp hmem
    rfl
  by_cases hon : on chunk = true
  · rw [if_pos hon]
    refine List.filter_eq_self.mpr ?_
    intro candidate hmem
    rw [hfst candidate hmem]
    exact hon
  · rw [if_neg hon]
    refine List.filter_eq_nil_iff.mpr ?_
    intro candidate hmem
    rw [hfst candidate hmem]
    exact hon

theorem selectChunks_candidates (hrepository : filters.repository = none) (collection : CollectionName)
    (on : Chunk ε → Bool) (key : Chunk ε → ω) :
    selectChunks filters collection on key db =
      .ok (((candidates filters db collection).filter fun candidate => on candidate.1).map
        (rowOf collection key)) := by
  unfold selectChunks repositoryClause
  rw [hrepository]
  show Except.ok _ = _
  congr 1
  unfold candidates
  induction db.chunks collection with
  | nil => rfl
  | cons chunk rest ih =>
    simp only [Bool.and_true] at ih ⊢
    by_cases htenant : tenantClause filters chunk = true
    · by_cases hon : on chunk = true
      · simp only [List.filter_cons, hon, htenant, Bool.and_self, if_true, List.flatMap_cons,
          List.filter_append, List.map_append, filter_pairsOf, joinDocument_eq, ih]
      · simp only [List.filter_cons, hon, htenant, Bool.and_true, Bool.false_eq_true, if_false,
          if_true, List.flatMap_cons, List.filter_append, filter_pairsOf, List.nil_append, ih]
    · simp only [List.filter_cons, htenant, Bool.and_false, Bool.false_eq_true, if_false, ih]

/-- The first few rows in the order of their keys. -/
theorem limit_ordered (htop : 0 ≤ topK) (collection : CollectionName) (le : ω → ω → Bool)
    (key : Chunk ε → ω) (rows : List (Chunk ε × Document)) :
    Query.limit negativeLimit topK
        (Query.orderBy le ChunkRow.key (rows.map (rowOf collection key))) =
      .ok (((rows.mergeSort fun a b => le (key a.1) (key b.1)).take topK.toNat).map
        (rowOf collection key)) := by
  have hsort : Query.orderBy le ChunkRow.key (rows.map (rowOf collection key)) =
      (rows.mergeSort fun a b => le (key a.1) (key b.1)).map (rowOf collection key) :=
    (List.map_mergeSort (l := rows) (f := rowOf collection key)
      (r := fun a b : Chunk ε × Document => le (key a.1) (key b.1))
      (s := fun a b : ChunkRow ω => le a.key b.key) fun _ _ _ _ => rfl).symm
  unfold Query.limit
  rw [if_neg (not_lt.mpr htop), hsort, List.map_take]

theorem bare_rows (collection : CollectionName) (key : Chunk ε → ω) (score : ω → ω)
    (metadata : Dict Uuid (Dict String String)) (zero : ω) (rows : List (Chunk ε × Document)) :
    ((rows.map (rowOf collection key)).map (toScoredChunk score metadata)).map (bare zero) =
      rows.map (bareOf zero collection) := by
  rw [List.map_map, List.map_map]
  rfl

end Lists

/-! ## The lists of both paths -/

section Paths

variable (engine : Engine ε τ ω) {filters : SearchFilters} {topK : Int} {db : ContentDb ε}

def denseLe (queryEmbedding : ε) (a b : Chunk ε) : Bool :=
  engine.le (engine.maxInnerProduct a.embedding queryEmbedding)
    (engine.maxInnerProduct b.embedding queryEmbedding)

def lexicalLe (tsquery : τ) (a b : Chunk ε) : Bool :=
  engine.le (engine.tsRankCd b.content tsquery) (engine.tsRankCd a.content tsquery)

def matching (tsquery : τ) (rows : List (Chunk ε × Document)) : List (Chunk ε × Document) :=
  rows.filter fun candidate => engine.tsMatches candidate.1.content tsquery

theorem filter_true (rows : List (Chunk ε × Document)) : rows.filter (fun _ => true) = rows :=
  List.filter_eq_self.mpr fun _ _ => rfl

/-- Of the three tables one has rows. -/
theorem flatten_one {α : Type} {f : CollectionName → List α} {collection : CollectionName}
    (hmem : collection ∈ collectionModels)
    (honly : ∀ other ∈ collectionModels, other ≠ collection → f other = []) :
    (collectionModels.map f).flatten = f collection := by
  unfold collectionModels at *
  cases collection with
  | documentation => simp [honly .code (by decide) (by decide), honly .conversations (by decide) (by decide)]
  | code => simp [honly .documentation (by decide) (by decide), honly .conversations (by decide) (by decide)]
  | conversations => simp [honly .documentation (by decide) (by decide), honly .code (by decide) (by decide)]
  | incidents => exact absurd hmem (by decide)

theorem mapM_ok {α β : Type} (f : α → β) (l : List α) :
    l.mapM (fun a => (Except.ok (f a) : Except Exn β)) = .ok (l.map f) := by
  induction l with
  | nil => rfl
  | cons a l ih =>
    rw [List.mapM_cons, ih]
    rfl

theorem mapM_searchCollection {query : String} {queryEmbedding : ε}
    {dense lexical : CollectionName → List (ScoredChunk ω)}
    (hdense : ∀ name, PgVectorStore.search engine name queryEmbedding filters topK true db =
      .ok (dense name))
    (hlexical : ∀ name, PgVectorStore.lexicalSearch engine name query filters topK true db =
      .ok (lexical name)) :
    collectionModels.mapM (searchCollection engine query queryEmbedding filters topK true db) =
      .ok (collectionModels.map fun name => [dense name, lexical name]) := by
  have hone : searchCollection engine query queryEmbedding filters topK true db =
      fun name => .ok [dense name, lexical name] := by
    funext name
    unfold searchCollection
    rw [hdense name, hlexical name]
    rfl
  rw [hone, mapM_ok]

variable (hrepository : filters.repository = none) (htop : 0 ≤ topK)

include hrepository htop

theorem search_bare (collection : CollectionName) (queryEmbedding : ε) (includeMetadata : Bool) :
    ∃ list, PgVectorStore.search engine collection queryEmbedding filters topK includeMetadata db =
        .ok list ∧ list.map (bare engine.zero) = bestOf engine.zero collection
          (denseLe engine queryEmbedding) topK (candidates filters db collection) := by
  unfold PgVectorStore.search
  rw [selectChunks_candidates hrepository, filter_true]
  show ∃ list, (Query.limit negativeLimit topK _ >>= _) = _ ∧ _
  rw [limit_ordered htop]
  exact ⟨_, rfl, bare_rows _ _ _ _ _ _⟩

theorem lexicalSearch_bare (collection : CollectionName) (queryText : String)
    (includeMetadata : Bool) :
    ∃ list, PgVectorStore.lexicalSearch engine collection queryText filters topK includeMetadata db =
        .ok list ∧ list.map (bare engine.zero) = bestOf engine.zero collection
          (lexicalLe engine (engine.plaintoTsquery queryText)) topK
          (matching engine (engine.plaintoTsquery queryText) (candidates filters db collection)) := by
  unfold PgVectorStore.lexicalSearch
  dsimp only
  rw [selectChunks_candidates hrepository]
  show ∃ list, (Query.limit negativeLimit topK (Query.orderBy (fun a b => engine.le b a) _ _) >>= _) =
    _ ∧ _
  rw [limit_ordered htop collection fun a b => engine.le b a]
  exact ⟨_, rfl, bare_rows _ _ _ _ _ _⟩

/-- The three tables of which at most one has candidates. -/
theorem searchAll_bare {collection : CollectionName} (hmem : collection ∈ collectionModels)
    (honly : ∀ other ∈ collectionModels, other ≠ collection → candidates filters db other = [])
    (queryEmbedding : ε) :
    ∃ list, PgVectorStore.searchAll engine queryEmbedding filters topK db = .ok list ∧
      list.map (bare engine.zero) = bestOf engine.zero collection
        (denseLe engine queryEmbedding) topK (candidates filters db collection) := by
  unfold PgVectorStore.searchAll
  simp only [selectChunks_candidates hrepository, filter_true]
  rw [mapM_ok]
  show ∃ list, (Query.limit negativeLimit topK (Query.orderBy _ _ (List.flatten _)) >>= _) = _ ∧ _
  rw [flatten_one hmem fun other hother hne => by rw [honly other hother hne]; rfl,
    limit_ordered htop]
  exact ⟨_, rfl, bare_rows _ _ _ _ _ _⟩

theorem lexicalSearchAll_bare {collection : CollectionName} (hmem : collection ∈ collectionModels)
    (honly : ∀ other ∈ collectionModels, other ≠ collection → candidates filters db other = [])
    (queryText : String) :
    ∃ list, PgVectorStore.lexicalSearchAll engine queryText filters topK db = .ok list ∧
      list.map (bare engine.zero) = bestOf engine.zero collection
        (lexicalLe engine (engine.websearchToTsquery queryText)) topK
        (matching engine (engine.websearchToTsquery queryText) (candidates filters db collection)) := by
  unfold PgVectorStore.lexicalSearchAll
  dsimp only
  simp only [selectChunks_candidates hrepository]
  rw [mapM_ok]
  show ∃ list, (Query.limit negativeLimit topK
    (Query.orderBy (fun a b => engine.le b a) _ (List.flatten _)) >>= _) = _ ∧ _
  rw [flatten_one hmem fun other hother hne => by rw [honly other hother hne]; rfl,
    limit_ordered htop collection fun a b => engine.le b a]
  exact ⟨_, rfl, bare_rows _ _ _ _ _ _⟩

theorem searchAll_ok (queryEmbedding : ε) :
    ∃ list, PgVectorStore.searchAll engine queryEmbedding filters topK db = .ok list := by
  unfold PgVectorStore.searchAll
  simp only [selectChunks_candidates hrepository]
  rw [mapM_ok]
  show ∃ list, (Query.limit negativeLimit topK (Query.orderBy _ _ (List.flatten _)) >>= _) = _
  unfold Query.limit
  rw [if_neg (not_lt.mpr htop)]
  exact ⟨_, rfl⟩

theorem lexicalSearchAll_ok (queryText : String) :
    ∃ list, PgVectorStore.lexicalSearchAll engine queryText filters topK db = .ok list := by
  unfold PgVectorStore.lexicalSearchAll
  dsimp only
  simp only [selectChunks_candidates hrepository]
  rw [mapM_ok]
  show ∃ list, (Query.limit negativeLimit topK
    (Query.orderBy (fun a b => engine.le b a) _ (List.flatten _)) >>= _) = _
  unfold Query.limit
  rw [if_neg (not_lt.mpr htop)]
  exact ⟨_, rfl⟩

omit hrepository htop

end Paths

/-! ## Agreement -/

/-- Both raise, or both return the same chunks in the same order with the same scores. -/
def SameChunks (slow fast : Except Exn (List (ScoredChunk ω))) : Prop :=
  match slow, fast with
  | .ok chunks, .ok plain => chunks.map withoutMetadata = plain.map withoutMetadata
  | .error _, .error _ => True
  | _, _ => False

section Agreement

variable (engine : Engine ε τ ω) (query : String) (filters : SearchFilters) (topK : Int)
  (db : ContentDb ε)

/-- The two parsers of the text query match and rank the candidates alike. -/
structure SameParse (rows : List (Chunk ε × Document)) : Prop where
  matched : ∀ candidate ∈ rows,
    engine.tsMatches candidate.1.content (engine.websearchToTsquery query) =
      engine.tsMatches candidate.1.content (engine.plaintoTsquery query)
  ranked : ∀ a ∈ rows, ∀ b ∈ rows, lexicalLe engine (engine.websearchToTsquery query) a.1 b.1 =
    lexicalLe engine (engine.plaintoTsquery query) a.1 b.1

/-- At most one table has candidates, and the parsers agree about them. -/
structure OneTable (collection : CollectionName) : Prop where
  mem : collection ∈ collectionModels
  only : ∀ other ∈ collectionModels, other ≠ collection → candidates filters db other = []
  parse : SameParse engine query (candidates filters db collection)

variable {engine query filters topK db}

theorem SameParse.bestOf {rows : List (Chunk ε × Document)} (h : SameParse engine query rows)
    (collection : CollectionName) (topK : Int) :
    bestOf engine.zero collection (lexicalLe engine (engine.websearchToTsquery query)) topK
        (matching engine (engine.websearchToTsquery query) rows) =
      Retrieval.bestOf engine.zero collection (lexicalLe engine (engine.plaintoTsquery query)) topK
        (matching engine (engine.plaintoTsquery query) rows) := by
  have hmatching : matching engine (engine.websearchToTsquery query) rows =
      matching engine (engine.plaintoTsquery query) rows := List.filter_congr h.matched
  have hsub : ∀ candidate ∈ matching engine (engine.plaintoTsquery query) rows,
      candidate ∈ rows := fun candidate hmem => (List.mem_filter.mp hmem).1
  have hsort := List.map_mergeSort (f := (id : Chunk ε × Document → Chunk ε × Document))
    (l := matching engine (engine.plaintoTsquery query) rows)
    (r := fun a b : Chunk ε × Document =>
      lexicalLe engine (engine.websearchToTsquery query) a.1 b.1)
    (s := fun a b : Chunk ε × Document => lexicalLe engine (engine.plaintoTsquery query) a.1 b.1)
    fun a ha b hb => h.ranked a (hsub a ha) b (hsub b hb)
  rw [List.map_id, List.map_id] at hsort
  unfold Retrieval.bestOf
  rw [hmatching, hsort]

/-- Lists without chunks give nothing to a fusion. -/
theorem fusion_one_table {collection : CollectionName} (hmem : collection ∈ collectionModels)
    {dense lexical : CollectionName → List (ScoredChunk ω)}
    (honly : ∀ other ∈ collectionModels, other ≠ collection → dense other = [] ∧ lexical other = []) :
    reciprocalRankFusion engine
        (collectionModels.map fun name => [dense name, lexical name]).flatten topK =
      reciprocalRankFusion engine [dense collection, lexical collection] topK := by
  have hlists : (collectionModels.map fun name => [dense name, lexical name]).flatten =
      [dense .documentation, lexical .documentation, dense .code, lexical .code,
        dense .conversations, lexical .conversations] := rfl
  rw [hlists]
  cases collection with
  | documentation =>
    obtain ⟨hcode, hcode'⟩ := honly .code (by decide) (by decide)
    obtain ⟨hconv, hconv'⟩ := honly .conversations (by decide) (by decide)
    rw [hcode, hcode', hconv, hconv']
    rfl
  | code =>
    obtain ⟨hdoc, hdoc'⟩ := honly .documentation (by decide) (by decide)
    obtain ⟨hconv, hconv'⟩ := honly .conversations (by decide) (by decide)
    rw [hdoc, hdoc', hconv, hconv']
    rfl
  | conversations =>
    obtain ⟨hdoc, hdoc'⟩ := honly .documentation (by decide) (by decide)
    obtain ⟨hcode, hcode'⟩ := honly .code (by decide) (by decide)
    rw [hdoc, hdoc', hcode, hcode']
    rfl
  | incidents => exact absurd hmem (by decide)

theorem bestOf_nil (zero : ω) (collection : CollectionName) (le : Chunk ε → Chunk ε → Bool)
    (topK : Int) : bestOf zero collection le topK [] = [] := by
  unfold bestOf
  rw [List.mergeSort_nil, List.take_nil]
  rfl

theorem same_of_oneTable {collection : CollectionName}
    (h : OneTable engine query filters db collection) (hrepository : filters.repository = none)
    (htop : 0 ≤ topK) :
    SameChunks (search engine query filters topK none true db)
      (search engine query filters topK none false db) := by
  unfold search
  cases hembed : engine.embedQuery query with
  | error e => exact trivial
  | ok queryEmbedding =>
    choose dense hdense hdenseBare using fun name =>
      @search_bare _ _ _ engine _ _ db hrepository htop name queryEmbedding true
    choose lexical hlexical hlexicalBare using fun name =>
      @lexicalSearch_bare _ _ _ engine _ _ db hrepository htop name query true
    obtain ⟨denseAll, hdenseAll, hdenseAllBare⟩ :=
      searchAll_bare engine hrepository htop h.mem h.only queryEmbedding
    obtain ⟨lexicalAll, hlexicalAll, hlexicalAllBare⟩ :=
      lexicalSearchAll_bare engine hrepository htop h.mem h.only query
    have hfast : SameChunks
        (.ok (reciprocalRankFusion engine
          (collectionModels.map fun name => [dense name, lexical name]).flatten topK))
        (.ok (reciprocalRankFusion engine [denseAll, lexicalAll] topK)) := by
      show List.map _ _ = List.map _ _
      rw [fusion_bare, fusion_bare, List.map_flatten, List.map_map]
      have hbare : ((collectionModels.map ((fun resultLists => resultLists.map
          fun resultList => resultList.map (bare engine.zero)) ∘ fun name =>
            [dense name, lexical name]))) = collectionModels.map fun name =>
              [(dense name).map (bare engine.zero), (lexical name).map (bare engine.zero)] := rfl
      rw [hbare, fusion_one_table h.mem]
      · show reciprocalRankFusion engine [_, _] topK = reciprocalRankFusion engine
          [denseAll.map (bare engine.zero), lexicalAll.map (bare engine.zero)] topK
        rw [hdenseBare, hlexicalBare, hdenseAllBare, hlexicalAllBare, h.parse.bestOf]
      · intro other hother hne
        rw [hdenseBare, hlexicalBare, h.only other hother hne]
        exact ⟨bestOf_nil _ _ _ _, bestOf_nil _ _ _ _⟩
    show SameChunks (Except.bind (collectionModels.mapM _) _)
      (Except.bind (PgVectorStore.searchAll engine queryEmbedding filters topK db) _)
    rw [mapM_searchCollection engine hdense hlexical, hdenseAll]
    show SameChunks _ (Except.bind (PgVectorStore.lexicalSearchAll engine query filters topK db) _)
    rw [hlexicalAll]
    exact hfast

end Agreement

/-! ## No row asked for, or none allowed -/

section Refused

variable (engine : Engine ε τ ω) (query : String) {filters : SearchFilters} {topK : Int}
  (db : ContentDb ε)

theorem mapM_error {α β : Type} {f : α → Except Exn β} {l : List α} {a : α} {e : Exn} (ha : a ∈ l)
    (hf : f a = .error e) : ∃ e', l.mapM f = .error e' := by
  induction l with
  | nil => exact absurd ha List.not_mem_nil
  | cons b l ih =>
    rw [List.mapM_cons]
    cases hb : f b with
    | error e' => exact ⟨e', rfl⟩
    | ok value =>
      rcases List.mem_cons.mp ha with rfl | htail
      · rw [hf] at hb
        exact absurd hb (by simp)
      · obtain ⟨e', hrest⟩ := ih htail
        rw [hrest]
        exact ⟨e', rfl⟩

/-- Conversations have no repository, so a search of everything has none either. -/
theorem search_repository_error (includeMetadata : Bool) (hrepository : filters.repository ≠ none) :
    ∃ e, search engine query filters topK none includeMetadata db = .error e := by
  obtain ⟨repository, hsome⟩ := Option.ne_none_iff_exists'.mp hrepository
  have hclause : ∀ (on : Chunk ε → Bool) (key : Chunk ε → ω),
      ∃ e, selectChunks filters .conversations on key db = .error e := by
    intro on key
    unfold selectChunks repositoryClause
    rw [hsome]
    exact ⟨_, rfl⟩
  unfold search
  cases hembed : engine.embedQuery query with
  | error e => exact ⟨e, rfl⟩
  | ok queryEmbedding =>
    obtain ⟨e, hconversations⟩ := hclause (fun _ => true)
      fun chunk => engine.maxInnerProduct chunk.embedding queryEmbedding
    cases includeMetadata with
    | true =>
      have hcollection : searchCollection engine query queryEmbedding filters topK true db
          .conversations = .error e := by
        unfold searchCollection PgVectorStore.search
        rw [hconversations]
        rfl
      obtain ⟨e', hall⟩ := mapM_error (l := collectionModels) (by decide) hcollection
      refine ⟨e', ?_⟩
      show Except.bind (collectionModels.mapM _) _ = _
      rw [hall]
      rfl
    | false =>
      obtain ⟨e', hall⟩ := mapM_error (l := collectionModels)
        (f := fun collection => selectChunks filters collection (fun _ => true)
          (fun chunk => engine.maxInnerProduct chunk.embedding queryEmbedding) db)
        (by decide) hconversations
      refine ⟨e', ?_⟩
      show Except.bind (PgVectorStore.searchAll engine queryEmbedding filters topK db) _ = _
      unfold PgVectorStore.searchAll
      rw [hall]
      rfl

theorem search_negative_error (includeMetadata : Bool) (hrepository : filters.repository = none)
    (htop : topK < 0) :
    ∃ e, search engine query filters topK none includeMetadata db = .error e := by
  unfold search
  cases hembed : engine.embedQuery query with
  | error e => exact ⟨e, rfl⟩
  | ok queryEmbedding =>
    cases includeMetadata with
    | true =>
      have hcollection : searchCollection engine query queryEmbedding filters topK true db
          .documentation = .error negativeLimit := by
        unfold searchCollection PgVectorStore.search
        rw [selectChunks_candidates hrepository]
        show Except.bind (Except.bind (Query.limit negativeLimit topK _) _) _ = _
        unfold Query.limit
        rw [if_pos htop]
        rfl
      obtain ⟨e', hall⟩ := mapM_error (l := collectionModels) (by decide) hcollection
      refine ⟨e', ?_⟩
      show Except.bind (collectionModels.mapM _) _ = _
      rw [hall]
      rfl
    | false =>
      refine ⟨negativeLimit, ?_⟩
      show Except.bind (PgVectorStore.searchAll engine queryEmbedding filters topK db) _ = _
      unfold PgVectorStore.searchAll
      simp only [selectChunks_candidates hrepository]
      rw [mapM_ok]
      show Except.bind (Except.bind (Query.limit negativeLimit topK _) _) _ = _
      unfold Query.limit
      rw [if_pos htop]
      rfl

/-- Nothing is kept of either list. -/
theorem search_none (hrepository : filters.repository = none) (htop : topK = 0) :
    SameChunks (search engine query filters topK none true db)
      (search engine query filters topK none false db) := by
  subst htop
  unfold search
  cases hembed : engine.embedQuery query with
  | error e => exact trivial
  | ok queryEmbedding =>
    choose dense hdense hdenseBare using fun name =>
      @search_bare _ _ _ engine _ _ db hrepository le_rfl name queryEmbedding true
    choose lexical hlexical hlexicalBare using fun name =>
      @lexicalSearch_bare _ _ _ engine _ _ db hrepository le_rfl name query true
    obtain ⟨denseAll, hdenseAll⟩ := @searchAll_ok _ _ _ engine _ _ db hrepository le_rfl queryEmbedding
    obtain ⟨lexicalAll, hlexicalAll⟩ := @lexicalSearchAll_ok _ _ _ engine _ _ db hrepository le_rfl query
    show SameChunks (Except.bind (collectionModels.mapM _) _)
      (Except.bind (PgVectorStore.searchAll engine queryEmbedding filters 0 db) _)
    rw [mapM_searchCollection engine hdense hlexical, hdenseAll]
    show SameChunks _ (Except.bind (PgVectorStore.lexicalSearchAll engine query filters 0 db) _)
    rw [hlexicalAll]
    exact rfl

theorem SameChunks.of_errors {slow fast : Except Exn (List (ScoredChunk ω))}
    (hslow : ∃ e, slow = .error e) (hfast : ∃ e, fast = .error e) : SameChunks slow fast := by
  obtain ⟨e, rfl⟩ := hslow
  obtain ⟨e', rfl⟩ := hfast
  exact trivial

end Refused

/-! ## Several tables -/

section Several

variable (engine : Engine ε τ ℚ) {query : String} {filters : SearchFilters} {topK : Int}
  {db : ContentDb ε}

/-- The chunks of all three tables that pass the filters. -/
def everything (filters : SearchFilters) (db : ContentDb ε) : List Uuid :=
  (collectionModels.flatMap (candidates filters db)).map fun candidate => candidate.1.id

theorem length_everything : (everything filters db).length =
    (candidates filters db .documentation).length + (candidates filters db .code).length +
      (candidates filters db .conversations).length := by
  unfold everything collectionModels
  rw [List.length_map]
  simp only [List.flatMap_cons, List.flatMap_nil, List.append_nil, List.length_append]
  omega

theorem mem_everything {collection : CollectionName} {candidate : Chunk ε × Document}
    (hmem : collection ∈ collectionModels) (h : candidate ∈ candidates filters db collection) :
    candidate.1.id ∈ everything filters db :=
  List.mem_map_of_mem (List.mem_flatMap.mpr ⟨collection, hmem, h⟩)

theorem candidates_le {collection : CollectionName} (hmem : collection ∈ collectionModels) :
    (candidates filters db collection).length ≤ (everything filters db).length := by
  rw [length_everything]
  cases collection with
  | documentation | code | conversations => omega
  | incidents => exact absurd hmem (by decide)

/-- All rows are there, and each is a candidate. -/
structure Whole (filters : SearchFilters) (db : ContentDb ε) (count : Nat)
    (list : List (ScoredChunk ℚ)) : Prop where
  length : list.length = count
  found : ∀ id ∈ ids list, id ∈ everything filters db

theorem whole_of_bare {collection : CollectionName} {rows : List (Chunk ε × Document)}
    {le : Chunk ε → Chunk ε → Bool} {list : List (ScoredChunk ℚ)}
    (hmem : collection ∈ collectionModels)
    (hrows : ∀ candidate ∈ rows, candidate ∈ candidates filters db collection)
    (hfits : (rows.length : Int) ≤ topK)
    (h : list.map (bare (0 : ℚ)) = bestOf 0 collection le topK rows) :
    Whole filters db rows.length list := by
  have hlength : list.length = rows.length := by
    have hboth := congrArg List.length h
    unfold bestOf at hboth
    rw [List.length_map, List.length_map, List.length_take, List.length_mergeSort] at hboth
    omega
  refine ⟨hlength, ?_⟩
  intro id hid
  have hbareIds : ids list = ids (bestOf (0 : ℚ) collection le topK rows) := by
    rw [← h]
    unfold ids
    rw [List.map_map]
    rfl
  rw [hbareIds] at hid
  obtain ⟨chunk, hchunk, rfl⟩ := List.mem_map.mp hid
  obtain ⟨candidate, hcandidate, rfl⟩ := List.mem_map.mp hchunk
  have hin : candidate ∈ rows := List.mem_mergeSort.mp (List.mem_of_mem_take hcandidate)
  exact mem_everything hmem (hrows candidate hin)

/-- The union of the three tables, ordered and cut off. -/
theorem whole_of_union {on : Chunk ε → Bool} {key : Chunk ε → ℚ} {score : ℚ → ℚ}
    (le : ℚ → ℚ → Bool) (hfits : ((everything filters db).length : Int) ≤ topK) :
    ∃ rows, Query.limit negativeLimit topK (Query.orderBy le ChunkRow.key
        (collectionModels.map fun collection =>
          ((candidates filters db collection).filter fun candidate => on candidate.1).map
            (rowOf collection key)).flatten) = .ok rows ∧
      Whole filters db
        (((candidates filters db .documentation).filter fun candidate => on candidate.1).length +
          ((candidates filters db .code).filter fun candidate => on candidate.1).length +
          ((candidates filters db .conversations).filter fun candidate => on candidate.1).length)
        (rows.map (toScoredChunk score ∅)) := by
  generalize hunion : (collectionModels.map fun collection =>
    ((candidates filters db collection).filter fun candidate => on candidate.1).map
      (rowOf collection key)).flatten = union
  have hlength : union.length =
      ((candidates filters db .documentation).filter fun candidate => on candidate.1).length +
        ((candidates filters db .code).filter fun candidate => on candidate.1).length +
        ((candidates filters db .conversations).filter fun candidate => on candidate.1).length := by
    rw [← hunion]
    unfold collectionModels
    simp only [List.map_cons, List.map_nil, List.flatten_cons, List.flatten_nil, List.append_nil,
      List.length_append, List.length_map]
    omega
  have hshort : union.length ≤ (everything filters db).length := by
    have hdoc := List.length_filter_le (fun candidate => on candidate.1)
      (candidates filters db .documentation)
    have hcode := List.length_filter_le (fun candidate => on candidate.1)
      (candidates filters db .code)
    have hconv := List.length_filter_le (fun candidate => on candidate.1)
      (candidates filters db .conversations)
    rw [hlength, length_everything]
    omega
  have hnonneg : ¬ topK < 0 := by omega
  have hperm : (Query.orderBy le ChunkRow.key union).Perm union := List.mergeSort_perm _ _
  unfold Query.limit
  rw [if_neg hnonneg]
  refine ⟨_, rfl, ?_, ?_⟩
  · have hsorted := hperm.length_eq
    rw [List.length_map, List.length_take, ← hlength]
    omega
  · intro id hid
    obtain ⟨chunk, hchunk, rfl⟩ := List.mem_map.mp hid
    obtain ⟨row, hrow, rfl⟩ := List.mem_map.mp hchunk
    have hin := hperm.mem_iff.mp (List.mem_of_mem_take hrow)
    rw [← hunion] at hin
    obtain ⟨rows, hrows, hinRows⟩ := List.mem_flatten.mp hin
    obtain ⟨collection, hcollection, rfl⟩ := List.mem_map.mp hrows
    obtain ⟨candidate, hcandidate, rfl⟩ := List.mem_map.mp hinRows
    exact mem_everything hcollection (List.mem_filter.mp hcandidate).1

/-- The two parsers agree on every table. -/
def SameParses (engine : Engine ε τ ℚ) (query : String) (filters : SearchFilters)
    (db : ContentDb ε) : Prop :=
  ∀ collection ∈ collectionModels, SameParse engine query (candidates filters db collection)

theorem length_matching {collection : CollectionName}
    (hparse : SameParses engine query filters db) (hmem : collection ∈ collectionModels) :
    (matching engine (engine.websearchToTsquery query) (candidates filters db collection)).length =
      (matching engine (engine.plaintoTsquery query) (candidates filters db collection)).length :=
  congrArg List.length (List.filter_congr (hparse collection hmem).matched)

/-- What one collection gives to the fusion of the metadata path. -/
def tableSum (engine : Engine ε τ ℚ) (query : String) (filters : SearchFilters) (db : ContentDb ε)
    (collection : CollectionName) : ℚ :=
  rankSum defaultK 1 (candidates filters db collection).length +
    rankSum defaultK 1 (matching engine (engine.plaintoTsquery query)
      (candidates filters db collection)).length

theorem total_slow {queryEmbedding : ε} (hembed : engine.embedQuery query = .ok queryEmbedding)
    (hrepository : filters.repository = none)
    (hfits : ((everything filters db).length : Int) ≤ topK) :
    ∃ chunks, search (rational engine) query filters topK none true db = .ok chunks ∧
      total chunks = tableSum engine query filters db .documentation +
        tableSum engine query filters db .code + tableSum engine query filters db .conversations := by
  have htop : 0 ≤ topK := by omega
  choose dense hdense hdenseBare using fun name =>
    @search_bare _ _ _ (rational engine) _ _ db hrepository htop name queryEmbedding true
  choose lexical hlexical hlexicalBare using fun name =>
    @lexicalSearch_bare _ _ _ (rational engine) _ _ db hrepository htop name query true
  have hdenseWhole : ∀ name ∈ collectionModels,
      Whole filters db (candidates filters db name).length (dense name) := by
    intro name hname
    have hle := @candidates_le _ filters db _ hname
    exact whole_of_bare hname (fun _ h => h) (by omega) (hdenseBare name)
  have hlexicalWhole : ∀ name ∈ collectionModels,
      Whole filters db (matching engine (engine.plaintoTsquery query)
        (candidates filters db name)).length (lexical name) := by
    intro name hname
    have hle := @candidates_le _ filters db _ hname
    have hmatched := List.length_filter_le
      (fun candidate => engine.tsMatches candidate.1.content (engine.plaintoTsquery query))
      (candidates filters db name)
    refine @whole_of_bare _ _ topK _ _ _ _ _ hname (fun _ h => (List.mem_filter.mp h).1) ?_
      (hlexicalBare name)
    show ((List.filter _ _).length : Int) ≤ topK
    omega
  refine ⟨reciprocalRankFusion (rational engine)
    (collectionModels.map fun name => [dense name, lexical name]).flatten topK, ?_, ?_⟩
  · unfold search
    show Except.bind (engine.embedQuery query) _ = _
    rw [hembed]
    show Except.bind (collectionModels.mapM _) _ = _
    rw [mapM_searchCollection (rational engine) hdense hlexical]
    rfl
  · rw [@total_fusion _ _ engine _ (everything filters db) _ ?_ hfits]
    · show ([rankSum defaultK 1 (dense .documentation).length,
        rankSum defaultK 1 (lexical .documentation).length,
        rankSum defaultK 1 (dense .code).length, rankSum defaultK 1 (lexical .code).length,
        rankSum defaultK 1 (dense .conversations).length,
        rankSum defaultK 1 (lexical .conversations).length] : List ℚ).sum = _
      rw [(hdenseWhole .documentation (by decide)).length,
        (hlexicalWhole .documentation (by decide)).length, (hdenseWhole .code (by decide)).length,
        (hlexicalWhole .code (by decide)).length, (hdenseWhole .conversations (by decide)).length,
        (hlexicalWhole .conversations (by decide)).length]
      simp only [List.sum_cons, List.sum_nil, tableSum]
      ring
    · intro resultList hlist id hid
      obtain ⟨lists, hlists, hin⟩ := List.mem_flatten.mp hlist
      obtain ⟨name, hname, rfl⟩ := List.mem_map.mp hlists
      rcases List.mem_cons.mp hin with rfl | hsecond
      · exact (hdenseWhole name hname).found id hid
      · rw [List.mem_singleton.mp hsecond] at hid
        exact (hlexicalWhole name hname).found id hid

theorem total_fast {queryEmbedding : ε} (hembed : engine.embedQuery query = .ok queryEmbedding)
    (hrepository : filters.repository = none)
    (hfits : ((everything filters db).length : Int) ≤ topK) :
    ∃ chunks, search (rational engine) query filters topK none false db = .ok chunks ∧
      total chunks = rankSum defaultK 1 ((candidates filters db .documentation).length +
          (candidates filters db .code).length + (candidates filters db .conversations).length) +
        rankSum defaultK 1
          ((matching engine (engine.websearchToTsquery query)
              (candidates filters db .documentation)).length +
            (matching engine (engine.websearchToTsquery query)
              (candidates filters db .code)).length +
            (matching engine (engine.websearchToTsquery query)
              (candidates filters db .conversations)).length) := by
  obtain ⟨denseRows, hdenseRows, hdenseWhole⟩ := @whole_of_union _ filters topK db
    (fun _ => true) (fun chunk => engine.maxInnerProduct chunk.embedding queryEmbedding)
    (rational engine).neg (rational engine).le hfits
  obtain ⟨lexicalRows, hlexicalRows, hlexicalWhole⟩ := @whole_of_union _ filters topK db
    (fun chunk => engine.tsMatches chunk.content (engine.websearchToTsquery query))
    (fun chunk => engine.tsRankCd chunk.content (engine.websearchToTsquery query)) id
    (fun a b => (rational engine).le b a) hfits
  have hdenseAll : PgVectorStore.searchAll (rational engine) queryEmbedding filters topK db =
      .ok (denseRows.map (toScoredChunk (rational engine).neg ∅)) := by
    unfold PgVectorStore.searchAll
    simp only [selectChunks_candidates hrepository]
    rw [mapM_ok]
    exact congrArg (fun found => Except.bind found fun rows =>
      .ok (rows.map (toScoredChunk (rational engine).neg ∅))) hdenseRows
  have hlexicalAll : PgVectorStore.lexicalSearchAll (rational engine) query filters topK db =
      .ok (lexicalRows.map (toScoredChunk id ∅)) := by
    unfold PgVectorStore.lexicalSearchAll
    dsimp only
    simp only [selectChunks_candidates hrepository]
    rw [mapM_ok]
    exact congrArg (fun found => Except.bind found fun rows =>
      .ok (rows.map (toScoredChunk id ∅))) hlexicalRows
  refine ⟨reciprocalRankFusion (rational engine)
    [denseRows.map (toScoredChunk (rational engine).neg ∅),
      lexicalRows.map (toScoredChunk id ∅)] topK, ?_, ?_⟩
  · unfold search
    show Except.bind (engine.embedQuery query) _ = _
    rw [hembed]
    show Except.bind (PgVectorStore.searchAll (rational engine) queryEmbedding filters topK db) _ = _
    rw [hdenseAll]
    show Except.bind (PgVectorStore.lexicalSearchAll (rational engine) query filters topK db) _ = _
    rw [hlexicalAll]
    rfl
  · rw [@total_fusion _ _ engine _ (everything filters db) _ ?_ hfits]
    · rw [List.map_cons, List.map_cons, List.map_nil, hdenseWhole.length, hlexicalWhole.length]
      simp only [filter_true, List.sum_cons, List.sum_nil, add_zero]
      rfl
    · intro resultList hlist id hid
      rcases List.mem_cons.mp hlist with rfl | hsecond
      · exact hdenseWhole.found id hid
      · rw [List.mem_singleton.mp hsecond] at hid
        exact hlexicalWhole.found id hid

theorem total_of_same {slow fast : List (ScoredChunk ℚ)}
    (h : SameChunks (.ok slow) (.ok fast)) : total slow = total fast := by
  have hscores : ∀ chunks : List (ScoredChunk ℚ),
      chunks.map ScoredChunk.score = (chunks.map withoutMetadata).map ScoredChunk.score := by
    intro chunks
    rw [List.map_map]
    rfl
  unfold total
  rw [hscores slow, hscores fast]
  exact congrArg (fun chunks : List (ScoredChunk ℚ) => (chunks.map ScoredChunk.score).sum) h

/-- Where nothing is cut off, the scores of several tables give them away. -/
theorem oneTable_of_same {queryEmbedding : ε}
    (hembed : engine.embedQuery query = .ok queryEmbedding)
    (hrepository : filters.repository = none)
    (hfits : ((everything filters db).length : Int) ≤ topK)
    (hparse : SameParses engine query filters db)
    (h : SameChunks (search (rational engine) query filters topK none true db)
      (search (rational engine) query filters topK none false db)) :
    ∃ collection, OneTable engine query filters db collection := by
  obtain ⟨slow, hslow, hslowTotal⟩ := total_slow engine hembed hrepository hfits
  obtain ⟨fast, hfast, hfastTotal⟩ := total_fast engine hembed hrepository hfits
  rw [hslow, hfast] at h
  have hequal := total_of_same h
  rw [hslowTotal, hfastTotal, length_matching engine hparse (by decide),
    length_matching engine hparse (by decide), length_matching engine hparse (by decide)] at hequal
  unfold tableSum at hequal
  have hlexicalLe := rankSum_three_le defaultK
    (matching engine (engine.plaintoTsquery query) (candidates filters db .documentation)).length
    (matching engine (engine.plaintoTsquery query) (candidates filters db .code)).length
    (matching engine (engine.plaintoTsquery query) (candidates filters db .conversations)).length
  by_contra hnone
  have hmany : ∀ collection ∈ collectionModels,
      ¬ ∀ other ∈ collectionModels, other ≠ collection →
        (candidates filters db other).length = 0 := by
    intro collection hmem hempty
    refine hnone ⟨collection, hmem, ?_, hparse collection hmem⟩
    intro other hother hne
    exact List.length_eq_zero_iff.mp (hempty other hother hne)
  have hdoc := hmany .documentation (by decide)
  have hcode := hmany .code (by decide)
  have hconv := hmany .conversations (by decide)
  simp only [collectionModels, List.forall_mem_cons, List.not_mem_nil, false_implies, implies_true,
    and_true, ne_eq, not_true_eq_false, true_and, reduceCtorEq, not_false_eq_true, true_implies]
    at hdoc hcode hconv
  have hdenseLt := rankSum_three_lt defaultK (candidates filters db .documentation).length
    (candidates filters db .code).length (candidates filters db .conversations).length hdoc hcode
    hconv
  linarith

end Several

/-! ## Metadata and nothing else -/

/-- Where both paths of a search of everything are the same, by the tables and by the
query. -/
def PathsAgree (engine : Engine ε τ ω) (query : String) (filters : SearchFilters) (topK : Int)
    (db : ContentDb ε) : Prop :=
  (∃ e, engine.embedQuery query = .error e) ∨ filters.repository ≠ none ∨ topK ≤ 0 ∨
    ∃ collection, OneTable engine query filters db collection

/-- Asking for metadata leaves the chunks alone where only one table is searched, and of
results that are not cut off only there. -/
theorem include_metadata_keeps_chunks (engine : Engine ε τ ℚ) (query : String)
    (filters : SearchFilters) (topK : Int) (db : ContentDb ε) :
    (PathsAgree (rational engine) query filters topK db →
        SameChunks (search (rational engine) query filters topK none true db)
          (search (rational engine) query filters topK none false db)) ∧
      (((everything filters db).length : Int) ≤ topK →
        SameParses (rational engine) query filters db →
        (SameChunks (search (rational engine) query filters topK none true db)
            (search (rational engine) query filters topK none false db) ↔
          PathsAgree (rational engine) query filters topK db)) := by
  have henough : PathsAgree (rational engine) query filters topK db →
      SameChunks (search (rational engine) query filters topK none true db)
        (search (rational engine) query filters topK none false db) := by
    rintro (⟨e, hembed⟩ | hrepository | htop | ⟨collection, hone⟩)
    · unfold search
      rw [hembed]
      exact trivial
    · exact .of_errors (search_repository_error _ _ _ _ hrepository)
        (search_repository_error _ _ _ _ hrepository)
    · by_cases hrepository : filters.repository = none
      · rcases lt_or_eq_of_le htop with hneg | hzero
        · exact .of_errors (search_negative_error _ _ _ _ hrepository hneg)
            (search_negative_error _ _ _ _ hrepository hneg)
        · exact search_none _ _ _ hrepository hzero
      · exact .of_errors (search_repository_error _ _ _ _ hrepository)
          (search_repository_error _ _ _ _ hrepository)
    · by_cases hrepository : filters.repository = none
      · by_cases htop : 0 ≤ topK
        · exact same_of_oneTable hone hrepository htop
        · have hneg : topK < 0 := by omega
          exact .of_errors (search_negative_error _ _ _ _ hrepository hneg)
            (search_negative_error _ _ _ _ hrepository hneg)
      · exact .of_errors (search_repository_error _ _ _ _ hrepository)
          (search_repository_error _ _ _ _ hrepository)
  refine ⟨henough, ?_⟩
  intro hfits hparse
  constructor
  · intro hsame
    cases hembed : (rational engine).embedQuery query with
    | error e => exact .inl ⟨e, hembed⟩
    | ok queryEmbedding =>
      by_cases hrepository : filters.repository = none
      · exact .inr (.inr (.inr
          (oneTable_of_same (rational engine) hembed hrepository hfits hparse hsame)))
      · exact .inr (.inl hrepository)
  · exact henough

def guide (id : Uuid) : Chunk Unit where
  id
  organizationId := 1
  projectId := 1
  documentId := id
  chunkIndex := 0
  content := "restart"
  embedding := ()
  sourceOffsetStart := 0
  sourceOffsetEnd := 7

/-- One chunk of documentation and one of code. -/
def twoTables : ContentDb Unit where
  documents := [1, 2].map fun id =>
    { id, organizationId := 1, projectId := 1, source := "manual", externalId := "",
      contentHash := "", title := none, status := .published }
  chunks
    | .documentation => [guide 1]
    | .code => [guide 2]
    | _ => []

/-- Each of the two is the first of its table, but not the first of all. -/
theorem metadata_changes_scores :
    ¬ SameChunks (search (rational idleEngine) "restart" { organizationId := 1 } 2 none true twoTables)
      (search (rational idleEngine) "restart" { organizationId := 1 } 2 none false twoTables) := by
  intro hsame
  have hparse : SameParses (rational idleEngine) "restart" { organizationId := 1 } twoTables := by
    intro collection _
    exact ⟨fun _ _ => rfl, fun _ _ _ _ => rfl⟩
  obtain ⟨collection, hone⟩ := oneTable_of_same (rational idleEngine) rfl rfl (by decide) hparse hsame
  have hdoc : (candidates { organizationId := 1 } twoTables .documentation).length = 1 := by decide
  have hcode : (candidates { organizationId := 1 } twoTables .code).length = 1 := by decide
  by_cases hcollection : collection = .documentation
  · rw [hone.only .code (by decide) (by rw [hcollection]; decide)] at hcode
    exact absurd hcode (by decide)
  · rw [hone.only .documentation (by decide) (Ne.symm hcollection)] at hdoc
    exact absurd hdoc (by decide)

end Ekip.Retrieval
