import Ekip.Agents.KnowledgeGap.Pipeline
import Ekip.Retrieval.Filtering
import Ekip.Retrieval.Fusion

/-!
# Whether a document covers the topic

The scan compares the score of the best hit in the documentation with 0.6. That score is fused
from the ranks of two lists, where the similarity of a chunk has no part.
-/
namespace Ekip.Agents.KnowledgeGap

open Ekip.Lib Ekip.Database Ekip.Shared Ekip.Core Ekip.Retrieval

variable {ε τ : Type}

/-! ## The search of one document -/

/-- `retrieval_service.search(…, top_k=1, collection="documentation")`, its first hit. -/
def topDocument (engine : Engine ε τ ℚ) (db : ContentDb ε) (organizationId : Uuid)
    (topic : String) : Except Exn (Option (ℚ × Uuid)) :=
  (search engine topic { organizationId } 1 (some .documentation) false db).map fun results =>
    results.head?.map fun chunk => (chunk.score, chunk.documentId)

/-- The model that searches the database. -/
def Model.searching (model : Model) (engine : Engine ε τ ℚ) (db : ContentDb ε) : Model :=
  { model with searchDocumentation := topDocument engine db }

section Search

variable (engine : Engine ε τ ℚ) (db : ContentDb ε) (organizationId : Uuid)

theorem selectChunks_unfiltered {filters : SearchFilters} (hrepository : filters.repository = none)
    (collection : CollectionName) (on : Chunk ε → Bool) (key : Chunk ε → ℚ) :
    ∃ rows, selectChunks filters collection on key db = .ok rows := by
  unfold selectChunks repositoryClause
  rw [hrepository]
  exact ⟨_, rfl⟩

theorem nodup_of_take_one {rows : List (ChunkRow ℚ)} (score : ℚ → ℚ)
    (metadata : Dict Uuid (Dict String String)) :
    (ids ((rows.take 1).map (toScoredChunk score metadata))).Nodup := by
  cases rows with
  | nil => exact List.nodup_nil
  | cons row rows => exact List.nodup_singleton _

/-- One hit of each list. -/
theorem searchCollection_one {filters : SearchFilters} (hrepository : filters.repository = none)
    (query : String) (queryEmbedding : ε) (collection : CollectionName) : ∃ dense lexical,
    searchCollection engine query queryEmbedding filters 1 false db collection =
        .ok [dense, lexical] ∧ (ids dense).Nodup ∧ (ids lexical).Nodup := by
  obtain ⟨denseRows, hdense⟩ := selectChunks_unfiltered db hrepository collection (fun _ => true)
    fun chunk => engine.maxInnerProduct chunk.embedding queryEmbedding
  obtain ⟨lexicalRows, hlexical⟩ := selectChunks_unfiltered db hrepository collection
    (fun chunk => engine.tsMatches chunk.content (engine.plaintoTsquery query))
    fun chunk => engine.tsRankCd chunk.content (engine.plaintoTsquery query)
  unfold searchCollection PgVectorStore.search PgVectorStore.lexicalSearch
  dsimp only
  rw [hdense, hlexical]
  exact ⟨_, _, rfl, nodup_of_take_one _ _, nodup_of_take_one _ _⟩

/-- The best score of a search in one collection. -/
theorem search_one {topic : String} {vector : ε} (hembed : engine.embedQuery topic = .ok vector) :
    ∃ results, search (rational engine) topic { organizationId } 1 (some .documentation) false db =
        .ok results ∧ ∀ chunk ∈ results, chunk.score ≤ 2 / 61 := by
  obtain ⟨dense, lexical, hlists, hdense, hlexical⟩ := searchCollection_one (rational engine) db
    (show SearchFilters.repository { organizationId } = none from rfl) topic vector .documentation
  refine ⟨reciprocalRankFusion (rational engine) [dense, lexical] 1, ?_, ?_⟩
  · have hrational : (rational engine).embedQuery topic = .ok vector := hembed
    have hmapM : [CollectionName.documentation].mapM
        (searchCollection (rational engine) topic vector { organizationId } 1 false db) =
          .ok [[dense, lexical]] := by
      rw [List.mapM_cons, hlists]
      rfl
    have hnamed : ¬ (some CollectionName.documentation = none ∧ false = false) := by simp
    refine Query.bind_ok.mpr ⟨vector, hrational, ?_⟩
    dsimp only
    rw [if_neg hnamed]
    exact Query.bind_ok.mpr ⟨_, hmapM, rfl⟩
  · intro chunk hchunk
    have hnodup : ∀ resultList ∈ [dense, lexical], (ids resultList).Nodup := by
      intro resultList hlist
      rcases List.mem_cons.mp hlist with rfl | hlast
      · exact hdense
      · obtain rfl := List.mem_singleton.mp hlast
        exact hlexical
    exact score_le engine hnodup hchunk

/-- No hit reaches the threshold. -/
theorem resolveSuggestedAction_searching (model : Model) {topic : String} {vector : ε}
    (hembed : engine.embedQuery topic = .ok vector) :
    resolveSuggestedAction (model.searching (rational engine) db) organizationId topic =
      .ok (.newRunbook, none) := by
  obtain ⟨results, hresults, hscores⟩ := search_one engine db organizationId hembed
  have htop : (model.searching (rational engine) db).searchDocumentation organizationId topic =
      .ok (results.head?.map fun chunk => (chunk.score, chunk.documentId)) := by
    show topDocument (rational engine) db organizationId topic = _
    unfold topDocument
    rw [hresults]
    rfl
  unfold resolveSuggestedAction
  rw [htop]
  cases results with
  | nil => rfl
  | cons chunk results =>
    have hscore := hscores chunk List.mem_cons_self
    have hbelow : ¬ documentMatchScoreThreshold ≤ chunk.score := by
      unfold documentMatchScoreThreshold
      intro hreached
      have hcontradiction := hreached.trans hscore
      norm_num at hcontradiction
    exact congrArg Except.ok (if_neg hbelow)

end Search

/-! ## What the report should say -/

section Claim

variable (engine : Engine ε τ ℚ) (db : ContentDb ε) (organizationId : Uuid) (vector : ε)

/-- A chunk of the documentation of the organization, of a document that is there. -/
structure Documented (chunk : Chunk ε) : Prop where
  stored : chunk ∈ db.chunks .documentation
  own : chunk.organizationId = organizationId
  live : ∃ document ∈ db.documents, document.id = chunk.documentId ∧ document.deletedAt = none

def similarity (chunk : Chunk ε) : ℚ := -engine.maxInnerProduct chunk.embedding vector

/-- A document with a chunk of the highest similarity, where that reaches the threshold. -/
structure SuggestsBest (result : SuggestedAction × Option Uuid) : Prop where
  covered : (∃ chunk, Documented db organizationId chunk ∧
      documentMatchScoreThreshold ≤ similarity engine vector chunk) →
    ∃ best, Documented db organizationId best ∧ (∀ chunk, Documented db organizationId chunk →
        similarity engine vector chunk ≤ similarity engine vector best) ∧
      result = (.updateExisting, some best.documentId)
  uncovered : (∀ chunk, Documented db organizationId chunk →
      similarity engine vector chunk < documentMatchScoreThreshold) → result = (.newRunbook, none)

/-- The suggestion is right where no document covers the topic, and only there. -/
theorem suggestion_right_iff (model : Model) {topic : String}
    (hembed : engine.embedQuery topic = .ok vector) : ∃ result,
      resolveSuggestedAction (model.searching (rational engine) db) organizationId topic = .ok result ∧
        (SuggestsBest engine db organizationId vector result ↔
          ∀ chunk, Documented db organizationId chunk →
            similarity engine vector chunk < documentMatchScoreThreshold) := by
  refine ⟨(.newRunbook, none), resolveSuggestedAction_searching engine db organizationId model hembed, ?_⟩
  constructor
  · intro hbest chunk hchunk
    by_contra hreached
    obtain ⟨best, -, -, hresult⟩ := hbest.covered ⟨chunk, hchunk, not_lt.mp hreached⟩
    cases hresult
  · intro hbelow
    constructor
    · rintro ⟨chunk, hchunk, hreached⟩
      exact absurd (hbelow chunk hchunk) (not_lt.mpr hreached)
    · intro _
      rfl

end Claim

/-! ## A topic and one runbook -/

def echoModel : Model where
  embedTexts texts := .ok (texts.map fun _ => [1])
  ainvoke prompt := .ok prompt
  searchDocumentation _ _ := .ok none

theorem documented_runbook {chunk : Chunk (Rat × Rat)} {embedding : Rat × Rat}
    (h : Documented (indexOf [runbook 1 1 embedding]) 1 chunk) : chunk = runbook 1 1 embedding :=
  List.mem_singleton.mp h.stored

theorem suggestion_right_unrelated : ∃ result,
    resolveSuggestedAction (echoModel.searching (rational planeEngine) (indexOf [runbook 1 1 (0, 1)])) 1
        "restart" = .ok result ∧
      SuggestsBest planeEngine (indexOf [runbook 1 1 (0, 1)]) 1 (1, 0) result := by
  obtain ⟨result, hresult, hiff⟩ := suggestion_right_iff planeEngine (indexOf [runbook 1 1 (0, 1)]) 1
    (1, 0) echoModel (show planeEngine.embedQuery "restart" = .ok (1, 0) from rfl)
  refine ⟨result, hresult, hiff.mpr ?_⟩
  intro chunk hchunk
  rw [documented_runbook hchunk]
  decide +kernel

/-- The runbook has the similarity 0.8, and its score is 1/61 + 1/61. -/
theorem covered_topic_new_runbook : ∃ result,
    resolveSuggestedAction (echoModel.searching (rational planeEngine)
        (indexOf [runbook 1 1 (4 / 5, 3 / 5)])) 1 "restart" = .ok result ∧
      ¬ SuggestsBest planeEngine (indexOf [runbook 1 1 (4 / 5, 3 / 5)]) 1 (1, 0) result := by
  refine ⟨_, resolveSuggestedAction_searching planeEngine _ 1 echoModel rfl, ?_⟩
  intro hbest
  have hdocumented : Documented (indexOf [runbook 1 1 (4 / 5, 3 / 5)]) 1 (runbook 1 1 (4 / 5, 3 / 5)) :=
    ⟨List.mem_singleton_self _, rfl, _, List.mem_singleton_self _, rfl, rfl⟩
  obtain ⟨best, -, -, hresult⟩ := hbest.covered ⟨_, hdocumented, by decide +kernel⟩
  cases hresult

end Ekip.Agents.KnowledgeGap
