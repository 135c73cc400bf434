import Ekip.Agents.Graph
import Ekip.Lib.Faults

/-!
# `agents/retry.py`, and searching statement by statement

A node of a graph works on the request's session. Its reads are the statements of
which some may fail; each search is made of one statement for each list of chunks,
and one more where the metadata of the chunks is loaded too.
-/
namespace Ekip.Agents

open Ekip.Lib Ekip.Database Ekip.Core

variable {ε κ τ ω α : Type}

abbrev NodeM (ε κ α : Type) := Service AgentExn (Run (PlatformDb ε κ)) α

/-! ## Retries -/

/-- `_MAX_RETRIES`. -/
def maxRetries : Nat := 2

/-- Attempts are numbered from 0. The last one's exception is raised. -/
def callWithRetry (operation : Nat → NodeM ε κ α) (remaining : Nat := maxRetries) : NodeM ε κ α :=
  match remaining with
  | 0 => operation maxRetries
  | remaining + 1 => do
    let outcome ← Service.attempt (operation (maxRetries - (remaining + 1)))
    match outcome with
    | .ok a => pure a
    | .error e => if e.isException then callWithRetry operation remaining else Service.raise e

/-- `try: x`, and `except Exception` goes on with `fallback`. -/
def orFallback (fallback : α) (x : NodeM ε κ α) : NodeM ε κ α := do
  let outcome ← Service.attempt x
  match outcome with
  | .ok a => pure a
  | .error e => if e.isException then pure fallback else Service.raise e

section OrFallback

variable {x : NodeM ε κ α} {fallback a : α} {e : AgentExn} {run u : Run (PlatformDb ε κ)}

theorem orFallback_of_ok (hx : x run = (.ok a, u)) : orFallback fallback x run = (.ok a, u) := by
  have hattempt : Service.attempt x run = (.ok (.ok a), u) := Service.attempt_returns.mpr hx
  unfold orFallback
  rw [Service.bind_of_ok hattempt]
  rfl

/-- What is caught leaves the session as it was when it was raised. -/
theorem orFallback_of_error (hx : x run = (.error e, u)) (he : e.isException = true) :
    orFallback fallback x run = (.ok fallback, u) := by
  have hattempt : Service.attempt x run = (.ok (.error e), u) := Service.attempt_returns.mpr hx
  unfold orFallback
  rw [Service.bind_of_ok hattempt]
  exact congrFun (if_pos he) u

end OrFallback

/-! ## Statements -/

/-- A statement of a step whose failure is caught. -/
def fallible (faults : Faults AgentExn) (x : Service AgentExn (PlatformDb ε κ) α) : NodeM ε κ α :=
  onTransaction (Transaction.fallible .inFailedTransaction faults x)

/-- A statement of any other step. -/
def statement (x : Service AgentExn (PlatformDb ε κ) α) : NodeM ε κ α :=
  onTransaction (Transaction.statement .inFailedTransaction none x)

/-- What a call outside the database answered. -/
def answered (r : Except Exn α) : NodeM ε κ α := Service.ofExcept (r.mapError .core)

def fallibleRead (faults : Faults AgentExn) (f : PlatformDb ε κ → Except Exn α) : NodeM ε κ α := do
  let answer ← fallible faults (Service.read f)
  answered answer

/-- The chunks, then their metadata. -/
def readChunks (faults : Faults AgentExn) (includeMetadata : Bool)
    (f : PlatformDb ε κ → Except Exn (List (Retrieval.ScoredChunk ω))) :
    NodeM ε κ (List (Retrieval.ScoredChunk ω)) := do
  let chunks ← fallibleRead faults f
  if includeMetadata ∧ chunks ≠ [] then do
    fallible faults (pure ())
    pure chunks
  else pure chunks

/-! ## `retrieval/service.py`, as statements -/

variable (engine : Retrieval.Engine ε τ ω) (faults : Faults AgentExn)

def readDense (collection : CollectionName) (queryEmbedding : ε) (filters : Retrieval.SearchFilters)
    (topK : Int) (includeMetadata : Bool) : NodeM ε κ (List (Retrieval.ScoredChunk ω)) :=
  readChunks faults includeMetadata fun db =>
    Retrieval.PgVectorStore.search engine collection queryEmbedding filters topK includeMetadata
      db.toContentDb

def readLexical (collection : CollectionName) (query : String) (filters : Retrieval.SearchFilters)
    (topK : Int) (includeMetadata : Bool) : NodeM ε κ (List (Retrieval.ScoredChunk ω)) :=
  readChunks faults includeMetadata fun db =>
    Retrieval.PgVectorStore.lexicalSearch engine collection query filters topK includeMetadata
      db.toContentDb

/-- `search`, of one collection; `embedded` is what `embed_query` answers. -/
def searchOne (embedded : Except Exn ε) (query : String) (filters : Retrieval.SearchFilters)
    (topK : Int) (collection : CollectionName) (includeMetadata : Bool) :
    NodeM ε κ (List (Retrieval.ScoredChunk ω)) := do
  let queryEmbedding ← answered embedded
  let dense ← readDense engine faults collection queryEmbedding filters topK includeMetadata
  let lexical ← readLexical engine faults collection query filters topK includeMetadata
  pure (Retrieval.reciprocalRankFusion engine [dense, lexical] topK)

def readSignalLists (query : String) (queryEmbedding : ε) (filters : Retrieval.SearchFilters)
    (topK : Int) : Option CollectionName →
    NodeM ε κ (List (Retrieval.ScoredChunk ω) × List (Retrieval.ScoredChunk ω))
  | none => do
    let dense ← fallibleRead faults fun db =>
      Retrieval.PgVectorStore.searchAll engine queryEmbedding filters topK db.toContentDb
    let lexical ← fallibleRead faults fun db =>
      Retrieval.PgVectorStore.lexicalSearchAll engine query filters topK db.toContentDb
    pure (dense, lexical)
  | some collection => do
    let dense ← readDense engine faults collection queryEmbedding filters topK false
    let lexical ← readLexical engine faults collection query filters topK false
    pure (dense, lexical)

def searchSignals (embedded : Except Exn ε) (query : String) (filters : Retrieval.SearchFilters)
    (topK : Int) (collection : Option CollectionName) :
    NodeM ε κ (Retrieval.HybridSearchResult ω) := do
  let queryEmbedding ← answered embedded
  let lists ← readSignalLists engine faults query queryEmbedding filters topK collection
  pure
    { chunks := Retrieval.reciprocalRankFusion engine [lists.1, lists.2] topK
      topDenseSimilarity := lists.1.head?.map Retrieval.ScoredChunk.score }

end Ekip.Agents
