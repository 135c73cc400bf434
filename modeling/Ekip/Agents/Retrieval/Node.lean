import Ekip.Agents.Retry
import Ekip.Agents.Searches
import Ekip.Agents.Service

/-!
# Recalling memory, and the Retrieval Agent node

`recall_relevant` of `core/memory/service.py`, `agents/retrieval/rewriting.py` and
`agents/retrieval/node.py`, statement by statement.
-/
namespace Ekip.Agents

open Ekip.Lib Ekip.Database Ekip.Shared Ekip.Core

variable {ε κ τ ω : Type}

/-! ## Recall -/

structure RecallEnv (ε ω : Type) where
  engine : Memory.Engine ε ω
  settings : Memory.Settings ω
  now : Instant

def onMemories {α : Type} (x : Memory.MemoryM ε α) : Service AgentExn (PlatformDb ε κ) α :=
  Service.zoom PlatformDb.agentMemories (fun memories db => { db with agentMemories := memories })
    (inCore x)

variable (env : RecallEnv ε ω) (faults : Faults AgentExn)

/-- Bookkeeping must not fail a question. -/
def touchRecalled (selected : List (Memory.RecalledMemory ω)) : NodeM ε κ Unit :=
  if selected.isEmpty then pure ()
  else
    orFallback () do
      let _ ← fallible faults (onMemories
        (Memory.Repository.touchLastAccessed (selected.map Memory.RecalledMemory.id) env.now))

def recallRelevant (actor : Identity) (query : String) :
    NodeM ε κ (List (Memory.RecalledMemory ω)) :=
  if env.settings.memoryRecallLimit ≤ 0 then pure []
  else do
    let queryVector ← answered (env.engine.embedQuery query)
    let candidates ← fallibleRead faults fun db =>
      Memory.Repository.recall_ actor.organizationId actor.userId (Memory.allowedProjectIds actor)
        env.engine queryVector env.settings.memoryRecallLimit db.agentMemories
    let selected := Memory.selectRelevant env.engine env.settings candidates 0
    touchRecalled env faults selected
    pure selected

/-! ## The node -/

/-- What the node calls outside the database. `embedQuery` takes the name under which
`call_with_retry` runs and the number of the attempt. -/
structure RetrievalEnv (ε τ ω : Type) where
  engine : Retrieval.Engine ε τ ω
  embedQuery : String → Nat → String → Except Exn ε
  expandAbbreviations : String → String
  looksVague : String → Bool
  /-- The model's rewriting, after the retries. -/
  rewrite : String → Option String → Except Exn String
  /-- Narrows and reranks; or the order of the fusion. -/
  rerank : String → List (Retrieval.ScoredChunk ω) → Except String (List (Retrieval.ScoredChunk ω))
  assembleContext : List (Retrieval.ScoredChunk ω) → List (Retrieval.ScoredChunk ω)

variable (retrieval : RetrievalEnv ε τ ω)

/-- A bad or foreign incident is the caller's error and is raised. -/
def describeIncident (actor : Identity) : Option Uuid → NodeM ε κ (Option String)
  | none => pure none
  | some incidentId => do
    let incident ← statement (readIncident actor incidentId)
    let incident ← Service.ofExcept incident
    pure (some incident.description)

def rewriteQuery (query : String) (incidentId : Option Uuid) (actor : Identity) :
    NodeM ε κ String := do
  let query := retrieval.expandAbbreviations query
  let incidentDescription ← describeIncident actor incidentId
  if incidentId = none ∧ retrieval.looksVague query = false then pure query
  else do
    let rewritten ← orFallback query (answered (retrieval.rewrite query incidentDescription))
    pure (if rewritten = "" then query else rewritten)

/-- A search that is exhausted is no result. -/
def hybridResult (name : String) (rewrittenQuery : String) (actor : Identity) (topK : Int)
    (collection : Option CollectionName) : NodeM ε κ (Option (Retrieval.HybridSearchResult ω)) :=
  orFallback none do
    let result ← callWithRetry fun attempt =>
      searchSignals retrieval.engine faults (retrieval.embedQuery name attempt rewrittenQuery)
        rewrittenQuery (actorFilters actor) topK collection
    pure (some result)

/-- Only where the question is about an incident. -/
def historicalSimilarity (rewrittenQuery : String) (actor : Identity) (incidentId : Option Uuid) :
    NodeM ε κ (List (String × ω)) :=
  if incidentId = none then pure []
  else do
    let result ← hybridResult faults retrieval "retrieval_agent.historical_similarity_search"
      rewrittenQuery actor historicalSimilarityTopK (some .incidents)
    pure ((result.bind Retrieval.HybridSearchResult.topDenseSimilarity).elim [] fun similarity =>
      [("historical_similarity", similarity)])

def retrievalAgentNode (state : GraphState ω) : NodeM ε κ (GraphState ω) := do
  let rewrittenQuery ← rewriteQuery retrieval state.query state.incidentId state.actor
  let hybrid ← hybridResult faults retrieval "retrieval_agent.hybrid_search" rewrittenQuery
    state.actor candidatePoolSize none
  let candidates := hybrid.elim [] Retrieval.HybridSearchResult.chunks
  let topSimilarity := (hybrid.bind Retrieval.HybridSearchResult.topDenseSimilarity).getD
    retrieval.engine.zero
  let narrowed ← Service.ofExcept ((retrieval.rerank rewrittenQuery candidates).mapError .other)
  let historical ← historicalSimilarity faults retrieval rewrittenQuery state.actor state.incidentId
  pure
    { state with
      retrievedChunks := retrieval.assembleContext narrowed
      rewrittenQuery := some rewrittenQuery
      confidenceSignals := ("top_similarity", topSimilarity) :: historical }

end Ekip.Agents
