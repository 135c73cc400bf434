import Ekip.Retrieval.Service

/-!
# What the agents search the index for

The searches of `agents/service.py`, `agents/retrieval/node.py` and
`agents/investigation/evidence.py`. A search that fails for good is skipped: it
contributes nothing.
-/
namespace Ekip.Agents

open Ekip.Lib Ekip.Database Ekip.Shared Ekip.Core Ekip.Retrieval

variable {ε τ ω : Type} (engine : Engine ε τ ω)

/-! ## `agents/service.py` -/

/-- The filters name the organization alone. -/
def searchSimilarIncidents (description : String) (actor : Identity) (topK : Int)
    (db : ContentDb ε) : Except Exn (List (ScoredChunk ω)) :=
  search engine description { organizationId := actor.organizationId } topK (some .incidents) true db

/-! ## `agents/retrieval/node.py` -/

def candidatePoolSize : Int := 24

def historicalSimilarityTopK : Int := 5

def actorFilters (actor : Identity) : SearchFilters :=
  { organizationId := actor.organizationId, permissionCodes := actor.permissions }

def hybridSearch (rewrittenQuery : String) (actor : Identity) (db : ContentDb ε) :
    Option (HybridSearchResult ω) :=
  (searchWithSignals engine rewrittenQuery (actorFilters actor) candidatePoolSize none db).toOption

/-- Only where the question is about an incident; the similarity of the best hit
becomes a confidence signal. -/
def historicalSimilaritySearch (rewrittenQuery : String) (actor : Identity) (db : ContentDb ε) :
    Option (HybridSearchResult ω) :=
  (searchWithSignals engine rewrittenQuery (actorFilters actor) historicalSimilarityTopK
    (some .incidents) db).toOption

/-! ## `agents/investigation/evidence.py` -/

def evidenceCap : Nat := 10

def perSourceTopK : Int := 5

/-- The chunk was ingested from GitHub. -/
def hasRepo (chunk : ScoredChunk ω) : Bool := ((chunk.metadata.lookup "repo").filter (· ≠ "")).isSome

/-- Code, and what GitHub keeps beside it, best first. -/
def combined (le : ω → ω → Bool) (found : List (ScoredChunk ω) × List (ScoredChunk ω)) :
    List (ScoredChunk ω) :=
  Query.sliceTo perSourceTopK
    (Query.orderBy (fun a b => le b a) ScoredChunk.score (found.1 ++ found.2.filter hasRepo))

/-- Documentation that is not GitHub's. -/
def runbooks (chunks : List (ScoredChunk ω)) : List (ScoredChunk ω) :=
  chunks.filter fun chunk => !hasRepo chunk

def searchEvidence (query : String) (filters : SearchFilters) (collection : CollectionName)
    (includeMetadata : Bool) (db : ContentDb ε) : Except Exn (List (ScoredChunk ω)) :=
  search engine query filters perSourceTopK (some collection) includeMetadata db

def searchCodeAndDocumentation (query : String) (filters : SearchFilters) (db : ContentDb ε) :
    Except Exn (List (ScoredChunk ω) × List (ScoredChunk ω)) := do
  let codeChunks ← searchEvidence engine query filters .code true db
  let docChunks ← searchEvidence engine query filters .documentation true db
  pure (codeChunks, docChunks)

def gatherCodeEvidence (query : String) (filters : SearchFilters) (db : ContentDb ε) :
    List (ScoredChunk ω) :=
  match searchCodeAndDocumentation engine query filters db with
  | .error _ => []
  | .ok found => combined engine.le found

def gatherKnowledgeEvidence (query : String) (filters : SearchFilters) (db : ContentDb ε) :
    List (ScoredChunk ω) :=
  match searchEvidence engine query filters .documentation true db with
  | .error _ => []
  | .ok chunks => runbooks chunks

def gatherSlackEvidence (query : String) (filters : SearchFilters) (db : ContentDb ε) :
    List (ScoredChunk ω) :=
  match searchEvidence engine query filters .conversations false db with
  | .error _ => []
  | .ok chunks => chunks

/-- A source is asked only as long as there is not enough. -/
def unlessEnough (evidence more : List (ScoredChunk ω)) : List (ScoredChunk ω) :=
  if evidence.length < evidenceCap then evidence ++ more else evidence

/-- The chunks among the evidence; what comes after them is made of postmortems and
of live answers. -/
def gatherEvidence (query : String) (actor : Identity) (db : ContentDb ε) : List (ScoredChunk ω) :=
  let filters := actorFilters actor
  let code := gatherCodeEvidence engine query filters db
  let knowledge := unlessEnough code (gatherKnowledgeEvidence engine query filters db)
  let slack := unlessEnough knowledge (gatherSlackEvidence engine query filters db)
  slack.take evidenceCap

/-! ## Which collections they reach -/

variable {engine} {query : String} {filters : SearchFilters} {db : ContentDb ε}

/-- A search that is not skipped succeeded. -/
theorem ok_of_toOption {α : Type} {r : Except Exn α} {a : α} (h : r.toOption = some a) :
    r = .ok a := by
  cases r with
  | error e => cases h
  | ok b => rw [Option.some.inj h]

theorem mem_combined {le : ω → ω → Bool} {found : List (ScoredChunk ω) × List (ScoredChunk ω)}
    {c : ScoredChunk ω} (h : c ∈ combined le found) : c ∈ found.1 ∨ c ∈ found.2 ∧ hasRepo c = true :=
  (List.mem_append.mp (Query.mem_orderBy.mp (Query.mem_of_mem_sliceTo h))).imp_right List.mem_filter.mp

theorem mem_unlessEnough {evidence more : List (ScoredChunk ω)} {c : ScoredChunk ω}
    (h : c ∈ unlessEnough evidence more) : c ∈ evidence ∨ c ∈ more := by
  unfold unlessEnough at h
  split at h
  · exact List.mem_append.mp h
  · exact .inl h

/-- A chunk of the evidence was found in a collection other than the incidents. -/
theorem mem_gatherEvidence {actor : Identity} {c : ScoredChunk ω}
    (h : c ∈ gatherEvidence engine query actor db) :
    ∃ collection ≠ CollectionName.incidents, ∃ includeMetadata chunks,
      searchEvidence engine query (actorFilters actor) collection includeMetadata db = .ok chunks ∧
        c ∈ chunks := by
  have hmem := List.mem_of_mem_take h
  rcases mem_unlessEnough hmem with hearlier | hslack
  · rcases mem_unlessEnough hearlier with hcode | hknowledge
    · unfold gatherCodeEvidence at hcode
      split at hcode
      · cases hcode
      · rename_i found hsearch
        obtain ⟨codeChunks, hfound, hrest⟩ := Query.bind_ok.mp hsearch
        obtain ⟨docChunks, hdocs, hpair⟩ := Query.bind_ok.mp hrest
        cases hpair
        rcases mem_combined hcode with hc | ⟨hc, -⟩
        · exact ⟨.code, by decide, true, codeChunks, hfound, hc⟩
        · exact ⟨.documentation, by decide, true, docChunks, hdocs, hc⟩
    · unfold gatherKnowledgeEvidence at hknowledge
      split at hknowledge
      · cases hknowledge
      · rename_i chunks hsearch
        exact ⟨.documentation, by decide, true, chunks, hsearch, (List.mem_filter.mp hknowledge).1⟩
  · unfold gatherSlackEvidence at hslack
    split at hslack
    · cases hslack
    · rename_i chunks hsearch
      exact ⟨.conversations, by decide, false, chunks, hsearch, hslack⟩

end Ekip.Agents
