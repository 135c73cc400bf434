import Ekip.Evaluation.Schemas
import Ekip.Retrieval.Store
import Mathlib.Algebra.Ring.Rat
import Mathlib.Data.Finset.Sort
import Mathlib.Data.String.Basic

/-!
# The deterministic metrics: `evaluation/metrics`

The metrics of a ranking are exact; `none` is not applicable.
-/
namespace Ekip.Evaluation

open Ekip.Lib Ekip.Shared Ekip.Database

/-!
## Grounding checks: `evaluation/metrics/grounding.py`

Substrings of normalized texts.
-/

section Checks

variable (lower : Text → Text)

def checkRequiredConcepts (text : String) (requiredConcepts : List String) : List String :=
  requiredConcepts.filter fun concept =>
    decide (¬ normalizeText lower concept <:+: normalizeText lower text)

def checkForbiddenConcepts (text : String) (forbiddenConcepts : List String) : List String :=
  forbiddenConcepts.filter fun concept =>
    decide (normalizeText lower concept <:+: normalizeText lower text)

/-- The items of the dictionary, where a concept that is named twice is one key. -/
def conceptsTraceableToEvidence (requiredConcepts evidenceTexts : List String) :
    List (String × Bool) :=
  requiredConcepts.eraseDups.map fun concept =>
    (concept, evidenceTexts.any fun evidence =>
      decide (normalizeText lower concept <:+: normalizeText lower evidence))

structure CitationCheckResult where
  countSatisfied : Bool
  unresolvedCitations : List String
  unsupportedCitations : List String

def checkCitations (citations : List Citation) (retrievedChunkIds : List Uuid)
    (retrievedChunkContents : Dict Uuid String) (expectation : CitationExpectation) :
    CitationCheckResult :=
  let unresolved := citations.filter fun citation => decide (citation.chunkId ∉ retrievedChunkIds)
  let unsupported := citations.filter fun citation =>
    decide (citation.chunkId ∈ retrievedChunkIds) && expectation.mustSupportAnswer &&
      decide (¬ normalizeText lower citation.excerpt <:+:
        normalizeText lower ((retrievedChunkContents.lookup citation.chunkId).getD ""))
  { countSatisfied := decide (expectation.minimum ≤ citations.length)
    unresolvedCitations := unresolved.map fun citation => toString citation.chunkId
    unsupportedCitations := unsupported.map fun citation => toString citation.chunkId }

end Checks

section Contents

variable {ω : Type} {chunks : List (Retrieval.ScoredChunk ω)} {chunk : Retrieval.ScoredChunk ω}

/-- The dictionary of the contents by their ids; of two chunks with one id the last counts. -/
def chunkContents (chunks : List (Retrieval.ScoredChunk ω)) : Dict Uuid String :=
  chunks.foldl (fun contents chunk => contents.insert chunk.chunkId chunk.content) ∅

theorem lookup_later {id : Uuid} (h : ∀ chunk ∈ chunks, chunk.chunkId ≠ id)
    (contents : Dict Uuid String) :
    (chunks.foldl (fun contents chunk => contents.insert chunk.chunkId chunk.content) contents).lookup
      id = contents.lookup id := by
  induction chunks generalizing contents with
  | nil => rfl
  | cons chunk chunks ih =>
    rw [List.foldl_cons, ih fun later hlater => h later (List.mem_cons_of_mem _ hlater)]
    exact AList.lookup_insert_ne (h chunk List.mem_cons_self).symm

theorem lookup_chunkContents (hids : (chunks.map Retrieval.ScoredChunk.chunkId).Nodup)
    (hchunk : chunk ∈ chunks) : (chunkContents chunks).lookup chunk.chunkId = some chunk.content := by
  unfold chunkContents
  generalize (∅ : Dict Uuid String) = contents
  induction chunks generalizing contents with
  | nil => exact absurd hchunk List.not_mem_nil
  | cons first chunks ih =>
    rw [List.map_cons, List.nodup_cons] at hids
    rw [List.foldl_cons]
    rcases List.mem_cons.mp hchunk with rfl | hlater
    · rw [lookup_later]
      · exact AList.lookup_insert _
      · intro later hlater hsame
        exact hids.1 (List.mem_map.mpr ⟨later, hlater, hsame⟩)
    · exact ih hids.2 hlater _

end Contents

/-!
## Rank-aware retrieval metrics: `evaluation/metrics/retrieval.py`

The metrics are exact; `none` is not applicable.
-/

section Retrieved

variable (retrievedIds : List String) (relevantIds : Finset String)

def topK (k : Int) : Except RunError (List String) :=
  if k ≤ 0 then .error (.valueError s!"k must be positive, got {k}")
  else .ok (retrievedIds.take k.toNat)

def recallAtK (k : Int) : Except RunError (Option Rat) :=
  if relevantIds = ∅ then .ok none
  else do
    let found := (← topK retrievedIds k).toFinset ∩ relevantIds
    pure (some ((found.card : Rat) / relevantIds.card))

def precisionAtK (k : Int) : Except RunError (Option Rat) := do
  let top ← topK retrievedIds k
  if top = [] then pure none
  else
    let found := top.countP fun docId => docId ∈ relevantIds
    pure (some ((found : Rat) / top.length))

def meanReciprocalRank : Option Rat :=
  if relevantIds = ∅ then none
  else match retrievedIds.findIdx? fun docId => docId ∈ relevantIds with
    | some rank => some (1 / ((rank : Rat) + 1))
    | none => some 0

def relevantDocumentCoverage : Option Rat :=
  if relevantIds = ∅ then none
  else
    let found := retrievedIds.toFinset ∩ relevantIds
    some ((found.card : Rat) / relevantIds.card)

end Retrieved

/-- The mean of the applicable values. -/
def meanOf (values : List (Option Rat)) : Option Rat :=
  let applicable := values.filterMap id
  if applicable = [] then none else some (applicable.sum / applicable.length)

/-! ## Investigation metrics: `evaluation/metrics/investigation.py` -/

def evidenceCoverage (gatheredEvidence : List EvidenceItem) (requiredEvidenceIds : List String) :
    Option Rat :=
  relevantDocumentCoverage (gatheredEvidence.map EvidenceItem.reference) requiredEvidenceIds.toFinset

structure HypothesisMatchResult where
  expected : ExpectedHypothesis
  matched : Bool
  matchedHypothesis : Option RootCauseHypothesis
  supportSatisfied : Bool

def HypothesisMatchResult.passed (self : HypothesisMatchResult) : Bool :=
  self.matched && self.supportSatisfied

/-- The first hypothesis that mentions the concept is the one that counts. -/
def matchExpectedHypotheses (lower : Text → Text) (produced : List RootCauseHypothesis)
    (expected : List ExpectedHypothesis) : List HypothesisMatchResult :=
  expected.map fun expectation =>
    match produced.find? fun hypothesis => decide (normalizeText lower expectation.concept <:+:
        normalizeText lower hypothesis.description) with
    | none =>
      { expected := expectation, matched := false, matchedHypothesis := none,
        supportSatisfied := false }
    | some hypothesis =>
      let supportCount := expectation.requiredEvidenceIds.countP fun evidenceId =>
        evidenceId ∈ hypothesis.supportingEvidenceIds
      { expected := expectation, matched := true, matchedHypothesis := some hypothesis,
        supportSatisfied := decide (expectation.minimumSupport ≤ supportCount) }

def findUnsupportedHypotheses (produced : List RootCauseHypothesis)
    (gatheredEvidence : List EvidenceItem) : List RootCauseHypothesis :=
  produced.filter fun hypothesis =>
    hypothesis.supportingEvidenceIds.all fun evidenceId =>
      decide (evidenceId ∉ gatheredEvidence.map EvidenceItem.reference)

/-! ## Assertions on the text of an answer: `evaluation/assertions/answer.py` -/

open Ekip.Core

structure AssertionResult where
  passed : Bool
  reason : String

/-- The scorer of similarities, and `re.search`, which may refuse the pattern with a text. -/
structure AssertionTools where
  similarity : String → String → Except Exn Rat
  search : String → String → Except String Bool

def defaultSemanticSimilarityThreshold : Rat := 1 / 2

section Assertions

variable (lower : Text → Text) (shown : Rendering) (answer : String)

def exactMatch (expected : String) : AssertionResult :=
  let passed := decide (normalizeText lower answer = normalizeText lower expected)
  { passed
    reason := if passed then "exact match" else "expected exactly " ++ shown.quoted expected }

def contains (expected : String) : AssertionResult :=
  let passed := decide (normalizeText lower expected <:+: normalizeText lower answer)
  { passed
    reason := if passed then "found" else "missing expected text " ++ shown.quoted expected }

def containsAny (expected : List String) : AssertionResult :=
  let passed := expected.any fun item =>
    decide (normalizeText lower item <:+: normalizeText lower answer)
  { passed
    reason := if passed then "found at least one" else "none of " ++ shown.names expected ++ " found" }

def containsAll (expected : List String) : AssertionResult :=
  let missing := expected.filter fun item =>
    decide (¬ normalizeText lower item <:+: normalizeText lower answer)
  { passed := missing.isEmpty
    reason := if missing.isEmpty then "all found" else "missing " ++ shown.names missing }

def forbiddenContent (forbidden : String) : AssertionResult :=
  let present := decide (normalizeText lower forbidden <:+: normalizeText lower answer)
  { passed := !present
    reason := if present then "forbidden text " ++ shown.quoted forbidden ++ " present" else "clean" }

variable (tools : AssertionTools)

def regexMatch (pattern : String) : AssertionResult :=
  match tools.search pattern answer with
  | .error message =>
    { passed := false, reason := "invalid regex " ++ shown.quoted pattern ++ ": " ++ message }
  | .ok matched =>
    { passed := matched
      reason := if matched then "matched" else "no match for pattern " ++ shown.quoted pattern }

def semanticSimilarity (expected : String) (threshold : Option Rat) :
    Except RunError AssertionResult := do
  let effectiveThreshold := threshold.getD defaultSemanticSimilarityThreshold
  let score ← (tools.similarity answer expected).mapError RunError.adapter
  pure { passed := decide (effectiveThreshold ≤ score)
         reason := "similarity=" ++ shown.fixed3 score ++ " threshold=" ++
           shown.fixed3 effectiveThreshold }

def evaluateAssertion : AnswerAssertion → Except RunError AssertionResult
  | .exactMatch value => .ok (exactMatch lower shown answer value)
  | .contains value => .ok (contains lower shown answer value)
  | .containsAny value => .ok (containsAny lower shown answer value)
  | .containsAll value => .ok (containsAll lower shown answer value)
  | .forbiddenContent value => .ok (forbiddenContent lower shown answer value)
  | .regex value => .ok (regexMatch shown answer tools value)
  | .semanticSimilarity value threshold => semanticSimilarity shown answer tools value threshold

def evaluateAll (assertions : List AnswerAssertion) :
    Except RunError (List (AnswerAssertion × AssertionResult)) :=
  assertions.mapM fun assertion => do
    let result ← evaluateAssertion lower shown answer tools assertion
    pure (assertion, result)

end Assertions

/-- The type, the value, and what was found, for a message. -/
def AnswerAssertion.shownWith (shown : Rendering) (reason : String) : AnswerAssertion → String
  | .exactMatch value => "exact_match=" ++ shown.quoted value ++ ": " ++ reason
  | .contains value => "contains=" ++ shown.quoted value ++ ": " ++ reason
  | .containsAny value => "contains_any=" ++ shown.names value ++ ": " ++ reason
  | .containsAll value => "contains_all=" ++ shown.names value ++ ": " ++ reason
  | .forbiddenContent value => "forbidden_content=" ++ shown.quoted value ++ ": " ++ reason
  | .regex value => "regex=" ++ shown.quoted value ++ ": " ++ reason
  | .semanticSimilarity value _ => "semantic_similarity=" ++ shown.quoted value ++ ": " ++ reason

end Ekip.Evaluation
