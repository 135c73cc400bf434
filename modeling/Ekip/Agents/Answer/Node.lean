import Mathlib.Data.Rat.Floor
import Ekip.Agents.Answer.Markers
import Ekip.Agents.Retry

/-!
# The Answer Agent

`agents/answer/`: `sufficiency.py`, `generation.py`, `grounding.py` and `node.py`.
Components of embeddings and their products are exact fractions here.
-/
namespace Ekip.Agents.Answer

open Ekip.Lib Ekip.Shared Ekip.Core

variable {ε κ ω : Type}

/-- What one attempt calls. The language model answers an evidence block and a task,
under instructions that are fixed for each of its three uses. -/
structure Model where
  assess : String → String → Except Exn String
  generate : String → String → Except Exn String
  /-- Asked of a sentence by its position in the draft: two answers may differ. -/
  supports : Nat → String → String → Except Exn String
  embedTexts : List Text → Except Exn (List (List Rat))

variable (model : Model)

def contextItem (index : Nat) (chunk : Retrieval.ScoredChunk ω) : String :=
  let title := match chunk.title with
    | none | some "" => "untitled"
    | some title => title
  s!"[{index}] ({title}): {chunk.content}"

def buildContextBlock (chunks : List (Retrieval.ScoredChunk ω)) : String :=
  "\n\n".intercalate (chunks.zipIdx.map fun entry => contextItem (entry.2 + 1) entry.1)

/-! ## `sufficiency.py` -/

inductive SufficiencyVerdict
  | sufficient
  | partially
  | insufficient
deriving DecidableEq

def startsWith (text : Text) (start : String) : Bool := start.toList.isPrefixOf text

def verdictOf (candidate : Text) : Option SufficiencyVerdict :=
  if startsWith candidate "sufficient" then some .sufficient
  else if startsWith candidate "partial" then some .partially
  else if startsWith candidate "insufficient" then some .insufficient
  else none

/-- The last line that gives a verdict counts. What cannot be read is no evidence. -/
def parseVerdict (raw : Text) : SufficiencyVerdict :=
  let lines := (Text.splitLines raw).reverse.map fun line => Text.lower (Text.strip line)
  match lines.find? fun line => startsWith line "verdict:" with
  | none => .partially
  | some line => (verdictOf (Text.strip (line.drop "verdict:".length))).getD .partially

def assessSufficiency (query : String) (chunks : List (Retrieval.ScoredChunk ω)) :
    Except Exn SufficiencyVerdict := do
  let response ← model.assess (buildContextBlock chunks) s!"Question: {query}"
  pure (parseVerdict (Text.strip response.toList))

/-! ## `generation.py` -/

def noAnswerMarker : Text := "NO_ANSWER".toList

/-- The memory stays out of the numbering. -/
def answerContext (chunks : List (Retrieval.ScoredChunk ω)) (memoryContext : String) : String :=
  if memoryContext = "" then buildContextBlock chunks
  else memoryContext ++ "\n\n" ++ buildContextBlock chunks

def generateAnswer (query : String) (chunks : List (Retrieval.ScoredChunk ω))
    (memoryContext : String) : Except Exn Text := do
  let response ← model.generate (answerContext chunks memoryContext) s!"Question: {query}"
  pure (Text.strip response.toList)

def isNoAnswer (rawAnswer : Text) : Bool := Text.strip rawAnswer = noAnswerMarker

/-! ## `grounding.py` -/

/-- Inside a sentence, after its last character, or in the white space after it. -/
inductive Place
  | sentence
  | ended
  | between

def endsSentence (c : Char) : Bool := c = '.' || c = '!' || c = '?'

def placeAfter (c : Char) : Place := if endsSentence c then .ended else .sentence

/-- `_SENTENCE_SPLIT_PATTERN.split`; the first part is the rest of the sentence that is
being read. -/
def splitFrom : Place → Text → List Text
  | _, [] => [[]]
  | .sentence, c :: rest => (splitFrom (placeAfter c) rest).modifyHead (c :: ·)
  | .ended, c :: rest =>
    if Text.isSpace c then [] :: splitFrom .between rest
    else (splitFrom (placeAfter c) rest).modifyHead (c :: ·)
  | .between, c :: rest =>
    if Text.isSpace c then splitFrom .between rest
    else (splitFrom (placeAfter c) rest).modifyHead (c :: ·)

def splitSentences (text : Text) : List Text :=
  (splitFrom .sentence (Text.strip text)).filter fun sentence => sentence ≠ []

def groundedThreshold : Rat := 55 / 100
def ungroundedThreshold : Rat := 35 / 100

def dot (a b : List Rat) : Rat := (List.zipWith (· * ·) a b).sum

/-- The vectors are zipped strictly. -/
def cosineSimilarity (a b : List Rat) : Except Exn Rat :=
  if a.length = b.length then .ok (dot a b)
  else .error (.valueError "zip() arguments have different lengths")

def maximum : List Rat → Except Exn Rat
  | [] => .error (.valueError "max() iterable argument is empty")
  | a :: as => .ok (as.foldl max a)

def saysYes (response : String) : Bool := startsWith (Text.lower (Text.strip response.toList)) "y"

def llmGroundingCheck (position : Nat) (sentence : Text) (chunkTexts : List Text) :
    Except Exn Bool := do
  let context := "\n\n".intercalate (chunkTexts.map String.ofList)
  let response ← model.supports position context s!"Claim: {String.ofList sentence}"
  pure (saysYes response)

def isGrounded (chunkTexts : List Text) (chunkEmbeddings : List (List Rat)) (position : Nat)
    (clean : Text) (sentenceEmbedding : List Rat) : Except Exn Bool :=
  if clean = [] then .ok false
  else do
    let similarities ← chunkEmbeddings.mapM (cosineSimilarity sentenceEmbedding)
    let maxSimilarity ← maximum similarities
    if groundedThreshold ≤ maxSimilarity then pure true
    else if maxSimilarity ≤ ungroundedThreshold then pure false
    else llmGroundingCheck model position clean chunkTexts

/-- Sentences and embeddings are zipped strictly. -/
def keepGrounded (chunkTexts : List Text) (chunkEmbeddings : List (List Rat)) :
    Nat → List Text → List (List Rat) → Except Exn (List Text)
  | _, [], [] => .ok []
  | position, sentence :: sentences, embedding :: embeddings => do
    let grounded ← isGrounded model chunkTexts chunkEmbeddings position (stripMarkers sentence)
      embedding
    let rest ← keepGrounded chunkTexts chunkEmbeddings (position + 1) sentences embeddings
    pure (if grounded then sentence :: rest else rest)
  | _, _, _ => .error (.valueError "zip() arguments have different lengths")

def verifyGrounding (sentences : List Text) (chunks : List (Retrieval.ScoredChunk ω)) :
    Except Exn (List Text) :=
  if sentences = [] ∨ chunks.isEmpty then .ok []
  else do
    let chunkTexts := chunks.map fun chunk => chunk.content.toList
    let sentenceEmbeddings ← model.embedTexts (sentences.map stripMarkers)
    let chunkEmbeddings ← model.embedTexts chunkTexts
    keepGrounded model chunkTexts chunkEmbeddings 0 sentences sentenceEmbeddings

/-! ## `node.py` -/

def insufficientGroundingMessage : Text :=
  ("I don't have enough grounded information from the available sources to answer this " ++
    "confidently.").toList

inductive AnswerOutcomeReason
  | sufficiencyInsufficient
  | sufficiencyPartial
  | modelDeclined
  | groundingFailed

def AnswerOutcomeReason.value : AnswerOutcomeReason → String
  | sufficiencyInsufficient => "sufficiency_insufficient"
  | sufficiencyPartial => "sufficiency_partial"
  | modelDeclined => "model_declined"
  | groundingFailed => "grounding_failed"

structure AnswerOutcome where
  mode : AnswerMode
  text : Text
  citations : List Citation
  reason : Option AnswerOutcomeReason

def declined (reason : AnswerOutcomeReason) : AnswerOutcome :=
  { mode := .noAnswer, text := insufficientGroundingMessage, citations := [], reason := some reason }

/-- Citations are read off the surviving sentences before their markers are removed. -/
def groundedOutcome (grounded : List Text) (chunks : List (Retrieval.ScoredChunk ω)) :
    Except Exn AnswerOutcome :=
  if grounded = [] then .ok (declined .groundingFailed)
  else do
    let groundedText := Text.spaced grounded
    let citations ← buildCitations groundedText chunks
    pure { mode := .answered, text := stripMarkers groundedText, citations, reason := none }

def generateAnswerWithOutcome (query : String) (chunks : List (Retrieval.ScoredChunk ω))
    (memoryContext : String) : Except Exn AnswerOutcome := do
  let verdict ← assessSufficiency model query chunks
  if verdict ≠ .sufficient then
    pure (declined (if verdict = .partially then .sufficiencyPartial else .sufficiencyInsufficient))
  else do
    let rawAnswer ← generateAnswer model query chunks memoryContext
    if isNoAnswer rawAnswer then pure (declined .modelDeclined)
    else do
      let grounded ← verifyGrounding model (splitSentences rawAnswer) chunks
      groundedOutcome grounded chunks

/-- A decline is raised, so that it is retried. -/
def generateAndVerify (query : String) (chunks : List (Retrieval.ScoredChunk ω))
    (memoryContext : String) : Except AgentExn (Text × List Citation) := do
  let outcome ← (generateAnswerWithOutcome model query chunks memoryContext).mapError .core
  if outcome.mode = .noAnswer then
    .error (.other ((outcome.reason.map AnswerOutcomeReason.value).getD "declined"))
  else pure (outcome.text, outcome.citations)

/-- The model of each attempt, and the text of the recalled memories. -/
structure Env (ω : Type) where
  attempts : Nat → Model
  formatMemoryContext : List (Memory.RecalledMemory ω) → String

def toResponse (state : GraphState ω) : Option (Text × List Citation) → AskResponse
  | some (text, citations) =>
    { confidence := state.confidenceScore.getD 0
      routeTaken := .answer
      answer := some (String.ofList text)
      answerMode := some .answered
      citations }
  | none =>
    { confidence := state.confidenceScore.getD 0
      routeTaken := .answer
      answer := some (String.ofList insufficientGroundingMessage)
      answerMode := some .noAnswer
      citations := [] }

def answeredQuery (state : GraphState ω) : String :=
  match state.rewrittenQuery with
  | none | some "" => state.query
  | some rewritten => rewritten

/-- Without chunks there is nothing to ground an answer in, and no model is called. -/
def generateGrounded (env : Env ω) (state : GraphState ω) :
    NodeM ε κ (Option (Text × List Citation)) :=
  if state.retrievedChunks.isEmpty then pure none
  else
    orFallback none do
      let answer ← callWithRetry fun attempt => Service.ofExcept
        (generateAndVerify (env.attempts attempt) (answeredQuery state) state.retrievedChunks
          (env.formatMemoryContext state.recalledMemories))
      pure (some answer)

def answerAgentNode (env : Env ω) (state : GraphState ω) : NodeM ε κ (GraphState ω) := do
  let answer ← generateGrounded env state
  pure { state with result := some (toResponse state answer) }

end Ekip.Agents.Answer
