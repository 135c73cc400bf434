import Ekip.Core.Incidents.Timeline
import Ekip.Core.Memory.Service
import Ekip.Lib.Transaction

/-!
# What an agent run works on

The exceptions an agent run can end with, the state of its graph, and the session
it shares with the service around it. The graph and the pipelines are operations
on a `Run`: the tables other than `agent_executions`, which none of them writes,
and what the callback handler has seen of the language model.
-/
namespace Ekip.Agents

open Ekip.Lib Ekip.Database Ekip.Shared Ekip.Core

inductive AgentExn
  /-- Raised by a service of the core; a domain error is an `EKIPError`. -/
  | core (error : Exn)
  | costBudgetExceeded (estimatedCostUsd budgetUsd : Rat)
  | serviceUnavailable (message errorCode : String)
  /-- One of `TRANSIENT_LLM_ERRORS`. -/
  | transientLlm (text : String)
  | validationError (text : String)
  /-- A statement that the database refused. -/
  | database (text : String)
  /-- Any statement in a transaction of which an earlier one failed. -/
  | inFailedTransaction
  | other (text : String)
  /-- A `BaseException` that is no `Exception`. -/
  | cancelled

namespace AgentExn

def isEkipError : AgentExn → Bool
  | core (.ekip _) | costBudgetExceeded .. | serviceUnavailable .. => true
  | _ => false

def isTransientLlm : AgentExn → Bool
  | transientLlm _ => true
  | _ => false

/-- What `except Exception` catches. -/
def isException : AgentExn → Bool
  | cancelled => false
  | _ => true

/-- `str(exc)`. -/
def text : AgentExn → String
  | core (.ekip error) => error.message
  | core (.integrityError constraint) => constraint
  | core (.runtimeError message) => message
  | core (.valueError message) => message
  | core (.typeError message) => message
  | core (.keyError key) => key
  | costBudgetExceeded _ _ => "This organization has exceeded its daily AI usage budget. " ++
      "Please try again later or contact your administrator."
  | serviceUnavailable message _ => message
  | transientLlm text => text
  | validationError text => text
  | database text => text
  | inFailedTransaction => "current transaction is aborted, commands ignored until end of " ++
      "transaction block"
  | other text => text
  | cancelled => ""

end AgentExn

/-- The tables of the agents' database, `agent_executions` aside; the tables that no
agent function here names are a value of `κ`. -/
structure PlatformDb (ε κ : Type) extends TimelineDb ε where
  agentMemories : List (AgentMemory ε) := []
  rest : κ

/-- The counts that a provider reports for one model; a count may be missing. -/
structure UsageMetadata where
  inputTokens : Option Nat := none
  outputTokens : Option Nat := none
  totalTokens : Option Nat := none
deriving DecidableEq

/-- What `UsageMetadataCallbackHandler` accumulates, by the name of the model, and
how often the model was called at all. -/
structure LlmUse where
  calls : Nat := 0
  usage : List (String × UsageMetadata) := []
deriving DecidableEq

/-- The session, as the graph sees it. -/
structure Run (σ : Type) extends Transaction σ where
  llm : LlmUse := {}

variable {σ : Type}

def onTransaction {α : Type} (x : Service AgentExn (Transaction σ) α) :
    Service AgentExn (Run σ) α :=
  Service.zoom Run.toTransaction (fun transaction run => { run with toTransaction := transaction }) x

/-- A graph or a pipeline. It may read the executions. -/
abbrev Body (σ α : Type) := List AgentExecutionRow → Service AgentExn (Run σ) α

/-- `agent_executions` beside the other tables. -/
structure AgentTables (σ : Type) where
  shared : σ
  agentExecutions : List AgentExecutionRow := []

/-- An operation of `agents/service.py` on its session. -/
abbrev AgentM (σ α : Type) := Service AgentExn (Transaction (AgentTables σ)) α

/-- One statement of the service itself. -/
def execute {α : Type} (x : Service AgentExn (AgentTables σ) α) : AgentM σ α :=
  Transaction.statement .inFailedTransaction none x

/-- Run `body` under a fresh callback handler, and go on with what it returned or
raised and with what the handler captured. -/
def invoke {α : Type} (body : Body σ α) : AgentM σ (Except AgentExn α × LlmUse) := fun t =>
  let start : Run σ := { tables := t.tables.shared, aborted := t.aborted, issued := t.issued }
  match body t.tables.agentExecutions start with
  | (outcome, run) =>
    (.ok (outcome, run.llm),
      { tables := { t.tables with shared := run.tables }
        aborted := run.aborted
        issued := run.issued })

/-- An operation of a core service in the session of the agent. -/
def inCore {α : Type} (x : Service Exn σ α) : Service AgentExn σ α := fun s =>
  match x s with
  | (.ok a, t) => (.ok a, t)
  | (.error e, t) => (.error (.core e), t)

/-- A domain error is raised between the statements of an operation; any other is that of
a statement that failed. -/
def domainErrors {α : Type} (x : Service AgentExn σ α) : Service AgentExn σ (Except AgentExn α) :=
  fun s =>
    match x s with
    | (.ok a, t) => (.ok (.ok a), t)
    | (.error e, t) => if e.isEkipError then (.ok (.error e), t) else (.error e, t)

/-- The state of the two graphs. -/
structure GraphState (ω : Type) where
  query : String
  incidentId : Option Uuid := none
  actor : Identity
  retrievedChunks : List (Retrieval.ScoredChunk ω) := []
  rewrittenQuery : Option String := none
  recalledMemories : List (Memory.RecalledMemory ω) := []
  confidenceScore : Option Rat := none
  confidenceSignals : List (String × ω) := []
  route : Option Route := none
  evidence : List EvidenceItem := []
  hypotheses : List RootCauseHypothesis := []
  result : Option AskResponse := none

end Ekip.Agents
