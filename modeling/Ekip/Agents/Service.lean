import Mathlib.Algebra.GroupWithZero.Nat
import Ekip.Agents.Graph
import Mathlib.Data.Rat.Floor

/-!
# Requests to the agents: `agents/repository.py`, `agents/cost_budget.py`, `agents/service.py`
-/
namespace Ekip.Agents

open Ekip.Lib Ekip.Database Ekip.Shared Ekip.Core

/-! ## `agents/repository.py` -/

variable {σ : Type}

/-- What one request draws, and the times it reads: when its transaction began, and
when it asks for the time before and after the run. -/
structure Draw where
  executionId : Uuid
  startedAt : Instant
  checkedAt : Instant
  completedAt : Instant

namespace Repository

def insertAgentExecution (draw : Draw) (organizationId : Uuid) (agentName : String)
    (triggerSource : TriggerSource) (inputSummary : Option InputSummary)
    (userId : Option Uuid := none) : Service AgentExn (AgentTables σ) AgentExecutionRow := do
  let executions ← Service.read AgentTables.agentExecutions
  Service.raiseIf (executions.any fun row => row.id = draw.executionId)
    (.core (.integrityError "agent_executions_pkey"))
  let row : AgentExecutionRow :=
    { id := draw.executionId
      organizationId
      userId
      agentName
      triggerSource
      inputSummary
      startedAt := draw.startedAt }
  Service.write fun db => { db with agentExecutions := db.agentExecutions ++ [row] }
  pure row

def updateAgentExecution (executionId : Uuid) (f : AgentExecutionRow → AgentExecutionRow) :
    Service AgentExn (AgentTables σ) (Option AgentExecutionRow) := do
  let row ← Service.read fun db =>
    Table.get? (fun row : AgentExecutionRow => row.id) db.agentExecutions executionId
  Service.write fun db =>
    { db with
      agentExecutions := Table.updateWhere db.agentExecutions (fun row => row.id = executionId) f }
  pure (row.map f)

def getOrganizationTokenUsageSince (organizationId : Uuid) (since : Instant)
    (executions : List AgentExecutionRow) : Nat × Nat :=
  let counted := executions.filter fun row =>
    row.organizationId = organizationId ∧ since ≤ row.startedAt
  ((counted.map fun row => row.promptTokens.getD 0).sum,
    (counted.map fun row => row.completionTokens.getD 0).sum)

end Repository

end Ekip.Agents

/-!
## `agents/telemetry.py` and `agents/cost_budget.py`

Dollars are exact fractions here.
-/
namespace Ekip.Agents

open Ekip.Lib Ekip.Database Ekip.Shared Ekip.Core

/-! ## Telemetry -/

structure UsageSummary where
  modelUsed : String
  promptTokens : Nat
  completionTokens : Nat
  totalTokens : Nat

/-- Nothing where no usage was captured. -/
def summarizeUsage (usage : List (String × UsageMetadata)) : Option UsageSummary :=
  if usage.isEmpty then none
  else
    some
      { modelUsed := "+".intercalate ((usage.map Prod.fst).mergeSort fun a b => decide (a ≤ b))
        promptTokens := (usage.map fun entry => entry.2.inputTokens.getD 0).sum
        completionTokens := (usage.map fun entry => entry.2.outputTokens.getD 0).sum
        totalTokens := (usage.map fun entry => entry.2.totalTokens.getD 0).sum }

/-- `**summarize_usage(handler)`: an execution without usage keeps its columns. -/
def withUsage (summary : Option UsageSummary) (row : AgentExecutionRow) : AgentExecutionRow :=
  match summary with
  | none => row
  | some usage =>
    { row with
      modelUsed := some usage.modelUsed
      promptTokens := some usage.promptTokens
      completionTokens := some usage.completionTokens
      totalTokens := some usage.totalTokens }

/-- Dollars for a million tokens of the prompt and of the completion. -/
def usdPerMillionTokens : List (String × Rat × Rat) :=
  [("gpt-4o-mini", 15 / 100, 60 / 100),
   ("gpt-4o", 250 / 100, 10),
   ("gpt-4.1-mini", 40 / 100, 160 / 100),
   ("gpt-4.1", 2, 8)]

/-- `round(amount, 6)`: to the nearest, and to the even neighbour from the middle. -/
def roundToMicros (amount : Rat) : Rat :=
  let scaled := amount * 1000000
  let below := scaled.floor
  let rest := scaled - below
  let nearest : Int :=
    if rest < 1 / 2 then below
    else if 1 / 2 < rest then below + 1
    else if below % 2 = 0 then below else below + 1
  nearest / 1000000

def getEstimatedCostUsd (modelUsed : Option String) (promptTokens completionTokens : Option Nat) :
    Option Rat :=
  match modelUsed, promptTokens, completionTokens with
  | some model, some prompt, some completion =>
    if model = "" then none
    else
      (usdPerMillionTokens.lookup model).map fun price =>
        roundToMicros (prompt / 1000000 * price.1 + completion / 1000000 * price.2)
  | _, _, _ => none

/-! ## The budget -/

structure Settings where
  /-- Unset: no budget is enforced. -/
  maxOrganizationCostUsdPerDay : Option Rat := none
  agentLlmModel : String := "gpt-4o-mini"

def budgetWindow : Instant := 24 * 60 * 60 * 1000000

variable {σ : Type}

/-- The usage that is unpriced is never over a budget. -/
def checkCostBudget (settings : Settings) (now : Instant) (organizationId : Uuid) :
    AgentM σ Unit :=
  match settings.maxOrganizationCostUsdPerDay with
  | none => pure ()
  | some budget => do
    let tokens ← execute (Service.read fun db =>
      Repository.getOrganizationTokenUsageSince organizationId (now - budgetWindow)
        db.agentExecutions)
    match getEstimatedCostUsd (some settings.agentLlmModel) (some tokens.1) (some tokens.2) with
    | none => pure ()
    | some cost => Service.raiseIf (budget ≤ cost) (.costBudgetExceeded cost budget)

end Ekip.Agents

/-!
## `agents/service.py`: the entry points that record their run

An entry point checks the budget, inserts its row as `running`, runs its graph or
pipeline, and updates the row. What a graph or a pipeline does is a parameter.
-/
namespace Ekip.Agents

open Ekip.Lib Ekip.Database Ekip.Shared Ekip.Core

def genericFailureMessage : String :=
  "Something went wrong while processing this request. This has been logged."

variable {σ ω : Type} (settings : Settings) (draw : Draw)

/-- What `GraphState.model_validate` makes of what the graph returned. -/
def FinalState (ω : Type) : Type := Except String (GraphState ω)

def degradedResponse (fallbackRoute : Route) : AskResponse :=
  { confidence := 0, routeTaken := fallbackRoute, answer := some genericFailureMessage }

/-- `str(exc)[:2000]`. -/
def errorDetail (text : String) : String := String.ofList (text.toList.take 2000)

def markFailed (llm : LlmUse) (error : String) : AgentM σ Unit := do
  let _ ← execute (Repository.updateAgentExecution draw.executionId fun row =>
    withUsage (summarizeUsage llm.usage)
      { row with
        status := .failed
        errorDetail := some error
        completedAt := some draw.completedAt })

def markSucceeded (llm : LlmUse) (confidenceScore : Option Rat := none) : AgentM σ Unit := do
  let _ ← execute (Repository.updateAgentExecution draw.executionId fun row =>
    withUsage (summarizeUsage llm.usage)
      { row with
        status := .succeeded
        confidenceScore := confidenceScore.or row.confidenceScore
        completedAt := some draw.completedAt })

/-- A domain error is recorded and raised again; any other exception, and a graph
without a result, becomes a degraded answer. -/
def settleGraph (fallbackRoute : Route) (llm : LlmUse) :
    Except AgentExn (FinalState ω) → AgentM σ AskResponse
  | .error e =>
    if e.isEkipError then do
      markFailed draw llm (errorDetail e.text)
      Service.raise e
    else if e.isException then do
      markFailed draw llm (errorDetail e.text)
      pure (degradedResponse fallbackRoute)
    else Service.raise e
  | .ok (.error text) => Service.raise (.validationError text)
  | .ok (.ok finalState) =>
    match finalState.result with
    | none => do
      markFailed draw llm "graph completed with no result"
      pure (degradedResponse fallbackRoute)
    | some result => do
      markSucceeded draw llm finalState.confidenceScore
      pure result

/-- What every run begins with. -/
def openExecution (organizationId : Uuid) (agentName : String) (triggerSource : TriggerSource)
    (inputSummary : InputSummary) (userId : Option Uuid := none) : AgentM σ Unit := do
  checkCostBudget settings draw.checkedAt organizationId
  let _ ← execute (Repository.insertAgentExecution draw organizationId agentName triggerSource
    (some inputSummary) userId)

def openGraph (agentName : String) (triggerSource : TriggerSource) (inputSummary : InputSummary)
    (actor : Identity) : AgentM σ Unit :=
  openExecution settings draw actor.organizationId agentName triggerSource inputSummary actor.userId

def runGraphAndRecord (agentName : String) (triggerSource : TriggerSource)
    (inputSummary : InputSummary) (graph : GraphState ω → Body σ (FinalState ω))
    (initialState : GraphState ω) (fallbackRoute : Route) : AgentM σ AskResponse := do
  openGraph settings draw agentName triggerSource inputSummary initialState.actor
  let (outcome, llm) ← invoke (graph initialState)
  settleGraph draw fallbackRoute llm outcome

/-- `recall_relevant` in its `try`: a failure is no memory. -/
def recalledOrNone (recalling : Body σ (List (Memory.RecalledMemory ω))) :
    AgentM σ (List (Memory.RecalledMemory ω)) := do
  let (outcome, _) ← invoke recalling
  match outcome with
  | .ok recalled => pure recalled
  | .error e => if e.isException then pure [] else Service.raise e

def answerQuestion (recalling : Body σ (List (Memory.RecalledMemory ω)))
    (graph : GraphState ω → Body σ (FinalState ω)) (query : String) (incidentId : Option Uuid)
    (actor : Identity) (triggerSource : TriggerSource := .coreApi) : AgentM σ AskResponse := do
  let recalled ← recalledOrNone recalling
  runGraphAndRecord settings draw "answer_question" triggerSource
    (.question query incidentId recalled.length) graph
    { query, incidentId, actor, recalledMemories := recalled } .answer

section Incidents

variable {ε κ : Type}

/-- An operation on the incidents, as statements of the agent's session. -/
def onTimeline {α : Type} (x : Incidents.TimelineM ε α) :
    Service AgentExn (PlatformDb ε κ) α :=
  Service.zoom PlatformDb.toTimelineDb (fun timeline db => { db with toTimelineDb := timeline })
    (inCore x)

/-- An operation on the tables other than `agent_executions`. -/
def onShared {α : Type} (x : Service AgentExn σ α) : Service AgentExn (AgentTables σ) α :=
  Service.zoom AgentTables.shared (fun shared db => { db with shared }) x

def readIncident (actor : Identity) (incidentId : Uuid) :
    Service AgentExn (PlatformDb ε κ) (Except AgentExn IncidentRow) :=
  domainErrors (onTimeline (Incidents.onIncidents
    (Incidents.getIncident actor actor.organizationId incidentId)))

def triageIncident (graph : GraphState ω → Body (PlatformDb ε κ) (FinalState ω))
    (incidentId : Uuid) (actor : Identity) (triggerSource : TriggerSource := .coreApi) :
    AgentM (PlatformDb ε κ) AskResponse := do
  let incident ← execute (onShared (readIncident actor incidentId))
  let incident ← Service.ofExcept incident
  runGraphAndRecord settings draw "triage_incident" triggerSource (.incident incidentId) graph
    { query := incident.title ++ "\n\n" ++ incident.description
      incidentId := some incidentId
      actor } .investigation

def llmUnavailable : AgentExn :=
  .serviceUnavailable
    ("The language model provider is temporarily unavailable; postmortem generation could not " ++
      "complete. Retry shortly.")
    "agents.llm_unavailable"

/-- Nothing is made up: a failure is recorded and raised. -/
def settlePostmortem {α : Type} (llm : LlmUse) : Except AgentExn α → AgentM σ α
  | .error e =>
    if e.isTransientLlm then do
      markFailed draw llm (errorDetail e.text)
      Service.raise llmUnavailable
    else if e.isException then do
      markFailed draw llm (errorDetail e.text)
      Service.raise e
    else Service.raise e
  | .ok a => do
    markSucceeded draw llm
    pure a

/-- The pipeline gets the timeline and the language model, and no session. -/
def postmortemBody (pipeline : List TimelineEntry → Service AgentExn LlmUse (String × List ActionItem))
    (incidentId : Uuid) (actor : Identity) : Body (PlatformDb ε κ) (String × List ActionItem) :=
  fun _ => do
    let entries ← onTransaction (Transaction.statement .inFailedTransaction none
      (domainErrors (onTimeline
        (Incidents.getTimeline actor actor.organizationId incidentId))))
    let entries ← Service.ofExcept entries
    Service.zoom Run.llm (fun llm run => { run with llm }) (pipeline entries)

def generatePostmortem
    (pipeline : List TimelineEntry → Service AgentExn LlmUse (String × List ActionItem))
    (incidentId : Uuid) (actor : Identity) (triggerSource : TriggerSource := .coreApi) :
    AgentM (PlatformDb ε κ) (String × List ActionItem) := do
  openExecution settings draw actor.organizationId "generate_postmortem" triggerSource
    (.incident incidentId)
  let (outcome, llm) ← invoke (postmortemBody pipeline incidentId actor)
  settlePostmortem draw llm outcome

end Incidents

def settleKnowledgeGaps {α : Type} (llm : LlmUse) : Except AgentExn α → AgentM σ α
  | .error e =>
    if e.isException then do
      markFailed draw llm (errorDetail e.text)
      Service.raise e
    else Service.raise e
  | .ok a => do
    markSucceeded draw llm
    pure a

def detectKnowledgeGaps {α : Type} (pipeline : Body σ α) (actor : Identity)
    (triggerSource : TriggerSource := .scheduled) : AgentM σ α := do
  openExecution settings draw actor.organizationId "detect_knowledge_gaps" triggerSource
    (.organization actor.organizationId)
  let (outcome, llm) ← invoke pipeline
  settleKnowledgeGaps draw llm outcome

end Ekip.Agents
