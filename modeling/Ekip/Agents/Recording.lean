import Ekip.Agents.Service

/-!
# How a run is recorded

What the statements around a run return, and which outcomes of a run its entry
point keeps: those it records and returns with. What it records before it raises
is rolled back with the rest.
-/
namespace Ekip.Agents

open Ekip.Lib Ekip.Database Ekip.Shared

variable {σ α β ω ε κ : Type} {settings : Settings} {draw : Draw}

/-! ## What the statements return -/

section Statements

variable {t u : Transaction (AgentTables σ)} {organizationId : Uuid} {agentName : String}
  {triggerSource : TriggerSource} {inputSummary : InputSummary} {userId : Option Uuid}
  {llm : LlmUse}

theorem execute_returns {x : Service AgentExn (AgentTables σ) α} {a : α} :
    (execute x).Returns t a u ↔
      t.aborted = false ∧ ∃ tables, x.Returns t.tables a tables ∧ u = { t with tables } :=
  Transaction.statement_returns

/-- The check writes nothing. -/
theorem checkCostBudget_returns {now : Instant} {done : Unit}
    (h : (checkCostBudget settings now organizationId).Returns t done u) : u = t := by
  unfold checkCostBudget at h
  split at h
  · exact (Service.pure_returns.mp h).2.symm
  · rename_i budget _
    simp only [Service.bind_returns, execute_returns, Service.read_returns] at h
    obtain ⟨tokens, _, ⟨-, _, ⟨-, rfl⟩, rfl⟩, h⟩ := h
    split at h
    · exact (Service.pure_returns.mp h).2.symm
    · exact (Service.raiseIf_returns.mp h).2.symm

/-- The row of a run that is going on. -/
def openRow (draw : Draw) (organizationId : Uuid) (agentName : String)
    (triggerSource : TriggerSource) (inputSummary : Option InputSummary) (userId : Option Uuid) :
    AgentExecutionRow :=
  { id := draw.executionId
    organizationId
    userId
    agentName
    triggerSource
    inputSummary
    startedAt := draw.startedAt }

theorem insertAgentExecution_returns {db db' : AgentTables σ} {row : AgentExecutionRow}
    {summary : Option InputSummary}
    (h : (Repository.insertAgentExecution draw organizationId agentName triggerSource summary
      userId).Returns db row db') :
    (∀ other ∈ db.agentExecutions, other.id ≠ draw.executionId) ∧
      db' = { db with
        agentExecutions := db.agentExecutions ++
          [openRow draw organizationId agentName triggerSource summary userId] } := by
  simp only [Repository.insertAgentExecution, Service.bind_returns, Service.read_returns,
    Service.raiseIf_returns, Service.write_returns, Service.pure_returns] at h
  obtain ⟨_, _, ⟨rfl, rfl⟩, _, _, ⟨hfresh, rfl⟩, _, _, rfl, -, rfl⟩ := h
  refine ⟨?_, rfl⟩
  intro other hother heq
  have hany : (db.agentExecutions.any fun row => decide (row.id = draw.executionId)) = true :=
    List.any_eq_true.mpr ⟨other, hother, decide_eq_true heq⟩
  rw [hany] at hfresh
  cases hfresh

/-- A run is opened in a healthy transaction, under an id that no execution has. -/
theorem openExecution_returns {done : Unit}
    (h : (openExecution settings draw organizationId agentName triggerSource inputSummary
      userId).Returns t done u) :
    t.aborted = false ∧ (∀ other ∈ t.tables.agentExecutions, other.id ≠ draw.executionId) ∧
      u.tables.agentExecutions = t.tables.agentExecutions ++
        [openRow draw organizationId agentName triggerSource (some inputSummary) userId] := by
  simp only [openExecution, Service.bind_returns, execute_returns, Service.pure_returns] at h
  obtain ⟨_, _, hcheck, row, _, ⟨habort, tables, hinsert, rfl⟩, h⟩ := h
  obtain rfl := checkCostBudget_returns hcheck
  obtain ⟨hfresh, rfl⟩ := insertAgentExecution_returns hinsert
  obtain ⟨-, rfl⟩ := h
  exact ⟨habort, hfresh, rfl⟩

/-- The graph leaves the executions alone. -/
theorem invoke_returns {body : Body σ α} {result : Except AgentExn α × LlmUse}
    (h : (invoke body).Returns t result u) :
    u.tables.agentExecutions = t.tables.agentExecutions := by
  unfold Service.Returns invoke at h
  simp only [Prod.mk.injEq] at h
  rw [← h.2]

/-- What a row keeps, and what it holds once its run is over. -/
structure Settled (draw : Draw) (llm : LlmUse) (row row' : AgentExecutionRow) : Prop where
  id : row'.id = row.id
  organizationId : row'.organizationId = row.organizationId
  startedAt : row'.startedAt = row.startedAt
  ended : row'.status = .succeeded ∨ row'.status = .failed
  completedAt : row'.completedAt = some draw.completedAt
  promptTokens : row'.promptTokens =
    ((summarizeUsage llm.usage).map UsageSummary.promptTokens).or row.promptTokens
  completionTokens : row'.completionTokens =
    ((summarizeUsage llm.usage).map UsageSummary.completionTokens).or row.completionTokens
  totalTokens : row'.totalTokens =
    ((summarizeUsage llm.usage).map UsageSummary.totalTokens).or row.totalTokens

/-- The columns of the usage are the last ones written. -/
theorem settled_withUsage {row row' : AgentExecutionRow} (hid : row'.id = row.id)
    (horg : row'.organizationId = row.organizationId) (hstarted : row'.startedAt = row.startedAt)
    (hended : row'.status = .succeeded ∨ row'.status = .failed)
    (hcompleted : row'.completedAt = some draw.completedAt)
    (hprompt : row'.promptTokens = row.promptTokens)
    (hcompletion : row'.completionTokens = row.completionTokens)
    (htotal : row'.totalTokens = row.totalTokens) :
    Settled draw llm row (withUsage (summarizeUsage llm.usage) row') := by
  cases h : summarizeUsage llm.usage with
  | none =>
    exact ⟨hid, horg, hstarted, hended, hcompleted, by simp [h, withUsage, hprompt],
      by simp [h, withUsage, hcompletion], by simp [h, withUsage, htotal]⟩
  | some usage =>
    exact ⟨hid, horg, hstarted, hended, hcompleted, by simp [h, withUsage],
      by simp [h, withUsage], by simp [h, withUsage]⟩

/-- The update of a row that settles it. -/
def SettlesRow (draw : Draw) (llm : LlmUse) (t u : Transaction (AgentTables σ)) : Prop :=
  ∃ f : AgentExecutionRow → AgentExecutionRow, (∀ row, Settled draw llm row (f row)) ∧
    u = { t with
      tables :=
        { t.tables with
          agentExecutions := Table.updateWhere t.tables.agentExecutions
            (fun row => row.id = draw.executionId) f } }

theorem updateAgentExecution_returns (db : AgentTables σ) (executionId : Uuid)
    (f : AgentExecutionRow → AgentExecutionRow) :
    ∃ row, (Repository.updateAgentExecution executionId f).Returns db row
      { db with
        agentExecutions :=
          Table.updateWhere db.agentExecutions (fun row => row.id = executionId) f } :=
  ⟨_, rfl⟩

/-- One update of the run's row, in a healthy transaction. -/
theorem settlesRow_of_update {f : AgentExecutionRow → AgentExecutionRow}
    (hf : ∀ row, Settled draw llm row (f row)) (habort : t.aborted = false) :
    ∃ row u, (execute (Repository.updateAgentExecution draw.executionId f)).Returns t row u ∧
      SettlesRow draw llm t u := by
  obtain ⟨row, hupdate⟩ := updateAgentExecution_returns t.tables draw.executionId f
  exact ⟨row, _, execute_returns.mpr ⟨habort, _, hupdate, rfl⟩, f, hf, rfl⟩

theorem markFailed_settles (error : String) (habort : t.aborted = false) :
    ∃ u, (markFailed draw llm error).Returns t () u ∧ SettlesRow draw llm t u := by
  have hf : ∀ row, Settled draw llm row (withUsage (summarizeUsage llm.usage)
      { row with
        status := .failed
        errorDetail := some error
        completedAt := some draw.completedAt }) :=
    fun row => settled_withUsage rfl rfl rfl (.inr rfl) rfl rfl rfl rfl
  obtain ⟨row, u, hu, hsettles⟩ := settlesRow_of_update hf habort
  refine ⟨u, ?_, hsettles⟩
  unfold markFailed
  exact Service.bind_returns.mpr ⟨row, u, hu, Service.pure_returns.mpr ⟨rfl, rfl⟩⟩

theorem markSucceeded_settles (confidenceScore : Option Rat) (habort : t.aborted = false) :
    ∃ u, (markSucceeded draw llm confidenceScore).Returns t () u ∧ SettlesRow draw llm t u := by
  have hf : ∀ row, Settled draw llm row (withUsage (summarizeUsage llm.usage)
      { row with
        status := .succeeded
        confidenceScore := confidenceScore.or row.confidenceScore
        completedAt := some draw.completedAt }) :=
    fun row => settled_withUsage rfl rfl rfl (.inl rfl) rfl rfl rfl rfl
  obtain ⟨row, u, hu, hsettles⟩ := settlesRow_of_update hf habort
  refine ⟨u, ?_, hsettles⟩
  unfold markSucceeded
  exact Service.bind_returns.mpr ⟨row, u, hu, Service.pure_returns.mpr ⟨rfl, rfl⟩⟩

/-- In an aborted transaction the outcome cannot be recorded. -/
theorem markFailed_of_aborted {error : String} {done : Unit} (habort : t.aborted = true) :
    ¬ (markFailed draw llm error).Returns t done u := by
  intro h
  simp only [markFailed, Service.bind_returns, execute_returns, habort] at h
  obtain ⟨_, _, ⟨hhealthy, -⟩, -⟩ := h
  cases hhealthy

theorem markSucceeded_of_aborted {confidenceScore : Option Rat} {done : Unit}
    (habort : t.aborted = true) :
    ¬ (markSucceeded draw llm confidenceScore).Returns t done u := by
  intro h
  simp only [markSucceeded, Service.bind_returns, execute_returns, habort] at h
  obtain ⟨_, _, ⟨hhealthy, -⟩, -⟩ := h
  cases hhealthy

end Statements

/-! ## Which outcomes are kept -/

/-- A graph's outcome that becomes an answer, degraded or not. -/
def keptGraph : Except AgentExn (FinalState ω) → Bool
  | .error e => !e.isEkipError && e.isException
  | .ok (.error _) => false
  | .ok (.ok _) => true

/-- The pipelines' failures are all raised. -/
def keptPipeline : Except AgentExn α → Bool
  | .error _ => false
  | .ok _ => true

/-- An outcome that is kept, in a healthy transaction, is recorded and returned; no
other outcome is returned. -/
structure Settles (draw : Draw) (kept : Except AgentExn α → Bool)
    (settle : LlmUse → Except AgentExn α → AgentM σ β) : Prop where
  recorded : ∀ llm outcome t, kept outcome = true → t.aborted = false →
    ∃ b u, (settle llm outcome).Returns t b u ∧ SettlesRow draw llm t u
  raised : ∀ llm outcome t, kept outcome = false ∨ t.aborted = true →
    ∀ b u, ¬ (settle llm outcome).Returns t b u

section Settling

variable {t u : Transaction (AgentTables σ)} {llm : LlmUse} {error : String} {b : β}

theorem markFailed_then_raise {e : AgentExn} :
    ¬ (do
        markFailed draw llm error
        Service.raise e : AgentM σ β).Returns t b u := by
  intro h
  obtain ⟨_, _, -, hraise⟩ := Service.bind_returns.mp h
  exact Service.raise_returns hraise

theorem markFailed_then_return (habort : t.aborted = false) :
    ∃ b' u, (do
        markFailed draw llm error
        pure b : AgentM σ β).Returns t b' u ∧ SettlesRow draw llm t u := by
  obtain ⟨u, hmark, hsettles⟩ := markFailed_settles error habort
  exact ⟨b, u, Service.bind_returns.mpr ⟨(), u, hmark, Service.pure_returns.mpr ⟨rfl, rfl⟩⟩, hsettles⟩

theorem markSucceeded_then_return {confidenceScore : Option Rat} (habort : t.aborted = false) :
    ∃ b' u, (do
        markSucceeded draw llm confidenceScore
        pure b : AgentM σ β).Returns t b' u ∧ SettlesRow draw llm t u := by
  obtain ⟨u, hmark, hsettles⟩ := markSucceeded_settles confidenceScore habort
  exact ⟨b, u, Service.bind_returns.mpr ⟨(), u, hmark, Service.pure_returns.mpr ⟨rfl, rfl⟩⟩, hsettles⟩

theorem not_return_of_aborted_failed {b' : β} (habort : t.aborted = true) :
    ¬ (do
        markFailed draw llm error
        pure b : AgentM σ β).Returns t b' u := by
  intro h
  obtain ⟨_, _, hmark, -⟩ := Service.bind_returns.mp h
  exact markFailed_of_aborted habort hmark

theorem not_return_of_aborted_succeeded {confidenceScore : Option Rat} {b' : β}
    (habort : t.aborted = true) :
    ¬ (do
        markSucceeded draw llm confidenceScore
        pure b : AgentM σ β).Returns t b' u := by
  intro h
  obtain ⟨_, _, hmark, -⟩ := Service.bind_returns.mp h
  exact markSucceeded_of_aborted habort hmark

end Settling

theorem settleGraph_settles (fallbackRoute : Route) :
    Settles (σ := σ) draw (keptGraph (ω := ω)) (settleGraph draw fallbackRoute) := by
  constructor
  · intro llm outcome t hkept habort
    cases outcome with
    | error e =>
      simp only [keptGraph, Bool.and_eq_true, Bool.not_eq_true'] at hkept
      rw [settleGraph, if_neg (by simp [hkept.1]), if_pos hkept.2]
      exact markFailed_then_return habort
    | ok final =>
      cases final with
      | error text => cases hkept
      | ok finalState =>
        rw [settleGraph]
        cases finalState.result with
        | none => exact markFailed_then_return habort
        | some result => exact markSucceeded_then_return habort
  · intro llm outcome t hcase b u h
    cases outcome with
    | error e =>
      rw [settleGraph] at h
      split at h
      · exact markFailed_then_raise h
      · rename_i hekip
        split at h
        · rename_i hexception
          rcases hcase with hkept | habort
          · simp [keptGraph, hekip, hexception] at hkept
          · exact not_return_of_aborted_failed habort h
        · exact Service.raise_returns h
    | ok final =>
      cases final with
      | error text => exact Service.raise_returns h
      | ok finalState =>
        have habort : t.aborted = true := by
          rcases hcase with hkept | habort
          · cases hkept
          · exact habort
        rw [settleGraph] at h
        cases hresult : finalState.result with
        | none =>
          rw [hresult] at h
          exact not_return_of_aborted_failed habort h
        | some result =>
          rw [hresult] at h
          exact not_return_of_aborted_succeeded habort h

/-- Both pipelines: a success is recorded and every failure raised. -/
theorem settles_of_pipeline {settle : LlmUse → Except AgentExn α → AgentM σ α}
    (hok : ∀ llm a, settle llm (.ok a) = do
      markSucceeded draw llm
      pure a)
    (herror : ∀ llm e t b u, ¬ (settle llm (.error e)).Returns t b u) :
    Settles draw keptPipeline settle := by
  constructor
  · intro llm outcome t hkept habort
    cases outcome with
    | error e => cases hkept
    | ok a =>
      rw [hok]
      exact markSucceeded_then_return habort
  · intro llm outcome t hcase b u h
    cases outcome with
    | error e => exact herror llm e t b u h
    | ok a =>
      rcases hcase with hkept | habort
      · cases hkept
      · rw [hok] at h
        exact not_return_of_aborted_succeeded habort h

theorem settlePostmortem_settles :
    Settles (σ := σ) draw keptPipeline (settlePostmortem draw (α := α)) := by
  apply settles_of_pipeline
  · intro llm a
    rfl
  · intro llm e t b u h
    rw [settlePostmortem] at h
    split at h
    · exact markFailed_then_raise h
    · split at h
      · exact markFailed_then_raise h
      · exact Service.raise_returns h

theorem settleKnowledgeGaps_settles :
    Settles (σ := σ) draw keptPipeline (settleKnowledgeGaps draw (α := α)) := by
  apply settles_of_pipeline
  · intro llm a
    rfl
  · intro llm e t b u h
    rw [settleKnowledgeGaps] at h
    split at h
    · exact markFailed_then_raise h
    · exact Service.raise_returns h

end Ekip.Agents
