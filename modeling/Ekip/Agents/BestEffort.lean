import Ekip.Agents.NodeFaults
import Ekip.Agents.Recording

/-!
# A best-effort step that fails

Recall, the searches and the evidence sources catch what they raise, and go on in
the transaction that the failed statement has aborted. No step of the request opens
a savepoint, so the statements that record the run are refused.
-/
namespace Ekip.Agents

open Ekip.Lib Ekip.Database Ekip.Shared Ekip.Core

variable {ε κ τ ω α : Type}

/-! ## The two graphs -/

structure GraphEnv (ε κ τ ω : Type) where
  retrieval : RetrievalEnv ε τ ω
  evaluateConfidence : GraphState ω → GraphState ω
  /-- The Answer Agent node: it works on no session, and declines rather than raises. -/
  answerAgent : GraphState ω → AskResponse
  investigation : Investigation.Env ε κ τ ω
  /-- What the callback handler has seen once the graph is done. -/
  llmUse : LlmUse := {}

variable (env : GraphEnv ε κ τ ω) (faults : Faults AgentExn) (entry : Investigation.Draw)

def captureLlmUse : NodeM ε κ Unit := Service.write fun run => { run with llm := env.llmUse }

def answerOrInvestigate (state : GraphState ω) : NodeM ε κ (GraphState ω) :=
  if state.route = some .answer then pure { state with result := some (env.answerAgent state) }
  else Investigation.investigationAgentNode env.investigation faults entry state

/-- `build_graph`. -/
def answerGraph (initialState : GraphState ω) : Body (PlatformDb ε κ) (FinalState ω) := fun _ => do
  captureLlmUse env
  let state ← retrievalAgentNode faults env.retrieval initialState
  let state ← answerOrInvestigate env faults entry (env.evaluateConfidence state)
  pure (.ok state)

/-- `build_investigation_graph`. -/
def investigationGraph (initialState : GraphState ω) : Body (PlatformDb ε κ) (FinalState ω) :=
  fun _ => do
    captureLlmUse env
    let state ← Investigation.investigationAgentNode env.investigation faults entry initialState
    pure (.ok state)

variable (recalling : RecallEnv ε ω) (settings : Settings) (draw : Draw)

/-- `answer_question`, where `faults` says which statements of its best-effort steps fail. -/
def answerQuestionUnder (query : String) (incidentId : Option Uuid) (actor : Identity)
    (triggerSource : TriggerSource) : AgentM (PlatformDb ε κ) AskResponse :=
  answerQuestion settings draw (fun _ => recallRelevant recalling faults actor query)
    (answerGraph env faults entry) query incidentId actor triggerSource

/-- `triage_incident`, likewise. -/
def triageIncidentUnder (incidentId : Uuid) (actor : Identity) (triggerSource : TriggerSource) :
    AgentM (PlatformDb ε κ) AskResponse :=
  triageIncident settings draw (investigationGraph env faults entry) incidentId actor triggerSource

/-! ## The requests under a choice of failing statements -/

section Faulty

variable {σ : Type}

abbrev FaultyRequest (P : Faults AgentExn → AgentM σ α) : Prop := Faulty Transaction.status P

theorem execute_faulty (x : Service AgentExn (AgentTables σ) α) : FaultyRequest fun _ => execute x :=
  .statement _ x

theorem checkCostBudget_faulty (now : Instant) (organizationId : Uuid) :
    FaultyRequest (σ := σ) fun _ => checkCostBudget settings now organizationId := by
  unfold checkCostBudget
  split
  · exact .pure ()
  · apply Faulty.bind (execute_faulty _)
    intro tokens
    split
    · exact .pure ()
    · exact .quiet fun _ => by
        unfold Service.raiseIf
        split <;> rfl

theorem openExecution_faulty (organizationId : Uuid) (agentName : String)
    (triggerSource : TriggerSource) (inputSummary : InputSummary) (userId : Option Uuid) :
    FaultyRequest (σ := σ) fun _ =>
      openExecution settings draw organizationId agentName triggerSource inputSummary userId :=
  .bind (checkCostBudget_faulty settings _ _) fun _ => .bind (execute_faulty _) fun _ => .pure ()

/-- A graph hands its transaction back as it leaves it. -/
theorem invoke_faulty {body : Faults AgentExn → Body σ α}
    (hbody : ∀ executions, Faulty Run.status fun faults => body faults executions) :
    FaultyRequest fun faults => invoke (body faults) := by
  apply Faulty.pointwise
  intro t
  -- at `t` the graph reads the executions of `t`
  refine ⟨_, (hbody t.tables.agentExecutions).through
    (fun t => { tables := t.tables.shared, aborted := t.aborted, issued := t.issued })
    (fun t r => (.ok (r.1, r.2.llm),
      { tables := { t.tables with shared := r.2.tables }
        aborted := r.2.aborted
        issued := r.2.issued })) (fun _ => rfl) (fun _ _ => rfl), ?_⟩
  intro faults
  rfl

theorem markFailed_faulty (llm : LlmUse) (error : String) :
    FaultyRequest (σ := σ) fun _ => markFailed draw llm error :=
  .bind (execute_faulty _) fun _ => .pure ()

theorem markSucceeded_faulty (llm : LlmUse) (confidenceScore : Option Rat) :
    FaultyRequest (σ := σ) fun _ => markSucceeded draw llm confidenceScore :=
  .bind (execute_faulty _) fun _ => .pure ()

theorem settleGraph_faulty (fallbackRoute : Route) (llm : LlmUse)
    (outcome : Except AgentExn (FinalState ω)) :
    FaultyRequest (σ := σ) fun _ => settleGraph draw fallbackRoute llm outcome := by
  cases outcome with
  | error e =>
    exact .ite (.bind (markFailed_faulty draw _ _) fun _ => .raise e)
      (.ite (.bind (markFailed_faulty draw _ _) fun _ => .pure _) (.raise e))
  | ok final =>
    cases final with
    | error text => exact .raise _
    | ok finalState =>
      simp only [settleGraph]
      cases finalState.result with
      | none => exact .bind (markFailed_faulty draw _ _) fun _ => .pure _
      | some result => exact .bind (markSucceeded_faulty draw _ _) fun _ => .pure _

theorem runGraphAndRecord_faulty {graph : Faults AgentExn → GraphState ω → Body σ (FinalState ω)}
    (hgraph : ∀ state executions, Faulty Run.status fun faults => graph faults state executions)
    (agentName : String) (triggerSource : TriggerSource) (inputSummary : InputSummary)
    (initialState : GraphState ω) (fallbackRoute : Route) :
    FaultyRequest fun faults => runGraphAndRecord settings draw agentName triggerSource inputSummary
      (graph faults) initialState fallbackRoute :=
  .bind (openExecution_faulty settings draw _ _ _ _ _) fun _ =>
    .bind (invoke_faulty (hgraph _)) fun _ => settleGraph_faulty draw _ _ _

theorem captureLlmUse_faulty : FaultyNode fun _ => captureLlmUse (ε := ε) env :=
  .quiet fun _ => rfl

theorem answerGraph_faulty (state : GraphState ω) (executions : List AgentExecutionRow) :
    Faulty Run.status fun faults => answerGraph env faults entry state executions := by
  refine .bind (captureLlmUse_faulty env) fun _ =>
    .bind (retrievalAgentNode_faulty env.retrieval _) fun _ => .bind ?_ fun _ => .pure _
  exact .ite (.pure _) (investigationAgentNode_faulty env.investigation entry _)

theorem investigationGraph_faulty (state : GraphState ω) (executions : List AgentExecutionRow) :
    Faulty Run.status fun faults => investigationGraph env faults entry state executions :=
  .bind (captureLlmUse_faulty env) fun _ =>
    .bind (investigationAgentNode_faulty env.investigation entry _) fun _ => .pure _

theorem answerQuestionUnder_faulty (query : String) (incidentId : Option Uuid) (actor : Identity)
    (triggerSource : TriggerSource) :
    FaultyRequest fun faults => answerQuestionUnder env faults entry recalling settings draw query
      incidentId actor triggerSource := by
  refine .bind (.bind (invoke_faulty fun _ => recallRelevant_faulty recalling actor query) ?_) fun _ =>
    runGraphAndRecord_faulty settings draw (answerGraph_faulty env entry) _ _ _ _ _
  intro result
  obtain ⟨outcome, llm⟩ := result
  cases outcome with
  | ok recalled => exact .pure recalled
  | error e => exact .ite (.pure _) (.raise e)

theorem triageIncidentUnder_faulty (incidentId : Uuid) (actor : Identity)
    (triggerSource : TriggerSource) :
    FaultyRequest fun faults => triageIncidentUnder env faults entry settings draw incidentId actor
      triggerSource :=
  .bind (execute_faulty _) fun _ => .bind (.ofExcept _) fun _ =>
    runGraphAndRecord_faulty settings draw (investigationGraph_faulty env entry) _ _ _ _ _

end Faulty

/-! ## What returns has recorded its run -/

section Recorded

variable {σ : Type} {settings : Settings} {draw : Draw} {t u : Transaction (AgentTables σ)}
  {b : AskResponse}

/-- An answer is returned in a healthy transaction only. -/
theorem settleGraph_returns {fallbackRoute : Route} {llm : LlmUse}
    {outcome : Except AgentExn (FinalState ω)}
    (h : (settleGraph draw fallbackRoute llm outcome).Returns t b u) :
    keptGraph outcome = true ∧ t.aborted = false ∧ u.aborted = false := by
  have hsettles : Settles (σ := σ) draw (keptGraph (ω := ω)) (settleGraph draw fallbackRoute) :=
    settleGraph_settles fallbackRoute
  have hkept : keptGraph outcome = true := by
    cases hk : keptGraph outcome with
    | true => rfl
    | false => exact absurd h (hsettles.raised llm outcome t (.inl hk) b u)
  have habort : t.aborted = false := by
    cases ha : t.aborted with
    | false => rfl
    | true => exact absurd h (hsettles.raised llm outcome t (.inr ha) b u)
  obtain ⟨b', u', hreturns, f, -, hu⟩ := hsettles.recorded llm outcome t hkept habort
  obtain ⟨-, rfl⟩ := h.unique hreturns
  refine ⟨hkept, habort, ?_⟩
  rw [hu]
  exact habort

theorem runGraphAndRecord_returns {agentName : String} {triggerSource : TriggerSource}
    {inputSummary : InputSummary} {graph : GraphState ω → Body σ (FinalState ω)}
    {initialState : GraphState ω} {fallbackRoute : Route}
    (h : (runGraphAndRecord settings draw agentName triggerSource inputSummary graph initialState
      fallbackRoute).Returns t b u) :
    u.aborted = false := by
  unfold runGraphAndRecord at h
  obtain ⟨_, v, -, h⟩ := Service.bind_returns.mp h
  obtain ⟨⟨outcome, llm⟩, w, -, hsettle⟩ := Service.bind_returns.mp h
  exact (settleGraph_returns hsettle).2.2

theorem answerQuestion_returns {recalling : Body σ (List (Memory.RecalledMemory ω))}
    {graph : GraphState ω → Body σ (FinalState ω)} {query : String} {incidentId : Option Uuid}
    {actor : Identity} {triggerSource : TriggerSource}
    (h : (answerQuestion settings draw recalling graph query incidentId actor triggerSource).Returns
      t b u) : u.aborted = false := by
  obtain ⟨_, v, -, hrun⟩ := Service.bind_returns.mp h
  exact runGraphAndRecord_returns hrun

theorem triageIncident_returns {t u : Transaction (AgentTables (PlatformDb ε κ))}
    {graph : GraphState ω → Body (PlatformDb ε κ) (FinalState ω)} {incidentId : Uuid}
    {actor : Identity} {triggerSource : TriggerSource}
    (h : (triageIncident settings draw graph incidentId actor triggerSource).Returns t b u) :
    u.aborted = false := by
  obtain ⟨_, _, -, h⟩ := Service.bind_returns.mp h
  obtain ⟨_, _, -, hrun⟩ := Service.bind_returns.mp h
  exact runGraphAndRecord_returns hrun

end Recorded

/-! ## Without a failing statement -/

/-- The tokens of the last day cost less than the budget, where both are known. -/
def WithinBudget (settings : Settings) (now : Instant) (organizationId : Uuid)
    (executions : List AgentExecutionRow) : Prop :=
  let tokens := Repository.getOrganizationTokenUsageSince organizationId (now - budgetWindow) executions
  ∀ budget, settings.maxOrganizationCostUsdPerDay = some budget →
    ∀ cost, getEstimatedCostUsd (some settings.agentLlmModel) (some tokens.1) (some tokens.2) =
      some cost → cost < budget

section Recorded

variable {σ : Type} {settings : Settings} {draw : Draw} {t : Transaction (AgentTables σ)}

theorem checkCostBudget_iff {now : Instant} {organizationId : Uuid} (habort : t.aborted = false) :
    (checkCostBudget settings now organizationId).Returns t () t ↔
      WithinBudget settings now organizationId t.tables.agentExecutions := by
  unfold checkCostBudget WithinBudget
  cases settings.maxOrganizationCostUsdPerDay with
  | none => simp
  | some budget =>
    have hread : execute (Service.read fun db : AgentTables σ =>
        Repository.getOrganizationTokenUsageSince organizationId (now - budgetWindow)
          db.agentExecutions) t =
        (.ok (Repository.getOrganizationTokenUsageSince organizationId (now - budgetWindow)
          t.tables.agentExecutions), t) :=
      execute_returns.mpr ⟨habort, t.tables, Service.read_returns.mpr ⟨rfl, rfl⟩, rfl⟩
    unfold Service.Returns
    dsimp only
    rw [Service.bind_of_ok hread]
    cases hcost : getEstimatedCostUsd (some settings.agentLlmModel)
      (some (Repository.getOrganizationTokenUsageSince organizationId (now - budgetWindow)
        t.tables.agentExecutions).1)
      (some (Repository.getOrganizationTokenUsageSince organizationId (now - budgetWindow)
        t.tables.agentExecutions).2) with
    | none => simp [pure]
    | some cost =>
      have hraise := Service.raiseIf_returns (s := t) (t := t) (u := ()) (c := decide (budget ≤ cost))
        (e := AgentExn.costBudgetExceeded cost budget)
      unfold Service.Returns at hraise
      rw [hraise]
      simp

variable {organizationId : Uuid} (agentName : String) (triggerSource : TriggerSource)
  (inputSummary : InputSummary)

theorem openExecution_withinBudget {agentName : String} {triggerSource : TriggerSource}
    {inputSummary : InputSummary} {userId : Option Uuid} {u : Transaction (AgentTables σ)}
    (habort : t.aborted = false)
    (h : (openExecution settings draw organizationId agentName triggerSource inputSummary
      userId).Returns t () u) :
    WithinBudget settings draw.checkedAt organizationId t.tables.agentExecutions := by
  obtain ⟨_, v, hcheck, -⟩ := Service.bind_returns.mp h
  obtain rfl := checkCostBudget_returns hcheck
  exact (checkCostBudget_iff habort).mp hcheck

theorem openExecution_of_withinBudget (userId : Option Uuid) (habort : t.aborted = false)
    (hfresh : ∀ row ∈ t.tables.agentExecutions, row.id ≠ draw.executionId)
    (hbudget : WithinBudget settings draw.checkedAt organizationId t.tables.agentExecutions) :
    ∃ u, (openExecution settings draw organizationId agentName triggerSource inputSummary
        userId).Returns t () u ∧ u.aborted = false ∧ u.tables.shared = t.tables.shared := by
  have hcheck := (checkCostBudget_iff habort).mpr hbudget
  have hunique : (t.tables.agentExecutions.any fun row => decide (row.id = draw.executionId)) =
      false := by
    apply List.any_eq_false.mpr
    intro row hrow heq
    exact hfresh row hrow (of_decide_eq_true heq)
  have hinsert : ∃ row db, (Repository.insertAgentExecution draw organizationId agentName
      triggerSource (some inputSummary) userId).Returns t.tables row db ∧
        db.shared = t.tables.shared := by
    unfold Service.Returns Repository.insertAgentExecution
    rw [Service.bind_read, Service.bind_of_ok (Service.raiseIf_of_false hunique)]
    exact ⟨_, _, rfl, rfl⟩
  obtain ⟨row, db, hinsert, hshared⟩ := hinsert
  refine ⟨{ t with tables := db }, Service.bind_returns.mpr ⟨(), t, hcheck, ?_⟩, habort, hshared⟩
  exact Service.bind_returns.mpr
    ⟨row, _, execute_returns.mpr ⟨habort, db, hinsert, rfl⟩, Service.pure_returns.mpr ⟨rfl, rfl⟩⟩

/-- The run as the graph first sees it. -/
def started (t : Transaction (AgentTables σ)) : Run σ :=
  { tables := t.tables.shared, aborted := t.aborted, issued := t.issued }

/-- The graph ends with an outcome that is kept, in a healthy transaction, where `P`
holds, and with one that is not where it does not. -/
def GraphKeeps (P : Prop) (run : Run σ) (body : Body σ (FinalState ω)) : Prop :=
  ∀ executions,
    (P → keptGraph (body executions run).1 = true ∧ (body executions run).2.aborted = false) ∧
      (¬ P → keptGraph (body executions run).1 = false)

theorem runGraphAndRecord_iff {P : Prop} {graph : GraphState ω → Body σ (FinalState ω)}
    {initialState : GraphState ω} {fallbackRoute : Route} (habort : t.aborted = false)
    (hfresh : ∀ row ∈ t.tables.agentExecutions, row.id ≠ draw.executionId)
    (hgraph : ∀ run : Run σ, run.aborted = false → run.tables = t.tables.shared →
      GraphKeeps P run (graph initialState)) :
    (∃ b u, (runGraphAndRecord settings draw agentName triggerSource inputSummary graph initialState
        fallbackRoute).Returns t b u) ↔
      WithinBudget settings draw.checkedAt initialState.actor.organizationId
        t.tables.agentExecutions ∧ P := by
  constructor
  · intro h
    obtain ⟨b, u, h⟩ := h
    obtain ⟨_, v, hopen, h⟩ := Service.bind_returns.mp h
    obtain ⟨⟨outcome, llm⟩, w, hinvoke, hsettle⟩ := Service.bind_returns.mp h
    have hbudget := openExecution_withinBudget habort hopen
    obtain ⟨v', hopen', hv, hshared⟩ := openExecution_of_withinBudget agentName triggerSource
      inputSummary initialState.actor.userId habort hfresh hbudget
    obtain ⟨-, rfl⟩ := hopen.unique hopen'
    refine ⟨hbudget, ?_⟩
    by_contra hP
    have hlost := (hgraph (started v) hv hshared v.tables.agentExecutions).2 hP
    obtain ⟨hout, -⟩ := Service.Returns.unique hinvoke
      (rfl : (invoke (graph initialState)).Returns v _ _)
    have hkept := (settleGraph_returns hsettle).1
    have houtcome : outcome = (graph initialState v.tables.agentExecutions (started v)).1 :=
      congrArg Prod.fst hout
    rw [houtcome, hlost] at hkept
    cases hkept
  · intro h
    obtain ⟨hbudget, hP⟩ := h
    obtain ⟨v, hopen, hv, hshared⟩ := openExecution_of_withinBudget agentName triggerSource
      inputSummary initialState.actor.userId habort hfresh hbudget
    obtain ⟨hkept, hhealthy⟩ := (hgraph (started v) hv hshared v.tables.agentExecutions).1 hP
    have hsettles : Settles (σ := σ) draw (keptGraph (ω := ω)) (settleGraph draw fallbackRoute) :=
      settleGraph_settles fallbackRoute
    obtain ⟨b, u, hsettle, -⟩ := hsettles.recorded
      (graph initialState v.tables.agentExecutions (started v)).2.llm _
      (invoke (graph initialState) v).2 hkept hhealthy
    exact ⟨b, u, Service.bind_returns.mpr ⟨(), v, hopen,
      Service.bind_returns.mpr ⟨_, _, rfl, hsettle⟩⟩⟩

end Recorded

section Graphs

variable {timeline : TimelineDb ε} {run : Run (PlatformDb ε κ)}

/-- The actor may read the incident that the question is about, if it is about one. -/
def MayRead (actor : Identity) (incidentId : Option Uuid) (timeline : TimelineDb ε) : Prop :=
  ∀ id, incidentId = some id → Readable actor id timeline

/-- Counting the usage changes no table. -/
theorem captureLlmUse_quiet (hrun : Quiet timeline run) :
    ∃ run', captureLlmUse env run = (.ok (), run') ∧ Quiet timeline run' :=
  ⟨_, rfl, hrun.healthy, hrun.timeline⟩

theorem answerOrInvestigate_returns (state : GraphState ω) (hrun : Quiet timeline run)
    (hfresh : ∀ other ∈ timeline.incidentTimeline, other.id ≠ entry.entryId) :
    ∃ state' u, (answerOrInvestigate env noFaults entry state).Returns run state' u ∧
      u.aborted = false := by
  unfold answerOrInvestigate
  split
  · exact ⟨_, run, rfl, hrun.healthy⟩
  · exact investigationAgentNode_returns env.investigation state hrun hfresh

theorem answerGraph_keeps (initialState : GraphState ω) (hrun : Quiet timeline run)
    (hfresh : ∀ other ∈ timeline.incidentTimeline, other.id ≠ entry.entryId) :
    GraphKeeps (MayRead initialState.actor initialState.incidentId timeline) run
      (answerGraph env noFaults entry initialState) := by
  obtain ⟨run', hcapture, hrun'⟩ := captureLlmUse_quiet env hrun
  intro executions
  constructor
  · intro hread
    obtain ⟨hend, hraise⟩ := retrievalAgentNode_gentle env.retrieval hread run' hrun'
    cases hnode : retrievalAgentNode noFaults env.retrieval initialState run' with
    | mk r v =>
      rw [hnode] at hend
      cases r with
      | error e =>
        have hwhole : answerGraph env noFaults entry initialState executions run = (.error e, v) := by
          unfold answerGraph
          rw [Service.bind_of_ok hcapture, Service.bind_of_error hnode]
        have hmild : IsMild e := by
          apply hraise
          unfold Service.Raises
          rw [hnode]
        rw [hwhole]
        refine ⟨?_, hend.healthy⟩
        simp only [keptGraph, hmild.1, hmild.2]
        decide
      | ok state =>
        obtain ⟨state', u, hreturns, hhealthy⟩ := answerOrInvestigate_returns env entry
          (env.evaluateConfidence state) hend hfresh
        have hwhole : answerGraph env noFaults entry initialState executions run =
            (.ok (.ok state'), u) := by
          unfold answerGraph
          rw [Service.bind_of_ok hcapture, Service.bind_of_ok hnode, Service.bind_of_ok hreturns]
          rfl
        rw [hwhole]
        exact ⟨rfl, hhealthy⟩
  · intro hnot
    obtain ⟨incidentId, hnot⟩ := not_forall.mp hnot
    obtain ⟨hid, hunreadable⟩ := Classical.not_imp.mp hnot
    obtain ⟨e, hnode, hekip⟩ := retrievalAgentNode_raises env.retrieval hid hrun' hunreadable
    have hwhole : answerGraph env noFaults entry initialState executions run = (.error e, run') := by
      unfold answerGraph
      rw [Service.bind_of_ok hcapture, Service.bind_of_error hnode]
    rw [hwhole]
    simp only [keptGraph, hekip]
    rfl

theorem investigationGraph_keeps (initialState : GraphState ω) (hrun : Quiet timeline run)
    (hfresh : ∀ other ∈ timeline.incidentTimeline, other.id ≠ entry.entryId) :
    GraphKeeps True run (investigationGraph env noFaults entry initialState) := by
  obtain ⟨run', hcapture, hrun'⟩ := captureLlmUse_quiet env hrun
  intro executions
  refine ⟨fun _ => ?_, fun hnot => absurd trivial hnot⟩
  obtain ⟨state', u, hreturns, hhealthy⟩ := investigationAgentNode_returns env.investigation
    initialState hrun' hfresh
  have hwhole : investigationGraph env noFaults entry initialState executions run =
      (.ok (.ok state'), u) := by
    unfold investigationGraph
    rw [Service.bind_of_ok hcapture, Service.bind_of_ok hreturns]
    rfl
  rw [hwhole]
  exact ⟨rfl, hhealthy⟩

end Graphs

section Requests

variable {t : Transaction (AgentTables (PlatformDb ε κ))} {actor : Identity}

/-- Recall answers, and leaves the transaction and the incidents as they are. -/
theorem recalledOrNone_returns (actor : Identity) (query : String) (habort : t.aborted = false) :
    ∃ recalled u, (recalledOrNone fun _ => recallRelevant recalling noFaults actor query).Returns
        t recalled u ∧ u.aborted = false ∧ u.tables.agentExecutions = t.tables.agentExecutions ∧
      u.tables.shared.toTimelineDb = t.tables.shared.toTimelineDb := by
  have hquiet : Quiet t.tables.shared.toTimelineDb (started t) := ⟨habort, rfl⟩
  obtain ⟨hend, hraise⟩ := recallRelevant_gentle recalling actor query (started t) hquiet
  have hinvoke : invoke (fun _ => recallRelevant recalling noFaults actor query) t =
      (.ok ((recallRelevant recalling noFaults actor query (started t)).1,
        (recallRelevant recalling noFaults actor query (started t)).2.llm), _) := rfl
  unfold Service.Returns recalledOrNone
  rw [Service.bind_of_ok hinvoke]
  cases hrecall : (recallRelevant recalling noFaults actor query (started t)).1 with
  | ok recalled => exact ⟨recalled, _, rfl, hend.healthy, rfl, hend.timeline⟩
  | error e =>
    have hexception : e.isException = true := hraise e hrecall
    dsimp only
    rw [if_pos hexception]
    exact ⟨[], _, rfl, hend.healthy, rfl, hend.timeline⟩

theorem answerQuestion_noFaults_iff (query : String) (incidentId : Option Uuid)
    (triggerSource : TriggerSource) (habort : t.aborted = false)
    (hfresh : ∀ row ∈ t.tables.agentExecutions, row.id ≠ draw.executionId)
    (hentry : ∀ other ∈ t.tables.shared.incidentTimeline, other.id ≠ entry.entryId) :
    (∃ b u, (answerQuestionUnder env noFaults entry recalling settings draw query incidentId actor
        triggerSource).Returns t b u) ↔
      WithinBudget settings draw.checkedAt actor.organizationId t.tables.agentExecutions ∧
        MayRead actor incidentId t.tables.shared.toTimelineDb := by
  obtain ⟨recalled, v, hrecalled, hv, hexecutions, htimeline⟩ :=
    recalledOrNone_returns recalling actor query habort
  have hsplit : (∃ b u, (answerQuestionUnder env noFaults entry recalling settings draw query incidentId
        actor triggerSource).Returns t b u) ↔
      ∃ b u, (runGraphAndRecord settings draw "answer_question" triggerSource
        (.question query incidentId recalled.length) (answerGraph env noFaults entry)
        { query, incidentId, actor, recalledMemories := recalled } .answer).Returns v b u := by
    constructor
    · intro h
      obtain ⟨b, u, h⟩ := h
      obtain ⟨_, _, hrecalled', hrun⟩ := Service.bind_returns.mp h
      obtain ⟨rfl, rfl⟩ := hrecalled'.unique hrecalled
      exact ⟨b, u, hrun⟩
    · intro h
      obtain ⟨b, u, hrun⟩ := h
      exact ⟨b, u, Service.bind_returns.mpr ⟨recalled, v, hrecalled, hrun⟩⟩
  have hkeeps : ∀ run : Run (PlatformDb ε κ), run.aborted = false → run.tables = v.tables.shared →
      GraphKeeps (MayRead actor incidentId t.tables.shared.toTimelineDb) run
        (answerGraph env noFaults entry
          { query, incidentId, actor, recalledMemories := recalled }) := by
    intro run hhealthy htables
    have hrun : Quiet t.tables.shared.toTimelineDb run := ⟨hhealthy, by rw [htables, htimeline]⟩
    exact answerGraph_keeps env entry { query, incidentId, actor, recalledMemories := recalled } hrun
      hentry
  rw [← hexecutions] at hfresh
  rw [hsplit, runGraphAndRecord_iff _ _ _ hv hfresh hkeeps, hexecutions]

theorem triageIncident_noFaults_iff (incidentId : Uuid) (triggerSource : TriggerSource)
    (habort : t.aborted = false)
    (hfresh : ∀ row ∈ t.tables.agentExecutions, row.id ≠ draw.executionId)
    (hentry : ∀ other ∈ t.tables.shared.incidentTimeline, other.id ≠ entry.entryId) :
    (∃ b u, (triageIncidentUnder env noFaults entry settings draw incidentId actor
        triggerSource).Returns t b u) ↔
      WithinBudget settings draw.checkedAt actor.organizationId t.tables.agentExecutions ∧
        Readable actor incidentId t.tables.shared.toTimelineDb := by
  obtain ⟨r, hread, hanswer⟩ := readIncident_answers actor incidentId t.tables.shared
  have hstatement : (execute (onShared (readIncident actor incidentId))).Returns t r t :=
    execute_returns.mpr ⟨habort, t.tables, Service.zoom_returns.mpr ⟨_, hread, rfl⟩, rfl⟩
  rcases hanswer with ⟨row, rfl, hreadable⟩ | ⟨e, rfl, -, hunreadable⟩
  · have hkeeps : ∀ run : Run (PlatformDb ε κ), run.aborted = false → run.tables = t.tables.shared →
        GraphKeeps True run (investigationGraph env noFaults entry
          { query := row.title ++ "\n\n" ++ row.description
            incidentId := some incidentId
            actor }) := by
      intro run hhealthy htables
      have hrun : Quiet t.tables.shared.toTimelineDb run := ⟨hhealthy, by rw [htables]⟩
      exact investigationGraph_keeps env entry _ hrun hentry
    have hsplit : (∃ b u, (triageIncidentUnder env noFaults entry settings draw incidentId actor
          triggerSource).Returns t b u) ↔
        ∃ b u, (runGraphAndRecord settings draw "triage_incident" triggerSource
          (.incident incidentId) (investigationGraph env noFaults entry)
          { query := row.title ++ "\n\n" ++ row.description
            incidentId := some incidentId
            actor } .investigation).Returns t b u := by
      constructor
      · intro h
        obtain ⟨b, u, h⟩ := h
        simp only [triageIncidentUnder, triageIncident, Service.bind_returns,
          Service.ofExcept_returns] at h
        obtain ⟨_, _, hstatement', _, _, ⟨hrow, rfl⟩, hrun⟩ := h
        obtain ⟨rfl, rfl⟩ := hstatement'.unique hstatement
        cases hrow
        exact ⟨b, u, hrun⟩
      · intro h
        obtain ⟨b, u, hrun⟩ := h
        exact ⟨b, u, Service.bind_returns.mpr ⟨_, t, hstatement,
          Service.bind_returns.mpr ⟨row, t, Service.ofExcept_returns.mpr ⟨rfl, rfl⟩, hrun⟩⟩⟩
    rw [hsplit, runGraphAndRecord_iff _ _ _ habort hfresh hkeeps]
    exact and_congr_right fun _ => ⟨fun _ => hreadable, fun _ => trivial⟩
  · constructor
    · intro h
      obtain ⟨b, u, h⟩ := h
      simp only [triageIncidentUnder, triageIncident, Service.bind_returns,
        Service.ofExcept_returns] at h
      obtain ⟨_, _, hstatement', _, _, ⟨hrow, -⟩, -⟩ := h
      obtain ⟨rfl, -⟩ := hstatement'.unique hstatement
      cases hrow
    · intro h
      exact absurd h.2 hunreadable

end Requests

namespace BestEffort

/-- The incident, if there is one, is readable, the budget is not spent, and none of
the statements that the best-effort steps issue fails. -/
theorem answered_iff_spared (db : AgentTables (PlatformDb ε κ)) (actor : Identity) (query : String)
    (incidentId : Option Uuid) (triagedId : Uuid) (triggerSource : TriggerSource)
    (hfresh : ∀ row ∈ db.agentExecutions, row.id ≠ draw.executionId)
    (hentry : ∀ other ∈ db.shared.incidentTimeline, other.id ≠ entry.entryId) :
    ((∃ response u, (answerQuestionUnder env faults entry recalling settings draw query incidentId actor
        triggerSource).Returns { tables := db } response u) ↔
      WithinBudget settings draw.checkedAt actor.organizationId db.agentExecutions ∧
        MayRead actor incidentId db.shared.toTimelineDb ∧
        Spared Transaction.status (fun faults => answerQuestionUnder env faults entry recalling settings
          draw query incidentId actor triggerSource) faults { tables := db }) ∧
    ((∃ response u, (triageIncidentUnder env faults entry settings draw triagedId actor
        triggerSource).Returns { tables := db } response u) ↔
      WithinBudget settings draw.checkedAt actor.organizationId db.agentExecutions ∧
        Readable actor triagedId db.shared.toTimelineDb ∧
        Spared Transaction.status (fun faults => triageIncidentUnder env faults entry settings draw
          triagedId actor triggerSource) faults { tables := db }) := by
  constructor
  · have hfaulty := answerQuestionUnder_faulty env entry recalling settings draw query incidentId actor
      triggerSource
    rw [hfaulty.returns_iff (fun faults b u h => answerQuestion_returns h) faults,
      answerQuestion_noFaults_iff env entry recalling settings draw query incidentId triggerSource rfl
        hfresh hentry, and_assoc]
  · have hfaulty := triageIncidentUnder_faulty env entry settings draw triagedId actor triggerSource
    rw [hfaulty.returns_iff (fun faults b u h => triageIncident_returns h) faults,
      triageIncident_noFaults_iff env entry settings draw triagedId triggerSource rfl hfresh hentry,
      and_assoc]

/-! ## A recalled memory whose bookkeeping fails -/

def plainRetrieval : Retrieval.Engine Unit Unit Nat :=
  { embedQuery := fun _ => .ok ()
    embedTexts := fun texts => .ok (texts.map fun _ => ())
    maxInnerProduct := fun _ _ => 0
    websearchToTsquery := fun _ => ()
    plaintoTsquery := fun _ => ()
    tsMatches := fun _ _ => false
    tsRankCd := fun _ _ => 0
    le := fun a b => decide (a ≤ b)
    neg := id
    zero := 0
    add := (· + ·)
    reciprocal := fun _ => 0 }

def plainEnv : GraphEnv Unit Unit Unit Nat :=
  { retrieval :=
      { engine := plainRetrieval
        embedQuery := fun _ _ _ => .ok ()
        expandAbbreviations := id
        looksVague := fun _ => false
        rewrite := fun query _ => .ok query
        rerank := fun _ chunks => .ok chunks
        assembleContext := id }
    evaluateConfidence := fun state =>
      { state with confidenceScore := some 0, route := some .investigation }
    answerAgent := fun state => { confidence := state.confidenceScore.getD 0, routeTaken := .answer }
    investigation :=
      { engine := plainRetrieval
        embedQuery := fun _ _ _ _ => .ok ()
        chunkToEvidence := fun chunk _ =>
          { source := .slack, reference := "", summary := chunk.content, retrievedAt := 0 }
        postmortemCreatedAt := fun _ => 0
        postmortemEvidence := fun _ _ => []
        augmentsWithLive := fun _ _ => false
        connectors := fun _ _ => []
        live := fun _ => none
        generateHypotheses := fun _ _ =>
          .ok { hypotheses := [], suggestedOwnerTeam := none, suggestedNextSteps := [] }
        reviewInvestigation := fun _ _ hypotheses =>
          { hypotheses with
            reviewStatus := .notReviewed
            critiqueVerdict := none
            revisionCount := 0
            critiqueIssues := [] } } }

def plainRecall : RecallEnv Unit Nat :=
  { engine :=
      { embedQuery := fun _ => .ok ()
        zeroVector := ()
        cosineDistance := fun _ _ => 0
        le := fun a b => decide (a ≤ b)
        relevance := id
        lt := fun a b => decide (a < b) }
    settings := { memoryRelevanceThreshold := 0 }
    now := 10 }

def plainDraw : Draw := { executionId := 9, startedAt := 10, checkedAt := 10, completedAt := 20 }

def reader : Identity :=
  { kind := .user, subject := "7", organizationId := 1, userId := some 7,
    permissions := {Incidents.incidentReadPermission} }

/-- One memory that the reader may see, and one incident. -/
def rememberedDb : AgentTables (PlatformDb Unit Unit) :=
  { shared :=
      { rest := ()
        incidents :=
          [{ id := 5, organizationId := 1, projectId := 3, title := "Checkout is down",
             severity := "high", reportedBy := 7, createdAt := 0, description := "502",
             updatedAt := 0 }]
        agentMemories :=
          [{ id := 4, organizationId := 1, scope := .user, ownerUserId := some 7,
             memoryType := .fact, content := "Checkout is owned by Payments.", embedding := (),
             createdBy := "user:7", createdAt := 0, updatedAt := 0 }] } }

/-- The update of `last_accessed_at` waits too long for its lock. -/
def lockTimeout : Faults AgentExn := fun n =>
  if n = 1 then some (.database "canceling statement due to lock timeout") else none

/-- Where nothing fails, both requests are answered. -/
theorem answered_without_faults :
    (∃ response u, (answerQuestionUnder plainEnv noFaults { entryId := 3, now := 10 } plainRecall {}
        plainDraw "Who owns checkout?" none reader .coreApi).Returns { tables := rememberedDb }
          response u) ∧
      ∃ response u, (triageIncidentUnder plainEnv noFaults { entryId := 3, now := 10 } {} plainDraw 5
        reader .coreApi).Returns { tables := rememberedDb } response u := by
  obtain ⟨hanswer, htriage⟩ := answered_iff_spared plainEnv noFaults { entryId := 3, now := 10 }
    plainRecall {} plainDraw rememberedDb reader "Who owns checkout?" none 5 .coreApi
    (by intro row hrow; cases hrow) (by intro other hother; cases hother)
  have hbudget : WithinBudget {} plainDraw.checkedAt reader.organizationId
      rememberedDb.agentExecutions := by
    intro budget hunset
    cases hunset
  constructor
  · refine hanswer.mpr ⟨hbudget, ?_, fun _ _ _ => rfl⟩
    intro id hid
    cases hid
  · exact htriage.mpr ⟨hbudget, ⟨_, rfl, rfl, by decide⟩, fun _ _ _ => rfl⟩

/-- The question is lost to the bookkeeping of a memory. -/
theorem answer_lost : ¬ ∀ faults : Faults AgentExn,
    ∃ response u, (answerQuestionUnder plainEnv faults { entryId := 3, now := 10 } plainRecall {}
      plainDraw "Who owns checkout?" none reader .coreApi).Returns { tables := rememberedDb }
        response u := by
  intro hall
  obtain ⟨response, u, hreturns⟩ := hall lockTimeout
  have hraised : (answerQuestionUnder plainEnv lockTimeout { entryId := 3, now := 10 } plainRecall {}
      plainDraw "Who owns checkout?" none reader .coreApi { tables := rememberedDb }).1.isOk =
        false := by
    decide +kernel
  rw [hreturns] at hraised
  cases hraised

end BestEffort

end Ekip.Agents
