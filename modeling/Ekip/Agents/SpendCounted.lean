import Mathlib.Algebra.Group.Prod
import Ekip.Agents.Recording

/-!
# Runs of recorded requests

The requests of the four entry points, each in a transaction of its own. A run
whose failure is raised leaves no row: what it spent is not counted.
-/
namespace Ekip.Agents.SpendCounted

open Ekip.Lib Ekip.Database Ekip.Shared Ekip.Core

variable {σ α β ω ε κ ρ : Type} (settings : Settings)

/-! ## Requests -/

inductive Request (ε κ ω ρ : Type)
  | answerQuestion (recalling : Body (PlatformDb ε κ) (List (Memory.RecalledMemory ω)))
      (graph : GraphState ω → Body (PlatformDb ε κ) (FinalState ω)) (query : String)
      (incidentId : Option Uuid)
  | triageIncident (graph : GraphState ω → Body (PlatformDb ε κ) (FinalState ω))
      (incidentId : Uuid)
  | generatePostmortem
      (pipeline : List TimelineEntry → Service AgentExn LlmUse (String × List ActionItem))
      (incidentId : Uuid)
  | detectKnowledgeGaps (pipeline : Body (PlatformDb ε κ) ρ)

structure Call (ε κ ω ρ : Type) where
  draw : Draw
  actor : Identity
  triggerSource : TriggerSource
  request : Request ε κ ω ρ

inductive Response (ρ : Type)
  | asked (response : AskResponse)
  | postmortem (content : String × List ActionItem)
  | gaps (reports : ρ)

def perform (call : Call ε κ ω ρ) : AgentM (PlatformDb ε κ) (Response ρ) :=
  match call.request with
  | .answerQuestion recalling graph query incidentId => do
    let response ← answerQuestion settings call.draw recalling graph query incidentId call.actor
      call.triggerSource
    pure (.asked response)
  | .triageIncident graph incidentId => do
    let response ← triageIncident settings call.draw graph incidentId call.actor
      call.triggerSource
    pure (.asked response)
  | .generatePostmortem pipeline incidentId => do
    let content ← generatePostmortem settings call.draw pipeline incidentId call.actor
      call.triggerSource
    pure (.postmortem content)
  | .detectKnowledgeGaps pipeline => do
    let reports ← detectKnowledgeGaps settings call.draw pipeline call.actor call.triggerSource
    pure (.gaps reports)

abbrev Db (ε κ : Type) := AgentTables (PlatformDb ε κ)

def respond (call : Call ε κ ω ρ) (db : Db ε κ) : Except AgentExn (Response ρ) × Db ε κ :=
  Transaction.scope (perform settings call) db

/-- The committed state after one request after the other. -/
def after (db : Db ε κ) (calls : List (Call ε κ ω ρ)) : Db ε κ :=
  calls.foldl (fun db call => (respond settings call db).2) db

/-! ## What a request ran -/

/-- What a request used of the model, whether its transaction was aborted by then,
and whether its outcome is kept. -/
structure Ran where
  llm : LlmUse
  aborted : Bool
  kept : Bool
deriving DecidableEq

/-- Nothing ran where the preparation raised. -/
def ranBy (prepare : AgentM σ (Body σ α)) (kept : Except AgentExn α → Bool) (db : AgentTables σ) :
    Option Ran :=
  match prepare { tables := db } with
  | (.error _, _) => none
  | (.ok body, t) =>
    let run := body t.tables.agentExecutions
      { tables := t.tables.shared, aborted := t.aborted, issued := t.issued }
    some { llm := run.2.llm, aborted := run.2.aborted, kept := kept run.1 }

def prepareAnswer (call : Call ε κ ω ρ) (recalling : Body (PlatformDb ε κ) (List (Memory.RecalledMemory ω)))
    (graph : GraphState ω → Body (PlatformDb ε κ) (FinalState ω)) (query : String)
    (incidentId : Option Uuid) : AgentM (PlatformDb ε κ) (Body (PlatformDb ε κ) (FinalState ω)) := do
  let recalled ← recalledOrNone recalling
  openGraph settings call.draw "answer_question" call.triggerSource
    (.question query incidentId recalled.length) call.actor
  pure (graph { query, incidentId, actor := call.actor, recalledMemories := recalled })

def prepareTriage (call : Call ε κ ω ρ)
    (graph : GraphState ω → Body (PlatformDb ε κ) (FinalState ω)) (incidentId : Uuid) :
    AgentM (PlatformDb ε κ) (Body (PlatformDb ε κ) (FinalState ω)) := do
  let incident ← execute (onShared (readIncident call.actor incidentId))
  let incident ← Service.ofExcept incident
  openGraph settings call.draw "triage_incident" call.triggerSource (.incident incidentId) call.actor
  pure (graph
    { query := incident.title ++ "\n\n" ++ incident.description
      incidentId := some incidentId
      actor := call.actor })

def preparePipeline (call : Call ε κ ω ρ) (agentName : String) (inputSummary : InputSummary)
    (pipeline : Body (PlatformDb ε κ) α) :
    AgentM (PlatformDb ε κ) (Body (PlatformDb ε κ) α) := do
  openExecution settings call.draw call.actor.organizationId agentName call.triggerSource inputSummary
  pure pipeline

def Call.ran (call : Call ε κ ω ρ) (db : Db ε κ) : Option Ran :=
  match call.request with
  | .answerQuestion recalling graph query incidentId =>
    ranBy (prepareAnswer settings call recalling graph query incidentId) keptGraph db
  | .triageIncident graph incidentId =>
    ranBy (prepareTriage settings call graph incidentId) keptGraph db
  | .generatePostmortem pipeline incidentId =>
    ranBy (preparePipeline settings call "generate_postmortem" (.incident incidentId)
      (postmortemBody pipeline incidentId call.actor)) keptPipeline db
  | .detectKnowledgeGaps pipeline =>
    ranBy (preparePipeline settings call "detect_knowledge_gaps"
      (.organization call.actor.organizationId) pipeline) keptPipeline db

/-! ## What a request leaves -/

variable {settings}

/-- Prepare, run, settle: the shape of every entry point. -/
def recorded (prepare : AgentM σ (Body σ α)) (settle : LlmUse → Except AgentExn α → AgentM σ β)
    (wrap : β → ρ) : AgentM σ ρ := do
  let body ← prepare
  let (outcome, llm) ← invoke body
  let b ← settle llm outcome
  pure (wrap b)

theorem perform_eq (call : Call ε κ ω ρ) :
    perform settings call =
      match call.request with
      | .answerQuestion recalling graph query incidentId =>
        recorded (prepareAnswer settings call recalling graph query incidentId)
          (settleGraph call.draw .answer) .asked
      | .triageIncident graph incidentId =>
        recorded (prepareTriage settings call graph incidentId)
          (settleGraph call.draw .investigation) .asked
      | .generatePostmortem pipeline incidentId =>
        recorded (preparePipeline settings call "generate_postmortem" (.incident incidentId)
          (postmortemBody pipeline incidentId call.actor)) (settlePostmortem call.draw) .postmortem
      | .detectKnowledgeGaps pipeline =>
        recorded (preparePipeline settings call "detect_knowledge_gaps"
          (.organization call.actor.organizationId) pipeline) (settleKnowledgeGaps call.draw)
          .gaps := by
  unfold perform
  cases call.request with
  | answerQuestion recalling graph query incidentId =>
    simp only [answerQuestion, runGraphAndRecord, recorded, prepareAnswer, Service.bind_assoc,
      Service.pure_bind]
  | triageIncident graph incidentId =>
    simp only [triageIncident, runGraphAndRecord, recorded, prepareTriage, Service.bind_assoc,
      Service.pure_bind]
  | generatePostmortem pipeline incidentId =>
    simp only [generatePostmortem, recorded, preparePipeline, Service.bind_assoc,
      Service.pure_bind]
  | detectKnowledgeGaps pipeline =>
    simp only [detectKnowledgeGaps, recorded, preparePipeline, Service.bind_assoc,
      Service.pure_bind]

/-- The one row of a request whose run used `llm`. -/
structure Recorded (call : Call ε κ ω ρ) (llm : LlmUse) (row : AgentExecutionRow) : Prop where
  id : row.id = call.draw.executionId
  organizationId : row.organizationId = call.actor.organizationId
  startedAt : row.startedAt = call.draw.startedAt
  ended : row.status = .succeeded ∨ row.status = .failed
  completedAt : row.completedAt = some call.draw.completedAt
  promptTokens : row.promptTokens = (summarizeUsage llm.usage).map UsageSummary.promptTokens
  completionTokens :
    row.completionTokens = (summarizeUsage llm.usage).map UsageSummary.completionTokens
  totalTokens : row.totalTokens = (summarizeUsage llm.usage).map UsageSummary.totalTokens

/-- What a request prepares: its row is open under a fresh id. -/
def Opens (call : Call ε κ ω ρ) (prepare : AgentM (PlatformDb ε κ) (Body (PlatformDb ε κ) α)) :
    Prop :=
  ∀ db body u, prepare.Returns { tables := db } body u →
    (∀ other ∈ db.agentExecutions, other.id ≠ call.draw.executionId) ∧
      ∃ name summary userId, u.tables.agentExecutions = db.agentExecutions ++
        [openRow call.draw call.actor.organizationId name call.triggerSource summary userId]

section Effect

variable {call : Call ε κ ω ρ} {db : Db ε κ}

theorem recalledOrNone_returns {t u : Transaction (AgentTables σ)}
    {recalling : Body σ (List (Memory.RecalledMemory ω))} {recalled : List (Memory.RecalledMemory ω)}
    (h : (recalledOrNone recalling).Returns t recalled u) :
    u.tables.agentExecutions = t.tables.agentExecutions := by
  unfold recalledOrNone at h
  obtain ⟨result, v, hinvoke, h⟩ := Service.bind_returns.mp h
  have hsame := invoke_returns hinvoke
  obtain ⟨outcome, llm⟩ := result
  cases outcome with
  | ok _ =>
    obtain ⟨-, rfl⟩ := Service.pure_returns.mp h
    exact hsame
  | error e =>
    rcases Service.ite_returns.mp h with ⟨-, h⟩ | ⟨-, h⟩
    · obtain ⟨-, rfl⟩ := Service.pure_returns.mp h
      exact hsame
    · exact absurd h Service.raise_returns

theorem prepareAnswer_opens {recalling : Body (PlatformDb ε κ) (List (Memory.RecalledMemory ω))}
    {graph : GraphState ω → Body (PlatformDb ε κ) (FinalState ω)} {query : String}
    {incidentId : Option Uuid} :
    Opens call (prepareAnswer settings call recalling graph query incidentId) := by
  intro db body u h
  simp only [prepareAnswer, openGraph, Service.bind_returns, Service.pure_returns] at h
  obtain ⟨recalled, t, hrecall, _, _, hopen, -, rfl⟩ := h
  have hsame := recalledOrNone_returns hrecall
  obtain ⟨-, hfresh, hrow⟩ := openExecution_returns hopen
  rw [hsame] at hfresh hrow
  exact ⟨hfresh, _, _, _, hrow⟩

theorem readIncident_returns {actor : Identity} {incidentId : Uuid}
    {t u : Transaction (AgentTables (PlatformDb ε κ))} {incident : Except AgentExn IncidentRow}
    (h : (execute (onShared (readIncident actor incidentId))).Returns t incident u) :
    u.tables.agentExecutions = t.tables.agentExecutions := by
  obtain ⟨-, tables, hread, rfl⟩ := execute_returns.mp h
  obtain ⟨shared, -, rfl⟩ := Service.zoom_returns.mp hread
  rfl

theorem prepareTriage_opens {graph : GraphState ω → Body (PlatformDb ε κ) (FinalState ω)}
    {incidentId : Uuid} : Opens call (prepareTriage settings call graph incidentId) := by
  intro db body u h
  simp only [prepareTriage, openGraph, Service.bind_returns, Service.pure_returns,
    Service.ofExcept_returns] at h
  obtain ⟨incident, t, hread, _, _, ⟨-, rfl⟩, _, _, hopen, -, rfl⟩ := h
  have hsame := readIncident_returns hread
  obtain ⟨-, hfresh, hrow⟩ := openExecution_returns hopen
  rw [hsame] at hfresh hrow
  exact ⟨hfresh, _, _, _, hrow⟩

theorem preparePipeline_opens {name : String} {summary : InputSummary}
    {pipeline : Body (PlatformDb ε κ) α} :
    Opens call (preparePipeline settings call name summary pipeline) := by
  intro db body u h
  simp only [preparePipeline, Service.bind_returns, Service.pure_returns] at h
  obtain ⟨_, _, hopen, -, rfl⟩ := h
  obtain ⟨-, hfresh, hrow⟩ := openExecution_returns hopen
  exact ⟨hfresh, _, _, _, hrow⟩

/-- The settled row is the only one that the update changes. -/
theorem recorded_of_settles {llm : LlmUse} {t u : Transaction (Db ε κ)} {name : String}
    {summary : Option InputSummary} {userId : Option Uuid}
    (hsettles : SettlesRow call.draw llm t u)
    (hfresh : ∀ other ∈ db.agentExecutions, other.id ≠ call.draw.executionId)
    (hrows : t.tables.agentExecutions = db.agentExecutions ++
      [openRow call.draw call.actor.organizationId name call.triggerSource summary userId]) :
    ∃ row, Recorded call llm row ∧ u.tables.agentExecutions = db.agentExecutions ++ [row] := by
  obtain ⟨f, hf, rfl⟩ := hsettles
  have hsettled := hf
    (openRow call.draw call.actor.organizationId name call.triggerSource summary userId)
  refine ⟨_, ⟨hsettled.id, hsettled.organizationId, hsettled.startedAt, hsettled.ended,
    hsettled.completedAt, ?_, ?_, ?_⟩, ?_⟩
  · rw [hsettled.promptTokens]
    exact Option.or_none
  · rw [hsettled.completionTokens]
    exact Option.or_none
  · rw [hsettled.totalTokens]
    exact Option.or_none
  · have hold : Table.updateWhere db.agentExecutions
        (fun row => row.id = call.draw.executionId) f = db.agentExecutions :=
      Table.updateWhere_of_fixed fun row hrow hid =>
        absurd (of_decide_eq_true hid) (hfresh row hrow)
    show Table.updateWhere t.tables.agentExecutions _ f = _
    rw [hrows, Table.updateWhere, List.map_append, ← Table.updateWhere, hold]
    show _ ++ [if decide (call.draw.executionId = call.draw.executionId) = true then _ else _] = _
    rw [if_pos (decide_eq_true rfl)]

/-- A request whose run is kept leaves its row; every other leaves the database as
it was. -/
def Effect (call : Call ε κ ω ρ) (ran : Option Ran) (db db' : Db ε κ) : Prop :=
  (∃ r row, ran = some r ∧ r.kept = true ∧ r.aborted = false ∧
      (∀ other ∈ db.agentExecutions, other.id ≠ call.draw.executionId) ∧
      Recorded call r.llm row ∧ db'.agentExecutions = db.agentExecutions ++ [row]) ∨
    (db' = db ∧ ∀ r, ran = some r → (r.kept = false ∨ r.aborted = true) ∧
      ∀ other ∈ db.agentExecutions, other.id ≠ call.draw.executionId)

theorem recorded_effect {prepare : AgentM (PlatformDb ε κ) (Body (PlatformDb ε κ) α)}
    {kept : Except AgentExn α → Bool} {settle : LlmUse → Except AgentExn α → AgentM (PlatformDb ε κ) β}
    {wrap : β → Response ρ} (hopens : Opens call prepare) (hsettles : Settles call.draw kept settle) :
    Effect call (ranBy prepare kept db) db
      (Transaction.scope (recorded prepare settle wrap) db).2 := by
  cases hprepare : prepare { tables := db } with
  | mk r t =>
    cases r with
    | error e =>
      have hnone : ranBy prepare kept db = none := by
        unfold ranBy
        rw [hprepare]
      refine .inr ⟨Transaction.scope_of_raises ?_, ?_⟩
      · intro a u h
        obtain ⟨body, t', hbody, -⟩ := Service.bind_returns.mp h
        cases hprepare.symm.trans hbody
      · intro ran hran
        rw [hnone] at hran
        cases hran
    | ok body =>
      obtain ⟨hfresh, name, summary, userId, hrows⟩ := hopens db body t hprepare
      let run := body t.tables.agentExecutions
        { tables := t.tables.shared, aborted := t.aborted, issued := t.issued }
      have hran : ranBy prepare kept db =
          some { llm := run.2.llm, aborted := run.2.aborted, kept := kept run.1 } := by
        unfold ranBy
        rw [hprepare]
      have hinvoke : (invoke body).Returns t (run.1, run.2.llm)
          { tables := { t.tables with shared := run.2.tables }
            aborted := run.2.aborted
            issued := run.2.issued } := rfl
      by_cases hkept : kept run.1 = true ∧ run.2.aborted = false
      · obtain ⟨b, u, hsettle, hrow⟩ := hsettles.recorded run.2.llm run.1
          { tables := { t.tables with shared := run.2.tables }
            aborted := run.2.aborted
            issued := run.2.issued }
          hkept.1 hkept.2
        have hreturns : (recorded prepare settle wrap).Returns { tables := db } (wrap b) u :=
          Service.bind_returns.mpr ⟨body, t, hprepare, Service.bind_returns.mpr
            ⟨_, _, hinvoke, Service.bind_returns.mpr
              ⟨b, u, hsettle, Service.pure_returns.mpr ⟨rfl, rfl⟩⟩⟩⟩
        have habort : u.aborted = false := by
          obtain ⟨f, -, rfl⟩ := hrow
          exact hkept.2
        obtain ⟨row, hrecorded, hadded⟩ := recorded_of_settles hrow hfresh hrows
        rw [Transaction.scope_of_returns hreturns habort]
        exact .inl ⟨_, row, hran, hkept.1, hkept.2, hfresh, hrecorded, hadded⟩
      · have hcase : kept run.1 = false ∨ run.2.aborted = true := by
          cases hk : kept run.1 with
          | false => exact .inl rfl
          | true =>
            refine .inr (Bool.eq_true_of_not_eq_false ?_)
            intro hhealthy
            exact hkept ⟨hk, hhealthy⟩
        refine .inr ⟨Transaction.scope_of_raises ?_, ?_⟩
        · intro a u h
          obtain ⟨body', t', hbody, h⟩ := Service.bind_returns.mp h
          obtain ⟨rfl, rfl⟩ := Service.Returns.unique hprepare hbody
          obtain ⟨result, v, hresult, h⟩ := Service.bind_returns.mp h
          obtain ⟨rfl, rfl⟩ := Service.Returns.unique hinvoke hresult
          obtain ⟨b, u', hsettle, -⟩ := Service.bind_returns.mp h
          exact hsettles.raised _ _ _ hcase b u' hsettle
        · intro ran hsome
          rw [hran] at hsome
          cases hsome
          exact ⟨hcase, hfresh⟩

theorem respond_effect (settings : Settings) (call : Call ε κ ω ρ) (db : Db ε κ) :
    Effect call (call.ran settings db) db (respond settings call db).2 := by
  unfold respond Call.ran
  rw [perform_eq]
  cases call.request with
  | answerQuestion recalling graph query incidentId =>
    exact recorded_effect prepareAnswer_opens (settleGraph_settles .answer)
  | triageIncident graph incidentId =>
    exact recorded_effect prepareTriage_opens (settleGraph_settles .investigation)
  | generatePostmortem pipeline incidentId =>
    exact recorded_effect preparePipeline_opens settlePostmortem_settles
  | detectKnowledgeGaps pipeline =>
    exact recorded_effect preparePipeline_opens settleKnowledgeGaps_settles

end Effect

/-! ## Runs -/

/-- The request passed the budget check and called the model. -/
def Reached (settings : Settings) (call : Call ε κ ω ρ) (db : Db ε κ) (llm : LlmUse) : Prop :=
  ∃ ran, call.ran settings db = some ran ∧ ran.llm = llm ∧ 0 < llm.calls

/-- The outcome of the run is one that its entry point keeps, and no statement of the
transaction failed. -/
def Kept (settings : Settings) (call : Call ε κ ω ρ) (db : Db ε κ) : Prop :=
  ∃ ran, call.ran settings db = some ran ∧ ran.kept = true ∧ ran.aborted = false

/-- Exactly one row, settled, with the tokens, which a check of the budget in the 24
hours after it began counts. -/
def Accounted (call : Call ε κ ω ρ) (llm : LlmUse) (db : Db ε κ) : Prop :=
  ∃ row, Recorded call llm row ∧
    (db.agentExecutions.filter fun row => row.id = call.draw.executionId) = [row] ∧
    ∀ now ≤ call.draw.startedAt + budgetWindow,
      let usage := Repository.getOrganizationTokenUsageSince call.actor.organizationId
        (now - budgetWindow)
      usage db.agentExecutions =
        usage (db.agentExecutions.filter fun row => row.id ≠ call.draw.executionId) +
          (row.promptTokens.getD 0, row.completionTokens.getD 0)

theorem usage_cons (organizationId : Uuid) (since : Instant) (row : AgentExecutionRow)
    (rows : List AgentExecutionRow) :
    Repository.getOrganizationTokenUsageSince organizationId since (row :: rows) =
      Repository.getOrganizationTokenUsageSince organizationId since [row] +
        Repository.getOrganizationTokenUsageSince organizationId since rows := by
  unfold Repository.getOrganizationTokenUsageSince
  by_cases h : row.organizationId = organizationId ∧ since ≤ row.startedAt
  · simp [h]
  · simp [h]

/-- A usage is that of the rows with an id and that of the others. -/
theorem usage_split (organizationId : Uuid) (since : Instant) (id : Uuid)
    (rows : List AgentExecutionRow) :
    Repository.getOrganizationTokenUsageSince organizationId since rows =
      Repository.getOrganizationTokenUsageSince organizationId since
          (rows.filter fun row => row.id ≠ id) +
        Repository.getOrganizationTokenUsageSince organizationId since
          (rows.filter fun row => row.id = id) := by
  induction rows with
  | nil => rfl
  | cons row rows ih =>
    rw [usage_cons, ih]
    by_cases h : row.id = id
    · rw [List.filter_cons_of_neg (by simp [h]), List.filter_cons_of_pos (by simp [h]),
        usage_cons organizationId since row (rows.filter fun row => row.id = id)]
      exact add_left_comm _ _ _
    · rw [List.filter_cons_of_pos (by simp [h]), List.filter_cons_of_neg (by simp [h]),
        usage_cons organizationId since row (rows.filter fun row => row.id ≠ id)]
      exact (add_assoc _ _ _).symm

section Account

variable {call : Call ε κ ω ρ} {llm : LlmUse} {row : AgentExecutionRow} {db db' : Db ε κ}

/-- A recorded row is within the window of a check. -/
theorem accounted_of_row (hrecorded : Recorded call llm row)
    (honly : (db.agentExecutions.filter fun row => row.id = call.draw.executionId) = [row]) :
    Accounted call llm db := by
  refine ⟨row, hrecorded, honly, ?_⟩
  intro now hnow
  show Repository.getOrganizationTokenUsageSince _ _ _ = _
  rw [usage_split _ _ call.draw.executionId, honly]
  have hwindow : now - budgetWindow ≤ row.startedAt := by
    rw [hrecorded.startedAt]
    exact Nat.sub_le_iff_le_add.mpr hnow
  have hcounted : Repository.getOrganizationTokenUsageSince call.actor.organizationId
      (now - budgetWindow) [row] = (row.promptTokens.getD 0, row.completionTokens.getD 0) := by
    have hone : ([row].filter fun row => decide
        (row.organizationId = call.actor.organizationId ∧ now - budgetWindow ≤ row.startedAt)) =
        [row] := by
      refine List.filter_eq_self.mpr fun other hother => ?_
      obtain rfl := List.mem_singleton.mp hother
      exact decide_eq_true ⟨hrecorded.organizationId, hwindow⟩
    simp only [Repository.getOrganizationTokenUsageSince, hone, List.map_cons, List.map_nil,
      List.sum_singleton]
  rw [hcounted]

/-- A fresh row is the only one of its id. -/
theorem only_of_fresh (hrecorded : Recorded call llm row)
    (hfresh : ∀ other ∈ db.agentExecutions, other.id ≠ call.draw.executionId)
    (hadded : db'.agentExecutions = db.agentExecutions ++ [row]) :
    (db'.agentExecutions.filter fun row => row.id = call.draw.executionId) = [row] := by
  have hnone : (db.agentExecutions.filter fun row => row.id = call.draw.executionId) = [] :=
    List.filter_eq_nil_iff.mpr fun other hother => by simpa using hfresh other hother
  rw [hadded, List.filter_append, hnone, List.filter_cons_of_pos (by simp [hrecorded.id])]
  rfl

/-- No later request adds a row under an id that is taken. -/
theorem only_later {id : Uuid} (other : Call ε κ ω ρ)
    (honly : (db.agentExecutions.filter fun row => row.id = id) = [row]) :
    ((respond settings other db).2.agentExecutions.filter fun row => row.id = id) = [row] := by
  rcases respond_effect settings other db with
    ⟨ran, row', -, -, -, hfresh, hrecorded, hadded⟩ | ⟨hsame, -⟩
  · have hmem : row ∈ db.agentExecutions.filter fun row => row.id = id := by
      rw [honly]
      exact List.mem_singleton_self row
    obtain ⟨hrow, hid⟩ := List.mem_filter.mp hmem
    have hne : row'.id ≠ id := by
      intro heq
      apply hfresh row hrow
      rw [of_decide_eq_true hid, ← heq, hrecorded.id]
    rw [hadded, List.filter_append, honly, List.filter_cons_of_neg (by simp [hne])]
    rfl
  · rw [hsame]
    exact honly

theorem only_after {id : Uuid} (later : List (Call ε κ ω ρ))
    (honly : (db.agentExecutions.filter fun row => row.id = id) = [row]) :
    ((after settings db later).agentExecutions.filter fun row => row.id = id) = [row] := by
  induction later generalizing db with
  | nil => exact honly
  | cons other later ih => exact ih (only_later other honly)

theorem accounted_of_kept {ran : Ran} (hran : call.ran settings db = some ran)
    (hkept : Kept settings call db) (later : List (Call ε κ ω ρ)) :
    Accounted call ran.llm (after settings db (call :: later)) := by
  obtain ⟨ran', hran', hk, habort⟩ := hkept
  obtain rfl : ran' = ran := Option.some.inj (hran'.symm.trans hran)
  rcases respond_effect settings call db with
    ⟨r, row, hr, -, -, hfresh, hrecorded, hadded⟩ | ⟨-, hnot⟩
  · obtain rfl : r = ran' := Option.some.inj (hr.symm.trans hran)
    exact accounted_of_row hrecorded (only_after later (only_of_fresh hrecorded hfresh hadded))
  · rcases (hnot ran' hran).1 with hfalse | htrue
    · rw [hk] at hfalse
      cases hfalse
    · rw [habort] at htrue
      cases htrue

/-- A request whose row is there right after it was kept. -/
theorem kept_of_accounted {llm' : LlmUse} (hreached : Reached settings call db llm)
    (haccounted : Accounted call llm' (respond settings call db).2) : Kept settings call db := by
  obtain ⟨ran, hran, -, -⟩ := hreached
  rcases respond_effect settings call db with
    ⟨r, -, hr, hk, habort, -⟩ | ⟨hsame, hnot⟩
  · exact ⟨r, hr, hk, habort⟩
  · obtain ⟨row, hrecorded, honly, -⟩ := haccounted
    rw [hsame] at honly
    have hmem : row ∈ db.agentExecutions.filter fun row => row.id = call.draw.executionId := by
      rw [honly]
      exact List.mem_singleton_self row
    exact absurd hrecorded.id ((hnot ran hran).2 row (List.mem_filter.mp hmem).1)

end Account

/-- Every request that reached the model is accounted for, in every state from then on. -/
def AllAccounted (settings : Settings) (start : Db ε κ) (calls : List (Call ε κ ω ρ)) : Prop :=
  ∀ before call later llm, before ++ call :: later <+: calls →
    Reached settings call (after settings start before) llm →
    Accounted call llm (after settings start (before ++ call :: later))

theorem after_append (start : Db ε κ) (before later : List (Call ε κ ω ρ)) :
    after settings start (before ++ later) = after settings (after settings start before) later :=
  List.foldl_append

/-- In every run of requests the spend of those that reached the model is counted
exactly if each of them ended in an outcome that its entry point keeps. -/
theorem spend_counted_iff (settings : Settings) (start : Db ε κ) (calls : List (Call ε κ ω ρ)) :
    AllAccounted settings start calls ↔
      ∀ before call llm, before ++ [call] <+: calls →
        Reached settings call (after settings start before) llm →
        Kept settings call (after settings start before) := by
  constructor
  · intro hcounted before call llm hprefix hreached
    have haccounted := hcounted before call [] llm hprefix hreached
    rw [after_append] at haccounted
    exact kept_of_accounted hreached haccounted
  · intro hkept before call later llm hprefix hreached
    have hfirst : before ++ [call] <+: calls := by
      refine List.IsPrefix.trans ⟨later, ?_⟩ hprefix
      rw [List.append_assoc]
      rfl
    have hk := hkept before call llm hfirst hreached
    obtain ⟨ran, hran, rfl, -⟩ := hreached
    rw [after_append]
    exact accounted_of_kept hran hk later

/-! ## A postmortem whose model is out of reach -/

def reporter : Identity :=
  { kind := .user, subject := "7", organizationId := 1, userId := some 7,
    permissions := {Incidents.incidentReadPermission} }

def outageDb : Db Unit Unit :=
  { shared :=
      { rest := ()
        incidents :=
          [{ id := 5, organizationId := 1, projectId := 3, title := "Checkout is down",
             severity := "high", reportedBy := 7, createdAt := 0, description := "502",
             updatedAt := 0 }] } }

/-- The first step of the pipeline is answered, the second meets an outage. -/
def outage (_ : List TimelineEntry) : Service AgentExn LlmUse (String × List ActionItem) := do
  Service.write fun llm =>
    { llm with
      calls := llm.calls + 2
      usage := [("gpt-4o-mini",
        { inputTokens := some 900, outputTokens := some 100, totalTokens := some 1000 })] }
  Service.raise (.transientLlm "Connection error.")

def outageCall : Call Unit Unit Unit Unit :=
  { draw := { executionId := 9, startedAt := 10, checkedAt := 10, completedAt := 20 }
    actor := reporter
    triggerSource := .coreApi
    request := .generatePostmortem outage 5 }

/-- The thousand tokens of the failed run are in no row. -/
theorem spend_not_counted : ¬ ∀ (settings : Settings) (start : Db Unit Unit)
    (calls : List (Call Unit Unit Unit Unit)), AllAccounted settings start calls := by
  intro hall
  have hran : outageCall.ran {} outageDb = some
      { llm := { calls := 2, usage := [("gpt-4o-mini",
          { inputTokens := some 900, outputTokens := some 100, totalTokens := some 1000 })] }
        aborted := false
        kept := false } := by
    decide
  have hreached : Reached {} outageCall outageDb _ := ⟨_, hran, rfl, by decide⟩
  have haccounted := hall {} outageDb [outageCall] [] outageCall [] _ (List.prefix_refl _) hreached
  have hkept : Kept {} outageCall outageDb := kept_of_accounted hreached haccounted
  obtain ⟨ran, hran', hk, -⟩ := hkept
  obtain rfl := Option.some.inj (hran.symm.trans hran')
  cases hk

end Ekip.Agents.SpendCounted
