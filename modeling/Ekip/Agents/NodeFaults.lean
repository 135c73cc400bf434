import Ekip.Agents.Investigation.Node

/-!
# The graph under a choice of failing statements

Every node is built from statements that may fail, from statements that do not, and
from calls outside the database, so all of them follow the rules of `Faulty`; without
a failing statement a node leaves the incidents alone and raises little.
-/
namespace Ekip.Agents

open Ekip.Lib Ekip.Database Ekip.Shared Ekip.Core

variable {ε κ τ ω α : Type}

def Run.status {σ : Type} (run : Run σ) : Status := run.toTransaction.status

/-! ## What faults change -/

abbrev FaultyNode (P : Faults AgentExn → NodeM ε κ α) : Prop := Faulty Run.status P

theorem onTransaction_faulty {P : Faults AgentExn → Service AgentExn (Transaction (PlatformDb ε κ)) α}
    (hP : Faulty Transaction.status P) : FaultyNode fun faults => onTransaction (P faults) :=
  hP.zoom (fun _ => rfl) fun _ _ => rfl

theorem statement_faulty (x : Service AgentExn (PlatformDb ε κ) α) :
    FaultyNode fun _ => statement x :=
  onTransaction_faulty (.statement .inFailedTransaction x)

theorem fallible_faulty (x : Service AgentExn (PlatformDb ε κ) α) :
    FaultyNode fun faults => fallible faults x :=
  onTransaction_faulty (.fallible .inFailedTransaction x)

theorem answered_faulty (r : Except Exn α) : FaultyNode (ε := ε) (κ := κ) fun _ => answered r :=
  .ofExcept _

theorem orFallback_faulty {P : Faults AgentExn → NodeM ε κ α} (fallback : α) (hP : FaultyNode P) :
    FaultyNode fun faults => orFallback fallback (P faults) := by
  apply Faulty.bind (Faulty.attempt hP)
  intro outcome
  cases outcome with
  | ok a => exact .pure a
  | error e => exact .ite (.pure fallback) (.raise e)

theorem callWithRetry_faulty {P : Nat → Faults AgentExn → NodeM ε κ α}
    (hP : ∀ attempt, FaultyNode (P attempt)) (remaining : Nat) :
    FaultyNode fun faults => callWithRetry (fun attempt => P attempt faults) remaining := by
  induction remaining with
  | zero => exact hP maxRetries
  | succ remaining ih =>
    apply Faulty.bind (Faulty.attempt (hP _))
    intro outcome
    cases outcome with
    | ok a => exact .pure a
    | error e => exact .ite ih (.raise e)

theorem fallibleRead_faulty (f : PlatformDb ε κ → Except Exn α) :
    FaultyNode fun faults => fallibleRead faults f :=
  .bind (fallible_faulty _) fun _ => answered_faulty _

theorem readChunks_faulty (includeMetadata : Bool)
    (f : PlatformDb ε κ → Except Exn (List (Retrieval.ScoredChunk ω))) :
    FaultyNode fun faults => readChunks faults includeMetadata f := by
  apply Faulty.bind (fallibleRead_faulty f)
  intro chunks
  exact .ite (.bind (fallible_faulty _) fun _ => .pure _) (.pure _)

section Searches

variable (engine : Retrieval.Engine ε τ ω)

theorem searchOne_faulty (embedded : Except Exn ε) (query : String)
    (filters : Retrieval.SearchFilters) (topK : Int) (collection : CollectionName)
    (includeMetadata : Bool) :
    FaultyNode (κ := κ) fun faults =>
      searchOne engine faults embedded query filters topK collection includeMetadata :=
  .bind (answered_faulty _) fun _ => .bind (readChunks_faulty _ _) fun _ =>
    .bind (readChunks_faulty _ _) fun _ => .pure _

theorem readSignalLists_faulty (query : String) (queryEmbedding : ε)
    (filters : Retrieval.SearchFilters) (topK : Int) (collection : Option CollectionName) :
    FaultyNode (κ := κ) fun faults =>
      readSignalLists engine faults query queryEmbedding filters topK collection := by
  cases collection with
  | none =>
    exact .bind (fallibleRead_faulty _) fun _ => .bind (fallibleRead_faulty _) fun _ => .pure _
  | some name =>
    exact .bind (readChunks_faulty _ _) fun _ => .bind (readChunks_faulty _ _) fun _ => .pure _

theorem searchSignals_faulty (embedded : Except Exn ε) (query : String)
    (filters : Retrieval.SearchFilters) (topK : Int) (collection : Option CollectionName) :
    FaultyNode (κ := κ) fun faults =>
      searchSignals engine faults embedded query filters topK collection :=
  .bind (answered_faulty _) fun _ => .bind (readSignalLists_faulty engine _ _ _ _ _) fun _ => .pure _

end Searches

theorem recallRelevant_faulty (env : RecallEnv ε ω) (actor : Identity) (query : String) :
    FaultyNode (κ := κ) fun faults => recallRelevant env faults actor query := by
  refine .ite (.pure _) (.bind (answered_faulty _) fun _ => .bind (fallibleRead_faulty _)
    fun candidates => .bind ?_ fun _ => .pure _)
  exact .ite (.pure _) (orFallback_faulty _ (.bind (fallible_faulty _) fun _ => .pure _))

section RetrievalAgent

variable (retrieval : RetrievalEnv ε τ ω)

theorem rewriteQuery_faulty (query : String) (incidentId : Option Uuid) (actor : Identity) :
    FaultyNode (κ := κ) fun _ => rewriteQuery retrieval query incidentId actor := by
  unfold rewriteQuery
  refine .bind ?_ fun description => ?_
  · cases incidentId with
    | none => exact .pure _
    | some id => exact .bind (statement_faulty _) fun _ => .bind (.ofExcept _) fun _ => .pure _
  · exact .ite (.pure _) (.bind (orFallback_faulty _ (answered_faulty _)) fun _ => .pure _)

theorem hybridResult_faulty (name rewrittenQuery : String) (actor : Identity) (topK : Int)
    (collection : Option CollectionName) :
    FaultyNode (κ := κ) fun faults =>
      hybridResult faults retrieval name rewrittenQuery actor topK collection :=
  orFallback_faulty _ (.bind
    (callWithRetry_faulty (fun _ => searchSignals_faulty retrieval.engine _ _ _ _ _) _) fun _ =>
      .pure _)

theorem retrievalAgentNode_faulty (state : GraphState ω) :
    FaultyNode (κ := κ) fun faults => retrievalAgentNode faults retrieval state := by
  unfold retrievalAgentNode
  refine .bind (rewriteQuery_faulty retrieval _ _ _) fun _ =>
    .bind (hybridResult_faulty retrieval _ _ _ _ _) fun _ => .bind (.ofExcept _) fun _ =>
      .bind ?_ fun _ => .pure _
  exact .ite (.pure _) (.bind (hybridResult_faulty retrieval _ _ _ _ _) fun _ => .pure _)

end RetrievalAgent

section InvestigationAgent

open Investigation

variable (env : Investigation.Env ε κ τ ω) (query : String) (actor : Identity)

theorem searchSource_faulty (name : String) (attempt : Nat) (collection : CollectionName)
    (includeMetadata : Bool) :
    FaultyNode fun faults =>
      searchSource env faults name attempt query actor collection includeMetadata :=
  searchOne_faulty env.engine _ _ _ _ _ _

theorem gatherCodeEvidence_faulty :
    FaultyNode fun faults => Investigation.gatherCodeEvidence env faults query actor := by
  refine orFallback_faulty _ (.bind (callWithRetry_faulty (fun attempt => ?_) _) fun _ => .pure _)
  exact .bind (searchSource_faulty env _ _ _ _ _ _) fun _ =>
    .bind (searchSource_faulty env _ _ _ _ _ _) fun _ => .pure _

theorem gatherKnowledgeEvidence_faulty :
    FaultyNode fun faults => Investigation.gatherKnowledgeEvidence env faults query actor :=
  orFallback_faulty _ (.bind
    (callWithRetry_faulty (fun _ => searchSource_faulty env _ _ _ _ _ _) _) fun _ => .pure _)

theorem gatherSlackEvidence_faulty :
    FaultyNode fun faults => Investigation.gatherSlackEvidence env faults query actor :=
  orFallback_faulty _ (.bind
    (callWithRetry_faulty (fun _ => searchSource_faulty env _ _ _ _ _ _) _) fun _ => .pure _)

theorem gatherPostmortemEvidence_faulty (existing : List EvidenceItem) :
    FaultyNode fun faults => gatherPostmortemEvidence env faults actor existing :=
  orFallback_faulty _ (.bind (callWithRetry_faulty (fun _ => fallibleRead_faulty _) _) fun _ =>
    .pure _)

theorem fetchLive_faulty (connectors : List LiveConnector) :
    FaultyNode fun _ => fetchLive env query connectors := by
  induction connectors with
  | nil => exact .pure _
  | cons connector connectors ih =>
    refine .bind ?_ fun _ => .bind ih fun _ => .pure _
    unfold liveItems
    cases (env.live connector).filter fun _ => connector.status = "active" with
    | none => exact .pure _
    | some source => exact orFallback_faulty _ (answered_faulty _)

theorem gatherLiveEvidence_faulty :
    FaultyNode fun faults => gatherLiveEvidence env faults query actor := by
  refine .bind (orFallback_faulty _ (.bind ?_ fun _ => .pure _)) fun _ => fetchLive_faulty env _ _
  exact .bind (answered_faulty _) fun _ => fallibleRead_faulty _

theorem whileShort_faulty (evidence : List EvidenceItem)
    {source : List EvidenceItem → Faults AgentExn → NodeM ε κ (List EvidenceItem)}
    (hsource : ∀ evidence, FaultyNode (source evidence)) :
    FaultyNode fun faults => whileShort evidence fun evidence => source evidence faults :=
  .ite (.bind (hsource _) fun _ => .pure _) (.pure _)

theorem gatherEvidence_faulty (incidentId : Option Uuid) :
    FaultyNode fun faults => Investigation.gatherEvidence env faults query actor incidentId := by
  refine .bind (gatherCodeEvidence_faulty env _ _) fun _ =>
    .bind (whileShort_faulty _ fun _ => gatherKnowledgeEvidence_faulty env _ _) fun _ =>
    .bind (whileShort_faulty _ fun _ => gatherSlackEvidence_faulty env _ _) fun _ =>
    .bind (whileShort_faulty _ fun _ => gatherPostmortemEvidence_faulty env _ _) fun _ =>
    .bind (whileShort_faulty _ fun _ => ?_) fun _ => .pure _
  exact .ite (gatherLiveEvidence_faulty env _ _) (.pure _)

theorem investigationAgentNode_faulty (draw : Investigation.Draw) (state : GraphState ω) :
    FaultyNode fun faults => investigationAgentNode env faults draw state := by
  refine .bind (gatherEvidence_faulty env _ _ _) fun _ => .bind ?_ fun _ => .bind ?_ fun _ => .pure _
  · exact .ite (.pure _) (.bind (orFallback_faulty _ (answered_faulty _)) fun _ => .pure _)
  · unfold attachToTimeline
    cases state.incidentId with
    | none => exact .pure _
    | some incidentId =>
      exact orFallback_faulty _ (.bind (statement_faulty _) fun _ => .bind (.ofExcept _) fun _ =>
        .pure _)

end InvestigationAgent

/-! ## Without a failing statement -/

/-- The transaction is healthy and the incidents and their timeline are `timeline`. -/
structure Quiet (timeline : TimelineDb ε) (run : Run (PlatformDb ε κ)) : Prop where
  healthy : run.aborted = false
  timeline : run.tables.toTimelineDb = timeline

def IsException (e : AgentExn) : Prop := e.isException = true

/-- No domain error: the graph's caller gets an answer for it. -/
def IsMild (e : AgentExn) : Prop := e.isEkipError = false ∧ e.isException = true

def Never (_ : AgentExn) : Prop := False

/-- A part of a node that leaves the incidents alone and raises only `E`. -/
abbrev Gentle (timeline : TimelineDb ε) (E : AgentExn → Prop) (x : NodeM ε κ α) : Prop :=
  Service.Ensures (Quiet timeline) E x

section Gentle

variable {timeline : TimelineDb ε} {E : AgentExn → Prop}

theorem onTransaction_gentle {x : Service AgentExn (Transaction (PlatformDb ε κ)) α}
    (hx : ∀ t, t.aborted = false → ∃ a u, x.Returns t a u ∧ u.aborted = false ∧
      u.tables.toTimelineDb = t.tables.toTimelineDb) : Gentle timeline Never (onTransaction x) := by
  intro run hrun
  obtain ⟨a, u, hreturns, hhealthy, hsame⟩ := hx run.toTransaction hrun.healthy
  have hzoom : (onTransaction x).Returns run a { run with toTransaction := u } :=
    Service.zoom_returns.mpr ⟨u, hreturns, rfl⟩
  constructor
  · rw [show (onTransaction x run).2 = { run with toTransaction := u } from congrArg Prod.snd hzoom]
    exact ⟨hhealthy, hsame.trans hrun.timeline⟩
  · intro e he
    unfold Service.Raises at he
    rw [hzoom] at he
    cases he

theorem fallible_gentle {x : Service AgentExn (PlatformDb ε κ) α}
    (hx : ∀ db, ∃ a db', x.Returns db a db' ∧ db'.toTimelineDb = db.toTimelineDb) :
    Gentle timeline Never (fallible noFaults x) := by
  apply onTransaction_gentle
  intro t habort
  obtain ⟨a, db', hreturns, hsame⟩ := hx t.tables
  refine ⟨a, { t with tables := db', issued := t.issued + 1 }, ?_, habort, hsame⟩
  unfold Service.Returns Transaction.fallible
  rw [if_neg (by rw [habort]; decide)]
  exact Transaction.statement_returns.mpr ⟨habort, db', hreturns, rfl⟩

theorem Gentle.anyway {x : NodeM ε κ α} (hx : Gentle timeline Never x) : Gentle timeline E x :=
  hx.weaken fun _ h => h.elim

theorem answered_gentle (r : Except Exn α) :
    Gentle (κ := κ) timeline IsException (answered r) := by
  apply Service.Ensures.ofExcept
  intro e he
  cases r with
  | ok a => cases he
  | error e' =>
    cases he
    rfl

/-- Whatever is caught is not raised. -/
theorem orFallback_gentle {x : NodeM ε κ α} (fallback : α) (hx : Gentle timeline IsException x) :
    Gentle timeline Never (orFallback fallback x) := by
  apply Service.Ensures.handle hx
  · intro a
    exact .pure a
  · intro e he
    have hexception : e.isException = true := he
    simp only [hexception, if_true]
    exact .pure fallback

theorem callWithRetry_gentle {P : Nat → NodeM ε κ α}
    (hP : ∀ attempt, Gentle timeline IsException (P attempt)) (remaining : Nat) :
    Gentle timeline IsException (callWithRetry P remaining) := by
  induction remaining with
  | zero => exact hP maxRetries
  | succ remaining ih =>
    apply Service.Ensures.handle (hP _)
    · intro a
      exact .pure a
    · intro e he
      have hexception : e.isException = true := he
      simp only [hexception, if_true]
      exact ih

theorem fallibleRead_gentle (f : PlatformDb ε κ → Except Exn α) :
    Gentle timeline IsException (fallibleRead noFaults f) := by
  refine .bind (Gentle.anyway (fallible_gentle ?_)) fun _ => answered_gentle _
  intro db
  exact ⟨f db, db, Service.read_returns.mpr ⟨rfl, rfl⟩, rfl⟩

theorem readChunks_gentle (includeMetadata : Bool)
    (f : PlatformDb ε κ → Except Exn (List (Retrieval.ScoredChunk ω))) :
    Gentle timeline IsException (readChunks noFaults includeMetadata f) := by
  refine .bind (fallibleRead_gentle f) fun chunks => ?_
  split
  · refine .bind (Gentle.anyway (fallible_gentle ?_)) fun _ => .pure _
    intro db
    exact ⟨(), db, rfl, rfl⟩
  · exact .pure _

theorem searchOne_gentle (engine : Retrieval.Engine ε τ ω) (embedded : Except Exn ε)
    (query : String) (filters : Retrieval.SearchFilters) (topK : Int) (collection : CollectionName)
    (includeMetadata : Bool) :
    Gentle (κ := κ) timeline IsException
      (searchOne engine noFaults embedded query filters topK collection includeMetadata) :=
  .bind (answered_gentle _) fun _ => .bind (readChunks_gentle _ _) fun _ =>
    .bind (readChunks_gentle _ _) fun _ => .pure _

theorem searchSignals_gentle (engine : Retrieval.Engine ε τ ω) (embedded : Except Exn ε)
    (query : String) (filters : Retrieval.SearchFilters) (topK : Int)
    (collection : Option CollectionName) :
    Gentle (κ := κ) timeline IsException
      (searchSignals engine noFaults embedded query filters topK collection) := by
  refine .bind (answered_gentle _) fun queryEmbedding => .bind ?_ fun _ => .pure _
  cases collection with
  | none =>
    exact .bind (fallibleRead_gentle _) fun _ => .bind (fallibleRead_gentle _) fun _ => .pure _
  | some name =>
    exact .bind (readChunks_gentle _ _) fun _ => .bind (readChunks_gentle _ _) fun _ => .pure _

theorem recallRelevant_gentle (env : RecallEnv ε ω) (actor : Identity) (query : String) :
    Gentle (κ := κ) timeline IsException (recallRelevant env noFaults actor query) := by
  unfold recallRelevant touchRecalled
  split
  · exact .pure _
  · refine .bind (answered_gentle _) fun _ => .bind (fallibleRead_gentle _) fun candidates =>
      .bind (Gentle.anyway ?_) fun _ => .pure _
    split
    · exact .pure _
    · refine orFallback_gentle _ (Gentle.anyway (.bind (fallible_gentle ?_) fun _ => .pure _))
      intro db
      exact ⟨_, _, rfl, rfl⟩

/-- The actor may read the incident. -/
def Readable (actor : Identity) (incidentId : Uuid) (timeline : TimelineDb ε) : Prop :=
  ∃ row, Incidents.Repository.getIncidentById timeline.toIncidentDb incidentId = some row ∧
    row.organizationId = actor.organizationId ∧
    actor.hasPermission Incidents.incidentReadPermission (some row.projectId) = true

/-- What the statement that reads an incident returns. -/
theorem readIncident_answers (actor : Identity) (incidentId : Uuid) (db : PlatformDb ε κ) :
    ∃ r, (readIncident actor incidentId).Returns db r db ∧
      ((∃ row, r = .ok row ∧ Readable actor incidentId db.toTimelineDb) ∨
        ∃ e, r = .error e ∧ e.isEkipError = true ∧ ¬ Readable actor incidentId db.toTimelineDb) := by
  have hsame : ∀ {r : Except Exn IncidentRow},
      Incidents.getIncident (ε := ε) actor actor.organizationId incidentId db.toIncidentDb =
        (r, db.toIncidentDb) →
      readIncident actor incidentId db =
        domainErrors (fun db : PlatformDb ε κ => (r.mapError AgentExn.core, db)) db := by
    intro r h
    unfold readIncident domainErrors onTimeline Incidents.onIncidents inCore Service.zoom
    simp only [h]
    cases r <;> rfl
  rcases Incidents.getIncident_cases actor actor.organizationId incidentId db.toIncidentDb with
    ⟨row, hreturns⟩ | ⟨error, herror⟩
  · obtain ⟨-, hrow, horg, hread, -⟩ := Incidents.getIncident_returns.mp hreturns
    refine ⟨.ok row, ?_, .inl ⟨row, rfl, row, hrow, horg, hread⟩⟩
    unfold Service.Returns
    rw [hsame hreturns]
    rfl
  · refine ⟨.error (.core (.ekip error)), ?_, .inr ⟨_, rfl, rfl, ?_⟩⟩
    · unfold Service.Returns
      rw [hsame herror]
      rfl
    · intro hreadable
      obtain ⟨row, hrow, horg, hread⟩ := hreadable
      have hreturns : (Incidents.getIncident actor actor.organizationId incidentId).Returns
          db.toIncidentDb row db.toIncidentDb :=
        Incidents.getIncident_returns.mpr ⟨rfl, hrow, horg, hread, rfl⟩
      unfold Service.Returns at hreturns
      rw [herror] at hreturns
      cases hreturns

theorem statement_returns {x : Service AgentExn (PlatformDb ε κ) α} {run : Run (PlatformDb ε κ)}
    {a : α} {db : PlatformDb ε κ} (habort : run.aborted = false) (hx : x.Returns run.tables a db) :
    (statement x).Returns run a { run with tables := db } := by
  unfold statement onTransaction
  apply Service.zoom_returns.mpr
  exact ⟨_, Transaction.statement_returns.mpr ⟨habort, _, hx, rfl⟩, rfl⟩

theorem describeIncident_some {actor : Identity} {incidentId : Uuid} {run : Run (PlatformDb ε κ)}
    {r : Except AgentExn IncidentRow} (habort : run.aborted = false)
    (hread : (readIncident actor incidentId).Returns run.tables r run.tables) :
    describeIncident actor (some incidentId) run =
      (r.map fun incident => some incident.description, run) := by
  have hfirst : statement (readIncident actor incidentId) run = (.ok r, run) :=
    statement_returns habort hread
  show (statement (readIncident actor incidentId) >>= fun incident =>
    Service.ofExcept incident >>= fun incident => pure (some incident.description)) run = _
  rw [Service.bind_of_ok hfirst]
  cases r <;> rfl

theorem describeIncident_gentle {actor : Identity} {incidentId : Option Uuid}
    (hread : ∀ id, incidentId = some id → Readable actor id timeline) :
    Gentle (κ := κ) timeline Never (describeIncident actor incidentId) := by
  cases incidentId with
  | none => exact .pure _
  | some id =>
    intro run hrun
    obtain ⟨r, hreturns, hanswer⟩ := readIncident_answers actor id run.tables
    have hreadable : Readable actor id run.tables.toTimelineDb := by
      rw [hrun.timeline]
      exact hread id rfl
    obtain ⟨row, rfl⟩ : ∃ row, r = .ok row := by
      rcases hanswer with ⟨row, hrow, -⟩ | ⟨e, -, -, hunreadable⟩
      · exact ⟨row, hrow⟩
      · exact absurd hreadable hunreadable
    unfold Service.Raises
    rw [describeIncident_some hrun.healthy hreturns]
    refine ⟨hrun, ?_⟩
    intro e he
    cases he

/-- A bad or foreign incident is raised. -/
theorem describeIncident_raises {actor : Identity} {incidentId : Uuid} {run : Run (PlatformDb ε κ)}
    (hrun : Quiet timeline run) (hunreadable : ¬ Readable actor incidentId timeline) :
    ∃ e, describeIncident actor (some incidentId) run = (.error e, run) ∧ e.isEkipError = true := by
  obtain ⟨r, hreturns, hanswer⟩ := readIncident_answers actor incidentId run.tables
  rw [hrun.timeline] at hanswer
  rcases hanswer with ⟨row, -, hreadable⟩ | ⟨e, rfl, hekip, -⟩
  · exact absurd hreadable hunreadable
  · exact ⟨e, describeIncident_some hrun.healthy hreturns, hekip⟩

section RetrievalAgent

variable (retrieval : RetrievalEnv ε τ ω)

theorem rewriteQuery_gentle (query : String) {incidentId : Option Uuid} {actor : Identity}
    (hread : ∀ id, incidentId = some id → Readable actor id timeline) :
    Gentle (κ := κ) timeline Never (rewriteQuery retrieval query incidentId actor) := by
  refine .bind (describeIncident_gentle hread) fun _ => ?_
  split
  · exact .pure _
  · exact .bind (orFallback_gentle _ (answered_gentle _)) fun _ => .pure _

theorem hybridResult_gentle (name rewrittenQuery : String) (actor : Identity) (topK : Int)
    (collection : Option CollectionName) :
    Gentle (κ := κ) timeline Never
      (hybridResult noFaults retrieval name rewrittenQuery actor topK collection) :=
  orFallback_gentle _ (.bind
    (callWithRetry_gentle (fun _ => searchSignals_gentle retrieval.engine _ _ _ _ _) _) fun _ =>
      .pure _)

theorem historicalSimilarity_gentle (rewrittenQuery : String) (actor : Identity)
    (incidentId : Option Uuid) :
    Gentle (κ := κ) timeline Never
      (historicalSimilarity noFaults retrieval rewrittenQuery actor incidentId) := by
  unfold historicalSimilarity
  split
  · exact .pure _
  · exact .bind (hybridResult_gentle retrieval _ _ _ _ _) fun _ => .pure _

theorem mapError_other_mild {r : Except String α} {e : AgentExn}
    (h : r.mapError AgentExn.other = .error e) : IsMild e := by
  cases r with
  | ok a => cases h
  | error text =>
    cases h
    exact ⟨rfl, rfl⟩

/-- Of a readable incident, or of none. -/
theorem retrievalAgentNode_gentle {state : GraphState ω}
    (hread : ∀ id, state.incidentId = some id → Readable state.actor id timeline) :
    Gentle (κ := κ) timeline IsMild (retrievalAgentNode noFaults retrieval state) := by
  exact .bind (Gentle.anyway (rewriteQuery_gentle retrieval _ hread)) fun _ =>
    .bind (Gentle.anyway (hybridResult_gentle retrieval _ _ _ _ _)) fun _ =>
    .bind (.ofExcept fun _ => mapError_other_mild) fun _ =>
    .bind (Gentle.anyway (historicalSimilarity_gentle retrieval _ _ _)) fun _ => .pure _

/-- Of an incident that the actor may not read. -/
theorem retrievalAgentNode_raises {state : GraphState ω} {incidentId : Uuid}
    {run : Run (PlatformDb ε κ)} (hid : state.incidentId = some incidentId)
    (hrun : Quiet timeline run) (hunreadable : ¬ Readable state.actor incidentId timeline) :
    ∃ e, retrievalAgentNode noFaults retrieval state run = (.error e, run) ∧
      e.isEkipError = true := by
  obtain ⟨e, hdescribe, hekip⟩ := describeIncident_raises hrun hunreadable
  have hrewrite : rewriteQuery retrieval state.query state.incidentId state.actor run =
      (.error e, run) := by
    rw [hid]
    exact Service.bind_of_error hdescribe
  exact ⟨e, Service.bind_of_error hrewrite, hekip⟩

end RetrievalAgent

section InvestigationAgent

open Investigation

variable (env : Investigation.Env ε κ τ ω) (query : String) (actor : Identity)

theorem searchSource_gentle (name : String) (attempt : Nat) (collection : CollectionName)
    (includeMetadata : Bool) :
    Gentle timeline IsException
      (searchSource env noFaults name attempt query actor collection includeMetadata) :=
  searchOne_gentle env.engine _ _ _ _ _ _

theorem gatherCodeEvidence_gentle :
    Gentle timeline Never (Investigation.gatherCodeEvidence env noFaults query actor) := by
  refine orFallback_gentle _ (.bind (callWithRetry_gentle (fun attempt => ?_) _) fun _ => .pure _)
  exact .bind (searchSource_gentle env _ _ _ _ _ _) fun _ =>
    .bind (searchSource_gentle env _ _ _ _ _ _) fun _ => .pure _

theorem gatherKnowledgeEvidence_gentle :
    Gentle timeline Never (Investigation.gatherKnowledgeEvidence env noFaults query actor) :=
  orFallback_gentle _ (.bind
    (callWithRetry_gentle (fun _ => searchSource_gentle env _ _ _ _ _ _) _) fun _ => .pure _)

theorem gatherSlackEvidence_gentle :
    Gentle timeline Never (Investigation.gatherSlackEvidence env noFaults query actor) :=
  orFallback_gentle _ (.bind
    (callWithRetry_gentle (fun _ => searchSource_gentle env _ _ _ _ _ _) _) fun _ => .pure _)

theorem gatherPostmortemEvidence_gentle (existing : List EvidenceItem) :
    Gentle timeline Never (gatherPostmortemEvidence env noFaults actor existing) :=
  orFallback_gentle _ (.bind (callWithRetry_gentle (fun _ => fallibleRead_gentle _) _) fun _ =>
    .pure _)

theorem fetchLive_gentle (connectors : List LiveConnector) :
    Gentle timeline Never (fetchLive env query connectors) := by
  induction connectors with
  | nil => exact .pure _
  | cons connector connectors ih =>
    refine .bind ?_ fun _ => .bind ih fun _ => .pure _
    unfold liveItems
    cases (env.live connector).filter fun _ => connector.status = "active" with
    | none => exact .pure _
    | some source => exact orFallback_gentle _ (answered_gentle _)

theorem gatherLiveEvidence_gentle :
    Gentle timeline Never (gatherLiveEvidence env noFaults query actor) := by
  refine .bind (orFallback_gentle _ (.bind ?_ fun _ => .pure _)) fun _ => fetchLive_gentle env _ _
  exact .bind (answered_gentle _) fun _ => fallibleRead_gentle _

theorem whileShort_gentle (evidence : List EvidenceItem)
    {source : List EvidenceItem → NodeM ε κ (List EvidenceItem)}
    (hsource : ∀ evidence, Gentle timeline Never (source evidence)) :
    Gentle timeline Never (whileShort evidence source) := by
  unfold whileShort
  split
  · exact .bind (hsource _) fun _ => .pure _
  · exact .pure _

theorem gatherEvidence_gentle (incidentId : Option Uuid) :
    Gentle timeline Never (Investigation.gatherEvidence env noFaults query actor incidentId) := by
  refine .bind (gatherCodeEvidence_gentle env _ _) fun _ =>
    .bind (whileShort_gentle _ fun _ => gatherKnowledgeEvidence_gentle env _ _) fun _ =>
    .bind (whileShort_gentle _ fun _ => gatherSlackEvidence_gentle env _ _) fun _ =>
    .bind (whileShort_gentle _ fun _ => gatherPostmortemEvidence_gentle env _ _) fun _ =>
    .bind (whileShort_gentle _ fun _ => ?_) fun _ => .pure _
  split
  · exact gatherLiveEvidence_gentle env _ _
  · exact .pure _

theorem investigate_gentle (evidence : List EvidenceItem) :
    Gentle timeline Never (investigate env query evidence) := by
  unfold investigate
  split
  · exact .pure _
  · exact .bind (orFallback_gentle _ (answered_gentle _)) fun _ => .pure _

/-- A result that cannot be attached is a domain error, raised between the statements. -/
theorem recordInvestigationResult_answers {draw : Investigation.Draw} (actor : Identity)
    (incidentId : Uuid) (investigation : InvestigationResult) {db : PlatformDb ε κ}
    (hfresh : ∀ entry ∈ db.incidentTimeline, entry.id ≠ draw.entryId) :
    ∃ r db', (domainErrors (onTimeline (Incidents.recordInvestigationResult draw.entryId draw.now
        actor actor.organizationId incidentId investigation))).Returns db r db' ∧
      ∀ e, r = .error e → e.isException = true := by
  unfold Service.Returns domainErrors onTimeline inCore Service.zoom
  rcases Incidents.recordInvestigationResult_cases draw.now actor incidentId investigation hfresh with
    ⟨entry, timeline', hrecord⟩ | ⟨error, timeline', hrecord⟩
  · simp only [hrecord]
    refine ⟨_, _, rfl, ?_⟩
    intro e he
    cases he
  · simp only [hrecord]
    refine ⟨_, _, rfl, ?_⟩
    intro e he
    cases he
    rfl

theorem orFallback_returns {x : NodeM ε κ α} (fallback : α) {r : Except AgentExn α}
    {run u : Run (PlatformDb ε κ)} (hx : x run = (r, u))
    (hexception : ∀ e, r = .error e → e.isException = true) :
    ∃ a, (orFallback fallback x).Returns run a u := by
  cases r with
  | ok a => exact ⟨a, orFallback_of_ok hx⟩
  | error e => exact ⟨fallback, orFallback_of_error hx (hexception e rfl)⟩

theorem attachToTimeline_returns {draw : Investigation.Draw} (state : GraphState ω)
    (investigation : InvestigationResult) {run : Run (PlatformDb ε κ)} (hrun : Quiet timeline run)
    (hfresh : ∀ entry ∈ timeline.incidentTimeline, entry.id ≠ draw.entryId) :
    ∃ u, (attachToTimeline draw state investigation).Returns run () u ∧ u.aborted = false := by
  unfold attachToTimeline
  cases state.incidentId with
  | none => exact ⟨run, rfl, hrun.healthy⟩
  | some incidentId =>
    rw [← hrun.timeline] at hfresh
    obtain ⟨r, db', hrecord, hexception⟩ := recordInvestigationResult_answers state.actor
      incidentId investigation hfresh
    have hstatement := statement_returns hrun.healthy hrecord
    have hbody : (do
        let entry ← statement (domainErrors (onTimeline (Incidents.recordInvestigationResult
          draw.entryId draw.now state.actor state.actor.organizationId incidentId investigation)))
        let _ ← Service.ofExcept entry : NodeM ε κ Unit) run =
          (r.map fun _ => (), { run with tables := db' }) := by
      rw [Service.bind_of_ok hstatement]
      cases r <;> rfl
    obtain ⟨done, hreturns⟩ := orFallback_returns () hbody (by
      intro e he
      cases r with
      | ok entry => cases he
      | error e' =>
        cases he
        exact hexception e rfl)
    exact ⟨_, hreturns, hrun.healthy⟩

/-- The node raises nothing. -/
theorem investigationAgentNode_returns {draw : Investigation.Draw} (state : GraphState ω)
    {run : Run (PlatformDb ε κ)} (hrun : Quiet timeline run)
    (hfresh : ∀ entry ∈ timeline.incidentTimeline, entry.id ≠ draw.entryId) :
    ∃ state' u, (investigationAgentNode env noFaults draw state).Returns run state' u ∧
      u.aborted = false := by
  obtain ⟨evidence, v, hgather, hv⟩ := (gatherEvidence_gentle env state.query state.actor
    state.incidentId).returns hrun
  obtain ⟨investigation, w, hinvestigate, hw⟩ := (investigate_gentle env state.query evidence).returns hv
  obtain ⟨u, hattach, hhealthy⟩ := attachToTimeline_returns state investigation hw hfresh
  unfold investigationAgentNode
  simp only [Service.bind_returns]
  exact ⟨_, u, ⟨evidence, v, hgather, investigation, w, hinvestigate, (), u, hattach, rfl⟩, hhealthy⟩

end InvestigationAgent

end Gentle

end Ekip.Agents
