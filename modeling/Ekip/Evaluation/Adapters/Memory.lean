import Mathlib.Algebra.Order.Field.Basic
import Ekip.Core.Memory.Service
import Ekip.Evaluation.Schemas
import Ekip.Lib.Joined
import Ekip.Lib.Packing
import Ekip.Lib.TopRanked

/-!
# The two memory adapters: `evaluation/adapters/memory.py`

One answers a case from a corpus in memory, the other from the table. Scores are elements of
an ordered field, embeddings are unit vectors of one dimension, and a project is named by its
id. The columns that stand for a vocabulary are enumerations, as in the table.
-/
namespace Ekip.Evaluation

open Ekip.Lib Ekip.Database Ekip.Core

variable {K : Type} [Field K] [LinearOrder K]

/-! ## `evaluation/fixtures/memory_corpus.py` -/

structure UnitVector (K : Type) [Field K] (dimension : Nat) where
  coordinates : List K
  length_eq : coordinates.length = dimension
  unit : (coordinates.map fun x => x * x).sum = 1

def alice : String := "eval-user-alice"

structure MemoryFixture (K : Type) [Field K] (dimension : Nat) where
  label : String
  content : String
  scope : MemoryScope := .user
  ownerUserId : Option String := some alice
  projectId : Option Uuid := none
  memoryType : MemoryType := .fact
  status : MemoryStatus := .active
  /-- The empty list is `none`. -/
  embedding : Option (UnitVector K dimension) := none

variable {dimension : Nat} (fakeEmbed : String → UnitVector K dimension)

def MemoryFixture.vector (self : MemoryFixture K dimension) : UnitVector K dimension :=
  self.embedding.getD (fakeEmbed self.content)

/-! ## `FixtureMemoryAdapter` -/

/-- Vectors of one dimension always zip. -/
def cosineDistance (a b : UnitVector K dimension) : K :=
  1 - (List.zipWith (fun x y => x * y) a.coordinates b.coordinates).sum

omit [LinearOrder K] in
theorem cosineDistance_comm (a b : UnitVector K dimension) :
    cosineDistance a b = cosineDistance b a := by
  unfold cosineDistance
  rw [List.zipWith_comm]
  simp only [mul_comm]

namespace FixtureMemoryAdapter

def visible (case : EvaluationCase) (fixture : MemoryFixture K dimension) : Bool :=
  if fixture.status ≠ .active then false
  else match fixture.scope with
  | .user => fixture.ownerUserId = some case.identity.userId
  | .project => fixture.projectId.any fun projectId =>
    case.identity.projectPermissions.keys.contains projectId

/-- `recall`, a word of Lean. Python's sort is stable. -/
def recall_ (corpus : List (MemoryFixture K dimension)) (relevanceThreshold : K)
    (case : EvaluationCase) (limit : Int) : List String :=
  let queryVector := fakeEmbed case.query
  let visible := corpus.filter (visible case)
  let scored := visible.map fun f => (f, cosineDistance queryVector (f.vector fakeEmbed))
  let scored := Query.orderBy (fun a b => decide (a ≤ b)) Prod.snd scored
  ((Query.sliceTo limit scored).filter fun pair => decide (relevanceThreshold ≤ 1 - pair.2)).map
    fun pair => pair.1.label

end FixtureMemoryAdapter

/-! ## `RealMemoryAdapter` -/

/-- The ids that stand for the names of a corpus. -/
structure Naming where
  organizationUuid : String → Uuid
  userId : String → Uuid
  memoryId : String → Uuid
  findingId : String → Uuid
  organizationUuid_injective : Function.Injective organizationUuid
  memoryId_injective : Function.Injective memoryId
  findingId_injective : Function.Injective findingId

/-- The database's engine, and the model that embeds the query as the corpus does. -/
structure UnitEngine (fakeEmbed : String → UnitVector K dimension) where
  engine : Memory.Engine (List K) K
  embedQuery : ∀ text, engine.embedQuery text = .ok (fakeEmbed text).coordinates
  cosineDistance : ∀ a b : UnitVector K dimension,
    engine.cosineDistance a.coordinates b.coordinates = cosineDistance a b
  le : engine.le = fun a b => decide (a ≤ b)
  relevance : ∀ distance, engine.relevance distance = 1 - distance
  lt : engine.lt = fun a b => decide (a < b)

namespace RealMemoryAdapter

def recall_ (naming : Naming) (engine : Memory.Engine (List K) K) (settings : Memory.Settings K)
    (draw : Memory.Draw) (case : EvaluationCase) (limit : Int) :
    Memory.MemoryM (List K) (List String) := do
  let actor := case.identity.toIdentity (naming.organizationUuid case.organizationId)
  let recalled ← Memory.recallRelevant engine settings draw actor case.query
  pure ((Query.sliceTo limit recalled).map fun m => toString m.id)

end RealMemoryAdapter

/-! ## One corpus, stored -/

/-- The row of a memory in the organization of a case; its owner is the user that is named. -/
structure MemoryFixture.StoredAs (fakeEmbed : String → UnitVector K dimension) (naming : Naming)
    (organizationId : String) (fixture : MemoryFixture K dimension)
    (row : AgentMemory (List K)) : Prop where
  id : row.id = naming.memoryId fixture.label
  organization : row.organizationId = naming.organizationUuid organizationId
  scope : row.scope = fixture.scope
  owner : row.ownerUserId = fixture.ownerUserId.map naming.userId
  project : row.projectId = fixture.projectId
  memoryType : row.memoryType = fixture.memoryType
  content : row.content = fixture.content
  status : row.status = fixture.status
  embedding : row.embedding = (fixture.vector fakeEmbed).coordinates

/-- Memories with a label of their own, and the rows that hold them. -/
structure MemoryCorpus (fakeEmbed : String → UnitVector K dimension) (naming : Naming)
    (organizationId : String) where
  memories : List (MemoryFixture K dimension)
  labels_nodup : (memories.map MemoryFixture.label).Nodup
  row : MemoryFixture K dimension → AgentMemory (List K)
  stored : ∀ fixture ∈ memories, fixture.StoredAs fakeEmbed naming organizationId (row fixture)

namespace MemoryCorpus

variable {fakeEmbed : String → UnitVector K dimension} {naming : Naming} {case : EvaluationCase}
variable (corpus : MemoryCorpus fakeEmbed naming case.organizationId)
variable (settings : Memory.Settings K)

/-- How far a memory is from the query of the case. -/
def distance (fakeEmbed : String → UnitVector K dimension) (case : EvaluationCase)
    (fixture : MemoryFixture K dimension) : K :=
  cosineDistance (fakeEmbed case.query) (fixture.vector fakeEmbed)

def relevant (fakeEmbed : String → UnitVector K dimension) (case : EvaluationCase)
    (settings : Memory.Settings K) (fixture : MemoryFixture K dimension) : Bool :=
  decide (settings.memoryRelevanceThreshold ≤ 1 - distance fakeEmbed case fixture)

def shared (fixture : MemoryFixture K dimension) : Bool := fixture.scope = .project

/-- The memories that the identity of the case may see. -/
def candidates : List (MemoryFixture K dimension) :=
  corpus.memories.filter (FixtureMemoryAdapter.visible case)

/-- The candidates with too few others before them to be cut off, and near enough. -/
def withinReach : List (MemoryFixture K dimension) :=
  (corpus.candidates.zipIdx.filter fun x =>
    decide (TopRanked.rank (distance fakeEmbed case) corpus.candidates x <
      settings.memoryRecallLimit) && relevant fakeEmbed case settings x.1).map Prod.fst

/-- What is within reach belongs to projects and fits the budget. -/
structure ServedInFull : Prop where
  shared : ∀ fixture ∈ corpus.withinReach settings, fixture.scope = .project
  fits : ((corpus.withinReach settings).map fun fixture => fixture.content.length).sum ≤
    settings.memoryContextCharBudget

/-- The labels of the memories that are served, nearest first; ties may stand either way. -/
def MemoriesAgree (production : UnitEngine fakeEmbed) (draw : Memory.Draw) : Prop :=
  ∃ labelled served : List (MemoryFixture K dimension), ∃ rows,
    (∀ fixture ∈ labelled, fixture ∈ corpus.memories) ∧
    (∀ fixture ∈ served, fixture ∈ corpus.memories) ∧
    FixtureMemoryAdapter.recall_ fakeEmbed corpus.memories settings.memoryRelevanceThreshold case
      settings.memoryRecallLimit = labelled.map MemoryFixture.label ∧
    (RealMemoryAdapter.recall_ naming production.engine settings draw case
      settings.memoryRecallLimit).Returns (corpus.memories.map corpus.row)
        (served.map fun fixture => toString (naming.memoryId fixture.label)) rows ∧
    served.Perm labelled ∧
    served.map (distance fakeEmbed case) = labelled.map (distance fakeEmbed case)

/-! ## What the two adapters answer -/

/-- The nearest of some memories, as far as they are relevant. -/
def nearest (fakeEmbed : String → UnitVector K dimension) (case : EvaluationCase)
    (settings : Memory.Settings K) (memories : List (MemoryFixture K dimension)) :
    List (MemoryFixture K dimension) :=
  ((TopRanked.ascending (distance fakeEmbed case) memories).take
    settings.memoryRecallLimit).filter (relevant fakeEmbed case settings)

variable {corpus settings}

theorem fixture_recall_eq :
    FixtureMemoryAdapter.recall_ fakeEmbed corpus.memories settings.memoryRelevanceThreshold case
        settings.memoryRecallLimit =
      (nearest fakeEmbed case settings corpus.candidates).map MemoryFixture.label := by
  have hslice : ∀ pairs : List (MemoryFixture K dimension × K),
      Query.sliceTo (settings.memoryRecallLimit : Int) pairs =
        pairs.take settings.memoryRecallLimit := by
    intro pairs
    unfold Query.sliceTo
    rw [if_neg (by omega)]
    rfl
  have hscored := TopRanked.ascending_map Prod.snd
    (fun f => (f, distance fakeEmbed case f)) corpus.candidates
  show ((Query.sliceTo _ (Query.orderBy _ Prod.snd (corpus.candidates.map fun f =>
    (f, distance fakeEmbed case f)))).filter _).map _ = _
  rw [hscored, hslice, ← List.map_take, List.filter_map, List.map_map]
  rfl

omit [LinearOrder K] in
/-- Production lets through what the fixture does, but for the memories of users. -/
theorem visibilityClause_row {fixture : MemoryFixture K dimension}
    (hmem : fixture ∈ corpus.memories) :
    Memory.Repository.visibilityClause (naming.organizationUuid case.organizationId)
        (case.identity.toIdentity (naming.organizationUuid case.organizationId)).userId
        (Memory.allowedProjectIds
          (case.identity.toIdentity (naming.organizationUuid case.organizationId)))
        (corpus.row fixture) =
      (shared fixture && FixtureMemoryAdapter.visible case fixture) := by
  have hstored := corpus.stored fixture hmem
  unfold Memory.Repository.visibilityClause Memory.Repository.scopeBranches
    FixtureMemoryAdapter.visible shared
  rw [hstored.organization, hstored.status, hstored.scope, hstored.project]
  by_cases hactive : fixture.status = .active
  · cases hscope : fixture.scope with
    | user => simp [EvalIdentity.toIdentity]
    | project =>
      cases hproject : fixture.projectId with
      | none => simp
      | some projectId => simp [hactive, Memory.allowedProjectIds, EvalIdentity.toIdentity]
  · simp [hactive]

theorem recalled_candidates (corpus : MemoryCorpus fakeEmbed naming case.organizationId)
    (settings : Memory.Settings K) (production : UnitEngine fakeEmbed) :
    Memory.Repository.recall_ (naming.organizationUuid case.organizationId)
        (case.identity.toIdentity (naming.organizationUuid case.organizationId)).userId
        (Memory.allowedProjectIds
          (case.identity.toIdentity (naming.organizationUuid case.organizationId)))
        production.engine (fakeEmbed case.query).coordinates settings.memoryRecallLimit
        (corpus.memories.map corpus.row) =
      .ok (((TopRanked.ascending (distance fakeEmbed case)
        (corpus.candidates.filter shared)).take settings.memoryRecallLimit).map fun f =>
          (corpus.row f, distance fakeEmbed case f)) := by
  have hvisible : (corpus.memories.filter fun fixture =>
      shared fixture && FixtureMemoryAdapter.visible case fixture) =
        corpus.candidates.filter shared := by
    unfold candidates
    rw [List.filter_filter]
  have hdistance : ∀ fixture ∈ corpus.candidates.filter shared,
      (corpus.row fixture, production.engine.cosineDistance (corpus.row fixture).embedding
        (fakeEmbed case.query).coordinates) =
        (corpus.row fixture, distance fakeEmbed case fixture) := by
    intro fixture hfixture
    have hmem := (List.mem_filter.mp (List.mem_filter.mp hfixture).1).1
    rw [(corpus.stored fixture hmem).embedding, production.cosineDistance, cosineDistance_comm]
    rfl
  unfold Memory.Repository.recall_ Memory.Repository.visibleSelect
  rw [List.filter_map, List.filter_congr fun fixture hmem => by
      exact visibilityClause_row hmem,
    hvisible, List.map_map]
  have hmapped : (corpus.candidates.filter shared).map
      ((fun row => (row, production.engine.cosineDistance row.embedding
        (fakeEmbed case.query).coordinates)) ∘ corpus.row) =
      (corpus.candidates.filter shared).map fun f => (corpus.row f, distance fakeEmbed case f) :=
    List.map_congr_left hdistance
  rw [hmapped, production.le]
  have hsorted := TopRanked.ascending_map Prod.snd
    (fun f => (corpus.row f, distance fakeEmbed case f)) (corpus.candidates.filter shared)
  rw [hsorted]
  unfold Query.limit
  rw [if_neg (by omega), ← List.map_take]
  rfl

theorem nearest_pairwise (memories : List (MemoryFixture K dimension)) :
    (TopRanked.ascending (distance fakeEmbed case) memories).Pairwise
      fun f g => distance fakeEmbed case f ≤ distance fakeEmbed case g :=
  TopRanked.pairwise_ascending _ _

omit [LinearOrder K] in
/-- A memory is known by its label, and by the id of its row. -/
theorem eq_of_labels {memories memories' : List (MemoryFixture K dimension)}
    (hmem : ∀ fixture ∈ memories, fixture ∈ corpus.memories)
    (hmem' : ∀ fixture ∈ memories', fixture ∈ corpus.memories)
    (h : memories.map MemoryFixture.label = memories'.map MemoryFixture.label) :
    memories = memories' := by
  induction memories generalizing memories' with
  | nil => exact (List.map_eq_nil_iff.mp h.symm).symm
  | cons fixture memories ih =>
    obtain ⟨fixture', rest, rfl, hlabel, hrest⟩ := List.map_eq_cons_iff.mp h.symm
    have hfixture : fixture' = fixture :=
      List.inj_on_of_nodup_map corpus.labels_nodup (hmem' fixture' List.mem_cons_self)
        (hmem fixture List.mem_cons_self) hlabel
    rw [hfixture, ih (fun g hg => hmem g (List.mem_cons_of_mem _ hg))
      (fun g hg => hmem' g (List.mem_cons_of_mem _ hg)) hrest.symm]

omit [LinearOrder K] in
theorem labels_of_ids {memories memories' : List (MemoryFixture K dimension)}
    (h : memories.map (fun fixture => toString (naming.memoryId fixture.label)) =
      memories'.map fun fixture => toString (naming.memoryId fixture.label)) :
    memories.map MemoryFixture.label = memories'.map MemoryFixture.label := by
  have hinj : Function.Injective fun label => toString (naming.memoryId label) :=
    fun _ _ hlabels => naming.memoryId_injective (Joined.toString_inj.mp hlabels)
  refine (List.map_injective_iff.mpr hinj) ?_
  rw [List.map_map, List.map_map]
  exact h

theorem mem_of_nearest {memories : List (MemoryFixture K dimension)}
    {fixture : MemoryFixture K dimension}
    (h : fixture ∈ nearest fakeEmbed case settings memories) : fixture ∈ memories :=
  (TopRanked.ascending_perm _ _).mem_iff.mp
    (List.mem_of_mem_take (List.mem_filter.mp h).1)

/-- The candidates within reach are the nearest ones, in some order. -/
theorem withinReach_perm (corpus : MemoryCorpus fakeEmbed naming case.organizationId)
    (settings : Memory.Settings K) :
    (corpus.withinReach settings).Perm (nearest fakeEmbed case settings corpus.candidates) := by
  have htake := (TopRanked.take_ascending_perm (distance fakeEmbed case) corpus.candidates
    settings.memoryRecallLimit).filter (relevant fakeEmbed case settings)
  rw [List.filter_map, List.filter_filter] at htake
  refine List.Perm.trans ?_ htake.symm
  unfold withinReach
  refine List.Perm.of_eq (congrArg (List.map Prod.fst) (List.filter_congr ?_))
  intro x _
  exact Bool.and_comm _ _

section Ordered

variable [IsStrictOrderedRing K]

theorem relevant_of_nearer {f g : MemoryFixture K dimension}
    (hle : distance fakeEmbed case f ≤ distance fakeEmbed case g)
    (hg : relevant fakeEmbed case settings g = true) :
    relevant fakeEmbed case settings f = true := by
  have hthreshold := of_decide_eq_true hg
  exact decide_eq_true (le_trans hthreshold (sub_le_sub_left hle 1))

/-- The selection stops at the first memory that is not relevant. -/
theorem selectRelevant_eq (settings : Memory.Settings K) (production : UnitEngine fakeEmbed)
    {memories : List (MemoryFixture K dimension)}
    (hmem : ∀ fixture ∈ memories, fixture ∈ corpus.memories)
    (hordered : memories.Pairwise
      fun f g => distance fakeEmbed case f ≤ distance fakeEmbed case g) (used : Nat) :
    (Memory.selectRelevant production.engine settings
        (memories.map fun f => (corpus.row f, distance fakeEmbed case f)) used).map
          Memory.RecalledMemory.id =
      (Packing.fitting (fun fixture : MemoryFixture K dimension => fixture.content.length)
        settings.memoryContextCharBudget
        (memories.filter (relevant fakeEmbed case settings)) used).map
          fun fixture => naming.memoryId fixture.label := by
  induction memories generalizing used with
  | nil => rfl
  | cons fixture memories ih =>
    obtain ⟨hhead, htail⟩ := List.pairwise_cons.mp hordered
    have hstored := corpus.stored fixture (hmem fixture List.mem_cons_self)
    have hrest := ih (fun g hg => hmem g (List.mem_cons_of_mem _ hg)) htail
    rw [List.map_cons]
    unfold Memory.selectRelevant
    rw [production.lt, production.relevance, hstored.content]
    by_cases hrelevant : relevant fakeEmbed case settings fixture = true
    · have hnear := of_decide_eq_true hrelevant
      rw [if_neg (by simpa using hnear), List.filter_cons_of_pos hrelevant]
      unfold Packing.fitting
      split
      · exact hrest used
      · rw [List.map_cons, List.map_cons, hrest, hstored.id]
    · have hfar : 1 - distance fakeEmbed case fixture < settings.memoryRelevanceThreshold := by
        unfold relevant at hrelevant
        simpa using hrelevant
      have hnone : (fixture :: memories).filter (relevant fakeEmbed case settings) = [] := by
        refine List.filter_eq_nil_iff.mpr ?_
        intro g hg hgrelevant
        rcases List.mem_cons.mp hg with rfl | hg
        · exact hrelevant hgrelevant
        · exact hrelevant (relevant_of_nearer (hhead g hg) hgrelevant)
      rw [if_pos (decide_eq_true hfar), hnone]
      rfl

/-- What production serves, among the memories of projects. -/
def served (corpus : MemoryCorpus fakeEmbed naming case.organizationId)
    (settings : Memory.Settings K) : List (MemoryFixture K dimension) :=
  Packing.fitting (fun fixture => fixture.content.length) settings.memoryContextCharBudget
    (nearest fakeEmbed case settings (corpus.candidates.filter shared)) 0

theorem real_recall_returns (corpus : MemoryCorpus fakeEmbed naming case.organizationId)
    (settings : Memory.Settings K) (production : UnitEngine fakeEmbed) (draw : Memory.Draw) :
    ∃ rows, (RealMemoryAdapter.recall_ naming production.engine settings draw case
      settings.memoryRecallLimit).Returns (corpus.memories.map corpus.row)
        ((served corpus settings).map fun fixture => toString (naming.memoryId fixture.label))
        rows := by
  let actor := case.identity.toIdentity (naming.organizationUuid case.organizationId)
  let near := (TopRanked.ascending (distance fakeEmbed case)
    (corpus.candidates.filter shared)).take settings.memoryRecallLimit
  have hmem : ∀ fixture ∈ near, fixture ∈ corpus.memories := by
    intro fixture hfixture
    have hcandidate := (TopRanked.ascending_perm _ _).mem_iff.mp (List.mem_of_mem_take hfixture)
    exact (List.mem_filter.mp (List.mem_filter.mp hcandidate).1).1
  have hids := selectRelevant_eq settings production hmem
    ((nearest_pairwise (corpus.candidates.filter shared)).sublist (List.take_sublist _ _)) 0
  have hlength : (served corpus settings).length ≤ settings.memoryRecallLimit := by
    have hfitting := (Packing.fitting_sublist
      (fun fixture : MemoryFixture K dimension => fixture.content.length)
      settings.memoryContextCharBudget
      (nearest fakeEmbed case settings (corpus.candidates.filter shared)) 0).length_le
    have hfilter := List.length_filter_le (relevant fakeEmbed case settings) near
    have htake := List.length_take_le settings.memoryRecallLimit
      (TopRanked.ascending (distance fakeEmbed case) (corpus.candidates.filter shared))
    exact le_trans hfitting (le_trans hfilter htake)
  have hslice : ∀ recalled : List (Memory.RecalledMemory K),
      recalled.map Memory.RecalledMemory.id =
        (served corpus settings).map (fun fixture => naming.memoryId fixture.label) →
      (Query.sliceTo (settings.memoryRecallLimit : Int) recalled).map (fun m => toString m.id) =
        (served corpus settings).map fun fixture => toString (naming.memoryId fixture.label) := by
    intro recalled hrecalled
    have hlengths := congrArg List.length hrecalled
    rw [List.length_map, List.length_map] at hlengths
    unfold Query.sliceTo
    rw [if_neg (by omega), List.take_of_length_le (by omega)]
    have hmapped := congrArg (List.map fun id : Uuid => toString id) hrecalled
    rwa [List.map_map, List.map_map] at hmapped
  by_cases hlimit : settings.memoryRecallLimit ≤ 0
  · refine ⟨corpus.memories.map corpus.row, Service.bind_returns.mpr
      ⟨[], corpus.memories.map corpus.row, ?_, ?_⟩⟩
    · unfold Memory.recallRelevant
      rw [if_pos hlimit]
      rfl
    · refine Service.pure_returns.mpr ⟨hslice [] ?_, rfl⟩
      have hempty : (served corpus settings).length = 0 := by omega
      rw [List.eq_nil_of_length_eq_zero hempty]
      rfl
  · have hcandidates := recalled_candidates corpus settings production
    obtain ⟨rows, htouch⟩ : ∃ rows, (Memory.touch draw (Memory.selectRelevant production.engine
        settings (near.map fun f => (corpus.row f, distance fakeEmbed case f)) 0)).Returns
          (corpus.memories.map corpus.row) () rows := by
      unfold Memory.touch
      split
      · exact ⟨_, rfl⟩
      · exact ⟨_, rfl⟩
    refine ⟨rows, Service.bind_returns.mpr ⟨Memory.selectRelevant production.engine settings
      (near.map fun f => (corpus.row f, distance fakeEmbed case f)) 0, rows, ?_, ?_⟩⟩
    · unfold Memory.recallRelevant
      rw [if_neg hlimit]
      simp only [Service.bind_returns, Service.ofExcept_returns, Service.read_returns,
        Service.pure_returns]
      exact ⟨_, _, ⟨production.embedQuery case.query, rfl⟩, _, _, ⟨rfl, rfl⟩, _, _,
        ⟨hcandidates, rfl⟩, (), rows, htouch, rfl, rfl⟩
    · exact Service.pure_returns.mpr ⟨hslice _ hids, rfl⟩

/-- Where the nearest belong to projects, production ranks the same ones first. -/
theorem nearest_shared
    (hshared : ∀ fixture ∈ nearest fakeEmbed case settings corpus.candidates,
      shared fixture = true) :
    nearest fakeEmbed case settings (corpus.candidates.filter shared) =
      nearest fakeEmbed case settings corpus.candidates := by
  have hinitial : ∀ memories : List (MemoryFixture K dimension),
      (TopRanked.ascending (distance fakeEmbed case) memories).Pairwise fun f g =>
        relevant fakeEmbed case settings g = true → relevant fakeEmbed case settings f = true :=
    fun memories => (nearest_pairwise memories).imp fun hle hg => relevant_of_nearer hle hg
  unfold nearest at hshared ⊢
  rw [TopRanked.filter_take (hinitial _)] at hshared ⊢
  rw [TopRanked.filter_take (hinitial _), TopRanked.ascending_filter, List.filter_comm]
  exact TopRanked.take_filter_of_forall hshared

theorem memoriesAgree_iff (production : UnitEngine fakeEmbed) (draw : Memory.Draw) :
    corpus.MemoriesAgree settings production draw ↔ corpus.ServedInFull settings := by
  have hcandidate : ∀ fixture ∈ corpus.candidates, fixture ∈ corpus.memories :=
    fun fixture h => (List.mem_filter.mp h).1
  have hnearest : ∀ fixture ∈ nearest fakeEmbed case settings corpus.candidates,
      fixture ∈ corpus.memories := fun fixture h => hcandidate fixture (mem_of_nearest h)
  have hserved : ∀ fixture ∈ served corpus settings,
      fixture ∈ corpus.memories ∧ shared fixture = true := by
    intro fixture h
    have hmem := mem_of_nearest ((Packing.fitting_sublist _ _ _ _).subset h)
    exact ⟨hcandidate fixture (List.mem_filter.mp hmem).1, (List.mem_filter.mp hmem).2⟩
  have hreach := withinReach_perm corpus settings
  have hsize : ((corpus.withinReach settings).map fun fixture => fixture.content.length).sum =
      ((nearest fakeEmbed case settings corpus.candidates).map
        fun fixture => fixture.content.length).sum := (hreach.map _).sum_eq
  obtain ⟨rows, hreturns⟩ :=
    real_recall_returns corpus settings production draw
  constructor
  · rintro ⟨labelled, matched, rows', hlabelled, hmatched, hfixture, hreal, hperm, -⟩
    rw [fixture_recall_eq] at hfixture
    have hsame := (Service.Returns.unique hreal hreturns).1
    obtain rfl : matched = served corpus settings :=
      eq_of_labels hmatched (fun fixture h => (hserved fixture h).1) (labels_of_ids hsame)
    obtain rfl : nearest fakeEmbed case settings corpus.candidates = labelled :=
      eq_of_labels hnearest hlabelled hfixture
    have hshared : ∀ fixture ∈ nearest fakeEmbed case settings corpus.candidates,
        shared fixture = true := fun fixture h => (hserved fixture (hperm.mem_iff.mpr h)).2
    have hall : served corpus settings = nearest fakeEmbed case settings corpus.candidates := by
      unfold served at hperm ⊢
      rw [nearest_shared hshared] at hperm ⊢
      exact (Packing.fitting_sublist _ _ _ _).eq_of_length hperm.length_eq
    refine ⟨fun fixture h => of_decide_eq_true (hshared fixture (hreach.mem_iff.mp h)), ?_⟩
    unfold served at hall
    rw [nearest_shared hshared, Packing.fitting_eq_self_iff (Nat.zero_le _)] at hall
    rw [hsize]
    omega
  · intro h
    have hshared : ∀ fixture ∈ nearest fakeEmbed case settings corpus.candidates,
        shared fixture = true :=
      fun fixture hfixture => decide_eq_true (h.shared fixture (hreach.mem_iff.mpr hfixture))
    have hfits := h.fits
    rw [hsize] at hfits
    have hall : served corpus settings = nearest fakeEmbed case settings corpus.candidates := by
      unfold served
      rw [nearest_shared hshared, Packing.fitting_eq_self_iff (Nat.zero_le _)]
      omega
    rw [hall] at hreturns
    exact ⟨_, _, rows, hnearest, hnearest, fixture_recall_eq, hreturns, List.Perm.refl _, rfl⟩

end Ordered

end MemoryCorpus

end Ekip.Evaluation
