import Ekip.Core.Memory.Service

/-!
# What an actor learns about the memories of others

Two tables that agree on what the actor may see, in any status, get the same
answer from every operation but one: `delete_memory` looks for a tombstone with
the organization alone in its `WHERE`.
-/
namespace Ekip.Core.Memory

open Ekip.Lib Ekip.Lib.Query Ekip.Database Ekip.Shared Ekip.Core

inductive Operation
  | list (limit offset : Int)
  | get (memoryId : Uuid)
  | recallRelevant (query : String)
  | update (memoryId : Uuid) (data : MemoryUpdate)
  | delete (memoryId : Uuid)
  | create (data : MemoryCreate)

inductive Response (ω : Type)
  | memory (memory : Memory)
  | memories (memories : List Memory)
  | recalled (memories : List (RecalledMemory ω))
  | deleted (deleted : Bool)

variable {ε ω : Type} (engine : Engine ε ω) (settings : Settings ω) (draw : Draw)
  (actor : Identity)

def perform : Operation → MemoryM ε (Response ω)
  | .list limit offset => do
    let memories ← listMemories actor limit offset
    pure (.memories memories)
  | .get memoryId => do
    let memory ← getMemory actor memoryId
    pure (.memory memory)
  | .recallRelevant query => do
    let memories ← recallRelevant engine settings draw actor query
    pure (.recalled memories)
  | .update memoryId data => do
    let memory ← updateMemory engine draw actor memoryId data
    pure (.memory memory)
  | .delete memoryId => do
    let deleted ← deleteMemory engine draw actor memoryId
    pure (.deleted deleted)
  | .create data => do
    let memory ← createMemory engine draw actor data
    pure (.memory memory)

/-- The result or the error of one request. -/
def respond (operation : Operation) (rows : List (AgentMemory ε)) : Except Exn (Response ω) :=
  (perform engine settings draw actor operation rows).1

/-- The actor's own, and those of the actor's projects, in any status. -/
def mayKnow (row : AgentMemory ε) : Bool :=
  row.organizationId = actor.organizationId ∧
    Repository.scopeBranches actor.userId (allowedProjectIds actor) row

def known (rows : List (AgentMemory ε)) : List (AgentMemory ε) := rows.filter (mayKnow actor)

/-- A tombstone of the organization that the actor may not know of. -/
def HiddenTombstone (memoryId : Uuid) (rows : List (AgentMemory ε)) : Prop :=
  ∃ row ∈ rows, row.id = memoryId ∧ row.organizationId = actor.organizationId ∧
    mayKnow actor row = false ∧ row.status = .deleted

variable {engine settings draw actor} {memoryId : Uuid} {rows rows' : List (AgentMemory ε)}

/-! ## Reads -/

theorem visibleSelect_eq (rows : List (AgentMemory ε)) :
    Repository.visibleSelect actor.organizationId actor.userId (allowedProjectIds actor) rows =
      (known actor rows).filter fun row => row.status = .active := by
  unfold Repository.visibleSelect known
  rw [List.filter_filter]
  apply List.filter_congr
  intro row _
  unfold Repository.visibilityClause mayKnow
  by_cases horganization : row.organizationId = actor.organizationId
  · by_cases hactive : row.status = .active <;> simp [horganization, hactive]
  · simp [horganization]

theorem visibleSelect_dependsOn : DependsOn (known actor)
    fun rows : List (AgentMemory ε) =>
      Repository.visibleSelect actor.organizationId actor.userId (allowedProjectIds actor) rows := by
  intro rows rows' h
  show Repository.visibleSelect _ _ _ rows = Repository.visibleSelect _ _ _ rows'
  rw [visibleSelect_eq, visibleSelect_eq, h]

theorem visibleTo_dependsOn :
    DependsOn (known actor) (visibleTo (ε := ε) actor memoryId) :=
  visibleSelect_dependsOn.map fun rows => rows.find? fun row => row.id = memoryId

theorem visibleTo_some {row : AgentMemory ε} (h : visibleTo actor memoryId rows = some row) :
    row ∈ rows ∧ row.id = memoryId ∧ row.status = .active ∧ mayKnow actor row = true := by
  have hid : row.id = memoryId := by simpa using List.find?_some h
  have hmem := List.mem_of_find?_eq_some h
  rw [visibleSelect_eq] at hmem
  obtain ⟨hknown, hactive⟩ := List.mem_filter.mp hmem
  obtain ⟨hrow, hmay⟩ := List.mem_filter.mp hknown
  exact ⟨hrow, hid, by simpa using hactive, hmay⟩

theorem listMemories_observes (limit offset : Int) :
    Observes (known actor) (listMemories (ε := ε) actor limit offset) := by
  refine .bind (.read ?_) fun listed => .bind (.ofExcept _) fun rows => .pure _
  exact visibleSelect_dependsOn.map fun rows =>
    (Query.offset Repository.negativeOffset offset
      (Query.orderBy (fun a b => decide (b ≤ a)) AgentMemory.createdAt rows) >>= fun rows =>
        Query.limit Repository.negativeLimit limit rows)

theorem getMemory_observes (memoryId : Uuid) :
    Observes (known actor) (getMemory (ε := ε) actor memoryId) :=
  .bind (.read visibleTo_dependsOn) fun _ => .bind (.orRaise _ _) fun _ => .pure _

theorem touch_returns (selected : List (RecalledMemory ω)) (rows : List (AgentMemory ε)) :
    ∃ rows', (touch draw selected).Returns rows () rows' := by
  unfold touch
  split
  · exact ⟨rows, rfl⟩
  · exact ⟨_, rfl⟩

/-- The ranking, the limit, the threshold and the budget only ever see what the
visibility clause let through. -/
theorem recallRelevant_answers (query : String) :
    Answers (known actor) (recallRelevant (ε := ε) engine settings draw actor query) := by
  unfold recallRelevant
  split
  · exact (Observes.pure _).answers
  · refine .bind (.ofExcept _) fun queryVector => .bind (.read ?_) fun candidates =>
      .bind (.ofExcept _) fun candidates => ?_
    · exact visibleSelect_dependsOn.map fun rows =>
        Query.limit Repository.negativeLimit settings.memoryRecallLimit
          (Query.orderBy engine.le Prod.snd
            (rows.map fun row => (row, engine.cosineDistance row.embedding queryVector)))
    · apply Answers.of_ok
      intro rows
      obtain ⟨rows', htouch⟩ : ∃ rows', (touch draw (selectRelevant engine settings candidates 0)).Returns
          rows () rows' := touch_returns _ rows
      exact ⟨rows', Service.bind_returns.mpr ⟨_, _, htouch, rfl⟩⟩

/-! ## Writes -/

theorem ownerFor_observes (data : MemoryCreate) :
    Observes (known actor) (ownerFor (ε := ε) actor data) := by
  unfold ownerFor
  cases data.scope with
  | user => exact .bind (.orRaise _ _) fun _ => .pure _
  | project => exact .bind (.orRaise _ _) fun _ => .bind (.raiseIf _ _) fun _ => .pure _

theorem requireSupersedable_observes (supersedes : Option Uuid) :
    Observes (known actor) (requireSupersedable (ε := ε) actor supersedes) := by
  cases supersedes with
  | none => exact .pure _
  | some memoryId => exact .bind (.read visibleTo_dependsOn) fun _ => .raiseIf _ _

theorem retire_returns (supersedes : Option Uuid) (rows : List (AgentMemory ε)) :
    ∃ rows', (retire draw supersedes).Returns rows () rows' := by
  cases supersedes with
  | none => exact ⟨rows, rfl⟩
  | some memoryId => exact ⟨_, rfl⟩

theorem createMemory_answers (data : MemoryCreate) :
    Answers (known actor) (createMemory (ε := ε) engine draw actor data) := by
  refine .bind (ownerFor_observes data) fun ownerUserId =>
    .bind (requireSupersedable_observes _) fun _ => .bind (.ofExcept _) fun vector => ?_
  apply Answers.of_ok
  intro rows
  obtain ⟨rows', hretire⟩ : ∃ rows', (retire draw data.supersedesMemoryId).Returns
      (rows ++ [newRow draw actor ownerUserId data vector]) () rows' := retire_returns _ _
  exact ⟨rows', Service.bind_returns.mpr
    ⟨_, _, rfl, Service.bind_returns.mpr ⟨_, _, hretire, rfl⟩⟩⟩

/-- The row that `RETURNING` gives back is the visible one, rewritten. -/
theorem updateContent_returned (hunique : Table.KeyUnique AgentMemory.id rows)
    {row : AgentMemory ε} (hrow : row ∈ rows) (hid : row.id = memoryId) (now : Instant)
    (content : String) (vector : ε) (metadata : Option String) :
    ∃ rows', (Repository.updateContent now memoryId content vector metadata).Returns rows
      (some (Repository.withContent now content vector metadata row)) rows' := by
  let image := Repository.withContent now content vector metadata
  let updated := Table.updateWhere rows (fun row => row.id = memoryId) image
  have hupdated : Table.KeyUnique AgentMemory.id updated :=
    Table.keyUnique_updateWhere hunique fun _ _ => rfl
  have hmem : image row ∈ updated := Table.mem_updateWhere.mpr ⟨row, hrow, by simp [hid]⟩
  have hget : updated.find? (fun row => row.id = memoryId) = some (image row) := by
    have himage : (image row).id = memoryId := hid
    rw [← himage]
    exact Table.get?_of_mem hupdated hmem
  refine ⟨updated, ?_⟩
  refine Service.bind_returns.mpr ⟨_, updated, rfl, ?_⟩
  exact Service.read_returns.mpr ⟨hget, rfl⟩

theorem updateMemory_answer (hunique : Table.KeyUnique AgentMemory.id rows) (data : MemoryUpdate) :
    (updateMemory engine draw actor memoryId data rows).1 =
      match visibleTo actor memoryId rows with
      | none => .error (memoryNotFound "Memory not found." memoryId)
      | some row => (engine.embedQuery data.content).map fun vector =>
        toMemory (Repository.withContent draw.now data.content vector data.memoryMetadata row) := by
  cases hvisible : visibleTo actor memoryId rows with
  | none => simp [updateMemory, Service.read, Service.orRaise, bind, hvisible]
  | some row =>
    obtain ⟨hrow, hid, -⟩ := visibleTo_some hvisible
    cases hvector : engine.embedQuery data.content with
    | error e =>
      simp [updateMemory, Service.read, Service.orRaise, Service.ofExcept, bind, hvisible,
        hvector, Except.map]
    | ok vector =>
      obtain ⟨rows', hreturned⟩ := updateContent_returned hunique hrow hid draw.now
        data.content vector data.memoryMetadata
      have hreturns : (updateMemory engine draw actor memoryId data).Returns rows
          (toMemory (Repository.withContent draw.now data.content vector data.memoryMetadata
            row)) rows' := by
        simp only [updateMemory, Service.bind_returns, Service.read_returns,
          Service.orRaise_returns, Service.ofExcept_returns, Service.pure_returns]
        exact ⟨_, _, ⟨hvisible, rfl⟩, _, _, ⟨rfl, rfl⟩, _, _, ⟨hvector, rfl⟩, _, _, hreturned, _,
          _, ⟨rfl, rfl⟩, rfl, rfl⟩
      rw [hreturns]
      rfl

theorem updateMemory_same (hunique : Table.KeyUnique AgentMemory.id rows)
    (hunique' : Table.KeyUnique AgentMemory.id rows') (h : known actor rows = known actor rows')
    (data : MemoryUpdate) :
    (updateMemory engine draw actor memoryId data rows).1 =
      (updateMemory engine draw actor memoryId data rows').1 := by
  have hvisible : visibleTo actor memoryId rows = visibleTo actor memoryId rows' :=
    visibleTo_dependsOn rows rows' h
  rw [updateMemory_answer hunique, updateMemory_answer hunique', hvisible]

/-! ## Deletion -/

/-- What `delete_memory` asks of the table once nothing is visible. -/
def Tombstone (actor : Identity) (memoryId : Uuid) (rows : List (AgentMemory ε)) : Prop :=
  ∃ row ∈ Repository.getAnyStatusForOwner actor.organizationId memoryId rows, row.status = .deleted

theorem deleteMemory_of_visible {row : AgentMemory ε}
    (hvisible : visibleTo actor memoryId rows = some row) :
    (deleteMemory engine draw actor memoryId rows).1 = .ok true := by
  obtain ⟨hrow, hid, hactive, -⟩ := visibleTo_some hvisible
  have hmatch : ∃ row ∈ rows, row.id = memoryId ∧ row.status ≠ .deleted := by
    refine ⟨row, hrow, hid, ?_⟩
    rw [hactive]
    decide
  simpa [deleteMemory, deleteVisible, Repository.softDelete, Repository.update, Service.read,
    Service.write, bind, pure, hvisible] using hmatch

theorem deleteMemory_of_invisible (hvisible : visibleTo actor memoryId rows = none) :
    deleteMemory engine draw actor memoryId rows = deleteNothing actor memoryId rows := by
  simp [deleteMemory, Service.read, bind, hvisible]

theorem deleteMemory_of_tombstone (hvisible : visibleTo actor memoryId rows = none)
    (h : Tombstone actor memoryId rows) :
    (deleteMemory engine draw actor memoryId rows).1 = .ok false := by
  have hreturns : (deleteNothing actor memoryId).Returns rows false rows := by
    simp only [deleteNothing, Service.bind_returns, Service.read_returns, Service.raiseIf_returns,
      Service.pure_returns]
    exact ⟨_, _, ⟨rfl, rfl⟩, (), _, ⟨decide_eq_false (not_not_intro h), rfl⟩, trivial, rfl⟩
  rw [deleteMemory_of_invisible hvisible, hreturns]

theorem deleteMemory_of_nothing (hvisible : visibleTo actor memoryId rows = none)
    (h : ¬ Tombstone actor memoryId rows) :
    (deleteMemory engine draw actor memoryId rows).1 =
      .error (memoryNotFound "Memory not found." memoryId) := by
  have hraises : (deleteNothing actor memoryId).Raises rows
      (memoryNotFound "Memory not found." memoryId) := by
    simp only [deleteNothing, Service.bind_raises, Service.read_returns, Service.raiseIf_raises]
    exact .inr ⟨_, _, ⟨rfl, rfl⟩, .inl ⟨decide_eq_true h, trivial⟩⟩
  rw [deleteMemory_of_invisible hvisible]
  exact hraises

/-- Under the primary key, a tombstone is either known to the actor or hidden. -/
theorem tombstone_iff (hunique : Table.KeyUnique AgentMemory.id rows) :
    Tombstone actor memoryId rows ↔
      (∃ row ∈ known actor rows, row.id = memoryId ∧ row.status = .deleted) ∨
        HiddenTombstone actor memoryId rows := by
  unfold Tombstone HiddenTombstone known
  constructor
  · intro h
    obtain ⟨row, hget, hdeleted⟩ := h
    have hmem := List.mem_of_find?_eq_some hget
    obtain ⟨hid, horganization⟩ : row.id = memoryId ∧ row.organizationId = actor.organizationId := by
      simpa using List.find?_some hget
    by_cases hmay : mayKnow actor row = true
    · exact .inl ⟨row, List.mem_filter.mpr ⟨hmem, hmay⟩, hid, hdeleted⟩
    · exact .inr ⟨row, hmem, hid, horganization, by simpa using hmay, hdeleted⟩
  · intro h
    obtain ⟨row, hmem, hid, horganization, hdeleted⟩ : ∃ row ∈ rows, row.id = memoryId ∧
        row.organizationId = actor.organizationId ∧ row.status = .deleted := by
      rcases h with ⟨row, hknown, hid, hdeleted⟩ | ⟨row, hmem, hid, horganization, -, hdeleted⟩
      · obtain ⟨hmem, hmay⟩ := List.mem_filter.mp hknown
        have hboth : row.organizationId = actor.organizationId ∧
            Repository.scopeBranches actor.userId (allowedProjectIds actor) row = true := by
          simpa [mayKnow] using hmay
        exact ⟨row, hmem, hid, hboth.1, hdeleted⟩
      · exact ⟨row, hmem, hid, horganization, hdeleted⟩
    cases hget : Repository.getAnyStatusForOwner actor.organizationId memoryId rows with
    | none =>
      have hnone := List.find?_eq_none.mp hget row hmem
      simp [hid, horganization] at hnone
    | some other =>
      have hother := List.mem_of_find?_eq_some hget
      obtain ⟨hotherId, -⟩ : other.id = memoryId ∧
          other.organizationId = actor.organizationId := by simpa using List.find?_some hget
      obtain rfl := hunique other hother row hmem (hotherId.trans hid.symm)
      exact ⟨other, rfl, hdeleted⟩

/-- A memory that the actor may know of hides nothing under its id. -/
theorem not_hidden_of_known (hunique : Table.KeyUnique AgentMemory.id rows) {row : AgentMemory ε}
    (hknown : row ∈ known actor rows) : ¬ HiddenTombstone actor row.id rows := by
  intro h
  obtain ⟨other, hother, hid, -, hmay, -⟩ := h
  obtain ⟨hrow, hknows⟩ := List.mem_filter.mp hknown
  obtain rfl := hunique other hother row hrow hid
  rw [hknows] at hmay
  cases hmay

theorem deleteMemory_same_iff (hunique : Table.KeyUnique AgentMemory.id rows)
    (hunique' : Table.KeyUnique AgentMemory.id rows') (h : known actor rows = known actor rows') :
    (deleteMemory engine draw actor memoryId rows).1 =
        (deleteMemory engine draw actor memoryId rows').1 ↔
      (HiddenTombstone actor memoryId rows ↔ HiddenTombstone actor memoryId rows') := by
  have hsame : visibleTo actor memoryId rows = visibleTo actor memoryId rows' :=
    visibleTo_dependsOn rows rows' h
  cases hvisible : visibleTo actor memoryId rows with
  | some row =>
    obtain ⟨hrow, rfl, -, hmay⟩ := visibleTo_some hvisible
    have hknown : row ∈ known actor rows := List.mem_filter.mpr ⟨hrow, hmay⟩
    have hhidden := not_hidden_of_known hunique hknown
    rw [h] at hknown
    have hhidden' := not_hidden_of_known hunique' hknown
    rw [deleteMemory_of_visible hvisible, deleteMemory_of_visible (hsame.symm.trans hvisible)]
    exact ⟨fun _ => iff_of_false hhidden hhidden', fun _ => rfl⟩
  | none =>
    have hvisible' := hsame.symm.trans hvisible
    have hiff : (Tombstone actor memoryId rows ↔ Tombstone actor memoryId rows') ↔
        (HiddenTombstone actor memoryId rows ↔ HiddenTombstone actor memoryId rows') := by
      rw [tombstone_iff hunique, tombstone_iff hunique', ← h]
      by_cases hknown : ∃ row ∈ known actor rows, row.id = memoryId ∧ row.status = .deleted
      · obtain ⟨row, hrow, rfl, hdeleted⟩ := hknown
        have hhidden := not_hidden_of_known hunique hrow
        have hboth : ∃ other ∈ known actor rows, other.id = row.id ∧ other.status = .deleted :=
          ⟨row, hrow, rfl, hdeleted⟩
        rw [h] at hrow
        have hhidden' := not_hidden_of_known hunique' hrow
        simp only [hboth, hhidden, hhidden', true_or]
      · simp only [hknown, false_or]
    rw [← hiff]
    by_cases htomb : Tombstone actor memoryId rows <;>
      by_cases htomb' : Tombstone actor memoryId rows'
    · rw [deleteMemory_of_tombstone hvisible htomb, deleteMemory_of_tombstone hvisible' htomb']
      simp only [htomb, htomb']
    · rw [deleteMemory_of_tombstone hvisible htomb, deleteMemory_of_nothing hvisible' htomb']
      simp [htomb, htomb']
    · rw [deleteMemory_of_nothing hvisible htomb, deleteMemory_of_tombstone hvisible' htomb']
      simp [htomb, htomb']
    · rw [deleteMemory_of_nothing hvisible htomb, deleteMemory_of_nothing hvisible' htomb']
      simp only [htomb, htomb']

/-! ## All operations -/

/-- Wrapping the answer of an operation hides nothing. -/
theorem wrapped_same_iff {α β : Type} {x : MemoryM ε α} {f : α → β} (hf : Function.Injective f) :
    ((x >>= fun a => pure (f a)) rows).1 = ((x >>= fun a => pure (f a)) rows').1 ↔
      (x rows).1 = (x rows').1 := by
  rw [Service.bind_pure_answer, Service.bind_pure_answer]
  constructor
  · intro h
    cases hx : (x rows).1 with
    | error e =>
      cases hx' : (x rows').1 with
      | error e' =>
        rw [hx, hx'] at h
        rw [Except.error.inj h]
      | ok a =>
        rw [hx, hx'] at h
        cases h
    | ok a =>
      cases hx' : (x rows').1 with
      | error e' =>
        rw [hx, hx'] at h
        cases h
      | ok a' =>
        rw [hx, hx'] at h
        rw [hf (Except.ok.inj h)]
  · intro h
    rw [h]

theorem response_injective :
    Function.Injective (Response.memory (ω := ω)) ∧ Function.Injective (Response.memories (ω := ω)) ∧
      Function.Injective (Response.recalled (ω := ω)) ∧
      Function.Injective (Response.deleted (ω := ω)) := by
  refine ⟨?_, ?_, ?_, ?_⟩ <;> intro a b h <;> cases h <;> rfl

/-- Two tables that agree on what the actor may know of answer alike, unless the
operation deletes an id under which only one of them has a hidden tombstone. -/
theorem respond_same_iff (engine : Engine ε ω) (settings : Settings ω) (draw : Draw)
    (actor : Identity) (operation : Operation)
    (hunique : Table.KeyUnique AgentMemory.id rows)
    (hunique' : Table.KeyUnique AgentMemory.id rows') (h : known actor rows = known actor rows') :
    respond engine settings draw actor operation rows =
        respond engine settings draw actor operation rows' ↔
      ∀ memoryId, operation = .delete memoryId →
        (HiddenTombstone actor memoryId rows ↔ HiddenTombstone actor memoryId rows') := by
  obtain ⟨hmemory, hmemories, hrecalled, hdeleted⟩ := response_injective (ω := ω)
  cases operation with
  | list limit offset =>
    have hsame := (listMemories_observes limit offset).answers rows rows' h
    exact iff_of_true ((wrapped_same_iff hmemories).mpr hsame) fun _ heq => nomatch heq
  | get memoryId =>
    have hsame := (getMemory_observes memoryId).answers rows rows' h
    exact iff_of_true ((wrapped_same_iff hmemory).mpr hsame) fun _ heq => nomatch heq
  | recallRelevant query =>
    have hsame : (recallRelevant engine settings draw actor query rows).1 =
        (recallRelevant engine settings draw actor query rows').1 :=
      recallRelevant_answers query rows rows' h
    exact iff_of_true ((wrapped_same_iff hrecalled).mpr hsame) fun _ heq => nomatch heq
  | update memoryId data =>
    have hsame : (updateMemory engine draw actor memoryId data rows).1 =
        (updateMemory engine draw actor memoryId data rows').1 :=
      updateMemory_same hunique hunique' h data
    exact iff_of_true ((wrapped_same_iff hmemory).mpr hsame) fun _ heq => nomatch heq
  | create data =>
    have hsame : (createMemory engine draw actor data rows).1 =
        (createMemory engine draw actor data rows').1 := createMemory_answers data rows rows' h
    exact iff_of_true ((wrapped_same_iff hmemory).mpr hsame) fun _ heq => nomatch heq
  | delete memoryId =>
    have hiff : (deleteMemory engine draw actor memoryId rows).1 =
        (deleteMemory engine draw actor memoryId rows').1 ↔
        (HiddenTombstone actor memoryId rows ↔ HiddenTombstone actor memoryId rows') :=
      deleteMemory_same_iff hunique hunique' h
    constructor
    · intro hsame other heq
      obtain rfl := Operation.delete.inj heq
      exact hiff.mp ((wrapped_same_iff hdeleted).mp hsame)
    · intro hhidden
      exact (wrapped_same_iff hdeleted).mpr (hiff.mpr (hhidden memoryId rfl))

/-! ## A note of somebody else -/

def planeEngine : Engine (Rat × Rat) Rat where
  embedQuery _ := .ok (1, 0)
  zeroVector := (0, 0)
  cosineDistance v w := 1 - (v.1 * w.1 + v.2 * w.2)
  le a b := a ≤ b
  relevance d := 1 - d
  lt a b := a < b

def planeSettings : Settings Rat where
  memoryRelevanceThreshold := 35 / 100

def alice : Identity where
  kind := .user
  subject := "1"
  organizationId := 1
  userId := some 1

def noteOfBob (status : MemoryStatus) : AgentMemory (Rat × Rat) where
  id := 5
  organizationId := 1
  scope := .user
  ownerUserId := some 2
  memoryType := .fact
  content := if status = .deleted then "" else "rotate the keys"
  embedding := if status = .deleted then (0, 0) else (1, 0)
  createdBy := "user:2"
  status
  createdAt := 3
  updatedAt := 3

theorem keyUnique_noteOfBob (status : MemoryStatus) :
    Table.KeyUnique AgentMemory.id [noteOfBob status] := by
  intro row hrow row' hrow' _
  rw [List.mem_singleton.mp hrow, List.mem_singleton.mp hrow']

/-- An active memory of Bob behaves, to Alice, like an id that does not exist. -/
theorem respond_same_noteOfBob :
    respond planeEngine planeSettings { memoryId := 9, now := 7 } alice (.get 5)
        [noteOfBob .active] =
      respond planeEngine planeSettings { memoryId := 9, now := 7 } alice (.get 5) [] := by
  have hagree : known alice [noteOfBob .active] = known alice [] := by decide
  refine (respond_same_iff planeEngine planeSettings _ alice (.get 5)
    (keyUnique_noteOfBob .active) Table.keyUnique_nil hagree).mpr ?_
  intro memoryId heq
  cases heq

/-- Deleting an id that belongs to Bob tells Alice that Bob has deleted it before. -/
theorem respond_differs_tombstone :
    ¬ ∀ (operation : Operation) (rows rows' : List (AgentMemory (Rat × Rat))),
      Table.KeyUnique AgentMemory.id rows → Table.KeyUnique AgentMemory.id rows' →
      known alice rows = known alice rows' →
      respond planeEngine planeSettings { memoryId := 9, now := 7 } alice operation rows =
        respond planeEngine planeSettings { memoryId := 9, now := 7 } alice operation rows' := by
  intro hclaim
  have hagree : known alice [noteOfBob .deleted] = known alice [] := by decide
  have hsame := hclaim (.delete 5) [noteOfBob .deleted] [] (keyUnique_noteOfBob .deleted)
    Table.keyUnique_nil hagree
  have hfound : respond planeEngine planeSettings { memoryId := 9, now := 7 } alice (.delete 5)
      [noteOfBob .deleted] = .ok (.deleted false) := rfl
  have hnone : respond planeEngine planeSettings { memoryId := 9, now := 7 } alice (.delete 5) [] =
      .error (memoryNotFound "Memory not found." 5) := rfl
  rw [hfound, hnone] at hsame
  cases hsame

end Ekip.Core.Memory
