import Ekip.Lib.Tombstones
import Ekip.Core.Exceptions
import Ekip.Database.ContentModels
import Ekip.Core.Graph.Contract

/-!
# `core/graph/repository.py`

The table of edges has tombstones: an edge that was removed is revived, not inserted
again.
-/
namespace Ekip.Core.Graph

open Ekip.Lib Ekip.Database Ekip.Core

/-- An operation on the graph, beside the tables that its entities come from. -/
abbrev GraphM (ε α : Type) := Service Exn (GraphDb ε) α

inductive UpsertAction
  | created
  | revived
  | unchanged

namespace Repository

variable {ε : Type}

def touchesEntity (entityType : String) (entityId : Uuid) (edge : KnowledgeGraphEdgeRow) : Bool :=
  (edge.sourceEntityType = entityType ∧ edge.sourceEntityId = entityId) ∨
    (edge.targetEntityType = entityType ∧ edge.targetEntityId = entityId)

/-- The active edges at an entity, in either direction. -/
def getDirectEdges (db : GraphDb ε) (organizationId : Uuid) (entityType : String)
    (entityId : Uuid) : List KnowledgeGraphEdgeRow :=
  db.knowledgeGraphEdges.filter fun edge =>
    edge.organizationId = organizationId ∧ edge.status = .active ∧
      touchesEntity entityType entityId edge = true

def listActiveEdgesByRelationshipType (db : GraphDb ε) (organizationId : Uuid)
    (relationshipType : String) : List KnowledgeGraphEdgeRow :=
  db.knowledgeGraphEdges.filter fun edge =>
    edge.organizationId = organizationId ∧ edge.status = .active ∧
      edge.relationshipType = relationshipType

/-- What reviving overwrites. -/
def revive (edge existing : KnowledgeGraphEdgeRow) : KnowledgeGraphEdgeRow :=
  { existing with
    status := .active
    projectId := edge.projectId
    provenanceType := edge.provenanceType
    createdBy := edge.createdBy }

/-- `edge` is the row as it is inserted; the database draws its id. -/
def upsertDerivedEdge (edge : KnowledgeGraphEdgeRow) :
    GraphM ε (KnowledgeGraphEdgeRow × UpsertAction) := do
  let edges ← Service.read GraphDb.knowledgeGraphEdges
  match Table.get? KnowledgeGraphEdgeRow.logicalIdentity edges edge.logicalIdentity with
  | none => do
    Service.raiseIf (edges.any fun row => row.id = edge.id)
      (.integrityError "knowledge_graph_edges_pkey")
    Service.write fun db => { db with knowledgeGraphEdges := db.knowledgeGraphEdges ++ [edge] }
    pure (edge, .created)
  | some existing =>
    if existing.status = .active then pure (existing, .unchanged)
    else do
      Service.write fun db =>
        { db with
          knowledgeGraphEdges :=
            Table.updateWhere db.knowledgeGraphEdges (fun row => row.id = existing.id)
              (revive edge) }
      pure (revive edge existing, .revived)

/-- `UPDATE … SET status = 'removed' WHERE …` of active rows, and how many there were. -/
def deactivate (matching : KnowledgeGraphEdgeRow → Bool) : GraphM ε Nat := do
  let edges ← Service.read GraphDb.knowledgeGraphEdges
  Service.write fun db =>
    { db with
      knowledgeGraphEdges :=
        Table.updateWhere db.knowledgeGraphEdges
          (fun row => matching row && decide (row.status = .active))
          (fun row => { row with status := .inactive }) }
  pure (edges.countP fun row => matching row && decide (row.status = .active))

def deactivateEdge (edgeId : Uuid) : GraphM ε Nat := deactivate fun row => row.id = edgeId

def deactivateEdgesTouchingEntity (organizationId : Uuid) (entityType : String)
    (entityId : Uuid) : GraphM ε Nat :=
  deactivate fun row => row.organizationId = organizationId ∧ touchesEntity entityType entityId row

/-! ## The table as one with tombstones -/

def edgeTable : Tombstones KnowledgeGraphEdgeRow LogicalIdentity Uuid where
  key := KnowledgeGraphEdgeRow.logicalIdentity
  id row := row.id
  live row := row.status = .active
  overwrite := revive
  bury row := { row with status := .inactive }
  key_overwrite _ _ := rfl
  id_overwrite _ _ := rfl
  live_overwrite _ _ := decide_eq_true rfl
  key_bury _ := rfl
  id_bury _ := rfl
  live_bury _ := rfl

@[simp] theorem edgeTable_key (edge : KnowledgeGraphEdgeRow) :
    edgeTable.key edge = edge.logicalIdentity := rfl

/-- The database with other edges. -/
def withEdges (db : GraphDb ε) (edges : List KnowledgeGraphEdgeRow) : GraphDb ε :=
  { db with knowledgeGraphEdges := edges }

@[simp] theorem withEdges_knowledgeGraphEdges (db : GraphDb ε)
    (edges : List KnowledgeGraphEdgeRow) : (withEdges db edges).knowledgeGraphEdges = edges := rfl

variable {db db' : GraphDb ε} {edge : KnowledgeGraphEdgeRow}

/-- An upsert writes the fact, and inserts only under an id that is free. -/
theorem upsertDerivedEdge_returns {out : KnowledgeGraphEdgeRow × UpsertAction}
    (h : (upsertDerivedEdge edge).Returns db out db') :
    db' = withEdges db (edgeTable.put db.knowledgeGraphEdges edge) ∧
      (edge.logicalIdentity ∉ edgeTable.keys db.knowledgeGraphEdges →
        ∀ row ∈ db.knowledgeGraphEdges, row.id ≠ edge.id) := by
  simp only [upsertDerivedEdge, Service.bind_returns, Service.read_returns] at h
  obtain ⟨edges, _, ⟨rfl, rfl⟩, h⟩ := h
  cases hfound : Table.get? edgeTable.key db.knowledgeGraphEdges (edgeTable.key edge) with
  | none =>
    rw [← edgeTable_key, show KnowledgeGraphEdgeRow.logicalIdentity = edgeTable.key from rfl,
      hfound] at h
    simp only [Service.bind_returns, Service.raiseIf_returns, Service.write_returns,
      Service.pure_returns] at h
    obtain ⟨_, _, ⟨hfree, rfl⟩, _, _, rfl, rfl, rfl⟩ := h
    rw [Tombstones.put_new hfound]
    refine ⟨rfl, ?_⟩
    intro _ row hrow
    simpa using List.any_eq_false.mp hfree row hrow
  | some existing =>
    obtain ⟨hmem, hkey⟩ := Table.get?_some hfound
    rw [← edgeTable_key, show KnowledgeGraphEdgeRow.logicalIdentity = edgeTable.key from rfl,
      hfound] at h
    refine ⟨?_, fun hnew => absurd ⟨existing, hmem, hkey⟩ hnew⟩
    rcases Service.ite_returns.mp h with ⟨hactive, hsame⟩ | ⟨hactive, hwrite⟩
    · obtain ⟨-, rfl⟩ := Service.pure_returns.mp hsame
      rw [Tombstones.put_kept hfound (decide_eq_true hactive)]
      rfl
    · simp only [Service.bind_returns, Service.write_returns, Service.pure_returns] at hwrite
      obtain ⟨_, _, rfl, -, rfl⟩ := hwrite
      rw [Tombstones.put_buried hfound (fun hlive => hactive (of_decide_eq_true hlive))]
      rfl

/-- It raises only where it inserts under an id that is taken. -/
theorem upsertDerivedEdge_ok (hfresh : edge.logicalIdentity ∉ edgeTable.keys db.knowledgeGraphEdges →
    ∀ row ∈ db.knowledgeGraphEdges, row.id ≠ edge.id) :
    ∃ out, (upsertDerivedEdge edge).Returns db out
      (withEdges db (edgeTable.put db.knowledgeGraphEdges edge)) := by
  cases hfound : Table.get? KnowledgeGraphEdgeRow.logicalIdentity db.knowledgeGraphEdges
      edge.logicalIdentity with
  | none =>
    have hnew : edge.logicalIdentity ∉ edgeTable.keys db.knowledgeGraphEdges := by
      intro hk
      obtain ⟨row, hrow, hkey⟩ := hk
      exact Table.get?_none_iff.mp hfound row hrow hkey
    have hfree : (db.knowledgeGraphEdges.any fun row => decide (row.id = edge.id)) = false := by
      apply List.any_eq_false.mpr
      intro row hrow hid
      exact hfresh hnew row hrow (of_decide_eq_true hid)
    refine ⟨(edge, .created), ?_⟩
    rw [Tombstones.put_new hfound]
    unfold upsertDerivedEdge Service.Returns
    rw [Service.bind_read, hfound]
    dsimp only
    rw [Service.bind_of_ok (Service.raiseIf_of_false hfree)]
    rfl
  | some existing =>
    by_cases hactive : existing.status = .active
    · refine ⟨(existing, .unchanged), ?_⟩
      rw [Tombstones.put_kept hfound (decide_eq_true hactive)]
      unfold upsertDerivedEdge Service.Returns
      rw [Service.bind_read, hfound]
      dsimp only
      rw [if_pos hactive]
      rfl
    · refine ⟨(revive edge existing, .revived), ?_⟩
      rw [Tombstones.put_buried hfound (fun hlive => hactive (of_decide_eq_true hlive))]
      unfold upsertDerivedEdge Service.Returns
      rw [Service.bind_read, hfound]
      dsimp only
      rw [if_neg hactive]
      rfl

/-- An upsert of what the graph says already leaves it alone. -/
theorem upsertDerivedEdge_of_live (hsound : edgeTable.Sound db.knowledgeGraphEdges)
    (hlive : edge.logicalIdentity ∈ edgeTable.liveKeys db.knowledgeGraphEdges) :
    ∃ existing, upsertDerivedEdge edge db = (.ok (existing, .unchanged), db) := by
  obtain ⟨existing, hmem, hactive, hkey⟩ := hlive
  have hfound : Table.get? KnowledgeGraphEdgeRow.logicalIdentity db.knowledgeGraphEdges
      edge.logicalIdentity = some existing :=
    (Table.get?_eq_some_iff hsound.keys).mpr ⟨hmem, hkey⟩
  refine ⟨existing, ?_⟩
  unfold upsertDerivedEdge
  rw [Service.bind_read, hfound]
  dsimp only
  rw [if_pos (of_decide_eq_true hactive)]
  rfl

theorem deactivate_eq (matching : KnowledgeGraphEdgeRow → Bool) (db : GraphDb ε) :
    deactivate matching db =
      (.ok (db.knowledgeGraphEdges.countP fun row => matching row && decide (row.status = .active)),
        withEdges db (edgeTable.retire matching db.knowledgeGraphEdges)) := rfl

end Repository

end Ekip.Core.Graph
