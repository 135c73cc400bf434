import Ekip.Core.Graph.Service

/-!
# `core/graph/service.py`: traversal

A bounded breadth-first walk from one entity, over foreign keys that are read live and
over the stored edges.
-/
namespace Ekip.Core.Graph

open Ekip.Lib Ekip.Database Ekip.Shared Ekip.Core

variable {ε : Type} (texts : Texts)

def maxInvestigationFanout : Nat := 10

/-! ## Direct relationships -/

/-- A relationship that a foreign key states. -/
def foreignKeyRelationship (spec : RelationshipSpec) (source target : EntityRef) :
    GraphRelationship :=
  { source
    relationshipType := spec.relationshipType
    target
    provenanceType := spec.provenanceType
    meaning := spec.meaning }

/-- `get_postmortem_by_incident_id`: the table has no unique constraint. -/
def getPostmortemByIncidentId (db : GraphDb ε) (incidentId : Uuid) :
    Except Exn (Option Postmortem) :=
  Knowledge.Repository.scalarOneOrNone
    (db.postmortems.filter fun row => row.incidentId = incidentId)

def investigationRows (db : GraphDb ε) (incidentId : Uuid) : List TimelineEntry :=
  (Incidents.Repository.listTimelineEntries db.toTimelineDb incidentId).filter fun row =>
    row.event.eventType = "investigation"

/-- The keys of an incident, forward to its project and backward to its postmortem and
its investigations. -/
def incidentRelationships (db : GraphDb ε) (actor : Identity) (node : EntityRef)
    (incident : IncidentRow) : Except Exn (List GraphRelationship) := do
  let project := (resolveProject db actor incident.projectId).map
    (foreignKeyRelationship incidentBelongsToSpec node)
  let postmortemRow ← getPostmortemByIncidentId db node.entityId
  let postmortem := (postmortemRow.bind fun row => resolvePostmortem db actor row.id).map
    (foreignKeyRelationship hasPostmortemSpec node)
  let rows := (investigationRows db node.entityId).take maxInvestigationFanout
  let investigations := (rows.filterMap fun row => resolveInvestigation texts db actor row.id).map
    (foreignKeyRelationship investigatedBySpec node)
  pure (project.toList ++ postmortem.toList ++ investigations)

/-- The relationship of the incident that a row belongs to. -/
def ownerRelationship (db : GraphDb ε) (actor : Identity) (node : EntityRef)
    (spec : RelationshipSpec) (incidentId : Option Uuid) : List GraphRelationship :=
  ((incidentId.bind (resolveIncident db actor)).map fun incident =>
    foreignKeyRelationship spec incident node).toList

def fkRelationships (db : GraphDb ε) (actor : Identity) (node : EntityRef) :
    Except Exn (List GraphRelationship) :=
  match node.entityType with
  | .incident =>
    match Incidents.Repository.getIncidentById db.toIncidentDb node.entityId with
    | none => .ok []
    | some incident => incidentRelationships texts db actor node incident
  | .postmortem =>
    .ok (ownerRelationship db actor node hasPostmortemSpec
      ((getPostmortemById db node.entityId).map Postmortem.incidentId))
  | .document =>
    let project :=
      (Knowledge.Repository.getDocumentById db.toContentDb node.entityId).bind fun row =>
        resolveProject db actor row.projectId
    .ok (project.map (foreignKeyRelationship documentBelongsToSpec node)).toList
  | .project => .ok []
  | .investigation =>
    .ok (ownerRelationship db actor node investigatedBySpec
      ((getTimelineEntry db node.entityId).map TimelineEntry.incidentId))

/-- The entity under a type that is only a text. -/
def resolveNamed (db : GraphDb ε) (actor : Identity) (entityType : String) (entityId : Uuid) :
    Option EntityRef := do
  let kind ← EntityType.ofValue? entityType
  resolveEntity texts db actor kind entityId

/-- What the response model says of a column outside the vocabulary. -/
def notInVocabulary (column : String) : Exn :=
  .valueError s!"1 validation error for GraphRelationship: {column}"

def edgeIsFrom (node : EntityRef) (edge : KnowledgeGraphEdgeRow) : Bool :=
  edge.sourceEntityType = node.entityType.value ∧ edge.sourceEntityId = node.entityId

/-- The end of the edge that is not the node. -/
def otherEnd (db : GraphDb ε) (actor : Identity) (node : EntityRef)
    (edge : KnowledgeGraphEdgeRow) : Option EntityRef :=
  if edgeIsFrom node edge = true then
    resolveNamed texts db actor edge.targetEntityType edge.targetEntityId
  else resolveNamed texts db actor edge.sourceEntityType edge.sourceEntityId

/-- The relationship between the node and the other end. -/
def storedRelationship (node other : EntityRef) (edge : KnowledgeGraphEdgeRow) :
    Except Exn GraphRelationship := do
  let ends := if edgeIsFrom node edge = true then (node, other) else (other, node)
  let meaning :=
    match Contract.getSpec ends.1.entityType.value edge.relationshipType
        ends.2.entityType.value with
    | .ok spec => spec.meaning
    | .error _ => edge.relationshipType
  let relationshipType ← (RelationshipType.ofValue? edge.relationshipType).elim
    (.error (notInVocabulary "relationship_type")) .ok
  let provenanceType ← (ProvenanceType.ofValue? edge.provenanceType).elim
    (.error (notInVocabulary "provenance_type")) .ok
  pure
    { source := ends.1
      relationshipType
      target := ends.2
      provenanceType
      meaning
      edgeId := some edge.id }

/-- An edge whose other end does not resolve is dropped. -/
def derivedFrom (db : GraphDb ε) (actor : Identity) (node : EntityRef) :
    List KnowledgeGraphEdgeRow → Except Exn (List GraphRelationship)
  | [] => .ok []
  | edge :: edges =>
    match otherEnd texts db actor node edge with
    | none => derivedFrom db actor node edges
    | some other => do
      let rel ← storedRelationship node other edge
      let rels ← derivedFrom db actor node edges
      pure (rel :: rels)

def derivedRelationships (db : GraphDb ε) (actor : Identity) (node : EntityRef) :
    Except Exn (List GraphRelationship) :=
  derivedFrom texts db actor node
    (Repository.getDirectEdges db actor.organizationId node.entityType.value node.entityId)

def provenanceOrder : ProvenanceType → Nat
  | .foreignKey => 0
  | .deterministicExtraction => 1
  | .manual => 2

abbrev SortKey := Nat × String × Uuid × Uuid

/-- The texts of two uuids are ordered as the numbers are. -/
def sortKey (rel : GraphRelationship) : SortKey :=
  (provenanceOrder rel.provenanceType, rel.relationshipType.value, rel.target.entityId,
    rel.source.entityId)

/-- Tuples are compared place by place. -/
def SortKey.le : SortKey → SortKey → Bool
  | (a, b, c, d), (a', b', c', d') =>
    a < a' || a = a' && (b < b' || b = b' && (c < c' || c = c' && decide (d ≤ d')))

def directRelationships (db : GraphDb ε) (actor : Identity) (node : EntityRef) :
    Except Exn (List GraphRelationship) := do
  let live ← fkRelationships texts db actor node
  let stored ← derivedRelationships texts db actor node
  pure (Query.orderBy SortKey.le sortKey (live ++ stored))

/-! ## The walk -/

abbrev EdgeKey := (EntityType × Uuid) × RelationshipType × (EntityType × Uuid)

instance instLawfulBEqEdgeKey : LawfulBEq EdgeKey := inferInstance

def edgeKey (rel : GraphRelationship) : EdgeKey :=
  (rel.source.key, rel.relationshipType, rel.target.key)

/-- What the loops have collected. `visited` is in the order in which it was filled. -/
structure Walk where
  visited : List EntityRef
  seenEdges : List EdgeKey := []
  relationships : List GraphRelationship := []
  truncated : Bool := false
  nextFrontier : List EntityRef := []

/-- A node that is reached for the first time joins the next frontier. -/
def Walk.reach (other : EntityRef) (w : Walk) : Walk :=
  if other.key ∈ w.visited.map EntityRef.key then w
  else if defaultMaxNodes ≤ w.visited.length then { w with truncated := true }
  else
    { w with
      visited := w.visited ++ [other]
      nextFrontier := w.nextFrontier ++ [other] }

def Walk.record (depth : Nat) (rel : GraphRelationship) (w : Walk) : Walk :=
  { w with
    seenEdges := edgeKey rel :: w.seenEdges
    relationships := w.relationships ++ [{ rel with depth }] }

def farEnd (node : EntityRef) (rel : GraphRelationship) : EntityRef :=
  if rel.target.key ≠ node.key then rel.target else rel.source

/-- The loop over the relationships of one node. -/
def visit (depth : Nat) (node : EntityRef) : List GraphRelationship → Walk → Walk
  | [], w => w
  | rel :: rels, w =>
    if edgeKey rel ∈ w.seenEdges then visit depth node rels w
    else if defaultMaxEdges ≤ w.relationships.length then { w with truncated := true }
    else visit depth node rels ((w.record depth rel).reach (farEnd node rel))

section Walks

variable (direct : EntityRef → Except Exn (List GraphRelationship))

/-- The loop over the frontier. -/
def expand (depth : Nat) : List EntityRef → Walk → Except Exn Walk
  | [], w => .ok w
  | node :: nodes, w => do
    let rels ← direct node
    let w := visit depth node rels w
    if defaultMaxEdges ≤ w.relationships.length then .ok { w with truncated := true }
    else expand depth nodes w

/-- The loop over the depths, with the depth that was reached last. -/
def traverse : List Nat → List EntityRef → Walk → Nat → Except Exn (Walk × Nat)
  | [], _, w, reached => .ok (w, reached)
  | depth :: depths, frontier, w, reached =>
    if frontier.isEmpty then .ok (w, reached)
    else do
      let w ← expand direct depth frontier { w with nextFrontier := [] }
      traverse depths w.nextFrontier w depth

end Walks

def depthCap (maxDepth : Int) : Nat := (max 1 (min maxDepth maxTraversalDepth)).toNat

def invalidEntityType (entityType : String) : Exn :=
  validation "Unknown entity type." "graph.invalid_entity_type" [("entity_type", entityType)]

def getNeighborhood (db : GraphDb ε) (actor : Identity) (entityType : String) (entityId : Uuid)
    (maxDepth : Int := maxTraversalDepth) : Except Exn GraphNeighborhood :=
  match EntityType.ofValue? entityType with
  | none => .error (invalidEntityType entityType)
  | some kind =>
    match resolveEntity texts db actor kind entityId with
    | none => .error (entityNotFound "Entity not found." kind entityId)
    | some origin => do
      let (w, reached) ← traverse (directRelationships texts db actor)
        (List.range' 1 (depthCap maxDepth)) [origin] { visited := [origin] } 0
      pure
        { origin
          relationships := w.relationships
          nodes := w.visited
          maxDepthReached := reached
          truncated := w.truncated }

end Ekip.Core.Graph
