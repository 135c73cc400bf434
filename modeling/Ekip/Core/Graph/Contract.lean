import Mathlib.Data.List.Basic
import Ekip.Database.Models

/-!
# The relationship contract: `core/graph/contract.py`

Which triples of a source type, a relationship and a target type are legal, and
which of them are stored as edges.
-/
namespace Ekip.Core.Graph

open Ekip.Database

inductive EntityType
  | incident
  | postmortem
  | document
  | project
  | investigation
deriving DecidableEq

def EntityType.value : EntityType → String
  | incident => "incident"
  | postmortem => "postmortem"
  | document => "document"
  | project => "project"
  | investigation => "investigation"

def EntityType.all : List EntityType := [incident, postmortem, document, project, investigation]

/-- The type that a text names. -/
def EntityType.ofValue? (text : String) : Option EntityType :=
  EntityType.all.find? fun kind => kind.value = text

theorem EntityType.value_inj {a b : EntityType} (h : a.value = b.value) : a = b := by
  cases a <;> cases b <;> first | rfl | exact absurd h (by decide)

inductive RelationshipType
  | documents
  | relatedTo
  | hasPostmortem
  | belongsTo
  | investigatedBy
deriving DecidableEq

def RelationshipType.value : RelationshipType → String
  | documents => "documents"
  | relatedTo => "related_to"
  | hasPostmortem => "has_postmortem"
  | belongsTo => "belongs_to"
  | investigatedBy => "investigated_by"

def RelationshipType.all : List RelationshipType :=
  [documents, relatedTo, hasPostmortem, belongsTo, investigatedBy]

def RelationshipType.ofValue? (text : String) : Option RelationshipType :=
  RelationshipType.all.find? fun kind => kind.value = text

inductive ProvenanceType
  | foreignKey
  | deterministicExtraction
  | manual
deriving DecidableEq

def ProvenanceType.value : ProvenanceType → String
  | foreignKey => "foreign_key"
  | deterministicExtraction => "deterministic_extraction"
  | manual => "manual"

def ProvenanceType.all : List ProvenanceType := [foreignKey, deterministicExtraction, manual]

def ProvenanceType.ofValue? (text : String) : Option ProvenanceType :=
  ProvenanceType.all.find? fun kind => kind.value = text

structure RelationshipSpec where
  sourceType : EntityType
  relationshipType : RelationshipType
  targetType : EntityType
  provenanceType : ProvenanceType
  symmetric : Bool
  meaning : String

def documentsSpec : RelationshipSpec :=
  { sourceType := .document
    relationshipType := .documents
    targetType := .incident
    provenanceType := .deterministicExtraction
    symmetric := false
    meaning :=
      "This document was written about that incident. Extracted from the " ++
      "`source_incident_id` entry in `document_metadata`, which " ++
      "`core.knowledge.service.propose_document` writes (reached in " ++
      "practice via the `propose_runbook_update` MCP tool). The forward " ++
      "direction was already readable one document at a time; nothing " ++
      "could ask the reverse question -- 'which runbooks came out of " ++
      "this incident?' -- before this edge existed." }

def relatedToSpec : RelationshipSpec :=
  { sourceType := .incident
    relationshipType := .relatedTo
    targetType := .incident
    provenanceType := .manual
    symmetric := true
    meaning :=
      "Two incidents are related (recurrence, shared cause, shared " ++
      "blast radius). Nothing in the schema records this and it cannot " ++
      "be derived deterministically, so it is asserted explicitly by a " ++
      "human holding `incident:write` on BOTH incidents' projects. " ++
      "Note what this deliberately is NOT: the existing " ++
      "`search_similar_incidents` tool computes similarity at query " ++
      "time from vectors, which is a different claim -- 'these read " ++
      "alike' is not 'these are related', and the graph does not " ++
      "silently promote one into the other." }

def hasPostmortemSpec : RelationshipSpec :=
  { sourceType := .incident
    relationshipType := .hasPostmortem
    targetType := .postmortem
    provenanceType := .foreignKey
    symmetric := false
    meaning := "Resolved live from `postmortems.incident_id` (ON DELETE RESTRICT)." }

def incidentBelongsToSpec : RelationshipSpec :=
  { sourceType := .incident
    relationshipType := .belongsTo
    targetType := .project
    provenanceType := .foreignKey
    symmetric := false
    meaning := "Resolved live from `incidents.project_id` (ON DELETE RESTRICT)." }

def documentBelongsToSpec : RelationshipSpec :=
  { sourceType := .document
    relationshipType := .belongsTo
    targetType := .project
    provenanceType := .foreignKey
    symmetric := false
    meaning := "Resolved live from `documents.project_id` (ON DELETE RESTRICT)." }

def investigatedBySpec : RelationshipSpec :=
  { sourceType := .incident
    relationshipType := .investigatedBy
    targetType := .investigation
    provenanceType := .foreignKey
    symmetric := false
    meaning :=
      "Resolved live from `incident_timeline.incident_id` (ON DELETE " ++
      "CASCADE) restricted to `event_type='investigation'` rows -- the " ++
      "shape `record_investigation_result` actually writes." }

namespace Contract

/-- Stored as edges. -/
def derivedRelationships : List RelationshipSpec := [documentsSpec, relatedToSpec]

/-- Never stored, but read from the source tables. -/
def foreignKeyRelationships : List RelationshipSpec :=
  [hasPostmortemSpec, incidentBelongsToSpec, documentBelongsToSpec, investigatedBySpec]

def allRelationships : List RelationshipSpec := derivedRelationships ++ foreignKeyRelationships

def entityTypes : List String := ["document", "incident", "investigation", "postmortem", "project"]

def relationshipTypes : List String :=
  ["belongs_to", "documents", "has_postmortem", "investigated_by", "related_to"]

/-- `repr` of a name without quotes in it. -/
def repr (name : String) : String := s!"'{name}'"

/-- `sorted(names)` as it is printed; the names are given in order. -/
def reprList (names : List String) : String := "[" ++ ", ".intercalate (names.map repr) ++ "]"

def triple (sourceType relationshipType targetType : String) : String :=
  s!"{repr sourceType} --{relationshipType}--> {repr targetType}"

def byTriple (specs : List RelationshipSpec) (sourceType relationshipType targetType : String) :
    Option RelationshipSpec :=
  specs.find? fun spec =>
    spec.sourceType.value = sourceType ∧ spec.relationshipType.value = relationshipType ∧
      spec.targetType.value = targetType

/-- The spec of a triple, or the text of an `InvalidRelationshipError`. -/
def getSpec (sourceType relationshipType targetType : String) : Except String RelationshipSpec :=
  if sourceType ∉ entityTypes then
    .error s!"unknown source entity type {repr sourceType}; valid: {reprList entityTypes}"
  else if targetType ∉ entityTypes then
    .error s!"unknown target entity type {repr targetType}; valid: {reprList entityTypes}"
  else if relationshipType ∉ relationshipTypes then
    .error s!"unknown relationship type {repr relationshipType}; valid: {reprList relationshipTypes}"
  else
    match byTriple allRelationships sourceType relationshipType targetType with
    | some spec => .ok spec
    | none =>
      .error (triple sourceType relationshipType targetType ++
        " is not a valid relationship; see app.core.graph.contract for the allowed set")

/-- What Postgres enforces already must not be stored. -/
def getDerivedSpec (sourceType relationshipType targetType : String) :
    Except String RelationshipSpec :=
  match getSpec sourceType relationshipType targetType with
  | .error text => .error text
  | .ok spec =>
    match byTriple derivedRelationships sourceType relationshipType targetType with
    | some _ => .ok spec
    | none =>
      .error (triple sourceType relationshipType targetType ++
        " is backed by a foreign key and is resolved live at traversal time; it must not be " ++
        "stored as a graph edge")

/-- The lower uuid first, if the relationship is symmetric. The texts of two uuids
are of one length, so they are ordered as the numbers are. -/
def canonicalDirection (spec : RelationshipSpec) (sourceId targetId : Uuid) : Uuid × Uuid :=
  if !spec.symmetric then (sourceId, targetId)
  else if sourceId ≤ targetId then (sourceId, targetId)
  else (targetId, sourceId)

/-! ## What the contract allows -/

variable {spec : RelationshipSpec} {sourceType relationshipType targetType : String}

theorem byTriple_some {specs : List RelationshipSpec}
    (h : byTriple specs sourceType relationshipType targetType = some spec) :
    spec ∈ specs ∧ spec.sourceType.value = sourceType ∧
      spec.relationshipType.value = relationshipType ∧ spec.targetType.value = targetType := by
  unfold byTriple at h
  have hmatch := List.find?_some h
  exact ⟨List.mem_of_find?_eq_some h, of_decide_eq_true hmatch⟩

theorem getSpec_ok (h : getSpec sourceType relationshipType targetType = .ok spec) :
    byTriple allRelationships sourceType relationshipType targetType = some spec := by
  unfold getSpec at h
  split at h
  · cases h
  · split at h
    · cases h
    · split at h
      · cases h
      · split at h
        · rename_i found
          rw [found]
          exact congrArg some (Except.ok.inj h)
        · cases h

/-- What may be stored is derived. -/
theorem getDerivedSpec_ok (h : getDerivedSpec sourceType relationshipType targetType = .ok spec) :
    spec ∈ derivedRelationships ∧ spec.sourceType.value = sourceType ∧
      spec.relationshipType.value = relationshipType ∧ spec.targetType.value = targetType := by
  unfold getDerivedSpec at h
  split at h
  · cases h
  · rename_i found hspec
    split at h
    · rename_i derived hderived
      obtain ⟨hmem, hnames⟩ := byTriple_some hderived
      have hsame : byTriple allRelationships sourceType relationshipType targetType =
          some derived := by
        unfold byTriple allRelationships at *
        rw [List.find?_append, hderived]
        rfl
      have hfound : found = derived := Option.some.inj ((getSpec_ok hspec).symm.trans hsame)
      have hout : found = spec := Except.ok.inj h
      rw [← hout, hfound]
      exact ⟨hmem, hnames⟩
    · cases h

/-- The only relationship between incidents that is asserted by hand. -/
theorem manual_spec (h : spec ∈ derivedRelationships) (hmanual : spec.provenanceType = .manual) :
    spec = relatedToSpec := by
  rcases List.mem_cons.mp h with rfl | h
  · cases hmanual
  · exact List.mem_singleton.mp h

theorem canonicalDirection_le (hsymmetric : spec.symmetric = true) (a b : Uuid) :
    (canonicalDirection spec a b).1 ≤ (canonicalDirection spec a b).2 := by
  unfold canonicalDirection
  rw [hsymmetric]
  by_cases hle : a ≤ b
  · simp [hle]
  · have hge : b ≤ a := Nat.le_of_not_le hle
    simp [hle, hge]

/-- The two ends are the two that were given. -/
theorem canonicalDirection_cases (spec : RelationshipSpec) (a b : Uuid) :
    canonicalDirection spec a b = (a, b) ∨ canonicalDirection spec a b = (b, a) := by
  unfold canonicalDirection
  split
  · exact .inl rfl
  · split
    · exact .inl rfl
    · exact .inr rfl

end Contract

/-! ## `core/graph/schemas.py` -/

def maxTraversalDepth : Nat := 2
def defaultMaxNodes : Nat := 50
def defaultMaxEdges : Nat := 100

structure EntityRef where
  entityType : EntityType
  entityId : Uuid
  label : Option String := none
deriving DecidableEq

def EntityRef.key (self : EntityRef) : EntityType × Uuid := (self.entityType, self.entityId)

structure GraphRelationship where
  source : EntityRef
  relationshipType : RelationshipType
  target : EntityRef
  provenanceType : ProvenanceType
  meaning : String
  /-- Unset for a foreign key, which has no stored row. -/
  edgeId : Option Uuid := none
  depth : Nat := 1
deriving DecidableEq

structure GraphNeighborhood where
  origin : EntityRef
  relationships : List GraphRelationship := []
  nodes : List EntityRef := []
  maxDepthReached : Nat := 0
  truncated : Bool := false

structure RelationshipCreate where
  sourceEntityType : EntityType
  sourceEntityId : Uuid
  relationshipType : RelationshipType
  targetEntityType : EntityType
  targetEntityId : Uuid

structure DiscoveryResult where
  edgesCreated : Nat := 0
  edgesRevived : Nat := 0
  edgesUnchanged : Nat := 0
  edgesRemovedStale : Nat := 0
  scannedAt : Instant

end Ekip.Core.Graph
