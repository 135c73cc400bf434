import Ekip.Core.Graph.Traversal
import Ekip.Core.Graph.Discovery

/-!
# What a traversal reveals

Every entity on the walk has passed its resolver. What the walk does beyond that it
reads from the foreign keys and the edges between entities that resolve, as long as no
incident has two postmortems and no investigation stands under another organization
than its incident: the single postmortem and the first ten investigations are picked
before they are resolved.
-/
namespace Ekip.Core.Graph

open Ekip.Lib Ekip.Database Ekip.Shared Ekip.Core

variable {ε : Type} {texts : Texts} {db db' : GraphDb ε} {actor : Identity}

/-! ## The walk keeps what the relationships keep -/

/-- What holds of everything that was collected. -/
structure Walk.All (P : EntityRef → Prop) (w : Walk) : Prop where
  visited : ∀ ref ∈ w.visited, P ref
  relationships : ∀ rel ∈ w.relationships, P rel.source ∧ P rel.target
  nextFrontier : ∀ ref ∈ w.nextFrontier, P ref

variable {P : EntityRef → Prop} {w w' : Walk} {node : EntityRef}

theorem Walk.All.reach {other : EntityRef} (h : w.All P) (hother : P other) :
    (w.reach other).All P := by
  unfold Walk.reach
  split
  · exact h
  · split
    · exact ⟨h.visited, h.relationships, h.nextFrontier⟩
    · constructor
      · intro ref href
        rcases List.mem_append.mp href with hold | hnew
        · exact h.visited ref hold
        · rw [List.mem_singleton.mp hnew]
          exact hother
      · exact h.relationships
      · intro ref href
        rcases List.mem_append.mp href with hold | hnew
        · exact h.nextFrontier ref hold
        · rw [List.mem_singleton.mp hnew]
          exact hother

theorem Walk.All.record {rel : GraphRelationship} (h : w.All P) (depth : Nat)
    (hrel : P rel.source ∧ P rel.target) : (w.record depth rel).All P where
  visited := h.visited
  relationships := by
    intro other hother
    rcases List.mem_append.mp hother with hold | hnew
    · exact h.relationships other hold
    · rw [List.mem_singleton.mp hnew]
      exact hrel
  nextFrontier := h.nextFrontier

theorem farEnd_of {rel : GraphRelationship} (hrel : P rel.source ∧ P rel.target) :
    P (farEnd node rel) := by
  unfold farEnd
  split
  · exact hrel.2
  · exact hrel.1

theorem Walk.All.visit {rels : List GraphRelationship} (h : w.All P) (depth : Nat)
    (hrels : ∀ rel ∈ rels, P rel.source ∧ P rel.target) : (visit depth node rels w).All P := by
  induction rels generalizing w with
  | nil => exact h
  | cons rel rels ih =>
    have hrest : ∀ rel ∈ rels, P rel.source ∧ P rel.target :=
      fun other hother => hrels other (List.mem_cons_of_mem _ hother)
    have hrel := hrels rel List.mem_cons_self
    unfold Graph.visit
    split
    · exact ih h hrest
    · split
      · exact ⟨h.visited, h.relationships, h.nextFrontier⟩
      · exact ih ((h.record depth hrel).reach (farEnd_of hrel)) hrest

section Walks

variable {direct direct' : EntityRef → Except Exn (List GraphRelationship)}

/-- From what has `P` the relationships lead to what has it. -/
def Closed (P : EntityRef → Prop) (direct : EntityRef → Except Exn (List GraphRelationship)) :
    Prop :=
  ∀ node, P node → ∀ rels, direct node = .ok rels → ∀ rel ∈ rels, P rel.source ∧ P rel.target

theorem Walk.All.expand (hclosed : Closed P direct) {depth : Nat} {frontier : List EntityRef}
    (hfrontier : ∀ node ∈ frontier, P node) (h : w.All P)
    (hexpand : expand direct depth frontier w = .ok w') : w'.All P := by
  induction frontier generalizing w with
  | nil =>
    obtain rfl := Except.ok.inj hexpand
    exact h
  | cons node nodes ih =>
    unfold Graph.expand at hexpand
    obtain ⟨rels, hrels, hexpand⟩ := Query.bind_ok.mp hexpand
    have hvisit : (Graph.visit depth node rels w).All P :=
      h.visit depth (hclosed node (hfrontier node List.mem_cons_self) rels hrels)
    dsimp only at hexpand
    split at hexpand
    · obtain rfl := Except.ok.inj hexpand
      exact ⟨hvisit.visited, hvisit.relationships, hvisit.nextFrontier⟩
    · exact ih (fun other hother => hfrontier other (List.mem_cons_of_mem _ hother)) hvisit hexpand

theorem Walk.All.traverse (hclosed : Closed P direct) {depths : List Nat}
    {frontier : List EntityRef} {reached : Nat} {out : Walk × Nat}
    (hfrontier : ∀ node ∈ frontier, P node) (h : w.All P)
    (htraverse : traverse direct depths frontier w reached = .ok out) : out.1.All P := by
  induction depths generalizing frontier w reached with
  | nil =>
    obtain rfl := Except.ok.inj htraverse
    exact h
  | cons depth depths ih =>
    unfold Graph.traverse at htraverse
    split at htraverse
    · obtain rfl := Except.ok.inj htraverse
      exact h
    · obtain ⟨next, hexpand, hrest⟩ := Query.bind_ok.mp htraverse
      have hstart : ({ w with nextFrontier := [] } : Walk).All P :=
        ⟨h.visited, h.relationships, fun ref href => by cases href⟩
      have hnext := Walk.All.expand hclosed hfrontier hstart hexpand
      exact ih hnext.nextFrontier hnext hrest

/-- The walk asks only about nodes that have `P`. -/
theorem expand_congr (hsame : ∀ node, P node → direct node = direct' node) {depth : Nat}
    {frontier : List EntityRef} (hfrontier : ∀ node ∈ frontier, P node) :
    expand direct depth frontier w = expand direct' depth frontier w := by
  induction frontier generalizing w with
  | nil => rfl
  | cons node nodes ih =>
    have hrest := fun other hother => hfrontier other (List.mem_cons_of_mem node hother)
    unfold Graph.expand
    rw [← hsame node (hfrontier node List.mem_cons_self)]
    cases direct node with
    | error e => rfl
    | ok rels =>
      show (if _ then _ else _) = if _ then _ else _
      rw [ih hrest]

theorem traverse_congr (hclosed : Closed P direct)
    (hsame : ∀ node, P node → direct node = direct' node) {depths : List Nat}
    {frontier : List EntityRef} {reached : Nat} (hfrontier : ∀ node ∈ frontier, P node)
    (h : w.All P) :
    traverse direct depths frontier w reached = traverse direct' depths frontier w reached := by
  induction depths generalizing frontier w reached with
  | nil => rfl
  | cons depth depths ih =>
    unfold Graph.traverse
    split
    · rfl
    · rw [← expand_congr hsame hfrontier]
      cases hexpand : expand direct depth frontier { w with nextFrontier := [] } with
      | error e => rfl
      | ok next =>
        have hstart : ({ w with nextFrontier := [] } : Walk).All P :=
          ⟨h.visited, h.relationships, fun ref href => by cases href⟩
        have hnext := Walk.All.expand hclosed hfrontier hstart hexpand
        exact ih hnext.nextFrontier hnext

end Walks

/-! ## Resolution is the read rule -/

/-- The entity is of the organization of the actor, who may read it by the rule of its
type. -/
def MayRead (db : GraphDb ε) (actor : Identity) (ref : EntityRef) : Prop :=
  match ref.entityType with
  | .incident => ∃ row ∈ db.incidents, row.id = ref.entityId ∧
      row.organizationId = actor.organizationId ∧
      actor.hasPermission "incident:read" (some row.projectId) = true
  | .postmortem => ∃ row ∈ db.postmortems, row.id = ref.entityId ∧
      row.organizationId = actor.organizationId ∧
      (row.status = .approved ∨ row.status = .published ∨
        ∃ projectId, (Incidents.Repository.getIncidentById db.toIncidentDb row.incidentId).map
            (fun incident => incident.projectId) = projectId ∧
          (actor.hasPermission "postmortem:write" projectId = true ∨
            actor.hasPermission "postmortem:approve" projectId = true))
  | .document => ∃ row ∈ db.documents, row.id = ref.entityId ∧
      row.organizationId = actor.organizationId ∧ row.deletedAt = none ∧
      (row.status = .published ∨
        actor.hasPermission "knowledge:review" (some row.projectId) = true)
  | .project => ∃ row ∈ db.projects, row.id = ref.entityId ∧
      row.organizationId = actor.organizationId
  | .investigation => ∃ row ∈ db.incidentTimeline, row.id = ref.entityId ∧
      row.organizationId = actor.organizationId ∧ row.event.eventType = "investigation" ∧
      ∃ incident ∈ db.incidents, incident.id = row.incidentId ∧
        incident.organizationId = actor.organizationId ∧
        actor.hasPermission "incident:read" (some incident.projectId) = true

/-- The entity is what its resolver makes of its key. -/
def Resolved (texts : Texts) (db : GraphDb ε) (actor : Identity) (ref : EntityRef) : Prop :=
  resolveEntity texts db actor ref.entityType ref.entityId = some ref

/-- A resolver looks a row up, tests it and shows it. -/
theorem lookup_some {ρ : Type} {key : ρ → Uuid} {t : List ρ} {id : Uuid} {readable : ρ → Bool}
    {f : ρ → EntityRef} {ref : EntityRef}
    (h : (((Table.get? key t id).filter readable).bind fun row => some (f row)) = some ref) :
    ∃ row ∈ t, key row = id ∧ readable row = true ∧ f row = ref := by
  obtain ⟨row, hfound, hshown⟩ := Option.bind_eq_some_iff.mp h
  obtain ⟨hget, hreadable⟩ := Option.filter_eq_some_iff.mp hfound
  obtain ⟨hmem, hkey⟩ := Table.get?_some hget
  exact ⟨row, hmem, hkey, hreadable, Option.some.inj hshown⟩

variable {ref : EntityRef} {kind : EntityType} {entityId : Uuid}

/-- What resolves bears the type and the id that it was looked up under. -/
theorem resolveEntity_key (h : resolveEntity texts db actor kind entityId = some ref) :
    ref.entityType = kind ∧ ref.entityId = entityId := by
  cases kind with
  | incident | postmortem | document | project | investigation =>
    obtain ⟨row, -, hid, -, rfl⟩ := lookup_some h
    exact ⟨rfl, hid⟩

theorem resolved_of_resolveEntity (kind : EntityType)
    (h : resolveEntity texts db actor kind entityId = some ref) : Resolved texts db actor ref := by
  obtain ⟨hkind, hid⟩ := resolveEntity_key h
  unfold Resolved
  rw [hkind, hid]
  exact h

theorem incident_readable {row : IncidentRow} (h : incidentReadable actor row = true) :
    row.organizationId = actor.organizationId ∧
      actor.hasPermission "incident:read" (some row.projectId) = true :=
  of_decide_eq_true h

/-- The resolver of each type applies the read rule of the type. -/
theorem mayRead_of_resolved (h : Resolved texts db actor ref) : MayRead db actor ref := by
  unfold Resolved at h
  unfold MayRead
  cases hkind : ref.entityType with
  | incident =>
    rw [hkind] at h
    obtain ⟨row, hmem, hid, hreadable, -⟩ := lookup_some h
    exact ⟨row, hmem, hid, incident_readable hreadable⟩
  | postmortem =>
    rw [hkind] at h
    obtain ⟨row, hmem, hid, hreadable, -⟩ := lookup_some h
    obtain ⟨horg, hstatus⟩ := of_decide_eq_true hreadable
    refine ⟨row, hmem, hid, horg, ?_⟩
    rcases hstatus with happroved | hpublished | hwrite | happrove
    · exact .inl happroved
    · exact .inr (.inl hpublished)
    · exact .inr (.inr ⟨_, rfl, .inl hwrite⟩)
    · exact .inr (.inr ⟨_, rfl, .inr happrove⟩)
  | document | project =>
    rw [hkind] at h
    obtain ⟨row, hmem, hid, hreadable, -⟩ := lookup_some h
    exact ⟨row, hmem, hid, of_decide_eq_true hreadable⟩
  | investigation =>
    rw [hkind] at h
    obtain ⟨row, hmem, hid, hreadable, -⟩ := lookup_some h
    obtain ⟨horg, hevent, hincident⟩ := of_decide_eq_true hreadable
    obtain ⟨incidentRef, hresolved⟩ := Option.isSome_iff_exists.mp hincident
    obtain ⟨incident, hin, hincidentId, hread, -⟩ := lookup_some hresolved
    exact ⟨row, hmem, hid, horg, hevent, incident, hin, hincidentId, incident_readable hread⟩

/-! ## Both ends of every relationship resolve -/

theorem mem_ownerRelationship {spec : RelationshipSpec} {incidentId : Option Uuid}
    {rel : GraphRelationship} (hnode : Resolved texts db actor node)
    (h : rel ∈ ownerRelationship db actor node spec incidentId) :
    Resolved texts db actor rel.source ∧ Resolved texts db actor rel.target := by
  obtain ⟨incident, hincident, rfl⟩ := Option.map_eq_some_iff.mp (Option.mem_toList.mp h)
  obtain ⟨id, -, hresolved⟩ := Option.bind_eq_some_iff.mp hincident
  exact ⟨resolved_of_resolveEntity .incident hresolved, hnode⟩

theorem mem_incidentRelationships {incident : IncidentRow} {rels : List GraphRelationship}
    {rel : GraphRelationship} (hnode : Resolved texts db actor node)
    (h : incidentRelationships texts db actor node incident = .ok rels) (hrel : rel ∈ rels) :
    Resolved texts db actor rel.source ∧ Resolved texts db actor rel.target := by
  unfold incidentRelationships at h
  obtain ⟨postmortemRow, -, h⟩ := Query.bind_ok.mp h
  obtain rfl := Except.ok.inj h
  rcases List.mem_append.mp hrel with hrel | hrel
  · rcases List.mem_append.mp hrel with hrel | hrel
    · obtain ⟨target, htarget, rfl⟩ := Option.map_eq_some_iff.mp (Option.mem_toList.mp hrel)
      exact ⟨hnode, resolved_of_resolveEntity .project htarget⟩
    · obtain ⟨target, htarget, rfl⟩ := Option.map_eq_some_iff.mp (Option.mem_toList.mp hrel)
      obtain ⟨row, -, hresolved⟩ := Option.bind_eq_some_iff.mp htarget
      exact ⟨hnode, resolved_of_resolveEntity .postmortem hresolved⟩
  · obtain ⟨target, htarget, rfl⟩ := List.mem_map.mp hrel
    obtain ⟨row, -, hresolved⟩ := List.mem_filterMap.mp htarget
    exact ⟨hnode, resolved_of_resolveEntity .investigation hresolved⟩

theorem mem_fkRelationships {rels : List GraphRelationship} {rel : GraphRelationship}
    (hnode : Resolved texts db actor node) (h : fkRelationships texts db actor node = .ok rels)
    (hrel : rel ∈ rels) :
    Resolved texts db actor rel.source ∧ Resolved texts db actor rel.target := by
  unfold fkRelationships at h
  split at h
  · split at h
    · obtain rfl := Except.ok.inj h
      cases hrel
    · exact mem_incidentRelationships hnode h hrel
  · obtain rfl := Except.ok.inj h
    exact mem_ownerRelationship hnode hrel
  · obtain rfl := Except.ok.inj h
    obtain ⟨target, htarget, rfl⟩ := Option.map_eq_some_iff.mp (Option.mem_toList.mp hrel)
    obtain ⟨row, -, hresolved⟩ := Option.bind_eq_some_iff.mp htarget
    exact ⟨hnode, resolved_of_resolveEntity .project hresolved⟩
  · obtain rfl := Except.ok.inj h
    cases hrel
  · obtain rfl := Except.ok.inj h
    exact mem_ownerRelationship hnode hrel

theorem resolved_of_resolveNamed {entityType : String}
    (h : resolveNamed texts db actor entityType entityId = some ref) :
    Resolved texts db actor ref := by
  obtain ⟨kind, -, hresolved⟩ := Option.bind_eq_some_iff.mp h
  exact resolved_of_resolveEntity kind hresolved

theorem otherEnd_resolved {edge : KnowledgeGraphEdgeRow} {other : EntityRef}
    (h : otherEnd texts db actor node edge = some other) : Resolved texts db actor other := by
  unfold otherEnd at h
  split at h
  · exact resolved_of_resolveNamed h
  · exact resolved_of_resolveNamed h

/-- The two ends are the node and the other one. -/
theorem storedRelationship_ok {other : EntityRef} {edge : KnowledgeGraphEdgeRow}
    {rel : GraphRelationship} (h : storedRelationship node other edge = .ok rel) :
    (rel.source = node ∧ rel.target = other) ∨ (rel.source = other ∧ rel.target = node) := by
  unfold storedRelationship at h
  obtain ⟨relationshipType, -, h⟩ := Query.bind_ok.mp h
  obtain ⟨provenanceType, -, h⟩ := Query.bind_ok.mp h
  obtain rfl := Except.ok.inj h
  by_cases hfrom : edgeIsFrom node edge = true
  · simp [hfrom]
  · simp [hfrom]

theorem mem_derivedFrom {edges : List KnowledgeGraphEdgeRow} {rels : List GraphRelationship}
    {rel : GraphRelationship} (hnode : Resolved texts db actor node)
    (h : derivedFrom texts db actor node edges = .ok rels) (hrel : rel ∈ rels) :
    Resolved texts db actor rel.source ∧ Resolved texts db actor rel.target := by
  induction edges generalizing rels with
  | nil =>
    obtain rfl := Except.ok.inj h
    cases hrel
  | cons edge edges ih =>
    unfold derivedFrom at h
    split at h
    · exact ih h hrel
    · rename_i other hother
      obtain ⟨first, hfirst, h⟩ := Query.bind_ok.mp h
      obtain ⟨rest, hrest, h⟩ := Query.bind_ok.mp h
      obtain rfl := Except.ok.inj h
      rcases List.mem_cons.mp hrel with rfl | hrel
      · have hresolved := otherEnd_resolved hother
        rcases storedRelationship_ok hfirst with ⟨hsource, htarget⟩ | ⟨hsource, htarget⟩
        · rw [hsource, htarget]
          exact ⟨hnode, hresolved⟩
        · rw [hsource, htarget]
          exact ⟨hresolved, hnode⟩
      · exact ih hrest hrel

theorem directRelationships_closed :
    Closed (Resolved texts db actor) (directRelationships texts db actor) := by
  intro node hnode rels h rel hrel
  unfold directRelationships at h
  obtain ⟨live, hlive, h⟩ := Query.bind_ok.mp h
  obtain ⟨stored, hstored, h⟩ := Query.bind_ok.mp h
  obtain rfl := Except.ok.inj h
  rcases List.mem_append.mp (Query.mem_orderBy.mp hrel) with hrel | hrel
  · exact mem_fkRelationships hnode hlive hrel
  · exact mem_derivedFrom hnode hstored hrel

/-! ## What two states may agree on -/

/-- The foreign key of a row. -/
def reference (db : GraphDb ε) (entityId : Uuid) : EntityType → Option (EntityType × Uuid)
  | .incident =>
    (Incidents.Repository.getIncidentById db.toIncidentDb entityId).map fun row =>
      (.project, row.projectId)
  | .postmortem => (getPostmortemById db entityId).map fun row => (.incident, row.incidentId)
  | .document =>
    (Knowledge.Repository.getDocumentById db.toContentDb entityId).map fun row =>
      (.project, row.projectId)
  | .project => none
  | .investigation => (getTimelineEntry db entityId).map fun row => (.incident, row.incidentId)

section Views

variable (texts) (db) (actor)

/-- The entity that a foreign key leads to, if the actor may see it. -/
def visibleReference (kind : EntityType) (entityId : Uuid) : Option EntityRef :=
  (reference db entityId kind).bind fun key => resolveEntity texts db actor key.1 key.2

/-- The postmortems that refer to an incident, and the actor may see. -/
def visiblePostmortems (incidentId : Uuid) : List EntityRef :=
  (db.postmortems.filter fun row => row.incidentId = incidentId).filterMap fun row =>
    resolvePostmortem db actor row.id

/-- The investigations likewise, in the order of time. -/
def visibleInvestigations (incidentId : Uuid) : List EntityRef :=
  (investigationRows db incidentId).filterMap fun row => resolveInvestigation texts db actor row.id

/-- The active edges of the organization between entities that the actor may see. -/
def visibleEdges : List KnowledgeGraphEdgeRow :=
  db.knowledgeGraphEdges.filter fun edge =>
    edge.organizationId = actor.organizationId ∧ edge.status = .active ∧
      (resolveNamed texts db actor edge.sourceEntityType edge.sourceEntityId).isSome = true ∧
      (resolveNamed texts db actor edge.targetEntityType edge.targetEntityId).isSome = true

end Views

/-- The two states have the same entities for the actor, with the same foreign keys and
the same edges between them. -/
structure Agree (texts : Texts) (actor : Identity) (db db' : GraphDb ε) : Prop where
  entities : ∀ kind entityId,
    resolveEntity texts db actor kind entityId = resolveEntity texts db' actor kind entityId
  references : ∀ kind entityId, (resolveEntity texts db actor kind entityId).isSome = true →
    visibleReference texts db actor kind entityId = visibleReference texts db' actor kind entityId
  postmortems : ∀ incidentId, (resolveIncident db actor incidentId).isSome = true →
    visiblePostmortems db actor incidentId = visiblePostmortems db' actor incidentId
  investigations : ∀ incidentId, (resolveIncident db actor incidentId).isSome = true →
    visibleInvestigations texts db actor incidentId =
      visibleInvestigations texts db' actor incidentId
  edges : visibleEdges texts db actor = visibleEdges texts db' actor

/-- Of the incidents that the actor may see: at most one postmortem each, and no
investigation under another organization. -/
structure Tidy (actor : Identity) (db : GraphDb ε) : Prop where
  timeline : Table.KeyUnique TimelineEntry.id db.incidentTimeline
  onePostmortem : ∀ incidentId, (resolveIncident db actor incidentId).isSome = true →
    (db.postmortems.filter fun row => row.incidentId = incidentId).length ≤ 1
  ownInvestigations : ∀ incidentId, (resolveIncident db actor incidentId).isSome = true →
    ∀ row ∈ db.incidentTimeline, row.incidentId = incidentId →
      row.event.eventType = "investigation" → row.organizationId = actor.organizationId

/-! ## The relationships of a node depend on what the actor may see -/

theorem resolveNamed_congr (h : Agree texts actor db db') (entityType : String) (entityId : Uuid) :
    resolveNamed texts db actor entityType entityId =
      resolveNamed texts db' actor entityType entityId := by
  unfold resolveNamed
  cases EntityType.ofValue? entityType with
  | none => rfl
  | some kind => exact h.entities kind entityId

theorem EntityType.ofValue?_value (kind : EntityType) :
    EntityType.ofValue? kind.value = some kind := by
  cases kind <;> rfl

/-- The single postmortem of an incident, if the actor may see it. -/
theorem postmortem_of_tidy {rows : List Postmortem} {f : Postmortem → Option EntityRef}
    (h : rows.length ≤ 1) :
    (Knowledge.Repository.scalarOneOrNone rows).map (fun row => row.bind f) =
      .ok (rows.filterMap f).head? := by
  match rows, h with
  | [], _ => rfl
  | [row], _ =>
    show Except.ok (f row) = .ok ([row].filterMap f).head?
    cases hf : f row with
    | none | some ref => simp [hf]

theorem filterMap_take_of_isSome {α β : Type} {f : α → Option β} {as : List α}
    (h : ∀ a ∈ as, (f a).isSome = true) (n : Nat) :
    (as.take n).filterMap f = (as.filterMap f).take n := by
  induction as generalizing n with
  | nil => simp
  | cons a as ih =>
    obtain ⟨b, hb⟩ := Option.isSome_iff_exists.mp (h a List.mem_cons_self)
    cases n with
    | zero => simp
    | succ n =>
      rw [List.take_succ_cons, List.filterMap_cons_some hb, List.filterMap_cons_some hb,
        List.take_succ_cons, ih fun other hother => h other (List.mem_cons_of_mem _ hother)]

/-- Every investigation of an incident that the actor may see resolves. -/
theorem investigations_resolve (htidy : Tidy actor db) {incidentId : Uuid}
    (hincident : (resolveIncident db actor incidentId).isSome = true) :
    ∀ row ∈ investigationRows db incidentId,
      (resolveInvestigation texts db actor row.id).isSome = true := by
  intro row hrow
  obtain ⟨hlisted, hevent⟩ := List.mem_filter.mp hrow
  obtain ⟨hin, hof⟩ := List.mem_filter.mp (Query.mem_orderBy.mp hlisted)
  have hof : row.incidentId = incidentId := of_decide_eq_true hof
  have hevent : row.event.eventType = "investigation" := of_decide_eq_true hevent
  have hreadable : investigationReadable db actor row = true := by
    apply decide_eq_true
    rw [hof]
    exact ⟨htidy.ownInvestigations incidentId hincident row hin hof hevent, hevent, hincident⟩
  have hget : getTimelineEntry db row.id = some row := Table.get?_of_mem htidy.timeline hin
  unfold resolveInvestigation
  rw [hget]
  simp [Option.filter, hreadable]

theorem incidentRelationships_eq (htidy : Tidy actor db) {incident : IncidentRow}
    (hincident : (resolveIncident db actor node.entityId).isSome = true)
    (hget : Incidents.Repository.getIncidentById db.toIncidentDb node.entityId = some incident) :
    incidentRelationships texts db actor node incident =
      .ok (((visibleReference texts db actor .incident node.entityId).map
          (foreignKeyRelationship incidentBelongsToSpec node)).toList ++
        ((visiblePostmortems db actor node.entityId).head?.map
          (foreignKeyRelationship hasPostmortemSpec node)).toList ++
        ((visibleInvestigations texts db actor node.entityId).take maxInvestigationFanout).map
          (foreignKeyRelationship investigatedBySpec node)) := by
  have hproject : visibleReference texts db actor .incident node.entityId =
      resolveProject db actor incident.projectId := by
    unfold visibleReference reference
    rw [hget]
    rfl
  have hpostmortem := postmortem_of_tidy (f := fun row => resolvePostmortem db actor row.id)
    (htidy.onePostmortem node.entityId hincident)
  have hresolve : ∀ row ∈ investigationRows db node.entityId,
      (resolveInvestigation texts db actor row.id).isSome = true :=
    investigations_resolve htidy hincident
  unfold incidentRelationships getPostmortemByIncidentId visibleInvestigations
  rw [hproject, ← filterMap_take_of_isSome hresolve]
  cases hscalar : Knowledge.Repository.scalarOneOrNone
      (db.postmortems.filter fun row => row.incidentId = node.entityId) with
  | error e =>
    rw [hscalar] at hpostmortem
    cases hpostmortem
  | ok found =>
    rw [hscalar] at hpostmortem
    have hfound : (found.bind fun row => resolvePostmortem db actor row.id) =
        (visiblePostmortems db actor node.entityId).head? := Except.ok.inj hpostmortem
    rw [← hfound]
    rfl

/-- What a node of the walk is: a row that is there, whose foreign key both states
show alike. -/
theorem fkRelationships_congr (h : Agree texts actor db db') (htidy : Tidy actor db)
    (htidy' : Tidy actor db') (hnode : Resolved texts db actor node) :
    fkRelationships texts db actor node = fkRelationships texts db' actor node := by
  have hnode' : Resolved texts db' actor node := (h.entities _ _).symm.trans hnode
  have href := h.references node.entityType node.entityId
    (Option.isSome_iff_exists.mpr ⟨node, hnode⟩)
  unfold Resolved at hnode hnode'
  unfold fkRelationships
  cases hkind : node.entityType with
  | incident =>
    rw [hkind] at hnode hnode' href
    have hsome : (resolveIncident db actor node.entityId).isSome = true :=
      Option.isSome_iff_exists.mpr ⟨node, hnode⟩
    have hsome' : (resolveIncident db' actor node.entityId).isSome = true :=
      Option.isSome_iff_exists.mpr ⟨node, hnode'⟩
    obtain ⟨incident, hfound, -⟩ := Option.bind_eq_some_iff.mp hnode
    obtain ⟨incident', hfound', -⟩ := Option.bind_eq_some_iff.mp hnode'
    have hget := (Option.filter_eq_some_iff.mp hfound).1
    have hget' := (Option.filter_eq_some_iff.mp hfound').1
    rw [hget, hget']
    show incidentRelationships texts db actor node incident =
      incidentRelationships texts db' actor node incident'
    rw [incidentRelationships_eq htidy hsome hget, incidentRelationships_eq htidy' hsome' hget',
      href, h.postmortems node.entityId hsome, h.investigations node.entityId hsome]
  | postmortem =>
    rw [hkind] at href
    have howner : ∀ state : GraphDb ε,
        ((getPostmortemById state node.entityId).map Postmortem.incidentId).bind
            (resolveIncident state actor) =
          visibleReference texts state actor .postmortem node.entityId := by
      intro state
      unfold visibleReference reference
      cases getPostmortemById state node.entityId <;> rfl
    show Except.ok (ownerRelationship _ _ _ _ _) = .ok (ownerRelationship _ _ _ _ _)
    unfold ownerRelationship
    rw [howner db, howner db', href]
  | document =>
    rw [hkind] at href
    have hproject : ∀ state : GraphDb ε,
        ((Knowledge.Repository.getDocumentById state.toContentDb node.entityId).bind fun row =>
            resolveProject state actor row.projectId) =
          visibleReference texts state actor .document node.entityId := by
      intro state
      unfold visibleReference reference
      cases Knowledge.Repository.getDocumentById state.toContentDb node.entityId <;> rfl
    dsimp only
    rw [hproject db, hproject db', href]
  | project => rfl
  | investigation =>
    rw [hkind] at href
    have howner : ∀ state : GraphDb ε,
        ((getTimelineEntry state node.entityId).map TimelineEntry.incidentId).bind
            (resolveIncident state actor) =
          visibleReference texts state actor .investigation node.entityId := by
      intro state
      unfold visibleReference reference
      cases getTimelineEntry state node.entityId <;> rfl
    show Except.ok (ownerRelationship _ _ _ _ _) = .ok (ownerRelationship _ _ _ _ _)
    unfold ownerRelationship
    rw [howner db, howner db', href]

/-- The edges whose other end does not resolve do not matter. -/
theorem derivedFrom_filter (edges : List KnowledgeGraphEdgeRow) :
    derivedFrom texts db actor node
        (edges.filter fun edge => (otherEnd texts db actor node edge).isSome) =
      derivedFrom texts db actor node edges := by
  induction edges with
  | nil => rfl
  | cons edge edges ih =>
    cases hother : otherEnd texts db actor node edge with
    | none =>
      rw [List.filter_cons_of_neg (by simp [hother]), ih]
      conv => rhs; unfold derivedFrom
      rw [hother]
    | some other =>
      rw [List.filter_cons_of_pos (by simp [hother])]
      unfold derivedFrom
      rw [hother]
      dsimp only
      rw [ih]

theorem derivedFrom_congr (h : Agree texts actor db db') (edges : List KnowledgeGraphEdgeRow) :
    derivedFrom texts db actor node edges = derivedFrom texts db' actor node edges := by
  have hother : ∀ edge, otherEnd texts db actor node edge = otherEnd texts db' actor node edge := by
    intro edge
    unfold otherEnd
    rw [resolveNamed_congr h, resolveNamed_congr h]
  induction edges with
  | nil => rfl
  | cons edge edges ih =>
    unfold derivedFrom
    rw [hother edge, ih]

/-- The edges at a node that lead somewhere are the visible edges at it. -/
theorem directEdges_filter (hnode : Resolved texts db actor node) :
    ((Repository.getDirectEdges db actor.organizationId node.entityType.value
        node.entityId).filter fun edge => (otherEnd texts db actor node edge).isSome) =
      (visibleEdges texts db actor).filter
        (Repository.touchesEntity node.entityType.value node.entityId) := by
  have hself : resolveNamed texts db actor node.entityType.value node.entityId = some node := by
    unfold resolveNamed
    rw [EntityType.ofValue?_value]
    exact hnode
  unfold Repository.getDirectEdges visibleEdges
  rw [List.filter_filter, List.filter_filter]
  refine List.filter_congr fun edge _ => ?_
  rw [Bool.eq_iff_iff]
  simp only [Bool.and_eq_true, decide_eq_true_eq]
  by_cases hsource : edge.sourceEntityType = node.entityType.value ∧
      edge.sourceEntityId = node.entityId
  · have hother : otherEnd texts db actor node edge =
        resolveNamed texts db actor edge.targetEntityType edge.targetEntityId :=
      if_pos (decide_eq_true hsource)
    have htouches : Repository.touchesEntity node.entityType.value node.entityId edge = true :=
      decide_eq_true (.inl hsource)
    have hfirst : (resolveNamed texts db actor edge.sourceEntityType
        edge.sourceEntityId).isSome = true := by
      rw [hsource.1, hsource.2, hself]
      rfl
    rw [hother, htouches, hfirst]
    tauto
  · have hother : otherEnd texts db actor node edge =
        resolveNamed texts db actor edge.sourceEntityType edge.sourceEntityId :=
      if_neg fun hfrom => hsource (of_decide_eq_true hfrom)
    by_cases htarget : edge.targetEntityType = node.entityType.value ∧
        edge.targetEntityId = node.entityId
    · have htouches : Repository.touchesEntity node.entityType.value node.entityId edge = true :=
        decide_eq_true (.inr htarget)
      have hlast : (resolveNamed texts db actor edge.targetEntityType
          edge.targetEntityId).isSome = true := by
        rw [htarget.1, htarget.2, hself]
        rfl
      rw [hother, htouches, hlast]
      tauto
    · have htouches : ¬ Repository.touchesEntity node.entityType.value node.entityId edge =
          true := by
        intro htouches
        rcases of_decide_eq_true htouches with h | h
        · exact hsource h
        · exact htarget h
      tauto

theorem derivedRelationships_congr (h : Agree texts actor db db')
    (hnode : Resolved texts db actor node) :
    derivedRelationships texts db actor node = derivedRelationships texts db' actor node := by
  have hnode' : Resolved texts db' actor node := (h.entities _ _).symm.trans hnode
  unfold derivedRelationships
  rw [← derivedFrom_filter, directEdges_filter hnode, h.edges, derivedFrom_congr h,
    ← directEdges_filter hnode', derivedFrom_filter]

theorem directRelationships_congr (h : Agree texts actor db db') (htidy : Tidy actor db)
    (htidy' : Tidy actor db') (hnode : Resolved texts db actor node) :
    directRelationships texts db actor node = directRelationships texts db' actor node := by
  unfold directRelationships
  rw [fkRelationships_congr h htidy htidy' hnode, derivedRelationships_congr h hnode]

/-! ## What a traversal reveals -/

/-- The entities that a neighborhood shows. -/
def GraphNeighborhood.Shows (neighborhood : GraphNeighborhood) (ref : EntityRef) : Prop :=
  ref = neighborhood.origin ∨ ref ∈ neighborhood.nodes ∨
    ∃ rel ∈ neighborhood.relationships, ref = rel.source ∨ ref = rel.target

theorem getNeighborhood_shows {entityType : String} {maxDepth : Int}
    {neighborhood : GraphNeighborhood}
    (h : getNeighborhood texts db actor entityType entityId maxDepth = .ok neighborhood)
    (href : neighborhood.Shows ref) : Resolved texts db actor ref := by
  unfold getNeighborhood at h
  split at h
  · cases h
  · split at h
    · cases h
    · rename_i origin horigin
      obtain ⟨out, hwalk, h⟩ := Query.bind_ok.mp h
      obtain rfl := Except.ok.inj h
      have hresolved := resolved_of_resolveEntity _ horigin
      have hstart : ({ visited := [origin] } : Walk).All (Resolved texts db actor) := by
        refine ⟨?_, ?_, ?_⟩
        · intro other hother
          rw [List.mem_singleton.mp hother]
          exact hresolved
        · intro rel hrel
          cases hrel
        · intro other hother
          cases hother
      have hall := Walk.All.traverse directRelationships_closed hstart.visited hstart hwalk
      rcases href with rfl | hnode | ⟨rel, hrel, rfl | rfl⟩
      · exact hresolved
      · exact hall.visited ref hnode
      · exact (hall.relationships rel hrel).1
      · exact (hall.relationships rel hrel).2

theorem getNeighborhood_congr (h : Agree texts actor db db') (htidy : Tidy actor db)
    (htidy' : Tidy actor db') (entityType : String) (entityId : Uuid) (maxDepth : Int) :
    getNeighborhood texts db actor entityType entityId maxDepth =
      getNeighborhood texts db' actor entityType entityId maxDepth := by
  unfold getNeighborhood
  cases EntityType.ofValue? entityType with
  | none => rfl
  | some kind =>
    dsimp only
    rw [← h.entities kind entityId]
    cases horigin : resolveEntity texts db actor kind entityId with
    | none => rfl
    | some origin =>
      have hresolved := resolved_of_resolveEntity _ horigin
      have hstart : ({ visited := [origin] } : Walk).All (Resolved texts db actor) := by
        refine ⟨?_, ?_, ?_⟩
        · intro other hother
          rw [List.mem_singleton.mp hother]
          exact hresolved
        · intro rel hrel
          cases hrel
        · intro other hother
          cases hother
      dsimp only
      rw [traverse_congr directRelationships_closed
        (fun node hnode => directRelationships_congr h htidy htidy' hnode) hstart.visited hstart]

/-- Whatever the database holds, a neighborhood shows only what the actor may read; and
states that look alike to the actor, and are tidy, give the same answer. -/
theorem traversal_reveals_visible (texts : Texts) (actor : Identity) (entityType : String)
    (entityId : Uuid) (maxDepth : Int) (db : GraphDb ε) :
    (∀ neighborhood, getNeighborhood texts db actor entityType entityId maxDepth =
        .ok neighborhood → ∀ ref, neighborhood.Shows ref → MayRead db actor ref) ∧
    ∀ db' : GraphDb ε, Agree texts actor db db' → Tidy actor db → Tidy actor db' →
      getNeighborhood texts db actor entityType entityId maxDepth =
        getNeighborhood texts db' actor entityType entityId maxDepth := by
  constructor
  · intro neighborhood h ref href
    exact mayRead_of_resolved (getNeighborhood_shows h href)
  · intro db' hagree htidy htidy'
    exact getNeighborhood_congr hagree htidy htidy' entityType entityId maxDepth

/-! ## Hidden rows that show -/

/-- A resolver that looks among the readable rows. -/
theorem lookup_congr {ρ : Type} {key : ρ → Uuid} {t t' : List ρ} {readable : ρ → Bool}
    (ht : Table.KeyUnique key t) (ht' : Table.KeyUnique key t')
    (hsame : t.filter readable = t'.filter readable) (id : Uuid) :
    (Table.get? key t id).filter readable = (Table.get? key t' id).filter readable := by
  rw [Table.filter_get? ht, Table.filter_get? ht', hsame]

/-- The row that a resolver found is the same in a table with the same readable rows. -/
theorem found_congr {ρ : Type} {key : ρ → Uuid} {t t' : List ρ} {readable : ρ → Bool}
    (ht : Table.KeyUnique key t) (ht' : Table.KeyUnique key t')
    (hsame : t.filter readable = t'.filter readable) {id : Uuid} {f : ρ → EntityRef}
    (h : (((Table.get? key t id).filter readable).bind fun row => some (f row)).isSome = true) :
    Table.get? key t id = Table.get? key t' id := by
  obtain ⟨ref, hfound⟩ := Option.isSome_iff_exists.mp h
  obtain ⟨row, hrow, -⟩ := Option.bind_eq_some_iff.mp hfound
  have hrow' := (lookup_congr ht ht' hsame id).symm.trans hrow
  exact (Option.filter_eq_some_iff.mp hrow).1.trans (Option.filter_eq_some_iff.mp hrow').1.symm

theorem visiblePostmortems_eq (hunique : Table.KeyUnique Postmortem.id db.postmortems)
    (incidentId : Uuid) :
    visiblePostmortems db actor incidentId =
      (((db.postmortems.filter (postmortemReadable db actor)).filter
        fun row => row.incidentId = incidentId).map fun row =>
          { entityType := .postmortem, entityId := row.id }) := by
  have hresolve : ∀ row ∈ db.postmortems, resolvePostmortem db actor row.id =
      if postmortemReadable db actor row = true then
        some { entityType := .postmortem, entityId := row.id }
      else none := by
    intro row hrow
    have hget : getPostmortemById db row.id = some row := Table.get?_of_mem hunique hrow
    unfold resolvePostmortem
    rw [hget]
    by_cases hreadable : postmortemReadable db actor row = true
    · simp [Option.filter, hreadable]
    · simp [Option.filter, hreadable]
  unfold visiblePostmortems
  generalize db.postmortems = rows at hresolve
  induction rows with
  | nil => rfl
  | cons row rows ih =>
    have hrest := ih fun other hother => hresolve other (List.mem_cons_of_mem _ hother)
    have hrow := hresolve row List.mem_cons_self
    by_cases hof : row.incidentId = incidentId
    · by_cases hreadable : postmortemReadable db actor row = true
      · rw [if_pos hreadable] at hrow
        simp only [List.filter_cons, hof, hreadable, decide_true, if_true, List.map_cons,
          List.filterMap_cons, hrow, hrest]
      · rw [if_neg hreadable] at hrow
        simp only [List.filter_cons, hof, hreadable, decide_true, if_true, if_false,
          List.filterMap_cons, hrow, hrest, Bool.false_eq_true]
    · by_cases hreadable : postmortemReadable db actor row = true
      · simp only [List.filter_cons, hof, hreadable, decide_false, if_true, if_false, hrest,
          Bool.false_eq_true]
      · simp only [List.filter_cons, hof, hreadable, decide_false, if_false, hrest,
          Bool.false_eq_true]

/-- The database with other postmortems and another timeline. -/
def withRows (db : GraphDb ε) (postmortems : List Postmortem) (timeline : List TimelineEntry) :
    GraphDb ε :=
  { db with postmortems, incidentTimeline := timeline }

/-- Postmortems and timeline rows that the actor may not see leave what is seen alone. -/
theorem agree_of_hidden {postmortems postmortems' : List Postmortem}
    {timeline timeline' : List TimelineEntry}
    (hkey : Table.KeyUnique Postmortem.id postmortems)
    (hkey' : Table.KeyUnique Postmortem.id postmortems')
    (hentryKey : Table.KeyUnique TimelineEntry.id timeline)
    (hentryKey' : Table.KeyUnique TimelineEntry.id timeline')
    (hpostmortems : postmortems.filter (postmortemReadable db actor) =
      postmortems'.filter (postmortemReadable db actor))
    (htimeline : timeline.filter (investigationReadable db actor) =
      timeline'.filter (investigationReadable db actor))
    (hinvestigations : ∀ incidentId, (resolveIncident db actor incidentId).isSome = true →
      visibleInvestigations texts (withRows db postmortems timeline) actor incidentId =
        visibleInvestigations texts (withRows db postmortems' timeline') actor incidentId) :
    Agree texts actor (withRows db postmortems timeline) (withRows db postmortems' timeline') := by
  have hentities : ∀ kind entityId,
      resolveEntity texts (withRows db postmortems timeline) actor kind entityId =
        resolveEntity texts (withRows db postmortems' timeline') actor kind entityId := by
    intro kind entityId
    cases kind with
    | incident => rfl
    | postmortem =>
      have hfound := lookup_congr hkey hkey' hpostmortems entityId
      exact congrArg (fun found => Option.bind found _) hfound
    | document => rfl
    | project => rfl
    | investigation =>
      have hfound := lookup_congr hentryKey hentryKey' htimeline entityId
      exact congrArg (fun found => Option.bind found _) hfound
  refine ⟨hentities, ?_, ?_, hinvestigations, ?_⟩
  · intro kind entityId hresolved
    have hreference : reference (withRows db postmortems timeline) entityId kind =
        reference (withRows db postmortems' timeline') entityId kind := by
      cases kind with
      | incident => rfl
      | postmortem =>
        have hrow := found_congr hkey hkey' hpostmortems hresolved
        exact congrArg (Option.map _) hrow
      | document | project => rfl
      | investigation =>
        have hrow := found_congr hentryKey hentryKey' htimeline hresolved
        exact congrArg (Option.map _) hrow
    unfold visibleReference
    rw [hreference]
    exact congrArg (Option.bind _) (funext fun key => hentities key.1 key.2)
  · intro incidentId _
    rw [visiblePostmortems_eq hkey, visiblePostmortems_eq hkey']
    have hshown := congrArg (fun rows : List Postmortem => (rows.filter fun row =>
      row.incidentId = incidentId).map fun row =>
        ({ entityType := .postmortem, entityId := row.id } : EntityRef)) hpostmortems
    exact hshown
  · unfold visibleEdges
    refine List.filter_congr fun edge _ => ?_
    have hnamed : ∀ entityType entityId,
        resolveNamed texts (withRows db postmortems timeline) actor entityType entityId =
          resolveNamed texts (withRows db postmortems' timeline') actor entityType entityId := by
      intro entityType entityId
      unfold resolveNamed
      cases EntityType.ofValue? entityType with
      | none => rfl
      | some kind => exact hentities kind entityId
    rw [hnamed, hnamed]

def onCall : Identity where
  kind := .user
  subject := "1"
  organizationId := 1
  permissions := {"incident:read"}

/-- One incident in one project. -/
def oneOutage : GraphDb Unit where
  projects := [{ id := 1, organizationId := 1, name := "Default", isDefault := true }]
  incidents :=
    [{ id := 5
       organizationId := 1
       projectId := 1
       title := "Outage"
       severity := "high"
       reportedBy := 1
       createdAt := 0
       description := ""
       updatedAt := 0 }]

def approvedReview : Postmortem :=
  { id := 10, organizationId := 1, incidentId := 5, status := .approved, updatedAt := 0 }

def secondDraft : Postmortem :=
  { id := 11, organizationId := 1, incidentId := 5, status := .draft, updatedAt := 0 }

def investigated (id organizationId : Uuid) (occurredAt : Instant) : TimelineEntry :=
  { id
    organizationId
    incidentId := 5
    event := .investigation
      { hypotheses := []
        evidence := []
        suggestedOwnerTeam := none
        suggestedNextSteps := [] }
    actor := "agent:investigation"
    occurredAt }

/-- A walk of one step, with all that it collects. -/
theorem getNeighborhood_first {kind : EntityType} {origin : EntityRef}
    {rels : List GraphRelationship}
    (horigin : resolveEntity texts db actor kind entityId = some origin)
    (hdirect : directRelationships texts db actor origin = .ok rels) :
    ∃ neighborhood, getNeighborhood texts db actor kind.value entityId 1 = .ok neighborhood ∧
      neighborhood.relationships = (visit 1 origin rels { visited := [origin] }).relationships ∧
      neighborhood.nodes = (visit 1 origin rels { visited := [origin] }).visited := by
  have hcap : List.range' 1 (depthCap 1) = [1] := rfl
  unfold getNeighborhood
  rw [EntityType.ofValue?_value]
  dsimp only
  rw [horigin]
  dsimp only
  rw [hcap]
  unfold traverse expand
  rw [hdirect]
  by_cases hfull : defaultMaxEdges ≤ (visit 1 origin rels
      { visited := [origin], nextFrontier := [] }).relationships.length
  · simp [bind, Except.bind, hfull, traverse, pure, Except.pure]
  · simp [bind, Except.bind, hfull, traverse, expand, pure, Except.pure]

/-- A walk of one step. -/
theorem getNeighborhood_one {kind : EntityType} {origin : EntityRef}
    {rels : List GraphRelationship} (horigin : resolveEntity texts db actor kind entityId = some origin)
    (hdirect : directRelationships texts db actor origin = .ok rels) :
    (getNeighborhood texts db actor kind.value entityId 1).map GraphNeighborhood.relationships =
      .ok (visit 1 origin rels { visited := [origin] }).relationships := by
  obtain ⟨neighborhood, hwalk, hrelationships, -⟩ := getNeighborhood_first horigin hdirect
  rw [hwalk, ← hrelationships]
  rfl

theorem directRelationships_of_sorted {live : List GraphRelationship}
    (hlive : fkRelationships texts db actor node = .ok live)
    (hstored : db.knowledgeGraphEdges = [])
    (hsorted : live.Pairwise fun a b => SortKey.le (sortKey a) (sortKey b) = true) :
    directRelationships texts db actor node = .ok live := by
  have hnone : derivedRelationships texts db actor node = .ok [] := by
    unfold derivedRelationships Repository.getDirectEdges
    rw [hstored]
    rfl
  unfold directRelationships
  rw [hlive, hnone]
  show Except.ok (Query.orderBy SortKey.le sortKey (live ++ [])) = _
  unfold Query.orderBy
  rw [List.append_nil, List.mergeSort_of_pairwise hsorted]

def outageRef : EntityRef := { entityType := .incident, entityId := 5, label := some "Outage" }

def projectRef : EntityRef := { entityType := .project, entityId := 1, label := some "Default" }

theorem investigationRows_of_sorted {timeline : List TimelineEntry}
    (hof : (timeline.filter fun entry => entry.incidentId = 5) = timeline)
    (hsorted : timeline.Pairwise fun a b => decide (a.occurredAt ≤ b.occurredAt) = true)
    (postmortems : List Postmortem) :
    investigationRows (withRows oneOutage postmortems timeline) 5 =
      timeline.filter fun row => row.event.eventType = "investigation" := by
  unfold investigationRows Incidents.Repository.listTimelineEntries Query.orderBy
  show List.filter _ (List.mergeSort (timeline.filter fun entry => entry.incidentId = 5) _) = _
  rw [hof, List.mergeSort_of_pairwise hsorted]

def ownInvestigation : TimelineEntry := investigated 100 1 1

/-- Ten older investigations that stand under another organization. -/
def crowdedTimeline : List TimelineEntry :=
  ((List.range 10).map fun n => investigated n 2 0) ++ [ownInvestigation]

theorem oneOutage_visible {incidentId : Uuid}
    (h : (resolveIncident oneOutage onCall incidentId).isSome = true) : incidentId = 5 := by
  obtain ⟨ref, href⟩ := Option.isSome_iff_exists.mp h
  obtain ⟨row, hrow, hid, -, -⟩ := lookup_some href
  rw [List.mem_singleton.mp hrow] at hid
  exact hid.symm

theorem crowded_agree : Agree plainTexts onCall (withRows oneOutage [] [ownInvestigation])
    (withRows oneOutage [] crowdedTimeline) := by
  apply agree_of_hidden Table.keyUnique_nil Table.keyUnique_nil
  · exact Table.keyUnique_singleton _
  · exact Table.keyUnique_of_nodup (by decide)
  · rfl
  · rfl
  · intro incidentId hvisible
    rw [oneOutage_visible hvisible]
    unfold visibleInvestigations
    rw [investigationRows_of_sorted rfl (List.pairwise_singleton _ _),
      investigationRows_of_sorted rfl (by decide)]
    rfl

/-- What the walk finds at the outage where its investigations are in order. -/
theorem outage_relationships {timeline : List TimelineEntry} {live : List GraphRelationship}
    (hof : (timeline.filter fun entry => entry.incidentId = 5) = timeline)
    (hsorted : timeline.Pairwise fun a b => decide (a.occurredAt ≤ b.occurredAt) = true)
    (hlive : live = foreignKeyRelationship incidentBelongsToSpec outageRef projectRef ::
      (((timeline.filter fun row => row.event.eventType = "investigation").take
          maxInvestigationFanout).filterMap fun row => resolveInvestigation plainTexts
            (withRows oneOutage [] timeline) onCall row.id).map
          (foreignKeyRelationship investigatedBySpec outageRef))
    (hkeys : live.Pairwise fun a b => SortKey.le (sortKey a) (sortKey b) = true) :
    (getNeighborhood plainTexts (withRows oneOutage [] timeline) onCall "incident" 5 1).map
        GraphNeighborhood.relationships =
      .ok (visit 1 outageRef live { visited := [outageRef] }).relationships := by
  have hfk : fkRelationships plainTexts (withRows oneOutage [] timeline) onCall outageRef =
      .ok live := by
    rw [hlive, ← investigationRows_of_sorted hof hsorted []]
    rfl
  have horigin : resolveEntity plainTexts (withRows oneOutage [] timeline) onCall .incident 5 =
      some outageRef := rfl
  exact getNeighborhood_one horigin (directRelationships_of_sorted hfk rfl hkeys)

def reviewRef : EntityRef := { entityType := .postmortem, entityId := 10 }

theorem reviewedOutage_direct :
    directRelationships plainTexts (withRows oneOutage [approvedReview] []) onCall outageRef =
      .ok [foreignKeyRelationship incidentBelongsToSpec outageRef projectRef,
        foreignKeyRelationship hasPostmortemSpec outageRef reviewRef] := by
  refine directRelationships_of_sorted ?_ rfl (by decide)
  show incidentRelationships _ _ _ _ _ = _
  unfold incidentRelationships
  rw [show outageRef.entityId = 5 from rfl,
    investigationRows_of_sorted rfl List.Pairwise.nil [approvedReview]]
  rfl

/-- A draft beside the approved postmortem of an incident aborts the traversal, and
investigations under another organization crowd the own ones out. -/
theorem hidden_rows_show :
    (Agree plainTexts onCall (withRows oneOutage [approvedReview] [])
        (withRows oneOutage [approvedReview, secondDraft] []) ∧
      getNeighborhood plainTexts (withRows oneOutage [approvedReview] []) onCall "incident" 5 1 ≠
        getNeighborhood plainTexts (withRows oneOutage [approvedReview, secondDraft] []) onCall
          "incident" 5 1) ∧
    Agree plainTexts onCall (withRows oneOutage [] [ownInvestigation])
        (withRows oneOutage [] crowdedTimeline) ∧
      getNeighborhood plainTexts (withRows oneOutage [] [ownInvestigation]) onCall "incident" 5 1 ≠
        getNeighborhood plainTexts (withRows oneOutage [] crowdedTimeline) onCall "incident" 5
          1 := by
  refine ⟨⟨?_, ?_⟩, crowded_agree, ?_⟩
  · apply agree_of_hidden
    · exact Table.keyUnique_singleton _
    · exact Table.keyUnique_of_nodup (by decide)
    · exact Table.keyUnique_nil
    · exact Table.keyUnique_nil
    · rfl
    · rfl
    · intro incidentId _
      rfl
  · intro hsame
    have haborted : getNeighborhood plainTexts (withRows oneOutage [approvedReview, secondDraft] [])
        onCall "incident" 5 1 = .error (.runtimeError
          "Multiple rows were found when one or none was required") := rfl
    have horigin : resolveEntity plainTexts (withRows oneOutage [approvedReview] []) onCall
        .incident 5 = some outageRef := rfl
    have hreturned := getNeighborhood_one horigin reviewedOutage_direct
    rw [show EntityType.incident.value = "incident" from rfl, hsame, haborted] at hreturned
    cases hreturned
  · intro hsame
    have hown := @outage_relationships [ownInvestigation] _ rfl
      (List.pairwise_singleton _ _) rfl (by decide)
    have hcrowded := @outage_relationships crowdedTimeline _ rfl (by decide) rfl
      (by decide)
    rw [hsame, hcrowded] at hown
    have hlength := congrArg List.length (Except.ok.inj hown)
    exact absurd hlength (by decide)

theorem oneOutage_tidy {postmortems : List Postmortem}
    (hone : (postmortems.filter fun row => row.incidentId = 5).length ≤ 1) :
    Tidy onCall (withRows oneOutage postmortems []) where
  timeline := Table.keyUnique_nil
  onePostmortem := by
    intro incidentId hvisible
    rw [oneOutage_visible hvisible]
    exact hone
  ownInvestigations := by
    intro incidentId _ row hrow
    cases hrow

/-- A draft is the one postmortem of the incident, and nothing of it shows. -/
theorem traversal_reveals_visible_draft :
    getNeighborhood plainTexts (withRows oneOutage [] []) onCall "incident" 5 2 =
      getNeighborhood plainTexts (withRows oneOutage [secondDraft] []) onCall "incident" 5 2 := by
  have hagree : Agree plainTexts onCall (withRows oneOutage [] [])
      (withRows oneOutage [secondDraft] []) := by
    apply agree_of_hidden
    · exact Table.keyUnique_nil
    · exact Table.keyUnique_singleton _
    · exact Table.keyUnique_nil
    · exact Table.keyUnique_nil
    · rfl
    · rfl
    · intro incidentId _
      rfl
  exact (traversal_reveals_visible plainTexts onCall "incident" 5 2 _).2 _ hagree
    (oneOutage_tidy (by decide)) (oneOutage_tidy (by decide))

end Ekip.Core.Graph
