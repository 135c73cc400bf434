import Ekip.Lib.Run
import Ekip.Core.Graph.Service
import Ekip.Retrieval.Filtering

/-!
# Discovery rebuilds the graph

The metadata of a document is never taken back, so an edge that is ever written under
`documents` stays one that discovery would write, as long as its ends are there. A pass
says every such edge and buries the others.
-/
namespace Ekip.Core.Graph

open Ekip.Lib Ekip.Database Ekip.Shared Ekip.Core
open Repository (edgeTable withEdges)

variable {ε τ ω : Type} (texts : Texts)

/-! ## What a pass writes -/

/-- The logical edge between a document and an incident. -/
def documentsKey (organizationId documentId incidentId : Uuid) : LogicalIdentity :=
  { organizationId
    sourceEntityType := "document"
    sourceEntityId := documentId
    relationshipType := "documents"
    targetEntityType := "incident"
    targetEntityId := incidentId }

/-- The facts that the metadata rows state. -/
def facts (db : GraphDb ε) (organizationId : Uuid) (rows : List DocumentMetadata) :
    Set LogicalIdentity :=
  {k | ∃ row ∈ rows, ∃ named, namedBy texts db organizationId row = some named ∧
    documentsKey organizationId named.1.id named.2.id = k}

variable {texts} {db db' : GraphDb ε} {pass : Pass} {organizationId : Uuid}
  {row : DocumentMetadata} {rows : List DocumentMetadata}

theorem facts_nil : facts texts db organizationId [] = ∅ := by
  ext k
  constructor
  · intro h
    obtain ⟨row, hrow, -⟩ := h
    cases hrow
  · intro h
    cases h

theorem facts_cons_none (h : namedBy texts db organizationId row = none) :
    facts texts db organizationId (row :: rows) = facts texts db organizationId rows := by
  ext k
  constructor
  · intro hk
    obtain ⟨other, hother, named, hnamed, hkey⟩ := hk
    rcases List.mem_cons.mp hother with rfl | hother
    · rw [h] at hnamed
      cases hnamed
    · exact ⟨other, hother, named, hnamed, hkey⟩
  · intro hk
    obtain ⟨other, hother, hnamed⟩ := hk
    exact ⟨other, List.mem_cons_of_mem _ hother, hnamed⟩

theorem facts_cons_some {named : Document × IncidentRow}
    (h : namedBy texts db organizationId row = some named) :
    facts texts db organizationId (row :: rows) =
      insert (documentsKey organizationId named.1.id named.2.id)
        (facts texts db organizationId rows) := by
  ext k
  constructor
  · intro hk
    obtain ⟨other, hother, found, hfound, hkey⟩ := hk
    rcases List.mem_cons.mp hother with rfl | hother
    · obtain rfl := Option.some.inj (h.symm.trans hfound)
      exact .inl hkey.symm
    · exact .inr ⟨other, hother, found, hfound, hkey⟩
  · intro hk
    rcases hk with rfl | ⟨other, hother, hnamed⟩
    · exact ⟨row, List.mem_cons_self, named, h, rfl⟩
    · exact ⟨other, List.mem_cons_of_mem _ hother, hnamed⟩

theorem facts_withEdges (edges : List KnowledgeGraphEdgeRow) :
    facts texts (withEdges db edges) organizationId rows = facts texts db organizationId rows := rfl

/-- What one half of a pass leaves: other edges, whose ids and keys are still one
row's each. -/
structure Rewritten (db db' : GraphDb ε) : Prop where
  rest : db' = withEdges db db'.knowledgeGraphEdges
  sound : edgeTable.Sound db'.knowledgeGraphEdges

/-- The read half says the facts, and what the graph said before. -/
theorem scan_returns {result out : DiscoveryResult}
    (hsound : edgeTable.Sound db.knowledgeGraphEdges)
    (h : (scan texts pass rows result).Returns db out db') :
    Rewritten db db' ∧
      edgeTable.keys db'.knowledgeGraphEdges =
        edgeTable.keys db.knowledgeGraphEdges ∪ facts texts db pass.organizationId rows ∧
      edgeTable.liveKeys db'.knowledgeGraphEdges =
        edgeTable.liveKeys db.knowledgeGraphEdges ∪ facts texts db pass.organizationId rows := by
  induction rows generalizing db result with
  | nil =>
    obtain ⟨-, rfl⟩ := Service.pure_returns.mp h
    rw [facts_nil, Set.union_empty, Set.union_empty]
    exact ⟨⟨rfl, hsound⟩, rfl, rfl⟩
  | cons row rows ih =>
    simp only [scan, Service.bind_returns, Service.read_returns] at h
    obtain ⟨_, _, ⟨rfl, rfl⟩, h⟩ := h
    cases hnamed : namedBy texts db pass.organizationId row with
    | none =>
      rw [hnamed] at h
      rw [facts_cons_none hnamed]
      exact ih hsound h
    | some named =>
      rw [hnamed] at h
      obtain ⟨upserted, mid, hupsert, hrest⟩ := Service.bind_returns.mp h
      obtain ⟨rfl, hfresh⟩ := Repository.upsertDerivedEdge_returns hupsert
      have hmid := hsound.put hfresh
      obtain ⟨hrewritten, hkeys, hlive⟩ := ih hmid hrest
      have hkey : edgeTable.key (documentsEdge pass row named.1 named.2) =
          documentsKey pass.organizationId named.1.id named.2.id := rfl
      rw [Repository.withEdges_knowledgeGraphEdges, facts_withEdges] at hkeys hlive
      rw [Tombstones.keys_put, hkey] at hkeys
      rw [Tombstones.liveKeys_put hsound (decide_eq_true rfl), hkey] at hlive
      refine ⟨⟨hrewritten.rest, hrewritten.sound⟩, ?_, ?_⟩
      · rw [hkeys, facts_cons_some hnamed, Set.insert_union, Set.union_insert]
      · rw [hlive, facts_cons_some hnamed, Set.insert_union, Set.union_insert]

/-- A scan of facts that the graph says already finds nothing to write. -/
theorem scan_settled (hsound : edgeTable.Sound db.knowledgeGraphEdges)
    (hsaid : facts texts db pass.organizationId rows ⊆ edgeTable.liveKeys db.knowledgeGraphEdges)
    (result : DiscoveryResult) :
    ∃ unchanged, scan texts pass rows result db =
      (.ok { result with edgesUnchanged := unchanged }, db) := by
  induction rows generalizing result with
  | nil => exact ⟨result.edgesUnchanged, rfl⟩
  | cons row rows ih =>
    unfold scan
    rw [Service.bind_read]
    cases hnamed : namedBy texts db pass.organizationId row with
    | none =>
      rw [facts_cons_none hnamed] at hsaid
      exact ih hsaid result
    | some named =>
      rw [facts_cons_some hnamed] at hsaid
      have hlive : (documentsEdge pass row named.1 named.2).logicalIdentity ∈
          edgeTable.liveKeys db.knowledgeGraphEdges := hsaid (Set.mem_insert _ _)
      obtain ⟨existing, hupsert⟩ := Repository.upsertDerivedEdge_of_live hsound hlive
      obtain ⟨unchanged, hrest⟩ := ih (fun k hk => hsaid (Set.mem_insert_of_mem _ hk))
        (result.count .unchanged)
      refine ⟨unchanged, ?_⟩
      show (Repository.upsertDerivedEdge (documentsEdge pass row named.1 named.2) >>= _) db = _
      rw [Service.bind_of_ok hupsert]
      exact hrest

/-- What the repair half takes back. -/
def staleKeys (db : GraphDb ε) (organizationId : Uuid) (edges : List KnowledgeGraphEdgeRow) :
    Set LogicalIdentity :=
  {k | ∃ edge ∈ edges, stale db organizationId edge = true ∧ edge.logicalIdentity = k}

theorem repair_returns {edges : List KnowledgeGraphEdgeRow} {n removed : Nat}
    (hsound : edgeTable.Sound db.knowledgeGraphEdges)
    (hheld : ∀ edge ∈ edges, ∃ held ∈ db.knowledgeGraphEdges, held.id = edge.id ∧
      held.logicalIdentity = edge.logicalIdentity)
    (h : (repair organizationId edges n).Returns db removed db') :
    Rewritten db db' ∧
      edgeTable.keys db'.knowledgeGraphEdges = edgeTable.keys db.knowledgeGraphEdges ∧
      edgeTable.liveKeys db'.knowledgeGraphEdges =
        edgeTable.liveKeys db.knowledgeGraphEdges \ staleKeys db organizationId edges := by
  induction edges generalizing db n with
  | nil =>
    obtain ⟨-, rfl⟩ := Service.pure_returns.mp h
    have hnone : staleKeys db organizationId [] = ∅ := by
      ext k
      simp [staleKeys]
    rw [hnone, Set.sdiff_empty]
    exact ⟨⟨rfl, hsound⟩, rfl, rfl⟩
  | cons edge edges ih =>
    simp only [repair, Service.bind_returns, Service.read_returns] at h
    obtain ⟨_, _, ⟨rfl, rfl⟩, h⟩ := h
    cases hstale : stale db organizationId edge with
    | false =>
      rw [hstale] at h
      have hkeys : staleKeys db organizationId (edge :: edges) =
          staleKeys db organizationId edges := by
        ext k
        simp [staleKeys, hstale]
      rw [hkeys]
      exact ih hsound (fun other hother => hheld other (List.mem_cons_of_mem _ hother)) h
    | true =>
      rw [hstale] at h
      obtain ⟨count, mid, hone, hrest⟩ := Service.bind_returns.mp h
      obtain ⟨-, rfl⟩ : _ ∧ withEdges db (edgeTable.retire (fun row => row.id = edge.id)
          db.knowledgeGraphEdges) = mid := by
        simpa [Service.Returns, Repository.deactivateEdge, Repository.deactivate_eq] using hone
      have hmid : ∀ other ∈ edges,
          ∃ held ∈ edgeTable.retire (fun row => row.id = edge.id) db.knowledgeGraphEdges,
            held.id = other.id ∧ held.logicalIdentity = other.logicalIdentity := by
        intro other hother
        obtain ⟨held, hin, hid, hkey⟩ := hheld other (List.mem_cons_of_mem _ hother)
        refine ⟨_, Tombstones.mem_retire.mpr ⟨held, hin, rfl⟩, ?_, ?_⟩
        · by_cases hp : (decide (held.id = edge.id) && edgeTable.live held) = true
          · rw [if_pos hp]
            exact hid
          · rw [if_neg hp]
            exact hid
        · by_cases hp : (decide (held.id = edge.id) && edgeTable.live held) = true
          · rw [if_pos hp]
            exact hkey
          · rw [if_neg hp]
            exact hkey
      obtain ⟨hrewritten, hkeys, hlive⟩ := ih hsound.retire hmid hrest
      have hfirst := Tombstones.liveKeys_retire_id hsound (hheld edge List.mem_cons_self)
      refine ⟨⟨hrewritten.rest, hrewritten.sound⟩, hkeys.trans Tombstones.keys_retire, ?_⟩
      have hsplit : staleKeys db organizationId (edge :: edges) =
          {edge.logicalIdentity} ∪ staleKeys db organizationId edges := by
        ext k
        constructor
        · intro hk
          obtain ⟨other, hother, hgone, rfl⟩ := hk
          rcases List.mem_cons.mp hother with rfl | hother
          · exact .inl rfl
          · exact .inr ⟨other, hother, hgone, rfl⟩
        · intro hk
          rcases hk with hk | ⟨other, hother, hgone, rfl⟩
          · exact ⟨edge, List.mem_cons_self, hstale, hk.symm⟩
          · exact ⟨other, List.mem_cons_of_mem _ hother, hgone, rfl⟩
      rw [hlive, hsplit, ← Set.sdiff_sdiff]
      exact congrArg (· \ staleKeys db organizationId edges) hfirst

/-- A repair that finds no edge stale changes nothing. -/
theorem repair_settled {edges : List KnowledgeGraphEdgeRow}
    (h : ∀ edge ∈ edges, stale db organizationId edge = false) (n : Nat) :
    repair organizationId edges n db = (.ok n, db) := by
  induction edges with
  | nil => rfl
  | cons edge edges ih =>
    unfold repair
    rw [Service.bind_read, h edge List.mem_cons_self]
    exact ih fun other hother => h other (List.mem_cons_of_mem _ hother)

/-! ## What the graph is grounded in -/

/-- A document of the organization names an incident of it. -/
def DocumentedBy (texts : Texts) (db : GraphDb ε) (organizationId documentId incidentId : Uuid) :
    Prop :=
  (∃ document ∈ db.documents, document.id = documentId ∧
      document.organizationId = organizationId ∧ document.deletedAt = none) ∧
    (∃ row ∈ db.documentMetadata, row.documentId = documentId ∧
      row.key = Knowledge.sourceIncidentMetadataKey ∧ texts.uuid row.value = some incidentId) ∧
    ∃ incident ∈ db.incidents, incident.id = incidentId ∧ incident.organizationId = organizationId

/-- What holds of the key of an edge, active or not. -/
structure Grounded (texts : Texts) (db : GraphDb ε) (k : LogicalIdentity) : Prop where
  documents : k.relationshipType = "documents" →
    k = documentsKey k.organizationId k.sourceEntityId k.targetEntityId ∧
      ∃ row ∈ db.documentMetadata, row.documentId = k.sourceEntityId ∧
        row.key = Knowledge.sourceIncidentMetadataKey ∧
        texts.uuid row.value = some k.targetEntityId
  related : k.relationshipType = "related_to" →
    k.sourceEntityType = "incident" ∧ k.targetEntityType = "incident" ∧
      k.sourceEntityId ≤ k.targetEntityId ∧
      ∃ incident ∈ db.incidents, incident.id = k.sourceEntityId ∧
        incident.organizationId = k.organizationId

/-- The primary keys hold, and every edge is grounded. -/
structure Inv (texts : Texts) (db : GraphDb ε) : Prop where
  documents : Table.KeyUnique Database.Document.id db.documents
  incidents : Table.KeyUnique (fun row : IncidentRow => row.id) db.incidents
  sound : edgeTable.Sound db.knowledgeGraphEdges
  grounded : ∀ k ∈ edgeTable.keys db.knowledgeGraphEdges, Grounded texts db k

theorem documentOf_some {document : Document} {documentId : Uuid}
    (hunique : Table.KeyUnique Database.Document.id db.documents) :
    documentOf db organizationId documentId = some document ↔
      document ∈ db.documents ∧ document.id = documentId ∧
        document.organizationId = organizationId ∧ document.deletedAt = none := by
  unfold documentOf Knowledge.Repository.getDocumentById documentInOrganization
  rw [Option.filter_eq_some_iff, Table.get?_eq_some_iff hunique, decide_eq_true_eq, and_assoc]

theorem incidentOf_some {incident : IncidentRow} {incidentId : Uuid}
    (hunique : Table.KeyUnique (fun row : IncidentRow => row.id) db.incidents) :
    incidentOf db organizationId incidentId = some incident ↔
      incident ∈ db.incidents ∧ incident.id = incidentId ∧
        incident.organizationId = organizationId := by
  unfold incidentOf Incidents.Repository.getIncidentById incidentInOrganization
  rw [Option.filter_eq_some_iff, Table.get?_eq_some_iff hunique, decide_eq_true_eq, and_assoc]

theorem namedBy_some {named : Document × IncidentRow} :
    namedBy texts db organizationId row = some named ↔
      documentOf db organizationId row.documentId = some named.1 ∧
        ∃ incidentId, texts.uuid row.value = some incidentId ∧
          incidentOf db organizationId incidentId = some named.2 := by
  obtain ⟨document, incident⟩ := named
  unfold namedBy
  constructor
  · intro h
    obtain ⟨found, hfound, h⟩ := Option.bind_eq_some_iff.mp h
    obtain ⟨incidentId, huuid, h⟩ := Option.bind_eq_some_iff.mp h
    obtain ⟨there, hthere, h⟩ := Option.bind_eq_some_iff.mp h
    obtain ⟨rfl, rfl⟩ := Prod.mk.inj (Option.some.inj h)
    exact ⟨hfound, incidentId, huuid, hthere⟩
  · intro h
    obtain ⟨hfound, incidentId, huuid, hthere⟩ := h
    exact Option.bind_eq_some_iff.mpr ⟨document, hfound, Option.bind_eq_some_iff.mpr
      ⟨incidentId, huuid, Option.bind_eq_some_iff.mpr ⟨incident, hthere, rfl⟩⟩⟩

/-- The facts that a pass reads are the documents and the incidents that they name. -/
theorem mem_facts (hinv : Inv texts db) {k : LogicalIdentity} :
    k ∈ facts texts db organizationId (sourceRows db) ↔
      ∃ documentId incidentId, DocumentedBy texts db organizationId documentId incidentId ∧
        documentsKey organizationId documentId incidentId = k := by
  constructor
  · intro h
    obtain ⟨row, hrow, named, hnamed, rfl⟩ := h
    obtain ⟨hin, hkey⟩ := List.mem_filter.mp hrow
    obtain ⟨hdocument, incidentId, huuid, hincident⟩ := namedBy_some.mp hnamed
    obtain ⟨hmem, hid, horg, hlive⟩ := (documentOf_some hinv.documents).mp hdocument
    obtain ⟨hthere, hincidentId, hincidentOrg⟩ := (incidentOf_some hinv.incidents).mp hincident
    refine ⟨_, _, ⟨⟨named.1, hmem, rfl, horg, hlive⟩, ⟨row, hin, hid.symm, of_decide_eq_true hkey, ?_⟩,
      named.2, hthere, rfl, hincidentOrg⟩, rfl⟩
    rw [huuid, hincidentId]
  · intro h
    obtain ⟨_, _, ⟨⟨document, hmem, rfl, horg, hlive⟩, ⟨row, hin, hdocument, hkey, huuid⟩, incident,
      hthere, rfl, hincidentOrg⟩, rfl⟩ := h
    refine ⟨row, List.mem_filter.mpr ⟨hin, decide_eq_true hkey⟩, (document, incident), ?_, rfl⟩
    exact namedBy_some.mpr
      ⟨(documentOf_some hinv.documents).mpr ⟨hmem, hdocument.symm, horg, hlive⟩, incident.id, huuid,
        (incidentOf_some hinv.incidents).mpr ⟨hthere, rfl, hincidentOrg⟩⟩

/-- An edge is stale where an end of it is gone. -/
theorem stale_eq_false (hinv : Inv texts db) {edge : KnowledgeGraphEdgeRow} :
    stale db organizationId edge = false ↔
      (∃ document ∈ db.documents, document.id = edge.sourceEntityId ∧
        document.organizationId = organizationId ∧ document.deletedAt = none) ∧
      ∃ incident ∈ db.incidents, incident.id = edge.targetEntityId ∧
        incident.organizationId = organizationId := by
  unfold stale
  rw [Bool.or_eq_false_iff, Option.isNone_eq_false_iff, Option.isNone_eq_false_iff,
    Option.isSome_iff_exists, Option.isSome_iff_exists]
  refine and_congr ?_ ?_
  · refine exists_congr fun document => ?_
    rw [documentOf_some hinv.documents]
  · refine exists_congr fun incident => ?_
    rw [incidentOf_some hinv.incidents]

/-! ## One pass -/

/-- The documents and incidents that the active edges of the organization pair. -/
def activePairs (db : GraphDb ε) (organizationId : Uuid) : Set (Uuid × Uuid) :=
  {pair | ∃ edge ∈ Repository.listActiveEdgesByRelationshipType db organizationId "documents",
    (edge.sourceEntityId, edge.targetEntityId) = pair}

def documentedPairs (texts : Texts) (db : GraphDb ε) (organizationId : Uuid) :
    Set (Uuid × Uuid) :=
  {pair | DocumentedBy texts db organizationId pair.1 pair.2}

/-- Other edges that are grounded too. -/
theorem Inv.rewritten (hinv : Inv texts db) (h : Rewritten db db')
    (hkeys : ∀ k ∈ edgeTable.keys db'.knowledgeGraphEdges, Grounded texts db k) :
    Inv texts db' := by
  obtain ⟨hrest, hsound⟩ := h
  rw [hrest]
  exact ⟨hinv.documents, hinv.incidents, hsound,
    fun k hk => ⟨(hkeys k hk).documents, (hkeys k hk).related⟩⟩

theorem grounded_of_fact (hinv : Inv texts db) {k : LogicalIdentity}
    (h : k ∈ facts texts db organizationId (sourceRows db)) : Grounded texts db k := by
  obtain ⟨documentId, incidentId, hdocumented, rfl⟩ := (mem_facts hinv).mp h
  constructor
  · intro _
    exact ⟨rfl, hdocumented.2.1⟩
  · intro hrelated
    have hdocuments : "documents" = "related_to" := hrelated
    exact absurd hdocuments (by decide)

theorem derivedSpec_documents :
    Contract.getDerivedSpec "document" "documents" "incident" = .ok documentsSpec := rfl

/-- The state between the two halves, and what each half did. -/
theorem discover_returns {out : DiscoveryResult} (hinv : Inv texts db)
    (h : (discoverDocumentIncidentEdges texts pass).Returns db out db') :
    ∃ mid : GraphDb ε, Inv texts mid ∧ mid.toTimelineDb = db.toTimelineDb ∧
      edgeTable.liveKeys mid.knowledgeGraphEdges = edgeTable.liveKeys db.knowledgeGraphEdges ∪
        facts texts db pass.organizationId (sourceRows db) ∧
      Rewritten mid db' ∧
      edgeTable.keys db'.knowledgeGraphEdges = edgeTable.keys mid.knowledgeGraphEdges ∧
      edgeTable.liveKeys db'.knowledgeGraphEdges = edgeTable.liveKeys mid.knowledgeGraphEdges \
        staleKeys mid pass.organizationId (Repository.listActiveEdgesByRelationshipType mid
          pass.organizationId "documents") := by
  simp only [discoverDocumentIncidentEdges, derivedSpec_documents, Except.mapError,
    Service.bind_returns, Service.ofExcept_returns, Service.read_returns,
    Service.pure_returns] at h
  obtain ⟨_, _, ⟨hspec, rfl⟩, _, _, ⟨rfl, rfl⟩, result, mid, hscan, _, _, ⟨rfl, rfl⟩, removed, _,
    hrepair, rfl, rfl⟩ := h
  obtain rfl := Except.ok.inj hspec
  obtain ⟨hrewritten, hkeys, hlive⟩ := scan_returns hinv.sound hscan
  have hmid : Inv texts mid := by
    refine hinv.rewritten hrewritten ?_
    intro k hk
    rw [hkeys] at hk
    rcases hk with hold | hnew
    · exact hinv.grounded k hold
    · exact grounded_of_fact hinv hnew
  have hheld : ∀ edge ∈ Repository.listActiveEdgesByRelationshipType mid pass.organizationId
      "documents", ∃ held ∈ mid.knowledgeGraphEdges, held.id = edge.id ∧
        held.logicalIdentity = edge.logicalIdentity := by
    intro edge hedge
    exact ⟨edge, List.mem_of_mem_filter hedge, rfl, rfl⟩
  obtain ⟨hfinal, hkeys', hlive'⟩ := repair_returns hmid.sound hheld hrepair
  exact ⟨mid, hmid, by rw [hrewritten.rest]; rfl, hlive, hfinal, hkeys', hlive'⟩

theorem discover_inv {out : DiscoveryResult} (hinv : Inv texts db)
    (h : (discoverDocumentIncidentEdges texts pass).Returns db out db') : Inv texts db' := by
  obtain ⟨mid, hmid, -, -, hfinal, hkeys, -⟩ := discover_returns hinv h
  refine hmid.rewritten hfinal ?_
  rw [hkeys]
  exact hmid.grounded

/-- The keys of the edges that a pass looks at. -/
theorem mem_listActive {edge : KnowledgeGraphEdgeRow} :
    edge ∈ Repository.listActiveEdgesByRelationshipType db organizationId "documents" ↔
      edge ∈ db.knowledgeGraphEdges ∧ edge.organizationId = organizationId ∧
        edge.status = .active ∧ edge.relationshipType = "documents" := by
  unfold Repository.listActiveEdgesByRelationshipType
  rw [List.mem_filter, decide_eq_true_eq]

/-- After a pass an edge under `documents` is active exactly where a document names
the incident. -/
theorem live_discovered {out : DiscoveryResult} (hinv : Inv texts db)
    (h : (discoverDocumentIncidentEdges texts pass).Returns db out db') {k : LogicalIdentity}
    (horg : k.organizationId = pass.organizationId) (hdocuments : k.relationshipType = "documents") :
    k ∈ edgeTable.liveKeys db'.knowledgeGraphEdges ↔
      k ∈ facts texts db pass.organizationId (sourceRows db) := by
  obtain ⟨mid, hmid, hsame, hlive, -, -, hlive'⟩ := discover_returns hinv h
  rw [hlive', mem_facts hinv]
  have hstale : ∀ edge, stale mid pass.organizationId edge = stale db pass.organizationId edge := by
    intro edge
    unfold stale documentOf incidentOf
    rw [hsame]
  constructor
  · intro hk
    obtain ⟨⟨edge, hedge, hactive, rfl⟩, hkept⟩ := hk
    have hlisted : edge ∈ Repository.listActiveEdgesByRelationshipType mid pass.organizationId
        "documents" := mem_listActive.mpr ⟨hedge, horg, of_decide_eq_true hactive, hdocuments⟩
    have hfresh : stale mid pass.organizationId edge = false := by
      cases hgone : stale mid pass.organizationId edge with
      | false => rfl
      | true => exact absurd ⟨edge, hlisted, hgone, rfl⟩ hkept
    rw [hstale, stale_eq_false hinv] at hfresh
    obtain ⟨hkey, hnoted⟩ := (hmid.grounded _ ⟨edge, hedge, rfl⟩).documents hdocuments
    rw [hsame] at hnoted
    refine ⟨edge.sourceEntityId, edge.targetEntityId, ⟨hfresh.1, hnoted, hfresh.2⟩, ?_⟩
    rw [← horg]
    exact hkey.symm
  · intro hk
    obtain ⟨documentId, incidentId, hdocumented, rfl⟩ := hk
    have hfact := (mem_facts hinv).mpr ⟨documentId, incidentId, hdocumented, rfl⟩
    refine ⟨hlive ▸ Set.mem_union_right _ hfact, ?_⟩
    intro hgone
    obtain ⟨edge, -, hstaleEdge, hkey⟩ := hgone
    have hsource : edge.sourceEntityId = documentId :=
      congrArg LogicalIdentity.sourceEntityId hkey
    have htarget : edge.targetEntityId = incidentId :=
      congrArg LogicalIdentity.targetEntityId hkey
    have hfresh : stale db pass.organizationId edge = false := by
      rw [stale_eq_false hinv, hsource, htarget]
      exact ⟨hdocumented.1, hdocumented.2.2⟩
    rw [hstale, hfresh] at hstaleEdge
    cases hstaleEdge

theorem discover_rest {out : DiscoveryResult} (hinv : Inv texts db)
    (h : (discoverDocumentIncidentEdges texts pass).Returns db out db') :
    db'.toTimelineDb = db.toTimelineDb := by
  obtain ⟨mid, -, hsame, -, hfinal, -, -⟩ := discover_returns hinv h
  rw [hfinal.rest]
  exact hsame

/-- A pass leaves exactly the documented pairs. -/
theorem activePairs_discovered {out : DiscoveryResult} (hinv : Inv texts db)
    (h : (discoverDocumentIncidentEdges texts pass).Returns db out db') :
    activePairs db' pass.organizationId = documentedPairs texts db' pass.organizationId := by
  have hsame := discover_rest hinv h
  have hinv' := discover_inv hinv h
  ext pair
  have hdocumented : pair ∈ documentedPairs texts db' pass.organizationId ↔
      DocumentedBy texts db pass.organizationId pair.1 pair.2 := by
    show DocumentedBy texts db' pass.organizationId pair.1 pair.2 ↔ _
    unfold DocumentedBy
    rw [hsame]
  rw [hdocumented]
  constructor
  · intro hpair
    obtain ⟨edge, hedge, rfl⟩ := hpair
    obtain ⟨hin, horg, hactive, hdocuments⟩ := mem_listActive.mp hedge
    have hlive : edge.logicalIdentity ∈ edgeTable.liveKeys db'.knowledgeGraphEdges :=
      ⟨edge, hin, decide_eq_true hactive, rfl⟩
    obtain ⟨documentId, incidentId, hpair, hkey⟩ :=
      (mem_facts hinv).mp ((live_discovered hinv h horg hdocuments).mp hlive)
    have hsource : documentId = edge.sourceEntityId :=
      congrArg LogicalIdentity.sourceEntityId hkey
    have htarget : incidentId = edge.targetEntityId :=
      congrArg LogicalIdentity.targetEntityId hkey
    rw [← hsource, ← htarget]
    exact hpair
  · intro hpair
    have hfact := (mem_facts hinv).mpr ⟨pair.1, pair.2, hpair, rfl⟩
    obtain ⟨edge, hin, hactive, hkey⟩ := (live_discovered hinv h rfl rfl).mpr hfact
    have horg : edge.organizationId = pass.organizationId :=
      congrArg LogicalIdentity.organizationId hkey
    have hdocuments : edge.relationshipType = "documents" :=
      congrArg LogicalIdentity.relationshipType hkey
    have hsource : edge.sourceEntityId = pair.1 := congrArg LogicalIdentity.sourceEntityId hkey
    have htarget : edge.targetEntityId = pair.2 := congrArg LogicalIdentity.targetEntityId hkey
    exact ⟨edge, mem_listActive.mpr ⟨hin, horg, of_decide_eq_true hactive, hdocuments⟩,
      Prod.ext hsource htarget⟩

/-- A pass right after a pass finds nothing to do. -/
theorem discover_settled {out : DiscoveryResult} (hinv : Inv texts db)
    (h : (discoverDocumentIncidentEdges texts pass).Returns db out db') (again : Pass)
    (horg : again.organizationId = pass.organizationId) :
    ∃ unchanged, discoverDocumentIncidentEdges texts again db' =
      (.ok { edgesUnchanged := unchanged, scannedAt := again.now }, db') := by
  have hinv' := discover_inv hinv h
  have hsame := discover_rest hinv h
  have hsaid : facts texts db' again.organizationId (sourceRows db') ⊆
      edgeTable.liveKeys db'.knowledgeGraphEdges := by
    intro k hk
    obtain ⟨documentId, incidentId, hdocumented, hkey⟩ := (mem_facts hinv').mp hk
    rw [horg] at hkey hdocumented
    unfold DocumentedBy at hdocumented
    rw [hsame] at hdocumented
    rw [← hkey]
    exact (live_discovered hinv h rfl rfl).mpr
      ((mem_facts hinv).mpr ⟨documentId, incidentId, hdocumented, rfl⟩)
  obtain ⟨unchanged, hscan⟩ := scan_settled hinv'.sound hsaid { scannedAt := again.now }
  have hfresh : ∀ edge ∈ Repository.listActiveEdgesByRelationshipType db' again.organizationId
      "documents", stale db' again.organizationId edge = false := by
    intro edge hedge
    have hpair : (edge.sourceEntityId, edge.targetEntityId) ∈
        activePairs db' pass.organizationId := by
      rw [← horg]
      exact ⟨edge, hedge, rfl⟩
    rw [activePairs_discovered hinv h, ← horg] at hpair
    exact (stale_eq_false hinv').mpr ⟨hpair.1, hpair.2.2⟩
  refine ⟨unchanged, ?_⟩
  have hspec : Service.ofExcept ((Contract.getDerivedSpec "document" "documents"
      "incident").mapError Exn.valueError) db' = (.ok documentsSpec, db') := rfl
  have hrepair : repair again.organizationId (Repository.listActiveEdgesByRelationshipType db'
      again.organizationId documentsSpec.relationshipType.value) 0 db' = (.ok 0, db') :=
    repair_settled hfresh 0
  unfold discoverDocumentIncidentEdges
  rw [Service.bind_of_ok hspec, Service.bind_read, Service.bind_of_ok hscan, Service.bind_read,
    Service.bind_of_ok hrepair]
  rfl

/-! ## The other operations -/

/-- What a content operation leaves of the primary key and of the metadata. -/
structure Extends (content content' : ContentDb ε) : Prop where
  documents : Table.KeyUnique Database.Document.id content.documents →
    Table.KeyUnique Database.Document.id content'.documents
  metadata : ∀ row ∈ content.documentMetadata, row ∈ content'.documentMetadata

theorem extends_withDocument {content : ContentDb ε} {documentId : Uuid}
    {f : Document → Document} (hf : ∀ row, (f row).id = row.id) :
    Extends content (Knowledge.withDocument documentId f content) where
  documents hunique := Table.keyUnique_updateWhere hunique fun row _ => hf row
  metadata _ hrow := hrow

/-- Documents and chunks may change; what they extend keeps the graph grounded. -/
theorem Inv.onContent {α : Type} {x : Knowledge.ContentM ε α} {a : α} (hinv : Inv texts db)
    (hx : ∀ content', x.Returns db.toContentDb a content' → Extends db.toContentDb content')
    (h : (onContent x).Returns db a db') : Inv texts db' := by
  unfold Graph.onContent onTimeline Incidents.onIncidents Incidents.onContent at h
  obtain ⟨timeline, htimeline, rfl⟩ := Service.zoom_returns.mp h
  obtain ⟨incidents, hincidents, rfl⟩ := Service.zoom_returns.mp htimeline
  obtain ⟨content, hcontent, rfl⟩ := Service.zoom_returns.mp hincidents
  have hextends := hx content hcontent
  refine ⟨hextends.documents hinv.documents, hinv.incidents, hinv.sound, ?_⟩
  intro k hk
  obtain ⟨hdocuments, hrelated⟩ := hinv.grounded k hk
  refine ⟨?_, hrelated⟩
  intro hkind
  obtain ⟨hkey, row, hrow, hnoted⟩ := hdocuments hkind
  exact ⟨hkey, row, hextends.metadata row hrow, hnoted⟩

theorem propose_extends {env : Knowledge.Env ε τ ω} {draw : Knowledge.Draw} {actor : Identity}
    {data : Knowledge.DocumentProposalCreate} {content content' : ContentDb ε}
    {out : Knowledge.Document}
    (h : (Knowledge.proposeDocument env draw actor organizationId data).Returns content out
      content') : Extends content content' := by
  obtain ⟨projectId, -, -, hfresh, hdb⟩ := Knowledge.proposeDocument_returns h
  constructor
  · intro hunique
    rw [hdb]
    exact Table.keyUnique_append hunique hfresh
  · exact Knowledge.proposeDocument_keeps h

theorem publish_extends {env : Knowledge.Env ε τ ω} {draw : Knowledge.Draw} {actor : Identity}
    {documentId : Uuid} {content content' : ContentDb ε} {out : Knowledge.Document}
    (h : (Knowledge.publishDocument env draw actor organizationId documentId).Returns content out
      content') : Extends content content' := by
  obtain ⟨row, -, -, hindexed⟩ := Knowledge.publishDocument_returns h
  have hextends : Extends content (Knowledge.withDocument documentId
      (fun row => { row with status := .published }) content) :=
    extends_withDocument fun _ => rfl
  rcases hindexed with ⟨-, rfl⟩ | ⟨text, id, embedding, -, rfl⟩
  · exact hextends
  · exact ⟨hextends.documents, hextends.metadata⟩

theorem reject_extends {now : Instant} {cleanup : Except Exn Unit} {actor : Identity}
    {documentId : Uuid} {content content' : ContentDb ε} {out : Knowledge.Document}
    (h : (Knowledge.rejectDocument now cleanup actor organizationId documentId).Returns content out
      content') : Extends content content' := by
  obtain ⟨row, -, chunks, rfl, -⟩ := Knowledge.rejectDocument_returns h
  have hextends : Extends content (Knowledge.withDocument documentId
      (fun row => { row with deletedAt := some now }) content) :=
    extends_withDocument fun _ => rfl
  exact ⟨hextends.documents, hextends.metadata⟩

theorem deactivate_inv {matching : KnowledgeGraphEdgeRow → Bool} {n : Nat} (hinv : Inv texts db)
    (h : (Repository.deactivate matching).Returns db n db') : Inv texts db' := by
  obtain ⟨-, rfl⟩ : _ ∧ withEdges db (edgeTable.retire matching db.knowledgeGraphEdges) = db' := by
    simpa [Service.Returns, Repository.deactivate_eq] using h
  refine hinv.rewritten ⟨rfl, hinv.sound.retire⟩ ?_
  rw [Repository.withEdges_knowledgeGraphEdges, Tombstones.keys_retire]
  exact hinv.grounded

theorem resolveIncident_some {actor : Identity} {entityId : Uuid} {ref : EntityRef}
    (h : resolveIncident db actor entityId = some ref) :
    ∃ incident ∈ db.incidents, incident.id = entityId ∧
      incident.organizationId = actor.organizationId := by
  obtain ⟨incident, hfound, -⟩ := Option.bind_eq_some_iff.mp h
  obtain ⟨hget, hreadable⟩ := Option.filter_eq_some_iff.mp hfound
  obtain ⟨hmem, hid⟩ := Incidents.Repository.getIncidentById_some hget
  exact ⟨incident, hmem, hid, (of_decide_eq_true hreadable).1⟩

theorem manualSpec_ok {data : RelationshipCreate} {spec : RelationshipSpec}
    (h : manualSpec data = .ok spec) :
    spec = relatedToSpec ∧ data.sourceEntityType = .incident ∧ data.targetEntityType = .incident := by
  unfold manualSpec at h
  split at h
  · cases h
  · rename_i found hfound
    split at h
    · cases h
    · rename_i hmanual
      obtain rfl := Except.ok.inj h
      obtain ⟨hmem, hsource, -, htarget⟩ := Contract.getDerivedSpec_ok hfound
      obtain rfl := Contract.manual_spec hmem (not_not.mp hmanual)
      exact ⟨rfl, (EntityType.value_inj hsource).symm, (EntityType.value_inj htarget).symm⟩

theorem resolveOrRaise_returns {actor : Identity} {message : String} {entityType : EntityType}
    {entityId : Uuid} {ref : EntityRef} :
    (resolveOrRaise texts actor message entityType entityId).Returns db ref db' ↔
      resolveEntity texts db actor entityType entityId = some ref ∧ db = db' := by
  simp only [resolveOrRaise, Service.bind_returns, Service.read_returns, Service.orRaise_returns]
  constructor
  · intro h
    obtain ⟨_, _, ⟨rfl, rfl⟩, hsome, rfl⟩ := h
    exact ⟨hsome, rfl⟩
  · intro h
    obtain ⟨hsome, rfl⟩ := h
    exact ⟨_, _, ⟨rfl, rfl⟩, hsome, rfl⟩

theorem requireWritable_returns {actor : Identity} {sourceId targetId : Uuid} {u : Unit}
    (h : (requireWritable actor sourceId targetId).Returns db u db') : db = db' := by
  simp only [requireWritable, requireProjectPermission, Service.bind_returns,
    Service.read_returns, Service.orRaise_returns, Service.raiseIf_returns] at h
  obtain ⟨_, _, ⟨-, rfl⟩, _, _, ⟨-, rfl⟩, _, _, ⟨-, rfl⟩, _, _, ⟨-, rfl⟩, _, _, ⟨-, rfl⟩, -, rfl⟩ := h
  rfl

/-- An edge that is asserted by hand relates two incidents of the organization, the
lower one first. -/
theorem createManual_inv {id : Uuid} {actor : Identity} {data : RelationshipCreate}
    {out : GraphRelationship} (hinv : Inv texts db)
    (h : (createManualRelationship texts id actor data).Returns db out db') : Inv texts db' := by
  simp only [createManualRelationship, Service.bind_returns, Service.ofExcept_returns,
    resolveOrRaise_returns, Service.raiseIf_returns, Service.pure_returns] at h
  obtain ⟨spec, _, ⟨hspec, rfl⟩, sourceRef, _, ⟨hsource, rfl⟩, targetRef, _, ⟨htarget, rfl⟩, _, _,
    ⟨-, rfl⟩, _, mid, hwritable, upserted, _, hupsert, -, rfl⟩ := h
  obtain rfl := requireWritable_returns hwritable
  obtain ⟨rfl, hsourceType, htargetType⟩ := manualSpec_ok hspec
  rw [hsourceType] at hsource
  rw [htargetType] at htarget
  obtain ⟨rfl, hfresh⟩ := Repository.upsertDerivedEdge_returns hupsert
  refine hinv.rewritten ⟨rfl, hinv.sound.put hfresh⟩ ?_
  intro k hk
  rw [Repository.withEdges_knowledgeGraphEdges, Tombstones.keys_put] at hk
  rcases hk with rfl | hold
  · constructor
    · intro hdocuments
      have hkind : "related_to" = "documents" := hdocuments
      exact absurd hkind (by decide)
    · intro _
      refine ⟨rfl, rfl, Contract.canonicalDirection_le rfl _ _, ?_⟩
      show ∃ incident ∈ db.incidents, incident.id = (Contract.canonicalDirection relatedToSpec
        data.sourceEntityId data.targetEntityId).1 ∧ _
      rcases Contract.canonicalDirection_cases relatedToSpec data.sourceEntityId
          data.targetEntityId with hends | hends
      · rw [hends]
        exact resolveIncident_some hsource
      · rw [hends]
        exact resolveIncident_some htarget
  · exact hinv.grounded k hold

/-! ## A pass comes to its end -/

/-- The ids that the database draws for a pass are new, and none is drawn twice. -/
structure FreshDraw (pass : Pass) (db : GraphDb ε) : Prop where
  free : ∀ row ∈ sourceRows db, ∀ edge ∈ db.knowledgeGraphEdges, edge.id ≠ pass.draw row
  once : ∀ row ∈ sourceRows db, ∀ row' ∈ sourceRows db, pass.draw row = pass.draw row' → row = row'

/-- An id of a row that is still to come is in use only by the fact of that row. -/
def Unspent (texts : Texts) (pass : Pass) (db : GraphDb ε) (rows : List DocumentMetadata) : Prop :=
  ∀ row ∈ rows, ∀ edge ∈ db.knowledgeGraphEdges, edge.id = pass.draw row →
    ∀ named, namedBy texts db pass.organizationId row = some named →
      documentsKey pass.organizationId named.1.id named.2.id ∈
        edgeTable.keys db.knowledgeGraphEdges

theorem scan_ok (result : DiscoveryResult)
    (honce : ∀ row ∈ rows, ∀ row' ∈ rows, pass.draw row = pass.draw row' → row = row')
    (hunspent : Unspent texts pass db rows) :
    ∃ out db', (scan texts pass rows result).Returns db out db' := by
  induction rows generalizing db result with
  | nil => exact ⟨result, db, rfl⟩
  | cons row rows ih =>
    have hrest : ∀ row ∈ rows, ∀ row' ∈ rows, pass.draw row = pass.draw row' → row = row' :=
      fun a ha b hb => honce a (List.mem_cons_of_mem _ ha) b (List.mem_cons_of_mem _ hb)
    cases hnamed : namedBy texts db pass.organizationId row with
    | none =>
      obtain ⟨out, db', hscan⟩ := ih result hrest
        (fun other hother => hunspent other (List.mem_cons_of_mem _ hother))
      refine ⟨out, db', ?_⟩
      unfold scan Service.Returns
      rw [Service.bind_read, hnamed]
      exact hscan
    | some named =>
      have hfresh : (documentsEdge pass row named.1 named.2).logicalIdentity ∉
          edgeTable.keys db.knowledgeGraphEdges → ∀ edge ∈ db.knowledgeGraphEdges,
            edge.id ≠ (documentsEdge pass row named.1 named.2).id := by
        intro hnew edge hedge hid
        exact hnew (hunspent row List.mem_cons_self edge hedge hid named hnamed)
      obtain ⟨upserted, hupsert⟩ := Repository.upsertDerivedEdge_ok hfresh
      have hlater : Unspent texts pass (withEdges db (edgeTable.put db.knowledgeGraphEdges
          (documentsEdge pass row named.1 named.2))) rows := by
        intro other hother edge hedge hid found hfound
        rw [Repository.withEdges_knowledgeGraphEdges, Tombstones.keys_put]
        rcases Tombstones.mem_put hedge with rfl | hold | ⟨old, hold, rfl⟩
        · have hsame := honce row List.mem_cons_self other (List.mem_cons_of_mem _ hother) hid
          rw [← hsame] at hfound
          obtain rfl := Option.some.inj (hnamed.symm.trans hfound)
          exact Set.mem_insert _ _
        · exact Set.mem_insert_of_mem _
            (hunspent other (List.mem_cons_of_mem _ hother) edge hold hid found hfound)
        · exact Set.mem_insert_of_mem _
            (hunspent other (List.mem_cons_of_mem _ hother) old hold hid found hfound)
      obtain ⟨out, db', hscan⟩ := ih (result.count upserted.2) hrest hlater
      refine ⟨out, db', ?_⟩
      unfold scan
      refine Service.bind_returns.mpr ⟨some named, db, ?_, ?_⟩
      · exact Service.read_returns.mpr ⟨hnamed, rfl⟩
      · exact Service.bind_returns.mpr ⟨upserted, _, hupsert, hscan⟩

theorem repair_ok (edges : List KnowledgeGraphEdgeRow) (n : Nat) (db : GraphDb ε) :
    ∃ removed db', (repair organizationId edges n).Returns db removed db' := by
  induction edges generalizing n db with
  | nil => exact ⟨n, db, rfl⟩
  | cons edge edges ih =>
    cases hstale : stale db organizationId edge with
    | false =>
      obtain ⟨removed, db', hrest⟩ := ih n db
      refine ⟨removed, db', ?_⟩
      unfold repair
      exact Service.bind_returns.mpr ⟨false, db, Service.read_returns.mpr ⟨hstale, rfl⟩, hrest⟩
    | true =>
      have hone := Repository.deactivate_eq (fun row => decide (row.id = edge.id)) db
      obtain ⟨removed, db', hrest⟩ := ih _ _
      refine ⟨removed, db', ?_⟩
      unfold repair
      refine Service.bind_returns.mpr ⟨true, db, Service.read_returns.mpr ⟨hstale, rfl⟩, ?_⟩
      exact Service.bind_returns.mpr ⟨_, _, hone, hrest⟩

/-- Nothing but a collision of ids makes a pass raise. -/
theorem discover_ok (hfresh : FreshDraw pass db) :
    ∃ out db', (discoverDocumentIncidentEdges texts pass).Returns db out db' := by
  have hunspent : Unspent texts pass db (sourceRows db) :=
    fun row hrow edge hedge hid _ _ => absurd hid (hfresh.free row hrow edge hedge)
  obtain ⟨result, mid, hscan⟩ := scan_ok { scannedAt := pass.now } hfresh.once hunspent
  obtain ⟨removed, db', hrepair⟩ : ∃ removed db', (repair pass.organizationId
      (Repository.listActiveEdgesByRelationshipType mid pass.organizationId
        documentsSpec.relationshipType.value) 0).Returns mid removed db' := repair_ok _ 0 mid
  refine ⟨{ result with edgesRemovedStale := removed }, db', ?_⟩
  unfold discoverDocumentIncidentEdges
  rw [derivedSpec_documents]
  exact Service.bind_returns.mpr ⟨documentsSpec, db, rfl, Service.bind_returns.mpr
    ⟨sourceRows db, db, rfl, Service.bind_returns.mpr ⟨result, mid, hscan, Service.bind_returns.mpr
      ⟨_, mid, rfl, Service.bind_returns.mpr ⟨removed, db', hrepair, rfl⟩⟩⟩⟩⟩

/-! ## Runs -/

inductive Call
  | propose (draw : Knowledge.Draw) (actor : Identity) (organizationId : Uuid)
      (data : Knowledge.DocumentProposalCreate)
  | publish (draw : Knowledge.Draw) (actor : Identity) (organizationId documentId : Uuid)
  | reject (now : Instant) (cleanup : Except Exn Unit) (actor : Identity)
      (organizationId documentId : Uuid)
  | discover (pass : Pass)
  | createManual (id : Uuid) (actor : Identity) (data : RelationshipCreate)
  | removeEdges (organizationId : Uuid) (entityType : String) (entityId : Uuid)

section Runs

variable (env : Knowledge.Env ε τ ω) (texts)

/-- What a call does; what it answers is left out. -/
def perform : Call → GraphM ε Unit
  | .propose draw actor organizationId data => do
    let _ ← onContent (Knowledge.proposeDocument env draw actor organizationId data)
  | .publish draw actor organizationId documentId => do
    let _ ← onContent (Knowledge.publishDocument env draw actor organizationId documentId)
  | .reject now cleanup actor organizationId documentId => do
    let _ ← rejectDocument now cleanup actor organizationId documentId
  | .discover pass => do
    let _ ← discoverDocumentIncidentEdges texts pass
  | .createManual id actor data => do
    let _ ← createManualRelationship texts id actor data
  | .removeEdges organizationId entityType entityId => do
    let _ ← removeEdgesForEntity organizationId entityType entityId

/-- One request: it commits, or is rolled back when it raises. -/
def step (db : GraphDb ε) (call : Call) : Option (GraphDb ε) :=
  some (Service.transaction (perform texts env call) db).2

end Runs

/-- The primary keys hold, and no edge is stored. -/
structure Start (db : GraphDb ε) : Prop where
  documents : Table.KeyUnique Database.Document.id db.documents
  incidents : Table.KeyUnique (fun row : IncidentRow => row.id) db.incidents
  edges : db.knowledgeGraphEdges = []

variable {env : Knowledge.Env ε τ ω} {start : GraphDb ε}

theorem Start.inv (h : Start start) : Inv texts start where
  documents := h.documents
  incidents := h.incidents
  sound := by
    rw [h.edges]
    exact Tombstones.sound_nil edgeTable
  grounded := by
    intro k hk
    obtain ⟨row, hrow, -⟩ := hk
    rw [h.edges] at hrow
    cases hrow

/-- Every call that commits keeps the edges grounded. -/
theorem perform_inv {call : Call} {u : Unit} (hinv : Inv texts db)
    (h : (perform texts env call).Returns db u db') : Inv texts db' := by
  cases call with
  | propose draw actor organizationId data =>
    obtain ⟨out, _, hcall, -, rfl⟩ := Service.bind_returns.mp h
    exact hinv.onContent (fun _ hx => propose_extends hx) hcall
  | publish draw actor organizationId documentId =>
    obtain ⟨out, _, hcall, -, rfl⟩ := Service.bind_returns.mp h
    exact hinv.onContent (fun _ hx => publish_extends hx) hcall
  | reject now cleanup actor organizationId documentId =>
    obtain ⟨out, _, hcall, -, rfl⟩ := Service.bind_returns.mp h
    simp only [rejectDocument, Service.bind_returns, Service.pure_returns] at hcall
    obtain ⟨document, mid, hreject, _, _, hremove, -, rfl⟩ := hcall
    exact deactivate_inv (hinv.onContent (fun _ hx => reject_extends hx) hreject) hremove
  | discover pass =>
    obtain ⟨out, _, hcall, -, rfl⟩ := Service.bind_returns.mp h
    exact discover_inv hinv hcall
  | createManual id actor data =>
    obtain ⟨out, _, hcall, -, rfl⟩ := Service.bind_returns.mp h
    exact createManual_inv hinv hcall
  | removeEdges organizationId entityType entityId =>
    obtain ⟨out, _, hcall, -, rfl⟩ := Service.bind_returns.mp h
    exact deactivate_inv hinv hcall

theorem step_inv {call : Call} (hinv : Inv texts db) (h : step texts env db call = some db') :
    Inv texts db' := by
  obtain rfl := Option.some.inj h
  rcases Service.transaction_cases (perform texts env call) db with
    ⟨u, db', hreturns, heq⟩ | ⟨e, -, heq⟩
  · rw [heq]
    exact perform_inv hinv hreturns
  · rw [heq]
    exact hinv

theorem run_inv (hstart : Start start) (hrun : Run (step texts env) anyStep start db) :
    Inv texts db :=
  hrun.invariant (fun _ _ _ hinv _ hstep => step_inv hinv hstep) hstart.inv

/-- The two edges have the same two ends, in whatever order. -/
def SamePair (edge edge' : KnowledgeGraphEdgeRow) : Prop :=
  (edge.sourceEntityId = edge'.sourceEntityId ∧ edge.targetEntityId = edge'.targetEntityId) ∨
    (edge.sourceEntityId = edge'.targetEntityId ∧ edge.targetEntityId = edge'.sourceEntityId)

/-- Two edges that relate the same incidents are one. -/
theorem related_once (hinv : Inv texts db) {edge edge' : KnowledgeGraphEdgeRow}
    (hedge : edge ∈ db.knowledgeGraphEdges) (hedge' : edge' ∈ db.knowledgeGraphEdges)
    (hrelated : edge.relationshipType = "related_to")
    (hrelated' : edge'.relationshipType = "related_to") (hpair : SamePair edge edge') :
    edge = edge' := by
  obtain ⟨hsourceType, htargetType, hle, incident, hmem, hid, horg⟩ :=
    (hinv.grounded _ ⟨edge, hedge, rfl⟩).related hrelated
  obtain ⟨hsourceType', htargetType', hle', incident', hmem', hid', horg'⟩ :=
    (hinv.grounded _ ⟨edge', hedge', rfl⟩).related hrelated'
  simp only [Repository.edgeTable_key, KnowledgeGraphEdgeRow.logicalIdentity] at *
  have hends : edge.sourceEntityId = edge'.sourceEntityId ∧
      edge.targetEntityId = edge'.targetEntityId := by
    rcases hpair with hstraight | ⟨hcross, hcross'⟩
    · exact hstraight
    · have hequal : edge.sourceEntityId = edge'.sourceEntityId := by
        apply Nat.le_antisymm
        · rw [← hcross']
          exact hle
        · rw [hcross]
          exact hle'
      exact ⟨hequal, by rw [hcross', ← hequal, hcross]⟩
  have hsame : incident = incident' := by
    apply hinv.incidents incident hmem incident' hmem'
    show incident.id = incident'.id
    rw [hid, hid', hends.1]
  have horgs : edge.organizationId = edge'.organizationId := by
    rw [← horg, ← horg', hsame]
  refine hinv.sound.keys edge hedge edge' hedge' ?_
  rw [Repository.edgeTable_key, Repository.edgeTable_key]
  unfold KnowledgeGraphEdgeRow.logicalIdentity
  rw [horgs, hsourceType, hsourceType', hends.1, hrelated, hrelated', htargetType, htargetType',
    hends.2]

/-- In every state that requests lead to: a pass comes to its end, unless ids collide,
and leaves the documented pairs active and nothing to do for the next one. No fact is
stored twice, and no two incidents are related twice. -/
theorem discovery_rebuilds (hstart : Start start) (hrun : Run (step texts env) anyStep start db) :
    (∀ pass : Pass, FreshDraw pass db →
      ∃ out db', (discoverDocumentIncidentEdges texts pass).Returns db out db') ∧
    (∀ pass : Pass, ∀ out db', (discoverDocumentIncidentEdges texts pass).Returns db out db' →
      activePairs db' pass.organizationId = documentedPairs texts db' pass.organizationId ∧
      (∀ edge ∈ Repository.listActiveEdgesByRelationshipType db' pass.organizationId "documents",
        edge.logicalIdentity =
          documentsKey pass.organizationId edge.sourceEntityId edge.targetEntityId) ∧
      ∀ again : Pass, again.organizationId = pass.organizationId →
        ∃ unchanged, discoverDocumentIncidentEdges texts again db' =
          (.ok { edgesCreated := 0
                 edgesRevived := 0
                 edgesUnchanged := unchanged
                 edgesRemovedStale := 0
                 scannedAt := again.now }, db')) ∧
    (∀ edge ∈ db.knowledgeGraphEdges, ∀ edge' ∈ db.knowledgeGraphEdges,
      edge.logicalIdentity = edge'.logicalIdentity → edge = edge') ∧
    ∀ edge ∈ db.knowledgeGraphEdges, ∀ edge' ∈ db.knowledgeGraphEdges,
      edge.relationshipType = "related_to" → edge'.relationshipType = "related_to" →
        SamePair edge edge' → edge = edge' := by
  have hinv := run_inv hstart hrun
  refine ⟨fun pass hfresh => discover_ok hfresh, ?_, hinv.sound.keys, ?_⟩
  · intro pass out db' h
    refine ⟨activePairs_discovered hinv h, ?_, fun again horg => discover_settled hinv h again horg⟩
    intro edge hedge
    obtain ⟨hin, horg, -, hdocuments⟩ := mem_listActive.mp hedge
    have hgrounded := (discover_inv hinv h).grounded _ ⟨edge, hin, rfl⟩
    rw [← horg]
    exact (hgrounded.documents hdocuments).1
  · intro edge hedge edge' hedge' hrelated hrelated' hpair
    exact related_once hinv hedge hedge' hrelated hrelated' hpair

/-! ## A runbook of an outage -/

/-- A uuid is written in decimal digits. -/
def plainTexts : Texts where
  uuid text :=
    if text.toList.all Char.isDigit && !text.toList.isEmpty then
      some (text.toList.foldl (fun n c => 10 * n + (c.toNat - '0'.toNat)) 0)
    else none
  day _ := "2026-07-01"

def graphEnv : Knowledge.Env (Rat × Rat) String Rat where
  engine := Retrieval.planeEngine
  sha256Hexdigest := id

/-- An organization with one project, two incidents and a runbook of the first. -/
def twoOutages : GraphDb (Rat × Rat) where
  projects := [{ id := 1, organizationId := 1, name := "Default", isDefault := true }]
  documents :=
    [{ id := 1
       organizationId := 1
       projectId := 1
       source := "manual"
       externalId := "a"
       contentHash := "restart"
       title := some "Runbook"
       status := .proposed }]
  documentMetadata := [{ documentId := 1, key := "source_incident_id", value := "5" }]
  incidents := [5, 6].map fun id =>
    { id
      organizationId := 1
      projectId := 1
      title := "Outage"
      severity := "high"
      reportedBy := 1
      createdAt := 0
      description := ""
      updatedAt := 0 }

theorem twoOutages_start : Start twoOutages where
  documents := Table.keyUnique_singleton _
  incidents := Table.keyUnique_of_nodup (by decide)
  edges := rfl

def operator : Identity where
  kind := .user
  subject := "1"
  organizationId := 1
  permissions := {"incident:read", "incident:write"}

/-- A second runbook is proposed, the first is discovered, the incidents are related. -/
def linking : List Call :=
  [.propose { documentId := 2, externalId := "b", chunkId := 1 } operator 1
      { title := "Failover", content := "switch" },
    .discover { organizationId := 1, draw := fun _ => 100, now := 1 },
    .createManual 101 operator
      { sourceEntityType := .incident
        sourceEntityId := 6
        relationshipType := .relatedTo
        targetEntityType := .incident
        targetEntityId := 5 }]

theorem discovery_rebuilds_outage : ∃ db : GraphDb (Rat × Rat),
    Run (step plainTexts graphEnv) anyStep twoOutages db ∧
    db.knowledgeGraphEdges.map (fun edge => (edge.id, edge.sourceEntityId, edge.targetEntityId)) =
      [(100, 1, 5), (101, 5, 6)] ∧
    ∃ out db', (discoverDocumentIncidentEdges plainTexts
        { organizationId := 1, draw := fun _ => 102, now := 2 }).Returns db out db' ∧
      activePairs db' 1 = documentedPairs plainTexts db' 1 := by
  obtain ⟨db, hexec, hedges, hrows⟩ := @exists_of_exec _ _ (step plainTexts graphEnv) twoOutages
    linking (fun db =>
      db.knowledgeGraphEdges.map (fun edge => (edge.id, edge.sourceEntityId, edge.targetEntityId)) =
        [(100, 1, 5), (101, 5, 6)] ∧
      sourceRows db = [{ documentId := 1, key := "source_incident_id", value := "5" }])
    _ (by decide +kernel)
  have hrun := run_of_exec hexec
  obtain ⟨hends, hrebuilds, -⟩ := discovery_rebuilds twoOutages_start hrun
  have hfresh : FreshDraw { organizationId := 1, draw := fun _ => 102, now := 2 } db := by
    constructor
    · intro row _ edge hedge
      have hid : edge.id ∈ [100, 101] := by
        have hin := List.mem_map_of_mem (f := fun edge => (edge.id, edge.sourceEntityId,
          edge.targetEntityId)) hedge
        rw [hedges] at hin
        exact List.mem_map_of_mem (f := Prod.fst) hin
      intro heq
      have hfree : (102 : Uuid) ∉ [100, 101] := by decide
      rw [heq] at hid
      exact hfree hid
    · intro row hrow row' hrow' _
      rw [hrows, List.mem_singleton] at hrow hrow'
      rw [hrow, hrow']
  obtain ⟨out, db', hpass⟩ := hends _ hfresh
  exact ⟨db, hrun, hedges, out, db', hpass, (hrebuilds _ out db' hpass).1⟩

end Ekip.Core.Graph
