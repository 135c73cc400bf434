import Ekip.Lib.Run
import Ekip.Retrieval.Filtering
import Ekip.Core.Incidents.Service
import Ekip.Ingestion.Indexing
import Ekip.Ingestion.Connectors.Incidents
import Ekip.Agents.Searches

/-!
# What a search says about incidents

Incidents are created and updated while any number of syncs copy them into the
index, page by page and item by item. The index keeps incidents of different
organizations apart. It does not keep the projects of one organization apart:
the search has no part in the permission that reading an incident takes.
-/
namespace Ekip.Agents.IncidentSearch

open Ekip.Lib Ekip.Database Ekip.Shared Ekip.Core Ekip.Core.Incidents Ekip.Retrieval Ekip.Ingestion
open Ekip.Ingestion.Incidents (RawIncident)

variable {ε τ ω : Type}

/-! ## Requests and syncs -/

/-- A registered connector; without a project of its own it uses the default one. -/
structure IncidentsConfig where
  organizationId : Uuid
  projectId : Option Uuid := none

/-- A sync between two of its statements. -/
structure Sync where
  organizationId : Uuid
  projectId : Option Uuid
  since : Option Instant
  cursor : Option Nat := none
  hasMore : Bool := true
  /-- What is left of the page. -/
  items : List RawIncident := []

structure St (ε : Type) where
  db : IncidentDb ε
  /-- By connector: a lock keeps a second sync of one connector out. -/
  syncs : Uuid → Option Sync := fun _ => none

inductive Label
  | created (draw : Incidents.Draw) (actor : Identity) (organizationId : Uuid) (data : IncidentCreate)
  | updated (draw : Incidents.Draw) (actor : Identity) (organizationId incidentId : Uuid)
      (patch : IncidentUpdate)
  | started (connectorId : Uuid) (since : Option Instant)
  | fetched (connectorId : Uuid)
  | processed (connectorId : Uuid) (draw : Indexing.Draw)
  | ended (connectorId : Uuid)

/-- One request in its own transaction. -/
def St.respond {α : Type} (s : St ε) (x : IncidentM ε α) : St ε :=
  { s with db := (Service.transaction x s.db).2 }

def St.put (s : St ε) (connectorId : Uuid) (sync : Option Sync) : St ε :=
  { s with syncs := Function.update s.syncs connectorId sync }

/-- The default project is looked up when the first items arrive. -/
def ingestionProject (db : IncidentDb ε) (sync : Sync) (items : List RawIncident) :
    Except Exn (Option Uuid) :=
  if items ≠ [] ∧ sync.projectId = none then
    (Knowledge.getDefaultProject sync.organizationId db.toContentDb).1.map fun project =>
      some project.id
  else .ok sync.projectId

/-- The next page. A sync that raises is over. -/
def fetch (db : IncidentDb ε) (sync : Sync) : Option Sync :=
  let page := Incidents.fetchBatch db sync.organizationId sync.since sync.cursor
  match ingestionProject db sync page.items with
  | .error _ => none
  | .ok projectId =>
    some { sync with projectId, cursor := page.nextCursor, hasMore := page.hasMore
                     items := page.items }

variable (env : Indexing.Env ε τ ω) (connectors : Uuid → Option IncidentsConfig)

/-- One item, which is committed on its own. -/
def processItem (target : Indexing.Target) (draw : Indexing.Draw) (item : RawIncident) :
    IncidentM ε Nat :=
  Service.transaction (onContent (Indexing.processOneItem env target draw (Incidents.normalize item)))

def step (s : St ε) : Label → Option (St ε)
  | .created draw actor organizationId data =>
    some (s.respond (createIncident draw actor organizationId data))
  | .updated draw actor organizationId incidentId patch =>
    some (s.respond (updateIncident draw actor organizationId incidentId patch))
  | .started connectorId since =>
    match connectors connectorId, s.syncs connectorId with
    | some config, none =>
      some (s.put connectorId (some
        { organizationId := config.organizationId, projectId := config.projectId, since }))
    | _, _ => none
  | .fetched connectorId =>
    match s.syncs connectorId with
    | some sync =>
      if sync.items = [] ∧ sync.hasMore then some (s.put connectorId (fetch s.db sync)) else none
    | none => none
  | .processed connectorId draw =>
    match s.syncs connectorId with
    | some ⟨organizationId, some projectId, since, cursor, hasMore, item :: rest⟩ =>
      match processItem env ⟨organizationId, projectId⟩ draw item s.db with
      | (.ok _, db) =>
        some (St.put { s with db } connectorId
          (some ⟨organizationId, some projectId, since, cursor, hasMore, rest⟩))
      | (.error _, _) => some (s.put connectorId none)
    | _ => none
  | .ended connectorId => some (s.put connectorId none)

/-! ## What the index holds of an incident -/

/-- The chunk was cut from the document of the incident. -/
def CutFrom (db : IncidentDb ε) (c : ScoredChunk ω) (row : IncidentRow) : Prop :=
  row ∈ db.incidents ∧ ∃ document ∈ db.documents, document.id = c.documentId ∧
    document.source = "incidents" ∧ document.organizationId = row.organizationId ∧
    document.externalId = toString row.id

/-- `get_incident` answers the actor. -/
def Readable (db : IncidentDb ε) (actor : Identity) (row : IncidentRow) : Prop :=
  ∃ out db', (getIncident actor actor.organizationId row.id).Returns db out db'

/-- The chunk is of the organization and of a document of it, and it is an incident's
if and only if it stands among the incidents. -/
def Linked (documents : List Database.Document) (name : CollectionName) (chunk : Chunk ε) : Prop :=
  ∃ document ∈ documents, document.id = chunk.documentId ∧
    document.organizationId = chunk.organizationId ∧
    (document.source = "incidents" ↔ name = .incidents)

/-- The row of an incident, as other tables know it. -/
def Known (incidents : List IncidentRow) (organizationId id : Uuid) : Prop :=
  ∃ row ∈ incidents, row.id = id ∧ row.organizationId = organizationId

structure Inv (s : St ε) : Prop where
  documentKeys : Table.KeyUnique Database.Document.id s.db.documents
  incidentKeys : Table.KeyUnique (fun row : IncidentRow => row.id) s.db.incidents
  linked : ∀ name, ∀ chunk ∈ s.db.chunks name, Linked s.db.documents name chunk
  indexed : ∀ document ∈ s.db.documents, document.source = "incidents" →
    ∃ id, Known s.db.incidents document.organizationId id ∧ document.externalId = toString id
  fetched : ∀ connectorId sync, s.syncs connectorId = some sync →
    ∀ item ∈ sync.items, Known s.db.incidents sync.organizationId item.id

/-- The keys hold, no sync runs, and no incident has been indexed. -/
structure Start (s : St ε) : Prop where
  documentKeys : Table.KeyUnique Database.Document.id s.db.documents
  incidentKeys : Table.KeyUnique (fun row : IncidentRow => row.id) s.db.incidents
  linked : ∀ name, ∀ chunk ∈ s.db.chunks name, Linked s.db.documents name chunk
  unindexed : ∀ document ∈ s.db.documents, document.source ≠ "incidents"
  idle : ∀ connectorId, s.syncs connectorId = none

theorem Start.inv {s : St ε} (h : Start s) : Inv s where
  documentKeys := h.documentKeys
  incidentKeys := h.incidentKeys
  linked := h.linked
  indexed document hdocument hsource := absurd hsource (h.unindexed document hdocument)
  fetched connectorId sync hsync := by
    rw [h.idle connectorId] at hsync
    cases hsync

/-! ## One step -/

variable {env connectors} {s s' : St ε}

/-- Only the incidents were written, and each one is still there. -/
theorem Inv.of_incidents (hi : Inv s) {incidents : List IncidentRow}
    (hkeys : Table.KeyUnique (fun row : IncidentRow => row.id) incidents)
    (hkeep : ∀ organizationId id, Known s.db.incidents organizationId id →
      Known incidents organizationId id) :
    Inv { s with db := { s.db with incidents } } where
  documentKeys := hi.documentKeys
  incidentKeys := hkeys
  linked := hi.linked
  indexed document hdocument hsource := by
    obtain ⟨id, hknown, hid⟩ := hi.indexed document hdocument hsource
    exact ⟨id, hkeep _ _ hknown, hid⟩
  fetched connectorId sync hsync item hitem :=
    hkeep _ _ (hi.fetched connectorId sync hsync item hitem)

theorem Inv.created (hi : Inv s) {draw : Incidents.Draw} {actor : Identity} {organizationId : Uuid}
    {data : IncidentCreate} : Inv (s.respond (createIncident draw actor organizationId data)) := by
  unfold St.respond
  rcases Service.transaction_cases (createIncident draw actor organizationId data) s.db with
    ⟨row, db, hreturns, heq⟩ | ⟨e, -, heq⟩
  · rw [heq]
    obtain ⟨-, hfresh, hid, -, -, -, hdb⟩ := createIncident_returns hreturns
    have hkeys : Table.KeyUnique (fun row : IncidentRow => row.id) (s.db.incidents ++ [row]) := by
      apply Table.keyUnique_append hi.incidentKeys
      intro other hother
      rw [hid]
      exact hfresh other hother
    have hinv := hi.of_incidents hkeys fun organizationId id hknown => by
      obtain ⟨other, hother, hsame⟩ := hknown
      exact ⟨other, List.mem_append_left _ hother, hsame⟩
    rw [hdb]
    exact hinv
  · rw [heq]
    exact hi

theorem Inv.updated (hi : Inv s) {draw : Incidents.Draw} {actor : Identity} {organizationId incidentId : Uuid}
    {patch : IncidentUpdate} :
    Inv (s.respond (updateIncident draw actor organizationId incidentId patch)) := by
  unfold St.respond
  rcases Service.transaction_cases (updateIncident draw actor organizationId incidentId patch) s.db
    with ⟨row, db, hreturns, heq⟩ | ⟨e, -, heq⟩
  · rw [heq]
    rcases updateIncident_returns hreturns with hdb | ⟨existing, patched, hget, hsame, hdb⟩
    · rw [hdb]
      exact hi
    · obtain ⟨hexisting, hid⟩ := Repository.getIncidentById_some hget
      -- every row under the id is the one that was read
      have htouched : ∀ other ∈ s.db.incidents, other.id = incidentId →
          SameIncident other (Repository.touch draw.now other patched) := by
        intro other hother hother'
        obtain rfl := hi.incidentKeys other hother existing hexisting (hother'.trans hid.symm)
        exact touch_same hsame
      have hkeys : Table.KeyUnique (fun row : IncidentRow => row.id)
          (Table.updateWhere s.db.incidents (fun row => row.id = incidentId)
            (fun row => Repository.touch draw.now row patched)) := by
        apply Table.keyUnique_updateWhere_of_matching hi.incidentKeys
        intro other hother hmatch
        exact (htouched other hother (by simpa using hmatch)).1
      have hinv := hi.of_incidents hkeys fun organizationId id hknown => by
        obtain ⟨other, hother, hidother, horg⟩ := hknown
        refine ⟨_, Table.mem_updateWhere.mpr ⟨other, hother, rfl⟩, ?_⟩
        split
        · rename_i hmatch
          obtain ⟨hsameId, hsameOrg, -⟩ := htouched other hother (by simpa using hmatch)
          exact ⟨hsameId.trans hidother, hsameOrg.trans horg⟩
        · exact ⟨hidother, horg⟩
      rw [hdb]
      exact hinv
  · rw [heq]
    exact hi

/-- A sync is replaced by one whose items are known. -/
theorem Inv.put (hi : Inv s) {connectorId : Uuid} {sync : Option Sync}
    (hitems : ∀ new, sync = some new → ∀ item ∈ new.items,
      Known s.db.incidents new.organizationId item.id) : Inv (s.put connectorId sync) where
  documentKeys := hi.documentKeys
  incidentKeys := hi.incidentKeys
  linked := hi.linked
  indexed := hi.indexed
  fetched id new hnew := by
    rcases of_update (P := fun entry => entry = some new) hnew with ⟨-, hself⟩ | ⟨-, hother⟩
    · exact hitems new hself
    · exact hi.fetched id new hother

theorem fetch_items {db : IncidentDb ε} {sync new : Sync} (h : fetch db sync = some new) :
    new.organizationId = sync.organizationId ∧
      new.items = (Incidents.fetchBatch db sync.organizationId sync.since sync.cursor).items := by
  unfold fetch at h
  dsimp only at h
  split at h
  · cases h
  · cases h
    exact ⟨rfl, rfl⟩

/-- What an item adds is linked, and its document names the incident. -/
theorem Inv.ingested (hi : Inv s) {target : Indexing.Target} {draw : Indexing.Draw}
    {item : RawIncident} {content : ContentDb ε}
    (hknown : Known s.db.incidents target.organizationId item.id)
    (h : Indexing.Ingested env target draw (Incidents.normalize item) s.db.toContentDb content) :
    Inv { s with db := { s.db with toContentDb := content } } := by
  obtain ⟨version, hdocuments⟩ := h.documents
  have hold : ∀ {document : Database.Document}, document ∈ s.db.documents →
      document ∈ content.documents := by
    intro document hdocument
    rw [hdocuments]
    exact List.mem_append_left _ hdocument
  refine ⟨?_, hi.incidentKeys, ?_, ?_, hi.fetched⟩
  · show Table.KeyUnique Database.Document.id content.documents
    rw [hdocuments]
    exact Table.keyUnique_append hi.documentKeys h.fresh
  · intro name chunk hchunk
    rcases h.chunks name chunk hchunk with hbefore | ⟨hname, hid, horg, -⟩
    · obtain ⟨document, hdocument, hlink⟩ := hi.linked name chunk hbefore
      exact ⟨document, hold hdocument, hlink⟩
    · refine ⟨Indexing.documentRow target draw
        (Indexing.processDocument env.processors (Incidents.normalize item)) version, ?_, ?_, ?_, ?_⟩
      · show _ ∈ content.documents
        rw [hdocuments]
        exact List.mem_append_right _ (List.mem_singleton_self _)
      · exact hid.symm
      · exact horg.symm
      · rw [hname]
        exact ⟨fun _ => rfl, fun _ => rfl⟩
  · intro document hdocument hsource
    have hcases : document ∈ s.db.documents ++ [Indexing.documentRow target draw
        (Indexing.processDocument env.processors (Incidents.normalize item)) version] := by
      rw [← hdocuments]
      exact hdocument
    rcases List.mem_append.mp hcases with hbefore | hnew
    · exact hi.indexed document hbefore hsource
    · obtain rfl := List.mem_singleton.mp hnew
      exact ⟨item.id, hknown, rfl⟩

/-- An item that is processed leaves the incidents alone. -/
theorem Inv.item (hi : Inv s) {target : Indexing.Target} {draw : Indexing.Draw} {item : RawIncident}
    {written : Nat} {db : IncidentDb ε}
    (hknown : Known s.db.incidents target.organizationId item.id)
    (h : (processItem env target draw item).Returns s.db written db) :
    Inv { s with db } ∧ db.incidents = s.db.incidents := by
  simp only [processItem, onContent, Service.transaction_returns, Service.zoom_returns] at h
  obtain ⟨content, hreturns, rfl⟩ := h
  rcases Indexing.processOneItem_returns hreturns with rfl | hingested
  · exact ⟨hi, rfl⟩
  · exact ⟨hi.ingested hknown hingested, rfl⟩

theorem step_inv {a : Label} (hi : Inv s) (h : step env connectors s a = some s') : Inv s' := by
  cases a with
  | created draw actor organizationId data =>
    obtain rfl := Option.some.inj h
    exact hi.created
  | updated draw actor organizationId incidentId patch =>
    obtain rfl := Option.some.inj h
    exact hi.updated
  | started connectorId since =>
    unfold step at h
    dsimp only at h
    split at h
    · obtain rfl := Option.some.inj h
      apply hi.put
      intro new hnew item hitem
      obtain rfl := Option.some.inj hnew
      cases hitem
    · cases h
  | fetched connectorId =>
    unfold step at h
    dsimp only at h
    split at h
    · split at h
      · obtain rfl := Option.some.inj h
        apply hi.put
        intro new hnew item hitem
        obtain ⟨horg, hitems⟩ := fetch_items hnew
        rw [hitems] at hitem
        rw [horg]
        exact Incidents.mem_fetchBatch hitem
      · cases h
    · cases h
  | processed connectorId draw =>
    unfold step at h
    dsimp only at h
    split at h
    · rename_i organizationId projectId since cursor hasMore item rest hsync
      have hknown := hi.fetched connectorId _ hsync
      split at h
      · rename_i written db hprocess
        obtain rfl := Option.some.inj h
        obtain ⟨hinv, hincidents⟩ := hi.item (hknown item List.mem_cons_self) hprocess
        apply hinv.put
        intro new hnew later hlater
        obtain rfl := Option.some.inj hnew
        show Known db.incidents organizationId later.id
        rw [hincidents]
        exact hknown later (List.mem_cons_of_mem _ hlater)
      · obtain rfl := Option.some.inj h
        apply hi.put
        intro new hnew
        cases hnew
    · cases h
  | ended connectorId =>
    obtain rfl := Option.some.inj h
    apply hi.put
    intro new hnew
    cases hnew

theorem run_inv (h : Lib.Run (step env connectors) anyStep s s') (hi : Inv s) : Inv s' :=
  h.invariant (fun _ _ _ hinv _ hstep => step_inv hinv hstep) hi

/-! ## What a search finds -/

section Found

variable {filters : SearchFilters} {names : List CollectionName} {c : ScoredChunk ω}

/-- The document that a chunk of a result belongs to. -/
theorem document_of_shows (hi : Inv s) (h : ShowsIn names filters s.db.toContentDb c) :
    ∃ document ∈ s.db.documents, document.id = c.documentId ∧
      document.organizationId = filters.organizationId ∧
      (document.source = "incidents" ↔ c.collection = .incidents) := by
  obtain ⟨-, chunk, hchunk, ⟨horg, -⟩, -, hdocument, -⟩ := h
  obtain ⟨document, hmem, hid, hsame, hsource⟩ := hi.linked _ chunk hchunk
  exact ⟨document, hmem, hid.trans hdocument.symm, hsame.trans horg, hsource⟩

/-- A chunk among the incidents was cut from an incident of the organization. -/
theorem cutFrom_of_shows (hi : Inv s) (h : ShowsIn [.incidents] filters s.db.toContentDb c) :
    ∃ row, CutFrom s.db c row ∧ row.organizationId = filters.organizationId := by
  obtain ⟨document, hdocument, hid, horg, hsource⟩ := document_of_shows hi h
  have hincident := hsource.mpr (List.mem_singleton.mp h.1)
  obtain ⟨id, ⟨row, hrow, hrowId, hrowOrg⟩, hexternal⟩ :=
    hi.indexed document hdocument hincident
  rw [← hrowId] at hexternal
  exact ⟨row, ⟨hrow, document, hdocument, hid, hincident, hrowOrg.symm, hexternal⟩,
    hrowOrg.trans horg⟩

/-- A chunk from anywhere else is no incident's. -/
theorem source_ne_of_shows (hi : Inv s) (h : ShowsIn names filters s.db.toContentDb c)
    (hnames : CollectionName.incidents ∉ names) {document : Database.Document}
    (hdocument : document ∈ s.db.documents) (hid : document.id = c.documentId) :
    document.source ≠ "incidents" := by
  intro hincident
  obtain ⟨other, hother, hotherId, -, hsource⟩ := document_of_shows hi h
  obtain rfl := hi.documentKeys document hdocument other hother (hid.trans hotherId.symm)
  have hcollection := hsource.mp hincident
  rw [ShowsIn, hcollection] at h
  exact hnames h.1

/-- Reading an incident of one's own organization takes the permission, and no more. -/
theorem readable_iff (hi : Inv s) {actor : Identity} {row : IncidentRow} (hrow : row ∈ s.db.incidents)
    (horg : row.organizationId = actor.organizationId) :
    Readable s.db actor row ↔
      actor.hasPermission incidentReadPermission (some row.projectId) = true := by
  have hget : Repository.getIncidentById s.db row.id = some row :=
    Table.get?_of_mem hi.incidentKeys hrow
  constructor
  · intro h
    obtain ⟨out, db', hreturns⟩ := h
    obtain ⟨-, hout, -, hread, -⟩ := getIncident_returns.mp hreturns
    obtain rfl := Option.some.inj (hget.symm.trans hout)
    exact hread
  · intro hread
    exact ⟨row, s.db, getIncident_returns.mpr ⟨rfl, hget, horg, hread, rfl⟩⟩

end Found

/-! ## What a search depends on -/

/-- What the index holds of one organization. -/
def organizationShare (organizationId : Uuid) (db : ContentDb ε) : ContentDb ε :=
  let documents := db.documents.filter fun document => document.organizationId = organizationId
  { documents
    documentMetadata := db.documentMetadata.filter fun row =>
      documents.any fun document => document.id = row.documentId
    chunks := fun name => (db.chunks name).filter fun chunk => chunk.organizationId = organizationId }

variable {engine : Engine ε τ ω} {organizationId : Uuid} {queryEmbedding : ε} {queryText : String}
  {topK : Int}

/-- Documents of other organizations join no chunk of this one. -/
theorem joinDocument_share (hi : Inv s) {name : CollectionName} {key : Chunk ε → ω} {chunk : Chunk ε}
    (hchunk : chunk ∈ s.db.chunks name) (horg : chunk.organizationId = organizationId) :
    joinDocument s.db.documents name key chunk =
      joinDocument (organizationShare organizationId s.db.toContentDb).documents name key chunk := by
  obtain ⟨document, hdocument, hid, hsame, -⟩ := hi.linked name chunk hchunk
  have hfilter : (s.db.documents.filter fun other =>
        other.id = chunk.documentId ∧ other.deletedAt = none) =
      ((s.db.documents.filter fun other => other.organizationId = organizationId).filter
        fun other => other.id = chunk.documentId ∧ other.deletedAt = none) := by
    rw [List.filter_filter]
    apply List.filter_congr
    intro other hother
    by_cases hother' : other.id = chunk.documentId
    · obtain rfl := hi.documentKeys other hother document hdocument (hother'.trans hid.symm)
      have horg' : other.organizationId = organizationId := hsame.trans horg
      simp [horg']
    · simp [hother']
  unfold joinDocument organizationShare
  rw [hfilter]

theorem selectChunks_share (hi : Inv s) (name : CollectionName) (on : Chunk ε → Bool)
    (key : Chunk ε → ω) :
    selectChunks { organizationId } name on key s.db.toContentDb =
      selectChunks { organizationId } name on key
        (organizationShare organizationId s.db.toContentDb) := by
  have hrows : ((s.db.chunks name).filter fun chunk =>
        on chunk && tenantClause { organizationId } chunk && true).flatMap
          (joinDocument s.db.documents name key) =
      (((organizationShare organizationId s.db.toContentDb).chunks name).filter fun chunk =>
        on chunk && tenantClause { organizationId } chunk && true).flatMap
          (joinDocument (organizationShare organizationId s.db.toContentDb).documents name key) := by
    have hfilter : ((organizationShare organizationId s.db.toContentDb).chunks name).filter
          (fun chunk => on chunk && tenantClause { organizationId } chunk && true) =
        (s.db.chunks name).filter
          fun chunk => on chunk && tenantClause { organizationId } chunk && true := by
      show List.filter _ (List.filter _ _) = _
      rw [List.filter_filter]
      apply List.filter_congr
      intro chunk _
      by_cases horg : chunk.organizationId = organizationId
      · simp [horg]
      · simp [tenantClause, horg]
    rw [hfilter]
    apply List.flatMap_congr
    intro chunk hchunk
    obtain ⟨hmem, hclause⟩ := List.mem_filter.mp hchunk
    have horg : chunk.organizationId = organizationId := by
      simp only [tenantClause, Bool.and_eq_true, decide_eq_true_eq] at hclause
      exact hclause.1.2.1
    exact joinDocument_share hi hmem horg
  exact congrArg Except.ok hrows

/-- The metadata of documents of the organization. -/
theorem loadMetadata_share {documentIds : List Uuid} {db : ContentDb ε}
    (h : ∀ id ∈ documentIds, ∃ document ∈ db.documents, document.id = id ∧
      document.organizationId = organizationId) :
    loadMetadataByDocument documentIds db =
      loadMetadataByDocument documentIds (organizationShare organizationId db) := by
  have hfilter : (db.documentMetadata.filter fun row => row.documentId ∈ documentIds) =
      ((organizationShare organizationId db).documentMetadata.filter fun row =>
        row.documentId ∈ documentIds) := by
    unfold organizationShare
    rw [List.filter_filter]
    apply List.filter_congr
    intro row _
    by_cases hrow : row.documentId ∈ documentIds
    · obtain ⟨document, hdocument, hid, horg⟩ := h _ hrow
      have hany : ((db.documents.filter fun document =>
          document.organizationId = organizationId).any fun document =>
            document.id = row.documentId) = true := by
        apply List.any_eq_true.mpr
        refine ⟨document, List.mem_filter.mpr ⟨hdocument, by simpa using horg⟩, ?_⟩
        simpa using hid
      rw [hany, Bool.and_true]
    · simp [hrow]
  unfold loadMetadataByDocument
  rw [hfilter]

/-- The metadata of a page of what was selected. -/
theorem pageMetadata_share (hi : Inv s) {name : CollectionName} {on : Chunk ε → Bool}
    {key : Chunk ε → ω} {le : ω → ω → Bool} {rows page : List (ChunkRow ω)} {metadata : Bool}
    (hrows : selectChunks { organizationId } name on key s.db.toContentDb = .ok rows)
    (hpage : Query.limit negativeLimit topK (Query.orderBy le ChunkRow.key rows) = .ok page) :
    loadMetadataByDocument (if metadata then page.map ChunkRow.documentId else []) s.db.toContentDb =
      loadMetadataByDocument (if metadata then page.map ChunkRow.documentId else [])
        (organizationShare organizationId s.db.toContentDb) := by
  apply loadMetadata_share
  intro id hid
  split at hid
  · obtain ⟨row, hrow, rfl⟩ := List.mem_map.mp hid
    have hmem := Query.mem_orderBy.mp (Query.mem_of_limit hpage hrow)
    have hshows := selectChunks_shows hrows hmem id ∅
    obtain ⟨document, hdocument, hdocumentId, horg, -⟩ := document_of_shows hi hshows
    exact ⟨document, hdocument, hdocumentId, horg⟩
  · cases hid

theorem storeSearch_share (hi : Inv s) (name : CollectionName) (metadata : Bool) :
    PgVectorStore.search engine name queryEmbedding { organizationId } topK metadata
        s.db.toContentDb =
      PgVectorStore.search engine name queryEmbedding { organizationId } topK metadata
        (organizationShare organizationId s.db.toContentDb) := by
  unfold PgVectorStore.search
  rw [← selectChunks_share hi]
  cases hrows : selectChunks { organizationId } name (fun _ => true)
      (fun chunk => engine.maxInnerProduct chunk.embedding queryEmbedding) s.db.toContentDb with
  | error e => rfl
  | ok rows =>
    cases hpage : Query.limit negativeLimit topK
        (Query.orderBy engine.le ChunkRow.key rows) with
    | error e => simp only [bind, Except.bind, hpage]
    | ok page =>
      simp only [bind, Except.bind, hpage]
      rw [pageMetadata_share hi hrows hpage]

theorem storeLexicalSearch_share (hi : Inv s) (name : CollectionName) (metadata : Bool) :
    PgVectorStore.lexicalSearch engine name queryText { organizationId } topK metadata
        s.db.toContentDb =
      PgVectorStore.lexicalSearch engine name queryText { organizationId } topK metadata
        (organizationShare organizationId s.db.toContentDb) := by
  unfold PgVectorStore.lexicalSearch
  dsimp only
  rw [← selectChunks_share hi]
  cases hrows : selectChunks { organizationId } name
      (fun chunk => engine.tsMatches chunk.content (engine.plaintoTsquery queryText))
      (fun chunk => engine.tsRankCd chunk.content (engine.plaintoTsquery queryText))
      s.db.toContentDb with
  | error e => rfl
  | ok rows =>
    cases hpage : Query.limit negativeLimit topK
        (Query.orderBy (fun a b => engine.le b a) ChunkRow.key rows) with
    | error e => simp only [bind, Except.bind, hpage]
    | ok page =>
      simp only [bind, Except.bind, hpage]
      rw [pageMetadata_share hi hrows hpage]

/-- The search reads the share of the actor's organization, and nothing else. -/
theorem searchSimilarIncidents_share (hi : Inv s) (description : String) (actor : Identity) :
    searchSimilarIncidents engine description actor topK s.db.toContentDb =
      searchSimilarIncidents engine description actor topK
        (organizationShare actor.organizationId s.db.toContentDb) := by
  unfold searchSimilarIncidents search
  cases engine.embedQuery description with
  | error e => rfl
  | ok queryEmbedding =>
    have hlists : searchCollection engine description queryEmbedding
          { organizationId := actor.organizationId } topK true s.db.toContentDb .incidents =
        searchCollection engine description queryEmbedding
          { organizationId := actor.organizationId } topK true
          (organizationShare actor.organizationId s.db.toContentDb) .incidents := by
      unfold searchCollection
      rw [storeSearch_share hi, storeLexicalSearch_share hi]
    have hone : ¬ (some CollectionName.incidents = none ∧ true = false) := by decide
    simp only [bind, Except.bind, if_neg hone, Option.elim_some, List.mapM_cons, List.mapM_nil,
      hlists]

/-! ## The organization is the boundary -/

/-- An incident of the actor's organization, which `get_incident` answers with if and only
if the actor may read incidents of its project. -/
def OwnIncident (db : IncidentDb ε) (actor : Identity) (c : ScoredChunk ω) : Prop :=
  ∃ row, CutFrom db c row ∧ row.organizationId = actor.organizationId ∧
    (Readable db actor row ↔
      actor.hasPermission incidentReadPermission (some row.projectId) = true)

/-- The chunk belongs to no document of the incidents connector. -/
def NoIncident (db : IncidentDb ε) (c : ScoredChunk ω) : Prop :=
  ∀ document ∈ db.documents, document.id = c.documentId → document.source ≠ "incidents"

theorem ownIncident_of_shows (hi : Inv s) {filters : SearchFilters} {actor : Identity}
    {c : ScoredChunk ω} (hfilters : filters.organizationId = actor.organizationId)
    (h : ShowsIn [.incidents] filters s.db.toContentDb c) : OwnIncident s.db actor c := by
  obtain ⟨row, hcut, horg⟩ := cutFrom_of_shows hi h
  have hown := horg.trans hfilters
  exact ⟨row, hcut, hown, readable_iff hi hcut.1 hown⟩

/-- A similar incident, or one that a historical similarity was computed of, is an
incident of the actor's organization; the other searches find no incident. What the
index holds of other organizations has no influence. -/
theorem incident_search_within_organization (env : Indexing.Env ε τ ω)
    (connectors : Uuid → Option IncidentsConfig) {start s : St ε} (hstart : Start start)
    (hrun : Lib.Run (step env connectors) anyStep start s) (actor : Identity) (query : String)
    (topK : Int) :
    (∀ chunks, searchSimilarIncidents env.engine query actor topK s.db.toContentDb = .ok chunks →
      ∀ c ∈ chunks, OwnIncident s.db actor c) ∧
    (∀ result, historicalSimilaritySearch env.engine query actor s.db.toContentDb = some result →
      ∀ c ∈ result.chunks, OwnIncident s.db actor c) ∧
    (∀ result, hybridSearch env.engine query actor s.db.toContentDb = some result →
      ∀ c ∈ result.chunks, NoIncident s.db c) ∧
    (∀ c ∈ gatherEvidence env.engine query actor s.db.toContentDb, NoIncident s.db c) ∧
    ∀ start' s', Start start' → Lib.Run (step env connectors) anyStep start' s' →
      organizationShare actor.organizationId s.db.toContentDb =
        organizationShare actor.organizationId s'.db.toContentDb →
      searchSimilarIncidents env.engine query actor topK s.db.toContentDb =
        searchSimilarIncidents env.engine query actor topK s'.db.toContentDb := by
  have hi := run_inv hrun hstart.inv
  refine ⟨?_, ?_, ?_, ?_, ?_⟩
  · intro chunks hsearch c hc
    exact ownIncident_of_shows hi rfl (service_search_shows hsearch c hc)
  · intro result hsearch c hc
    have hok := ok_of_toOption hsearch
    exact ownIncident_of_shows hi rfl (searchWithSignals_shows hok c hc)
  · intro result hsearch c hc document hdocument hid
    have hok := ok_of_toOption hsearch
    exact source_ne_of_shows hi (searchWithSignals_shows hok c hc) (by decide) hdocument hid
  · intro c hc document hdocument hid
    obtain ⟨name, hname, metadata, chunks, hsearch, hmem⟩ := mem_gatherEvidence hc
    have hshows := service_search_shows hsearch c hmem
    refine source_ne_of_shows hi hshows ?_ hdocument hid
    intro hincidents
    exact hname (List.mem_singleton.mp hincidents).symm
  · intro start' s' hstart' hrun' hshare
    have hi' := run_inv hrun' hstart'.inv
    rw [searchSimilarIncidents_share hi, searchSimilarIncidents_share hi', hshare]

/-! ## An incident of a project that the actor may not read -/

/-- A text is one chunk. -/
def plainEnv : Indexing.Env (Rat × Rat) String Rat where
  engine := planeEngine
  processors :=
    { cleanContent := id
      sha256Hexdigest := id
      chunkDocument := fun content _ => [⟨content, 0, content.length⟩] }
  limits := { ingestionMaxDocumentBytes := 1000, ingestionMaxChunksPerDocument := 10 }

def reporter : Identity :=
  { kind := .user, subject := "7", organizationId := 1, userId := some 7
    permissions := {"incident:write"} }

/-- A member of the organization without any permission. -/
def bystander : Identity := { kind := .user, subject := "8", organizationId := 1, userId := some 8 }

/-- One organization with its default project and an incidents connector. -/
def workspace : St (Rat × Rat) where
  db := { projects := [{ id := 5, organizationId := 1, name := "Default", isDefault := true }] }

def incidentsConnector (connectorId : Uuid) : Option IncidentsConfig :=
  if connectorId = 9 then some { organizationId := 1 } else none

/-- An incident is reported and synced. -/
def reportAndSync : List Label :=
  [.created { incidentId := 100, now := 3 } reporter 1
      { title := "Breach", description := "Keys leaked", severity := "critical" },
    .started 9 none, .fetched 9,
    .processed 9 { documentId := 200, chunkId := fun i => 300 + i }, .ended 9]

def breachRow : IncidentRow :=
  { id := 100, organizationId := 1, projectId := 5, title := "Breach", severity := "critical"
    reportedBy := 7, createdAt := 3, description := "Keys leaked", updatedAt := 3 }

theorem workspace_start : Start workspace where
  documentKeys := Table.keyUnique_nil
  incidentKeys := Table.keyUnique_nil
  linked name chunk hchunk := by cases hchunk
  unindexed document hdocument := by cases hdocument
  idle _ := rfl

/-- The documents that the bystander finds. -/
def foundDocuments (s : St (Rat × Rat)) : List Uuid :=
  (searchSimilarIncidents planeEngine "breach" bystander 10 s.db.toContentDb).toOption.elim []
    (List.map ScoredChunk.documentId)

theorem searched_of_foundDocuments {s : St (Rat × Rat)} (documentId : Uuid)
    (h : documentId ∈ foundDocuments s) :
    ∃ chunks, searchSimilarIncidents planeEngine "breach" bystander 10 s.db.toContentDb =
      .ok chunks ∧ ∃ c ∈ chunks, c.documentId = documentId := by
  unfold foundDocuments at h
  cases hsearch : searchSimilarIncidents planeEngine "breach" bystander 10 s.db.toContentDb with
  | error e =>
    rw [hsearch] at h
    cases h
  | ok chunks =>
    rw [hsearch] at h
    obtain ⟨c, hc, hid⟩ := List.mem_map.mp h
    exact ⟨chunks, rfl, c, hc, hid⟩

/-- What the run leaves: the incident, its one document, and a search that finds it. -/
theorem reportAndSync_leaves :
    ∃ s, exec (step plainEnv incidentsConnector) workspace reportAndSync = some s ∧
      s.db.incidents = [breachRow] ∧
      (s.db.documents.map fun document =>
        (document.id, document.organizationId, document.source, document.externalId)) =
        [(200, 1, "incidents", toString (100 : Nat))] ∧
      foundDocuments s = [200] :=
  exists_of_exec (by decide +kernel)

theorem incident_search_within_organization_breach :
    ∃ s, Lib.Run (step plainEnv incidentsConnector) anyStep workspace s ∧
      ∃ chunks, searchSimilarIncidents planeEngine "breach" bystander 10 s.db.toContentDb =
        .ok chunks ∧ (∃ c ∈ chunks, c.documentId = 200) ∧ ∀ c ∈ chunks, OwnIncident s.db bystander c := by
  obtain ⟨s, hexec, -, -, hfound⟩ := reportAndSync_leaves
  have hrun := run_of_exec hexec
  have hmem : 200 ∈ foundDocuments s := by
    rw [hfound]
    exact List.mem_singleton_self _
  obtain ⟨chunks, hsearch, hc⟩ := searched_of_foundDocuments 200 hmem
  exact ⟨s, hrun, chunks, hsearch, hc, (incident_search_within_organization plainEnv
    incidentsConnector workspace_start hrun bystander "breach" 10).1 chunks hsearch⟩

/-- The bystander finds the incident, and may not read it. -/
theorem unreadable_incident_found :
    ∃ s, Lib.Run (step plainEnv incidentsConnector) anyStep workspace s ∧
      ∃ chunks, searchSimilarIncidents planeEngine "breach" bystander 10 s.db.toContentDb =
        .ok chunks ∧ ∃ c ∈ chunks, CutFrom s.db c breachRow ∧
          ¬ Readable s.db bystander breachRow := by
  obtain ⟨s, hexec, hincidents, hdocuments, hfound⟩ := reportAndSync_leaves
  have hrun := run_of_exec hexec
  have hrow : breachRow ∈ s.db.incidents := by
    rw [hincidents]
    exact List.mem_singleton_self _
  have hmem : 200 ∈ foundDocuments s := by
    rw [hfound]
    exact List.mem_singleton_self _
  obtain ⟨chunks, hsearch, c, hc, hid⟩ := searched_of_foundDocuments 200 hmem
  refine ⟨s, hrun, chunks, hsearch, c, hc, ⟨hrow, ?_⟩, ?_⟩
  · obtain ⟨document, hdocument, heq⟩ := List.mem_map.mp
      (hdocuments ▸ List.mem_singleton_self (200, 1, "incidents", toString (100 : Nat)))
    obtain ⟨hdocumentId, horg, hsource, hexternal⟩ : document.id = 200 ∧
        document.organizationId = 1 ∧ document.source = "incidents" ∧
        document.externalId = toString (100 : Nat) := by
      simpa using heq
    exact ⟨document, hdocument, hdocumentId.trans hid.symm, hsource, horg, hexternal⟩
  · intro hread
    have hi := run_inv hrun workspace_start.inv
    have hdenied := (readable_iff hi hrow rfl).mp hread
    exact absurd hdenied (by decide)

end Ekip.Agents.IncidentSearch
