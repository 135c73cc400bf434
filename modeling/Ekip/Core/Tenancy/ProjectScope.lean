import Ekip.Lib.Run
import Ekip.Retrieval.Filtering
import Ekip.Core.Incidents.Service
import Ekip.Ingestion.Indexing

/-!
# Projects and their organizations

A row that names a project should name one of its own organization. Registering a
connector checks this. Reporting an incident and proposing a document do not: what
they write stays inside the organization as long as no request names the project of
another one.
-/
namespace Ekip.Core.Tenancy.ProjectScope

open Ekip.Lib Ekip.Database Ekip.Shared Ekip.Core Ekip.Core.Incidents Ekip.Retrieval Ekip.Ingestion

variable {υ ε τ ω : Type}

structure Workspace (υ ε : Type) where
  db : IncidentDb ε
  connectorConfigs : List (ConnectorRow υ) := []

structure Env (ε τ ω : Type) where
  knowledge : Knowledge.Env ε τ ω
  indexing : Indexing.Env ε τ ω
  encryptSecret : String → Except Exn String

inductive Call (υ : Type)
  | createIncident (draw : Incidents.Draw) (actor : Identity) (organizationId : Uuid)
      (data : IncidentCreate)
  | proposeDocument (draw : Knowledge.Draw) (actor : Identity) (organizationId : Uuid)
      (data : Knowledge.DocumentProposalCreate)
  | publishDocument (draw : Knowledge.Draw) (actor : Identity) (organizationId documentId : Uuid)
  | registerConnector (id : Uuid) (actor : Identity) (organizationId : Uuid)
      (data : ConnectorConfigCreate υ)
  /-- A sync of the connector processes an item. -/
  | ingestItem (draw : Indexing.Draw) (connectorId : Uuid) (raw : RawDocument)

abbrev WorkspaceM (υ ε α : Type) := Service Exn (Workspace υ ε) α

/-- An operation on incidents, documents and chunks. -/
def onDb {α : Type} (x : IncidentM ε α) : WorkspaceM υ ε α :=
  Service.zoom Workspace.db (fun db w => { w with db }) x

def onConnectors {α : Type} (x : ConnectorM υ α) : WorkspaceM υ ε α :=
  Service.zoom (fun w => { projects := w.db.projects, connectorConfigs := w.connectorConfigs })
    (fun part w => { w with connectorConfigs := part.connectorConfigs }) x

/-- The connector's own project, or the default project of its organization. -/
def ingestionTarget (row : ConnectorRow υ) : WorkspaceM υ ε Indexing.Target := do
  let projectId ← onDb (incidentProject row.organizationId row.projectId)
  pure ⟨row.organizationId, projectId⟩

def connectorMissing (connectorId : Uuid) : Exn :=
  notFound "Connector configuration not found." "connector_config.not_found"
    [("connector_config_id", toString connectorId)]

def ingestItem (env : Indexing.Env ε τ ω) (draw : Indexing.Draw) (connectorId : Uuid)
    (raw : RawDocument) : WorkspaceM υ ε Unit := do
  let row ← Service.read fun w => Table.get? ConnectorRow.id w.connectorConfigs connectorId
  let row ← Service.orRaise row (connectorMissing connectorId)
  let target ← ingestionTarget row
  let _ ← onDb (onContent (Indexing.processOneItem env target draw raw))

variable (env : Env ε τ ω)

def perform : Call υ → WorkspaceM υ ε Unit
  | .createIncident draw actor organizationId data => do
    let _ ← onDb (createIncident draw actor organizationId data)
  | .proposeDocument draw actor organizationId data => do
    let _ ← onDb (onContent
      (Knowledge.proposeDocument env.knowledge draw actor organizationId data))
  | .publishDocument draw actor organizationId documentId => do
    let _ ← onDb (onContent
      (Knowledge.publishDocument env.knowledge draw actor organizationId documentId))
  | .registerConnector id actor organizationId data => do
    let _ ← onConnectors (registerConnector env.encryptSecret id actor organizationId data)
  | .ingestItem draw connectorId raw => ingestItem env.indexing draw connectorId raw

/-- One call in its own transaction. -/
def respond (call : Call υ) (w : Workspace υ ε) : Workspace υ ε :=
  (Service.transaction (perform env call) w).2

def step (w : Workspace υ ε) (call : Call υ) : Option (Workspace υ ε) := some (respond env call w)

/-! ## Inside the organization -/

structure ProjectsInside (db : IncidentDb ε) : Prop where
  incidents : ∀ row ∈ db.incidents, OwnProject db.projects row.organizationId row.projectId
  documents : ∀ row ∈ db.documents, OwnProject db.projects row.organizationId row.projectId
  chunks : ∀ name, ∀ chunk ∈ db.chunks name,
    OwnProject db.projects chunk.organizationId chunk.projectId

/-- No project of another organization goes by the id. -/
def OwnOrNone (projects : List Project) (organizationId : Uuid) (named : Option Uuid) : Prop :=
  ∀ projectId ∈ named, ∀ project ∈ projects, project.id = projectId →
    project.organizationId = organizationId

instance (projects : List Project) (organizationId : Uuid) (named : Option Uuid) :
    Decidable (OwnOrNone projects organizationId named) :=
  inferInstanceAs (Decidable (∀ _ ∈ _, ∀ _ ∈ _, _ → _))

/-- The condition that two of the calls do not check themselves. -/
def Scoped (w : Workspace υ ε) : Call υ → Prop
  | .createIncident _ _ organizationId data => OwnOrNone w.db.projects organizationId data.projectId
  | .proposeDocument _ _ organizationId data => OwnOrNone w.db.projects organizationId data.projectId
  | .publishDocument .. | .registerConnector .. | .ingestItem .. => True

instance (w : Workspace υ ε) (call : Call υ) : Decidable (Scoped w call) := by
  unfold Scoped
  split <;> infer_instance

structure Inv (w : Workspace υ ε) : Prop where
  projectKeys : Table.KeyUnique Project.id w.db.projects
  connectors : ∀ row ∈ w.connectorConfigs, ∀ projectId ∈ row.projectId,
    OwnProject w.db.projects row.organizationId projectId
  inside : ProjectsInside w.db

/-! ## What each call adds -/

variable {env} {w w' : Workspace υ ε} {organizationId : Uuid}

/-- The project that was chosen belongs to the organization if the one that was named
does. -/
theorem ownProject_of_chosen {projects : List Project} {named : Option Uuid} {projectId : Uuid}
    (hchosen : Knowledge.Chosen projects organizationId named projectId)
    (hexists : ∃ project ∈ projects, project.id = projectId)
    (hscoped : OwnOrNone projects organizationId named) :
    OwnProject projects organizationId projectId := by
  rcases hchosen with rfl | ⟨-, hdefault⟩
  · obtain ⟨project, hproject, hid⟩ := hexists
    exact ⟨project, hproject, hid, hscoped projectId rfl project hproject hid⟩
  · exact hdefault

/-- And only if it does. -/
theorem ownOrNone_of_ownProject {projects : List Project} {named : Option Uuid} {projectId : Uuid}
    (hkeys : Table.KeyUnique Project.id projects)
    (hchosen : Knowledge.Chosen projects organizationId named projectId)
    (hown : OwnProject projects organizationId projectId) :
    OwnOrNone projects organizationId named := by
  intro id hid project hproject hprojectId
  obtain ⟨own, hownMem, hownId, horg⟩ := hown
  rcases hchosen with rfl | ⟨rfl, -⟩
  · obtain rfl := Option.some.inj hid
    obtain rfl := hkeys project hproject own hownMem (hprojectId.trans hownId.symm)
    exact horg
  · cases hid

theorem createIncident_adds {draw : Incidents.Draw} {actor : Identity} {data : IncidentCreate}
    {u : Unit} (h : (perform env (.createIncident draw actor organizationId data)).Returns w u w') :
    ∃ row : IncidentRow, row.organizationId = organizationId ∧
      Knowledge.Chosen w.db.projects organizationId data.projectId row.projectId ∧
      (∃ project ∈ w.db.projects, project.id = row.projectId) ∧
      w' = { w with db := { w.db with incidents := w.db.incidents ++ [row] } } := by
  simp only [perform, onDb, Service.bind_returns, Service.zoom_returns, Service.pure_returns] at h
  obtain ⟨row, _, ⟨db, hcreate, rfl⟩, -, rfl⟩ := h
  obtain ⟨-, -, -, horg, hexists, hchosen, rfl⟩ := createIncident_returns hcreate
  exact ⟨row, horg, hchosen, hexists, rfl⟩

theorem proposeDocument_adds {draw : Knowledge.Draw} {actor : Identity}
    {data : Knowledge.DocumentProposalCreate} {u : Unit}
    (h : (perform env (.proposeDocument draw actor organizationId data)).Returns w u w') :
    ∃ row : Database.Document, ∃ documentMetadata, row.organizationId = organizationId ∧
      Knowledge.Chosen w.db.projects organizationId data.projectId row.projectId ∧
      (∃ project ∈ w.db.projects, project.id = row.projectId) ∧
      w' = { w with db := { w.db with
        documents := w.db.documents ++ [row]
        documentMetadata } } := by
  simp only [perform, onDb, onContent, Service.bind_returns, Service.zoom_returns,
    Service.pure_returns] at h
  obtain ⟨document, _, ⟨_, ⟨content, hpropose, rfl⟩, rfl⟩, -, rfl⟩ := h
  obtain ⟨projectId, hchosen, hexists, -, hcontent⟩ := Knowledge.proposeDocument_returns hpropose
  refine ⟨Knowledge.proposalRow env.knowledge draw organizationId projectId data,
    content.documentMetadata, rfl, hchosen, hexists, ?_⟩
  rw [hcontent]

theorem Inv.createIncident (hi : Inv w) {row : IncidentRow}
    (hown : OwnProject w.db.projects row.organizationId row.projectId) :
    Inv { w with db := { w.db with incidents := w.db.incidents ++ [row] } } where
  projectKeys := hi.projectKeys
  connectors := hi.connectors
  inside :=
    { hi.inside with
      incidents := by
        intro other hother
        rcases List.mem_append.mp hother with hold | hnew
        · exact hi.inside.incidents other hold
        · obtain rfl := List.mem_singleton.mp hnew
          exact hown }

theorem Inv.proposeDocument (hi : Inv w) {row : Database.Document}
    {documentMetadata : List DocumentMetadata}
    (hown : OwnProject w.db.projects row.organizationId row.projectId) :
    Inv { w with db := { w.db with
      documents := w.db.documents ++ [row]
      documentMetadata } } where
  projectKeys := hi.projectKeys
  connectors := hi.connectors
  inside :=
    { hi.inside with
      documents := by
        intro other hother
        rcases List.mem_append.mp hother with hold | hnew
        · exact hi.inside.documents other hold
        · obtain rfl := List.mem_singleton.mp hnew
          exact hown }

/-- Publishing writes a chunk under the project of its document. -/
theorem Inv.publishDocument (hi : Inv w) {draw : Knowledge.Draw} {actor : Identity}
    {documentId : Uuid} {u : Unit}
    (h : (perform env (.publishDocument draw actor organizationId documentId)).Returns w u w') :
    Inv w' := by
  simp only [perform, onDb, onContent, Service.bind_returns, Service.zoom_returns,
    Service.pure_returns] at h
  obtain ⟨document, _, ⟨_, ⟨content, hpublish, rfl⟩, rfl⟩, -, rfl⟩ := h
  obtain ⟨row, hreviewed, -, hindexes⟩ := Knowledge.publishDocument_returns hpublish
  have hrow : row ∈ w.db.documents := (Table.get?_some hreviewed.found).1
  have hown : OwnProject w.db.projects organizationId row.projectId := by
    rw [← hreviewed.organization]
    exact hi.inside.documents row hrow
  have hdocuments : ∀ other ∈ (Knowledge.withDocument documentId
      (fun row => { row with status := .published }) w.db.toContentDb).documents,
      OwnProject w.db.projects other.organizationId other.projectId := by
    intro other hother
    obtain ⟨old, hold, rfl⟩ := Table.mem_updateWhere.mp hother
    have hsame := hi.inside.documents old hold
    split
    · exact hsame
    · exact hsame
  rcases hindexes with ⟨-, rfl⟩ | ⟨text, id, embedding, -, rfl⟩
  · exact ⟨hi.projectKeys, hi.connectors, hi.inside.incidents, hdocuments, hi.inside.chunks⟩
  · refine ⟨hi.projectKeys, hi.connectors, hi.inside.incidents, hdocuments, ?_⟩
    intro name chunk hchunk
    dsimp only at hchunk
    rcases PgVectorStore.mem_setChunks hchunk with ⟨-, hwritten⟩ | ⟨-, hother⟩
    · rcases PgVectorStore.mem_upsertRow hwritten with hold | ⟨_, rfl⟩
      · exact hi.inside.chunks _ chunk hold
      · exact hown
    · exact hi.inside.chunks name chunk hother

theorem Inv.registerConnector (hi : Inv w) {id : Uuid} {actor : Identity}
    {data : ConnectorConfigCreate υ} {u : Unit}
    (h : (perform env (.registerConnector id actor organizationId data)).Returns w u w') :
    Inv w' := by
  simp only [perform, onConnectors, Service.bind_returns, Service.zoom_returns,
    Service.pure_returns] at h
  obtain ⟨row, _, ⟨part, hregister, rfl⟩, -, rfl⟩ := h
  obtain ⟨-, horg, -, hown, -, -, -, rfl⟩ := registerConnector_returns hregister
  refine ⟨hi.projectKeys, ?_, hi.inside⟩
  intro other hother projectId hproject
  rcases List.mem_append.mp hother with hold | hnew
  · exact hi.connectors other hold projectId hproject
  · obtain rfl := List.mem_singleton.mp hnew
    rw [horg]
    exact hown projectId hproject

/-- Ingestion writes under the connector's project, which was checked when it was
registered, or under the default project. -/
theorem Inv.ingestItem (hi : Inv w) {draw : Indexing.Draw} {connectorId : Uuid} {raw : RawDocument}
    {u : Unit} (h : (perform env (.ingestItem draw connectorId raw)).Returns w u w') : Inv w' := by
  simp only [perform, ProjectScope.ingestItem, ingestionTarget, onDb, onContent,
    Service.bind_returns, Service.read_returns, Service.orRaise_returns, Service.zoom_returns,
    Service.pure_returns] at h
  obtain ⟨_, _, ⟨rfl, rfl⟩, row, _, ⟨hget, rfl⟩, _, _, ⟨projectId, _, ⟨_, hproject, rfl⟩, rfl, rfl⟩,
    written, _, ⟨_, ⟨content, hprocess, rfl⟩, rfl⟩, -, rfl⟩ := h
  obtain ⟨hsame, hchosen⟩ := incidentProject_returns hproject
  rw [hsame] at hprocess ⊢
  have hown : OwnProject w.db.projects row.organizationId projectId := by
    rcases hchosen with hnamed | ⟨-, hdefault⟩
    · exact hi.connectors row (Table.get?_some hget).1 projectId hnamed
    · exact hdefault
  rcases Indexing.processOneItem_returns hprocess with rfl | hingested
  · exact hi
  · obtain ⟨version, hdocuments⟩ := hingested.documents
    refine ⟨?_, ?_, ?_, ?_, ?_⟩
    · show Table.KeyUnique Project.id content.projects
      rw [hingested.projects]
      exact hi.projectKeys
    · show ∀ row ∈ w.connectorConfigs, ∀ projectId ∈ row.projectId,
        OwnProject content.projects row.organizationId projectId
      rw [hingested.projects]
      exact hi.connectors
    · show ∀ row ∈ w.db.incidents, OwnProject content.projects row.organizationId row.projectId
      rw [hingested.projects]
      exact hi.inside.incidents
    · show ∀ row ∈ content.documents, OwnProject content.projects row.organizationId row.projectId
      rw [hingested.projects, hdocuments]
      intro other hother
      rcases List.mem_append.mp hother with hold | hnew
      · exact hi.inside.documents other hold
      · obtain rfl := List.mem_singleton.mp hnew
        exact hown
    · intro name chunk hchunk
      show OwnProject content.projects chunk.organizationId chunk.projectId
      rw [hingested.projects]
      rcases hingested.chunks name chunk hchunk with hold | ⟨-, -, horg, hproject⟩
      · exact hi.inside.chunks name chunk hold
      · rw [horg, hproject]
        exact hown

/-! ## Any run -/

/-- A call that returns keeps the invariant if it meets the condition. -/
theorem inv_of_returns (hi : Inv w) {call : Call υ} {u : Unit} (hscoped : Scoped w call)
    (h : (perform env call).Returns w u w') : Inv w' := by
  cases call with
  | createIncident draw actor organizationId data =>
    obtain ⟨row, rfl, hchosen, hexists, rfl⟩ := createIncident_adds h
    exact hi.createIncident (ownProject_of_chosen hchosen hexists hscoped)
  | proposeDocument draw actor organizationId data =>
    obtain ⟨row, documentMetadata, rfl, hchosen, hexists, rfl⟩ := proposeDocument_adds h
    exact hi.proposeDocument (ownProject_of_chosen hchosen hexists hscoped)
  | publishDocument draw actor organizationId documentId => exact hi.publishDocument h
  | registerConnector id actor organizationId data => exact hi.registerConnector h
  | ingestItem draw connectorId raw => exact hi.ingestItem h

/-- And a call that returns and leaves everything inside meets it. -/
theorem scoped_of_inside (hi : Inv w) {call : Call υ} {u : Unit}
    (h : (perform env call).Returns w u w') (hinside : ProjectsInside w'.db) : Scoped w call := by
  cases call with
  | createIncident draw actor organizationId data =>
    obtain ⟨row, rfl, hchosen, -, rfl⟩ := createIncident_adds h
    have hown := hinside.incidents row (List.mem_append_right _ (List.mem_singleton_self _))
    exact ownOrNone_of_ownProject hi.projectKeys hchosen hown
  | proposeDocument draw actor organizationId data =>
    obtain ⟨row, documentMetadata, rfl, hchosen, -, rfl⟩ := proposeDocument_adds h
    have hown := hinside.documents row (List.mem_append_right _ (List.mem_singleton_self _))
    exact ownOrNone_of_ownProject hi.projectKeys hchosen hown
  | publishDocument draw actor organizationId documentId
  | registerConnector id actor organizationId data | ingestItem draw connectorId raw => trivial

theorem respond_inv (hi : Inv w) {call : Call υ} (hscoped : Scoped w call) :
    Inv (respond env call w) := by
  unfold respond
  rcases Service.transaction_cases (perform env call) w with ⟨u, w', hreturns, heq⟩ | ⟨e, -, heq⟩
  · rw [heq]
    exact inv_of_returns hi hscoped hreturns
  · rw [heq]
    exact hi

theorem run_inv (h : Run (step env) Scoped w w') (hi : Inv w) : Inv w' := by
  refine h.invariant (fun v call v' hv hscoped hstep => ?_) hi
  obtain rfl := Option.some.inj hstep
  exact respond_inv hv hscoped

/-- As long as every incident and every proposal names no project or one of its own
organization, every project reference stays inside. A call that raises changes nothing; one
that returns keeps the references inside if and only if it meets the condition. -/
theorem project_references_inside (env : Env ε τ ω) {start : Workspace υ ε} (hstart : Inv start)
    (hrun : Run (step env) Scoped start w) :
    ProjectsInside w.db ∧ ∀ call,
      (∀ e, (perform env call).Raises w e → respond env call w = w) ∧
      ((∃ e, (perform env call).Raises w e) ∨
        (ProjectsInside (respond env call w).db ↔ Scoped w call)) := by
  have hi := run_inv hrun hstart
  refine ⟨hi.inside, ?_⟩
  intro call
  rcases Service.transaction_cases (perform env call) w with ⟨u, w', hreturns, heq⟩ | ⟨e, hraises, heq⟩
  · have hrespond : respond env call w = w' := by
      unfold respond
      rw [heq]
    refine ⟨?_, .inr ?_⟩
    · intro e hraises
      unfold Service.Returns at hreturns
      unfold Service.Raises at hraises
      rw [hreturns] at hraises
      cases hraises
    · rw [hrespond]
      constructor
      · intro hinside
        exact scoped_of_inside hi hreturns hinside
      · intro hscoped
        exact (inv_of_returns hi hscoped hreturns).inside
  · have hrespond : respond env call w = w := by
      unfold respond
      rw [heq]
    exact ⟨fun _ _ => hrespond, .inl ⟨e, hraises⟩⟩

/-! ## The project of another organization -/

def plainEnv : Env (Rat × Rat) String Rat where
  knowledge := { engine := planeEngine, sha256Hexdigest := id }
  indexing :=
    { engine := planeEngine
      processors :=
        { cleanContent := id
          sha256Hexdigest := id
          chunkDocument := fun content _ => [⟨content, 0, content.length⟩] }
      limits := { ingestionMaxDocumentBytes := 1000, ingestionMaxChunksPerDocument := 10 } }
  encryptSecret := .ok

/-- Two organizations with a project each. -/
def twoOrganizations : Workspace Unit (Rat × Rat) where
  db :=
    { projects :=
        [{ id := 5, organizationId := 1, name := "Default", isDefault := true },
          { id := 6, organizationId := 2, name := "Default", isDefault := true }] }

theorem twoOrganizations_inv : Inv twoOrganizations where
  projectKeys := Table.keyUnique_of_nodup (by decide)
  connectors row hrow := by cases hrow
  inside :=
    { incidents := fun row hrow => by cases hrow
      documents := fun row hrow => by cases hrow
      chunks := fun name chunk hchunk => by cases hchunk }

/-- A member of the first organization who may report incidents anywhere in it. -/
def reporter : Identity :=
  { kind := .user, subject := "7", organizationId := 1, userId := some 7
    permissions := {"incident:write"} }

def report (projectId : Uuid) : Call Unit :=
  .createIncident { incidentId := 100, now := 3 } reporter 1
    { title := "Outage", description := "Checkout fails", severity := "critical"
      projectId := some projectId }

/-- A member of the second organization names no project. -/
def reportElsewhere : Call Unit :=
  .createIncident { incidentId := 101, now := 4 }
    { reporter with subject := "8", organizationId := 2, userId := some 8 } 2
    { title := "Outage", description := "Search fails", severity := "high" }

theorem project_references_inside_own :
    ∃ w : Workspace Unit (Rat × Rat), w.db.incidents.map (fun row => row.projectId) = [5, 6] ∧
      ProjectsInside w.db := by
  have hreplay : (execWithin (step plainEnv) Scoped twoOrganizations [report 5, reportElsewhere]).any
      (fun w => decide (w.db.incidents.map (fun row => row.projectId) = [5, 6])) = true := by
    decide +kernel
  obtain ⟨w, hrun, hincidents⟩ := exists_of_execWithin hreplay
  exact ⟨w, hincidents, (project_references_inside plainEnv twoOrganizations_inv hrun).1⟩

/-- The permission on a project that the actor has no entry for is the one on the
organization, so the project of another one is accepted. -/
theorem foreign_project_accepted :
    ∃ w, Run (step plainEnv) anyStep twoOrganizations w ∧ ¬ ProjectsInside w.db := by
  obtain ⟨w, hexec, hprojects, hincidents⟩ : ∃ w,
      exec (step plainEnv) twoOrganizations [report 6] = some w ∧
        w.db.projects = twoOrganizations.db.projects ∧
        w.db.incidents.map (fun row => (row.organizationId, row.projectId)) = [(1, 6)] :=
    exists_of_exec (by decide +kernel)
  refine ⟨w, run_of_exec hexec, ?_⟩
  intro hinside
  obtain ⟨row, hrow, heq⟩ := List.mem_map.mp (hincidents ▸ List.mem_singleton_self (1, 6))
  have hown := hinside.incidents row hrow
  have horg : row.organizationId = 1 := congrArg Prod.fst heq
  have hproject : row.projectId = 6 := congrArg Prod.snd heq
  rw [hprojects, horg, hproject] at hown
  exact absurd hown (by decide)

end Ekip.Core.Tenancy.ProjectScope
