import Ekip.Core.Tenancy.Provisioning

/-!
# Connector configurations: `core/tenancy/repository.py`

The row of one connector, and the two narrow mutations that ingestion makes. The
JSON column `config` holds what the operator supplied and two keys that belong to
the worker, `_resume_token` and `_ingestion_checkpoint`.
-/
namespace Ekip.Core.Tenancy

open Ekip.Database

inductive ConnectorStatus
  | connecting
  | active
  | error
  | disconnected
deriving DecidableEq

variable {υ τ γ : Type}

structure Config (υ τ γ : Type) where
  operator : υ
  resumeToken : Option τ := none
  ingestionCheckpoint : Option γ := none
deriving DecidableEq

/-- The keys that a patch names; the checkpoint may be overwritten with `null`. -/
structure ConfigPatch (τ γ : Type) where
  resumeToken : Option τ := none
  ingestionCheckpoint : Option (Option γ) := none

/-- `{**config, **config_patch}`. -/
def Config.merge (config : Config υ τ γ) (configPatch : ConfigPatch τ γ) : Config υ τ γ :=
  { config with
    resumeToken := configPatch.resumeToken.or config.resumeToken
    ingestionCheckpoint := configPatch.ingestionCheckpoint.getD config.ingestionCheckpoint }

structure ConnectorConfig (υ τ γ : Type) where
  source : String
  status : ConnectorStatus := .connecting
  lastSyncedAt : Option Instant := none
  config : Config υ τ γ
deriving DecidableEq

namespace ConnectorConfig

variable (row : ConnectorConfig υ τ γ)

/-- A disconnected connector stays disconnected. -/
def updateConnectorConfigSyncStatus (status : ConnectorStatus)
    (lastSyncedAt : Option Instant) (configPatch : Option (ConfigPatch τ γ)) :
    ConnectorConfig υ τ γ :=
  if row.status = .disconnected ∧ status ≠ .disconnected then row
  else
    { row with
      status
      lastSyncedAt := lastSyncedAt.or row.lastSyncedAt
      config := configPatch.elim row.config row.config.merge }

def patchConnectorConfigIngestionCheckpoint (configPatch : ConfigPatch τ γ) :
    ConnectorConfig υ τ γ :=
  if row.status = .disconnected then row
  else { row with config := row.config.merge configPatch }

variable {row} {status : ConnectorStatus} {lastSyncedAt : Option Instant}

theorem updateConnectorConfigSyncStatus_of_connected {configPatch : Option (ConfigPatch τ γ)}
    (h : row.status ≠ .disconnected) :
    row.updateConnectorConfigSyncStatus status lastSyncedAt configPatch =
      { row with
        status
        lastSyncedAt := lastSyncedAt.or row.lastSyncedAt
        config := configPatch.elim row.config row.config.merge } := by
  unfold updateConnectorConfigSyncStatus
  rw [if_neg fun hboth => h hboth.1]

theorem patchConnectorConfigIngestionCheckpoint_of_connected {configPatch : ConfigPatch τ γ}
    (h : row.status ≠ .disconnected) :
    row.patchConnectorConfigIngestionCheckpoint configPatch =
      { row with config := row.config.merge configPatch } := by
  unfold patchConnectorConfigIngestionCheckpoint
  rw [if_neg h]

end ConnectorConfig

end Ekip.Core.Tenancy

/-!
## Registering a connector: `core/tenancy/service.py`

The settings of a source are a value of `υ`; what encrypts a credential is a
parameter.
-/
namespace Ekip.Core.Tenancy

open Ekip.Lib Ekip.Database Ekip.Shared Ekip.Core

inductive ConnectorSource
  | slack
  | teams
  | github
  | azureDevops
  | jira
  | confluence
  | sharepoint
  | runbooks
  | googleDrive
  | gitlab
  | notion
  | servicenow
  | pagerduty
  | monitoring
  | incidents
deriving DecidableEq

variable {υ : Type}

structure ConnectorRow (υ : Type) where
  id : Uuid
  organizationId : Uuid
  /-- Unset for a connector of the whole organization. -/
  projectId : Option Uuid
  source : ConnectorSource
  credentialRef : String
  config : υ
deriving DecidableEq

structure ConnectorConfigCreate (υ : Type) where
  source : ConnectorSource
  credentialRef : String
  projectId : Option Uuid := none
  config : υ

/-- What registering a connector reads and writes. -/
structure ConnectorDb (υ : Type) where
  projects : List Project := []
  connectorConfigs : List (ConnectorRow υ) := []

abbrev ConnectorM (υ α : Type) := Service Exn (ConnectorDb υ) α

def invalidProject (organizationId projectId : Uuid) : Exn :=
  validation "project_id does not belong to this organization." "connector_config.invalid_project"
    [("organization_id", toString organizationId), ("project_id", toString projectId)]

def requireManage (actor : Identity) (projectId : Option Uuid) : ConnectorM υ Unit :=
  Service.raiseIf (!Users.authorize actor managePermission projectId)
    (permissionDenied "You do not have permission to perform this action." "permission_denied"
      [("required_permission", managePermission)])

/-- The project of the request is one of the organization. -/
def requireOwnProject (organizationId projectId : Uuid) : ConnectorM υ Unit := do
  let projectRow ← Service.read fun db => Table.get? Project.id db.projects projectId
  Service.raiseIf (projectRow.all fun project => project.organizationId ≠ organizationId)
    (invalidProject organizationId projectId)

/-- The permission is asked for on the project of the connector, if it has one. -/
def requireScope (actor : Identity) (organizationId : Uuid) : Option Uuid → ConnectorM υ Unit
  | some projectId => do
    requireOwnProject organizationId projectId
    requireManage actor (some projectId)
  | none => requireManage actor none

def insertConnectorConfig (row : ConnectorRow υ) : ConnectorM υ (ConnectorRow υ) := do
  let configs ← Service.read ConnectorDb.connectorConfigs
  Service.raiseIf (configs.any fun other => other.id = row.id)
    (.integrityError "connector_configs_pkey")
  Service.write fun db => { db with connectorConfigs := db.connectorConfigs ++ [row] }
  pure row

/-- `id` is drawn by the database. -/
def registerConnector (encryptSecret : String → Except Exn String) (id : Uuid) (actor : Identity)
    (organizationId : Uuid) (data : ConnectorConfigCreate υ) : ConnectorM υ (ConnectorRow υ) := do
  Service.raiseIf (actor.organizationId ≠ organizationId)
    (permissionDenied "Cannot access another organization's data."
      "tenancy.cross_organization_denied" [("organization_id", toString organizationId)])
  requireScope actor organizationId data.projectId
  let credentialRef ← Service.ofExcept (encryptSecret data.credentialRef)
  insertConnectorConfig
    { id
      organizationId
      projectId := data.projectId
      source := data.source
      credentialRef
      config := data.config }

/-! ## What the operation returns -/

variable {db db' : ConnectorDb υ} {organizationId : Uuid}

/-- A project of the organization. -/
def OwnProject (projects : List Project) (organizationId projectId : Uuid) : Prop :=
  ∃ project ∈ projects, project.id = projectId ∧ project.organizationId = organizationId

instance (projects : List Project) (organizationId projectId : Uuid) :
    Decidable (OwnProject projects organizationId projectId) :=
  inferInstanceAs (Decidable (∃ _ ∈ _, _ ∧ _))

theorem requireOwnProject_returns {projectId : Uuid} {u : Unit}
    (h : (requireOwnProject organizationId projectId).Returns db u db') :
    db' = db ∧ OwnProject db.projects organizationId projectId := by
  simp only [requireOwnProject, Service.bind_returns, Service.read_returns,
    Service.raiseIf_returns] at h
  obtain ⟨_, _, ⟨rfl, rfl⟩, hfound, rfl⟩ := h
  refine ⟨rfl, ?_⟩
  cases hget : Table.get? Project.id db.projects projectId with
  | none =>
    rw [hget] at hfound
    cases hfound
  | some project =>
    rw [hget] at hfound
    obtain ⟨hmem, hid⟩ := Table.get?_some hget
    exact ⟨project, hmem, hid, by simpa using hfound⟩

theorem requireScope_returns {actor : Identity} {named : Option Uuid} {u : Unit}
    (h : (requireScope actor organizationId named).Returns db u db') :
    db' = db ∧ ∀ projectId ∈ named, OwnProject db.projects organizationId projectId := by
  cases named with
  | none =>
    obtain ⟨-, rfl⟩ := Service.raiseIf_returns.mp h
    exact ⟨rfl, fun projectId hmem => by cases hmem⟩
  | some projectId =>
    obtain ⟨_, _, hown, hmanage⟩ := Service.bind_returns.mp h
    obtain ⟨rfl, hproject⟩ := requireOwnProject_returns hown
    obtain ⟨-, rfl⟩ := Service.raiseIf_returns.mp hmanage
    refine ⟨rfl, ?_⟩
    intro other hother
    obtain rfl := Option.some.inj hother
    exact hproject

/-- A connector is added, under a project of its organization if it has one. -/
theorem registerConnector_returns {encryptSecret : String → Except Exn String} {id : Uuid}
    {actor : Identity} {data : ConnectorConfigCreate υ} {row : ConnectorRow υ}
    (h : (registerConnector encryptSecret id actor organizationId data).Returns db row db') :
    row.id = id ∧ row.organizationId = organizationId ∧ actor.organizationId = organizationId ∧
      (∀ projectId ∈ row.projectId, OwnProject db.projects organizationId projectId) ∧
      row.config = data.config ∧ row.source = data.source ∧
      (∀ other ∈ db.connectorConfigs, other.id ≠ id) ∧
      db' = { db with connectorConfigs := db.connectorConfigs ++ [row] } := by
  simp only [registerConnector, insertConnectorConfig, Service.bind_returns,
    Service.raiseIf_returns, Service.ofExcept_returns, Service.read_returns, Service.write_returns,
    Service.pure_returns] at h
  obtain ⟨_, _, ⟨hactor, rfl⟩, _, middle, hscope, credentialRef, _, ⟨-, rfl⟩, _, _, ⟨rfl, rfl⟩, _,
    _, ⟨hfresh, rfl⟩, _, _, rfl, rfl, rfl⟩ := h
  obtain ⟨rfl, hown⟩ := requireScope_returns hscope
  refine ⟨rfl, rfl, by simpa using hactor, hown, rfl, rfl, ?_, rfl⟩
  intro other hother
  simpa using List.any_eq_false.mp hfresh other hother

end Ekip.Core.Tenancy
