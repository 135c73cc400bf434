import Ekip.Core.Auth.Service
import Ekip.Core.Privacy.Repository

/-!
# `core/privacy/service.py`: data-subject deletion

The rationales of a plan and the audit record of a run are left out. A step may
raise for a reason of its own, such as a constraint: `outage` names the steps
that do, with what they raise. Such a step has no effect.
-/
namespace Ekip.Core.Privacy

open Ekip.Lib Ekip.Database Ekip.Shared Ekip.Core

def managePermission : String := "tenancy:manage"

inductive DataAction
  | hardDelete
  | anonymize
  | retain

inductive DeletionStatus
  | completed
  | partiallyCompleted
  | failed

inductive DeletionScope
  | userData
  | userAccount
  | organization
deriving DecidableEq

def DeletionScope.value : DeletionScope → String
  | userData => "user_data"
  | userAccount => "user_account"
  | organization => "organization"

inductive Category
  | sessions
  | organizationRoles
  | projectMemberships
  | ssoIdentityLinks
  | agentExecutionHistory
  | userPrivateMemory
  | invitationsReceived
  | userRecord
  | incidentsReported
  | auditTrail
  | organizationKnowledge
deriving DecidableEq

structure PlannedStep where
  category : Category
  action : DataAction
  table : String
  count : Option Nat

structure DeletionPlan where
  scope : DeletionScope
  targetUserId : Uuid
  organizationId : Uuid
  steps : List PlannedStep

structure StepResult where
  category : Category
  action : DataAction
  succeeded : Bool
  rowsAffected : Nat := 0
  error : Option Exn := none

structure DeletionResult where
  scope : DeletionScope
  targetUserId : Uuid
  organizationId : Uuid
  status : DeletionStatus
  steps : List StepResult
  executedAt : Instant
  wasNoop : Bool

/-- The steps of a run that raise. -/
abbrev Outage := Category → Option Exn

variable {ε : Type}

def assertScopeSupported (scope : DeletionScope) : PrivacyM ε Unit :=
  Service.raiseIf (scope ≠ .userData)
    (validation s!"Deletion scope '{scope.value}' is not implemented."
      "privacy.scope_not_implemented"
      [("scope", scope.value), ("supported", "['user_data']"),
        ("reason", "See docs/DATA_LIFECYCLE.md -- organization deletion requires a " ++
          "product decision on knowledge ownership plus background execution, " ++
          "and user_account deletion requires deciding whether the users row " ++
          "may be removed given its RESTRICT foreign keys.")])

/-- What a run would do, with the number of rows that each step would touch. -/
def plannedSteps (db : PrivacyDb ε) (userId organizationId : Uuid) : List PlannedStep :=
  [ { category := .sessions, action := .hardDelete, table := "refresh_tokens"
      count := some (db.refreshTokens.countP
        (Repository.refreshTokenClause userId organizationId)) },
    { category := .organizationRoles, action := .hardDelete, table := "user_roles"
      count := some (db.userRoles.countP (Repository.userRoleClause userId organizationId)) },
    { category := .projectMemberships, action := .hardDelete, table := "project_memberships"
      count := some (db.projectMemberships.countP
        (Repository.projectMembershipClause userId organizationId db.toDb)) },
    { category := .ssoIdentityLinks, action := .hardDelete, table := "external_identity_mappings"
      count := some (db.externalIdentityMappings.countP
        (Repository.externalIdentityMappingClause userId organizationId)) },
    { category := .agentExecutionHistory, action := .anonymize, table := "agent_executions"
      count := some (db.agentExecutions.countP
        (Repository.agentExecutionClause userId organizationId)) },
    { category := .userPrivateMemory, action := .hardDelete, table := "agent_memories"
      count := some (db.agentMemories.countP
        (Repository.userScopedClause userId organizationId)) },
    { category := .invitationsReceived, action := .anonymize, table := "invitations"
      count := some (((Repository.getUserEmail db.toDb userId).map fun email =>
        db.invitations.countP (Repository.invitationClause organizationId email)).getD 0) },
    { category := .userRecord, action := .anonymize, table := "users", count := some 1 },
    { category := .incidentsReported, action := .retain, table := "incidents"
      count := some (db.incidents.countP (Repository.incidentClause userId organizationId)) },
    { category := .auditTrail, action := .retain, table := "audit_logs", count := none },
    { category := .organizationKnowledge, action := .retain
      table := "documents / *_chunks / connector_configs", count := none } ]

def planUserDataDeletion (actor : Identity) (userId : Uuid)
    (scope : DeletionScope := .userData) : PrivacyM ε DeletionPlan := do
  assertScopeSupported scope
  onIdentityTables (Users.requirePermission actor managePermission)
  let user ← Service.read fun db => Repository.getUser db.toDb userId
  Service.raiseIf user.isNone
    (notFound "No such user." "privacy.user_not_found" [("user_id", toString userId)])
  let steps ← Service.read fun db => plannedSteps db userId actor.organizationId
  pure { scope, targetUserId := userId, organizationId := actor.organizationId, steps }

/-- `_run`: what a step raises is recorded and goes no further. -/
def run (outage : Outage) (category : Category) (action : DataAction) (step : PrivacyM ε Nat) :
    PrivacyM ε StepResult := fun db =>
  match outage category with
  | some e => (.ok { category, action, succeeded := false, error := some e }, db)
  | none =>
    match step db with
    | (.ok rows, db') => (.ok { category, action, succeeded := true, rowsAffected := rows }, db')
    | (.error e, db') => (.ok { category, action, succeeded := false, error := some e }, db')

def revokeThenDeleteSessions (now : Instant) (userId organizationId : Uuid) :
    PrivacyM ε Nat := do
  let _ ← onIdentityTables (Auth.revokeAllSessions now userId organizationId)
  Repository.deleteRefreshTokens userId organizationId

/-- Without an address there is nothing to look for, which counts as success. -/
def runInvitations (outage : Outage) (userId organizationId : Uuid) :
    Option String → PrivacyM ε StepResult
  | some email =>
    run outage .invitationsReceived .anonymize
      (Repository.anonymizeInvitationsForEmail email organizationId
        (Repository.anonymizedEmailFor userId))
  | none =>
    pure { category := .invitationsReceived, action := .anonymize, succeeded := true }

def deriveStatus (steps : List StepResult) : DeletionStatus :=
  if steps.all StepResult.succeeded then .completed
  else if steps.any StepResult.succeeded then .partiallyCompleted
  else .failed

/-- The eight steps, in order. -/
def runSteps (outage : Outage) (now : Instant) (userId organizationId : Uuid)
    (email : Option String) : PrivacyM ε (List StepResult) := do
  let sessions ← run outage .sessions .hardDelete
    (revokeThenDeleteSessions now userId organizationId)
  let roles ← run outage .organizationRoles .hardDelete
    (Repository.deleteUserRoles userId organizationId)
  let memberships ← run outage .projectMemberships .hardDelete
    (Repository.deleteProjectMemberships userId organizationId)
  let links ← run outage .ssoIdentityLinks .hardDelete
    (Repository.deleteExternalIdentityMappings userId organizationId)
  let executions ← run outage .agentExecutionHistory .anonymize
    (Repository.anonymizeAgentExecutions userId organizationId)
  let memories ← run outage .userPrivateMemory .hardDelete
    (Repository.hardDeleteUserScoped userId organizationId)
  let invitations ← runInvitations outage userId organizationId email
  let record ← run outage .userRecord .anonymize (Repository.anonymizeUserRecord userId)
  pure [sessions, roles, memberships, links, executions, memories, invitations, record]

def executeUserDataDeletion (outage : Outage) (now : Instant) (actor : Identity) (userId : Uuid)
    (scope : DeletionScope := .userData) : PrivacyM ε DeletionResult := do
  assertScopeSupported scope
  let _ ← planUserDataDeletion actor userId scope
  let alreadyAnonymized ← Service.read fun db => Repository.isUserAnonymized db.toDb userId
  let email ← Service.read fun db => Repository.getUserEmail db.toDb userId
  let steps ← runSteps outage now userId actor.organizationId email
  pure
    { scope
      targetUserId := userId
      organizationId := actor.organizationId
      status := deriveStatus steps
      steps
      executedAt := now
      wasNoop := alreadyAnonymized }

theorem deriveStatus_eq_completed {steps : List StepResult} :
    deriveStatus steps = .completed ↔ ∀ step ∈ steps, step.succeeded = true := by
  unfold deriveStatus
  by_cases hall : steps.all StepResult.succeeded = true
  · rw [if_pos hall]
    exact ⟨fun _ => List.all_eq_true.mp hall, fun _ => rfl⟩
  · rw [if_neg hall]
    constructor
    · intro hstatus
      split at hstatus <;> cases hstatus
    · intro hsteps
      exact absurd (List.all_eq_true.mpr hsteps) hall

/-! ## What a run does -/

section Steps

variable {outage : Outage} {now : Instant} {userId organizationId : Uuid} {db : PrivacyDb ε}

/-- The record of a step that can only raise by an outage. -/
def stepResult (outage : Outage) (category : Category) (action : DataAction) (rows : Nat) :
    StepResult :=
  match outage category with
  | some e => { category, action, succeeded := false, error := some e }
  | none => { category, action, succeeded := true, rowsAffected := rows }

@[simp] theorem stepResult_succeeded (category : Category) (action : DataAction) (rows : Nat) :
    (stepResult outage category action rows).succeeded = (outage category).isNone := by
  unfold stepResult
  cases outage category <;> rfl

/-- The value that a step leaves: the old one if it raises. -/
def settled {β : Type} (outage : Outage) (category : Category) (old new : β) : β :=
  if (outage category).isSome then old else new

theorem settled_or {β : Type} (outage : Outage) (category : Category) (old new : β) :
    settled outage category old new = old ∨
      (outage category = none ∧ settled outage category old new = new) := by
  unfold settled
  cases houtage : outage category with
  | some e => exact .inl rfl
  | none => exact .inr ⟨rfl, rfl⟩

theorem settled_self {β : Type} {category : Category} {old new : β} (h : new = old) :
    settled outage category old new = old := by
  rcases settled_or outage category old new with hold | ⟨_, hnew⟩
  · exact hold
  · rw [hnew, h]

theorem settled_of_none {β : Type} {category : Category} {old new : β}
    (h : outage category = none) : settled outage category old new = new := by
  unfold settled
  rw [h]
  rfl

/-- A step that writes one table. -/
theorem run_eq {β : Type} {category : Category} {action : DataAction} {step : PrivacyM ε Nat}
    {rows : Nat} (put : β → PrivacyDb ε) {old new : β} (hold : put old = db)
    (hstep : step db = (.ok rows, put new)) :
    run outage category action step db =
      (.ok (stepResult outage category action rows), put (settled outage category old new)) := by
  unfold run stepResult settled
  cases outage category with
  | some e => simp [hold]
  | none => simp [hstep]

/-- The rows that are not the person's in the organization. -/
def keptTokens (userId organizationId : Uuid) (rows : List RefreshToken) : List RefreshToken :=
  rows.filter fun row => !Repository.refreshTokenClause userId organizationId row

/-- Revoking first changes only rows that are deleted next. -/
theorem keptTokens_revoke (rows : List RefreshToken) :
    keptTokens userId organizationId (Table.updateWhere rows
      (Auth.Repository.activeForUser userId organizationId) (fun row => row.revoke now)) =
      keptTokens userId organizationId rows := by
  induction rows with
  | nil => rfl
  | cons row rows ih =>
    unfold keptTokens Table.updateWhere at ih ⊢
    rw [List.map_cons, List.filter_cons, List.filter_cons, ih]
    by_cases hactive : Auth.Repository.activeForUser userId organizationId row = true
    · have hclause : Repository.refreshTokenClause userId organizationId row = true := by
        have hboth : row.userId = userId ∧ row.organizationId = organizationId ∧
            row.revokedAt = none := by
          simpa [Auth.Repository.activeForUser] using hactive
        simp [Repository.refreshTokenClause, hboth.1, hboth.2.1]
      have hrevoked : Repository.refreshTokenClause userId organizationId (row.revoke now) =
          true := hclause
      rw [if_pos hactive, hrevoked, hclause]
      rfl
    · rw [if_neg hactive]

/-- The rows that the deletion finds after the revocation. -/
def sessionRows (now : Instant) (userId organizationId : Uuid) (rows : List RefreshToken) : Nat :=
  (Table.updateWhere rows (Auth.Repository.activeForUser userId organizationId)
    (fun row => row.revoke now)).countP (Repository.refreshTokenClause userId organizationId)

theorem revokeThenDeleteSessions_eq :
    revokeThenDeleteSessions now userId organizationId db =
      (.ok (sessionRows now userId organizationId db.refreshTokens),
        { db with refreshTokens := keptTokens userId organizationId db.refreshTokens }) := by
  have hrows : keptTokens userId organizationId (Table.updateWhere db.refreshTokens
      (Auth.Repository.activeForUser userId organizationId) (fun row => row.revoke now)) =
      keptTokens userId organizationId db.refreshTokens := keptTokens_revoke _
  rw [← hrows]
  rfl

variable (outage now userId organizationId db)

theorem run_sessions :
    run outage .sessions .hardDelete (revokeThenDeleteSessions now userId organizationId) db =
      (.ok (stepResult outage .sessions .hardDelete
          (sessionRows now userId organizationId db.refreshTokens)),
        { db with
          refreshTokens := settled outage .sessions db.refreshTokens
            (keptTokens userId organizationId db.refreshTokens) }) :=
  run_eq (fun rows => { db with refreshTokens := rows }) rfl revokeThenDeleteSessions_eq

theorem run_roles :
    run outage .organizationRoles .hardDelete
        (Repository.deleteUserRoles userId organizationId) db =
      (.ok (stepResult outage .organizationRoles .hardDelete
          (db.userRoles.countP (Repository.userRoleClause userId organizationId))),
        { db with
          userRoles := settled outage .organizationRoles db.userRoles
            (db.userRoles.filter fun row =>
              !Repository.userRoleClause userId organizationId row) }) :=
  run_eq (fun rows => { db with userRoles := rows }) rfl rfl

theorem run_memberships :
    run outage .projectMemberships .hardDelete
        (Repository.deleteProjectMemberships userId organizationId) db =
      (.ok (stepResult outage .projectMemberships .hardDelete
          (db.projectMemberships.countP
            (Repository.projectMembershipClause userId organizationId db.toDb))),
        { db with
          projectMemberships := settled outage .projectMemberships db.projectMemberships
            (db.projectMemberships.filter fun row =>
              !Repository.projectMembershipClause userId organizationId db.toDb row) }) :=
  run_eq (fun rows => { db with projectMemberships := rows }) rfl rfl

theorem run_links :
    run outage .ssoIdentityLinks .hardDelete
        (Repository.deleteExternalIdentityMappings userId organizationId) db =
      (.ok (stepResult outage .ssoIdentityLinks .hardDelete
          (db.externalIdentityMappings.countP
            (Repository.externalIdentityMappingClause userId organizationId))),
        { db with
          externalIdentityMappings := settled outage .ssoIdentityLinks db.externalIdentityMappings
            (db.externalIdentityMappings.filter fun row =>
              !Repository.externalIdentityMappingClause userId organizationId row) }) :=
  run_eq (fun rows => { db with externalIdentityMappings := rows }) rfl rfl

theorem run_executions :
    run outage .agentExecutionHistory .anonymize
        (Repository.anonymizeAgentExecutions userId organizationId) db =
      (.ok (stepResult outage .agentExecutionHistory .anonymize
          (db.agentExecutions.countP (Repository.agentExecutionClause userId organizationId))),
        { db with
          agentExecutions := settled outage .agentExecutionHistory db.agentExecutions
            (Table.updateWhere db.agentExecutions
              (Repository.agentExecutionClause userId organizationId)
              (fun row => { row with userId := none })) }) :=
  run_eq (fun rows => { db with agentExecutions := rows }) rfl rfl

theorem run_memories :
    run outage .userPrivateMemory .hardDelete
        (Repository.hardDeleteUserScoped userId organizationId) db =
      (.ok (stepResult outage .userPrivateMemory .hardDelete
          (db.agentMemories.countP (Repository.userScopedClause userId organizationId))),
        { db with
          agentMemories := settled outage .userPrivateMemory db.agentMemories
            (db.agentMemories.filter fun row =>
              !Repository.userScopedClause userId organizationId row) }) :=
  run_eq (fun rows => { db with agentMemories := rows }) rfl rfl

theorem run_record :
    run outage .userRecord .anonymize (Repository.anonymizeUserRecord userId) db =
      (.ok (stepResult outage .userRecord .anonymize
          (db.users.countP fun user => user.id = userId)),
        { db with
          users := settled outage .userRecord db.users
            (Table.updateWhere db.users (fun user => user.id = userId)
              Repository.anonymized) }) :=
  run_eq (fun rows => { db with users := rows }) rfl rfl

/-- The invitations after their step. -/
def keptInvitations (email : Option String) (rows : List Invitation) : List Invitation :=
  match email with
  | none => rows
  | some email => settled outage .invitationsReceived rows
      (Table.updateWhere rows (Repository.invitationClause organizationId email)
        (fun row => { row with email := Repository.anonymizedEmailFor userId }))

theorem run_invitations (email : Option String) :
    ∃ result, runInvitations outage userId organizationId email db =
        (.ok result, { db with
          invitations := keptInvitations outage userId organizationId email db.invitations }) ∧
      (result.succeeded = true ↔ (email ≠ none → outage .invitationsReceived = none)) := by
  cases email with
  | none => exact ⟨_, rfl, by simp⟩
  | some email =>
    have hrun : run outage .invitationsReceived .anonymize
        (Repository.anonymizeInvitationsForEmail email organizationId
          (Repository.anonymizedEmailFor userId)) db =
        (.ok (stepResult outage .invitationsReceived .anonymize
            (db.invitations.countP (Repository.invitationClause organizationId email))),
          { db with
            invitations :=
              keptInvitations outage userId organizationId (some email) db.invitations }) :=
      run_eq (fun rows => { db with invitations := rows }) rfl rfl
    exact ⟨_, hrun, by simp⟩

/-- The database after the eight steps. -/
def erased (email : Option String) : PrivacyDb ε :=
  { db with
    refreshTokens := settled outage .sessions db.refreshTokens
      (keptTokens userId organizationId db.refreshTokens)
    userRoles := settled outage .organizationRoles db.userRoles
      (db.userRoles.filter fun row => !Repository.userRoleClause userId organizationId row)
    projectMemberships := settled outage .projectMemberships db.projectMemberships
      (db.projectMemberships.filter fun row =>
        !Repository.projectMembershipClause userId organizationId db.toDb row)
    externalIdentityMappings := settled outage .ssoIdentityLinks db.externalIdentityMappings
      (db.externalIdentityMappings.filter fun row =>
        !Repository.externalIdentityMappingClause userId organizationId row)
    agentExecutions := settled outage .agentExecutionHistory db.agentExecutions
      (Table.updateWhere db.agentExecutions (Repository.agentExecutionClause userId organizationId)
        (fun row => { row with userId := none }))
    agentMemories := settled outage .userPrivateMemory db.agentMemories
      (db.agentMemories.filter fun row => !Repository.userScopedClause userId organizationId row)
    invitations := keptInvitations outage userId organizationId email db.invitations
    users := settled outage .userRecord db.users
      (Table.updateWhere db.users (fun user => user.id = userId) Repository.anonymized) }

/-- No step raises; without an address that of the invitations cannot. -/
structure Succeeds (email : Option String) : Prop where
  sessions : outage .sessions = none
  roles : outage .organizationRoles = none
  memberships : outage .projectMemberships = none
  links : outage .ssoIdentityLinks = none
  executions : outage .agentExecutionHistory = none
  memories : outage .userPrivateMemory = none
  invitations : email ≠ none → outage .invitationsReceived = none
  record : outage .userRecord = none

theorem runSteps_eq (email : Option String) :
    ∃ steps, runSteps outage now userId organizationId email db =
        (.ok steps, erased outage userId organizationId db email) ∧
      (deriveStatus steps = .completed ↔ Succeeds outage email) := by
  unfold runSteps
  rw [Service.bind_of_ok (run_sessions _ _ _ _ _), Service.bind_of_ok (run_roles _ _ _ _),
    Service.bind_of_ok (run_memberships _ _ _ _), Service.bind_of_ok (run_links _ _ _ _),
    Service.bind_of_ok (run_executions _ _ _ _), Service.bind_of_ok (run_memories _ _ _ _)]
  obtain ⟨invitations, hrun, hsucceeded⟩ := run_invitations outage userId organizationId _ email
  rw [Service.bind_of_ok hrun, Service.bind_of_ok (run_record _ _ _)]
  refine ⟨_, rfl, ?_⟩
  rw [deriveStatus_eq_completed]
  simp only [List.mem_cons, List.not_mem_nil, or_false, forall_eq_or_imp, forall_eq,
    stepResult_succeeded, hsucceeded, Option.isNone_iff_eq_none]
  constructor
  · intro ⟨hsessions, hroles, hmemberships, hlinks, hexecutions, hmemories, hinvitations, hrecord⟩
    exact ⟨hsessions, hroles, hmemberships, hlinks, hexecutions, hmemories, hinvitations, hrecord⟩
  · intro h
    exact ⟨h.sessions, h.roles, h.memberships, h.links, h.executions, h.memories, h.invitations,
      h.record⟩

/-- What a run asks before its first step. -/
structure Permitted (db : PrivacyDb ε) (actor : Identity) (userId : Uuid) (scope : DeletionScope) :
    Prop where
  scope : scope = .userData
  permission : Users.authorize actor managePermission = true
  account : (Repository.getUser db.toDb userId).isSome = true

variable (actor : Identity) (scope : DeletionScope)

/-- Planning reads only. -/
theorem plan_of_permitted (h : Permitted db actor userId scope) :
    ∃ plan, planUserDataDeletion actor userId scope db = (.ok plan, db) := by
  have hscope : assertScopeSupported (ε := ε) scope db = (.ok (), db) :=
    Service.raiseIf_of_false (by simp [h.scope])
  have hpermission : onIdentityTables (Users.requirePermission actor managePermission) db =
      (.ok (), db) := by
    unfold onIdentityTables Users.requirePermission
    rw [Service.raiseIf_of_false (by simp [h.permission])]
  have haccount : (Repository.getUser db.toDb userId).isNone = false := by
    simp [Option.isNone_eq_false_iff, h.account]
  unfold planUserDataDeletion
  rw [Service.bind_of_ok hscope, Service.bind_of_ok hpermission, Service.bind_read,
    Service.bind_of_ok (Service.raiseIf_of_false haccount), Service.bind_read]
  exact ⟨_, rfl⟩

theorem plan_of_not_permitted (hscope : scope = .userData) (h : ¬ Permitted db actor userId scope) :
    ∃ e, planUserDataDeletion actor userId scope db = (.error e, db) := by
  have hsupported : assertScopeSupported (ε := ε) scope db = (.ok (), db) :=
    Service.raiseIf_of_false (by simp [hscope])
  unfold planUserDataDeletion
  rw [Service.bind_of_ok hsupported]
  by_cases hpermission : Users.authorize actor managePermission = true
  · have haccount : (Repository.getUser db.toDb userId).isNone = true := by
      by_contra hsome
      exact h ⟨hscope, hpermission, by simpa [Option.isSome_iff_ne_none] using hsome⟩
    have hallowed : onIdentityTables (Users.requirePermission actor managePermission) db =
        (.ok (), db) := by
      unfold onIdentityTables Users.requirePermission
      rw [Service.raiseIf_of_false (by simp [hpermission])]
    rw [Service.bind_of_ok hallowed, Service.bind_read]
    exact ⟨_, Service.bind_of_error (Service.raiseIf_of_true haccount)⟩
  · have hdenied : ∃ e, onIdentityTables (Users.requirePermission actor managePermission) db =
        (.error e, db) := by
      unfold onIdentityTables Users.requirePermission
      rw [Service.raiseIf_of_true (by simpa using hpermission)]
      exact ⟨_, rfl⟩
    obtain ⟨e, hdenied⟩ := hdenied
    exact ⟨e, Service.bind_of_error hdenied⟩

theorem execute_of_permitted (h : Permitted db actor userId scope) :
    ∃ result, executeUserDataDeletion outage now actor userId scope db =
        (.ok result, erased outage userId actor.organizationId db
          (Repository.getUserEmail db.toDb userId)) ∧
      (result.status = .completed ↔
        Succeeds outage (Repository.getUserEmail db.toDb userId)) := by
  have hscope : assertScopeSupported (ε := ε) scope db = (.ok (), db) :=
    Service.raiseIf_of_false (by simp [h.scope])
  obtain ⟨plan, hplan⟩ := plan_of_permitted userId db actor scope h
  obtain ⟨steps, hsteps, hstatus⟩ := runSteps_eq outage now userId actor.organizationId db
    (Repository.getUserEmail db.toDb userId)
  have hrun : executeUserDataDeletion outage now actor userId scope db =
      (.ok
        { scope
          targetUserId := userId
          organizationId := actor.organizationId
          status := deriveStatus steps
          steps
          executedAt := now
          wasNoop := Repository.isUserAnonymized db.toDb userId },
        erased outage userId actor.organizationId db (Repository.getUserEmail db.toDb userId)) := by
    unfold executeUserDataDeletion
    rw [Service.bind_of_ok hscope, Service.bind_of_ok hplan, Service.bind_read, Service.bind_read,
      Service.bind_of_ok hsteps]
    rfl
  exact ⟨_, hrun, hstatus⟩

/-- Nothing is written without permission. -/
theorem execute_of_not_permitted (h : ¬ Permitted db actor userId scope) :
    ∃ e, executeUserDataDeletion outage now actor userId scope db = (.error e, db) := by
  unfold executeUserDataDeletion
  by_cases hscope : scope = .userData
  · have hsupported : assertScopeSupported (ε := ε) scope db = (.ok (), db) :=
      Service.raiseIf_of_false (by simp [hscope])
    obtain ⟨e, hplan⟩ := plan_of_not_permitted userId db actor scope hscope h
    rw [Service.bind_of_ok hsupported]
    exact ⟨e, Service.bind_of_error hplan⟩
  · exact ⟨_, Service.bind_of_error (Service.raiseIf_of_true (by simp [hscope]))⟩

end Steps

section Account

variable {outage : Outage} {userId organizationId : Uuid} {db : PrivacyDb ε} {email : Option String}

theorem getUser_erased_of_overwritten (h : outage .userRecord = none) :
    Repository.getUser (erased outage userId organizationId db email).toDb userId =
      (Repository.getUser db.toDb userId).map Repository.anonymized := by
  show Table.get? User.id (settled outage .userRecord db.users _) userId = _
  rw [settled_of_none h]
  exact Table.get?_updateWhere (f := Repository.anonymized) (fun _ => rfl) userId

theorem users_erased_of_kept (h : outage .userRecord ≠ none) :
    (erased outage userId organizationId db email).users = db.users := by
  show settled outage .userRecord db.users _ = db.users
  unfold settled
  rw [if_pos (Option.isSome_iff_ne_none.mpr h)]

end Account

end Ekip.Core.Privacy
