import Ekip.Core.Exceptions
import Ekip.Database.ContentModels

/-!
# `core/privacy/repository.py`

One statement each, with the number of rows that it matched. All are scoped by
user and organization but the last, which knows the user only.
-/
namespace Ekip.Core.Privacy

open Ekip.Lib Ekip.Database Ekip.Core

/-- The identity tables with those that also hold data of a person. -/
structure PrivacyDb (ε : Type) extends Db where
  agentExecutions : List AgentExecution := []
  agentMemories : List (AgentMemory ε) := []
  incidents : List Incident := []

abbrev PrivacyM (ε α : Type) := Service Exn (PrivacyDb ε) α

/-- A statement of the identity modules. -/
def onIdentityTables {ε α : Type} (x : ServiceM α) : PrivacyM ε α := fun db =>
  ((x db.toDb).1, { db with toDb := (x db.toDb).2 })

namespace Repository

variable {ε : Type}

/-- `_org_project_ids`. -/
def orgProjectIds (db : Db) (organizationId : Uuid) : List Uuid :=
  (db.projects.filter fun project => project.organizationId = organizationId).map Project.id

/-! ## Which rows are the person's in the organization -/

section Clauses

variable (userId organizationId : Uuid)

def refreshTokenClause (row : RefreshToken) : Bool :=
  row.userId = userId ∧ row.organizationId = organizationId

def userRoleClause (row : UserRole) : Bool :=
  row.userId = userId ∧ row.organizationId = organizationId

def projectMembershipClause (db : Db) (row : ProjectMembership) : Bool :=
  row.userId = userId ∧ row.projectId ∈ orgProjectIds db organizationId

def externalIdentityMappingClause (row : ExternalIdentityMapping) : Bool :=
  row.userId = userId ∧ row.organizationId = organizationId

def agentExecutionClause (row : AgentExecution) : Bool :=
  row.userId = some userId ∧ row.organizationId = organizationId

def userScopedClause (row : AgentMemory ε) : Bool :=
  row.ownerUserId = some userId ∧ row.organizationId = organizationId ∧ row.scope = .user

def invitationClause (email : String) (row : Invitation) : Bool :=
  row.email = email ∧ row.organizationId = organizationId

def incidentClause (row : Incident) : Bool :=
  row.reportedBy = userId ∧ row.organizationId = organizationId

end Clauses

/-! ## The account and its placeholder -/

def anonymizedEmailDomain : String := "deleted.invalid"
def anonymizedEmailPrefix : String := "deleted-user-"
def anonymizedDisplayName : String := "Deleted User"

def anonymizedEmailFor (userId : Uuid) : String :=
  anonymizedEmailPrefix ++ toString userId ++ ("@" ++ anonymizedEmailDomain)

/-- `email.endswith("@deleted.invalid")`. -/
def isAnonymizedEmail (email : String) : Bool :=
  ("@" ++ anonymizedEmailDomain).toList.isSuffixOf email.toList

def getUser (db : Db) (userId : Uuid) : Option User := Table.get? User.id db.users userId

/-- Nothing for an account that is anonymized already. -/
def getUserEmail (db : Db) (userId : Uuid) : Option String :=
  ((getUser db userId).map User.email).filter fun email => !isAnonymizedEmail email

def isUserAnonymized (db : Db) (userId : Uuid) : Bool :=
  (getUser db userId).any fun user => isAnonymizedEmail user.email

/-- The image of the account. -/
def anonymized (user : User) : User :=
  { user with
    email := anonymizedEmailFor user.id
    displayName := anonymizedDisplayName
    passwordHash := none
    isActive := false }

/-! ## The mutations -/

def deleteRefreshTokens (userId organizationId : Uuid) : PrivacyM ε Nat := fun db =>
  (.ok (db.refreshTokens.countP (refreshTokenClause userId organizationId)),
    { db with
      refreshTokens :=
        db.refreshTokens.filter fun row => !refreshTokenClause userId organizationId row })

def deleteUserRoles (userId organizationId : Uuid) : PrivacyM ε Nat := fun db =>
  (.ok (db.userRoles.countP (userRoleClause userId organizationId)),
    { db with
      userRoles := db.userRoles.filter fun row => !userRoleClause userId organizationId row })

def deleteProjectMemberships (userId organizationId : Uuid) : PrivacyM ε Nat := fun db =>
  (.ok (db.projectMemberships.countP (projectMembershipClause userId organizationId db.toDb)),
    { db with
      projectMemberships := db.projectMemberships.filter fun row =>
        !projectMembershipClause userId organizationId db.toDb row })

def deleteExternalIdentityMappings (userId organizationId : Uuid) : PrivacyM ε Nat := fun db =>
  (.ok (db.externalIdentityMappings.countP (externalIdentityMappingClause userId organizationId)),
    { db with
      externalIdentityMappings := db.externalIdentityMappings.filter fun row =>
        !externalIdentityMappingClause userId organizationId row })

/-- The row is kept, and its `user_id` is nulled. -/
def anonymizeAgentExecutions (userId organizationId : Uuid) : PrivacyM ε Nat := fun db =>
  (.ok (db.agentExecutions.countP (agentExecutionClause userId organizationId)),
    { db with
      agentExecutions := Table.updateWhere db.agentExecutions
        (agentExecutionClause userId organizationId) (fun row => { row with userId := none }) })

/-- `memory_repository.hard_delete_user_scoped`. -/
def hardDeleteUserScoped (userId organizationId : Uuid) : PrivacyM ε Nat := fun db =>
  (.ok (db.agentMemories.countP (userScopedClause userId organizationId)),
    { db with
      agentMemories := db.agentMemories.filter fun row =>
        !userScopedClause userId organizationId row })

def anonymizeInvitationsForEmail (email : String) (organizationId : Uuid)
    (placeholderEmail : String) : PrivacyM ε Nat := fun db =>
  (.ok (db.invitations.countP (invitationClause organizationId email)),
    { db with
      invitations := Table.updateWhere db.invitations (invitationClause organizationId email)
        (fun row => { row with email := placeholderEmail }) })

/-- The account, wherever else it is a member. -/
def anonymizeUserRecord (userId : Uuid) : PrivacyM ε Nat := fun db =>
  (.ok (db.users.countP fun user => user.id = userId),
    { db with users := Table.updateWhere db.users (fun user => user.id = userId) anonymized })

end Repository

end Ekip.Core.Privacy
