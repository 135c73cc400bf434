import Ekip.Core.Auth.Service
import Ekip.Core.Tenancy.Organizations

/-!
# `core/auth/service.py`: signup

A new organization with its first user, who gets the admin role. The descriptions of roles
and permissions are not part of this model.
-/
namespace Ekip.Core

open Ekip.Lib Ekip.Database

/-! ## The admin role -/

namespace Users

namespace Repository

def adminPermissionCodes : List String :=
  ["tenancy:manage", "incident:read", "incident:write", "postmortem:write", "postmortem:approve",
    "knowledge:review", "observability:read", "audit:read"]

def insertPermission (row : Permission) : ServiceM Permission := do
  let permissions ← Service.read Db.permissions
  Service.raiseIf (permissions.any fun other => other.id = row.id ∨ other.code = row.code)
    (.integrityError "permissions")
  Service.write fun db => { db with permissions := db.permissions ++ [row] }
  pure row

/-- `existing` is what one query found before the loop. -/
def getOrAdd (id : Uuid) (existing : List Permission) (code : String) : ServiceM Permission :=
  match existing.find? fun row => row.code = code with
  | some row => pure row
  | none => insertPermission { id, code }

def addMissing (draw : String → Uuid) (existing : List Permission) :
    List String → ServiceM (List Permission)
  | [] => pure []
  | code :: codes => do
    let permission ← getOrAdd (draw code) existing code
    let permissions ← addMissing draw existing codes
    pure (permission :: permissions)

def getOrCreatePermissions (draw : String → Uuid) (codes : List String) :
    ServiceM (List Permission) := do
  let existing ← Service.read fun db => db.permissions.filter fun row => row.code ∈ codes
  addMissing draw existing codes

def insertRole (row : Role) : ServiceM Role := do
  let roles ← Service.read Db.roles
  Service.raiseIf (roles.any fun other => other.id = row.id ∨ other.name = row.name)
    (.integrityError "roles")
  Service.write fun db => { db with roles := db.roles ++ [row] }
  pure row

def getOrCreateRoleByName (id : Uuid) (name : String) : ServiceM Role := do
  let existing ← Service.read fun db => getRoleByName db name
  match existing with
  | some role => pure role
  | none => insertRole { id, name }

def insertRolePermission (row : RolePermission) : ServiceM Unit := do
  let rolePermissions ← Service.read Db.rolePermissions
  Service.raiseIf (row ∈ rolePermissions) (.integrityError "role_permissions_pkey")
  Service.write fun db => { db with rolePermissions := db.rolePermissions ++ [row] }

def addGrant (roleId : Uuid) (alreadyGranted : List Uuid) (permission : Permission) :
    ServiceM Unit :=
  if permission.id ∈ alreadyGranted then pure ()
  else insertRolePermission { roleId, permissionId := permission.id }

def addGrants (roleId : Uuid) (alreadyGranted : List Uuid) : List Permission → ServiceM Unit
  | [] => pure ()
  | permission :: permissions => do
    addGrant roleId alreadyGranted permission
    addGrants roleId alreadyGranted permissions

def grantPermissionsToRole (roleId : Uuid) (permissions : List Permission) : ServiceM Unit := do
  let alreadyGranted ← Service.read fun db =>
    (db.rolePermissions.filter fun row => row.roleId = roleId).map RolePermission.permissionId
  addGrants roleId alreadyGranted permissions

end Repository

def adminRoleName : String := "admin"

def ensureAdminRole (roleId : Uuid) (draw : String → Uuid) : ServiceM Uuid := do
  let permissions ← Repository.getOrCreatePermissions draw Repository.adminPermissionCodes
  let role ← Repository.getOrCreateRoleByName roleId adminRoleName
  Repository.grantPermissionsToRole role.id permissions
  pure role.id

end Users

/-! ## Signup -/

namespace Auth

open Tenancy

structure SignupRequest where
  email : String
  password : String
  displayName : String
  organizationName : String
  organizationSlug : String

/-- What one signup draws besides its session. -/
structure SignupDraw where
  organizationId : Uuid
  projectId : Uuid
  roleId : Uuid
  permissionId : String → Uuid
  session : Draw

def signup (env : Env) (draw : SignupDraw) (data : SignupRequest) : ServiceM SessionTokens := do
  let existing ← Users.getCredentialLookup data.email
  Service.raiseIf existing.isSome
    (conflict "An account with this email already exists." "auth.email_taken"
      [("email", data.email)])
  let organization ← createOrganization draw.organizationId draw.projectId
    { name := data.organizationName, slug := data.organizationSlug }
  let userId ← Users.getOrCreateUser draw.session.userId data.email data.displayName
  Users.setPassword userId (env.bcryptHash draw.session.salt data.password)
  let roleId ← Users.ensureAdminRole draw.roleId draw.permissionId
  Users.assignRole userId organization.id roleId
  issueSession env draw.session userId organization.id draw.session.familyId

end Auth

/-! ## Neither organizations nor projects -/

section Leaves

open Service

/-- The two tables that only the tenancy module writes. -/
def tenants (db : Db) : List Organization × List Project := (db.organizations, db.projects)

namespace Users

theorem getOrCreateUser_leaves (id : Uuid) (email displayName : String) :
    Leaves tenants (getOrCreateUser id email displayName) := by
  apply Leaves.bind (Leaves.read _)
  intro existing
  cases existing with
  | some user => exact Leaves.pure _
  | none =>
    refine Leaves.bind (Leaves.bind (Leaves.read _) fun _ => Leaves.bind (Leaves.raiseIf _ _)
      fun _ => Leaves.bind (Leaves.write fun _ => rfl) fun _ => Leaves.pure _) fun _ => ?_
    exact Leaves.pure _

theorem setPassword_leaves (userId : Uuid) (passwordHash : String) :
    Leaves tenants (setPassword userId passwordHash) := by
  apply Leaves.bind (Leaves.read _)
  intro row
  exact Leaves.bind (Leaves.orRaise _ _) fun _ => Leaves.write fun _ => rfl

theorem assignRole_leaves (userId organizationId roleId : Uuid) :
    Leaves tenants (assignRole userId organizationId roleId) := by
  apply Leaves.bind (Leaves.read _)
  intro existing
  cases existing with
  | some row => exact Leaves.pure _
  | none =>
    apply Leaves.bind (Leaves.read _)
    intro row
    exact Leaves.bind (Leaves.raiseIf _ _) fun _ => Leaves.write fun _ => rfl

theorem addMissing_leaves (draw : String → Uuid) (existing : List Permission) (codes : List String) :
    Leaves tenants (Repository.addMissing draw existing codes) := by
  induction codes with
  | nil => exact Leaves.pure _
  | cons code codes ih =>
    refine Leaves.bind ?_ fun _ => Leaves.bind ih fun _ => Leaves.pure _
    unfold Repository.getOrAdd
    split
    · exact Leaves.pure _
    · apply Leaves.bind (Leaves.read _)
      intro rows
      exact Leaves.bind (Leaves.raiseIf _ _) fun _ =>
        Leaves.bind (Leaves.write fun _ => rfl) fun _ => Leaves.pure _

theorem addGrants_leaves (roleId : Uuid) (granted : List Uuid) (permissions : List Permission) :
    Leaves tenants (Repository.addGrants roleId granted permissions) := by
  induction permissions with
  | nil => exact Leaves.pure _
  | cons permission permissions ih =>
    refine Leaves.bind ?_ fun _ => ih
    unfold Repository.addGrant
    split
    · exact Leaves.pure _
    · apply Leaves.bind (Leaves.read _)
      intro rows
      exact Leaves.bind (Leaves.raiseIf _ _) fun _ => Leaves.write fun _ => rfl

theorem ensureAdminRole_leaves (roleId : Uuid) (draw : String → Uuid) :
    Leaves tenants (ensureAdminRole roleId draw) := by
  apply Leaves.bind (Leaves.bind (Leaves.read _) fun _ => addMissing_leaves _ _ _)
  intro permissions
  refine Leaves.bind (Leaves.bind (Leaves.read _) ?_) ?_
  · intro existing
    cases existing with
    | some role => exact Leaves.pure _
    | none =>
      apply Leaves.bind (Leaves.read _)
      intro roles
      exact Leaves.bind (Leaves.raiseIf _ _) fun _ =>
        Leaves.bind (Leaves.write fun _ => rfl) fun _ => Leaves.pure _
  · intro role
    refine Leaves.bind (Leaves.bind (Leaves.read _) fun _ => addGrants_leaves _ _ _) fun _ => ?_
    exact Leaves.pure _

end Users

namespace Auth

open Tenancy

theorem issueSession_leaves (env : Env) (draw : Draw) (userId organizationId familyId : Uuid) :
    Leaves tenants (issueSession env draw userId organizationId familyId) := by
  refine Leaves.bind ?_ fun _ => Leaves.pure _
  apply Leaves.bind (Leaves.read _)
  intro rows
  exact Leaves.bind (Leaves.raiseIf _ _) fun _ => Leaves.bind (Leaves.write fun _ => rfl)
    fun _ => Leaves.pure _

/-- What a signup leaves of the two tables is what creating its organization left. -/
theorem signup_returns {env : Env} {draw : SignupDraw} {data : SignupRequest} {db db' : Db}
    {tokens : SessionTokens} (h : (signup env draw data).Returns db tokens db') :
    ∃ organization created, (createOrganization draw.organizationId draw.projectId
        { name := data.organizationName, slug := data.organizationSlug }).Returns db organization
          created ∧
      tenants db' = tenants created := by
  unfold signup at h
  obtain ⟨existing, before, hlookup, h⟩ := bind_returns.mp h
  obtain ⟨-, rfl⟩ := read_returns.mp hlookup
  obtain ⟨_, before, hfree, h⟩ := bind_returns.mp h
  obtain ⟨-, rfl⟩ := raiseIf_returns.mp hfree
  obtain ⟨organization, created, hcreated, h⟩ := bind_returns.mp h
  refine ⟨organization, created, hcreated, Leaves.returns ?_ h⟩
  refine Leaves.bind (Users.getOrCreateUser_leaves _ _ _) fun userId => ?_
  refine Leaves.bind (Users.setPassword_leaves _ _) fun _ => ?_
  refine Leaves.bind (Users.ensureAdminRole_leaves _ _) fun roleId => ?_
  refine Leaves.bind (Users.assignRole_leaves _ _ _) fun _ => ?_
  exact issueSession_leaves _ _ _ _ _

end Auth

end Leaves

end Ekip.Core
