import Ekip.Lib.Table

/-!
# Rows of the identity, tenancy and session tables

One structure per table, with the columns the modelled functions read or write.
Uuids are drawn by the database or by `uuid4` and only ever compared. Instants
are microseconds on one clock; every datetime of the source is timezone aware.
-/
namespace Ekip.Database

abbrev Uuid := Nat
abbrev Instant := Nat

structure User where
  id : Uuid
  email : String
  displayName : String
  /-- Unset for an account that has only ever signed in through an IdP. -/
  passwordHash : Option String := none
  isActive : Bool := true
deriving DecidableEq

structure Role where
  id : Uuid
  name : String
deriving DecidableEq

structure Permission where
  id : Uuid
  code : String
deriving DecidableEq

structure RolePermission where
  roleId : Uuid
  permissionId : Uuid
deriving DecidableEq

structure UserRole where
  userId : Uuid
  organizationId : Uuid
  roleId : Uuid
deriving DecidableEq

structure Organization where
  id : Uuid
  name : String
  slug : String
deriving DecidableEq

structure Project where
  id : Uuid
  organizationId : Uuid
  name : String
  isDefault : Bool := false
deriving DecidableEq

structure ProjectMembership where
  userId : Uuid
  projectId : Uuid
  roleId : Uuid
deriving DecidableEq

structure ExternalIdentityMapping where
  id : Uuid
  organizationId : Uuid
  userId : Uuid
  idpSubject : String
deriving DecidableEq

structure SSOConfiguration where
  organizationId : Uuid
  issuerUrl : String
  clientId : String
  clientSecretRef : String
deriving DecidableEq

inductive RuleType
  | domain
  | group
deriving DecidableEq

structure OrganizationAccessRule where
  id : Uuid
  organizationId : Uuid
  ruleType : RuleType
  value : String
  grantsRoleId : Uuid
  isActive : Bool := true
deriving DecidableEq

inductive InvitationStatus
  | pending
  | accepted
  | expired
  | revoked
deriving DecidableEq

/-- The value of the column. -/
def InvitationStatus.value : InvitationStatus → String
  | pending => "pending"
  | accepted => "accepted"
  | expired => "expired"
  | revoked => "revoked"

structure Invitation where
  id : Uuid
  organizationId : Uuid
  email : String
  status : InvitationStatus := .pending
  tokenHash : Option String := none
  grantsRoleId : Uuid
  invitedBy : Uuid
  expiresAt : Instant
  acceptedAt : Option Instant := none
deriving DecidableEq

/-- The columns that are written once. -/
def Invitation.ident (row : Invitation) : Invitation :=
  { row with status := .pending, acceptedAt := none }

/-- Every token descended from one login carries the `familyId` of that login. -/
structure RefreshToken where
  id : Uuid
  userId : Uuid
  organizationId : Uuid
  familyId : Uuid
  tokenHash : String
  expiresAt : Instant
  revokedAt : Option Instant := none
deriving DecidableEq

namespace RefreshToken

/-- What refresh asks of a row: not revoked and not expired. -/
def Usable (row : RefreshToken) (now : Instant) : Prop := row.revokedAt = none ∧ now < row.expiresAt

instance (row : RefreshToken) (now : Instant) : Decidable (row.Usable now) :=
  inferInstanceAs (Decidable (_ ∧ _))

/-- The columns that are written once. -/
def ident (row : RefreshToken) : RefreshToken := { row with revokedAt := none }

def revoke (row : RefreshToken) (revokedAt : Instant) : RefreshToken :=
  { row with revokedAt := some revokedAt }

@[simp] theorem revoke_id (row : RefreshToken) (at_ : Instant) : (row.revoke at_).id = row.id := rfl

theorem ident_eq_iff {row row' : RefreshToken} :
    row.ident = row'.ident ↔ row.id = row'.id ∧ row.userId = row'.userId ∧
      row.organizationId = row'.organizationId ∧ row.familyId = row'.familyId ∧
      row.tokenHash = row'.tokenHash ∧ row.expiresAt = row'.expiresAt := by
  simp [ident]

end RefreshToken

/-- The tables of the identity, tenancy and session modules. -/
structure Db where
  users : List User := []
  roles : List Role := []
  permissions : List Permission := []
  rolePermissions : List RolePermission := []
  userRoles : List UserRole := []
  organizations : List Organization := []
  projects : List Project := []
  projectMemberships : List ProjectMembership := []
  externalIdentityMappings : List ExternalIdentityMapping := []
  ssoConfigurations : List SSOConfiguration := []
  organizationAccessRules : List OrganizationAccessRule := []
  invitations : List Invitation := []
  refreshTokens : List RefreshToken := []
deriving DecidableEq

end Ekip.Database
