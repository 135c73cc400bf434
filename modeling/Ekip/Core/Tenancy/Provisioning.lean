import Ekip.Core.Users.Service

/-!
# Invitations and the provisioning policy

`core/tenancy/repository.py` and the part of `core/tenancy/service.py` that
decides who may join an organization. Audit rows are not part of this model.
-/
namespace Ekip.Core.Tenancy

open Ekip.Lib Ekip.Database Ekip.Shared Ekip.Core

/-- The library functions the services call (SHA-256, bcrypt, `str.lower` and
`urlparse`) and the settings they read. -/
structure Env where
  sha256 : String → String
  /-- The salt and the password. -/
  bcryptHash : String → String → String
  bcryptCheck : String → String → Bool
  lower : String → String
  /-- Scheme and host of a URL. -/
  origin : String → String := id
  corsAllowedOrigins : List String := []
  jwtExpiryMinutes : Nat := 15
  orgSelectionTokenExpiryMinutes : Nat := 10

def Env.hashOpaqueToken (env : Env) (rawToken : String) : String := env.sha256 rawToken

def minute : Instant := 60 * 1000000
def day : Instant := 24 * 60 * minute

/-! ## Repository -/

def getOrganizationBySlug (db : Db) (slug : String) : Option Organization :=
  Table.get? Organization.slug db.organizations slug

def getOrganizationsByIds (db : Db) (organizationIds : List Uuid) : List Organization :=
  db.organizations.filter fun org => org.id ∈ organizationIds

def getSsoConfigurationByOrganizationId (db : Db) (organizationId : Uuid) :
    Option SSOConfiguration :=
  Table.get? SSOConfiguration.organizationId db.ssoConfigurations organizationId

def getInvitationById (db : Db) (invitationId : Uuid) : Option Invitation :=
  Table.get? Invitation.id db.invitations invitationId

def getPendingInvitation (db : Db) (organizationId : Uuid) (email : String) : Option Invitation :=
  db.invitations.find? fun invitation => invitation.organizationId = organizationId ∧
    invitation.email = email ∧ invitation.status = .pending

def getActiveRulesByType (db : Db) (organizationId : Uuid) (ruleType : RuleType) :
    List OrganizationAccessRule :=
  db.organizationAccessRules.filter fun rule => rule.organizationId = organizationId ∧
    rule.ruleType = ruleType ∧ rule.isActive = true

/-- The primary key and the partial unique index on pending invitations. -/
def insertInvitation (row : Invitation) : ServiceM Invitation := do
  let invitations ← Service.read Db.invitations
  Service.raiseIf (invitations.any fun other => other.id = row.id ∨
      (other.organizationId = row.organizationId ∧ other.email = row.email ∧
        other.status = .pending ∧ row.status = .pending))
    (.integrityError "uq_invitations_org_email_pending")
  Service.write fun db => { db with invitations := db.invitations ++ [row] }
  pure row

/-- One row image of `update_invitation_status`. -/
def withStatus (row : Invitation) (status : InvitationStatus) (acceptedAt : Option Instant) :
    Invitation :=
  { row with status, acceptedAt := acceptedAt.or row.acceptedAt }

def updateInvitationStatus (invitationId : Uuid) (status : InvitationStatus)
    (acceptedAt : Option Instant := none) : ServiceM Unit :=
  Service.write fun db =>
    { db with
      invitations := Table.updateWhere db.invitations (fun row => row.id = invitationId)
        (fun row => withStatus row status acceptedAt) }

/-! ## Service -/

def managePermission : String := "tenancy:manage"

def defaultInvitationLifetime : Instant := 14 * day

def ensureSameOrganization (actor : Identity) (organizationId : Uuid) : ServiceM Unit :=
  Service.raiseIf (actor.organizationId ≠ organizationId)
    (permissionDenied "Cannot access another organization's data."
      "tenancy.cross_organization_denied" [("organization_id", toString organizationId)])

def getOrganizationSsoConfig (orgSlug : String) : ServiceM SSOConfiguration := do
  let found ← Service.read fun db => getOrganizationBySlug db orgSlug
  let org ← Service.orRaise found
    (notFound "Organization not found." "organization.not_found" [("slug", orgSlug)])
  let config ← Service.read fun db => getSsoConfigurationByOrganizationId db org.id
  Service.orRaise config
    (notFound "This organization has not configured SSO yet." "sso_configuration.not_found"
      [("organization_id", toString org.id)])

def resolveRoleId (roleName : String) : ServiceM Uuid := do
  let found ← Service.read fun db => Users.Repository.getRoleByName db roleName
  let role ← Service.orRaise found
    (validation "Unknown role name." "role.not_found" [("role", roleName)])
  pure role.id

structure InvitationCreate where
  email : String
  grantsRole : String
  expiresAt : Option Instant := none

/-- `id` is drawn by the database and `rawToken` by `generate_opaque_token`; the
response carries the row and, this one time, the raw token. -/
def createInvitation (env : Env) (now : Instant) (id : Uuid) (rawToken : String)
    (actor : Identity) (organizationId : Uuid) (data : InvitationCreate) :
    ServiceM (Invitation × String) := do
  ensureSameOrganization actor organizationId
  Users.requirePermission actor managePermission
  let invitedBy ← Service.orRaise actor.userId
    (validation "Only a user identity can send invitations." "invitation.invalid_actor")
  let existing ← Service.read fun db => getPendingInvitation db organizationId data.email
  Service.raiseIf existing.isSome
    (conflict "An invitation is already pending for this email." "invitation.already_pending"
      [("organization_id", toString organizationId), ("email", data.email)])
  let grantsRoleId ← resolveRoleId data.grantsRole
  let row ← insertInvitation
    { id, organizationId, email := data.email, tokenHash := some (env.hashOpaqueToken rawToken)
      grantsRoleId, invitedBy
      expiresAt := data.expiresAt.getD (now + defaultInvitationLifetime) }
  pure (row, rawToken)

def revokeInvitation (actor : Identity) (organizationId invitationId : Uuid) : ServiceM Unit := do
  ensureSameOrganization actor organizationId
  Users.requirePermission actor managePermission
  let found ← Service.read fun db => (getInvitationById db invitationId).filter
    fun row => row.organizationId = organizationId
  let row ← Service.orRaise found
    (notFound "Invitation not found." "invitation.not_found"
      [("organization_id", toString organizationId), ("invitation_id", toString invitationId)])
  Service.raiseIf (row.status ≠ .pending)
    (conflict "Only a pending invitation can be revoked." "invitation.not_pending"
      [("status", row.status.value)])
  updateInvitationStatus invitationId .revoked

def acceptInvitation (now : Instant) (invitationId : Uuid) : ServiceM Unit := do
  let found ← Service.read fun db => getInvitationById db invitationId
  let invitation ← Service.orRaise found
    (notFound "Invitation not found." "invitation.not_found"
      [("invitation_id", toString invitationId)])
  Service.raiseIf (invitation.status ≠ .pending)
    (conflict "Only a pending invitation can be accepted." "invitation.not_pending"
      [("status", invitation.status.value)])
  Service.raiseIf (invitation.expiresAt ≤ now)
    (conflict "This invitation has expired." "invitation.expired"
      [("invitation_id", toString invitationId)])
  updateInvitationStatus invitationId .accepted (some now)

structure ProvisioningDecision where
  allowed : Bool
  grantsRoleId : Option Uuid := none
  matchedInvitationId : Option Uuid := none
  reason : String

/-- `email.rsplit("@", 1)[-1].lower() if "@" in email else ""`. -/
def emailDomain (env : Env) (email : String) : String :=
  if '@' ∈ email.toList then
    env.lower (String.ofList (email.toList.reverse.takeWhile (· ≠ '@')).reverse)
  else ""

/-- The coarse rules, consulted when no live invitation matches. -/
def matchingRule (env : Env) (db : Db) (organizationId : Uuid) (email : String)
    (groups : List String) : ProvisioningDecision :=
  let domain := emailDomain env email
  let byDomain := (getActiveRulesByType db organizationId .domain).find?
    fun rule => domain ≠ "" ∧ env.lower rule.value = domain
  let byGroup := (getActiveRulesByType db organizationId .group).find?
    fun rule => env.lower rule.value ∈ groups.map env.lower
  match byDomain, byGroup with
  | some rule, _ => { allowed := true, grantsRoleId := some rule.grantsRoleId, reason := "domain_match" }
  | none, some rule => { allowed := true, grantsRoleId := some rule.grantsRoleId, reason := "group_match" }
  | none, none => { allowed := false, reason := "no_matching_policy" }

def evaluateProvisioning (env : Env) (now : Instant) (organizationId : Uuid) (email : String)
    (groups : List String) : ServiceM ProvisioningDecision := do
  let found ← Service.read fun db => getPendingInvitation db organizationId email
  match found with
  | some invitation =>
    if now < invitation.expiresAt then
      pure
        { allowed := true
          grantsRoleId := some invitation.grantsRoleId
          matchedInvitationId := some invitation.id
          reason := "invitation_match" }
    else do
      -- past due but still pending: marked lazily, then the rules decide
      updateInvitationStatus invitation.id .expired
      Service.read fun db => matchingRule env db organizationId email groups
  | none => Service.read fun db => matchingRule env db organizationId email groups

/-! ## What the operations return -/

variable {env : Env} {db db' : Db} {now : Instant}

theorem insertInvitation_returns {row result : Invitation}
    (h : (insertInvitation row).Returns db result db') :
    result = row ∧ db' = { db with invitations := db.invitations ++ [row] } ∧
      ∀ other ∈ db.invitations, other.id ≠ row.id := by
  simp only [insertInvitation, Service.bind_returns, Service.read_returns,
    Service.raiseIf_returns, Service.write_returns, Service.pure_returns] at h
  obtain ⟨_, _, ⟨rfl, rfl⟩, _, _, ⟨hfree, rfl⟩, _, _, rfl, rfl, rfl⟩ := h
  refine ⟨rfl, rfl, fun other hother => ?_⟩
  have hno := List.any_eq_false.mp hfree other hother
  simp only [decide_eq_true_eq, not_or] at hno
  exact hno.1

theorem resolveRoleId_returns {roleName : String} {roleId : Uuid}
    (h : (resolveRoleId roleName).Returns db roleId db') : db' = db := by
  simp only [resolveRoleId, Service.bind_returns, Service.read_returns, Service.orRaise_returns,
    Service.pure_returns] at h
  obtain ⟨_, _, ⟨_, rfl⟩, _, _, ⟨_, rfl⟩, _, rfl⟩ := h
  rfl

theorem createInvitation_returns {id organizationId : Uuid} {rawToken : String} {actor : Identity}
    {data : InvitationCreate} {result : Invitation × String}
    (h : (createInvitation env now id rawToken actor organizationId data).Returns db result db') :
    actor.organizationId = organizationId ∧ result.2 = rawToken ∧ result.1.id = id ∧
      result.1.organizationId = organizationId ∧ result.1.email = data.email ∧
      db' = { db with invitations := db.invitations ++ [result.1] } ∧
      ∀ row ∈ db.invitations, row.id ≠ id := by
  simp only [createInvitation, ensureSameOrganization, Users.requirePermission,
    Service.bind_returns, Service.read_returns, Service.orRaise_returns, Service.raiseIf_returns,
    Service.pure_returns] at h
  obtain ⟨_, db₁, ⟨horg, h₁⟩, _, db₂, ⟨_, h₂⟩, invitedBy, db₃, ⟨_, h₃⟩, _, db₄, ⟨_, h₄⟩, _, db₅,
    ⟨_, h₅⟩, roleId, db₆, hrole, row, db₇, hinsert, hresult, h₇⟩ := h
  have h₆ := resolveRoleId_returns hrole
  obtain ⟨hrow, hdb, hfree⟩ := insertInvitation_returns hinsert
  have hsame : db₆ = db := by rw [h₆, ← h₅, ← h₄, ← h₃, ← h₂, ← h₁]
  rw [hsame] at hdb hfree
  rw [← h₇, ← hresult]
  refine ⟨by simpa using horg, rfl, ?_, ?_, ?_, ?_, ?_⟩
  · rw [hrow]
  · rw [hrow]
  · rw [hrow]
  · rw [hdb, hrow]
  · exact hfree

/-- Only the status of invitations, and when they were accepted, differs. -/
def Restatused (db db' : Db) : Prop :=
  db' = { db with invitations := db'.invitations } ∧
    db'.invitations.map Invitation.ident = db.invitations.map Invitation.ident

theorem Restatused.refl (db : Db) : Restatused db db := ⟨rfl, rfl⟩

theorem updateInvitationStatus_returns {invitationId : Uuid} {status : InvitationStatus}
    {acceptedAt : Option Instant} {u : Unit}
    (h : (updateInvitationStatus invitationId status acceptedAt).Returns db u db') :
    Restatused db db' := by
  simp only [updateInvitationStatus, Service.write_returns] at h
  subst h
  refine ⟨rfl, ?_⟩
  simp only [Table.updateWhere, List.map_map]
  refine List.map_congr_left fun row _ => ?_
  simp only [Function.comp_apply]
  split <;> rfl

/-- A returning acceptance found the invitation pending and unexpired. -/
theorem acceptInvitation_returns {invitationId : Uuid} {u : Unit}
    (h : (acceptInvitation now invitationId).Returns db u db') : Restatused db db' := by
  simp only [acceptInvitation, Service.bind_returns, Service.read_returns,
    Service.orRaise_returns, Service.raiseIf_returns] at h
  obtain ⟨_, _, ⟨rfl, rfl⟩, _, _, ⟨_, rfl⟩, _, _, ⟨_, rfl⟩, _, _, ⟨_, rfl⟩, h⟩ := h
  exact updateInvitationStatus_returns h

/-- A rule lets in without an invitation. -/
theorem matchedInvitationId_matchingRule (env : Env) (db : Db) (organizationId : Uuid) (email : String)
    (groups : List String) :
    (matchingRule env db organizationId email groups).matchedInvitationId = none := by
  unfold matchingRule
  dsimp only
  split <;> rfl

/-- What the policy decides, whether or not an invitation is marked expired. -/
def policyDecision (env : Env) (now : Instant) (db : Db) (organizationId : Uuid) (email : String)
    (groups : List String) : ProvisioningDecision :=
  match (getPendingInvitation db organizationId email).filter fun row => now < row.expiresAt with
  | some invitation =>
    { allowed := true
      grantsRoleId := some invitation.grantsRoleId
      matchedInvitationId := some invitation.id
      reason := "invitation_match" }
  | none => matchingRule env db organizationId email groups

theorem evaluateProvisioning_returns {organizationId : Uuid} {email : String}
    {groups : List String} {decision : ProvisioningDecision}
    (h : (evaluateProvisioning env now organizationId email groups).Returns db decision db') :
    decision = policyDecision env now db organizationId email groups ∧ Restatused db db' := by
  simp only [evaluateProvisioning, Service.bind_returns, Service.read_returns] at h
  obtain ⟨found, _, ⟨rfl, rfl⟩, h⟩ := h
  unfold policyDecision
  cases hget : getPendingInvitation db organizationId email with
  | none =>
    rw [hget] at h
    obtain ⟨rfl, rfl⟩ := Service.read_returns.mp h
    exact ⟨rfl, .refl _⟩
  | some invitation =>
    rw [hget] at h
    simp only [Service.ite_returns, Service.pure_returns, Service.bind_returns,
      Service.read_returns] at h
    rcases h with ⟨hlive, rfl, rfl⟩ | ⟨hdue, _, _, hexpire, rfl, rfl⟩
    · simp [Option.filter, hlive, Restatused.refl]
    · have hrestatused := updateInvitationStatus_returns hexpire
      refine ⟨?_, hrestatused⟩
      rw [hrestatused.1]
      simp [Option.filter, hdue, matchingRule, getActiveRulesByType]

end Ekip.Core.Tenancy
