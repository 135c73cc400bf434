import Ekip.Core.Auth.Repository
import Ekip.Core.Tenancy.Provisioning

/-!
# Sessions: `core/auth/service.py`

Login by password, invitation or identity provider, organization selection,
refresh-token rotation and logout. An operation takes what it draws from the
outside as arguments: the clock, generated ids and tokens, and what the identity
provider answers. A signed token is its claims; `none` stands for a string that
no secret key of the service ever signed.
-/
namespace Ekip.Core.Auth

open Ekip.Lib Ekip.Database Ekip.Shared Ekip.Core Ekip.Core.Tenancy

/-- Concrete library functions that tell tokens and passwords apart. -/
def plainEnv : Env where
  sha256 rawToken := rawToken
  bcryptHash _ password := password
  bcryptCheck password passwordHash := password == passwordHash
  lower email := email

/-! ## Signed tokens -/

inductive TokenType
  | access
  | orgSelection
deriving DecidableEq

/-- `iat` and `exp` are in seconds. -/
structure Jwt where
  sub : Uuid
  organizationId : Option Uuid := none
  type : Option TokenType
  iat : Nat
  exp : Nat
deriving DecidableEq

structure TokenClaims where
  userId : Uuid
  organizationId : Uuid
  issuedAt : Nat
  expiresAt : Nat

def second : Instant := 1000000

/-- `jose_jwt.decode`: signature and expiry. -/
def decode (now : Instant) (token : Option Jwt) : Option Jwt :=
  token.filter fun claims => now / second ≤ claims.exp

def issueAccessToken (env : Env) (issuedAt : Instant) (userId organizationId : Uuid) :
    Jwt × Instant :=
  let expiresAt := issuedAt + env.jwtExpiryMinutes * minute
  ({ sub := userId, organizationId := some organizationId, type := some .access
     iat := issuedAt / second, exp := expiresAt / second }, expiresAt)

def issueOrgSelectionToken (env : Env) (issuedAt : Instant) (userId : Uuid) : Jwt :=
  let expiresAt := issuedAt + env.orgSelectionTokenExpiryMinutes * minute
  { sub := userId, type := some .orgSelection
    iat := issuedAt / second, exp := expiresAt / second }

def verifyOrgSelectionToken (now : Instant) (token : Option Jwt) : ServiceM Uuid := do
  let claims ← Service.orRaise (decode now token)
    (permissionDenied "Invalid or expired organization selection token."
      "auth.invalid_selection_token")
  Service.raiseIf (claims.type ≠ some .orgSelection)
    (permissionDenied "Invalid organization selection token." "auth.invalid_selection_token")
  pure claims.sub

/-- A token without `type` was signed before the claim existed and counts as an
access token. -/
def verifyAccessToken (now : Instant) (token : Option Jwt) : ServiceM TokenClaims := do
  let claims ← Service.orRaise (decode now token)
    (permissionDenied "Invalid or expired access token." "auth.invalid_token")
  Service.raiseIf (claims.type.getD .access ≠ .access)
    (permissionDenied "This token is not a valid access token." "auth.invalid_token")
  let organizationId ← Service.orRaise claims.organizationId
    (permissionDenied "Malformed access token." "auth.invalid_token")
  pure { userId := claims.sub, organizationId, issuedAt := claims.iat, expiresAt := claims.exp }

/-! ## Sessions -/

structure SessionTokens where
  accessToken : Jwt
  refreshToken : String
  expiresIn : Nat

/-- What one request draws; each field is used at most once. `issuedAt` is the
clock reading of the token that is signed. -/
structure Draw where
  issuedAt : Instant
  refreshTokenId : Uuid
  rawRefreshToken : String
  familyId : Uuid
  userId : Uuid := 0
  mappingId : Uuid := 0
  salt : String := ""

def refreshTokenLifetime : Instant := 30 * day

def hashToken (env : Env) (rawToken : String) : String := env.sha256 rawToken

/-- The row that `_issue_session` inserts. -/
def sessionRow (env : Env) (draw : Draw) (userId organizationId familyId : Uuid) : RefreshToken :=
  { id := draw.refreshTokenId, userId, organizationId, familyId
    tokenHash := hashToken env draw.rawRefreshToken
    expiresAt := draw.issuedAt + refreshTokenLifetime }

def sessionTokens (env : Env) (draw : Draw) (userId organizationId : Uuid) : SessionTokens :=
  let (accessToken, accessExpiresAt) := issueAccessToken env draw.issuedAt userId organizationId
  { accessToken, refreshToken := draw.rawRefreshToken
    expiresIn := (accessExpiresAt - draw.issuedAt) / second }

def issueSession (env : Env) (draw : Draw) (userId organizationId familyId : Uuid) :
    ServiceM SessionTokens := do
  let _ ← Repository.insertRefreshToken (sessionRow env draw userId organizationId familyId)
  pure (sessionTokens env draw userId organizationId)

/-- Not revoked and not expired, without consuming it. -/
def peekRefreshToken (env : Env) (now : Instant) (rawToken : String) :
    ServiceM (Option RefreshToken) :=
  Service.read fun db =>
    (Repository.lookupRefreshToken db (hashToken env rawToken)).filter fun row =>
      row.revokedAt = none ∧ now < row.expiresAt

def refresh (env : Env) (now : Instant) (draw : Draw) (rawToken : String) :
    ServiceM SessionTokens := do
  let found ← Service.read fun db =>
    Repository.lookupRefreshToken db (hashToken env rawToken)
  let row ← Service.orRaise found
    (permissionDenied "Invalid refresh token." "auth.invalid_refresh_token")
  if row.revokedAt ≠ none then do
    -- written in the transaction that the raise below aborts
    Repository.revokeFamily row.familyId now
    Service.raise (permissionDenied "This session has been revoked." "auth.refresh_token_reused")
  else do
    Service.raiseIf (row.expiresAt ≤ now)
      (permissionDenied "Refresh token has expired." "auth.refresh_token_expired")
    Repository.revokeRefreshToken row.id now
    issueSession env draw row.userId row.organizationId row.familyId

def logout (env : Env) (now : Instant) (rawToken : String) : ServiceM Unit := do
  let found ← Service.read fun db =>
    Repository.lookupRefreshToken db (hashToken env rawToken)
  match found with
  | none => pure ()
  | some row =>
    if row.revokedAt ≠ none then pure ()
    else Repository.revokeRefreshToken row.id now

def revokeAllSessions (now : Instant) (userId organizationId : Uuid) : ServiceM Nat :=
  Repository.revokeAllForUser userId organizationId now

/-! ## Logins -/

structure LoginRequest where
  email : String
  password : String

structure OrganizationSummary where
  id : Uuid
  name : String
  slug : String

inductive LoginResponse
  | sessionTokens (tokens : SessionTokens)
  | organizationSelectionRequired (selectionToken : Jwt) (organizations : List OrganizationSummary)

/-- The row whose password the request knows. -/
def verifiedCredential (env : Env) (password : String)
    (lookup : Option Users.UserCredentialLookup) : Option Users.UserCredentialLookup :=
  lookup.filter fun found =>
    match found.passwordHash with
    | none => false
    | some passwordHash => env.bcryptCheck password passwordHash

def loginWithPassword (env : Env) (draw : Draw) (data : LoginRequest) : ServiceM LoginResponse := do
  let found ← Users.getCredentialLookup data.email
  let lookup ← Service.orRaise (verifiedCredential env data.password found)
    (permissionDenied "Invalid email or password." "auth.invalid_credentials")
  Service.raiseIf (!lookup.isActive)
    (permissionDenied "This account is inactive." "user.inactive")
  let organizationIds ← Users.listOrganizationsForLogin lookup.userId
  match organizationIds with
  | [] =>
    Service.raise (permissionDenied "This account is not a member of any organization."
      "auth.no_organization")
  | [organizationId] => do
    let tokens ← issueSession env draw lookup.userId organizationId draw.familyId
    pure (.sessionTokens tokens)
  | _ => do
    let organizations ← Service.read fun db => getOrganizationsByIds db organizationIds
    pure (.organizationSelectionRequired
      (issueOrgSelectionToken env draw.issuedAt lookup.userId)
      (organizations.map fun org => { id := org.id, name := org.name, slug := org.slug }))

/-- The tail that selecting and switching share: membership is read again. -/
def issueForMember (env : Env) (draw : Draw) (userId organizationId : Uuid) :
    ServiceM SessionTokens := do
  let organizationIds ← Users.listOrganizationsForLogin userId
  Service.raiseIf (organizationId ∉ organizationIds)
    (permissionDenied "You are not a member of that organization." "auth.not_a_member")
  issueSession env draw userId organizationId draw.familyId

def selectOrganization (env : Env) (now : Instant) (draw : Draw) (selectionToken : Option Jwt)
    (organizationId : Uuid) : ServiceM SessionTokens := do
  let userId ← verifyOrgSelectionToken now selectionToken
  issueForMember env draw userId organizationId

def switchOrganization (env : Env) (draw : Draw) (userId organizationId : Uuid) :
    ServiceM SessionTokens :=
  issueForMember env draw userId organizationId

/-- The router's dependency: the access token of the caller becomes an identity. -/
def currentIdentity (now : Instant) (accessToken : Option Jwt) : ServiceM Identity := do
  let claims ← verifyAccessToken now accessToken
  Users.resolveIdentity claims.userId claims.organizationId

/-- `value or fallback`: an empty string is falsy. -/
def orElse (value : Option String) (fallback : String) : String :=
  (value.filter (· ≠ "")).getD fallback

structure InvitationAcceptRequest where
  token : String
  password : String
  displayName : Option String := none

def acceptInvitationWithPassword (env : Env) (now : Instant) (draw : Draw) (invitationId : Uuid)
    (data : InvitationAcceptRequest) : ServiceM SessionTokens := do
  let found ← Service.read fun db => getInvitationById db invitationId
  let invitation ← Service.orRaise found
    (notFound "Invitation not found." "invitation.not_found"
      [("invitation_id", toString invitationId)])
  Service.raiseIf (invitation.tokenHash ≠ some (env.hashOpaqueToken data.token))
    (permissionDenied "Invalid or missing invitation token." "invitation.invalid_token")
  Service.raiseIf (invitation.status ≠ .pending)
    (conflict "This invitation is no longer pending." "invitation.not_pending"
      [("status", invitation.status.value)])
  Service.raiseIf (invitation.expiresAt ≤ now)
    (conflict "This invitation has expired." "invitation.expired")
  let userId ← Users.getOrCreateUser draw.userId invitation.email
    (orElse data.displayName invitation.email)
  Users.setPassword userId (env.bcryptHash draw.salt data.password)
  Users.assignRole userId invitation.organizationId invitation.grantsRoleId
  acceptInvitation now invitationId
  issueSession env draw userId invitation.organizationId draw.familyId

structure VerifiedIdPClaims where
  sub : String
  email : String
  name : Option String := none
  groups : List String := []

def acceptMatchedInvitation (now : Instant) (matchedInvitationId : Option Uuid) : ServiceM Unit :=
  match matchedInvitationId with
  | some invitationId => acceptInvitation now invitationId
  | none => pure ()

def resolveOrProvisionUser (env : Env) (now : Instant) (draw : Draw) (organizationId : Uuid)
    (idpClaims : VerifiedIdPClaims) : ServiceM Uuid := do
  let mapping ← Service.read fun db =>
    Repository.getExternalIdentityMapping db organizationId idpClaims.sub
  match mapping with
  | some mapping => pure mapping.userId
  | none => do
    let decision ← evaluateProvisioning env now organizationId idpClaims.email idpClaims.groups
    Service.raiseIf (!decision.allowed)
      (permissionDenied "This account has not been provisioned. Contact your administrator."
        "auth.not_provisioned"
        [("organization_id", toString organizationId), ("reason", decision.reason)])
    let roleId ← Service.orRaise decision.grantsRoleId
      (.runtimeError "evaluate_provisioning returned allowed=True with no grants_role_id.")
    let userId ← Users.getOrCreateUser draw.userId idpClaims.email
      (orElse idpClaims.name idpClaims.email)
    Users.assignRole userId organizationId roleId
    acceptMatchedInvitation now decision.matchedInvitationId
    Repository.insertExternalIdentityMapping
      { id := draw.mappingId, organizationId, userId, idpSubject := idpClaims.sub }
    pure userId

def assertRedirectUriAllowed (env : Env) (redirectUri : String) : ServiceM Unit :=
  Service.raiseIf (env.origin redirectUri ∉ env.corsAllowedOrigins)
    (permissionDenied "redirect_uri is not an allowed origin for this deployment."
      "auth.redirect_uri_not_allowed" [("redirect_uri", redirectUri)])

/-- `exchange` is what the identity provider of the configuration answers to the
code: the claims of a verified ID token, or an error. -/
def completeSsoLogin (env : Env) (now : Instant) (draw : Draw) (orgSlug redirectUri : String)
    (exchange : SSOConfiguration → Except Exn VerifiedIdPClaims) : ServiceM SessionTokens := do
  assertRedirectUriAllowed env redirectUri
  let ssoConfig ← getOrganizationSsoConfig orgSlug
  let idpClaims ← Service.ofExcept (exchange ssoConfig)
  let userId ← resolveOrProvisionUser env now draw ssoConfig.organizationId idpClaims
  issueSession env draw userId ssoConfig.organizationId draw.familyId

/-! ## What the operations return -/

variable {env : Env} {db db' : Db} {now : Instant} {draw : Draw}

/-- No stored row has the id or the hash that was drawn. -/
def Draw.TokenUnused (env : Env) (draw : Draw) (rows : List RefreshToken) : Prop :=
  ∀ other ∈ rows, other.id ≠ draw.refreshTokenId ∧
    other.tokenHash ≠ hashToken env draw.rawRefreshToken

instance (rows : List RefreshToken) : Decidable (draw.TokenUnused env rows) :=
  inferInstanceAs (Decidable (∀ _ ∈ _, _ ∧ _))

theorem issueSession_returns {userId organizationId familyId : Uuid} {tokens : SessionTokens} :
    (issueSession env draw userId organizationId familyId).Returns db tokens db' ↔
      draw.TokenUnused env db.refreshTokens ∧ tokens = sessionTokens env draw userId organizationId ∧
        db' = { db with refreshTokens :=
          db.refreshTokens ++ [sessionRow env draw userId organizationId familyId] } := by
  simp only [issueSession, Service.bind_returns, Service.pure_returns,
    Repository.insertRefreshToken_returns]
  constructor
  · rintro ⟨_, _, ⟨hunused, rfl, rfl⟩, rfl, rfl⟩
    exact ⟨hunused, rfl, rfl⟩
  · rintro ⟨hunused, rfl, rfl⟩
    exact ⟨_, _, ⟨hunused, rfl, rfl⟩, rfl, rfl⟩

/-- The table after a rotation: the presented row revoked, its successor added. -/
def rotated (env : Env) (now : Instant) (draw : Draw) (row : RefreshToken)
    (rows : List RefreshToken) : List RefreshToken :=
  Table.updateWhere rows (fun other => other.id = row.id) (fun other => other.revoke now) ++
    [sessionRow env draw row.userId row.organizationId row.familyId]

theorem tokenUnused_updateWhere {rows : List RefreshToken} {which : RefreshToken → Bool} :
    draw.TokenUnused env (Table.updateWhere rows which fun row => row.revoke now) ↔
      draw.TokenUnused env rows := by
  have hsame : ∀ row : RefreshToken, (if which row then row.revoke now else row).id = row.id ∧
      (if which row then row.revoke now else row).tokenHash = row.tokenHash := by
    intro row
    split <;> exact ⟨rfl, rfl⟩
  simp only [Draw.TokenUnused, Table.mem_updateWhere, forall_exists_index, and_imp,
    forall_apply_eq_imp_iff₂, hsame]

/-- Refresh accepts exactly the tokens that are neither revoked nor expired. -/
theorem refresh_returns {rawToken : String} {tokens : SessionTokens} :
    (refresh env now draw rawToken).Returns db tokens db' ↔
      ∃ row, Repository.lookupRefreshToken db (hashToken env rawToken) = some row ∧
        row.Usable now ∧ draw.TokenUnused env db.refreshTokens ∧
        tokens = sessionTokens env draw row.userId row.organizationId ∧
        db' = { db with refreshTokens := rotated env now draw row db.refreshTokens } := by
  simp only [refresh, Repository.revokeRefreshToken, Service.bind_returns, Service.read_returns,
    Service.orRaise_returns, Service.ite_returns, Service.raise_returns, Service.raiseIf_returns,
    Repository.revokeWhere_returns, issueSession_returns]
  constructor
  · rintro ⟨_, _, ⟨rfl, rfl⟩, row, _, ⟨hrow, rfl⟩, ⟨_, _, _, _, hno⟩ | ⟨hlive, _, _, ⟨hexp, rfl⟩,
      _, _, rfl, hunused, rfl, rfl⟩⟩
    · exact hno.elim
    · refine ⟨row, hrow, ⟨by simpa using hlive, by simpa using hexp⟩, ?_, rfl, rfl⟩
      exact tokenUnused_updateWhere.mp hunused
  · rintro ⟨row, hrow, ⟨hlive, hexp⟩, hunused, rfl, rfl⟩
    refine ⟨_, _, ⟨rfl, rfl⟩, row, _, ⟨hrow, rfl⟩, .inr ⟨by simpa using hlive, (), _,
      ⟨by simpa using hexp, rfl⟩, (), _, rfl, ?_, rfl, rfl⟩⟩
    exact tokenUnused_updateWhere.mpr hunused

/-- Presenting a revoked token is denied, whatever the operation wrote on the way. -/
theorem refresh_of_revoked {rawToken : String} {row : RefreshToken}
    (hrow : Repository.lookupRefreshToken db (hashToken env rawToken) = some row)
    (hrevoked : row.revokedAt ≠ none) {tokens : SessionTokens} :
    ¬ (refresh env now draw rawToken).Returns db tokens db' := by
  intro h
  obtain ⟨row', hrow', ⟨hlive, _⟩, _⟩ := refresh_returns.mp h
  rw [hrow] at hrow'
  obtain rfl := Option.some.inj hrow'
  exact hrevoked hlive

/-- Logging out revokes one row or changes nothing. -/
theorem logout_returns {rawToken : String} {u : Unit}
    (h : (logout env now rawToken).Returns db u db') :
    db' = db ∨ ∃ row, Repository.lookupRefreshToken db (hashToken env rawToken) = some row ∧
      db' = { db with
        refreshTokens := Table.updateWhere db.refreshTokens (fun other => other.id = row.id)
          (fun other => other.revoke now) } := by
  simp only [logout, Service.bind_returns, Service.read_returns] at h
  obtain ⟨found, _, ⟨rfl, rfl⟩, h⟩ := h
  cases hrow : Repository.lookupRefreshToken db (hashToken env rawToken) with
  | none =>
    rw [hrow] at h
    exact .inl (Service.pure_returns.mp h).2.symm
  | some row =>
    rw [hrow] at h
    simp only [Service.ite_returns, Service.pure_returns, Repository.revokeRefreshToken,
      Repository.revokeWhere_returns] at h
    rcases h with ⟨_, _, rfl⟩ | ⟨_, rfl⟩
    · exact .inl rfl
    · exact .inr ⟨row, rfl, rfl⟩

theorem verifyOrgSelectionToken_returns {token : Option Jwt} {userId : Uuid}
    (h : (verifyOrgSelectionToken now token).Returns db userId db') :
    db' = db ∧ ∃ claims, token = some claims ∧ claims.type = some .orgSelection ∧
      claims.sub = userId := by
  simp only [verifyOrgSelectionToken, decode, Service.bind_returns, Service.orRaise_returns,
    Service.raiseIf_returns, Service.pure_returns] at h
  obtain ⟨claims, _, ⟨hdecode, rfl⟩, _, _, ⟨htype, rfl⟩, rfl, rfl⟩ := h
  exact ⟨rfl, claims, (Option.filter_eq_some_iff.mp hdecode).1, by simpa using htype, rfl⟩

theorem verifyAccessToken_returns {token : Option Jwt} {claims : TokenClaims}
    (h : (verifyAccessToken now token).Returns db claims db') :
    db' = db ∧ ∃ jwt, token = some jwt ∧ jwt.type.getD .access = .access ∧
      jwt.sub = claims.userId ∧ jwt.organizationId = some claims.organizationId := by
  simp only [verifyAccessToken, decode, Service.bind_returns, Service.orRaise_returns,
    Service.raiseIf_returns, Service.pure_returns] at h
  obtain ⟨jwt, _, ⟨hdecode, rfl⟩, _, _, ⟨htype, rfl⟩, organizationId, _, ⟨horg, rfl⟩, rfl, rfl⟩ := h
  exact ⟨rfl, jwt, (Option.filter_eq_some_iff.mp hdecode).1, by simpa using htype, rfl, horg⟩

/-- The identity behind an access token is that of its subject. -/
theorem currentIdentity_returns {accessToken : Option Jwt} {identity : Identity}
    (h : (currentIdentity now accessToken).Returns db identity db') :
    db' = db ∧ ∃ jwt, accessToken = some jwt ∧ identity.userId = some jwt.sub := by
  simp only [currentIdentity, Service.bind_returns] at h
  obtain ⟨claims, _, hverify, hresolve⟩ := h
  obtain ⟨rfl, jwt, htoken, _, hsub, _⟩ := verifyAccessToken_returns hverify
  obtain ⟨user, hget, _, rfl, rfl⟩ := Users.resolveIdentity_returns.mp hresolve
  refine ⟨rfl, jwt, htoken, ?_⟩
  rw [hsub]
  exact congrArg some (Table.get?_some hget).2

theorem issueForMember_returns {userId organizationId : Uuid} {tokens : SessionTokens}
    (h : (issueForMember env draw userId organizationId).Returns db tokens db') :
    (∃ ur ∈ db.userRoles, ur.userId = userId ∧ ur.organizationId = organizationId) ∧
      (issueSession env draw userId organizationId draw.familyId).Returns db tokens db' := by
  simp only [issueForMember, Users.listOrganizationsForLogin, Service.bind_returns,
    Service.read_returns, Service.raiseIf_returns] at h
  obtain ⟨_, _, ⟨rfl, rfl⟩, _, _, ⟨hmember, rfl⟩, hissue⟩ := h
  refine ⟨Users.Repository.mem_listOrganizationIds.mp ?_, hissue⟩
  simpa using hmember

theorem selectOrganization_returns {selectionToken : Option Jwt} {organizationId : Uuid}
    {tokens : SessionTokens}
    (h : (selectOrganization env now draw selectionToken organizationId).Returns db tokens db') :
    ∃ claims, selectionToken = some claims ∧ claims.type = some .orgSelection ∧
      (issueForMember env draw claims.sub organizationId).Returns db tokens db' := by
  simp only [selectOrganization, Service.bind_returns] at h
  obtain ⟨userId, _, hverify, hissue⟩ := h
  obtain ⟨rfl, claims, htoken, htype, rfl⟩ := verifyOrgSelectionToken_returns hverify
  exact ⟨claims, htoken, htype, hissue⟩

/-- A password login reaches the account whose hash the password verifies. -/
theorem loginWithPassword_returns {data : LoginRequest} {response : LoginResponse}
    (h : (loginWithPassword env draw data).Returns db response db') :
    ∃ user passwordHash, Users.Repository.getByEmail db data.email = some user ∧
      user.passwordHash = some passwordHash ∧ env.bcryptCheck data.password passwordHash = true ∧
      ((∃ organizationId tokens,
          Users.Repository.listOrganizationIds db user.id = [organizationId] ∧
          response = .sessionTokens tokens ∧
          (issueSession env draw user.id organizationId draw.familyId).Returns db tokens db') ∨
        (db' = db ∧ ∃ organizations, response = .organizationSelectionRequired
          (issueOrgSelectionToken env draw.issuedAt user.id) organizations)) := by
  simp only [loginWithPassword, Users.getCredentialLookup, Users.listOrganizationsForLogin,
    Service.bind_returns, Service.read_returns, Service.orRaise_returns,
    Service.raiseIf_returns] at h
  obtain ⟨_, _, ⟨rfl, rfl⟩, lookup, _, ⟨hverified, rfl⟩, _, _, ⟨_, rfl⟩, ids, _, ⟨hids, rfl⟩, h⟩ := h
  obtain ⟨hfound, hcheck⟩ := Option.filter_eq_some_iff.mp hverified
  obtain ⟨user, huser, rfl⟩ := Option.map_eq_some_iff.mp hfound
  cases hhash : user.passwordHash with
  | none => simp [hhash] at hcheck
  | some passwordHash =>
    refine ⟨user, passwordHash, huser, hhash, by simpa [hhash] using hcheck, ?_⟩
    rcases ids with _ | ⟨organizationId, _ | ⟨other, others⟩⟩
    · exact absurd h Service.raise_returns
    · simp only [Service.bind_returns, Service.pure_returns] at h
      obtain ⟨tokens, _, hissue, rfl, rfl⟩ := h
      exact .inl ⟨organizationId, tokens, hids, rfl, hissue⟩
    · simp only [Service.bind_returns, Service.read_returns, Service.pure_returns] at h
      obtain ⟨_, _, ⟨rfl, rfl⟩, rfl, rfl⟩ := h
      exact .inr ⟨rfl, _, rfl⟩

/-- What joining an organization through an invitation or a policy does to the
accounts and their roles, for the account of `email`. -/
def Joins (db db' : Db) (id : Uuid) (email displayName : String) (organizationId userId : Uuid) :
    Prop :=
  Users.AccountFor db.users id email displayName userId db'.users ∧
    ∃ roleId, ∀ ur, ur ∈ db'.userRoles ↔
      ur ∈ db.userRoles ∨ ur = { userId, organizationId, roleId }

theorem resolveOrProvisionUser_returns {organizationId userId : Uuid}
    {idpClaims : VerifiedIdPClaims}
    (h : (resolveOrProvisionUser env now draw organizationId idpClaims).Returns db userId db') :
    (db' = db ∧ ∃ mapping, mapping.userId = userId ∧
        Repository.getExternalIdentityMapping db organizationId idpClaims.sub = some mapping) ∨
      (Repository.getExternalIdentityMapping db organizationId idpClaims.sub = none ∧
        (policyDecision env now db organizationId idpClaims.email idpClaims.groups).allowed = true ∧
        Joins db db' draw.userId idpClaims.email (orElse idpClaims.name idpClaims.email)
          organizationId userId ∧
        db'.invitations.map Invitation.ident = db.invitations.map Invitation.ident ∧
        db' = { db with
          users := db'.users
          userRoles := db'.userRoles
          invitations := db'.invitations
          externalIdentityMappings := db.externalIdentityMappings ++
            [{ id := draw.mappingId, organizationId, userId, idpSubject := idpClaims.sub }] }) := by
  simp only [resolveOrProvisionUser, Service.bind_returns, Service.read_returns] at h
  obtain ⟨_, _, ⟨rfl, rfl⟩, h⟩ := h
  cases hmap : Repository.getExternalIdentityMapping db organizationId idpClaims.sub with
  | some mapping =>
    rw [hmap] at h
    obtain ⟨rfl, rfl⟩ := Service.pure_returns.mp h
    exact .inl ⟨rfl, mapping, rfl, rfl⟩
  | none =>
    rw [hmap] at h
    simp only [Service.bind_returns, Service.raiseIf_returns, Service.orRaise_returns,
      Service.pure_returns] at h
    obtain ⟨decision, db₁, hevaluate, _, _, ⟨hallowed, rfl⟩, roleId, _, ⟨_, rfl⟩, _, db₂,
      haccount, _, db₃, hrole, _, db₄, haccept, _, _, hinsert, rfl, rfl⟩ := h
    obtain ⟨hdecision, h₁, hident₁⟩ := evaluateProvisioning_returns hevaluate
    obtain ⟨hfor, h₂⟩ := Users.getOrCreateUser_returns haccount
    obtain ⟨h₃, hroles⟩ := Users.assignRole_returns hrole
    obtain ⟨h₄, hident₄⟩ : Restatused db₃ db₄ := by
      unfold acceptMatchedInvitation at haccept
      split at haccept
      · exact acceptInvitation_returns haccept
      · obtain ⟨_, rfl⟩ := Service.pure_returns.mp haccept
        exact .refl _
    have h₅ := Repository.insertExternalIdentityMapping_returns hinsert
    rw [hdecision] at hallowed
    generalize db₁.invitations = inv₁ at h₁ hident₁
    generalize db₄.invitations = inv₄ at h₄ hident₄
    generalize hrs : db₃.userRoles = roles at h₃ hroles
    generalize hus : db₂.users = users at h₂ hfor
    subst h₁ h₂ h₃ h₄ h₅
    exact .inr ⟨rfl, by simpa using hallowed, ⟨hfor, roleId, hroles⟩, hident₄.trans hident₁, rfl⟩

theorem completeSsoLogin_returns {orgSlug redirectUri : String}
    {exchange : SSOConfiguration → Except Exn VerifiedIdPClaims} {tokens : SessionTokens}
    (h : (completeSsoLogin env now draw orgSlug redirectUri exchange).Returns db tokens db') :
    ∃ ssoConfig idpClaims userId db₁, ssoConfig ∈ db.ssoConfigurations ∧
      exchange ssoConfig = .ok idpClaims ∧
      (resolveOrProvisionUser env now draw ssoConfig.organizationId idpClaims).Returns
        db userId db₁ ∧
      (issueSession env draw userId ssoConfig.organizationId draw.familyId).Returns
        db₁ tokens db' := by
  simp only [completeSsoLogin, assertRedirectUriAllowed, getOrganizationSsoConfig,
    Service.bind_returns, Service.raiseIf_returns, Service.read_returns, Service.orRaise_returns,
    Service.ofExcept_returns] at h
  obtain ⟨_, _, ⟨_, rfl⟩, ssoConfig, _, ⟨_, _, ⟨rfl, rfl⟩, org, _, ⟨_, rfl⟩, _, _, ⟨rfl, rfl⟩,
    hconfig, rfl⟩, idpClaims, _, ⟨hexchange, rfl⟩, userId, db₁, hresolve, hissue⟩ := h
  exact ⟨ssoConfig, idpClaims, userId, db₁, (Table.get?_some hconfig).1, hexchange, hresolve,
    hissue⟩

/-- Accepting an invitation sets the password of whatever account has its email. -/
theorem acceptInvitationWithPassword_returns {invitationId : Uuid}
    {data : InvitationAcceptRequest} {tokens : SessionTokens}
    (h : (acceptInvitationWithPassword env now draw invitationId data).Returns db tokens db') :
    ∃ invitation userId db₁ db₂, getInvitationById db invitationId = some invitation ∧
      invitation.tokenHash = some (env.hashOpaqueToken data.token) ∧
      invitation.status = .pending ∧ now < invitation.expiresAt ∧
      Joins db db₁ draw.userId invitation.email (orElse data.displayName invitation.email)
        invitation.organizationId userId ∧
      db₁ = { db with users := db₁.users, userRoles := db₁.userRoles } ∧
      db₂ = { db₁ with
        users := Table.updateWhere db₁.users (fun user => user.id = userId) (fun user =>
          { user with passwordHash := some (env.bcryptHash draw.salt data.password) })
        invitations := db₂.invitations } ∧
      db₂.invitations.map Invitation.ident = db.invitations.map Invitation.ident ∧
      (issueSession env draw userId invitation.organizationId draw.familyId).Returns
        db₂ tokens db' := by
  simp only [acceptInvitationWithPassword, Service.bind_returns, Service.read_returns,
    Service.orRaise_returns, Service.raiseIf_returns] at h
  obtain ⟨_, _, ⟨rfl, rfl⟩, invitation, _, ⟨hfound, rfl⟩, _, _, ⟨htoken, rfl⟩, _, _,
    ⟨hpending, rfl⟩, _, _, ⟨hexpiry, rfl⟩, userId, dbA, haccount, _, dbB, hpassword, _, dbC, hrole, _, dbD, haccept,
    hissue⟩ := h
  obtain ⟨hfor, hA⟩ := Users.getOrCreateUser_returns haccount
  have hB := Users.setPassword_returns hpassword
  obtain ⟨hC, hroles⟩ := Users.assignRole_returns hrole
  obtain ⟨hD, hident⟩ := acceptInvitation_returns haccept
  generalize dbD.invitations = invitations at hD hident
  generalize hrs : dbC.userRoles = roles at hC hroles
  generalize hus : dbA.users = users at hA hfor
  subst hA hB hC hD
  refine ⟨invitation, userId, { db with users, userRoles := roles }, _, hfound, by simpa using htoken,
    by simpa using hpending, by simpa using hexpiry, ⟨hfor, _, hroles⟩, rfl, rfl, hident, hissue⟩

end Ekip.Core.Auth
