import Ekip.Core.Auth.Service
import Ekip.Lib.Run

/-!
# What an organization's administrator can reach

A party that controls organization `A` only: it invites any email to `A` and
receives the raw token, accepts what it was invited to with any password, makes
the identity provider of `A` assert any claims, and uses every token it was
given. Accounts are global and looked up by email, so the first invitation or
assertion for an account of organization `B` hands the account over.
-/
namespace Ekip.Core.Auth.Takeover

open Ekip.Lib Ekip.Database Ekip.Shared Ekip.Core Ekip.Core.Tenancy

/-- The account holds a role in the organization. -/
def Member (db : Db) (organizationId userId : Uuid) : Prop :=
  ∃ ur ∈ db.userRoles, ur.userId = userId ∧ ur.organizationId = organizationId

instance (db : Db) (organizationId userId : Uuid) : Decidable (Member db organizationId userId) :=
  inferInstanceAs (Decidable (∃ _ ∈ _, _ ∧ _))

/-- The email is that of an account with a role in the organization. -/
def MemberEmail (db : Db) (organizationId : Uuid) (email : String) : Prop :=
  ∃ user ∈ db.users, user.email = email ∧ Member db organizationId user.id

instance (db : Db) (organizationId : Uuid) (email : String) :
    Decidable (MemberEmail db organizationId email) :=
  inferInstanceAs (Decidable (∃ _ ∈ _, _ ∧ _))

/-- The database, and what the party has been given: signed tokens, raw refresh
tokens, and invitations with their raw token. -/
structure World where
  db : Db
  jwts : List Jwt := []
  rawTokens : List String := []
  invitations : List (Uuid × String) := []

inductive Request
  | createInvitation (actor : Identity) (organizationId id : Uuid) (rawToken : String)
      (data : InvitationCreate)
  | acceptInvitation (invitationId : Uuid) (data : InvitationAcceptRequest)
  /-- `idpClaims` is what the identity provider of `A` asserts. -/
  | ssoLogin (orgSlug redirectUri : String) (idpClaims : Except Exn VerifiedIdPClaims)
  | login (data : LoginRequest)
  | selectOrganization (selectionToken : Option Jwt) (organizationId : Uuid)
  | switchOrganization (accessToken : Option Jwt) (organizationId : Uuid)
  | refresh (rawToken : String)

structure Call where
  now : Instant
  draw : Draw
  request : Request

inductive Reply
  | invited (id : Uuid) (rawToken : String)
  | response (response : LoginResponse)

/-- The provider of `A` answers; no other provider asserts anything to the party. -/
def exchange (A : Uuid) (idpClaims : Except Exn VerifiedIdPClaims) (config : SSOConfiguration) :
    Except Exn VerifiedIdPClaims :=
  if config.organizationId = A then idpClaims
  else .error (permissionDenied "Could not find a matching signing key for this ID token."
    "auth.idp_key_not_found")

def tokensReply (tokens : SessionTokens) : Reply := .response (.sessionTokens tokens)

def handle (env : Env) (A : Uuid) (call : Call) : ServiceM Reply :=
  match call.request with
  | .createInvitation actor organizationId id rawToken data => do
    let created ← createInvitation env call.now id rawToken actor organizationId data
    pure (.invited created.1.id created.2)
  | .acceptInvitation invitationId data => do
    let tokens ← acceptInvitationWithPassword env call.now call.draw invitationId data
    pure (tokensReply tokens)
  | .ssoLogin orgSlug redirectUri idpClaims => do
    let tokens ← completeSsoLogin env call.now call.draw orgSlug redirectUri (exchange A idpClaims)
    pure (tokensReply tokens)
  | .login data => do
    let response ← loginWithPassword env call.draw data
    pure (.response response)
  | .selectOrganization selectionToken organizationId => do
    let tokens ← selectOrganization env call.now call.draw selectionToken organizationId
    pure (tokensReply tokens)
  | .switchOrganization accessToken organizationId => do
    let actor ← currentIdentity call.now accessToken
    let userId ← Service.orRaise actor.userId
      (validation "Only a user identity can switch organizations." "user.no_profile")
    let tokens ← switchOrganization env call.draw userId organizationId
    pure (tokensReply tokens)
  | .refresh rawToken => do
    let tokens ← refresh env call.now call.draw rawToken
    pure (tokensReply tokens)

/-- What the party can ask for: the requests of an administrator of `A`, the
tokens it holds, and passwords that open no account of `B` as it was in `start`. -/
def Possible (env : Env) (A B : Uuid) (start : Db) (w : World) (call : Call) : Prop :=
  match call.request with
  | .createInvitation actor _ _ _ _ => actor.organizationId = A
  | .acceptInvitation invitationId data => (invitationId, data.token) ∈ w.invitations
  | .ssoLogin _ _ _ => True
  | .login data => ∀ user ∈ start.users, Member start B user.id →
      ∀ passwordHash ∈ user.passwordHash, env.bcryptCheck data.password passwordHash = false
  | .selectOrganization selectionToken _ => ∀ jwt ∈ selectionToken, jwt ∈ w.jwts
  | .switchOrganization accessToken _ => ∀ jwt ∈ accessToken, jwt ∈ w.jwts
  | .refresh rawToken => rawToken ∈ w.rawTokens

instance (env : Env) (A B : Uuid) (start : Db) (w : World) (call : Call) :
    Decidable (Possible env A B start w call) := by
  unfold Possible
  split <;> infer_instance

def World.learn (w : World) (db : Db) : Reply → World
  | .invited id rawToken => { w with db, invitations := (id, rawToken) :: w.invitations }
  | .response (.sessionTokens tokens) =>
    { w with db, jwts := tokens.accessToken :: w.jwts
             rawTokens := tokens.refreshToken :: w.rawTokens }
  | .response (.organizationSelectionRequired selectionToken _) =>
    { w with db, jwts := selectionToken :: w.jwts }

/-- One request in its own transaction; a raise teaches nothing. -/
def step (env : Env) (A B : Uuid) (start : Db) (w : World) (call : Call) : Option World :=
  if Possible env A B start w call then
    match getDbSession (handle env A call) w.db with
    | (.ok reply, db) => some (w.learn db reply)
    | (.error _, db) => some { w with db }
  else none

/-- No accepted invitation, and no login that the provider of `A` brings about,
is for an account that holds a role in `B`. -/
def AvoidsMembers (env : Env) (A B : Uuid) (w : World) (call : Call) : Prop :=
  match call.request with
  | .acceptInvitation invitationId _ => ∀ invitation ∈ getInvitationById w.db invitationId,
      invitation.status = .pending → call.now < invitation.expiresAt →
        ¬ MemberEmail w.db B invitation.email
  | .ssoLogin _ _ (.ok idpClaims) =>
    match Repository.getExternalIdentityMapping w.db A idpClaims.sub with
    | some mapping => ¬ Member w.db B mapping.userId
    | none =>
      (policyDecision env call.now w.db A idpClaims.email idpClaims.groups).allowed = true →
        ¬ MemberEmail w.db B idpClaims.email
  | _ => True

instance (env : Env) (A B : Uuid) (w : World) (call : Call) :
    Decidable (AvoidsMembers env A B w call) := by
  unfold AvoidsMembers
  split
  · infer_instance
  · split <;> infer_instance
  · infer_instance

/-- No token for `B` was given to the party, and the account of `u` is as it was. -/
structure NoTakeover (env : Env) (B : Uuid) (u : User) (w : World) : Prop where
  access : ∀ jwt ∈ w.jwts, jwt.organizationId ≠ some B
  refresh : ∀ rawToken ∈ w.rawTokens, ∀ row ∈ w.db.refreshTokens,
    row.tokenHash = hashToken env rawToken → row.organizationId ≠ B
  password : ∃ user, Users.Repository.getById w.db u.id = some user ∧
    user.passwordHash = u.passwordHash

/-! ## Invariants -/

/-- A session of an account outside `B`, in another organization. -/
def Harmless (start : Db) (B userId organizationId : Uuid) : Prop :=
  ¬ Member start B userId ∧ organizationId ≠ B

/-- The accounts of `B` and their roles are as in `start`. -/
structure Untouched (start : Db) (B : Uuid) (db : Db) : Prop where
  idUnique : Table.KeyUnique User.id db.users
  emailUnique : Table.KeyUnique User.email db.users
  roles : ∀ ur, ur.organizationId = B → (ur ∈ db.userRoles ↔ ur ∈ start.userRoles)
  accounts : ∀ user ∈ start.users, Member start B user.id → user ∈ db.users
  hasAccount : ∀ userId, Member start B userId → ∃ user ∈ start.users, user.id = userId

structure Safe (env : Env) (A B : Uuid) (start : Db) (w : World) : Prop where
  db : Untouched start B w.db
  jwts : ∀ jwt ∈ w.jwts, ¬ Member start B jwt.sub ∧ jwt.organizationId ≠ some B
  sessions : ∀ rawToken ∈ w.rawTokens, ∀ row ∈ w.db.refreshTokens,
    row.tokenHash = hashToken env rawToken → Harmless start B row.userId row.organizationId
  invitations : ∀ invited ∈ w.invitations, ∀ row ∈ w.db.invitations, row.id = invited.1 →
    row.organizationId = A

variable {env : Env} {A B : Uuid} {start : Db} {w : World}

namespace Untouched

variable {db db' : Db}

theorem member_iff (h : Untouched start B db) {userId : Uuid} :
    Member db B userId ↔ Member start B userId := by
  constructor
  · rintro ⟨ur, hur, huser, horg⟩
    exact ⟨ur, (h.roles ur horg).mp hur, huser, horg⟩
  · rintro ⟨ur, hur, huser, horg⟩
    exact ⟨ur, (h.roles ur horg).mpr hur, huser, horg⟩

/-- The row of a member is the one of `start`. -/
theorem row_of_member (h : Untouched start B db) {user : User} (huser : user ∈ db.users)
    (hmember : Member start B user.id) : user ∈ start.users := by
  obtain ⟨original, horiginal, hid⟩ := h.hasAccount user.id hmember
  have hkept : original ∈ db.users := h.accounts original horiginal (by rwa [hid])
  obtain rfl := h.idUnique original hkept user huser hid
  exact horiginal

theorem of_same (h : Untouched start B db) (husers : db'.users = db.users)
    (hroles : db'.userRoles = db.userRoles) : Untouched start B db' where
  idUnique := by rw [husers]; exact h.idUnique
  emailUnique := by rw [husers]; exact h.emailUnique
  roles := by rw [hroles]; exact h.roles
  accounts := by rw [husers]; exact h.accounts
  hasAccount := h.hasAccount

/-- Joining another organization under an email that no member of `B` has. -/
theorem joins (h : Untouched start B db) (hAB : A ≠ B) {id userId : Uuid}
    {email displayName : String} (hjoins : Joins db db' id email displayName A userId)
    (havoids : ¬ MemberEmail db B email) :
    Untouched start B db' ∧ ¬ Member start B userId := by
  obtain ⟨haccount, roleId, hroles⟩ := hjoins
  have hrolesB : ∀ ur, ur.organizationId = B → (ur ∈ db'.userRoles ↔ ur ∈ start.userRoles) := by
    intro ur hur
    rw [hroles, h.roles ur hur]
    refine or_iff_left ?_
    rintro rfl
    exact hAB hur
  rcases haccount with ⟨user, huser, hemail, rfl, husers⟩ | ⟨rfl, hfresh, husers⟩
  · refine ⟨⟨?_, ?_, hrolesB, ?_, h.hasAccount⟩, fun hmember => havoids ?_⟩
    · rw [husers]
      exact h.idUnique
    · rw [husers]
      exact h.emailUnique
    · rw [husers]
      exact h.accounts
    · exact ⟨user, huser, hemail, h.member_iff.mpr hmember⟩
  · refine ⟨⟨?_, ?_, hrolesB, ?_, h.hasAccount⟩, fun hmember => ?_⟩
    · rw [husers]
      exact Table.keyUnique_append h.idUnique fun user huser => (hfresh user huser).1
    · rw [husers]
      exact Table.keyUnique_append h.emailUnique fun user huser => (hfresh user huser).2
    · intro user huser hmember
      rw [husers]
      exact List.mem_append_left _ (h.accounts user huser hmember)
    · obtain ⟨original, horiginal, hid⟩ := h.hasAccount _ hmember
      exact (hfresh original (h.accounts original horiginal (by rwa [hid]))).1 hid

/-- Setting the password of an account outside `B`. -/
theorem setPassword (h : Untouched start B db) {userId : Uuid} {passwordHash : String}
    (hmember : ¬ Member start B userId)
    (husers : db'.users = Table.updateWhere db.users (fun user => user.id = userId)
      (fun user => { user with passwordHash := some passwordHash }))
    (hroles : db'.userRoles = db.userRoles) : Untouched start B db' where
  idUnique := by
    rw [husers]
    exact Table.keyUnique_updateWhere h.idUnique fun _ _ => rfl
  emailUnique := by
    rw [husers]
    exact Table.keyUnique_updateWhere h.emailUnique fun _ _ => rfl
  roles := by
    rw [hroles]
    exact h.roles
  accounts := by
    intro user huser hmemberUser
    rw [husers]
    refine Table.mem_updateWhere.mpr ⟨user, h.accounts user huser hmemberUser, if_neg ?_⟩
    simp only [decide_eq_true_eq]
    rintro rfl
    exact hmember hmemberUser
  hasAccount := h.hasAccount

end Untouched

namespace Safe

/-- A change of the database that adds no session. -/
theorem setDb (h : Safe env A B start w) {db : Db} (hdb : Untouched start B db)
    (htokens : ∀ row ∈ db.refreshTokens, ∃ old ∈ w.db.refreshTokens, old.ident = row.ident)
    (hinvitations : db.invitations.map Invitation.ident = w.db.invitations.map Invitation.ident) :
    Safe env A B start { w with db } where
  db := hdb
  jwts := h.jwts
  sessions := by
    intro rawToken hraw row hrow hhash
    obtain ⟨old, hold, hident⟩ := htokens row hrow
    obtain ⟨_, huser, horg, _, hold_hash, _⟩ := RefreshToken.ident_eq_iff.mp hident
    have hharmless := h.sessions rawToken hraw old hold (hold_hash.trans hhash)
    rwa [huser, horg] at hharmless
  invitations := by
    intro invited hinvited row hrow hid
    have hmem : row.ident ∈ w.db.invitations.map Invitation.ident := by
      rw [← hinvitations]
      exact List.mem_map_of_mem hrow
    obtain ⟨old, hold, hident⟩ := List.mem_map.mp hmem
    simp only [Invitation.ident, Invitation.mk.injEq] at hident
    have horg := h.invitations invited hinvited old hold (hident.1.trans hid)
    exact hident.2.1.symm.trans horg

/-- A session for an account outside `B`, in another organization. -/
theorem append (h : Safe env A B start w) {draw : Draw} {userId organizationId familyId : Uuid}
    {tokens : SessionTokens} (hharmless : Harmless start B userId organizationId)
    (hunused : draw.TokenUnused env w.db.refreshTokens)
    (htokens : tokens = sessionTokens env draw userId organizationId) :
    Safe env A B start (w.learn { w.db with refreshTokens :=
      w.db.refreshTokens ++ [sessionRow env draw userId organizationId familyId] }
      (tokensReply tokens)) where
  db := h.db.of_same rfl rfl
  jwts := by
    intro jwt hjwt
    rcases List.mem_cons.mp hjwt with rfl | hold
    · rw [htokens]
      exact ⟨hharmless.1, fun heq => hharmless.2 (Option.some.inj heq)⟩
    · exact h.jwts jwt hold
  sessions := by
    intro rawToken hraw row hrow hhash
    rcases List.mem_append.mp hrow with hold | hnew
    · rcases List.mem_cons.mp hraw with rfl | hrawOld
      · rw [htokens] at hhash
        exact absurd hhash (hunused row hold).2
      · exact h.sessions rawToken hrawOld row hold hhash
    · rw [List.mem_singleton.mp hnew]
      exact hharmless
  invitations := h.invitations

theorem issue (h : Safe env A B start w) {draw : Draw} {userId organizationId familyId : Uuid}
    {tokens : SessionTokens} {db' : Db} (hharmless : Harmless start B userId organizationId)
    (hissue : (issueSession env draw userId organizationId familyId).Returns w.db tokens db') :
    Safe env A B start (w.learn db' (tokensReply tokens)) := by
  obtain ⟨hunused, htokens, rfl⟩ := issueSession_returns.mp hissue
  exact h.append hharmless hunused htokens

/-- Selecting or switching reaches no organization the account is not in. -/
theorem issueForMember (h : Safe env A B start w) {draw : Draw} {userId organizationId : Uuid}
    {tokens : SessionTokens} {db' : Db} (huser : ¬ Member start B userId)
    (hissue : (Auth.issueForMember env draw userId organizationId).Returns w.db tokens db') :
    Safe env A B start (w.learn db' (tokensReply tokens)) := by
  obtain ⟨⟨ur, hur, huserId, horg⟩, hsession⟩ := issueForMember_returns hissue
  refine h.issue ⟨huser, ?_⟩ hsession
  rintro rfl
  exact huser (h.db.member_iff.mp ⟨ur, hur, huserId, horg⟩)

theorem refreshed (h : Safe env A B start w) {now : Instant} {draw : Draw} {rawToken : String}
    {tokens : SessionTokens} {db' : Db} (hraw : rawToken ∈ w.rawTokens)
    (hrefresh : (refresh env now draw rawToken).Returns w.db tokens db') :
    Safe env A B start (w.learn db' (tokensReply tokens)) := by
  obtain ⟨row, hrow, _, hunused, htokens, rfl⟩ := refresh_returns.mp hrefresh
  rw [Repository.lookupRefreshToken_eq] at hrow
  obtain ⟨hmem, hhash⟩ := Table.get?_some hrow
  have hharmless := h.sessions rawToken hraw row hmem hhash
  let rows := Table.updateWhere w.db.refreshTokens (fun other => other.id = row.id)
    (fun other => other.revoke now)
  have hsame : ∀ revoked ∈ rows, ∃ old ∈ w.db.refreshTokens, old.ident = revoked.ident := by
    intro revoked hrevoked
    obtain ⟨old, hold, rfl⟩ := Table.mem_updateWhere.mp hrevoked
    refine ⟨old, hold, ?_⟩
    split <;> rfl
  have hrevoked : Safe env A B start { w with db := { w.db with refreshTokens := rows } } :=
    h.setDb (h.db.of_same rfl rfl) hsame rfl
  exact hrevoked.append hharmless (tokenUnused_updateWhere.mpr hunused) htokens

/-- An invitation to `A` that is not for a member of `B`. -/
theorem accepted (h : Safe env A B start w) (hAB : A ≠ B) {now : Instant} {draw : Draw}
    {invitationId : Uuid} {data : InvitationAcceptRequest} {tokens : SessionTokens} {db' : Db}
    (hknown : (invitationId, data.token) ∈ w.invitations)
    (havoids : ∀ invitation ∈ getInvitationById w.db invitationId, invitation.status = .pending →
      now < invitation.expiresAt → ¬ MemberEmail w.db B invitation.email)
    (haccept : (acceptInvitationWithPassword env now draw invitationId data).Returns
      w.db tokens db') :
    Safe env A B start (w.learn db' (tokensReply tokens)) := by
  obtain ⟨invitation, userId, db₁, db₂, hfound, _, hpending, hexpiry, hjoins, h₁, h₂, hident,
    hissue⟩ := acceptInvitationWithPassword_returns haccept
  obtain ⟨hmem, hid⟩ := Table.get?_some hfound
  have horg : invitation.organizationId = A := h.invitations _ hknown invitation hmem hid
  rw [horg] at hjoins hissue
  obtain ⟨hdb₁, huser⟩ := h.db.joins hAB hjoins (havoids invitation hfound hpending hexpiry)
  have hdb₂ : Untouched start B db₂ := hdb₁.setPassword huser (by rw [h₂]) (by rw [h₂])
  have htokens : db₂.refreshTokens = w.db.refreshTokens := by rw [h₂, h₁]
  have hsafe := h.setDb hdb₂ (fun row hrow => ⟨row, by rwa [htokens] at hrow, rfl⟩) hident
  exact hsafe.issue ⟨huser, hAB⟩ hissue

/-- A login that the provider of `A` brings about, not for a member of `B`. -/
theorem ssoLogin (h : Safe env A B start w) (hAB : A ≠ B) {call : Call} {orgSlug redirectUri : String}
    {idpClaims : Except Exn VerifiedIdPClaims} {tokens : SessionTokens} {db' : Db}
    (hrequest : call.request = .ssoLogin orgSlug redirectUri idpClaims)
    (havoids : AvoidsMembers env A B w call)
    (hlogin : (completeSsoLogin env call.now call.draw orgSlug redirectUri
      (exchange A idpClaims)).Returns w.db tokens db') :
    Safe env A B start (w.learn db' (tokensReply tokens)) := by
  obtain ⟨config, claims, userId, db₁, _, hexchange, hresolve, hissue⟩ :=
    completeSsoLogin_returns hlogin
  unfold exchange at hexchange
  split at hexchange
  case isFalse => cases hexchange
  case isTrue horg =>
    subst hexchange
    rw [horg] at hresolve hissue
    simp only [AvoidsMembers, hrequest] at havoids
    rcases resolveOrProvisionUser_returns hresolve with
      ⟨rfl, mapping, rfl, hmapping⟩ | ⟨hunmapped, hallowed, hjoins, hident, hdb₁⟩
    · rw [hmapping] at havoids
      exact h.issue ⟨fun hmember => havoids (h.db.member_iff.mpr hmember), hAB⟩ hissue
    · rw [hunmapped] at havoids
      obtain ⟨hdb, huser⟩ := h.db.joins hAB hjoins (havoids hallowed)
      have htokens : db₁.refreshTokens = w.db.refreshTokens := by rw [hdb₁]
      have hsafe := h.setDb hdb (fun row hrow => ⟨row, by rwa [htokens] at hrow, rfl⟩) hident
      exact hsafe.issue ⟨huser, hAB⟩ hissue

/-- A password login opens no account of `B`. -/
theorem login (h : Safe env A B start w) {draw : Draw} {data : LoginRequest}
    {response : LoginResponse} {db' : Db}
    (hsecret : ∀ user ∈ start.users, Member start B user.id →
      ∀ passwordHash ∈ user.passwordHash, env.bcryptCheck data.password passwordHash = false)
    (hlogin : (loginWithPassword env draw data).Returns w.db response db') :
    Safe env A B start (w.learn db' (.response response)) := by
  obtain ⟨user, passwordHash, hget, hhash, hcheck, houtcome⟩ := loginWithPassword_returns hlogin
  have huser : ¬ Member start B user.id := by
    intro hmember
    have hstart := h.db.row_of_member (Table.get?_some hget).1 hmember
    rw [hsecret user hstart hmember passwordHash hhash] at hcheck
    cases hcheck
  rcases houtcome with ⟨organizationId, tokens, horgs, rfl, hissue⟩ | ⟨rfl, organizations, rfl⟩
  · refine h.issue ⟨huser, ?_⟩ hissue
    rintro rfl
    have hmem : organizationId ∈ Users.Repository.listOrganizationIds w.db user.id := by
      rw [horgs]
      exact List.mem_singleton_self _
    exact huser (h.db.member_iff.mp (Users.Repository.mem_listOrganizationIds.mp hmem))
  · refine ⟨h.db, fun jwt hjwt => ?_, h.sessions, h.invitations⟩
    rcases List.mem_cons.mp hjwt with rfl | hold
    · exact ⟨huser, nofun⟩
    · exact h.jwts jwt hold

theorem invited (h : Safe env A B start w) {now : Instant} {actor : Identity}
    {organizationId id : Uuid} {rawToken : String} {data : InvitationCreate}
    {created : Invitation × String} {db' : Db} (hactor : actor.organizationId = A)
    (hcreate : (createInvitation env now id rawToken actor organizationId data).Returns
      w.db created db') :
    Safe env A B start (w.learn db' (.invited created.1.id created.2)) := by
  obtain ⟨horg, _, hid, hrow, _, rfl, hfresh⟩ := createInvitation_returns hcreate
  refine ⟨h.db.of_same rfl rfl, h.jwts, h.sessions, fun invited hinvited row hmem heq => ?_⟩
  rcases List.mem_append.mp hmem with hold | hnew
  · rcases List.mem_cons.mp hinvited with rfl | hinvited
    · exact absurd (heq.trans hid) (hfresh row hold)
    · exact h.invitations invited hinvited row hold heq
  · rw [List.mem_singleton.mp hnew, hrow, ← horg, hactor]

/-- One request of the party. -/
theorem handled (h : Safe env A B start w) (hAB : A ≠ B) {call : Call} {reply : Reply} {db' : Db}
    (hpossible : Possible env A B start w call) (havoids : AvoidsMembers env A B w call)
    (hreturns : (handle env A call).Returns w.db reply db') :
    Safe env A B start (w.learn db' reply) := by
  unfold handle at hreturns
  cases hrequest : call.request with
  | createInvitation actor organizationId id rawToken data =>
    simp only [Possible, hrequest] at hpossible
    simp only [hrequest, Service.bind_returns, Service.pure_returns] at hreturns
    obtain ⟨_, _, hcreate, rfl, rfl⟩ := hreturns
    exact h.invited hpossible hcreate
  | acceptInvitation invitationId data =>
    simp only [Possible, hrequest] at hpossible
    simp only [AvoidsMembers, hrequest] at havoids
    simp only [hrequest, Service.bind_returns, Service.pure_returns] at hreturns
    obtain ⟨_, _, haccept, rfl, rfl⟩ := hreturns
    exact h.accepted hAB hpossible havoids haccept
  | ssoLogin orgSlug redirectUri idpClaims =>
    simp only [hrequest, Service.bind_returns, Service.pure_returns] at hreturns
    obtain ⟨_, _, hlogin, rfl, rfl⟩ := hreturns
    exact h.ssoLogin hAB hrequest havoids hlogin
  | login data =>
    simp only [Possible, hrequest] at hpossible
    simp only [hrequest, Service.bind_returns, Service.pure_returns] at hreturns
    obtain ⟨_, _, hlogin, rfl, rfl⟩ := hreturns
    exact h.login hpossible hlogin
  | selectOrganization selectionToken organizationId =>
    simp only [Possible, hrequest] at hpossible
    simp only [hrequest, Service.bind_returns, Service.pure_returns] at hreturns
    obtain ⟨_, _, hselect, rfl, rfl⟩ := hreturns
    obtain ⟨jwt, rfl, _, hissue⟩ := selectOrganization_returns hselect
    exact h.issueForMember (h.jwts jwt (hpossible jwt rfl)).1 hissue
  | switchOrganization accessToken organizationId =>
    simp only [Possible, hrequest] at hpossible
    simp only [hrequest, Service.bind_returns, Service.orRaise_returns,
      Service.pure_returns] at hreturns
    obtain ⟨actor, _, hidentity, userId, _, ⟨huserId, rfl⟩, _, _, hswitch, rfl, rfl⟩ := hreturns
    obtain ⟨rfl, jwt, rfl, hsub⟩ := currentIdentity_returns hidentity
    obtain rfl : jwt.sub = userId := Option.some.inj (hsub.symm.trans huserId)
    exact h.issueForMember (h.jwts jwt (hpossible jwt rfl)).1 hswitch
  | refresh rawToken =>
    simp only [Possible, hrequest] at hpossible
    simp only [hrequest, Service.bind_returns, Service.pure_returns] at hreturns
    obtain ⟨_, _, hrefresh, rfl, rfl⟩ := hreturns
    exact h.refreshed hpossible hrefresh

theorem step (h : Safe env A B start w) (hAB : A ≠ B) {w' : World} {call : Call}
    (havoids : AvoidsMembers env A B w call)
    (hstep : Takeover.step env A B start w call = some w') : Safe env A B start w' := by
  unfold Takeover.step at hstep
  split at hstep
  case isFalse => cases hstep
  case isTrue hpossible =>
    obtain ⟨reply, db', hreturns, heq⟩ | ⟨e, _, heq⟩ :=
      Service.transaction_cases (handle env A call) w.db
    · simp only [getDbSession, heq, Option.some.injEq] at hstep
      subst hstep
      exact h.handled hAB hpossible havoids hreturns
    · simp only [getDbSession, heq, Option.some.injEq] at hstep
      subst hstep
      exact h

theorem noTakeover (h : Safe env A B start w) {u : User} (hu : u ∈ start.users)
    (hmember : Member start B u.id) : NoTakeover env B u w where
  access := fun jwt hjwt => (h.jwts jwt hjwt).2
  refresh := fun rawToken hraw row hrow hhash => (h.sessions rawToken hraw row hrow hhash).2
  password := ⟨u, Table.get?_of_mem h.db.idUnique (h.db.accounts u hu hmember), rfl⟩

end Safe

/-- Where a run starts: the constraints of the tables, and a party that holds
nothing of an account of `B` and invitations to `A` only. -/
structure Start (env : Env) (A B : Uuid) (w : World) : Prop where
  idUnique : Table.KeyUnique User.id w.db.users
  emailUnique : Table.KeyUnique User.email w.db.users
  hasAccount : ∀ ur ∈ w.db.userRoles, ∃ user ∈ w.db.users, user.id = ur.userId
  jwts : ∀ jwt ∈ w.jwts, ¬ Member w.db B jwt.sub ∧ jwt.organizationId ≠ some B
  sessions : ∀ rawToken ∈ w.rawTokens, ∀ row ∈ w.db.refreshTokens,
    row.tokenHash = hashToken env rawToken → Harmless w.db B row.userId row.organizationId
  invitations : ∀ invited ∈ w.invitations, ∀ row ∈ w.db.invitations, row.id = invited.1 →
    row.organizationId = A

theorem Start.safe (h : Start env A B w) : Safe env A B w.db w where
  db :=
    { idUnique := h.idUnique
      emailUnique := h.emailUnique
      roles := fun _ _ => Iff.rfl
      accounts := fun _ hu _ => hu
      hasAccount := by
        rintro userId ⟨ur, hur, rfl, _⟩
        exact h.hasAccount ur hur }
  jwts := h.jwts
  sessions := h.sessions
  invitations := h.invitations

/-- In every run of the party that brings no login about for a member of `B`,
it gets no token for `B` and no password of a member changes. -/
theorem no_takeover {w₀ : World} (hAB : A ≠ B) (hstart : Start env A B w₀)
    (hrun : Run (step env A B w₀.db) (AvoidsMembers env A B) w₀ w) {u : User}
    (hu : u ∈ w₀.db.users) (hmember : Member w₀.db B u.id) : NoTakeover env B u w := by
  have hsafe : Safe env A B w₀.db w :=
    hrun.invariant (fun _ _ _ hs hok hstep => hs.step hAB hok hstep) hstart.safe
  exact hsafe.noTakeover hu hmember

/-! ## An account handed over -/

/-- Account 1 holds a role in organization 2 only; the party administers 3. -/
def twoOrganizations : World where
  db :=
    { users := [{ id := 1, email := "u@b.example", displayName := "u", passwordHash := some "pw" },
        { id := 9, email := "admin@a.example", displayName := "admin" }]
      roles := [{ id := 5, name := "engineer" }]
      userRoles := [{ userId := 1, organizationId := 2, roleId := 5 },
        { userId := 9, organizationId := 3, roleId := 5 }] }

def administrator : Identity where
  kind := .user
  subject := "9"
  organizationId := 3
  userId := some 9
  permissions := {managePermission}

def drawn (id : Uuid) (rawToken : String) : Draw :=
  { issuedAt := 0, refreshTokenId := id, rawRefreshToken := rawToken, familyId := 100 + id
    userId := 200 + id, mappingId := 300 + id }

def inviteCall (email : String) : Call where
  now := 0
  draw := drawn 10 ""
  request := .createInvitation administrator 3 50 "raw" { email, grantsRole := "engineer" }

def acceptCall : Call where
  now := 0
  draw := drawn 11 "session in 3"
  request := .acceptInvitation 50 { token := "raw", password := "chosen" }

def switchCall (userId : Uuid) : Call where
  now := 0
  draw := drawn 12 "session in 2"
  request := .switchOrganization (some (issueAccessToken plainEnv 0 userId 3).1) 2

/-- The party invites the account of organization 2, accepts with a password of
its choice and switches to organization 2. -/
theorem takeover_reached :
    ((exec (step plainEnv 3 2 twoOrganizations.db) twoOrganizations
      [inviteCall "u@b.example", acceptCall, switchCall 1]).map fun w =>
        (w.jwts.map Jwt.organizationId, (w.db.users.map User.passwordHash))) =
      some ([some 2, some 3], [some "chosen", none]) := by
  decide

theorem twoOrganizations_start : Start plainEnv 3 2 twoOrganizations where
  idUnique := by unfold Table.KeyUnique; decide
  emailUnique := by unfold Table.KeyUnique; decide
  hasAccount := by decide
  jwts := by decide
  sessions := fun _ h => nomatch h
  invitations := by decide

theorem no_takeover_fails :
    ¬ ∀ (env : Env) (A B : Uuid) (w₀ w : World) (u : User), A ≠ B → Start env A B w₀ →
      Run (step env A B w₀.db) anyStep w₀ w → u ∈ w₀.db.users → Member w₀.db B u.id →
      (∀ ur ∈ w₀.db.userRoles, ur.userId = u.id → ur.organizationId = B) →
      u.passwordHash ≠ none → NoTakeover env B u w := by
  intro hall
  obtain ⟨w, hw, hview⟩ := Option.map_eq_some_iff.mp takeover_reached
  have hno := hall plainEnv 3 2 twoOrganizations w _ (by decide) twoOrganizations_start
    (run_of_exec hw) List.mem_cons_self (by decide) (by decide) (by decide)
  simp only [Prod.mk.injEq] at hview
  have hmem : some 2 ∈ w.jwts.map Jwt.organizationId := by
    rw [hview.1]
    exact List.mem_cons_self
  obtain ⟨jwt, hjwt, horg⟩ := List.mem_map.mp hmem
  exact hno.access jwt hjwt horg

/-- An invitation of an email without an account: the new account gets a session
in organization 3, and its switch to organization 2 is denied. -/
theorem no_takeover_newAccount :
    ∃ w, Run (step plainEnv 3 2 twoOrganizations.db) (AvoidsMembers plainEnv 3 2)
        twoOrganizations w ∧ w.jwts.map Jwt.organizationId = [some 3] ∧
      NoTakeover plainEnv 2
        { id := 1, email := "u@b.example", displayName := "u", passwordHash := some "pw" } w := by
  have hview : (execWithin (step plainEnv 3 2 twoOrganizations.db) (AvoidsMembers plainEnv 3 2)
      twoOrganizations [inviteCall "new@a.example", acceptCall, switchCall 211]).map (fun w =>
        w.jwts.map Jwt.organizationId) = some [some 3] := by
    decide
  obtain ⟨w, hw, hjwts⟩ := Option.map_eq_some_iff.mp hview
  have hrun := run_of_execWithin hw
  exact ⟨w, hrun, hjwts,
    no_takeover (by decide) twoOrganizations_start hrun List.mem_cons_self (by decide)⟩

end Ekip.Core.Auth.Takeover
