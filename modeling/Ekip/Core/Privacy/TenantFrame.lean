import Ekip.Lib.Query
import Ekip.Core.Privacy.Service

/-!
# What a deletion leaves to the other tenants

Rows of other organizations stay. The account has none: overwriting it ends
whatever the person could do elsewhere, and a role deleted here decides which
organization a login there ends in.
-/
namespace Ekip.Core.Privacy

open Ekip.Lib Ekip.Database Ekip.Shared Ekip.Core Ekip.Core.Auth

variable {ε : Type}

/-- The organizations in which the person holds a role. -/
def memberOf (db : PrivacyDb ε) (userId : Uuid) : List Uuid :=
  Users.Repository.listOrganizationIds db.toDb userId

/-- The dry run counts a row of the person in the organization. -/
def HasRow (db : PrivacyDb ε) (userId organizationId : Uuid) : Prop :=
  ∃ step ∈ plannedSteps db userId organizationId,
    step.category ≠ .userRecord ∧ ∃ n, step.count = some n ∧ 0 < n

/-- The database without the organization's rows in the tables that a run writes.
A row of `users` names no organization: `accounts` are those that count as its own. -/
def outside (accounts : Finset Uuid) (organizationId : Uuid) (db : PrivacyDb ε) : PrivacyDb ε :=
  { db with
    users := db.users.filter fun row => row.id ∉ accounts
    refreshTokens := db.refreshTokens.filter fun row => row.organizationId ≠ organizationId
    userRoles := db.userRoles.filter fun row => row.organizationId ≠ organizationId
    projectMemberships := db.projectMemberships.filter fun row =>
      row.projectId ∉ Repository.orgProjectIds db.toDb organizationId
    externalIdentityMappings :=
      db.externalIdentityMappings.filter fun row => row.organizationId ≠ organizationId
    agentExecutions := db.agentExecutions.filter fun row => row.organizationId ≠ organizationId
    agentMemories := db.agentMemories.filter fun row => row.organizationId ≠ organizationId
    invitations := db.invitations.filter fun row => row.organizationId ≠ organizationId }

/-- The credentials of the person answer as before, whatever a login draws. Only
where the draw met a stored token may the answer have become a better one. -/
def SameLogin (env : Tenancy.Env) (userId : Uuid) (db db' : PrivacyDb ε) : Prop :=
  ∀ user, Repository.getUser db.toDb userId = some user →
    ∀ (draw : Draw) (data : LoginRequest), data.email = user.email →
      (loginWithPassword env draw data db'.toDb).1 = (loginWithPassword env draw data db.toDb).1 ∨
        (loginWithPassword env draw data db.toDb).1 = .error (.integrityError "refresh_tokens")

/-- The step to `db'` stays inside the organization. -/
structure TenantLocal (env : Tenancy.Env) (accounts : Finset Uuid) (userId organizationId : Uuid)
    (db db' : PrivacyDb ε) : Prop where
  rows : outside accounts organizationId db' = outside accounts organizationId db
  stranger : ¬ HasRow db userId organizationId → db' = db
  identity : ∀ other ∈ memberOf db userId, other ≠ organizationId →
    (Users.resolveIdentity userId other db'.toDb).1 = (Users.resolveIdentity userId other db.toDb).1
  login : ∀ other ∈ memberOf db userId, other ≠ organizationId → SameLogin env userId db db'

/-! ## When it does -/

/-- The account step overwrites something. -/
def AccountWritten (outage : Outage) (user : User) : Prop :=
  outage .userRecord = none ∧ Repository.anonymized user ≠ user

/-- Some password passes for the account. -/
def PasswordKnown (env : Tenancy.Env) (user : User) : Prop :=
  ∃ password, user.passwordHash.any (env.bcryptCheck password) = true

/-- The roles step takes a role away. -/
def RoleTaken (outage : Outage) (db : PrivacyDb ε) (userId organizationId : Uuid) : Prop :=
  outage .organizationRoles = none ∧ organizationId ∈ memberOf db userId

structure Spared (env : Tenancy.Env) (accounts : Finset Uuid) (outage : Outage)
    (db : PrivacyDb ε) (organizationId : Uuid) (user : User) : Prop where
  owned : AccountWritten outage user → user.id ∈ accounts
  /-- A member elsewhere keeps the account, unless nobody could use it. -/
  account : (∃ other ∈ memberOf db user.id, other ≠ organizationId) →
    AccountWritten outage user → user.isActive = false ∧ ¬ PasswordKnown env user
  /-- Losing a role here changes which organizations a login chooses from. -/
  role : (∃ other ∈ memberOf db user.id, other ≠ organizationId) →
    RoleTaken outage db user.id organizationId → ¬ (user.isActive = true ∧ PasswordKnown env user)

/-- The constraints of the schema that the lookups rely on. -/
structure Keyed (db : PrivacyDb ε) : Prop where
  userId : Table.KeyUnique User.id db.users
  email : Table.KeyUnique User.email db.users
  project : Table.KeyUnique Project.id db.projects
  organization : ∀ row ∈ db.userRoles, ∃ org ∈ db.organizations, org.id = row.organizationId

/-! ## Rows -/

section Rows

variable {outage : Outage} {accounts : Finset Uuid} {userId organizationId : Uuid}
  {db : PrivacyDb ε} {email : Option String}

/-- A step whose write does not show through a filter. -/
theorem filter_settled {ρ : Type} {seen : ρ → Bool} {category : Category} {old new : List ρ}
    (h : new.filter seen = old.filter seen) :
    (settled outage category old new).filter seen = old.filter seen := by
  rcases settled_or outage category old new with hold | ⟨_, hnew⟩
  · rw [hold]
  · rw [hnew, h]

theorem filter_keptInvitations (rows : List Invitation) :
    (keptInvitations outage userId organizationId email rows).filter
        (fun row => row.organizationId ≠ organizationId) =
      rows.filter fun row => row.organizationId ≠ organizationId := by
  cases email with
  | none => rfl
  | some email =>
    refine filter_settled (Table.filter_updateWhere fun row _ hrow => ?_)
    have horg : row.organizationId = organizationId := by
      have hboth : row.email = email ∧ row.organizationId = organizationId := by
        simpa [Repository.invitationClause] using hrow
      exact hboth.2
    simp [horg]

/-- Only the account shows outside the organization. -/
theorem outside_erased :
    outside accounts organizationId (erased outage userId organizationId db email) =
      { outside accounts organizationId db with
        users := (settled outage .userRecord db.users (Table.updateWhere db.users
          (fun user => user.id = userId) Repository.anonymized)).filter
            fun row => row.id ∉ accounts } := by
  have htokens : (settled outage .sessions db.refreshTokens
      (keptTokens userId organizationId db.refreshTokens)).filter
        (fun row => row.organizationId ≠ organizationId) =
      db.refreshTokens.filter fun row => row.organizationId ≠ organizationId :=
    filter_settled (Table.filter_deleteWhere fun row _ hrow => by
        simp_all [Repository.refreshTokenClause])
  have hroles : (settled outage .organizationRoles db.userRoles (db.userRoles.filter fun row =>
      !Repository.userRoleClause userId organizationId row)).filter
        (fun row => row.organizationId ≠ organizationId) =
      db.userRoles.filter fun row => row.organizationId ≠ organizationId :=
    filter_settled (Table.filter_deleteWhere fun row _ hrow => by
        simp_all [Repository.userRoleClause])
  have hmemberships : (settled outage .projectMemberships db.projectMemberships
      (db.projectMemberships.filter fun row =>
        !Repository.projectMembershipClause userId organizationId db.toDb row)).filter
        (fun row => row.projectId ∉ Repository.orgProjectIds db.toDb organizationId) =
      db.projectMemberships.filter fun row =>
        row.projectId ∉ Repository.orgProjectIds db.toDb organizationId :=
    filter_settled (Table.filter_deleteWhere fun row _ hrow => by
        simp_all [Repository.projectMembershipClause])
  have hlinks : (settled outage .ssoIdentityLinks db.externalIdentityMappings
      (db.externalIdentityMappings.filter fun row =>
        !Repository.externalIdentityMappingClause userId organizationId row)).filter
        (fun row => row.organizationId ≠ organizationId) =
      db.externalIdentityMappings.filter fun row => row.organizationId ≠ organizationId :=
    filter_settled (Table.filter_deleteWhere fun row _ hrow => by
        simp_all [Repository.externalIdentityMappingClause])
  have hexecutions : (settled outage .agentExecutionHistory db.agentExecutions
      (Table.updateWhere db.agentExecutions (Repository.agentExecutionClause userId organizationId)
        (fun row => { row with userId := none }))).filter
        (fun row => row.organizationId ≠ organizationId) =
      db.agentExecutions.filter fun row => row.organizationId ≠ organizationId :=
    filter_settled (Table.filter_updateWhere fun row _ hrow => by
        simp_all [Repository.agentExecutionClause])
  have hmemories : (settled outage .userPrivateMemory db.agentMemories
      (db.agentMemories.filter fun row =>
        !Repository.userScopedClause userId organizationId row)).filter
        (fun row => row.organizationId ≠ organizationId) =
      db.agentMemories.filter fun row => row.organizationId ≠ organizationId :=
    filter_settled (Table.filter_deleteWhere fun row _ hrow => by
        simp_all [Repository.userScopedClause])
  unfold outside
  simp only [PrivacyDb.mk.injEq, Db.mk.injEq]
  exact ⟨⟨rfl, rfl, rfl, rfl, hroles, rfl, rfl, hmemberships, hlinks, rfl, rfl,
    filter_keptInvitations db.invitations, htokens⟩, hexecutions, hmemories, rfl⟩

/-- No row satisfies a clause that the dry run counts. -/
theorem clause_of_stranger (h : ¬ HasRow db userId organizationId) {ρ : Type} {rows : List ρ}
    {clause : ρ → Bool} {category : Category} {action : DataAction} {table : String} (i : Nat)
    (hstep : (plannedSteps db userId organizationId)[i]? =
      some { category, action, table, count := some (rows.countP clause) })
    (hcategory : category ≠ .userRecord) : ∀ row ∈ rows, clause row = false := by
  have hzero : rows.countP clause = 0 := by
    by_contra hpos
    exact h ⟨_, List.mem_of_getElem? hstep, hcategory, _, rfl, by omega⟩
  intro row hrow
  simpa using List.countP_eq_zero.mp hzero row hrow

/-- For a stranger the other seven steps find nothing. -/
theorem erased_of_stranger (h : ¬ HasRow db userId organizationId) :
    erased outage userId organizationId db (Repository.getUserEmail db.toDb userId) =
      { db with
        users := settled outage .userRecord db.users (Table.updateWhere db.users
          (fun user => user.id = userId) Repository.anonymized) } := by
  have htokens : keptTokens userId organizationId db.refreshTokens = db.refreshTokens :=
    Table.deleteWhere_of_none (clause_of_stranger h 0 rfl (by decide))
  have hroles := Table.deleteWhere_of_none (clause_of_stranger h 1 rfl (by decide))
  have hmemberships := Table.deleteWhere_of_none (clause_of_stranger h 2 rfl (by decide))
  have hlinks := Table.deleteWhere_of_none (clause_of_stranger h 3 rfl (by decide))
  have hexecutions : Table.updateWhere db.agentExecutions
      (Repository.agentExecutionClause userId organizationId)
      (fun row => { row with userId := none }) = db.agentExecutions := by
    refine Table.updateWhere_of_fixed fun row hrow hclause => ?_
    rw [clause_of_stranger h 4 rfl (by decide) row hrow] at hclause
    cases hclause
  have hmemories := Table.deleteWhere_of_none (clause_of_stranger h 5 rfl (by decide))
  have hinvitations : keptInvitations outage userId organizationId
      (Repository.getUserEmail db.toDb userId) db.invitations = db.invitations := by
    cases hemail : Repository.getUserEmail db.toDb userId with
    | none => rfl
    | some email =>
      refine settled_self (Table.updateWhere_of_fixed fun row hrow hclause => ?_)
      have hcount : (plannedSteps db userId organizationId)[6]? =
          some { category := .invitationsReceived, action := .anonymize, table := "invitations"
                 count := some (db.invitations.countP
                   (Repository.invitationClause organizationId email)) } := by
        unfold plannedSteps
        rw [hemail]
        rfl
      rw [clause_of_stranger h 6 hcount (by decide) row hrow] at hclause
      cases hclause
  unfold erased
  rw [settled_self htokens, settled_self hroles, settled_self hmemberships, settled_self hlinks,
    settled_self hexecutions, settled_self hmemories, hinvitations]

theorem accounts_of_not_written (hkeyed : Keyed db) {user : User}
    (hget : Repository.getUser db.toDb userId = some user) (h : ¬ AccountWritten outage user) :
    settled outage .userRecord db.users (Table.updateWhere db.users
      (fun user => user.id = userId) Repository.anonymized) = db.users := by
  rcases settled_or outage .userRecord db.users (Table.updateWhere db.users
    (fun user => user.id = userId) Repository.anonymized) with hold | ⟨houtage, _⟩
  · exact hold
  · refine settled_self (Table.updateWhere_of_fixed fun row hrow hid => ?_)
    obtain ⟨huser, hkey⟩ := Table.get?_some hget
    have hsame : row = user := hkeyed.userId row hrow user huser (by simp_all)
    rw [hsame]
    by_contra hne
    exact h ⟨houtage, hne⟩

theorem accounts_of_written {user : User} (h : AccountWritten outage user) :
    settled outage .userRecord db.users (Table.updateWhere db.users
      (fun user => user.id = userId) Repository.anonymized) =
      Table.updateWhere db.users (fun user => user.id = userId) Repository.anonymized :=
  settled_of_none h.1

/-- The account under its id, once it is overwritten. -/
theorem getUser_of_written {user : User} (hget : Repository.getUser db.toDb userId = some user)
    (h : AccountWritten outage user) :
    Repository.getUser (erased outage userId organizationId db email).toDb userId =
      some (Repository.anonymized user) := by
  rw [getUser_erased_of_overwritten h.1, hget]
  rfl

end Rows

/-! ## Identities -/

section Identities

variable {outage : Outage} {userId organizationId other : Uuid} {db : PrivacyDb ε}
  {email : Option String}

theorem resolveIdentity_of_inactive {db : Db} {user : User}
    (hget : Users.Repository.getById db userId = some user) (h : user.isActive = false) :
    (Users.resolveIdentity userId other db).1 = .error (permissionDenied
      "User account is inactive." "user.inactive" [("user_id", toString userId)]) := by
  unfold Users.resolveIdentity
  rw [Service.bind_read, hget, Service.bind_of_ok Service.orRaise_some,
    Service.bind_of_error (Service.raiseIf_of_true (by simp [h]))]

theorem resolveIdentity_of_active {db : Db} {user : User} (other : Uuid)
    (hget : Users.Repository.getById db userId = some user) (h : user.isActive = true) :
    ∃ identity, (Users.resolveIdentity userId other db).1 = .ok identity := by
  unfold Users.resolveIdentity
  rw [Service.bind_read, hget, Service.bind_of_ok Service.orRaise_some,
    Service.bind_of_ok (Service.raiseIf_of_false (by simp [h]))]
  exact ⟨_, rfl⟩

/-- What `resolve_identity` looks up. -/
theorem resolveIdentity_congr {db db' : Db}
    (huser : Users.Repository.getById db' userId = Users.Repository.getById db userId)
    (hroles : Users.Repository.getRoleNames db' userId other =
      Users.Repository.getRoleNames db userId other)
    (hcodes : Users.Repository.getPermissionCodes db' userId other =
      Users.Repository.getPermissionCodes db userId other)
    (hprojects : Users.Repository.getProjectPermissionMap db' userId other =
      Users.Repository.getProjectPermissionMap db userId other) :
    (Users.resolveIdentity userId other db').1 = (Users.resolveIdentity userId other db).1 := by
  unfold Users.resolveIdentity
  rw [Service.bind_read, Service.bind_read, huser]
  cases hget : Users.Repository.getById db userId with
  | none => rfl
  | some user =>
    rw [Service.bind_of_ok Service.orRaise_some, Service.bind_of_ok Service.orRaise_some]
    by_cases hactive : user.isActive = true
    · rw [Service.bind_of_ok (Service.raiseIf_of_false (by simp [hactive])),
        Service.bind_of_ok (Service.raiseIf_of_false (by simp [hactive]))]
      simp only [Service.bind_read, hroles, hcodes, hprojects]
      rfl
    · rw [Service.bind_of_error (Service.raiseIf_of_true (by simpa using hactive)),
        Service.bind_of_error (Service.raiseIf_of_true (by simpa using hactive))]

/-- The roles that a query elsewhere finds. -/
theorem filter_userRoles {seen : UserRole → Bool}
    (h : ∀ row, seen row = true → row.organizationId ≠ organizationId) :
    (erased outage userId organizationId db email).userRoles.filter seen =
      db.userRoles.filter seen := by
  refine filter_settled (Table.filter_deleteWhere fun row _ hclause => ?_)
  have horg : row.organizationId = organizationId := by
    simp_all [Repository.userRoleClause]
  by_contra hseen
  exact h row (by simpa using hseen) horg

/-- A membership that is deleted joins no project of another organization. -/
theorem projects_of_deleted {β : Type} (hkeyed : Keyed db) (hother : other ≠ organizationId)
    {pm : ProjectMembership} (f : Project → List β)
    (hpm : (!Repository.projectMembershipClause userId organizationId db.toDb pm) = false) :
    (db.projects.filter fun project =>
      project.id = pm.projectId ∧ project.organizationId = other).flatMap f = [] := by
  have hmem : pm.projectId ∈ Repository.orgProjectIds db.toDb organizationId := by
    simp_all [Repository.projectMembershipClause]
  obtain ⟨owned, howned, hid⟩ : ∃ project ∈ db.projects,
      project.organizationId = organizationId ∧ project.id = pm.projectId := by
    simpa [Repository.orgProjectIds, and_assoc] using hmem
  have hempty : (db.projects.filter fun project =>
      project.id = pm.projectId ∧ project.organizationId = other) = [] := by
    refine List.filter_eq_nil_iff.mpr fun project hproject hboth => ?_
    have hboth' : project.id = pm.projectId ∧ project.organizationId = other := by
      simpa using hboth
    have hsame := hkeyed.project project hproject owned howned (hboth'.1.trans hid.2.symm)
    exact hother (hboth'.2.symm.trans (hsame ▸ hid.1))
  rw [hempty]
  rfl

theorem resolveIdentity_erased (hkeyed : Keyed db) (hother : other ≠ organizationId)
    (huser : Users.Repository.getById (erased outage userId organizationId db email).toDb userId =
      Users.Repository.getById db.toDb userId) :
    (Users.resolveIdentity userId other (erased outage userId organizationId db email).toDb).1 =
      (Users.resolveIdentity userId other db.toDb).1 := by
  refine resolveIdentity_congr huser ?_ ?_ ?_
  · unfold Users.Repository.getRoleNames
    congr 1
    refine List.flatMap_congr fun role _ => ?_
    rw [filter_userRoles fun row hrow => ?_]
    simp_all
  · unfold Users.Repository.getPermissionCodes
    rw [filter_userRoles fun row hrow => ?_]
    · rfl
    · simp_all
  · unfold Users.Repository.getProjectPermissionMap Users.Repository.projectPermissionRows
    congr 2
    show ((settled outage .projectMemberships db.projectMemberships _).filter _).flatMap _ = _
    rcases settled_or outage .projectMemberships db.projectMemberships
      (db.projectMemberships.filter fun row =>
        !Repository.projectMembershipClause userId organizationId db.toDb row) with hold | ⟨_, hnew⟩
    · rw [hold]
      rfl
    · rw [hnew, List.filter_comm]
      exact Query.flatMap_filter (fun pm hpm => projects_of_deleted hkeyed hother _ hpm) _

end Identities

/-! ## Logins -/

section Logins

variable {env : Tenancy.Env} {draw : Draw} {data : LoginRequest} {db : Db} {user : User}

theorem verifiedCredential_of_unknown
    (h : user.passwordHash.any (env.bcryptCheck data.password) = false) :
    verifiedCredential env data.password (some
      { userId := user.id, passwordHash := user.passwordHash, isActive := user.isActive }) =
      none := by
  unfold verifiedCredential
  cases hhash : user.passwordHash with
  | none => rfl
  | some passwordHash =>
    rw [hhash] at h
    simpa using h

theorem verifiedCredential_of_known
    (h : user.passwordHash.any (env.bcryptCheck data.password) = true) :
    verifiedCredential env data.password (some
      { userId := user.id, passwordHash := user.passwordHash, isActive := user.isActive }) =
      some { userId := user.id, passwordHash := user.passwordHash, isActive := user.isActive } := by
  unfold verifiedCredential
  cases hhash : user.passwordHash with
  | none =>
    rw [hhash] at h
    cases h
  | some passwordHash =>
    rw [hhash] at h
    simpa using h

theorem login_of_unknown (h : ∀ user, Users.Repository.getByEmail db data.email = some user →
      user.passwordHash.any (env.bcryptCheck data.password) = false) :
    (loginWithPassword env draw data db).1 =
      .error (permissionDenied "Invalid email or password." "auth.invalid_credentials") := by
  unfold loginWithPassword Users.getCredentialLookup
  rw [Service.bind_read]
  cases hget : Users.Repository.getByEmail db data.email with
  | none => rfl
  | some user =>
    rw [Option.map_some, verifiedCredential_of_unknown (h user hget),
      Service.bind_of_error Service.orRaise_none]

theorem login_of_inactive (hget : Users.Repository.getByEmail db data.email = some user)
    (hknown : user.passwordHash.any (env.bcryptCheck data.password) = true)
    (hactive : user.isActive = false) :
    (loginWithPassword env draw data db).1 =
      .error (permissionDenied "This account is inactive." "user.inactive") := by
  unfold loginWithPassword Users.getCredentialLookup
  rw [Service.bind_read, hget, Option.map_some, verifiedCredential_of_known hknown,
    Service.bind_of_ok Service.orRaise_some,
    Service.bind_of_error (Service.raiseIf_of_true (by simp [hactive]))]

/-- The answer to a verified login of an active account; `taken` tells whether the
drawn token meets a stored one. -/
def signIn (env : Tenancy.Env) (draw : Draw) (userId : Uuid) (organizations : List Organization)
    (taken : Bool) : List Uuid → Except Exn LoginResponse
  | [] => .error (permissionDenied "This account is not a member of any organization."
      "auth.no_organization")
  | [organizationId] =>
    if taken then .error (.integrityError "refresh_tokens")
    else .ok (.sessionTokens (sessionTokens env draw userId organizationId))
  | organizationIds => .ok (.organizationSelectionRequired
      (issueOrgSelectionToken env draw.issuedAt userId)
      ((organizations.filter fun org => org.id ∈ organizationIds).map fun org =>
        { id := org.id, name := org.name, slug := org.slug }))

def taken (env : Tenancy.Env) (draw : Draw) (rows : List RefreshToken) : Bool :=
  rows.any fun other =>
    other.id = draw.refreshTokenId ∨ other.tokenHash = hashToken env draw.rawRefreshToken

theorem insertRefreshToken_answer (row : RefreshToken) :
    (Auth.Repository.insertRefreshToken row db).1 =
      if db.refreshTokens.any (fun other => other.id = row.id ∨ other.tokenHash = row.tokenHash)
      then .error (.integrityError "refresh_tokens")
      else .ok row := by
  unfold Auth.Repository.insertRefreshToken
  rw [Service.bind_read]
  by_cases hany : db.refreshTokens.any
      (fun other => other.id = row.id ∨ other.tokenHash = row.tokenHash) = true
  · rw [if_pos hany, Service.bind_of_error (Service.raiseIf_of_true hany)]
  · rw [if_neg hany, Service.bind_of_ok (Service.raiseIf_of_false (by simpa using hany))]
    rfl

theorem issueSession_answer (userId organizationId familyId : Uuid) :
    (issueSession env draw userId organizationId familyId db).1 =
      if taken env draw db.refreshTokens then .error (.integrityError "refresh_tokens")
      else .ok (sessionTokens env draw userId organizationId) := by
  have hrow : (db.refreshTokens.any fun other =>
      other.id = (sessionRow env draw userId organizationId familyId).id ∨
        other.tokenHash = (sessionRow env draw userId organizationId familyId).tokenHash) =
      taken env draw db.refreshTokens := rfl
  unfold issueSession
  rw [Service.bind_pure_answer, insertRefreshToken_answer, hrow]
  by_cases htaken : taken env draw db.refreshTokens = true
  · rw [if_pos htaken, if_pos htaken]
    rfl
  · rw [if_neg htaken, if_neg htaken]
    rfl

theorem login_of_active (hget : Users.Repository.getByEmail db data.email = some user)
    (hknown : user.passwordHash.any (env.bcryptCheck data.password) = true)
    (hactive : user.isActive = true) :
    (loginWithPassword env draw data db).1 =
      signIn env draw user.id db.organizations (taken env draw db.refreshTokens)
        (Users.Repository.listOrganizationIds db user.id) := by
  unfold loginWithPassword Users.getCredentialLookup Users.listOrganizationsForLogin
  rw [Service.bind_read, hget, Option.map_some, verifiedCredential_of_known hknown,
    Service.bind_of_ok Service.orRaise_some,
    Service.bind_of_ok (Service.raiseIf_of_false (by simp [hactive])), Service.bind_read]
  dsimp only
  rcases Users.Repository.listOrganizationIds db user.id with _ | ⟨first, _ | ⟨second, others⟩⟩
  · rfl
  · show ((issueSession env draw user.id first draw.familyId >>= fun tokens =>
      pure (LoginResponse.sessionTokens tokens)) db).1 = _
    rw [Service.bind_pure_answer, issueSession_answer]
    unfold signIn
    split <;> rfl
  · rfl

/-- A draw that meets no stored token signs in as one that meets one, or better. -/
theorem signIn_taken {organizations : List Organization} {before after : Bool}
    (h : after = true → before = true) (organizationIds : List Uuid) :
    signIn env draw user.id organizations after organizationIds =
        signIn env draw user.id organizations before organizationIds ∨
      signIn env draw user.id organizations before organizationIds =
        .error (.integrityError "refresh_tokens") := by
  rcases organizationIds with _ | ⟨first, _ | ⟨second, others⟩⟩
  · exact .inl rfl
  · by_cases hbefore : before = true
    · exact .inr (if_pos hbefore)
    · have hafter : after = before := by
        cases after <;> cases before <;> simp_all
      exact .inl (by rw [hafter])
  · exact .inl rfl

/-- A choice that offered an organization differs from every answer without it. -/
theorem signIn_ne {organizations : List Organization} {before after : Bool}
    {old new : List Uuid} {gone other : Uuid} (hgone : gone ∈ old) (hother : other ∈ old)
    (hne : other ≠ gone) (horg : ∃ org ∈ organizations, org.id = gone) (hnew : gone ∉ new) :
    signIn env draw user.id organizations after new ≠
        signIn env draw user.id organizations before old ∧
      signIn env draw user.id organizations before old ≠
        .error (.integrityError "refresh_tokens") := by
  obtain ⟨org, hmem, hid⟩ := horg
  obtain ⟨first, second, others, rfl⟩ : ∃ first second others, old = first :: second :: others := by
    rcases old with _ | ⟨first, _ | ⟨second, others⟩⟩
    · cases hgone
    · simp_all
    · exact ⟨first, second, others, rfl⟩
  refine ⟨fun hsame => ?_, by simp [signIn]⟩
  rcases new with _ | ⟨one, _ | ⟨two, rest⟩⟩
  · cases hsame
  · cases after with
    | false | true => cases hsame
  · have hlists := (LoginResponse.organizationSelectionRequired.inj (Except.ok.inj hsame)).2
    have hoffered : ({ id := org.id, name := org.name, slug := org.slug } : OrganizationSummary) ∈
        (organizations.filter fun org => org.id ∈ one :: two :: rest).map fun org =>
          { id := org.id, name := org.name, slug := org.slug } := by
      rw [hlists]
      exact List.mem_map.mpr ⟨org, List.mem_filter.mpr ⟨hmem, by simpa [hid] using hgone⟩, rfl⟩
    obtain ⟨org', hmem', hsummary⟩ := List.mem_map.mp hoffered
    have hid' : org'.id = gone := (congrArg OrganizationSummary.id hsummary).trans hid
    have hin := (List.mem_filter.mp hmem').2
    rw [hid', decide_eq_true_eq] at hin
    exact hnew hin

end Logins

section Members

variable {env : Tenancy.Env} {outage : Outage} {userId organizationId : Uuid} {db : PrivacyDb ε}
  {email : Option String} {user : User}

theorem members_of_not_taken (h : ¬ RoleTaken outage db userId organizationId) :
    memberOf (erased outage userId organizationId db email) userId = memberOf db userId := by
  unfold memberOf Users.Repository.listOrganizationIds
  have hroles : (erased outage userId organizationId db email).userRoles = db.userRoles := by
    show settled outage .organizationRoles db.userRoles _ = db.userRoles
    rcases settled_or outage .organizationRoles db.userRoles (db.userRoles.filter fun row =>
      !Repository.userRoleClause userId organizationId row) with hold | ⟨houtage, hnew⟩
    · exact hold
    · rw [hnew]
      refine Table.deleteWhere_of_none fun row hrow => ?_
      by_contra hclause
      have hboth : row.userId = userId ∧ row.organizationId = organizationId := by
        simpa [Repository.userRoleClause] using hclause
      exact h ⟨houtage, Users.Repository.mem_listOrganizationIds.mpr ⟨row, hrow, hboth⟩⟩
  rw [hroles]

theorem not_member_of_taken (h : RoleTaken outage db userId organizationId) :
    organizationId ∉ memberOf (erased outage userId organizationId db email) userId := by
  intro hmem
  obtain ⟨row, hrow, huser, horg⟩ := Users.Repository.mem_listOrganizationIds.mp hmem
  have hkept : row ∈ db.userRoles.filter fun row =>
      !Repository.userRoleClause userId organizationId row := by
    have hsettled : row ∈ settled outage .organizationRoles db.userRoles (db.userRoles.filter
        fun row => !Repository.userRoleClause userId organizationId row) := hrow
    unfold settled at hsettled
    rw [h.1] at hsettled
    exact hsettled
  have hclause := (List.mem_filter.mp hkept).2
  simp [Repository.userRoleClause, huser, horg] at hclause

theorem taken_of_erased {draw : Draw}
    (h : taken env draw (erased outage userId organizationId db email).refreshTokens = true) :
    taken env draw db.refreshTokens = true := by
  obtain ⟨row, hrow, hmet⟩ := List.any_eq_true.mp h
  refine List.any_eq_true.mpr ⟨row, ?_, hmet⟩
  have hsettled : row ∈ settled outage .sessions db.refreshTokens
      (keptTokens userId organizationId db.refreshTokens) := hrow
  rcases settled_or outage .sessions db.refreshTokens
    (keptTokens userId organizationId db.refreshTokens) with hold | ⟨_, hnew⟩
  · rwa [hold] at hsettled
  · rw [hnew] at hsettled
    exact List.mem_of_mem_filter hsettled

/-- The credentials of an overwritten account no longer pass. -/
theorem unknown_of_written (hkeyed : Keyed db) {user found : User}
    (hget : Repository.getUser db.toDb userId = some user) (hwritten : AccountWritten outage user)
    (hfound : Users.Repository.getByEmail (erased outage userId organizationId db email).toDb
      user.email = some found) : found.passwordHash = none := by
  obtain ⟨huser, hid⟩ := Table.get?_some hget
  obtain ⟨hmem, hemail⟩ := Table.get?_some hfound
  have hrow : found ∈ Table.updateWhere db.users (fun user => user.id = userId)
      Repository.anonymized := by
    have husers : (erased outage userId organizationId db email).users = _ :=
      accounts_of_written hwritten
    rw [← husers]
    exact hmem
  obtain ⟨row, hold, rfl⟩ := Table.mem_updateWhere.mp hrow
  by_cases hrowId : row.id = userId
  · simp [hrowId, Repository.anonymized]
  · simp only [hrowId, decide_false, Bool.false_eq_true, if_false] at hemail
    have hsame := hkeyed.email row hold user huser hemail
    exact absurd (hsame ▸ hid) hrowId

end Members

/-! ## The frame -/

section Frame

variable {env : Tenancy.Env} {accounts : Finset Uuid} {outage : Outage} {organizationId : Uuid}
  {db : PrivacyDb ε} {email : Option String} {user : User}

theorem getByEmail_of_getUser (hkeyed : Keyed db)
    (hget : Repository.getUser db.toDb user.id = some user) :
    Users.Repository.getByEmail db.toDb user.email = some user :=
  Table.get?_of_mem hkeyed.email (Table.get?_some hget).1

theorem sameLogin_of_spared (hkeyed : Keyed db)
    (hget : Repository.getUser db.toDb user.id = some user)
    (hspared : Spared env accounts outage db organizationId user)
    (helsewhere : ∃ other ∈ memberOf db user.id, other ≠ organizationId) :
    SameLogin env user.id db (erased outage user.id organizationId db email) := by
  intro user' hget' draw data hdata
  obtain rfl : user = user' := Option.some.inj (hget.symm.trans hget')
  have hbefore : Users.Repository.getByEmail db.toDb data.email = some user := by
    rw [hdata]
    exact getByEmail_of_getUser hkeyed hget
  by_cases hwritten : AccountWritten outage user
  · obtain ⟨_, hunknown⟩ := hspared.account helsewhere hwritten
    left
    rw [login_of_unknown fun found hfound => ?_, login_of_unknown fun found hfound => ?_]
    · obtain rfl : user = found := Option.some.inj (hbefore.symm.trans hfound)
      rw [← Bool.not_eq_true]
      exact fun hknown => hunknown ⟨_, hknown⟩
    · rw [hdata] at hfound
      rw [unknown_of_written hkeyed hget hwritten hfound]
      rfl
  · have husers : (erased outage user.id organizationId db email).users = db.users :=
      accounts_of_not_written hkeyed hget hwritten
    have hafter : Users.Repository.getByEmail (erased outage user.id organizationId db email).toDb
        data.email = some user := by
      unfold Users.Repository.getByEmail at hbefore ⊢
      rw [husers]
      exact hbefore
    by_cases hknown : user.passwordHash.any (env.bcryptCheck data.password) = true
    · by_cases hactive : user.isActive = true
      · have hnot : ¬ RoleTaken outage db user.id organizationId := fun htaken =>
          hspared.role helsewhere htaken ⟨hactive, _, hknown⟩
        have hmembers : Users.Repository.listOrganizationIds
            (erased outage user.id organizationId db email).toDb user.id =
            Users.Repository.listOrganizationIds db.toDb user.id := members_of_not_taken hnot
        rw [login_of_active hafter hknown hactive, login_of_active hbefore hknown hactive, hmembers]
        exact signIn_taken taken_of_erased _
      · rw [Bool.not_eq_true] at hactive
        left
        rw [login_of_inactive hafter hknown hactive, login_of_inactive hbefore hknown hactive]
    · rw [Bool.not_eq_true] at hknown
      have hboth : ∀ {db' : Db}, Users.Repository.getByEmail db' data.email = some user →
          ∀ found, Users.Repository.getByEmail db' data.email = some found →
            found.passwordHash.any (env.bcryptCheck data.password) = false := by
        intro db' hfind found hfound
        obtain rfl : user = found := Option.some.inj (hfind.symm.trans hfound)
        exact hknown
      left
      rw [login_of_unknown (hboth hafter), login_of_unknown (hboth hbefore)]

theorem local_of_spared (hkeyed : Keyed db)
    (haccounts : ∀ id ∈ accounts, HasRow db id organizationId)
    (hget : Repository.getUser db.toDb user.id = some user)
    (hspared : Spared env accounts outage db organizationId user) :
    TenantLocal env accounts user.id organizationId db
      (erased outage user.id organizationId db (Repository.getUserEmail db.toDb user.id)) where
  rows := by
    rw [outside_erased]
    by_cases hwritten : AccountWritten outage user
    · have hcounted := hspared.owned hwritten
      rw [accounts_of_written hwritten, Table.filter_updateWhere fun row _ hrow => ?_]
      · rfl
      · have hid : row.id = user.id := by simpa using hrow
        simp [hid, hcounted, Repository.anonymized]
    · rw [accounts_of_not_written hkeyed hget hwritten]
      rfl
  stranger := by
    intro hstranger
    have hwritten : ¬ AccountWritten outage user := fun hwritten =>
      hstranger (haccounts _ (hspared.owned hwritten))
    rw [erased_of_stranger hstranger, accounts_of_not_written hkeyed hget hwritten]
  identity := by
    intro other hmember hother
    by_cases hwritten : AccountWritten outage user
    · obtain ⟨hinactive, _⟩ := hspared.account ⟨other, hmember, hother⟩ hwritten
      rw [resolveIdentity_of_inactive (getUser_of_written hget hwritten) rfl,
        resolveIdentity_of_inactive hget hinactive]
    · refine resolveIdentity_erased hkeyed hother ?_
      unfold Users.Repository.getById
      show Table.get? User.id (settled outage .userRecord db.users _) user.id = _
      rw [accounts_of_not_written hkeyed hget hwritten]
  login := by
    intro other hmember hother
    exact sameLogin_of_spared hkeyed hget hspared ⟨other, hmember, hother⟩

/-- A login that draws nothing in particular. -/
def someDraw : Draw := { issuedAt := 0, refreshTokenId := 0, rawRefreshToken := "", familyId := 0 }

theorem account_of_local (hkeyed : Keyed db)
    (hget : Repository.getUser db.toDb user.id = some user)
    (h : TenantLocal env accounts user.id organizationId db
      (erased outage user.id organizationId db email))
    (hwritten : AccountWritten outage user)
    (helsewhere : ∃ other ∈ memberOf db user.id, other ≠ organizationId) :
    user.isActive = false ∧ ¬ PasswordKnown env user := by
  obtain ⟨other, hmember, hother⟩ := helsewhere
  have hinactive : user.isActive = false := by
    by_contra hactive
    rw [Bool.not_eq_false] at hactive
    have hsame := h.identity other hmember hother
    obtain ⟨identity, hbefore⟩ := resolveIdentity_of_active other hget hactive
    rw [resolveIdentity_of_inactive (getUser_of_written hget hwritten) rfl, hbefore] at hsame
    cases hsame
  refine ⟨hinactive, fun ⟨password, hknown⟩ => ?_⟩
  let data : LoginRequest := { email := user.email, password }
  have hsame := h.login other hmember hother user hget someDraw data rfl
  have hafter : (loginWithPassword env someDraw data
      (erased outage user.id organizationId db email).toDb).1 =
      .error (permissionDenied "Invalid email or password." "auth.invalid_credentials") :=
    login_of_unknown fun found hfound => by
      rw [unknown_of_written hkeyed hget hwritten hfound]
      rfl
  have hbefore : (loginWithPassword env someDraw data db.toDb).1 =
      .error (permissionDenied "This account is inactive." "user.inactive") :=
    login_of_inactive (getByEmail_of_getUser hkeyed hget) hknown hinactive
  rw [hafter, hbefore] at hsame
  simp [permissionDenied] at hsame

theorem role_of_local (hkeyed : Keyed db)
    (hget : Repository.getUser db.toDb user.id = some user)
    (h : TenantLocal env accounts user.id organizationId db
      (erased outage user.id organizationId db email))
    (helsewhere : ∃ other ∈ memberOf db user.id, other ≠ organizationId)
    (htaken : RoleTaken outage db user.id organizationId) :
    ¬ (user.isActive = true ∧ PasswordKnown env user) := by
  rintro ⟨hactive, password, hknown⟩
  have hwritten : ¬ AccountWritten outage user := fun hwritten => by
    have hinactive := (account_of_local hkeyed hget h hwritten helsewhere).1
    rw [hactive] at hinactive
    cases hinactive
  obtain ⟨other, hmember, hother⟩ := helsewhere
  have hsame := h.login other hmember hother user hget someDraw { email := user.email, password } rfl
  have hbefore := getByEmail_of_getUser hkeyed hget
  have hafter : Users.Repository.getByEmail (erased outage user.id organizationId db email).toDb
      user.email = some user := by
    unfold Users.Repository.getByEmail at hbefore ⊢
    show Table.get? User.email (settled outage .userRecord db.users _) user.email = _
    rw [accounts_of_not_written hkeyed hget hwritten]
    exact hbefore
  obtain ⟨row, hrow, _, horg⟩ := Users.Repository.mem_listOrganizationIds.mp htaken.2
  have hexists : ∃ org ∈ db.organizations, org.id = organizationId := horg ▸ hkeyed.organization row hrow
  rw [login_of_active hafter hknown hactive, login_of_active hbefore hknown hactive] at hsame
  have hgone : organizationId ∉ memberOf (erased outage user.id organizationId db email) user.id :=
    not_member_of_taken htaken
  obtain ⟨hne, hnot⟩ := signIn_ne htaken.2 hmember hother hexists hgone
  rcases hsame with hsame | hsame
  · exact hne hsame
  · exact hnot hsame

theorem spared_of_local (hkeyed : Keyed db)
    (hget : Repository.getUser db.toDb user.id = some user)
    (h : TenantLocal env accounts user.id organizationId db
      (erased outage user.id organizationId db email)) :
    Spared env accounts outage db organizationId user where
  owned := by
    intro hwritten
    by_contra hforeign
    have hboth := h.rows
    rw [outside_erased, accounts_of_written hwritten] at hboth
    have hrows : (Table.updateWhere db.users (fun row => row.id = user.id)
        Repository.anonymized).filter (fun row => row.id ∉ accounts) =
        db.users.filter fun row => row.id ∉ accounts :=
      congrArg (fun db => db.users) hboth
    obtain ⟨hmem, _⟩ := Table.get?_some hget
    have hnew : Repository.anonymized user ∈ (Table.updateWhere db.users
        (fun row => row.id = user.id) Repository.anonymized).filter fun row => row.id ∉ accounts :=
      List.mem_filter.mpr ⟨Table.mem_updateWhere.mpr ⟨user, hmem, by simp⟩,
        by simp [Repository.anonymized, hforeign]⟩
    rw [hrows] at hnew
    exact hwritten.2 (hkeyed.userId _ (List.mem_of_mem_filter hnew) user hmem rfl)
  account helsewhere hwritten := account_of_local hkeyed hget h hwritten helsewhere
  role helsewhere htaken := role_of_local hkeyed hget h helsewhere htaken

/-- A deletion stays inside the tenant exactly if it spares the account, where the
person has one. -/
theorem deletion_tenantLocal_iff (env : Tenancy.Env) (accounts : Finset Uuid) (outage : Outage)
    (now : Instant) (actor : Identity) (userId : Uuid) (db : PrivacyDb ε)
    (hadmin : Users.authorize actor managePermission = true) (hkeyed : Keyed db)
    (haccounts : ∀ id ∈ accounts, HasRow db id actor.organizationId) :
    TenantLocal env accounts userId actor.organizationId db
        (executeUserDataDeletion outage now actor userId .userData db).2 ↔
      ∀ user, Repository.getUser db.toDb userId = some user →
        Spared env accounts outage db actor.organizationId user := by
  cases hget : Repository.getUser db.toDb userId with
  | none =>
    have hdenied : ¬ Permitted db actor userId .userData := fun h => by
      have haccount := h.account
      rw [hget] at haccount
      cases haccount
    obtain ⟨e, hrun⟩ := execute_of_not_permitted outage now userId db actor .userData hdenied
    rw [hrun]
    refine ⟨fun _ user huser => (nomatch huser), fun _ => ?_⟩
    exact ⟨rfl, fun _ => rfl, fun _ _ _ => rfl, fun _ _ _ _ _ _ _ _ => .inl rfl⟩
  | some user =>
    have hpermitted : Permitted db actor userId .userData := ⟨rfl, hadmin, by rw [hget]; rfl⟩
    obtain ⟨result, hrun, _⟩ := execute_of_permitted outage now userId db actor .userData hpermitted
    obtain ⟨_, rfl⟩ := Table.get?_some hget
    rw [hrun]
    constructor
    · intro hlocal user' huser'
      obtain rfl : user = user' := Option.some.inj huser'
      exact spared_of_local hkeyed hget hlocal
    · intro hspared
      exact local_of_spared hkeyed haccounts hget (hspared user rfl)

end Frame

/-! ## One member, of this organization or of another -/

def ann : User :=
  { id := 7, email := "ann@example.com", displayName := "Ann", passwordHash := some "pw" }

/-- Ann, with a role and a session in one organization only. -/
def annIn (organizationId : Uuid) : PrivacyDb Unit :=
  { users := [ann]
    organizations :=
      [{ id := 1, name := "One", slug := "one" }, { id := 2, name := "Two", slug := "two" }]
    userRoles := [{ userId := 7, organizationId, roleId := 3 }]
    refreshTokens := [{ id := 5, userId := 7, organizationId, familyId := 5, tokenHash := "t"
                        expiresAt := 10 }] }

/-- The administrator of organization 1. -/
def adminOfOne : Identity :=
  { kind := .user, subject := "9", organizationId := 1, userId := some 9
    permissions := {managePermission} }

theorem keyed_annIn {organizationId : Uuid} (h : organizationId = 1 ∨ organizationId = 2) :
    Keyed (annIn organizationId) where
  userId := Table.keyUnique_singleton ann
  email := Table.keyUnique_singleton ann
  project := Table.keyUnique_nil
  organization := by
    rcases h with rfl | rfl <;> decide

/-- A member of the own organization only is erased without a trace elsewhere. -/
theorem deletion_tenantLocal_annIn :
    TenantLocal plainEnv {7} 7 1 (annIn 1)
      (executeUserDataDeletion (fun _ => none) 20 adminOfOne 7 .userData (annIn 1)).2 := by
  have hrow : HasRow (annIn 1) 7 1 := ⟨_, List.Mem.head _, by decide, 1, by decide, by decide⟩
  have hmembers : ¬ ∃ other ∈ memberOf (annIn 1) 7, other ≠ 1 := by decide
  refine (deletion_tenantLocal_iff plainEnv {7} (fun _ => none) 20 adminOfOne 7 (annIn 1)
    (by decide) (keyed_annIn (.inl rfl)) fun id hid => ?_).mpr fun user hget => ?_
  · obtain rfl := Finset.mem_singleton.mp hid
    exact hrow
  · obtain ⟨_, hid⟩ := Table.get?_some hget
    refine ⟨fun _ => by rw [hid]; decide, fun helsewhere => ?_, fun helsewhere => ?_⟩
    · rw [hid] at helsewhere
      exact absurd helsewhere hmembers
    · rw [hid] at helsewhere
      exact absurd helsewhere hmembers

/-- An administrator of organization 1 ends the access of a member of organization 2
who has no row in organization 1. -/
theorem deletion_not_tenantLocal :
    ¬ TenantLocal plainEnv ∅ 7 1 (annIn 2)
      (executeUserDataDeletion (fun _ => none) 20 adminOfOne 7 .userData (annIn 2)).2 := by
  intro h
  have hsame := h.identity 2 (by decide) (by decide)
  have hpermitted : Permitted (annIn 2) adminOfOne 7 .userData := ⟨rfl, by decide, rfl⟩
  obtain ⟨result, hrun, _⟩ := execute_of_permitted (fun _ => none) 20 7 (annIn 2) adminOfOne
    .userData hpermitted
  rw [hrun] at hsame
  have hann : Users.Repository.getById (annIn 2).toDb 7 = some ann := rfl
  obtain ⟨identity, hbefore⟩ := resolveIdentity_of_active 2 hann rfl
  have hwritten : AccountWritten (fun _ => none) ann := by
    refine ⟨rfl, fun hsame => ?_⟩
    have hactive := congrArg User.isActive hsame
    cases hactive
  rw [hbefore, resolveIdentity_of_inactive (getUser_of_written hann hwritten) rfl] at hsame
  cases hsame

end Ekip.Core.Privacy
