import Ekip.Core.Exceptions
import Ekip.Shared.Schemas

/-!
# Users: `core/users/repository.py` and `core/users/service.py`
-/
namespace Ekip.Core.Users.Repository

open Ekip.Lib Ekip.Database Ekip.Shared Ekip.Core

/-!
## Queries and writes of `core/users/repository.py`

A query that joins tables is a nested enumeration of their rows, with the join
conditions as filters. An insert raises where the table has a constraint.
-/

def getById (db : Db) (userId : Uuid) : Option User := Table.get? User.id db.users userId

def getByEmail (db : Db) (email : String) : Option User := Table.get? User.email db.users email

def getRoleByName (db : Db) (name : String) : Option Role := Table.get? Role.name db.roles name

def getRoleNames (db : Db) (userId organizationId : Uuid) : List String :=
  (db.roles.flatMap fun role =>
    (db.userRoles.filter fun ur => ur.roleId = role.id ∧ ur.userId = userId ∧
      ur.organizationId = organizationId).map fun _ => role.name).mergeSort

/-- The codes of the permissions that `role_permissions` joins to `roleId`. -/
def roleCodes (db : Db) (roleId : Uuid) : List String :=
  (db.rolePermissions.filter fun rp => rp.roleId = roleId).flatMap fun rp =>
    (db.permissions.filter fun permission => permission.id = rp.permissionId).map Permission.code

def getPermissionCodes (db : Db) (userId organizationId : Uuid) : Finset String :=
  ((db.userRoles.filter fun ur => ur.userId = userId ∧ ur.organizationId = organizationId).flatMap
    fun ur => roleCodes db ur.roleId).toFinset

/-- The rows `(project_id, code)` of the four-table join. -/
def projectPermissionRows (db : Db) (userId organizationId : Uuid) : List (Uuid × String) :=
  ((db.projectMemberships.filter fun pm => pm.userId = userId).flatMap fun pm =>
    (db.projects.filter fun project =>
        project.id = pm.projectId ∧ project.organizationId = organizationId).flatMap fun _ =>
      (roleCodes db pm.roleId).map fun code => (pm.projectId, code)).dedup

/-- `grouped.setdefault(project_id, set()).add(code)`. -/
def addCode (grouped : Dict Uuid (Finset String)) (row : Uuid × String) :
    Dict Uuid (Finset String) :=
  grouped.insert row.1 (insert row.2 ((grouped.lookup row.1).getD ∅))

def getProjectPermissionMap (db : Db) (userId organizationId : Uuid) :
    Dict Uuid (Finset String) :=
  (projectPermissionRows db userId organizationId).foldl addCode ∅

def getUserRole (db : Db) (userId organizationId roleId : Uuid) : Option UserRole :=
  db.userRoles.find? fun ur =>
    ur.userId = userId ∧ ur.organizationId = organizationId ∧ ur.roleId = roleId

/-- `list_user_organization_ids`, a `SELECT DISTINCT`. -/
def listOrganizationIds (db : Db) (userId : Uuid) : List Uuid :=
  ((db.userRoles.filter fun ur => ur.userId = userId).map UserRole.organizationId).dedup

/-- `id` is the primary key the database draws. -/
def insertUser (id : Uuid) (email displayName : String) : ServiceM User := do
  let users ← Service.read Db.users
  Service.raiseIf (users.any fun user => user.id = id ∨ user.email = email)
    (.integrityError "users")
  let row : User := { id, email, displayName }
  Service.write fun db => { db with users := db.users ++ [row] }
  pure row

def insertUserRole (userId organizationId roleId : Uuid) : ServiceM Unit := do
  let existing ← Service.read fun db => getUserRole db userId organizationId roleId
  Service.raiseIf existing.isSome (.integrityError "user_roles_pkey")
  Service.write fun db =>
    { db with userRoles := db.userRoles ++ [{ userId, organizationId, roleId }] }

def updatePasswordHash (userId : Uuid) (passwordHash : String) : ServiceM Unit := do
  let row ← Service.read fun db => getById db userId
  let _ ← Service.orRaise row (.valueError s!"update_password_hash: no such user {userId}")
  Service.write fun db =>
    { db with
      users := Table.updateWhere db.users (fun user => user.id = userId)
        (fun user => { user with passwordHash := some passwordHash }) }

/-! ## What the queries return -/

/-- Some permission row of the role carries the code. -/
def RoleGrants (db : Db) (roleId : Uuid) (code : String) : Prop :=
  ∃ rp ∈ db.rolePermissions, ∃ permission ∈ db.permissions,
    rp.roleId = roleId ∧ permission.id = rp.permissionId ∧ permission.code = code

instance (db : Db) (roleId : Uuid) (code : String) : Decidable (RoleGrants db roleId code) :=
  inferInstanceAs (Decidable (∃ _ ∈ _, ∃ _ ∈ _, _ ∧ _ ∧ _))

theorem mem_roleCodes {db : Db} {roleId : Uuid} {code : String} :
    code ∈ roleCodes db roleId ↔ RoleGrants db roleId code := by
  simp only [roleCodes, RoleGrants, List.mem_flatMap, List.mem_filter, List.mem_map,
    decide_eq_true_eq]
  constructor
  · rintro ⟨rp, ⟨hrp, hrole⟩, permission, ⟨hp, hid⟩, hcode⟩
    exact ⟨rp, hrp, permission, hp, hrole, hid, hcode⟩
  · rintro ⟨rp, hrp, permission, hp, hrole, hid, hcode⟩
    exact ⟨rp, ⟨hrp, hrole⟩, permission, ⟨hp, hid⟩, hcode⟩

theorem mem_getPermissionCodes {db : Db} {userId organizationId : Uuid} {code : String} :
    code ∈ getPermissionCodes db userId organizationId ↔
      ∃ ur ∈ db.userRoles, ur.userId = userId ∧ ur.organizationId = organizationId ∧
        RoleGrants db ur.roleId code := by
  simp only [getPermissionCodes, List.mem_toFinset, List.mem_flatMap, List.mem_filter,
    decide_eq_true_eq, mem_roleCodes, and_assoc]

theorem mem_projectPermissionRows {db : Db} {userId organizationId projectId : Uuid}
    {code : String} :
    (projectId, code) ∈ projectPermissionRows db userId organizationId ↔
      (∃ pm ∈ db.projectMemberships, pm.userId = userId ∧ pm.projectId = projectId ∧
        RoleGrants db pm.roleId code) ∧
      ∃ project ∈ db.projects, project.id = projectId ∧
        project.organizationId = organizationId := by
  simp only [projectPermissionRows, List.mem_dedup, List.mem_flatMap, List.mem_filter,
    decide_eq_true_eq, List.mem_map, mem_roleCodes, Prod.mk.injEq]
  constructor
  · rintro ⟨pm, ⟨hpm, hu⟩, project, ⟨hproject, hid, ho⟩, c, hc, rfl, rfl⟩
    exact ⟨⟨pm, hpm, hu, rfl, hc⟩, project, hproject, hid, ho⟩
  · rintro ⟨⟨pm, hpm, hu, rfl, hc⟩, project, hproject, hid, ho⟩
    exact ⟨pm, ⟨hpm, hu⟩, project, ⟨hproject, hid, ho⟩, code, hc, rfl, rfl⟩

/-- `grouped` is the grouping of the rows read so far. -/
def Groups (rows : List (Uuid × String)) (grouped : Dict Uuid (Finset String)) : Prop :=
  ∀ p, match grouped.lookup p with
    | none => ∀ code, (p, code) ∉ rows
    | some codes => codes.Nonempty ∧ ∀ code, code ∈ codes ↔ (p, code) ∈ rows

theorem groups_addCode {rows : List (Uuid × String)} {grouped : Dict Uuid (Finset String)}
    (h : Groups rows grouped) (row : Uuid × String) :
    Groups (rows ++ [row]) (addCode grouped row) := by
  obtain ⟨q, c⟩ := row
  intro p
  have hp := h p
  by_cases hpq : p = q
  · subst hpq
    simp only [addCode, AList.lookup_insert]
    refine ⟨⟨c, Finset.mem_insert_self _ _⟩, fun code => ?_⟩
    cases hl : grouped.lookup p with
    | none =>
      rw [hl] at hp
      simp [hp]
    | some codes =>
      rw [hl] at hp
      simp [hp.2, or_comm]
  · have hne : ∀ code, (p, code) ∈ rows ++ [(q, c)] ↔ (p, code) ∈ rows := by
      intro code
      simp [hpq]
    simp only [addCode, AList.lookup_insert_ne hpq, hne]
    exact hp

/-- The loop groups all rows: a project has an entry exactly when it has a row. -/
theorem groups_foldl (rows : List (Uuid × String)) : Groups rows (rows.foldl addCode ∅) := by
  suffices h : ∀ read grouped, Groups read grouped →
      Groups (read ++ rows) (rows.foldl addCode grouped) by
    simpa using h [] ∅ (fun p => by simp)
  induction rows with
  | nil =>
    intro read grouped h
    simpa using h
  | cons row rows ih =>
    intro read grouped h
    have hstep := ih (read ++ [row]) (addCode grouped row) (groups_addCode h row)
    simpa using hstep

theorem getProjectPermissionMap_groups (db : Db) (userId organizationId : Uuid) :
    Groups (projectPermissionRows db userId organizationId)
      (getProjectPermissionMap db userId organizationId) :=
  groups_foldl _

theorem mem_listOrganizationIds {db : Db} {userId organizationId : Uuid} :
    organizationId ∈ listOrganizationIds db userId ↔
      ∃ ur ∈ db.userRoles, ur.userId = userId ∧ ur.organizationId = organizationId := by
  simp [listOrganizationIds, and_assoc]

end Ekip.Core.Users.Repository

/-! ## `core/users/service.py`: identities, permissions and accounts -/
namespace Ekip.Core.Users

open Ekip.Lib Ekip.Database Ekip.Shared Ekip.Core

def resolveIdentity (userId organizationId : Uuid) : ServiceM Identity := do
  let row ← Service.read fun db => Repository.getById db userId
  let user ← Service.orRaise row
    (notFound "User not found." "user.not_found" [("user_id", toString userId)])
  Service.raiseIf (!user.isActive)
    (permissionDenied "User account is inactive." "user.inactive" [("user_id", toString userId)])
  let roleNames ← Service.read fun db => Repository.getRoleNames db userId organizationId
  let permissionCodes ← Service.read fun db => Repository.getPermissionCodes db userId organizationId
  let projectPermissions ← Service.read fun db =>
    Repository.getProjectPermissionMap db userId organizationId
  pure
    { kind := .user
      subject := toString user.id
      organizationId
      userId := some user.id
      displayName := some user.displayName
      roles := roleNames
      permissions := permissionCodes
      projectPermissions }

/-- `id` is drawn by the database for the row that is created. -/
def getOrCreateUser (id : Uuid) (email displayName : String) : ServiceM Uuid := do
  let existing ← Service.read fun db => Repository.getByEmail db email
  match existing with
  | some user => pure user.id
  | none => do
    let created ← Repository.insertUser id email displayName
    pure created.id

def assignRole (userId organizationId roleId : Uuid) : ServiceM Unit := do
  let existing ← Service.read fun db => Repository.getUserRole db userId organizationId roleId
  match existing with
  | some _ => pure ()
  | none => Repository.insertUserRole userId organizationId roleId

def authorize (actor : Identity) (permissionCode : String) (projectId : Option Uuid := none) :
    Bool :=
  actor.hasPermission permissionCode projectId

def requirePermission (actor : Identity) (permissionCode : String)
    (projectId : Option Uuid := none) : ServiceM Unit :=
  Service.raiseIf (!authorize actor permissionCode projectId)
    (permissionDenied "You do not have permission to perform this action." "permission_denied"
      [("required_permission", permissionCode)])

structure UserCredentialLookup where
  userId : Uuid
  passwordHash : Option String
  isActive : Bool

def getCredentialLookup (email : String) : ServiceM (Option UserCredentialLookup) :=
  Service.read fun db => (Repository.getByEmail db email).map fun row =>
    { userId := row.id, passwordHash := row.passwordHash, isActive := row.isActive }

def setPassword (userId : Uuid) (passwordHash : String) : ServiceM Unit :=
  Repository.updatePasswordHash userId passwordHash

def listOrganizationsForLogin (userId : Uuid) : ServiceM (List Uuid) :=
  Service.read fun db => Repository.listOrganizationIds db userId

/-! ## What the operations return -/

variable {db db' : Db}

theorem resolveIdentity_returns {userId organizationId : Uuid} {identity : Identity} :
    (resolveIdentity userId organizationId).Returns db identity db' ↔
      ∃ user, Repository.getById db userId = some user ∧ user.isActive = true ∧ db' = db ∧
        identity =
          { kind := .user
            subject := toString user.id
            organizationId
            userId := some user.id
            displayName := some user.displayName
            roles := Repository.getRoleNames db userId organizationId
            permissions := Repository.getPermissionCodes db userId organizationId
            projectPermissions := Repository.getProjectPermissionMap db userId organizationId } := by
  simp only [resolveIdentity, Service.bind_returns, Service.read_returns, Service.orRaise_returns,
    Service.raiseIf_returns, Service.pure_returns, Bool.not_eq_eq_eq_not, Bool.not_false]
  constructor
  · rintro ⟨_, _, ⟨rfl, rfl⟩, user, _, ⟨hget, rfl⟩, _, _, ⟨hactive, rfl⟩, _, _, ⟨rfl, rfl⟩, _, _,
      ⟨rfl, rfl⟩, _, _, ⟨rfl, rfl⟩, rfl, rfl⟩
    exact ⟨user, hget, hactive, rfl, rfl⟩
  · rintro ⟨user, hget, hactive, rfl, rfl⟩
    exact ⟨_, _, ⟨rfl, rfl⟩, user, _, ⟨hget, rfl⟩, (), _, ⟨hactive, rfl⟩, _, _, ⟨rfl, rfl⟩, _, _,
      ⟨rfl, rfl⟩, _, _, ⟨rfl, rfl⟩, rfl, rfl⟩

/-- `userId` is the account of the email: the one that exists, whatever
organization it belongs to, or a new one under `id`. -/
def AccountFor (users : List User) (id : Uuid) (email displayName : String) (userId : Uuid)
    (users' : List User) : Prop :=
  (∃ user ∈ users, user.email = email ∧ userId = user.id ∧ users' = users) ∨
    (userId = id ∧ (∀ user ∈ users, user.id ≠ id ∧ user.email ≠ email) ∧
      users' = users ++ [({ id, email, displayName } : User)])

theorem getOrCreateUser_returns {id userId : Uuid} {email displayName : String}
    (h : (getOrCreateUser id email displayName).Returns db userId db') :
    AccountFor db.users id email displayName userId db'.users ∧
      db' = { db with users := db'.users } := by
  simp only [getOrCreateUser, Service.bind_returns, Service.read_returns] at h
  obtain ⟨existing, _, ⟨rfl, rfl⟩, h⟩ := h
  cases hget : Repository.getByEmail db email with
  | some user =>
    rw [hget] at h
    obtain ⟨rfl, rfl⟩ := Service.pure_returns.mp h
    obtain ⟨hmem, hemail⟩ := Table.get?_some hget
    exact ⟨Or.inl ⟨user, hmem, hemail, rfl, rfl⟩, rfl⟩
  | none =>
    rw [hget] at h
    simp only [Repository.insertUser, Service.bind_returns, Service.read_returns,
      Service.raiseIf_returns, Service.write_returns, Service.pure_returns] at h
    obtain ⟨_, _, ⟨_, _, ⟨rfl, rfl⟩, _, _, ⟨hfree, rfl⟩, _, _, rfl, rfl, rfl⟩, rfl, rfl⟩ := h
    refine ⟨Or.inr ⟨rfl, fun user huser => ?_, rfl⟩, rfl⟩
    simpa [not_or] using List.any_eq_false.mp hfree user huser

/-- Granting a role adds at most the one row, for that user in that organization. -/
theorem assignRole_returns {userId organizationId roleId : Uuid} {u : Unit}
    (h : (assignRole userId organizationId roleId).Returns db u db') :
    db' = { db with userRoles := db'.userRoles } ∧
      ∀ ur, ur ∈ db'.userRoles ↔ ur ∈ db.userRoles ∨ ur = { userId, organizationId, roleId } := by
  simp only [assignRole, Service.bind_returns, Service.read_returns] at h
  obtain ⟨existing, _, ⟨rfl, rfl⟩, h⟩ := h
  cases hget : Repository.getUserRole db userId organizationId roleId with
  | some found =>
    rw [hget] at h
    obtain ⟨_, rfl⟩ := Service.pure_returns.mp h
    have hmatch := List.find?_some hget
    simp only [decide_eq_true_eq] at hmatch
    obtain ⟨rfl, rfl, rfl⟩ := hmatch
    refine ⟨rfl, fun ur => ⟨.inl, ?_⟩⟩
    rintro (hold | rfl)
    · exact hold
    · exact List.mem_of_find?_eq_some hget
  | none =>
    rw [hget] at h
    simp only [Repository.insertUserRole, Service.bind_returns, Service.read_returns,
      Service.raiseIf_returns, Service.write_returns] at h
    obtain ⟨_, _, ⟨rfl, rfl⟩, _, _, ⟨_, rfl⟩, rfl⟩ := h
    exact ⟨rfl, fun ur => by simp⟩

theorem setPassword_returns {userId : Uuid} {passwordHash : String} {u : Unit}
    (h : (setPassword userId passwordHash).Returns db u db') :
    db' = { db with
      users := Table.updateWhere db.users (fun user => user.id = userId)
        (fun user => { user with passwordHash := some passwordHash }) } := by
  simp only [setPassword, Repository.updatePasswordHash, Service.bind_returns,
    Service.read_returns, Service.orRaise_returns, Service.write_returns] at h
  obtain ⟨_, _, ⟨rfl, rfl⟩, _, _, ⟨_, rfl⟩, rfl⟩ := h
  rfl

end Ekip.Core.Users
