import Ekip.Core.Users.Service

/-!
# Project memberships as overrides

A membership in a project is meant to replace the organization-level answer for
that project, in both directions. The override map is built by an inner join
that starts at the membership and ends at a permission row, so a membership
whose roles carry no permission leaves no entry and the organization-level
answer comes back.
-/
namespace Ekip.Core.Users.ProjectOverride

open Ekip.Lib Ekip.Database Ekip.Core
open Repository (RoleGrants getById projectPermissionRows)

variable {db db' : Db} {u o p : Uuid} {c : String}

/-- What a request learns: the identity is resolved and then asked. -/
def answer (db : Db) (userId organizationId : Uuid) (permissionCode : String)
    (projectId : Option Uuid) : Except Exn Bool :=
  (resolveIdentity userId organizationId db).1.map fun identity =>
    identity.hasPermission permissionCode projectId

def HasMembership (db : Db) (u p : Uuid) : Prop :=
  ∃ pm ∈ db.projectMemberships, pm.userId = u ∧ pm.projectId = p

def MembershipGrants (db : Db) (u p : Uuid) (c : String) : Prop :=
  ∃ pm ∈ db.projectMemberships, pm.userId = u ∧ pm.projectId = p ∧ RoleGrants db pm.roleId c

def OrganizationGrants (db : Db) (u o : Uuid) (c : String) : Prop :=
  ∃ ur ∈ db.userRoles, ur.userId = u ∧ ur.organizationId = o ∧ RoleGrants db ur.roleId c

def ProjectOf (db : Db) (p o : Uuid) : Prop :=
  ∃ project ∈ db.projects, project.id = p ∧ project.organizationId = o

/-- The rule: the roles of the membership rows decide, and the organization's
roles decide only where there is no membership row. -/
def OverrideRule (db : Db) (u o p : Uuid) (c : String) : Prop :=
  (HasMembership db u p ∧ MembershipGrants db u p c) ∨
    (¬ HasMembership db u p ∧ OrganizationGrants db u o c)

instance : Decidable (HasMembership db u p) := inferInstanceAs (Decidable (∃ _ ∈ _, _ ∧ _))

instance : Decidable (MembershipGrants db u p c) :=
  inferInstanceAs (Decidable (∃ _ ∈ _, _ ∧ _ ∧ _))

instance : Decidable (OrganizationGrants db u o c) :=
  inferInstanceAs (Decidable (∃ _ ∈ _, _ ∧ _ ∧ _))

instance : Decidable (ProjectOf db p o) := inferInstanceAs (Decidable (∃ _ ∈ _, _ ∧ _))

instance : Decidable (OverrideRule db u o p c) :=
  inferInstanceAs (Decidable ((_ ∧ _) ∨ (_ ∧ _)))

/-- The states differ only in memberships of projects that are not `o`'s. -/
structure SameButForeignMemberships (o : Uuid) (db db' : Db) : Prop where
  tables : db' = { db with projectMemberships := db'.projectMemberships }
  own : ∀ pm, ProjectOf db pm.projectId o →
    (pm ∈ db'.projectMemberships ↔ pm ∈ db.projectMemberships)

theorem answer_of_active {user : User} (hu : getById db u = some user)
    (ha : user.isActive = true) (q : Option Uuid) :
    answer db u o c q = .ok
      (match q.bind fun p => (Repository.getProjectPermissionMap db u o).lookup p with
        | some codes => decide (c ∈ codes)
        | none => decide (c ∈ Repository.getPermissionCodes db u o)) := by
  have h : (resolveIdentity u o).Returns db _ db :=
    resolveIdentity_returns.mpr ⟨user, hu, ha, rfl, rfl⟩
  unfold Service.Returns at h
  rw [answer, h]
  rfl

/-- The lookup of one project in the map, in terms of the joined rows. -/
theorem lookup_map (db : Db) (u o p : Uuid) (c : String) :
    (match (Repository.getProjectPermissionMap db u o).lookup p with
      | some codes => decide (c ∈ codes)
      | none => decide (c ∈ Repository.getPermissionCodes db u o)) = true ↔
      ((∃ code, (p, code) ∈ projectPermissionRows db u o) ∧ (p, c) ∈ projectPermissionRows db u o) ∨
        ((∀ code, (p, code) ∉ projectPermissionRows db u o) ∧ OrganizationGrants db u o c) := by
  have hgroups := Repository.getProjectPermissionMap_groups db u o p
  cases hl : (Repository.getProjectPermissionMap db u o).lookup p with
  | some codes =>
    rw [hl] at hgroups
    obtain ⟨⟨code, hcode⟩, hmem⟩ := hgroups
    have hex : ∃ code, (p, code) ∈ projectPermissionRows db u o := ⟨code, (hmem code).mp hcode⟩
    simp only [decide_eq_true_eq, hmem, hex, true_and]
    exact ⟨.inl, fun h => h.resolve_right fun hno => hno.1 code ((hmem code).mp hcode)⟩
  | none =>
    rw [hl] at hgroups
    have hno : ¬ ∃ code, (p, code) ∈ projectPermissionRows db u o := by
      rintro ⟨code, hcode⟩
      exact hgroups code hcode
    simp only [decide_eq_true_eq, Repository.mem_getPermissionCodes, hno, false_and, false_or]
    exact ⟨fun h => ⟨hgroups, h⟩, fun h => h.2⟩

theorem answer_project_iff {user : User} (hu : getById db u = some user)
    (ha : user.isActive = true) (hp : ProjectOf db p o) :
    answer db u o c (some p) = .ok true ↔
      ((∃ code, MembershipGrants db u p code) ∧ MembershipGrants db u p c) ∨
        ((∀ code, ¬ MembershipGrants db u p code) ∧ OrganizationGrants db u o c) := by
  have hrow : ∀ code, (p, code) ∈ projectPermissionRows db u o ↔ MembershipGrants db u p code := by
    intro code
    rw [Repository.mem_projectPermissionRows]
    exact and_iff_left hp
  have h := lookup_map db u o p c
  simp only [hrow] at h
  rw [answer_of_active hu ha, Except.ok.injEq]
  exact h

theorem membershipGrants_hasMembership (h : MembershipGrants db u p c) : HasMembership db u p := by
  obtain ⟨pm, hpm, hu, hp, _⟩ := h
  exact ⟨pm, hpm, hu, hp⟩

theorem rows_same (h : SameButForeignMemberships o db db') (u p : Uuid) (c : String) :
    (p, c) ∈ projectPermissionRows db' u o ↔ (p, c) ∈ projectPermissionRows db u o := by
  rw [Repository.mem_projectPermissionRows, Repository.mem_projectPermissionRows]
  have hprojects : db'.projects = db.projects := by rw [h.tables]
  have hgrants : ∀ roleId, RoleGrants db' roleId c ↔ RoleGrants db roleId c := by
    intro roleId
    rw [h.tables]
    rfl
  rw [hprojects]
  refine and_congr_left fun hproject => exists_congr fun pm => ?_
  rw [hgrants]
  constructor
  · rintro ⟨hpm, hu, rfl, hg⟩
    exact ⟨(h.own pm hproject).mp hpm, hu, rfl, hg⟩
  · rintro ⟨hpm, hu, rfl, hg⟩
    exact ⟨(h.own pm hproject).mpr hpm, hu, rfl, hg⟩

/-- Memberships in projects of other organizations never change an answer. -/
theorem answer_same (h : SameButForeignMemberships o db db') (u : Uuid) (c : String)
    (q : Option Uuid) : answer db' u o c q = answer db u o c q := by
  have hget : getById db' u = getById db u := by rw [h.tables]; rfl
  have hcodes : Repository.getPermissionCodes db' u o = Repository.getPermissionCodes db u o := by
    rw [h.tables]; rfl
  cases hu : getById db u with
  | none =>
    simp only [answer, resolveIdentity, bind, Service.read, Service.orRaise, hget, hu]
  | some user =>
    cases ha : user.isActive with
    | false =>
      simp only [answer, resolveIdentity, bind, Service.read, Service.orRaise,
        Service.raiseIf, hget, hu, ha]
      rfl
    | true =>
      rw [answer_of_active (hget.trans hu) ha, answer_of_active hu ha, Except.ok.injEq]
      cases q with
      | none => simp [hcodes]
      | some p =>
        have h' := lookup_map db' u o p c
        have horg : OrganizationGrants db' u o c ↔ OrganizationGrants db u o c := by
          unfold OrganizationGrants
          rw [← Repository.mem_getPermissionCodes, ← Repository.mem_getPermissionCodes,
            hcodes]
        simp only [rows_same h, horg] at h'
        exact Bool.eq_iff_iff.mpr (h'.trans (lookup_map db u o p c).symm)

/-- For an active user and a project of the organization the code follows the
override rule exactly where no membership is dropped by the join while the
organization's roles grant the code. -/
theorem override_rule_iff {user : User} (hu : getById db u = some user)
    (ha : user.isActive = true) (hp : ProjectOf db p o) :
    ((answer db u o c (some p) = .ok true ↔ OverrideRule db u o p c) ∧
        ∀ db', SameButForeignMemberships o db db' →
          ∀ v d q, answer db' v o d q = answer db v o d q) ↔
      ¬ HasMembership db u p ∨ (∃ code, MembershipGrants db u p code) ∨
        ¬ OrganizationGrants db u o c := by
  have hsame : ∀ db', SameButForeignMemberships o db db' →
      ∀ v d q, answer db' v o d q = answer db v o d q :=
    fun db' h v d q => answer_same h v d q
  rw [and_iff_left hsame, answer_project_iff hu ha hp]
  unfold OverrideRule
  by_cases hm : HasMembership db u p
  · by_cases hg : ∃ code, MembershipGrants db u p code
    · have hno : ¬ ∀ code, ¬ MembershipGrants db u p code := not_forall_not.mpr hg
      simp [hm, hg, hno]
    · have hall : ∀ code, ¬ MembershipGrants db u p code := not_exists.mp hg
      simp [hm, hall]
  · have hall : ∀ code, ¬ MembershipGrants db u p code :=
      fun code h => hm (membershipGrants_hasMembership h)
    simp [hm, hall]

/-- One user with an organization-wide `engineer` role who is put on project 7
with a role that carries no permission. -/
def restrictedEngineer : Db where
  users := [{ id := 1, email := "u@b.example", displayName := "U" }]
  roles := [{ id := 2, name := "engineer" }, { id := 3, name := "observer" }]
  permissions := [{ id := 4, code := "incident:write" }]
  rolePermissions := [{ roleId := 2, permissionId := 4 }]
  userRoles := [{ userId := 1, organizationId := 5, roleId := 2 }]
  projects := [{ id := 7, organizationId := 5, name := "Payments" }]
  projectMemberships := [{ userId := 1, projectId := 7, roleId := 3 }]

/-- A membership meant to restrict is ignored, and the user keeps writing. -/
theorem override_rule_fails :
    ¬ ∀ (db : Db) (u o p : Uuid) (c : String) (user : User), getById db u = some user →
        user.isActive = true → ProjectOf db p o →
        (answer db u o c (some p) = .ok true ↔ OverrideRule db u o p c) := by
  intro h
  have hrule := (h restrictedEngineer 1 5 7 "incident:write" _ rfl rfl (by decide)).mp rfl
  exact absurd hrule (by decide)

/-- The same user on the same project with a role that grants reading. -/
def readingEngineer : Db :=
  { restrictedEngineer with
    permissions := [{ id := 4, code := "incident:write" }, { id := 6, code := "incident:read" }]
    rolePermissions := [{ roleId := 2, permissionId := 4 }, { roleId := 3, permissionId := 6 }] }

theorem override_rule_reader :
    answer readingEngineer 1 5 "incident:write" (some 7) = .ok true ↔
      OverrideRule readingEngineer 1 5 7 "incident:write" :=
  ((override_rule_iff
    (rfl : getById readingEngineer 1 = some { id := 1, email := "u@b.example", displayName := "U" })
    rfl (by decide)).mpr (.inr (.inl ⟨"incident:read", by decide⟩))).1

end Ekip.Core.Users.ProjectOverride
