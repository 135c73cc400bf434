import Ekip.Lib.Run
import Ekip.Core.Auth.Signup

/-!
# The default project

Whoever names no project gets the one default project of the organization. Only the
services keep it one: the database has no constraint for it.
-/
namespace Ekip.Core.Tenancy.DefaultProject

open Ekip.Lib Ekip.Database Ekip.Shared Ekip.Core

inductive Call
  | signup (draw : Auth.SignupDraw) (data : Auth.SignupRequest)
  | createOrganization (id projectId : Uuid) (data : OrganizationCreate) (actor : Option Identity)
  | createProject (id : Uuid) (actor : Identity) (organizationId : Uuid) (data : ProjectCreate)

def perform (env : Env) : Call → ServiceM Unit
  | .signup draw data => do
    let _ ← Auth.signup env draw data
  | .createOrganization id projectId data actor => do
    let _ ← createOrganization id projectId data actor
  | .createProject id actor organizationId data => do
    let _ ← createProject id actor organizationId data

/-- One call in its own transaction. -/
def step (env : Env) (db : Db) (call : Call) : Option Db :=
  some (getDbSession (perform env call) db).2

/-- The call adds a project that is marked as the default one. -/
def Marks (db : Db) : Call → Prop
  | .signup .. | .createOrganization .. => False
  | .createProject id actor organizationId data =>
    actor.organizationId = organizationId ∧ actor.hasPermission managePermission none = true ∧
      Insertable db { id, organizationId, name := data.name, isDefault := data.isDefault } ∧
      data.isDefault = true

instance (db : Db) (call : Call) : Decidable (Marks db call) := by
  unfold Marks
  split <;> infer_instance

def Unmarked (db : Db) (call : Call) : Prop := ¬ Marks db call

instance (db : Db) (call : Call) : Decidable (Unmarked db call) :=
  inferInstanceAs (Decidable (¬ _))

/-- Every organization has exactly one default project. -/
def OneDefault (db : Db) : Prop :=
  ∀ organization ∈ db.organizations, ∃ project, defaultProjects db organization.id = [project]

/-- What is handed over to the next call. -/
structure Inv (db : Db) : Prop where
  default : OneDefault db
  references : ∀ project ∈ db.projects,
    ∃ organization ∈ db.organizations, organization.id = project.organizationId

/-! ## What a call does to the two tables -/

/-- What one call can leave: nothing new, an organization with its default project, or one
project more. -/
inductive Effect (db db' : Db) (call : Call) : Prop
  | same (h : tenants db' = tenants db) (hunmarked : Unmarked db call)
  | organization (created : Organization) (general : Project)
      (hfresh : ∀ other ∈ db.organizations, other.id ≠ created.id)
      (hgeneral : isDefaultOf created.id general = true)
      (horganizations : db'.organizations = db.organizations ++ [created])
      (hprojects : db'.projects = db.projects ++ [general]) (hunmarked : Unmarked db call)
  | project (added : Project) (hinsertable : Insertable db added)
      (horganizations : db'.organizations = db.organizations)
      (hprojects : db'.projects = db.projects ++ [added])
      (hmarks : Marks db call ↔ added.isDefault = true)

variable {env : Env} {db db' : Db} {call : Call}

theorem effect_of_created {id projectId : Uuid} {data : OrganizationCreate}
    {actor : Option Identity} {created : Organization} {after : Db}
    (h : (createOrganization id projectId data actor).Returns db created after)
    (htenants : tenants db' = tenants after) (hunmarked : Unmarked db call) :
    Effect db db' call := by
  obtain ⟨hcreated, hfresh, hafter⟩ := createOrganization_returns h
  obtain ⟨horganizations, hprojects⟩ := Prod.mk.inj htenants
  rw [hafter] at horganizations hprojects
  have hid : created.id = id := by rw [hcreated]
  refine .organization created _ ?_ ?_ horganizations hprojects hunmarked
  · rw [hid]
    exact hfresh
  · rw [hid]
    simp [isDefaultOf]

theorem step_effect (h : step env db call = some db') : Effect db db' call := by
  obtain rfl := Option.some.inj h
  unfold getDbSession
  rcases Service.transaction_cases (perform env call) db with
    ⟨u, after, hreturns, heq⟩ | ⟨e, hraises, heq⟩
  · rw [heq]
    cases call with
    | signup draw data =>
      obtain ⟨tokens, middle, hsignup, hpure⟩ := Service.bind_returns.mp hreturns
      obtain ⟨-, rfl⟩ := Service.pure_returns.mp hpure
      obtain ⟨organization, created, hcreated, htenants⟩ := Auth.signup_returns hsignup
      exact effect_of_created hcreated htenants id
    | createOrganization id projectId data actor =>
      obtain ⟨organization, middle, hcreated, hpure⟩ := Service.bind_returns.mp hreturns
      obtain ⟨-, rfl⟩ := Service.pure_returns.mp hpure
      exact effect_of_created hcreated rfl fun hmarks => hmarks
    | createProject id actor organizationId data =>
      obtain ⟨project, middle, hcreated, hpure⟩ := Service.bind_returns.mp hreturns
      obtain ⟨-, rfl⟩ := Service.pure_returns.mp hpure
      obtain ⟨hsame, hallowed, hinsertable, rfl, rfl⟩ := createProject_returns.mp hcreated
      refine .project _ hinsertable rfl rfl ?_
      constructor
      · exact fun hmarks => hmarks.2.2.2
      · exact fun hdefault => ⟨hsame, hallowed, hinsertable, hdefault⟩
  · rw [heq]
    refine .same rfl ?_
    cases call with
    | signup draw data => exact id
    | createOrganization id projectId data actor => exact fun hmarks => hmarks
    | createProject id actor organizationId data =>
      rintro ⟨hsame, hallowed, hinsertable, -⟩
      have hreturns := createProject_returns.mpr ⟨hsame, hallowed, hinsertable, rfl, rfl⟩
      have hperform : (perform env (.createProject id actor organizationId data)).Returns db () _ :=
        Service.bind_returns.mpr ⟨_, _, hreturns, Service.pure_returns.mpr ⟨rfl, rfl⟩⟩
      unfold Service.Raises at hraises
      rw [hperform] at hraises
      cases hraises

/-! ## One default project -/

theorem defaultProjects_append {organizationId : Uuid} {added : Project}
    (hprojects : db'.projects = db.projects ++ [added]) :
    defaultProjects db' organizationId =
      defaultProjects db organizationId ++ [added].filter (isDefaultOf organizationId) := by
  unfold defaultProjects
  rw [hprojects, List.filter_append]

theorem defaultProjects_other {organizationId : Uuid} {added : Project}
    (hprojects : db'.projects = db.projects ++ [added])
    (hother : isDefaultOf organizationId added = false) :
    defaultProjects db' organizationId = defaultProjects db organizationId := by
  rw [defaultProjects_append hprojects, List.filter_cons_of_neg (by rw [hother]; decide),
    List.filter_nil, List.append_nil]

/-- A call keeps the default projects unique exactly if it marks no further one. -/
theorem oneDefault_iff (hinv : Inv db) (h : step env db call = some db') :
    OneDefault db' ↔ Unmarked db call := by
  cases step_effect h with
  | same htenants hunmarked =>
    obtain ⟨horganizations, hprojects⟩ := Prod.mk.inj htenants
    refine iff_of_true ?_ hunmarked
    intro organization horganization
    rw [horganizations] at horganization
    unfold defaultProjects
    rw [hprojects]
    exact hinv.default organization horganization
  | organization created general hfresh hgeneral horganizations hprojects hunmarked =>
    have hbelongs : general.organizationId = created.id := (of_decide_eq_true hgeneral).1
    refine iff_of_true ?_ hunmarked
    intro organization horganization
    rw [horganizations] at horganization
    rcases List.mem_append.mp horganization with hold | hnew
    · have hother : isDefaultOf organization.id general = false := by
        refine decide_eq_false ?_
        rintro ⟨hsame, -⟩
        exact hfresh organization hold (hsame.symm.trans hbelongs)
      rw [defaultProjects_other hprojects hother]
      exact hinv.default organization hold
    · rw [List.mem_singleton.mp hnew, defaultProjects_append hprojects]
      have hnone : defaultProjects db created.id = [] := by
        refine List.filter_eq_nil_iff.mpr ?_
        intro project hproject hdefault
        obtain ⟨owner, howner, hid⟩ := hinv.references project hproject
        exact hfresh owner howner (hid.trans (of_decide_eq_true hdefault).1)
      rw [hnone, List.filter_cons_of_pos hgeneral]
      exact ⟨general, rfl⟩
  | project added hinsertable horganizations hprojects hmarks =>
    unfold Unmarked
    rw [hmarks]
    constructor
    · intro hone hdefault
      obtain ⟨owner, howner, hid⟩ := hinsertable.1
      have hcounts : isDefaultOf owner.id added = true :=
        decide_eq_true ⟨hid.symm, hdefault⟩
      obtain ⟨first, hfirst⟩ := hinv.default owner howner
      rw [← horganizations] at howner
      obtain ⟨only, honly⟩ := hone owner howner
      rw [defaultProjects_append hprojects, hfirst, List.filter_cons_of_pos hcounts] at honly
      cases honly
    · intro hplain organization horganization
      rw [horganizations] at horganization
      have hother : isDefaultOf organization.id added = false :=
        decide_eq_false fun hdefault => hplain hdefault.2
      rw [defaultProjects_other hprojects hother]
      exact hinv.default organization horganization

theorem step_inv (hinv : Inv db) (hunmarked : Unmarked db call) (h : step env db call = some db') :
    Inv db' := by
  refine ⟨(oneDefault_iff hinv h).mpr hunmarked, ?_⟩
  intro project hproject
  cases step_effect h with
  | same htenants _ =>
    obtain ⟨horganizations, hprojects⟩ := Prod.mk.inj htenants
    rw [hprojects] at hproject
    rw [horganizations]
    exact hinv.references project hproject
  | organization created general hfresh hgeneral horganizations hprojects _ =>
    rw [hprojects] at hproject
    rw [horganizations]
    rcases List.mem_append.mp hproject with hold | hnew
    · obtain ⟨owner, howner, hid⟩ := hinv.references project hold
      exact ⟨owner, List.mem_append_left _ howner, hid⟩
    · rw [List.mem_singleton.mp hnew]
      exact ⟨created, List.mem_append_right _ List.mem_cons_self,
        (of_decide_eq_true hgeneral).1.symm⟩
  | project added hinsertable horganizations hprojects _ =>
    rw [hprojects] at hproject
    rw [horganizations]
    rcases List.mem_append.mp hproject with hold | hnew
    · exact hinv.references project hold
    · rw [List.mem_singleton.mp hnew]
      exact hinsertable.1

/-! ## Runs from an empty database -/

def firstSignup : Call :=
  .signup
    { organizationId := 1
      projectId := 2
      roleId := 3
      permissionId := fun code => 10 + Users.Repository.adminPermissionCodes.idxOf code
      session :=
        { issuedAt := 0
          refreshTokenId := 4
          rawRefreshToken := "raw"
          familyId := 5
          userId := 6 } }
    { email := "a@b.c"
      password := "password"
      displayName := "A"
      organizationName := "B"
      organizationSlug := "b" }

def manager : Identity where
  kind := .user
  subject := "6"
  organizationId := 1
  permissions := {"tenancy:manage"}

def payments (isDefault : Bool) : Call :=
  .createProject 7 manager 1 { name := "Payments", isDefault }

/-- From an empty database, as long as no call marks another default project, every
organization has exactly one, and asking for it returns it; a call that marks one ends this. -/
theorem run_one_default (env : Env) {db db' : Db}
    (hempty : db.organizations = [] ∧ db.projects = []) (hrun : Run (step env) Unmarked db db') :
    (∀ organization ∈ db'.organizations, ∃ project,
      defaultProjects db' organization.id = [project] ∧
        ∀ actor : Identity, actor.organizationId = organization.id →
          (getDefaultProject actor organization.id).Returns db' project db') ∧
      ∀ call after, step env db' call = some after → (OneDefault after ↔ Unmarked db' call) := by
  have hstart : Inv db := by
    refine ⟨?_, ?_⟩
    · intro organization horganization
      rw [hempty.1] at horganization
      cases horganization
    · intro project hproject
      rw [hempty.2] at hproject
      cases hproject
  have hinv : Inv db' := hrun.invariant (fun _ _ _ hs hok h => step_inv hs hok h) hstart
  refine ⟨?_, fun call after h => oneDefault_iff hinv h⟩
  intro organization horganization
  obtain ⟨project, hone⟩ := hinv.default organization horganization
  refine ⟨project, hone, ?_⟩
  intro actor hactor
  exact getDefaultProject_returns.mpr ⟨hactor, hone, rfl⟩

/-- A signup and a second project. -/
theorem run_one_default_signup : ∃ db, Run (step Auth.plainEnv) Unmarked {} db ∧
    ∃ project, defaultProjects db 1 = [project] ∧
      (getDefaultProject manager 1).Returns db project db := by
  have hreplay : ((execWithin (step Auth.plainEnv) Unmarked {}
      [firstSignup, payments false]).any fun db => decide (db.projects.length = 2 ∧
        { id := 1, name := "B", slug := "b" } ∈ db.organizations)) = true := by decide +kernel
  obtain ⟨db, hrun, -, horganization⟩ := exists_of_execWithin hreplay
  obtain ⟨hdefault, -⟩ := run_one_default Auth.plainEnv ⟨rfl, rfl⟩ hrun
  obtain ⟨project, hone, hreturns⟩ := hdefault _ horganization
  exact ⟨db, hrun, project, hone, hreturns manager rfl⟩

/-- A manager who marks a second project as the default one takes the default project away
from everybody. -/
theorem second_default_raises : ∃ db, Run (step Auth.plainEnv) anyStep {} db ∧ ¬ OneDefault db ∧
    (getDefaultProject manager 1).Raises db
      (.runtimeError "Multiple rows were found when one or none was required") := by
  have hreplay : ((exec (step Auth.plainEnv) {}
      [firstSignup, payments true]).any fun db => decide ((defaultProjects db 1).length = 2 ∧
        { id := 1, name := "B", slug := "b" } ∈ db.organizations)) = true := by decide +kernel
  obtain ⟨db, hexec, hmany, horganization⟩ := exists_of_exec hreplay
  refine ⟨db, run_of_exec hexec, ?_, ?_⟩
  · intro hone
    obtain ⟨project, hproject⟩ := hone _ horganization
    rw [hproject] at hmany
    cases hmany
  · obtain ⟨first, second, hrows⟩ := List.length_eq_two.mp hmany
    refine Service.bind_raises.mpr (.inr ⟨(), db, rfl, ?_⟩)
    refine Service.bind_raises.mpr (.inr ⟨_, db, rfl, ?_⟩)
    dsimp only
    rw [hrows]
    exact Service.bind_raises.mpr (.inl rfl)

end Ekip.Core.Tenancy.DefaultProject
