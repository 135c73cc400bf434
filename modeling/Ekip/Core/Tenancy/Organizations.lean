import Ekip.Core.Knowledge.Repository
import Ekip.Core.Tenancy.Provisioning

/-!
# Organizations and their projects

The part of `core/tenancy` that creates organizations and projects. The tenant context
and the audit rows are not part of this model.
-/
namespace Ekip.Core.Tenancy

open Ekip.Lib Ekip.Database Ekip.Shared Ekip.Core

/-! ## Repository -/

def insertOrganization (row : Organization) : ServiceM Organization := do
  let organizations ← Service.read Db.organizations
  Service.raiseIf (organizations.any fun other => other.id = row.id ∨ other.slug = row.slug)
    (.integrityError "organizations")
  Service.write fun db => { db with organizations := db.organizations ++ [row] }
  pure row

/-- The foreign key, the primary key and `uq_projects_org_name`. -/
def insertProject (row : Project) : ServiceM Project := do
  let organizations ← Service.read Db.organizations
  Service.raiseIf (organizations.all fun organization => organization.id ≠ row.organizationId)
    (.integrityError "projects_organization_id_fkey")
  let projects ← Service.read Db.projects
  Service.raiseIf (projects.any fun other => other.id = row.id ∨
      (other.organizationId = row.organizationId ∧ other.name = row.name))
    (.integrityError "uq_projects_org_name")
  Service.write fun db => { db with projects := db.projects ++ [row] }
  pure row

def isDefaultOf (organizationId : Uuid) (project : Project) : Bool :=
  project.organizationId = organizationId ∧ project.isDefault

def defaultProjects (db : Db) (organizationId : Uuid) : List Project :=
  db.projects.filter (isDefaultOf organizationId)

/-! ## Service -/

structure OrganizationCreate where
  name : String
  slug : String

structure ProjectCreate where
  name : String
  isDefault : Bool := false

/-- Whoever has an identity must be allowed to. -/
def requireManager : Option Identity → ServiceM Unit
  | some actor => Users.requirePermission actor managePermission
  | none => pure ()

/-- `id` and `projectId` are drawn by the database for the two rows. -/
def createOrganization (id projectId : Uuid) (data : OrganizationCreate)
    (actor : Option Identity := none) : ServiceM Organization := do
  requireManager actor
  let existing ← Service.read fun db => getOrganizationBySlug db data.slug
  Service.raiseIf existing.isSome
    (conflict "An organization with this slug already exists." "organization.slug_taken"
      [("slug", data.slug)])
  let orgRow ← insertOrganization { id, name := data.name, slug := data.slug }
  let _ ← insertProject
    { id := projectId, organizationId := orgRow.id, name := "General", isDefault := true }
  pure orgRow

def getDefaultProject (actor : Identity) (organizationId : Uuid) : ServiceM Project := do
  ensureSameOrganization actor organizationId
  let rows ← Service.read fun db => defaultProjects db organizationId
  let row ← Service.ofExcept (Knowledge.Repository.scalarOneOrNone rows)
  Service.orRaise row
    (notFound "This organization has no default project." "project.default_missing"
      [("organization_id", toString organizationId)])

def createProject (id : Uuid) (actor : Identity) (organizationId : Uuid) (data : ProjectCreate) :
    ServiceM Project := do
  ensureSameOrganization actor organizationId
  Users.requirePermission actor managePermission
  insertProject { id, organizationId, name := data.name, isDefault := data.isDefault }

/-! ## What the operations return -/

variable {db db' : Db}

/-- What the constraints ask of a new row. -/
def Insertable (db : Db) (row : Project) : Prop :=
  (∃ organization ∈ db.organizations, organization.id = row.organizationId) ∧
    ∀ other ∈ db.projects, other.id ≠ row.id ∧
      ¬ (other.organizationId = row.organizationId ∧ other.name = row.name)

instance (db : Db) (row : Project) : Decidable (Insertable db row) :=
  inferInstanceAs (Decidable (_ ∧ _))

theorem insertProject_returns {row project : Project} :
    (insertProject row).Returns db project db' ↔
      Insertable db row ∧ project = row ∧ db' = { db with projects := db.projects ++ [row] } := by
  simp only [insertProject, Service.bind_returns, Service.read_returns, Service.raiseIf_returns,
    Service.write_returns, Service.pure_returns]
  constructor
  · rintro ⟨_, _, ⟨rfl, rfl⟩, _, _, ⟨horganization, rfl⟩, _, _, ⟨rfl, rfl⟩, _, _, ⟨hfree, rfl⟩,
      _, _, rfl, rfl, rfl⟩
    refine ⟨⟨?_, ?_⟩, rfl, rfl⟩
    · simpa using horganization
    · intro other hother
      simpa [not_or] using List.any_eq_false.mp hfree other hother
  · rintro ⟨⟨hexists, hfree⟩, rfl, rfl⟩
    refine ⟨_, _, ⟨rfl, rfl⟩, (), _, ⟨?_, rfl⟩, _, _, ⟨rfl, rfl⟩, (), _, ⟨?_, rfl⟩, (), _, rfl,
      rfl, rfl⟩
    · simpa using hexists
    · rw [List.any_eq_false]
      intro other hother
      simpa [not_or] using hfree other hother

theorem createProject_returns {id organizationId : Uuid} {actor : Identity} {data : ProjectCreate}
    {project : Project} :
    (createProject id actor organizationId data).Returns db project db' ↔
      actor.organizationId = organizationId ∧ actor.hasPermission managePermission none = true ∧
        Insertable db { id, organizationId, name := data.name, isDefault := data.isDefault } ∧
        project = { id, organizationId, name := data.name, isDefault := data.isDefault } ∧
        db' = { db with projects := db.projects ++ [project] } := by
  simp only [createProject, ensureSameOrganization, Users.requirePermission, Users.authorize,
    Service.bind_returns, Service.raiseIf_returns, insertProject_returns]
  constructor
  · rintro ⟨_, _, ⟨hsame, rfl⟩, _, _, ⟨hallowed, rfl⟩, hinsertable, rfl, rfl⟩
    exact ⟨by simpa using hsame, by simpa using hallowed, hinsertable, rfl, rfl⟩
  · rintro ⟨hsame, hallowed, hinsertable, rfl, rfl⟩
    exact ⟨(), _, ⟨by simpa using hsame, rfl⟩, (), _, ⟨by simpa using hallowed, rfl⟩, hinsertable,
      rfl, rfl⟩

theorem createOrganization_returns {id projectId : Uuid} {data : OrganizationCreate}
    {actor : Option Identity} {organization : Organization}
    (h : (createOrganization id projectId data actor).Returns db organization db') :
    organization = { id, name := data.name, slug := data.slug } ∧
      (∀ other ∈ db.organizations, other.id ≠ id) ∧
      db' = { db with
        organizations := db.organizations ++ [organization]
        projects := db.projects ++
          [{ id := projectId, organizationId := id, name := "General", isDefault := true }] } := by
  have hmanager {t : Db} {u : Unit} (hm : (requireManager actor).Returns db u t) : db = t := by
    cases actor with
    | none => exact (Service.pure_returns.mp hm).2
    | some actor => exact (Service.raiseIf_returns.mp hm).2
  simp only [createOrganization, Service.bind_returns, Service.read_returns,
    Service.raiseIf_returns, insertOrganization, Service.write_returns, Service.pure_returns,
    insertProject_returns] at h
  obtain ⟨_, _, hm, _, _, ⟨rfl, rfl⟩, _, _, ⟨-, rfl⟩, _, _, ⟨_, _, ⟨rfl, rfl⟩, _, _, ⟨hfree, rfl⟩,
    _, _, rfl, rfl, rfl⟩, _, _, ⟨-, rfl, rfl⟩, rfl, rfl⟩ := h
  obtain rfl := hmanager hm
  refine ⟨rfl, ?_, rfl⟩
  intro other hother hid
  have := List.any_eq_false.mp hfree other hother
  simp [hid] at this

theorem getDefaultProject_returns {actor : Identity} {organizationId : Uuid} {project : Project} :
    (getDefaultProject actor organizationId).Returns db project db' ↔
      actor.organizationId = organizationId ∧ defaultProjects db organizationId = [project] ∧
        db = db' := by
  simp only [getDefaultProject, ensureSameOrganization, Service.bind_returns, Service.read_returns,
    Service.raiseIf_returns, Service.ofExcept_returns, Service.orRaise_returns]
  constructor
  · rintro ⟨_, _, ⟨hsame, rfl⟩, _, _, ⟨rfl, rfl⟩, _, _, ⟨hone, rfl⟩, rfl, rfl⟩
    exact ⟨by simpa using hsame, Knowledge.Repository.scalarOneOrNone_some.mp hone, rfl⟩
  · rintro ⟨hsame, hone, rfl⟩
    have hscalar := Knowledge.Repository.scalarOneOrNone_some.mpr hone
    exact ⟨(), _, ⟨by simpa using hsame, rfl⟩, _, _, ⟨rfl, rfl⟩, some project, _, ⟨hscalar, rfl⟩,
      rfl, rfl⟩

end Ekip.Core.Tenancy
