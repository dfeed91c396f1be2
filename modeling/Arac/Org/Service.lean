/-
# Arac.Org.Service -- managing departments, compartments and memberships

`OrgService`.  Every operation starts with `require`: a valid access token whose
subject holds the permission somewhere, whatever its scope.  A change of a user's
memberships or compartments replaces the whole set in one transaction and then
revokes the user's sessions.
-/
import Arac.Org.Claims
import Arac.Rbac.Service
import Arac.Services.Token

namespace Arac.Org

open Arac.Theory Arac.Sessions Arac.Db Arac.Service Arac.Rbac

set_option autoImplicit false

structure DepartmentView where
  id : String
  slug : String
  name : String
  parentSlug : Option String
  deriving DecidableEq

structure CompartmentView where
  key : String
  name : String
  deriving DecidableEq

structure CreateDepartmentInput where
  slug : String
  name : String
  parentSlug : Option String

structure CreateCompartmentInput where
  key : String
  name : String

structure MembershipInput where
  slug : String
  rank : Option DeptRank

def departmentView (t : Tables) (d : Department) : DepartmentView :=
  { id := d.id
    slug := d.slug
    name := d.name
    parentSlug := (d.parentId.bind t.departmentById).map Department.slug }

section

variable {σ : Type} (S : SessionStore σ) (env : Env)

/-- The subject of a valid token that holds the permission in some scope. -/
def require (accessToken permission : String) : Service σ String := do
  let verified ← authenticate env accessToken
  if ← can verified.sub permission none then return verified.sub
  else Prog.fail (.forbidden "Not permitted")

def listDepartments (accessToken : String) : Service σ (List DepartmentView) := do
  let _ ← require env accessToken USERS_READ
  query fun t => ((t.departmentsOf TENANT).mergeSort fun a b => env.collate a.slug b.slug).map
    (departmentView t)

def listCompartments (accessToken : String) : Service σ (List CompartmentView) := do
  let _ ← require env accessToken USERS_READ
  query fun t => ((t.compartments.filter fun c => c.tenant = TENANT).mergeSort
    fun a b => env.collate a.key b.key).map fun c => { key := c.key, name := c.name }

/-- The id under which the new department is placed. -/
def resolveParent (parentSlug : Option String) : Service σ (Option String) :=
  match truthy parentSlug with
  | none => pure none
  | some parentSlug => do
      match ← query (·.departmentBySlug TENANT parentSlug) with
      | none => Prog.fail (.notFound "Parent department not found")
      | some parent => return some parent.id

def createDepartment (draws : Draws) (accessToken : String) (input : CreateDepartmentInput) :
    Service σ DepartmentView := do
  let _ ← require env accessToken ORG_MANAGE
  let parentId ← resolveParent input.parentSlug
  let row : Department :=
    { id := draws.id.value, tenant := TENANT, slug := trim input.slug, name := trim input.name,
      parentId }
  match ← writeSelect (·.departmentCreate draws.id row.tenant row.slug row.name row.parentId)
    (departmentView · row) with
  | .ok view => return view
  | .error e =>
      if e.code = "P2002" then
        Prog.fail (.conflict "A department with that slug already exists")
      else Prog.fail (.prisma e)

def createCompartment (draws : Draws) (accessToken : String) (input : CreateCompartmentInput) :
    Service σ CompartmentView := do
  let _ ← require env accessToken ORG_MANAGE
  match ← write (·.compartmentCreate draws.id TENANT (trim input.key) (trim input.name)) with
  | .ok () => return { key := trim input.key, name := trim input.name }
  | .error e =>
      if e.code = "P2002" then
        Prog.fail (.conflict "A compartment with that key already exists")
      else Prog.fail (.prisma e)

/-- Replace a user's department memberships with the given set. -/
def setUserMemberships (accessToken userId : String) (memberships : List MembershipInput) :
    Service σ Unit := do
  let _ ← require env accessToken ORG_MANAGE
  match ← query (·.userById userId) with
  | none => Prog.fail (.notFound "User not found")
  | some _ =>
      let slugs := memberships.map MembershipInput.slug
      let depts ← query (·.departmentsIn TENANT slugs)
      if depts.length ≠ (OrderedSet.empty.addAll slugs).toList.length then
        Prog.fail (.notFound "One or more departments not found")
      else
        let bySlug := lookupTable Department.slug Department.id depts
        match memberships.mapM fun m => (bySlug m.slug).map fun id => (id, m.rank.getD .ic) with
        | none => Prog.fail .prismaValidation
        | some rows =>
            commit (·.setUserDepartments userId rows)
            revokeUser S userId

/-- Replace a user's compartments with the given set of keys. -/
def setUserCompartments (accessToken userId : String) (keys : List String) : Service σ Unit := do
  let _ ← require env accessToken ORG_MANAGE
  match ← query (·.userById userId) with
  | none => Prog.fail (.notFound "User not found")
  | some _ =>
      let comps ← query (·.compartmentsIn TENANT keys)
      if comps.length ≠ (OrderedSet.empty.addAll keys).toList.length then
        Prog.fail (.notFound "One or more compartments not found")
      else
        commit (·.setUserCompartments userId (comps.map Compartment.id))
        revokeUser S userId

end

end Arac.Org
