/-
# Arac.Admin.Service -- listing users, granting attributes, assigning roles

`AdminService`.  Listing goes through the scopes of the caller's grants and a query
filter; the other operations go through `can` with a target.  `grantAttributes`
asks for the permission over the target's present scope and over the new one,
`assignRole` and `removeRole` over the scope of the assignment.
-/
import Arac.Rbac.Service
import Arac.Services.Token

namespace Arac.Admin

open Arac.Theory Arac.Sessions Arac.Db Arac.Service Arac.Rbac

set_option autoImplicit false

structure AdminRoleAssignment where
  role : String
  scopeTenant : Option String
  scopeDepartment : Option String
  deriving DecidableEq

structure AdminUserView where
  id : String
  email : String
  name : String
  tenant : String
  department : String
  clearance : Int
  level : Int
  status : UserStatus
  roles : List AdminRoleAssignment
  departments : List (String × DeptRank)
  compartments : List String
  deriving DecidableEq

structure RoleView where
  name : String
  description : String
  deriving DecidableEq

structure GrantInput where
  tenant : Option String
  department : Option String
  clearance : Option Int
  level : Option Int
  deriving DecidableEq

structure RoleAssignmentInput where
  roleName : String
  scopeTenant : Option String
  scopeDepartment : Option String
  deriving DecidableEq

/-- A user row with its selected relations. -/
def toView (t : Tables) (u : User) : AdminUserView :=
  { id := u.id
    email := u.email
    name := u.name
    tenant := u.tenant
    department := u.department
    clearance := u.clearance
    level := u.level
    status := u.status
    roles := (t.assignmentsOf u.id).filterMap fun a => (t.roleById a.roleId).map fun r =>
      { role := r.name, scopeTenant := a.scopeTenant, scopeDepartment := a.scopeDepartment }
    departments := (t.membershipsOf u.id).map fun m => (m.department.slug, m.rank)
    compartments := (t.compartmentsOf u.id).map Compartment.key }

/-- One arm of the filter; an absent field is no condition. -/
structure UserFilter where
  tenant : Option String
  department : Option String
  deriving DecidableEq

def UserFilter.admits (f : UserFilter) (u : User) : Bool :=
  f.tenant.all (· = u.tenant) && f.department.all (· = u.department)

/-- The filter of the caller's scopes; `none` is no filter. -/
def scopeWhere (scopes : List Scope) : Option (List UserFilter) :=
  if scopes.any fun s => s.tenant = none && s.department = none then none
  else some (scopes.map fun s => { tenant := s.tenant, department := s.department })

/-- `user.findMany` with the filter, oldest first. -/
def findUsers (t : Tables) (where_ : Option (List UserFilter)) : List User :=
  (t.users.filter fun u => where_.all fun arms => arms.any fun f => f.admits u).mergeSort
    fun a b => a.createdAt ≤ b.createdAt

section

variable {σ : Type} (S : SessionStore σ) (env : Env)

def callerId (accessToken : String) : Service σ String := do
  let verified ← authenticate env accessToken
  return verified.sub

/-- The caller holds the permission over the scope. -/
def requireScope (permission callerId : String) (scope : Scope) : Service σ Unit := do
  if ← can callerId permission (some scope) then return
  else Prog.fail (.forbidden "Not permitted for that scope")

def requireGrantScope (callerId tenant department : String) : Service σ Unit :=
  requireScope USERS_GRANT callerId ⟨some tenant, some department⟩

def requireAssignScope (callerId : String) (tenant department : Option String) : Service σ Unit :=
  requireScope USERS_ASSIGN_ROLE callerId ⟨tenant, department⟩

def view (targetId : String) : Service σ AdminUserView := do
  match ← query fun t => (t.userById targetId).map (toView t) with
  | none => Prog.fail (.prisma .recordNotFound)
  | some view => return view

/-- Users the caller may see, filtered to the scopes of `users:read`. -/
def listUsers (accessToken : String) : Service σ (List AdminUserView) := do
  let callerId ← callerId env accessToken
  let scopes ← scopesFor callerId USERS_READ
  if scopes.length = 0 then Prog.fail (.forbidden "Not permitted")
  else query fun t => (findUsers t (scopeWhere scopes)).map (toView t)

/-- Roles available to assign. -/
def listRoles (accessToken : String) : Service σ (List RoleView) := do
  let callerId ← callerId env accessToken
  if ← can callerId USERS_ASSIGN_ROLE none then
    query fun t => (t.roles.mergeSort fun a b => env.collate a.name b.name).map fun r =>
      { name := r.name, description := r.description }
  else Prog.fail (.forbidden "Not permitted")

/-- Set a user's ABAC attributes. -/
def grantAttributes (accessToken targetId : String) (input : GrantInput) :
    Service σ AdminUserView := do
  let callerId ← callerId env accessToken
  match ← query (·.userById targetId) with
  | none => Prog.fail (.notFound "User not found")
  | some target =>
      let tenant := input.tenant.getD target.tenant
      let department := input.department.getD target.department
      let clearance := input.clearance.getD target.clearance
      let level := input.level.getD target.level
      requireGrantScope callerId target.tenant target.department
      requireGrantScope callerId tenant department
      commit (·.userUpdate targetId { tenant, department, clearance, level })
      revokeUser S targetId
      view targetId

/-- Assign a (scoped) role to a user. -/
def assignRole (draws : Draws) (accessToken targetId : String) (input : RoleAssignmentInput) :
    Service σ AdminUserView := do
  let callerId ← callerId env accessToken
  requireAssignScope callerId input.scopeTenant input.scopeDepartment
  match ← query (·.userById targetId) with
  | none => Prog.fail (.notFound "User not found")
  | some _ =>
      match ← query (·.roleByName input.roleName) with
      | none => Prog.fail (.notFound "Role not found")
      | some role =>
          let existing ← query
            (·.findAssignment targetId role.id input.scopeTenant input.scopeDepartment)
          if existing = none then
            commit (·.userRoleCreate
              { id := draws.id.value
                userId := targetId
                roleId := role.id
                scopeTenant := input.scopeTenant
                scopeDepartment := input.scopeDepartment })
          revokeUser S targetId
          view targetId

/-- Remove a (scoped) role from a user. -/
def removeRole (accessToken targetId : String) (input : RoleAssignmentInput) :
    Service σ AdminUserView := do
  let callerId ← callerId env accessToken
  requireAssignScope callerId input.scopeTenant input.scopeDepartment
  match ← query (·.roleByName input.roleName) with
  | none => Prog.fail (.notFound "Role not found")
  | some role =>
      commit fun db =>
        .ok (db.userRoleDeleteMany targetId role.id input.scopeTenant input.scopeDepartment)
      revokeUser S targetId
      view targetId

end

end Arac.Admin
