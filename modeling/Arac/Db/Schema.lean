/-
# Arac.Db.Schema -- the tables of the auth database

Row types and constraints of `schema.prisma`.  `Tables` is a bare collection of
rows, each table in the order in which a scan returns it; `Database` carries the proof
that the declared constraints hold, so a state that breaks a key or a reference
cannot be built.

The `updatedAt` column, which nothing reads, is left out.  A `cuid()` is never the
empty string, which is what the services' truthiness tests on `parentId` rest on.
-/
import Mathlib.Data.List.Nodup

namespace Arac.Db

set_option autoImplicit false

/-- A generated row id (`cuid()`). -/
structure Cuid where
  value : String
  nonempty : value ≠ ""
  deriving DecidableEq

inductive UserStatus where
  | active
  | disabled
  deriving DecidableEq

/-- The in-department ladder, least senior first. -/
inductive DeptRank where
  | ic
  | lead
  | manager
  | seniorManager
  | director
  | vp
  deriving DecidableEq

structure User where
  id : String
  /-- Stored trimmed and lowercased. -/
  email : String
  name : String
  passwordHash : String
  tenant : String
  department : String
  clearance : Int
  level : Int
  status : UserStatus
  createdAt : Nat
  deriving DecidableEq

structure Department where
  id : String
  tenant : String
  slug : String
  name : String
  parentId : Option String
  deriving DecidableEq

structure UserDepartment where
  userId : String
  departmentId : String
  rank : DeptRank
  deriving DecidableEq

structure Compartment where
  id : String
  tenant : String
  key : String
  name : String
  deriving DecidableEq

structure UserCompartment where
  userId : String
  compartmentId : String
  deriving DecidableEq

structure Permission where
  id : String
  key : String
  description : String
  /-- The level a user needs before any grant of the permission counts. -/
  minLevel : Int
  deriving DecidableEq

structure Role where
  id : String
  name : String
  description : String
  parentId : Option String
  deriving DecidableEq

structure RolePermission where
  roleId : String
  permissionId : String
  deriving DecidableEq

/-- An assignment of a role; a null scope field means all. -/
structure UserRole where
  id : String
  userId : String
  roleId : String
  scopeTenant : Option String
  scopeDepartment : Option String
  deriving DecidableEq

/-- The columns of the unique index of `UserRole`.  Rows with a null column are
distinct from every row, so they have no key. -/
def UserRole.uniqueKey (a : UserRole) : Option (String × String × String × String) :=
  match a.scopeTenant, a.scopeDepartment with
  | some tenant, some department => some (a.userId, a.roleId, tenant, department)
  | _, _ => none

structure Tables where
  users : List User
  departments : List Department
  userDepartments : List UserDepartment
  compartments : List Compartment
  userCompartments : List UserCompartment
  permissions : List Permission
  roles : List Role
  rolePermissions : List RolePermission
  userRoles : List UserRole

namespace Tables

def userIds (t : Tables) : List String := t.users.map User.id
def departmentIds (t : Tables) : List String := t.departments.map Department.id
def compartmentIds (t : Tables) : List String := t.compartments.map Compartment.id
def roleIds (t : Tables) : List String := t.roles.map Role.id

/-- The constraints of the schema.  `department_cuid` and `role_cuid` are none of them: an id is
never empty because every row is created with the default of its column, `cuid()`. -/
structure Valid (t : Tables) : Prop where
  user_id : t.userIds.Nodup
  user_email : (t.users.map User.email).Nodup
  department_id : t.departmentIds.Nodup
  department_cuid : "" ∉ t.departmentIds
  department_slug : (t.departments.map fun d => (d.tenant, d.slug)).Nodup
  department_parent : ∀ d ∈ t.departments, ∀ p ∈ d.parentId, p ∈ t.departmentIds
  userDepartment_id : (t.userDepartments.map fun m => (m.userId, m.departmentId)).Nodup
  userDepartment_user : ∀ m ∈ t.userDepartments, m.userId ∈ t.userIds
  userDepartment_department : ∀ m ∈ t.userDepartments, m.departmentId ∈ t.departmentIds
  compartment_id : t.compartmentIds.Nodup
  compartment_key : (t.compartments.map fun c => (c.tenant, c.key)).Nodup
  userCompartment_id : (t.userCompartments.map fun c => (c.userId, c.compartmentId)).Nodup
  userCompartment_user : ∀ c ∈ t.userCompartments, c.userId ∈ t.userIds
  userCompartment_compartment : ∀ c ∈ t.userCompartments, c.compartmentId ∈ t.compartmentIds
  permission_id : (t.permissions.map Permission.id).Nodup
  permission_key : (t.permissions.map Permission.key).Nodup
  role_id : t.roleIds.Nodup
  role_cuid : "" ∉ t.roleIds
  role_name : (t.roles.map Role.name).Nodup
  role_parent : ∀ r ∈ t.roles, ∀ p ∈ r.parentId, p ∈ t.roleIds
  rolePermission_id : (t.rolePermissions.map fun rp => (rp.roleId, rp.permissionId)).Nodup
  rolePermission_role : ∀ rp ∈ t.rolePermissions, rp.roleId ∈ t.roleIds
  rolePermission_permission : ∀ rp ∈ t.rolePermissions,
    rp.permissionId ∈ t.permissions.map Permission.id
  userRole_id : (t.userRoles.map UserRole.id).Nodup
  userRole_unique : (t.userRoles.filterMap UserRole.uniqueKey).Nodup
  userRole_user : ∀ a ∈ t.userRoles, a.userId ∈ t.userIds
  userRole_role : ∀ a ∈ t.userRoles, a.roleId ∈ t.roleIds

/-- The same rows in another order. -/
structure Reordered (t t' : Tables) : Prop where
  users : t.users.Perm t'.users
  departments : t.departments.Perm t'.departments
  userDepartments : t.userDepartments.Perm t'.userDepartments
  compartments : t.compartments.Perm t'.compartments
  userCompartments : t.userCompartments.Perm t'.userCompartments
  permissions : t.permissions.Perm t'.permissions
  roles : t.roles.Perm t'.roles
  rolePermissions : t.rolePermissions.Perm t'.rolePermissions
  userRoles : t.userRoles.Perm t'.userRoles

/-- The role `child` names `parent` as its parent. -/
def RoleParent (t : Tables) (child parent : String) : Prop :=
  ∃ r ∈ t.roles, r.id = child ∧ r.parentId = some parent

/-- The department `child` of the tenant names `parent` as its parent. -/
def DepartmentParent (t : Tables) (tenant child parent : String) : Prop :=
  ∃ d ∈ t.departments, d.tenant = tenant ∧ d.id = child ∧ d.parentId = some parent

end Tables

/-- A database state that satisfies the schema, with ids from its defaults. -/
structure Database extends Tables where
  valid : toTables.Valid

namespace Database

/-- Rows are determined by their ids. -/
theorem user_eq {db : Database} {u v : User} (u_row : u ∈ db.users) (v_row : v ∈ db.users)
    (same : u.id = v.id) : u = v := List.inj_on_of_nodup_map db.valid.user_id u_row v_row same

theorem department_eq {db : Database} {d e : Department} (d_row : d ∈ db.departments)
    (e_row : e ∈ db.departments) (same : d.id = e.id) : d = e :=
  List.inj_on_of_nodup_map db.valid.department_id d_row e_row same

theorem role_eq {db : Database} {r s : Role} (r_row : r ∈ db.roles) (s_row : s ∈ db.roles)
    (same : r.id = s.id) : r = s := List.inj_on_of_nodup_map db.valid.role_id r_row s_row same

theorem permission_eq_of_key {db : Database} {p q : Permission} (p_row : p ∈ db.permissions)
    (q_row : q ∈ db.permissions) (same : p.key = q.key) : p = q :=
  List.inj_on_of_nodup_map db.valid.permission_key p_row q_row same

end Database

end Arac.Db
