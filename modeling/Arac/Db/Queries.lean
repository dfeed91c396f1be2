/-
# Arac.Db.Queries -- the reads of the services

One definition for each shape of query.  A scan returns rows in table order, a
unique lookup is a `find?`, and a `select` through a relation joins on the id.  A
reference always resolves, so a join never loses a row; the `mem_` lemmas say in
terms of the tables what each query returns.
-/
import Arac.Db.Schema
import Arac.Theory.LookupTable

namespace Arac.Db

open Arac.Theory

set_option autoImplicit false

/-- A nullable id that passes a truthiness test. -/
def truthy (id : Option String) : Option String := id.filter (· ≠ "")

/-- A membership with its department. -/
structure Membership where
  rank : DeptRank
  department : Department
  deriving DecidableEq

/-- A role row with the permissions it carries itself. -/
structure RoleRow extends Role where
  permissions : List Permission
  deriving DecidableEq

namespace Tables

section

variable (t : Tables)

def userById (id : String) : Option User := t.users.find? fun u => u.id = id

def userByEmail (email : String) : Option User := t.users.find? fun u => u.email = email

def activeUserById (id : String) : Option User :=
  t.users.find? fun u => u.id = id ∧ u.status = .active

def activeUserByEmail (email : String) : Option User :=
  t.users.find? fun u => u.email = email ∧ u.status = .active

def departmentById (id : String) : Option Department := t.departments.find? fun d => d.id = id

def departmentBySlug (tenant slug : String) : Option Department :=
  t.departments.find? fun d => d.tenant = tenant ∧ d.slug = slug

def departmentsOf (tenant : String) : List Department :=
  t.departments.filter fun d => d.tenant = tenant

def departmentsIn (tenant : String) (slugs : List String) : List Department :=
  t.departments.filter fun d => d.tenant = tenant ∧ d.slug ∈ slugs

def compartmentById (id : String) : Option Compartment :=
  t.compartments.find? fun c => c.id = id

def compartmentsIn (tenant : String) (keys : List String) : List Compartment :=
  t.compartments.filter fun c => c.tenant = tenant ∧ c.key ∈ keys

def permissionById (id : String) : Option Permission := t.permissions.find? fun p => p.id = id

def roleById (id : String) : Option Role := t.roles.find? fun r => r.id = id

def roleByName (name : String) : Option Role := t.roles.find? fun r => r.name = name

def membershipsOf (userId : String) : List Membership :=
  (t.userDepartments.filter fun m => m.userId = userId).filterMap fun m =>
    (t.departmentById m.departmentId).map fun department => { rank := m.rank, department }

def compartmentsOf (userId : String) : List Compartment :=
  (t.userCompartments.filter fun c => c.userId = userId).filterMap fun c =>
    t.compartmentById c.compartmentId

def permissionsOf (roleId : String) : List Permission :=
  (t.rolePermissions.filter fun rp => rp.roleId = roleId).filterMap fun rp =>
    t.permissionById rp.permissionId

/-- `role.findMany` with its permissions included. -/
def rolesWithPermissions : List RoleRow :=
  t.roles.map fun r => { r with permissions := t.permissionsOf r.id }

def assignmentsOf (userId : String) : List UserRole :=
  t.userRoles.filter fun a => a.userId = userId

/-- The first row with exactly these columns. -/
def findAssignment (userId roleId : String) (scopeTenant scopeDepartment : Option String) :
    Option UserRole :=
  t.userRoles.find? fun a => a.userId = userId ∧ a.roleId = roleId ∧
    a.scopeTenant = scopeTenant ∧ a.scopeDepartment = scopeDepartment

end

section

variable {t : Tables}

theorem mem_departmentsOf {tenant : String} {d : Department} :
    d ∈ t.departmentsOf tenant ↔ d ∈ t.departments ∧ d.tenant = tenant := by
  simp [departmentsOf]

theorem mem_assignmentsOf {userId : String} {a : UserRole} :
    a ∈ t.assignmentsOf userId ↔ a ∈ t.userRoles ∧ a.userId = userId := by
  simp [assignmentsOf]

end

end Tables

namespace Database

variable {db : Database}

theorem userById_eq_some {id : String} {u : User} :
    db.userById id = some u ↔ u ∈ db.users ∧ u.id = id :=
  find?_key_eq_some db.valid.user_id fun _ => decide_eq_true_iff

theorem userByEmail_eq_some {email : String} {u : User} :
    db.userByEmail email = some u ↔ u ∈ db.users ∧ u.email = email :=
  find?_key_eq_some db.valid.user_email fun _ => decide_eq_true_iff

/-- The email is a key among all users, active or not. -/
theorem activeUserByEmail_eq_some {email : String} {u : User} :
    db.activeUserByEmail email = some u ↔ u ∈ db.users ∧ u.email = email ∧ u.status = .active :=
  find?_keyed_eq_some db.valid.user_email fun _ => decide_eq_true_iff

theorem departmentById_eq_some {id : String} {d : Department} :
    db.departmentById id = some d ↔ d ∈ db.departments ∧ d.id = id :=
  find?_key_eq_some db.valid.department_id fun _ => decide_eq_true_iff

theorem departmentBySlug_eq_some {tenant slug : String} {d : Department} :
    db.departmentBySlug tenant slug = some d ↔
      d ∈ db.departments ∧ d.tenant = tenant ∧ d.slug = slug := by
  rw [Tables.departmentBySlug, find?_key_eq_some (k := (tenant, slug)) db.valid.department_slug
    fun row => by simp, Prod.mk.injEq]

/-- Rows with a two-part key, all with the same first part, have the second as a key. -/
theorem nodup_map_snd {ρ κ : Type} {f g : ρ → κ} {rows : List ρ} {p : ρ → Bool} {k : κ}
    (nodup : (rows.map fun r => (f r, g r)).Nodup) (fixed : ∀ r ∈ rows.filter p, f r = k) :
    ((rows.filter p).map g).Nodup := by
  have kept := (List.filter_sublist (p := p).map fun r => (f r, g r)).nodup nodup
  have pairs : (rows.filter p).map (fun r => (f r, g r)) =
      ((rows.filter p).map g).map (Prod.mk k) := by
    rw [List.map_map]
    refine List.map_congr_left fun r member => ?_
    simp only [Function.comp, fixed r member]
  rw [pairs] at kept
  exact kept.of_map

theorem mem_departmentsIn {tenant : String} {slugs : List String} {d : Department} :
    d ∈ db.departmentsIn tenant slugs ↔ d ∈ db.departments ∧ d.tenant = tenant ∧ d.slug ∈ slugs := by
  simp [Tables.departmentsIn]

theorem mem_compartmentsIn {tenant : String} {keys : List String} {c : Compartment} :
    c ∈ db.compartmentsIn tenant keys ↔ c ∈ db.compartments ∧ c.tenant = tenant ∧ c.key ∈ keys := by
  simp [Tables.compartmentsIn]

theorem departmentsIn_slugs (tenant : String) (slugs : List String) :
    ((db.departmentsIn tenant slugs).map Department.slug).Nodup :=
  nodup_map_snd db.valid.department_slug fun _ member => (mem_departmentsIn.mp member).2.1

theorem compartmentsIn_keys (tenant : String) (keys : List String) :
    ((db.compartmentsIn tenant keys).map Compartment.key).Nodup :=
  nodup_map_snd db.valid.compartment_key fun _ member => (mem_compartmentsIn.mp member).2.1

/-- The ids of the departments with some slugs, indexed by slug. -/
theorem departmentsIn_lookup {tenant : String} {slugs : List String} {slug id : String} :
    lookupTable Department.slug Department.id (db.departmentsIn tenant slugs) slug = some id ↔
      slug ∈ slugs ∧ ∃ d ∈ db.departments, d.tenant = tenant ∧ d.slug = slug ∧ d.id = id := by
  have agree : ∀ a ∈ db.departmentsIn tenant slugs, ∀ b ∈ db.departmentsIn tenant slugs,
      a.slug = b.slug → a.id = b.id := by
    intro a member b member' same
    exact congrArg Department.id
      (List.inj_on_of_nodup_map (departmentsIn_slugs tenant slugs) member member' same)
  rw [lookupTable_eq_some agree]
  constructor
  · rintro ⟨d, member, rfl, rfl⟩
    obtain ⟨d_row, here, listed⟩ := mem_departmentsIn.mp member
    exact ⟨listed, d, d_row, here, rfl, rfl⟩
  · rintro ⟨listed, d, d_row, here, rfl, rfl⟩
    exact ⟨d, mem_departmentsIn.mpr ⟨d_row, here, listed⟩, rfl, rfl⟩

theorem compartmentById_eq_some {id : String} {c : Compartment} :
    db.compartmentById id = some c ↔ c ∈ db.compartments ∧ c.id = id :=
  find?_key_eq_some db.valid.compartment_id fun _ => decide_eq_true_iff

theorem permissionById_eq_some {id : String} {p : Permission} :
    db.permissionById id = some p ↔ p ∈ db.permissions ∧ p.id = id :=
  find?_key_eq_some db.valid.permission_id fun _ => decide_eq_true_iff

theorem roleById_eq_some {id : String} {r : Role} :
    db.roleById id = some r ↔ r ∈ db.roles ∧ r.id = id :=
  find?_key_eq_some db.valid.role_id fun _ => decide_eq_true_iff

theorem roleByName_eq_some {name : String} {r : Role} :
    db.roleByName name = some r ↔ r ∈ db.roles ∧ r.name = name :=
  find?_key_eq_some db.valid.role_name fun _ => decide_eq_true_iff

theorem mem_membershipsOf {userId : String} {m : Membership} :
    m ∈ db.membershipsOf userId ↔ m.department ∈ db.departments ∧
      (⟨userId, m.department.id, m.rank⟩ : UserDepartment) ∈ db.userDepartments := by
  simp only [Tables.membershipsOf, List.mem_filterMap, List.mem_filter, decide_eq_true_eq,
    Option.map_eq_some_iff, departmentById_eq_some]
  constructor
  · rintro ⟨row, ⟨member, rfl⟩, d, ⟨d_row, same⟩, rfl⟩
    exact ⟨d_row, by rw [same]; exact member⟩
  · rintro ⟨d_row, member⟩
    exact ⟨_, ⟨member, rfl⟩, m.department, ⟨d_row, rfl⟩, rfl⟩

theorem mem_compartmentsOf {userId : String} {c : Compartment} :
    c ∈ db.compartmentsOf userId ↔ c ∈ db.compartments ∧
      (⟨userId, c.id⟩ : UserCompartment) ∈ db.userCompartments := by
  simp only [Tables.compartmentsOf, List.mem_filterMap, List.mem_filter, decide_eq_true_eq,
    compartmentById_eq_some]
  constructor
  · rintro ⟨row, ⟨member, rfl⟩, c_row, same⟩
    exact ⟨c_row, by rw [same]; exact member⟩
  · rintro ⟨c_row, member⟩
    exact ⟨_, ⟨member, rfl⟩, c_row, rfl⟩

theorem mem_permissionsOf {roleId : String} {p : Permission} :
    p ∈ db.permissionsOf roleId ↔ p ∈ db.permissions ∧
      (⟨roleId, p.id⟩ : RolePermission) ∈ db.rolePermissions := by
  simp only [Tables.permissionsOf, List.mem_filterMap, List.mem_filter, decide_eq_true_eq,
    permissionById_eq_some]
  constructor
  · rintro ⟨row, ⟨member, rfl⟩, p_row, same⟩
    exact ⟨p_row, by rw [same]; exact member⟩
  · rintro ⟨p_row, member⟩
    exact ⟨_, ⟨member, rfl⟩, p_row, rfl⟩

theorem truthy_of_ne {id : Option String} (ne : ∀ s ∈ id, s ≠ "") : truthy id = id := by
  cases id with
  | none => rfl
  | some s => simp [truthy, ne s rfl]

/-- A stored parent id passes the truthiness test. -/
theorem truthy_role_parent {role : Role} (role_row : role ∈ db.roles) :
    truthy role.parentId = role.parentId :=
  truthy_of_ne fun _ parent same =>
    db.valid.role_cuid (same ▸ db.valid.role_parent role role_row _ parent)

theorem truthy_department_parent {d : Department} (d_row : d ∈ db.departments) :
    truthy d.parentId = d.parentId :=
  truthy_of_ne fun _ parent same =>
    db.valid.department_cuid (same ▸ db.valid.department_parent d d_row _ parent)

/-- The role rows, indexed by id. -/
theorem rolesWithPermissions_lookup {roleId : String} {row : RoleRow} :
    lookupTable (fun r : RoleRow => r.id) id db.rolesWithPermissions roleId = some row ↔
      row.toRole ∈ db.roles ∧ row.id = roleId ∧ row.permissions = db.permissionsOf roleId := by
  have keys : db.rolesWithPermissions.map (fun r : RoleRow => r.id) = db.roleIds := by
    simp [Tables.rolesWithPermissions, Tables.roleIds]
  rw [lookupTable_id_eq_some (by rw [keys]; exact db.valid.role_id)]
  simp only [Tables.rolesWithPermissions, List.mem_map]
  constructor
  · rintro ⟨⟨r, r_row, rfl⟩, rfl⟩
    exact ⟨r_row, rfl, rfl⟩
  · rintro ⟨r_row, rfl, permissions⟩
    refine ⟨⟨row.toRole, r_row, ?_⟩, rfl⟩
    rw [← permissions]

end Database

end Arac.Db
