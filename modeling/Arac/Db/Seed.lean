/-
# Arac.Db.Seed -- the seeded database

What `prisma/seed.ts` leaves on an empty database: the demo users, the permissions
with their floors, the role hierarchy, the department tree and the compartments.
Parents come before their children in both seed lists, so both hierarchies are
acyclic whatever else the database holds (`Seeded.roles_acyclic`,
`Seeded.departments_acyclic`).  The row ids, which the seed leaves to the database,
are the natural keys here.
-/
import Arac.Db.Schema
import Arac.Theory.Acyclic

namespace Arac.Db

open Arac.Theory

set_option autoImplicit false

structure SeedUser where
  email : String
  name : String
  tenant : String
  department : String
  clearance : Int
  level : Int
  /-- The variable that holds the password. -/
  passwordEnv : String

def SEED_USERS : List SeedUser :=
  [⟨"finance@acme.test", "Fiona Finance", "acme", "finance", 3, 4, "SEED_FINANCE_PASSWORD"⟩,
    ⟨"hr@acme.test", "Harvey HR", "acme", "hr", 2, 4, "SEED_HR_PASSWORD"⟩,
    ⟨"admin@acme.test", "Adam Admin", "acme", "it", 5, 7, "SEED_ADMIN_PASSWORD"⟩]

/-- Key, description and floor. -/
def PERMISSIONS : List (String × String × Int) :=
  [("users:read", "View users within scope", 3),
    ("users:grant", "Set a user's tenant/department/clearance/level", 4),
    ("users:assign-role", "Assign or remove roles for users", 5),
    ("roles:manage", "Create and edit roles and permissions", 6),
    ("org:manage", "Manage departments, compartments, and memberships", 6)]

structure SeedRole where
  name : String
  description : String
  parent : Option String
  perms : List String

/-- Each role lists its own permissions only. -/
def ROLES : List SeedRole :=
  [⟨"user", "Base role", none, []⟩,
    ⟨"dept-admin", "Manage users within one's department", some "user",
      ["users:read", "users:grant"]⟩,
    ⟨"user-admin", "Manage users and assign roles", some "dept-admin", ["users:assign-role"]⟩,
    ⟨"super-admin", "Full control including role and org management", some "user-admin",
      ["roles:manage", "org:manage"]⟩]

/-- Slug, name and the slug of the parent. -/
def DEPARTMENTS : List (String × String × Option String) :=
  [("finance", "Finance", none),
    ("finance.ap", "Accounts Payable", some "finance"),
    ("finance.ar", "Accounts Receivable", some "finance"),
    ("hr", "Human Resources", none),
    ("it", "IT", none)]

/-- Key and name. -/
def COMPARTMENTS : List (String × String) := [("M&A", "Mergers & Acquisitions"), ("PII", "Personal Data")]

def seedTables : Tables where
  users := SEED_USERS.map fun u =>
    { id := u.email, email := u.email, name := u.name, passwordHash := "$argon2id$", tenant := u.tenant,
      department := u.department, clearance := u.clearance, level := u.level, status := .active,
      createdAt := 0 }
  departments := DEPARTMENTS.map fun (slug, name, parent) =>
    { id := slug, tenant := "acme", slug, name, parentId := parent }
  userDepartments := SEED_USERS.map fun u =>
    { userId := u.email, departmentId := u.department,
      rank := if u.department = "it" then .manager else .ic }
  compartments := COMPARTMENTS.map fun (key, name) => { id := key, tenant := "acme", key, name }
  userCompartments := []
  permissions := PERMISSIONS.map fun (key, description, minLevel) =>
    { id := key, key, description, minLevel }
  roles := ROLES.map fun r =>
    { id := r.name, name := r.name, description := r.description, parentId := r.parent }
  rolePermissions := ROLES.flatMap fun r =>
    r.perms.map fun key => { roleId := r.name, permissionId := key }
  userRoles :=
    [{ id := "admin", userId := "admin@acme.test", roleId := "super-admin", scopeTenant := none,
       scopeDepartment := none }]

def seed : Database where
  toTables := seedTables
  valid := by constructor <;> decide

/-- The roles and departments are those of the seed. -/
structure Seeded (t : Tables) : Prop where
  roles : t.roles = seedTables.roles
  departments : t.departments = seedTables.departments

namespace Seeded

theorem roles_acyclic {t : Tables} (seeded : Seeded t) : Acyclic t.RoleParent := by
  refine .of_lt (fun role => (ROLES.map SeedRole.name).idxOf role) ?_
  rintro child parent ⟨r, r_row, rfl, link⟩
  rw [seeded.roles] at r_row
  have ordered : ∀ r ∈ seedTables.roles, ∀ p ∈ r.parentId,
      (ROLES.map SeedRole.name).idxOf p < (ROLES.map SeedRole.name).idxOf r.id := by decide
  exact ordered r r_row parent link

theorem departments_acyclic {t : Tables} (seeded : Seeded t) (tenant : String) :
    Acyclic (t.DepartmentParent tenant) := by
  refine .of_lt (fun slug => (DEPARTMENTS.map Prod.fst).idxOf slug) ?_
  rintro child parent ⟨d, d_row, -, rfl, link⟩
  rw [seeded.departments] at d_row
  have ordered : ∀ d ∈ seedTables.departments, ∀ p ∈ d.parentId,
      (DEPARTMENTS.map Prod.fst).idxOf p < (DEPARTMENTS.map Prod.fst).idxOf d.id := by decide
  exact ordered d d_row parent link

end Seeded

/-! ## A staffed deployment -/

/-- A member of the finance department. -/
def staff (email : String) (level : Int) : User :=
  { id := email, email, name := email, passwordHash := "$argon2id$", tenant := "acme",
    department := "finance", clearance := 0, level, status := .active, createdAt := 0 }

/-- A role confined to the finance department. -/
def confined (userId role : String) : UserRole :=
  { id := role, userId, roleId := role, scopeTenant := some "acme", scopeDepartment := some "finance" }

/-- The seed with three administrators of the finance department, and the floor of
`users:read` raised above the level of the first. -/
def staffed : Database where
  toTables := { seedTables with
    users := seedTables.users ++ [staff "dept-admin@acme.test" 4, staff "user-admin@acme.test" 6,
      staff "super-admin@acme.test" 6]
    permissions := seedTables.permissions.map fun p =>
      if p.key = "users:read" then { p with minLevel := 5 } else p
    userRoles := seedTables.userRoles ++ [confined "dept-admin@acme.test" "dept-admin",
      confined "user-admin@acme.test" "user-admin", confined "super-admin@acme.test" "super-admin"] }
  valid := by constructor <;> decide

theorem staffed_seeded : Seeded staffed.toTables := ⟨rfl, rfl⟩

/-- Disable the account with this email. -/
def Tables.disable (t : Tables) (email : String) : Tables :=
  { t with users := t.users.map fun u => if u.email = email then { u with status := .disabled } else u }

/-- The same deployment after one administrator's account was disabled. -/
def dismissed : Database where
  toTables := staffed.disable "super-admin@acme.test"
  valid := by constructor <;> decide

end Arac.Db
