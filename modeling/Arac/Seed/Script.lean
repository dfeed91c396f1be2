/-
# Arac.Seed.Script -- the seed script

`main` of `prisma/seed.ts`: the demo users, the permissions and roles, and the org tree.
It runs before every start of the service, over whatever database it finds.

Each pass is a loop over one of the seed lists.  The roles are created before any of them
is wired to its parent and its permissions, whose rows are deleted and created again.
-/
import Arac.Config.Configuration
import Arac.Db.IdentityUpserts
import Arac.Org.SeedForest

namespace Arac.Seed

open Arac.Theory Arac.Db Arac.Service Arac.Config Arac.Org

set_option autoImplicit false

def DEV_DEFAULT_PASSWORD : String := "changeme-dev-only"

/-- The random values of a run: the ids of the rows it creates, and the salts. -/
structure SeedDraws where
  userIds : String → Cuid
  salts : String → String
  permissionIds : String → Cuid
  roleIds : String → Cuid
  grantId : Cuid
  orgIds : String → Cuid

/-- `process.env[seed.passwordEnv]?.trim() || DEV_DEFAULT_PASSWORD`. -/
def passwordOf (processEnv : ProcessEnv) (seed : SeedUser) : String :=
  orElse ((processEnv seed.passwordEnv).map trim) DEV_DEFAULT_PASSWORD

section

variable {σ : Type} (env : Env) (processEnv : ProcessEnv) (draws : SeedDraws)

/-- One round of the loop over `SEED_USERS`. -/
def seedUser (isProd : Bool) (seed : SeedUser) : Service σ Unit := do
  let password := passwordOf processEnv seed
  if isProd && password = DEV_DEFAULT_PASSWORD then
    Prog.fail (.error ("Refusing to seed " ++ seed.email ++
      " with the dev default password in production; set " ++ seed.passwordEnv))
  else do
    let email := env.toLowerCase seed.email
    let passwordHash := env.argon2Hash password (draws.salts seed.email)
    let createdAt ← clock
    commit (·.userUpsert (draws.userIds seed.email) email seed passwordHash createdAt)

/-- `role.findUniqueOrThrow`. -/
def roleOrThrow (name : String) : Service σ Role := do
  match ← query (·.roleByName name) with
  | none => Prog.fail (.prisma .recordNotFound)
  | some role => return role

/-- The id of the parent, where the seed names one. -/
def parentIdOf (r : SeedRole) : Service σ (Option String) :=
  match truthy r.parent with
  | none => pure none
  | some name => do
      let parent ← roleOrThrow name
      return some parent.id

/-- `permission.findMany` by key. -/
def permissionsIn (keys : List String) (t : Tables) : List Permission :=
  t.permissions.filter fun p => p.key ∈ keys

/-- One round of the loop that wires parents and permissions. -/
def wireRole (r : SeedRole) : Service σ Unit := do
  let role ← roleOrThrow r.name
  let parentId ← parentIdOf r
  let perms ← query (permissionsIn r.perms)
  commit (·.roleUpdate role.id parentId)
  -- reset to the desired permission set
  commit fun db => .ok (db.rolePermissionDeleteMany role.id)
  if perms.length > 0 then
    commit (·.rolePermissionCreateMany (perms.map fun p => { roleId := role.id, permissionId := p.id }))
  else return

/-- `super-admin` for the seeded admin user, everywhere. -/
def grantSuperAdmin : Service σ Unit := do
  let admin ← query (·.userByEmail "admin@acme.test")
  let superAdmin ← query (·.roleByName "super-admin")
  match admin, superAdmin with
  | some admin, some superAdmin =>
      match ← query (·.findAssignment admin.id superAdmin.id none none) with
      | some _ => return
      | none => commit (·.userRoleCreate
          { id := draws.grantId.value, userId := admin.id, roleId := superAdmin.id
            scopeTenant := none, scopeDepartment := none })
  | _, _ => return

def seedRbac : Service σ Unit := do
  PERMISSIONS.forM fun p => commit (·.permissionUpsert (draws.permissionIds p.1) p.1 p.2.1 p.2.2)
  ROLES.forM fun r => commit (·.roleUpsert (draws.roleIds r.name) r.name r.description)
  -- all roles exist now
  ROLES.forM wireRole
  grantSuperAdmin draws

def main : Service σ Unit := do
  let isProd := decide ((processEnv "NODE_ENV").getD "development" = "production")
  SEED_USERS.forM (seedUser env processEnv draws isProd)
  seedRbac draws
  seedOrg env draws.orgIds

end

end Arac.Seed
