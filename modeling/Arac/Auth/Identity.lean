/-
# Arac.Auth.Identity -- the user store behind the auth service

`PrismaIdentityProvider`: only active users are found or verified, the ABAC
attributes come from the row, and a self-registered account gets the fixed minimal
scope whatever the client sent.
-/
import Arac.Services.World

namespace Arac.Auth

open Arac.Theory Arac.Db Arac.Service

set_option autoImplicit false

/-- The user as the services see it. -/
structure User where
  id : String
  email : String
  name : String
  passwordHash : String
  tenant : String
  department : String
  clearance : Int
  level : Int
  deriving DecidableEq

structure CreateUserInput where
  email : String
  name : String
  password : String

def toUser (row : Db.User) : User :=
  { id := row.id
    email := row.email
    name := row.name
    passwordHash := row.passwordHash
    tenant := row.tenant
    department := row.department
    clearance := row.clearance
    level := row.level }

/-- The row of a self-registered account, with `SELF_SIGNUP_SCOPE`. -/
def selfSignupRow (id email name passwordHash : String) (now : Nat) : Db.User :=
  { id, email, name, passwordHash
    tenant := "unassigned"
    department := "unassigned"
    clearance := 0
    level := 3
    status := .active
    createdAt := now }

namespace IdentityProvider

variable {σ : Type} (env : Env)

/-- The form in which emails are stored and looked up. -/
def normalizeEmail (email : String) : String := env.toLowerCase (trim email)

def findById (id : String) : Service σ (Option User) := do
  let row ← query (·.activeUserById id)
  return row.map toUser

def verifyCredentials (email password : String) : Service σ (Option User) := do
  let row ← query (·.activeUserByEmail (normalizeEmail env email))
  -- a hash is verified even when no user matched
  let ok := env.argon2Verify ((row.map Db.User.passwordHash).getD env.decoyHash) password
  return if ok then row.map toUser else none

theorem quiet_findById (id : String) : Quiet (findById id : Service σ (Option User)) :=
  .bind (.query _) fun _ => .pure _

def createUser (draws : Draws) (input : CreateUserInput) : Service σ (Option User) := do
  let passwordHash := env.argon2Hash input.password draws.salt
  let now ← clock
  let row := selfSignupRow draws.id.value (normalizeEmail env input.email) (trim input.name)
    passwordHash now
  match ← write (·.userCreate row) with
  | .ok () => return some (toUser row)
  | .error e => if e.code = "P2002" then return none else Prog.fail (.prisma e)

def changePassword (draws : Draws) (userId newPassword : String) : Service σ Unit := do
  let passwordHash := env.argon2Hash newPassword draws.salt
  commit (·.userUpdate userId { passwordHash := some passwordHash })

/-- An account that is created has the minimal scope. -/
theorem run_createUser {env : Env} {draws : Draws} {input : CreateUserInput} {w w' : World σ}
    {user : User} (run : (createUser env draws input).run w = (.ok (some user), w')) :
    ∃ email name passwordHash now db,
      w.db.userCreate (selfSignupRow draws.id.value email name passwordHash now) = .ok db ∧
        user = toUser (selfSignupRow draws.id.value email name passwordHash now) ∧
        w' = { w with db } := by
  rw [createUser, Prog.run_bind_ok (run_clock w), Prog.run_bind, write, writeSelect,
    Prog.run_call] at run
  cases created : w.db.userCreate (selfSignupRow draws.id.value (normalizeEmail env input.email)
      (trim input.name) (env.argon2Hash input.password draws.salt) w.now) with
  | error e =>
      simp only [created] at run
      split at run <;> cases run
  | ok db =>
      simp only [created] at run
      cases run
      exact ⟨_, _, _, _, db, created, rfl, rfl⟩

end IdentityProvider

end Arac.Auth
