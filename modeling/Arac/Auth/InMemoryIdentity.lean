/-
# Arac.Auth.InMemoryIdentity -- the user store that keeps its accounts in two maps

`InMemoryIdentityProvider`: one map from the id and one from the normalized email.
Each call up to its `await`, and from there on, is one atomic step, so `createUser`
looks for the email in one step and inserts the account, once the password is hashed,
in another.  `Agree` says that what is found by id is found by email;
`onModuleInit_agrees` is the start.

`Provider` is the interface that both user stores implement, but for `changePassword`, which
`Arac.Auth.ProviderEquivalence` adds.
-/
import Arac.Auth.Identity

namespace Arac.Auth

open Arac.Theory Arac.Db Arac.Service

set_option autoImplicit false

/-- The interface `IdentityProvider`. -/
structure Provider (τ : Type) where
  findById : String → Prog τ ServiceError (Option User)
  verifyCredentials : (email password : String) → Prog τ ServiceError (Option User)
  createUser : Draws → CreateUserInput → Prog τ ServiceError (Option User)

def prismaIdentityProvider {σ : Type} (env : Env) : Provider (World σ) where
  findById := IdentityProvider.findById
  verifyCredentials := IdentityProvider.verifyCredentials env
  createUser := IdentityProvider.createUser env

/-! ## The two maps -/

structure InMemoryIdentity where
  byId : String → Option User
  byEmail : String → Option User
  decoyHash : String

namespace InMemoryIdentity

def empty : InMemoryIdentity := ⟨fun _ => none, fun _ => none, ""⟩

/-- `byId.set(user.id, user)` and `byEmail.set(email, user)`. -/
def insert (p : InMemoryIdentity) (email : String) (user : User) : InMemoryIdentity :=
  { p with
    byId := Function.update p.byId user.id (some user)
    byEmail := Function.update p.byEmail email (some user) }

@[simp] theorem insert_byId_self (p : InMemoryIdentity) (email : String) (user : User) :
    (p.insert email user).byId user.id = some user := Function.update_self ..

theorem insert_byId_ne {p : InMemoryIdentity} (email : String) {user : User} {id : String}
    (apart : id ≠ user.id) : (p.insert email user).byId id = p.byId id :=
  Function.update_of_ne apart ..

@[simp] theorem insert_byEmail_self (p : InMemoryIdentity) (email : String) (user : User) :
    (p.insert email user).byEmail email = some user := Function.update_self ..

theorem insert_byEmail_ne {p : InMemoryIdentity} {email other : String} (user : User)
    (apart : other ≠ email) : (p.insert email user).byEmail other = p.byEmail other :=
  Function.update_of_ne apart ..

/-- What is found by id is found by email. -/
def Agree (p : InMemoryIdentity) : Prop :=
  ∀ id user, p.byId id = some user → p.byEmail user.email = some user

/-- An account under an email that was free. -/
theorem Agree.insert {p : InMemoryIdentity} (agree : p.Agree) {user : User}
    (free : p.byEmail user.email = none) : (p.insert user.email user).Agree := by
  intro id other found
  by_cases new : id = user.id
  · subst new
    rw [insert_byId_self] at found
    obtain rfl := Option.some.inj found
    exact insert_byEmail_self ..
  · rw [insert_byId_ne user.email new] at found
    have there := agree id other found
    have apart : other.email ≠ user.email := by
      intro same
      rw [same, free] at there
      cases there
    rw [insert_byEmail_ne user apart]
    exact there

end InMemoryIdentity

/-! ## The seeded accounts -/

def DEV_DEFAULT_PASSWORD : String := "changeme-dev-only"

structure SeedUser where
  id : String
  email : String
  name : String
  tenant : String
  department : String
  clearance : Int
  level : Int
  /-- The variable that holds the password. -/
  passwordEnv : String

def SEED_USERS : List SeedUser := [
  { id := "u_finance_1", email := "finance@acme.test", name := "Fiona Finance", tenant := "acme",
    department := "finance", clearance := 3, level := 4, passwordEnv := "SEED_FINANCE_PASSWORD" },
  { id := "u_hr_1", email := "hr@acme.test", name := "Harvey HR", tenant := "acme",
    department := "hr", clearance := 2, level := 4, passwordEnv := "SEED_HR_PASSWORD" }]

namespace InMemoryIdentityProvider

variable (env : Env)

section

variable (processEnv : String → Option String) (salt : String → String)

/-- One round of the loop over `SEED_USERS`. -/
def seedUser (p : InMemoryIdentity) (seed : SeedUser) : Except ServiceError InMemoryIdentity :=
  let isProd := (processEnv "NODE_ENV").getD "development" = "production"
  let password := (truthy ((processEnv seed.passwordEnv).map trim)).getD DEV_DEFAULT_PASSWORD
  if isProd ∧ password = DEV_DEFAULT_PASSWORD then
    .error (.error ("Refusing to seed " ++ seed.email ++
      " with the dev default password in production; set " ++ seed.passwordEnv))
  else
    .ok (p.insert (env.toLowerCase seed.email)
      { id := seed.id
        email := seed.email
        name := seed.name
        tenant := seed.tenant
        department := seed.department
        clearance := seed.clearance
        level := seed.level
        passwordHash := env.argon2Hash password (salt seed.id) })

def onModuleInit : Except ServiceError InMemoryIdentity := do
  let p ← SEED_USERS.foldlM (seedUser env processEnv salt) .empty
  return { p with decoyHash := env.argon2Hash DEV_DEFAULT_PASSWORD (salt "decoy") }

end

/-! ## The operations -/

def findById (id : String) : Prog InMemoryIdentity ServiceError (Option User) :=
  Prog.call fun p => (p.byId id, p)

def verifyCredentials (email password : String) : Prog InMemoryIdentity ServiceError (Option User) := do
  let (user, decoyHash) ← Prog.call fun p =>
    ((p.byEmail (IdentityProvider.normalizeEmail env email), p.decoyHash), p)
  -- a hash is verified even when no user matched
  let ok := env.argon2Verify ((user.map User.passwordHash).getD decoyHash) password
  return if ok then user else none

/-- The account of a signup, with `SELF_SIGNUP_SCOPE`. -/
def newUser (draws : Draws) (input : CreateUserInput) : User :=
  { id := draws.id.value
    email := IdentityProvider.normalizeEmail env input.email
    name := trim input.name
    passwordHash := env.argon2Hash input.password draws.salt
    tenant := "unassigned"
    department := "unassigned"
    clearance := 0
    level := 3 }

def createUser (draws : Draws) (input : CreateUserInput) :
    Prog InMemoryIdentity ServiceError (Option User) := do
  let email := IdentityProvider.normalizeEmail env input.email
  if ← Prog.call fun p => ((p.byEmail email).isSome, p) then return none
  -- other calls run while the password is hashed
  let user := newUser env draws input
  Prog.call fun p => ((), p.insert email user)
  return some user

end InMemoryIdentityProvider

def inMemoryIdentityProvider (env : Env) : Provider InMemoryIdentity where
  findById := InMemoryIdentityProvider.findById
  verifyCredentials := InMemoryIdentityProvider.verifyCredentials env
  createUser := InMemoryIdentityProvider.createUser env

/-! ## The start -/

namespace InMemoryIdentityProvider

variable {env : Env} {processEnv : String → Option String} {salt : String → String}

theorem seedUser_ok {p p' : InMemoryIdentity} {seed : SeedUser}
    (ok : seedUser env processEnv salt p seed = .ok p') : ∃ user : User, user.email = seed.email ∧
      p' = p.insert (env.toLowerCase seed.email) user := by
  simp only [seedUser] at ok
  split at ok
  · cases ok
  · cases ok
    exact ⟨_, rfl, rfl⟩

/-- Accounts seeded under emails of their own. -/
theorem seedUsers_agree {seeds : List SeedUser}
    (lower : ∀ seed ∈ seeds, env.toLowerCase seed.email = seed.email)
    (distinct : (seeds.map SeedUser.email).Nodup) {p p' : InMemoryIdentity} (agree : p.Agree)
    (free : ∀ seed ∈ seeds, p.byEmail seed.email = none)
    (ok : seeds.foldlM (seedUser env processEnv salt) p = .ok p') : p'.Agree := by
  induction seeds generalizing p with
  | nil =>
      cases ok
      exact agree
  | cons seed seeds ih =>
      rw [List.foldlM_cons] at ok
      cases seeded : seedUser env processEnv salt p seed with
      | error e =>
          rw [seeded] at ok
          cases ok
      | ok q =>
          rw [seeded] at ok
          obtain ⟨user, same, rfl⟩ := seedUser_ok seeded
          rw [lower seed List.mem_cons_self, ← same] at ok
          rw [List.map_cons, List.nodup_cons] at distinct
          refine ih (fun s member => lower s (List.mem_cons_of_mem _ member)) distinct.2
            (agree.insert (same ▸ free seed List.mem_cons_self)) ?_ ok
          intro s member
          have apart : s.email ≠ user.email := by
            intro clash
            rw [same] at clash
            exact distinct.1 (clash ▸ List.mem_map_of_mem member)
          rw [InMemoryIdentity.insert_byEmail_ne user apart]
          exact free s (List.mem_cons_of_mem _ member)

/-- The seeded emails are in lower case, so the maps agree at the start. -/
theorem onModuleInit_agrees {p : InMemoryIdentity}
    (lower : ∀ seed ∈ SEED_USERS, env.toLowerCase seed.email = seed.email)
    (started : onModuleInit env processEnv salt = .ok p) : p.Agree := by
  unfold onModuleInit at started
  cases seeded : SEED_USERS.foldlM (seedUser env processEnv salt) .empty with
  | error e =>
      rw [seeded] at started
      cases started
  | ok q =>
      rw [seeded] at started
      cases started
      have agree : q.Agree := seedUsers_agree lower (by decide) (fun _ _ impossible => by cases impossible)
        (fun _ _ => rfl) seeded
      exact agree

end InMemoryIdentityProvider

end Arac.Auth
