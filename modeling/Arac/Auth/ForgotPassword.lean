/-
# Arac.Auth.ForgotPassword -- the answer of `POST auth/forgot`

`requestReset` answers at once where no active account has the email, and goes
through Redis and the mail server where one has.  Here both may fail, and nothing
catches the failure: the answer is the same for both kinds of email exactly where
neither does (`sameAnswer_iff`).

The validation of the body and the mapping of exceptions to responses are the
framework's.  The former is a parameter, since it sees the body only.
-/
import Arac.Auth.ResetTokens

namespace Arac.Auth

open Arac.Theory Arac.Sessions Arac.Db Arac.Service

set_option autoImplicit false

variable {σ : Type}

/-! ## Responses -/

/-- What the browser receives. -/
inductive Response where
  /-- `{ success: true }`. -/
  | success
  | failure (status : Nat) (messages : List String)
  deriving DecidableEq

/-- The default exception filter: an error that is no `HttpException` is a 500. -/
def errorResponse : ServiceError → Response
  | .unauthorized message => .failure 401 [message]
  | .forbidden message => .failure 403 [message]
  | .notFound message => .failure 404 [message]
  | .conflict message => .failure 409 [message]
  | .badRequest message => .failure 400 [message]
  | .prisma _ | .prismaValidation | .jose | .error _ | .rangeError =>
      .failure 500 ["Internal server error"]

def respond : Except ServiceError Unit → Response
  | .ok () => .success
  | .error e => errorResponse e

theorem respond_eq_success {r : Except ServiceError Unit} : respond r = .success ↔ r = .ok () := by
  rcases r with e | u
  · cases e <;> simp [respond, errorResponse]
  · simp [respond]

/-! ## Redis and the mail server -/

/-- How Redis answers the `SET` of a key with a user id, and the mail server a mail. -/
structure ResetDependencies where
  redisSet : (hash userId : String) → Except String Unit
  sendMail : Mail → Except String Unit

def ResetDependencies.reliable : ResetDependencies := ⟨fun _ _ => .ok (), fun _ => .ok ()⟩

/-- A call of a dependency: it has its effect or throws. -/
def attempt (outcome : Except String Unit) (effect : Service σ Unit) : Service σ Unit :=
  match outcome with
  | .ok () => effect
  | .error message => Prog.fail (.error message)

namespace PasswordResetService

/-- The link in the mail. -/
def resetUrl (env : Env) (token : String) : String :=
  env.appBaseUrl ++ "/reset-password?token=" ++ env.encodeURIComponent token

/-- `requestReset` over dependencies that may fail. -/
def requestResetOver (deps : ResetDependencies) (env : Env) (draws : Draws) (email : String) :
    Service σ Unit := do
  match ← query (·.userByEmail (IdentityProvider.normalizeEmail env email)) with
  | none => return
  | some user =>
      if user.status ≠ .active then return
      attempt (deps.redisSet (env.sha256 draws.token) user.id)
        (storeReset (env.sha256 draws.token) user.id)
      let mail : Mail := { recipient := user.email, url := resetUrl env draws.token }
      attempt (deps.sendMail mail) (sendPasswordReset mail)

/-- With dependencies that never fail it is `requestReset`. -/
theorem requestResetOver_reliable (env : Env) (draws : Draws) (email : String) :
    (requestResetOver .reliable env draws email : Service σ Unit) = requestReset env draws email :=
  rfl

end PasswordResetService

/-- `POST auth/forgot`.  `invalid` lists what the validation of the body objects to. -/
def forgot (invalid : String → List String) (deps : ResetDependencies) (env : Env) (draws : Draws)
    (email : String) (w : World σ) : Response × World σ :=
  match invalid email with
  | [] =>
      let (result, w') := (PasswordResetService.requestResetOver deps env draws email).run w
      (respond result, w')
  | messages => (.failure 400 messages, w)

/-! ## Two databases -/

section

variable {invalid : String → List String} {deps : ResetDependencies} {env : Env} {draws draws' : Draws}
  {email : String} {w w' : World σ}

theorem run_requestResetOver_absent (absent : recipient env w email = none) :
    (PasswordResetService.requestResetOver deps env draws email).run w = (.ok (), w) := by
  unfold PasswordResetService.requestResetOver
  rw [Prog.run_bind_ok (run_query _ w)]
  unfold recipient at absent
  cases found : w.db.userByEmail (IdentityProvider.normalizeEmail env email) with
  | none => rfl
  | some user =>
      rw [found] at absent
      have inactive : user.status ≠ .active := by
        intro active
        simp [active] at absent
      simp only [inactive, ne_eq, not_false_eq_true, if_true]
      rfl

theorem run_requestResetOver_active {user : Db.User} (account : recipient env w email = some user) :
    ((PasswordResetService.requestResetOver deps env draws email).run w).1 = .ok () ↔
      deps.redisSet (env.sha256 draws.token) user.id = .ok () ∧
        deps.sendMail ⟨user.email, PasswordResetService.resetUrl env draws.token⟩ = .ok () := by
  obtain ⟨found, active⟩ := Option.filter_eq_some_iff.mp account
  have active : user.status = .active := of_decide_eq_true active
  unfold PasswordResetService.requestResetOver
  rw [Prog.run_bind_ok (run_query _ w)]
  simp only [found, active, ne_eq, not_true_eq_false, if_false]
  cases deps.redisSet (env.sha256 draws.token) user.id with
  | error message => simp [attempt, Prog.run_bind]
  | ok _ =>
      cases deps.sendMail ⟨user.email, PasswordResetService.resetUrl env draws.token⟩ with
      | error message => simp [attempt, Prog.run_bind, PasswordResetService.storeReset]
      | ok _ =>
          simp [attempt, Prog.run_bind, PasswordResetService.storeReset,
            PasswordResetService.sendPasswordReset]

/-- Where one database has an active account with the email and the other has none,
the answers are the same exactly where the email is invalid, or the write to Redis
and the mail both succeed. -/
theorem sameAnswer_iff {user : Db.User} (account : recipient env w email = some user)
    (absent : recipient env w' email = none) :
    (forgot invalid deps env draws email w).1 = (forgot invalid deps env draws' email w').1 ↔
      invalid email ≠ [] ∨
        deps.redisSet (env.sha256 draws.token) user.id = .ok () ∧
          deps.sendMail ⟨user.email, PasswordResetService.resetUrl env draws.token⟩ = .ok () := by
  unfold forgot
  cases invalid email with
  | cons message messages => simp
  | nil =>
      simp only [run_requestResetOver_absent absent, ne_eq, not_true_eq_false, false_or]
      have silent : respond (.ok ()) = .success := rfl
      rw [silent, respond_eq_success]
      exact run_requestResetOver_active account

end

/-! ## An account that was disabled -/

theorem sameAnswer_reliable :
    (forgot (fun _ => []) .reliable sampleEnv sampleDraws "super-admin@acme.test"
      (World.fresh () 0 staffed)).1 =
    (forgot (fun _ => []) .reliable sampleEnv sampleDraws "super-admin@acme.test"
      (World.fresh () 0 dismissed)).1 := by
  obtain ⟨user, account⟩ : ∃ user, recipient sampleEnv (World.fresh () 0 staffed)
      "super-admin@acme.test" = some user := ⟨_, rfl⟩
  exact (sameAnswer_iff account (by decide)).mpr (Or.inr ⟨rfl, rfl⟩)

/-- With the mail server down the answers differ. -/
theorem not_always_sameAnswer : ¬ ∀ {σ : Type} (invalid : String → List String)
    (deps : ResetDependencies) (env : Env) (draws : Draws) (email : String) (w : World σ)
    (db : Database), db.toTables = w.db.disable (IdentityProvider.normalizeEmail env email) →
    (forgot invalid deps env draws email w).1 = (forgot invalid deps env draws email { w with db }).1 := by
  intro always
  have email : IdentityProvider.normalizeEmail sampleEnv "super-admin@acme.test" =
    "super-admin@acme.test" := by decide
  have same := always (fun _ => []) ⟨fun _ _ => .ok (), fun _ => .error "ECONNREFUSED"⟩ sampleEnv
    sampleDraws "super-admin@acme.test" (World.fresh () 0 staffed) dismissed (by rw [email]; rfl)
  revert same
  decide

end Arac.Auth
