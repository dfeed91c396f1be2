/-
# Arac.Auth.Service -- login, signup, password change, refresh, logout

`AuthService` and `PasswordResetService`.  Every path that issues tokens goes
through the stored user: the identity that is signed is `toIdentity` of the row
found at mint time, and every failure issues nothing.
-/
import Arac.Auth.Identity
import Arac.Org.Claims
import Arac.Rbac.Service
import Arac.Services.Token

namespace Arac.Auth

open Arac.Theory Arac.Sessions Arac.Db Arac.Service Arac.Org Arac.Rbac

set_option autoImplicit false

structure SessionUser where
  id : String
  name : String
  email : String
  department : String
  deriving DecidableEq

structure AuthResult where
  accessToken : String
  accessExpiresAt : Nat
  refreshToken : String
  refreshExpiresAt : Nat
  user : SessionUser
  deriving DecidableEq

def toSessionUser (user : User) : SessionUser :=
  { id := user.id, name := user.name, email := user.email, department := user.department }

namespace AuthService

variable {σ : Type} (S : SessionStore σ) (env : Env)

def toIdentity (user : User) : Service σ AbacIdentity := do
  let claims ← effectiveClaims user.id
  return { sub := user.id
           tenant := user.tenant
           departments := claims.departments
           clearance := user.clearance
           level := user.level
           compartments := claims.compartments }

def issueFor (draws : Draws) (user : User) : Service σ AuthResult := do
  let identity ← toIdentity user
  let access ← signAccessToken env identity draws.jti
  let refresh ← createSession S user.id draws.familyId draws.token
  return { accessToken := access.token
           accessExpiresAt := access.expiresAt
           refreshToken := refresh.token
           refreshExpiresAt := refresh.expiresAt
           user := toSessionUser user }

def login (draws : Draws) (email password : String) : Service σ AuthResult := do
  match ← IdentityProvider.verifyCredentials env email password with
  | none => Prog.fail (.unauthorized "Invalid credentials")
  | some user => issueFor S env draws user

def signup (draws : Draws) (email name password : String) : Service σ AuthResult := do
  match ← IdentityProvider.createUser env draws { email, name, password } with
  | none => Prog.fail (.conflict "An account with this email already exists")
  | some user => issueFor S env draws user

def changePassword (draws : Draws) (accessToken currentPassword newPassword : String) :
    Service σ AuthResult := do
  let verified ← authenticate env accessToken
  match ← IdentityProvider.findById verified.sub with
  | none => Prog.fail (.unauthorized "Invalid access token")
  | some user =>
      match ← IdentityProvider.verifyCredentials env user.email currentPassword with
      | none => Prog.fail (.unauthorized "Current password is incorrect")
      | some _ =>
          IdentityProvider.changePassword env draws user.id newPassword
          revokeUser S user.id
          issueFor S env draws user

/-- What `refresh` does with the outcome of the rotation. -/
def afterRotate (draws : Draws) : RotationResult → Service σ AuthResult
  | .reuseDetected _ _ => Prog.fail (.unauthorized "Session revoked")
  | .invalid => Prog.fail (.unauthorized "Invalid refresh token")
  | .expired => Prog.fail (.unauthorized "Invalid refresh token")
  | .rotated userId _ issued => do
      match ← IdentityProvider.findById userId with
      | none =>
          -- the session is valid but the user is gone or disabled
          revokeUser S userId
          Prog.fail (.unauthorized "Invalid refresh token")
      | some user =>
          let identity ← toIdentity user
          let access ← signAccessToken env identity draws.jti
          return { accessToken := access.token
                   accessExpiresAt := access.expiresAt
                   refreshToken := issued.token
                   refreshExpiresAt := issued.expiresAt
                   user := toSessionUser user }

def refresh (draws : Draws) (presentedRefreshToken : String) : Service σ AuthResult := do
  let result ← rotate S presentedRefreshToken draws.token
  afterRotate S env draws result

def logout (presentedRefreshToken : String) : Service σ Unit := revoke S presentedRefreshToken

def logoutAll (accessToken : String) : Service σ Unit := do
  let verified ← authenticate env accessToken
  revokeUser S verified.sub

structure Me extends SessionUser where
  roles : List String
  canManageUsers : Bool
  deriving DecidableEq

def me (accessToken : String) : Service σ Me := do
  let verified ← authenticate env accessToken
  match ← IdentityProvider.findById verified.sub with
  | none => Prog.fail (.unauthorized "Unknown subject")
  | some user =>
      let roles ← rolesFor user.id
      let canManageUsers ← can user.id USERS_READ none
      return { toSessionUser user with roles, canManageUsers }

end AuthService

/-! ## Password reset -/

namespace PasswordResetService

variable {σ : Type} (S : SessionStore σ) (env : Env)

def RESET_TTL_SECONDS : Nat := 1800

/-- `SET pwreset:{hash} userId EX`. -/
def storeReset (hash userId : String) : Service σ Unit :=
  Prog.call fun w => ((), { w with
    resets := w.resets.put hash ⟨userId, some (w.now + RESET_TTL_SECONDS * 1000)⟩ })

/-- `GETDEL pwreset:{hash}`. -/
def takeReset (hash : String) : Service σ (Option String) :=
  Prog.call fun w => (w.resets.get hash, { w with resets := w.resets.del hash })

def sendPasswordReset (mail : Mail) : Service σ Unit :=
  Prog.call fun w => ((), { w with outbox := w.outbox ++ [mail] })

def requestReset (draws : Draws) (email : String) : Service σ Unit := do
  match ← query (·.userByEmail (IdentityProvider.normalizeEmail env email)) with
  | none => return
  | some user =>
      if user.status ≠ .active then return
      storeReset (env.sha256 draws.token) user.id
      let url := env.appBaseUrl ++ "/reset-password?token=" ++ env.encodeURIComponent draws.token
      sendPasswordReset { recipient := user.email, url }

def reset (draws : Draws) (token newPassword : String) : Service σ Bool := do
  match truthy (← takeReset (env.sha256 token)) with
  | none => return false
  | some userId =>
      IdentityProvider.changePassword env draws userId newPassword
      revokeUser S userId
      return true

end PasswordResetService

/-- The lifetime of a reset token in milliseconds. -/
def RESET_TTL_MS : Nat := PasswordResetService.RESET_TTL_SECONDS * 1000

end Arac.Auth
