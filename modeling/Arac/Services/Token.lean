/-
# Arac.Services.Token -- access tokens

`signAccessToken` fills in the registered claims around an identity;
`verifyAccessToken` is the library's verdict followed by the check that every ABAC
claim is there.  Services never see the reason of a failed verification: each of
them turns any failure into the same 401 (`authenticate`).
-/
import Arac.Services.World

namespace Arac

open Arac.Theory Arac.Sessions Arac.Service

set_option autoImplicit false

structure VerifiedAccessToken extends AbacIdentity where
  jti : Option String
  iat : Option Int
  exp : Option Int
  iss : Option String
  aud : Option String
  deriving DecidableEq

structure IssuedAccessToken where
  token : String
  /-- Unix seconds. -/
  expiresAt : Nat
  jti : String
  deriving DecidableEq

namespace Env

variable (env : Env)

/-- The claims of a token minted at `now`. -/
def claimsFor (identity : AbacIdentity) (jti : String) (now : Nat) : JwtClaims :=
  { identity with
    alg := "RS256"
    kid := env.kid
    issuer := env.issuer
    audience := env.audience
    issuedAt := nowSeconds now
    expiresAt := nowSeconds now + env.accessTtlSeconds
    jti }

/-- `jwtVerify` and the check of the ABAC claims. -/
def verifyAccessToken (now : Nat) (token : String) : Except ServiceError VerifiedAccessToken :=
  match env.jwtVerify now token with
  | none => .error .jose
  | some payload =>
      match payload.sub, payload.tenant, payload.departments, payload.compartments,
        payload.clearance, payload.level with
      | some sub, some tenant, some departments, some compartments, some clearance, some level =>
          .ok
            { sub, tenant, departments, clearance, level, compartments
              jti := payload.jti
              iat := payload.iat
              exp := payload.exp
              iss := payload.iss
              aud := payload.aud }
      | _, _, _, _, _, _ => .error (.error "access token is missing required ABAC claims")

/-- The token is a valid access token of the subject. -/
def TokenOf (now : Nat) (token sub : String) : Prop :=
  ∃ verified, env.verifyAccessToken now token = .ok verified ∧ verified.sub = sub

/-- A token has one subject. -/
theorem TokenOf.unique {env : Env} {now : Nat} {token sub sub' : String}
    (valid : env.TokenOf now token sub) (valid' : env.TokenOf now token sub') : sub = sub' := by
  obtain ⟨v, ok, rfl⟩ := valid
  obtain ⟨v', ok', rfl⟩ := valid'
  rw [ok] at ok'
  cases ok'
  rfl

end Env

variable {σ : Type}

def signAccessToken (env : Env) (identity : AbacIdentity) (jti : String) :
    Service σ IssuedAccessToken := do
  let now ← clock
  let claims := env.claimsFor identity jti now
  return { token := env.jwtSign claims, expiresAt := claims.expiresAt, jti }

/-- Verify an access token, converting any failure into a 401. -/
def authenticate (env : Env) (accessToken : String) : Service σ VerifiedAccessToken := do
  let now ← clock
  match env.verifyAccessToken now accessToken with
  | .ok verified => return verified
  | .error _ => Prog.fail (.unauthorized "Invalid access token")

theorem run_authenticate (env : Env) (accessToken : String) (w : World σ) :
    (authenticate env accessToken).run w =
      (match env.verifyAccessToken w.now accessToken with
        | .ok verified => .ok verified
        | .error _ => .error (.unauthorized "Invalid access token"), w) := by
  unfold authenticate
  rw [Prog.run_bind_ok (run_clock w)]
  cases env.verifyAccessToken w.now accessToken <;> rfl

theorem run_authenticate_ok {env : Env} {accessToken sub : String} {w : World σ}
    (valid : env.TokenOf w.now accessToken sub) :
    ∃ verified, (authenticate env accessToken).run w = (.ok verified, w) ∧ verified.sub = sub := by
  obtain ⟨verified, ok, same⟩ := valid
  exact ⟨verified, by rw [run_authenticate, ok], same⟩

theorem run_authenticate_cases (env : Env) (accessToken : String) (w : World σ) :
    (∃ e, (authenticate env accessToken).run w = (.error e, w)) ∨
      ∃ caller, env.TokenOf w.now accessToken caller := by
  cases verified : env.verifyAccessToken w.now accessToken with
  | error e =>
      have refused := run_authenticate env accessToken w
      rw [verified] at refused
      exact Or.inl ⟨_, refused⟩
  | ok v => exact Or.inr ⟨v.sub, v, verified, rfl⟩

theorem quiet_authenticate (env : Env) (accessToken : String) :
    Quiet (authenticate env accessToken : Service σ VerifiedAccessToken) := by
  refine .bind .clock ?_
  intro now
  cases env.verifyAccessToken now accessToken with
  | ok verified => exact .pure _
  | error e => exact .fail _

theorem quiet_signAccessToken (env : Env) (identity : AbacIdentity) (jti : String) :
    Quiet (signAccessToken env identity jti : Service σ IssuedAccessToken) :=
  .bind .clock fun _ => .pure _

/-! ## A sample environment -/

/-- An environment in which the token of a subject is the subject's id. -/
def sampleEnv : Env where
  sha256 := sampleSha256
  toLowerCase s := String.ofList (s.toList.map Char.toLower)
  encodeURIComponent := id
  collate a b := decide (a ≤ b)
  argon2Hash password salt := salt ++ "$" ++ password
  argon2Verify hash password := hash.endsWith ("$" ++ password)
  decoyHash := "$"
  jwtSign claims := claims.sub
  jwtVerify _ token := some
    { sub := some token, tenant := some "acme", departments := some [], clearance := some 0,
      level := some 3, compartments := some [], jti := none, iat := none, exp := none, iss := none,
      aud := none }
  kid := "k1"
  issuer := "auth"
  audience := "api"
  accessTtlSeconds := 900
  appBaseUrl := "https://app.acme.test"

theorem sampleEnv_tokenOf (now : Nat) (sub : String) : sampleEnv.TokenOf now sub sub :=
  ⟨_, rfl, rfl⟩

/-- The sample environment with a check that evaluates. -/
def verifyingEnv : Env :=
  { sampleEnv with argon2Verify hash password := hash = "$" ++ password || hash = "s1$" ++ password }

def sampleDraws : Draws where
  id := ⟨"c1", by decide⟩
  salt := "s1"
  jti := "j1"
  familyId := "f1"
  token := sampleTokens.1

end Arac
