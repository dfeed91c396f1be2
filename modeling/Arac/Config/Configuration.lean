/-
# Arac.Config.Configuration -- the configuration of the service

`load` reads the environment, collects every problem it finds and throws if there was
one.  Keys come as PEM, as PEM with escaped newlines or as base64 of a PEM.  The public
key is derived from the private one unless it is given.

`Runtime` holds the decoders of the JavaScript runtime, and `KeyLibrary` what is used of
`node:crypto` and `jose`.
-/
import Mathlib.Data.List.Infix
import Arac.Services.World
import Arac.Theory.Validation

namespace Arac.Config

open Arac.Db

set_option autoImplicit false

/-! ## What is given -/

/-- A value as `JSON.parse` returns it; a number is as `String` shows it. -/
abbrev Json := Theory.JsonOf String

/-- The decoders of the runtime. -/
structure Runtime where
  /-- `String.prototype.toLowerCase`. -/
  toLowerCase : String → String
  /-- `Buffer.from(s, 'base64').toString('utf8')`. -/
  fromBase64 : String → String
  /-- `JSON.parse`; none where it throws. -/
  jsonParse : String → Option Json
  /-- `Number`, where the result is an integer. -/
  toNumber : String → Option Int

/-- A published key. -/
structure Jwk (Public : Type) where
  kid : String
  key : Public
  alg : String
  use : String

structure VerifyOptions where
  algorithms : List String
  issuer : String
  audience : String

/-- The functions of `node:crypto` and `jose` on RSA keys. -/
structure KeyLibrary (Private Public : Type) where
  /-- `createPublicKey`, or the message of its error. -/
  createPublicKey : String → Except String Public
  /-- `export` as SPKI in PEM. -/
  exportSpki : Public → String
  importPKCS8 : String → Option Private
  importSPKI : String → Option Public
  /-- `SignJWT`. -/
  jwtSign : Private → JwtClaims → String
  /-- `jwtVerify` with a local key set, at a time. -/
  jwtVerify : List (Jwk Public) → VerifyOptions → Nat → String → Option JwtPayload

abbrev ProcessEnv := String → Option String

/-! ## The configuration -/

inductive CookieSameSite where
  | lax
  | strict
  | none
  deriving DecidableEq

structure VerifyKey where
  kid : String
  publicKey : String
  deriving DecidableEq

structure JwtConfig where
  issuer : String
  audience : String
  kid : String
  privateKey : String
  publicKey : String
  /-- Keys that are published only to verify. -/
  additionalVerifyKeys : List VerifyKey
  accessTtlSeconds : Nat
  refreshTtlSeconds : Nat
  deriving DecidableEq

structure CookieConfig where
  domain : Option String
  secure : Bool
  sameSite : CookieSameSite
  deriving DecidableEq

structure ApiDocsConfig where
  enabled : Bool
  path : String
  deriving DecidableEq

structure DbConfig where
  databaseUrl : String
  redisUrl : String
  deriving DecidableEq

structure MailConfig where
  smtpHost : String
  smtpPort : Nat
  sender : String
  appBaseUrl : String
  deriving DecidableEq

structure AppConfig where
  env : String
  port : Nat
  jwt : JwtConfig
  cookie : CookieConfig
  apiDocs : ApiDocsConfig
  db : DbConfig
  mail : MailConfig
  deriving DecidableEq

/-! ## Collected problems -/

/-- A value, and the problems met on the way to it. -/
structure Parsed (α : Type) where
  value : α
  errors : List String

namespace Parsed

variable {α β : Type}

instance : Monad Parsed where
  pure a := ⟨a, []⟩
  bind p f := ⟨(f p.value).value, p.errors ++ (f p.value).errors⟩

@[simp] theorem value_pure (a : α) : (pure a : Parsed α).value = a := rfl

@[simp] theorem errors_pure (a : α) : (pure a : Parsed α).errors = [] := rfl

@[simp] theorem value_bind (p : Parsed α) (f : α → Parsed β) :
    (p >>= f).value = (f p.value).value := rfl

@[simp] theorem errors_bind (p : Parsed α) (f : α → Parsed β) :
    (p >>= f).errors = p.errors ++ (f p.value).errors := rfl

/-- A problem, with a value to go on with. -/
def add (message : String) (value : α) : Parsed α := ⟨value, [message]⟩

end Parsed

/-! ## Strings and numbers -/

/-- `value || fallback`. -/
def orElse (value : Option String) (fallback : String) : String := (truthy value).getD fallback

def requireString (env : ProcessEnv) (key : String) : Parsed String :=
  match truthy ((env key).map trim) with
  | none => .add (key ++ " is required") ""
  | some value => pure value

section

variable (runtime : Runtime)

def optionalInt (env : ProcessEnv) (key : String) (fallback : Nat) : Parsed Nat :=
  match truthy ((env key).map trim) with
  | none => pure fallback
  | some raw =>
      match runtime.toNumber raw with
      | some parsed =>
          if parsed ≤ 0 then
            .add (key ++ " must be a positive integer (got \"" ++ raw ++ "\")") fallback
          else pure parsed.toNat
      | none => .add (key ++ " must be a positive integer (got \"" ++ raw ++ "\")") fallback

def parseSameSite (env : ProcessEnv) : Parsed CookieSameSite :=
  let raw := runtime.toLowerCase (trim ((env "COOKIE_SAMESITE").getD "lax"))
  if raw = "lax" then pure .lax
  else if raw = "strict" then pure .strict
  else if raw = "none" then pure .none
  else .add ("COOKIE_SAMESITE must be one of lax|strict|none (got \"" ++ raw ++ "\")") .lax

def parseBool (value : Option String) (fallback : Bool) : Bool :=
  match truthy (value.map fun value => runtime.toLowerCase (trim value)) with
  | none => fallback
  | some raw => raw = "true" || raw = "1" || raw = "yes"

/-! ## Keys -/

def includes (s part : String) : Bool := decide (part.toList <:+: s.toList)

/-- `replace(/\\n/g, '\n')`. -/
def unescapeNewlines : List Char → List Char
  | '\\' :: 'n' :: rest => '\n' :: unescapeNewlines rest
  | c :: rest => c :: unescapeNewlines rest
  | [] => []

/-- A PEM that is given raw, with escaped newlines or as base64; empty if absent. -/
def normalizePem (raw : Option String) : String :=
  match truthy raw with
  | none => ""
  | some raw =>
      let trimmed := trim raw
      if includes trimmed "-----BEGIN" then String.ofList (unescapeNewlines trimmed.toList)
      else
        let decoded := runtime.fromBase64 trimmed
        if includes decoded "-----BEGIN" then decoded else ""

end

/-- The property of a value, where reading it does not throw. -/
def Json.get : Json → String → Option (Option Json)
  | .null, _ => none
  | .obj fields, name => some (Theory.fieldOf fields name)
  | _, _ => some none

mutual

/-- `String(value)`; none where it throws. -/
def Json.toText : Json → Option String
  | .null => some "null"
  | .bool b => some (if b then "true" else "false")
  | .num shown => some shown
  | .str s => some s
  | .arr items => (Json.textOfItems items).map (String.intercalate ",")
  | .obj fields => if fields.any (·.1 = "toString") then none else some "[object Object]"

/-- The items as `join` shows them. -/
def Json.textOfItems : List Json → Option (List String)
  | [] => some []
  | .null :: items => (Json.textOfItems items).map ("" :: ·)
  | item :: items => do
      let text ← Json.toText item
      let texts ← Json.textOfItems items
      return text :: texts

end

/-- `String(value ?? '')`. -/
def textOrEmpty : Option Json → Option String
  | none => some ""
  | some .null => some ""
  | some value => Json.toText value

section

variable (runtime : Runtime)

/-- One entry of the list; none where reading it throws. -/
def verifyKeyOf (e : Json) : Option VerifyKey := do
  let kid ← textOrEmpty (← Json.get e "kid")
  let publicKey ← textOrEmpty (← Json.get e "publicKey")
  return { kid := trim kid, publicKey := normalizePem runtime (some publicKey) }

def parseAdditionalVerifyKeys (raw : Option String) : Parsed (List VerifyKey) :=
  match truthy (raw.map trim) with
  | none => pure []
  | some trimmed =>
      let json := if trimmed.toList.head? = some '[' then trimmed else runtime.fromBase64 trimmed
      match runtime.jsonParse json with
      | none => .add "JWT_ADDITIONAL_VERIFY_KEYS is not valid JSON" []
      | some (.arr items) =>
          match items.mapM (verifyKeyOf runtime) with
          | none => .add "JWT_ADDITIONAL_VERIFY_KEYS is not valid JSON" []
          | some keys => pure (keys.filter fun e => e.kid ≠ "" && e.publicKey ≠ "")
      | some _ =>
          .add "JWT_ADDITIONAL_VERIFY_KEYS must be a JSON array of \x7bkid, publicKey\x7d" []

variable {Private Public : Type} (library : KeyLibrary Private Public)

/-- The private and the public key. -/
def loadKeys (env : ProcessEnv) : Parsed (String × String) :=
  let privateKey := normalizePem runtime (env "JWT_PRIVATE_KEY")
  if privateKey = "" then
    .add "JWT_PRIVATE_KEY is required (RS256 PEM, raw / escaped-newline / base64)" ("", "")
  else
    let publicKey := normalizePem runtime (env "JWT_PUBLIC_KEY")
    if publicKey = "" then
      match library.createPublicKey privateKey with
      | .ok key => pure (privateKey, library.exportSpki key)
      | .error message =>
          .add ("JWT_PRIVATE_KEY is not a valid RS256 PEM: " ++ message) (privateKey, publicKey)
    else pure (privateKey, publicKey)

/-! ## Loading -/

/-- The configuration and all its problems, in the order in which they are found. -/
def parse (env : ProcessEnv) : Parsed AppConfig := do
  let nodeEnv := orElse ((env "NODE_ENV").map trim) "development"
  let port ← optionalInt runtime env "PORT" 3000
  let issuer ← requireString env "JWT_ISSUER"
  let audience ← requireString env "JWT_AUDIENCE"
  let kid ← requireString env "JWT_KID"
  let keys ← loadKeys runtime library env
  let additionalVerifyKeys ← parseAdditionalVerifyKeys runtime (env "JWT_ADDITIONAL_VERIFY_KEYS")
  let accessTtlSeconds ← optionalInt runtime env "ACCESS_TTL_SECONDS" 900
  let refreshTtlSeconds ← optionalInt runtime env "REFRESH_TTL_SECONDS" (60 * 60 * 24 * 14)
  let sameSite ← parseSameSite runtime env
  let databaseUrl ← requireString env "DATABASE_URL"
  let redisUrl ← requireString env "AUTH_REDIS_URL"
  let smtpPort ← optionalInt runtime env "SMTP_PORT" 1025
  return {
    env := nodeEnv
    port
    jwt := {
      issuer, audience, kid, additionalVerifyKeys, accessTtlSeconds, refreshTtlSeconds
      privateKey := keys.1
      publicKey := keys.2 }
    cookie := {
      domain := truthy ((env "COOKIE_DOMAIN").map trim)
      secure := ((env "COOKIE_SECURE").map fun value => runtime.toLowerCase (trim value)).getD "true"
        ≠ "false"
      sameSite }
    apiDocs := {
      enabled := parseBool runtime (env "API_DOCS_ENABLED") (nodeEnv ≠ "production")
      path := orElse ((env "API_DOCS_PATH").map trim) "docs" }
    db := { databaseUrl, redisUrl }
    mail := {
      smtpHost := orElse ((env "SMTP_HOST").map trim) "auth-mailpit"
      smtpPort
      sender := orElse ((env "MAIL_FROM").map trim) "no-reply@arac.local"
      appBaseUrl := orElse ((env "APP_BASE_URL").map trim) "http://localhost:3013" } }

def load (env : ProcessEnv) : Except String AppConfig :=
  let parsed := parse runtime library env
  if parsed.errors = [] then .ok parsed.value
  else .error ("Invalid auth-service configuration:\n  - " ++
    String.intercalate "\n  - " parsed.errors)

end

end Arac.Config
