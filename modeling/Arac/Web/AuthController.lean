/-
# Arac.Web.AuthController -- refresh, logout and the cookies they leave

`refresh` and `logout` read the refresh cookie from the `Cookie` header, call the
service and set or clear both auth cookies.  Every error path is said to clear the
cookies.  Three paths do not: percent-decoding the cookie throws before anything is
cleared, so does a missing refresh token, and `logout` clears only after the revocation
has answered.

A browser keys its cookies by name, domain and path, so a cookie is replaced or removed
by a header with the same key.  `definite_iff` says of each handler exactly when both
cookies end up settled; lifetimes are left aside.
-/
import Arac.Theory.Faults
import Arac.Web.SilentRefresh

namespace Arac.Web

open Arac.Theory Arac.Sessions Arac.Db Arac.Service Arac.Auth

set_option autoImplicit false

/-! ## `decodeURIComponent` -/

/-- What a text is read as: characters, and the bytes of percent sequences. -/
inductive PercentUnit where
  | plain (c : Char)
  | byte (n : Nat)

def hexValue (c : Char) : Option Nat :=
  if '0' ≤ c ∧ c ≤ '9' then some (c.toNat - 48)
  else if 'A' ≤ c ∧ c ≤ 'F' then some (c.toNat - 55)
  else if 'a' ≤ c ∧ c ≤ 'f' then some (c.toNat - 87)
  else none

/-- The units of a text; none where a percent sign is not followed by two hex digits. -/
def percentUnits : List Char → Option (List PercentUnit)
  | '%' :: a :: b :: rest => do
      let high ← hexValue a
      let low ← hexValue b
      let units ← percentUnits rest
      return .byte (high * 16 + low) :: units
  | '%' :: _ => none
  | c :: rest => (percentUnits rest).map (.plain c :: ·)
  | [] => some []

/-- UTF-8, where `need` continuation bytes are missing from a character that has the bits
`bits` so far and must not be below `least`. -/
def decodeUnits : (need bits least : Nat) → List PercentUnit → Option (List Char)
  | 0, _, _, [] => some []
  | _ + 1, _, _, [] => none
  | 0, _, _, .plain c :: rest => (decodeUnits 0 0 0 rest).map (c :: ·)
  | _ + 1, _, _, .plain _ :: _ => none
  | 0, _, _, .byte n :: rest =>
      if n < 0x80 then (decodeUnits 0 0 0 rest).map (Char.ofNat n :: ·)
      else if n < 0xC0 then none
      else if n < 0xE0 then decodeUnits 1 (n - 0xC0) 0x80 rest
      else if n < 0xF0 then decodeUnits 2 (n - 0xE0) 0x800 rest
      else if n < 0xF8 then decodeUnits 3 (n - 0xF0) 0x10000 rest
      else none
  | need + 1, bits, least, .byte n :: rest =>
      if 0x80 ≤ n ∧ n < 0xC0 then
        let bits := bits * 64 + (n - 0x80)
        if need = 0 then
          if least ≤ bits ∧ bits.isValidChar then (decodeUnits 0 0 0 rest).map (Char.ofNat bits :: ·)
          else none
        else decodeUnits need bits least rest
      else none

/-- None where it throws a `URIError`. -/
def decodeURIComponent (s : String) : Option String := do
  let units ← percentUnits s.toList
  let chars ← decodeUnits 0 0 0 units
  return String.ofList chars

/-- Without a percent sign a text decodes to itself. -/
theorem decodeURIComponent_of_plain {s : String} (plain : '%' ∉ s.toList) :
    decodeURIComponent s = some s := by
  have units : ∀ l : List Char, '%' ∉ l → percentUnits l = some (l.map .plain) := by
    intro l plain
    induction l with
    | nil => rfl
    | cons c l ih =>
        simp only [List.mem_cons, not_or] at plain
        rw [percentUnits, ih plain.2]
        · rfl
        · rintro _ _ _ rfl
          exact absurd rfl plain.1
        · rintro rfl
          exact absurd rfl plain.1
  have chars : ∀ l : List Char, decodeUnits 0 0 0 (l.map .plain) = some l := by
    intro l
    induction l with
    | nil => rfl
    | cons c l ih => rw [List.map_cons, decodeUnits, ih, Option.map_some]
  simp only [decodeURIComponent, units _ plain, chars, Option.bind_eq_bind, Option.bind_some,
    Option.pure_def, String.ofList_toList]

/-! ## The controller -/

/-- What a handler throws. -/
inductive Thrown where
  | service (e : ServiceError)
  | uriError
  deriving DecidableEq

/-- A call on the response. -/
inductive CookieCall where
  | cookie (name value : String) (options : CookieOptions)
  | clearCookie (name : String) (domain : Option String) (path : String)

structure Response (α : Type) where
  result : Except Thrown α
  cookies : List CookieCall

namespace AuthController

/-- The loop over the parts of the header. -/
def readParts (name : String) : List String → Except Thrown (Option String)
  | [] => .ok none
  | part :: parts =>
      if '=' ∈ part.toList then
        if trim (String.ofList (part.toList.takeWhile (· ≠ '='))) = name then
          match decodeURIComponent (trim (String.ofList (part.toList.dropWhile (· ≠ '=')).tail)) with
          | none => .error .uriError
          | some value => .ok (some value)
        else readParts name parts
      else readParts name parts

/-- A single cookie of the request's `Cookie` header. -/
def readCookie (header : Option String) (name : String) : Except Thrown (Option String) :=
  match truthy header with
  | none => .ok none
  | some header => readParts name (split ';' header)

/-- A header without a percent sign can be read. -/
theorem readCookie_of_plain {header : Option String} (plain : ∀ h ∈ header, '%' ∉ h.toList)
    (name : String) : ∃ token, readCookie header name = .ok token := by
  have loop : ∀ parts : List String, (∀ part ∈ parts, '%' ∉ part.toList) →
      ∃ token, readParts name parts = .ok token := by
    intro parts plain
    induction parts with
    | nil => exact ⟨none, rfl⟩
    | cons part parts ih =>
        obtain ⟨here, later⟩ := List.forall_mem_cons.mp plain
        have clean : '%' ∉ (trim (String.ofList (part.toList.dropWhile (· ≠ '=')).tail)).toList := by
          rw [toList_trim, String.toList_ofList]
          intro member
          have inRest := List.mem_of_mem_tail (mem_of_mem_trimChars member)
          exact here ((List.dropWhile_sublist _).subset inRest)
        rw [readParts, decodeURIComponent_of_plain clean]
        split
        · split
          · exact ⟨_, rfl⟩
          · exact ih later
        · exact ih later
  unfold readCookie
  cases present : truthy header with
  | none => exact ⟨none, rfl⟩
  | some h =>
      have given : h ∈ header := (Option.filter_eq_some_iff.mp present).1
      exact loop _ fun part member percent => plain h given (subset_of_mem_split member percent)

section

variable (config : CookieConfig)

def setAuthCookies (now : Nat) (result : AuthResult) : List CookieCall :=
  [.cookie ACCESS_COOKIE result.accessToken (config.options "/" (maxAge now result.accessExpiresAt)),
    .cookie REFRESH_COOKIE result.refreshToken
      (config.options REFRESH_PATH (maxAge now result.refreshExpiresAt))]

def clearAuthCookies : List CookieCall :=
  [.clearCookie ACCESS_COOKIE config.domain "/", .clearCookie REFRESH_COOKIE config.domain REFRESH_PATH]

variable {σ : Type} (S : SessionStore σ) (env : Env) (fates : Nat → Fate ServiceError)

/-- `POST auth/refresh`; the fates are those of the calls the service makes. -/
def refresh (draws : Draws) (header : Option String) (w : World σ) :
    Response SessionUser × World σ :=
  match readCookie header REFRESH_COOKIE with
  | .error e => (⟨.error e, []⟩, w)
  | .ok token =>
      match truthy token with
      | none => (⟨.error (.service (.unauthorized "Missing refresh token")), []⟩, w)
      | some token =>
          match (AuthService.refresh S env draws token).runUnder fates 0 w with
          | (.ok result, _, w') => (⟨.ok result.user, setAuthCookies config w'.now result⟩, w')
          | (.error e, _, w') => (⟨.error (.service e), clearAuthCookies config⟩, w')

/-- `POST auth/logout`. -/
def logout (header : Option String) (w : World σ) : Response Unit × World σ :=
  match readCookie header REFRESH_COOKIE with
  | .error e => (⟨.error e, []⟩, w)
  | .ok token =>
      match truthy token with
      | none => (⟨.ok (), clearAuthCookies config⟩, w)
      | some token =>
          match (AuthService.logout S token).runUnder fates 0 w with
          | (.ok (), _, w') => (⟨.ok (), clearAuthCookies config⟩, w')
          | (.error e, _, w') => (⟨.error (.service e), []⟩, w')

end

/-- The headers of the set cookies are those the web app receives. -/
theorem headers_setAuthCookies (serialize : String → String → CookieOptions → String)
    (config : CookieConfig) (now : Nat) (result : AuthResult) :
    (setAuthCookies config now result).filterMap (fun
      | .cookie name value options => some (serialize name value options)
      | .clearCookie _ _ _ => none) = Web.setAuthCookies serialize config now result := rfl

end AuthController

/-! ## The browser's cookies by key -/

structure CookieKey where
  name : String
  domain : Option String
  path : String
  deriving DecidableEq

/-- The stored value under each key. -/
abbrev Jar := CookieKey → Option String

def CookieCall.key : CookieCall → CookieKey
  | .cookie name _ options => ⟨name, options.domain, options.path⟩
  | .clearCookie name domain path => ⟨name, domain, path⟩

def CookieCall.stored : CookieCall → Option String
  | .cookie _ value _ => some value
  | .clearCookie _ _ _ => none

/-- The jar after the headers of a response. -/
def Jar.receive (jar : Jar) (calls : List CookieCall) : Jar :=
  calls.foldl (fun jar call => Function.update jar call.key call.stored) jar

namespace CookieConfig

variable (config : CookieConfig)

def accessKey : CookieKey := ⟨ACCESS_COOKIE, config.domain, "/"⟩

def refreshKey : CookieKey := ⟨REFRESH_COOKIE, config.domain, REFRESH_PATH⟩

end CookieConfig

/-- Neither auth cookie is left. -/
def Jar.Cleared (config : CookieConfig) (jar : Jar) : Prop :=
  jar config.accessKey = none ∧ jar config.refreshKey = none

/-- Both auth cookies are those of the result. -/
def Jar.Holds (config : CookieConfig) (result : AuthResult) (jar : Jar) : Prop :=
  jar config.accessKey = some result.accessToken ∧ jar config.refreshKey = some result.refreshToken

section

variable {config : CookieConfig} {jar : Jar}

/-- Two headers with different keys. -/
theorem receive_pair {first second : CookieCall} (apart : first.key ≠ second.key) :
    jar.receive [first, second] first.key = first.stored ∧
      jar.receive [first, second] second.key = second.stored := by
  unfold Jar.receive
  simp only [List.foldl_cons, List.foldl_nil]
  rw [Function.update_of_ne apart, Function.update_self, Function.update_self]
  exact ⟨rfl, rfl⟩

theorem keys_ne : config.accessKey ≠ config.refreshKey := by
  intro same
  have names : ACCESS_COOKIE = REFRESH_COOKIE := congrArg CookieKey.name same
  exact absurd names (by decide)

theorem holds_setAuthCookies (now : Nat) (result : AuthResult) :
    (jar.receive (AuthController.setAuthCookies config now result)).Holds config result :=
  receive_pair keys_ne

theorem cleared_clearAuthCookies :
    (jar.receive (AuthController.clearAuthCookies config)).Cleared config :=
  receive_pair keys_ne

end

/-! ## Settled cookies -/

namespace AuthController

section

variable {σ : Type} (S : SessionStore σ) (env : Env) (fates : Nat → Fate ServiceError)
  (draws : Draws) (config : CookieConfig) (header : Option String) (w : World σ) (jar : Jar)

/-- A logout ends with both cookies cleared. -/
def LogoutSettles : Prop :=
  (jar.receive (logout config S fates header w).1.cookies).Cleared config

/-- A refresh ends with both cookies set to the tokens of the rotation when it succeeds,
and with both cleared when it does not. -/
def RefreshSettles : Prop :=
  let after := jar.receive (refresh config S env fates draws header w).1.cookies
  match (refresh config S env fates draws header w).1.result with
  | .ok _ => ∃ token result, readCookie header REFRESH_COOKIE = .ok (some token) ∧
      ((AuthService.refresh S env draws token).runUnder fates 0 w).1 = .ok result ∧
      after.Holds config result
  | .error _ => after.Cleared config

/-- The refresh cookie can be decoded, and when there is one its revocation answers. -/
def LogoutReaches : Prop :=
  ∃ token, readCookie header REFRESH_COOKIE = .ok token ∧
    (truthy token = none ∨ fates 0 = .answers)

/-- The header holds a refresh cookie that decodes to a token. -/
def PresentsToken : Prop :=
  ∃ token, readCookie header REFRESH_COOKIE = .ok (some token) ∧ token ≠ ""

variable {S env fates draws config header w jar}

theorem logout_answers_iff (S : SessionStore σ) (fates : Nat → Fate ServiceError) (token : String)
    (w : World σ) : ((AuthService.logout S token).runUnder fates 0 w).1 = .ok () ↔ fates 0 = .answers := by
  have single : (AuthService.logout S token).runUnder fates 0 w =
      (Prog.await (fun w => ((), { w with
        sessions := S.machine.perform w.sessions (.revoke token) })) Prog.ret).runUnder fates 0 w := rfl
  rw [single, Prog.runUnder_await]
  cases fates 0 with
  | answers => exact iff_of_true rfl rfl
  | throws applied e =>
      cases applied <;> exact iff_of_false (fun ok => by cases ok) (fun same => by cases same)

theorem logoutSettles_iff :
    LogoutSettles S fates config header w jar ↔
      jar.Cleared config ∨ LogoutReaches fates header := by
  unfold LogoutSettles LogoutReaches logout
  cases read : readCookie header REFRESH_COOKIE with
  | error e => simp [Jar.receive]
  | ok token =>
      dsimp only
      cases present : truthy token with
      | none => exact iff_of_true cleared_clearAuthCookies (Or.inr ⟨token, rfl, Or.inl present⟩)
      | some value =>
          have answers := logout_answers_iff S fates value w
          rcases ran : (AuthService.logout S value).runUnder fates 0 w with ⟨outcome, calls, w'⟩
          rw [ran] at answers
          cases outcome with
          | ok u =>
              simp only [ran]
              exact iff_of_true cleared_clearAuthCookies
                (Or.inr ⟨token, rfl, Or.inr (answers.mp rfl)⟩)
          | error e =>
              -- nothing is cleared
              have failed : ¬ ∃ t, Except.ok (ε := Thrown) token = .ok t ∧
                  (truthy t = none ∨ fates 0 = .answers) := by
                rintro ⟨t, same, absent | answered⟩
                · cases same
                  rw [present] at absent
                  cases absent
                · cases answers.mpr answered
              simp only [ran, failed, or_false]
              rfl

theorem refreshSettles_iff :
    RefreshSettles S env fates draws config header w jar ↔
      jar.Cleared config ∨ PresentsToken header := by
  unfold RefreshSettles PresentsToken refresh
  cases read : readCookie header REFRESH_COOKIE with
  | error e => simp [Jar.receive]
  | ok token =>
      dsimp only
      cases present : truthy token with
      | none =>
          have absent : ¬ ∃ t, Except.ok (ε := Thrown) token = .ok (some t) ∧ t ≠ "" := by
            rintro ⟨t, same, nonempty⟩
            cases same
            simp [truthy, nonempty] at present
          simp only [absent, or_false]
          rfl
      | some value =>
          obtain ⟨rfl, nonempty⟩ : token = some value ∧ value ≠ "" := by
            simpa [truthy, Option.filter_eq_some_iff] using present
          have presents : ∃ t, Except.ok (ε := Thrown) (some value) = .ok (some t) ∧ t ≠ "" :=
            ⟨value, rfl, nonempty⟩
          simp only [presents, or_true, iff_true]
          rcases ran : (AuthService.refresh S env draws value).runUnder fates 0 w with
            ⟨outcome, calls, w'⟩
          cases outcome with
          | ok result => exact ⟨value, result, rfl, by rw [ran], holds_setAuthCookies _ result⟩
          | error e => exact cleared_clearAuthCookies

/-- Without a percent sign in the header a logout depends on the revocation alone. -/
theorem logoutReaches_of_plain (plain : ∀ h ∈ header, '%' ∉ h.toList) (answers : fates 0 = .answers) :
    LogoutReaches fates header := by
  obtain ⟨token, read⟩ := readCookie_of_plain plain REFRESH_COOKIE
  exact ⟨token, read, Or.inr answers⟩

/-- The cookies are settled exactly when there were none, or: on logout, the refresh
cookie decodes and its revocation answers; on refresh, the header holds a refresh token
that decodes. -/
theorem definite_iff :
    (LogoutSettles S fates config header w jar ↔
      jar.Cleared config ∨ LogoutReaches fates header) ∧
    (RefreshSettles S env fates draws config header w jar ↔
      jar.Cleared config ∨ PresentsToken header) :=
  ⟨logoutSettles_iff, refreshSettles_iff⟩

end

def sampleCookieConfig : CookieConfig := ⟨none, true, .lax⟩

/-- With a refresh cookie that cannot be decoded, neither handler touches the cookies. -/
theorem not_always_settles :
    ¬ ∀ (σ : Type) (S : SessionStore σ) (env : Env) (fates : Nat → Fate ServiceError)
      (draws : Draws) (config : CookieConfig) (header : Option String) (w : World σ) (jar : Jar),
      LogoutSettles S fates config header w jar ∧
        RefreshSettles S env fates draws config header w jar := by
  intro always
  obtain ⟨-, settled⟩ := always InMemorySessions (inMemorySessionStore sampleSha256 .default)
    sampleEnv (fun _ => .answers) sampleDraws sampleCookieConfig
    (some "arac_session=stale; arac_refresh=%E0%A4%A") (World.fresh .empty 0 staffed)
    fun _ => some "stale"
  have thrown : readCookie (some "arac_session=stale; arac_refresh=%E0%A4%A") REFRESH_COOKIE =
      .error .uriError := by decide +kernel
  rcases refreshSettles_iff.mp settled with cleared | ⟨token, read, -⟩
  · cases cleared.1
  · rw [thrown] at read
    cases read

end AuthController

end Arac.Web
