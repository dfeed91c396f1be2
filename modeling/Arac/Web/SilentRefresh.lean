/-
# Arac.Web.SilentRefresh -- the session cookies and the middleware of the web app

The auth service sets the refresh cookie with the path `/api/auth`, every way to the
browser keeps that path, and the middleware runs on no path below `/api`.  So the
middleware never sees the refresh cookie, and a browser whose access cookie has
expired is never let through with renewed cookies (`not_renewed`).
-/
import Arac.Auth.Service
import Arac.Sessions.InMemory
import Arac.Web.Cookies

namespace Arac.Web

open Arac.Theory Arac.Sessions Arac.Db Arac.Service Arac.Auth

set_option autoImplicit false

/-! ## The cookies of the auth service -/

def ACCESS_COOKIE : String := "arac_session"

def REFRESH_COOKIE : String := "arac_refresh"

def REFRESH_PATH : String := "/api/auth"

abbrev CookieConfig := Config.CookieConfig

/-- Cookie lifetime in ms from an expiry in unix seconds, floored at 0. -/
def maxAge (now expiresAt : Nat) : Nat := expiresAt * 1000 - now

section

variable (serialize : String → String → CookieOptions → String) (config : CookieConfig)

def CookieConfig.options (path : String) (maxAge : Nat) : CookieOptions :=
  { httpOnly := true, secure := config.secure, sameSite := config.sameSite
    domain := config.domain, path, maxAge }

/-- The headers that `setAuthCookies` adds to a response. -/
def setAuthCookies (now : Nat) (result : AuthResult) : List String :=
  [serialize ACCESS_COOKIE result.accessToken
      (config.options "/" (maxAge now result.accessExpiresAt)),
    serialize REFRESH_COOKIE result.refreshToken
      (config.options REFRESH_PATH (maxAge now result.refreshExpiresAt))]

end

/-! ## The middleware -/

def PUBLIC_PATHS : List String := ["/login", "/signup", "/forgot-password", "/reset-password"]

/-- What the middleware runs on. -/
structure Edge where
  /-- The numeric `exp` of a payload that can be decoded. -/
  payloadExp : String → Option Rat
  /-- `Number`, where `NaN` is `none`. -/
  number : Option String → Option Int
  /-- The headers of an answer that is ok to `POST /api/auth/refresh` with this
  refresh token. -/
  refreshAtGateway : String → Option (List String)

/-- The JWT is absent or within 5 s of its expiry. -/
def accessExpired (edge : Edge) (now : Nat) (jwt : Option String) : Bool :=
  match truthy jwt with
  | none => true
  | some jwt =>
      match edge.payloadExp jwt with
      | none => true
      | some exp => decide (exp * 1000 ≤ now + 5000)

inductive MiddlewareResponse where
  | next (cookies : List ResponseCookie)
  | redirect (pathname : String)
  deriving DecidableEq

/-- `req.cookies.get(name)?.value`. -/
def requestCookie (cookies : List (String × String)) (name : String) : Option String :=
  (cookies.reverse.find? (·.1 = name)).map Prod.snd

def isPublic (pathname : String) : Bool :=
  PUBLIC_PATHS.any fun p => pathname = p || (p ++ "/").toList.isPrefixOf pathname.toList

def middleware (edge : Edge) (now : Nat) (pathname : String) (cookies : List (String × String)) :
    MiddlewareResponse :=
  let access := requestCookie cookies ACCESS_COOKIE
  let refresh := requestCookie cookies REFRESH_COOKIE
  let refreshed := if accessExpired edge now access then
      (truthy refresh).bind edge.refreshAtGateway |>.map (applySetCookies edge.number)
    else none
  if accessExpired edge now access && refreshed.isNone && !isPublic pathname then .redirect "/login"
  else .next (refreshed.getD [])

/-- `/((?!api|_next/static|_next/image|favicon.ico|.*\..*).*)`. -/
def matcher (pathname : String) : Bool :=
  match pathname.toList with
  | '/' :: rest =>
      !("api".toList.isPrefixOf rest || "_next/static".toList.isPrefixOf rest ||
        "_next/image".toList.isPrefixOf rest ||
        -- the dot of the expression is any character
        ("favicon".toList.isPrefixOf rest && "ico".toList.isPrefixOf (rest.drop 8)) ||
        rest.contains '.') &&
      rest.all fun c => c ≠ '\n' && c ≠ '\r' && c.val ≠ 0x2028 && c.val ≠ 0x2029
  | _ => false

/-- No cookie with the path of the auth endpoints goes to a page. -/
theorem pathMatch_refresh_of_matcher {pathname : String} (page : matcher pathname = true) :
    pathMatch pathname REFRESH_PATH = false := by
  by_contra sent
  have pre := isPrefix_of_pathMatch (Bool.not_eq_false _ ▸ sent)
  obtain ⟨rest, eq⟩ := pre
  have chars : pathname.toList = '/' :: ("api".toList ++ ("/auth".toList ++ rest)) := by
    rw [← eq]
    simp [REFRESH_PATH]
  simp [matcher, chars] at page

/-! ## A session whose access token has run out -/

section

variable {σ : Type} (S : SessionStore σ) (env : Env)
  (serialize : String → String → CookieOptions → String) (config : CookieConfig)

/-- A login or a refresh that succeeds. -/
inductive IssuesTokens (w : World σ) (result : AuthResult) : Prop
  | login (draws : Draws) (email password : String) (w' : World σ)
      (run : (AuthService.login S env draws email password).run w = (.ok result, w'))
  | refresh (draws : Draws) (presented : String) (w' : World σ)
      (run : (AuthService.refresh S env draws presented).run w = (.ok result, w'))

/-- The browser holds the cookies of a login or a refresh: the access cookie has
expired or is gone, the refresh cookie is live, and the auth service would rotate it
now. -/
structure StaleSession (edge : Edge) (w : World σ) (jar : List StoredCookie) : Prop where
  issued : ∃ w₀ result d requestPath, IssuesTokens S env w₀ result ∧
    ∀ c ∈ jar, c.name = ACCESS_COOKIE ∨ c.name = REFRESH_COOKIE →
      c ∈ (received edge.number (setAuthCookies serialize config w₀.now result) d).map
        (ResponseCookie.store w₀.now requestPath)
  accessGone : ∀ c ∈ jar, c.name = ACCESS_COOKIE → ¬ c.Live w.now
  refreshHeld : ∃ c ∈ jar, c.name = REFRESH_COOKIE ∧ c.Live w.now ∧
    ∃ draws result w', (AuthService.refresh S env draws c.value).run w = (.ok result, w') ∧
      edge.refreshAtGateway c.value = some (setAuthCookies serialize config w.now result)

end

/-- The request is let through, with a new access and a new refresh cookie. -/
def MiddlewareResponse.Renewed (r : MiddlewareResponse) : Prop :=
  ∃ cookies, r = .next cookies ∧ (∃ c ∈ cookies, c.name = ACCESS_COOKIE) ∧
    ∃ c ∈ cookies, c.name = REFRESH_COOKIE

section

variable {σ : Type} {S : SessionStore σ} {env : Env}
  {serialize : String → String → CookieOptions → String} {config : CookieConfig} {edge : Edge}
  {w : World σ} {jar : List StoredCookie}

/-- A refresh cookie of the auth service keeps its path on the way to the browser. -/
theorem refresh_path (format : HeaderFormat serialize) {now₀ : Nat} {result : AuthResult}
    {d : Delivery} {requestPath : String} {c : StoredCookie}
    (member : c ∈ (received edge.number (setAuthCookies serialize config now₀ result) d).map
      (ResponseCookie.store now₀ requestPath)) (is_refresh : c.name = REFRESH_COOKIE) : c.path = REFRESH_PATH := by
  obtain ⟨r, r_in, rfl⟩ := List.mem_map.mp member
  obtain ⟨raw, raw_in, r_in⟩ := mem_received r_in
  have is_refresh : r.name = REFRESH_COOKIE := is_refresh
  rcases List.mem_cons.mp raw_in with rfl | raw_in
  · -- the access cookie has another name
    have header : IsHeader ACCESS_COOKIE "/" _ := format ACCESS_COOKIE result.accessToken
      (config.options "/" (maxAge now₀ result.accessExpiresAt)) (by decide) (by decide)
      (show ';' ∉ "/".toList by decide)
    have kept := received_of_isHeader header (by decide) (by decide) (by decide) (by decide)
      (by decide) (by decide) r_in
    rw [kept.1] at is_refresh
    exact absurd is_refresh (by decide)
  · obtain rfl := List.mem_singleton.mp raw_in
    have header : IsHeader REFRESH_COOKIE REFRESH_PATH _ := format REFRESH_COOKIE result.refreshToken
      (config.options REFRESH_PATH (maxAge now₀ result.refreshExpiresAt)) (by decide) (by decide)
      (show ';' ∉ REFRESH_PATH.toList by decide)
    have kept := received_of_isHeader header (by decide) (by decide) (by decide) (by decide)
      (by decide) (by decide) r_in
    have stored : (r.store now₀ requestPath).path =
      if r.path.toList.head? = some '/' then r.path else defaultPath requestPath := rfl
    rw [stored, kept.2]
    exact if_pos (by decide)

/-- On a page neither cookie is in the request. -/
theorem requestCookie_stale (format : HeaderFormat serialize)
    (stale : StaleSession S env serialize config edge w jar) {pathname : String}
    (page : matcher pathname = true) {name : String}
    (ours : name = ACCESS_COOKIE ∨ name = REFRESH_COOKIE) :
    requestCookie (cookiesFor w.now pathname jar) name = none := by
  refine Option.map_eq_none_iff.mpr (List.find?_eq_none.mpr ?_)
  intro pair member
  simp only [decide_eq_true_eq]
  intro named
  obtain ⟨c, sent, rfl⟩ := List.mem_map.mp (List.mem_reverse.mp member)
  obtain ⟨in_jar, sends⟩ := List.mem_filter.mp sent
  have sends := of_decide_eq_true sends
  have named : c.name = name := named
  rcases ours with access | refresh
  · exact stale.accessGone c in_jar (named.trans access) sends.1
  · obtain ⟨w₀, result, d, requestPath, -, only⟩ := stale.issued
    have path := refresh_path format (only c in_jar (Or.inr (named.trans refresh)))
      (named.trans refresh)
    have matched := sends.2
    rw [path, pathMatch_refresh_of_matcher page] at matched
    cases matched

/-- The middleware sees no session: it lets the request for a public page through as
it is and redirects every other one. -/
theorem middleware_stale (format : HeaderFormat serialize)
    (stale : StaleSession S env serialize config edge w jar) {pathname : String}
    (page : matcher pathname = true) :
    middleware edge w.now pathname (cookiesFor w.now pathname jar) =
      if isPublic pathname then .next [] else .redirect "/login" := by
  have access := requestCookie_stale format stale page (Or.inl rfl)
  have refresh := requestCookie_stale format stale page (Or.inr rfl)
  have expired : accessExpired edge w.now none = true := rfl
  have nothing : truthy none = none := rfl
  simp only [middleware, access, refresh, expired, nothing, Option.bind_none, Option.map_none]
  cases isPublic pathname <;> rfl

/-- No such request is let through with renewed cookies. -/
theorem not_renewed (format : HeaderFormat serialize)
    (stale : StaleSession S env serialize config edge w jar) {pathname : String}
    (page : matcher pathname = true) :
    ¬ (middleware edge w.now pathname (cookiesFor w.now pathname jar)).Renewed := by
  rintro ⟨cookies, next, ⟨c, member, -⟩, -⟩
  rw [middleware_stale format stale page] at next
  split at next
  · cases next
    cases member
  · cases next

end

/-! ## Seventeen minutes after a login -/

def clean (s : String) : String := String.ofList (s.toList.filter (· ≠ ';'))

theorem clean_semi (s : String) : ';' ∉ (clean s).toList := by simp [clean]

/-- Headers with the attributes that matter here. -/
def sampleSerialize (name value : String) (options : CookieOptions) : String :=
  renderHeader name (clean value)
    [("Max-Age", some (clean (toString (options.maxAge / 1000)))), ("Path", some options.path),
      ("HttpOnly", none)]

theorem sampleSerialize_format : HeaderFormat sampleSerialize := by
  intro name value options _ _ path
  refine ⟨clean value, _, rfl, clean_semi value, ?_, by simp, by simp⟩
  intro attr member
  simp only [List.mem_cons, List.not_mem_nil, or_false] at member
  rcases member with rfl | rfl | rfl
  · exact ⟨by simp [attributeNames], fun v here => by cases here; exact clean_semi _⟩
  · exact ⟨by simp [attributeNames], fun v here => by cases here; exact path⟩
  · exact ⟨by simp [attributeNames], fun v here => by cases here⟩

def sampleConfig : CookieConfig := { domain := none, secure := true, sameSite := .lax }

/-- The answer to the login. -/
def loggedIn : AuthResult where
  accessToken := "hr@acme.test"
  accessExpiresAt := 900
  refreshToken := sampleTokens.1
  refreshExpiresAt := 1209600
  user := { id := "hr@acme.test", name := "Harvey HR", email := "hr@acme.test", department := "hr" }

/-- The answer to the refresh that the middleware does not ask for. -/
def rotated : AuthResult :=
  { loggedIn with
    accessExpiresAt := 1900, refreshToken := sampleTokens.2.1, refreshExpiresAt := 1210600 }

def digits (s : String) : Int := s.toList.foldl (fun n c => 10 * n + (c.toNat - 48 : Nat)) 0

def sampleEdge : Edge where
  payloadExp _ := none
  number v := v.map digits
  refreshAtGateway token :=
    if token = sampleTokens.1 then some (setAuthCookies sampleSerialize sampleConfig 1000000 rotated)
    else none

def staleWorld : World InMemorySessions :=
  ((AuthService.login (inMemorySessionStore sampleSha256 .default) verifyingEnv sampleDraws
    "hr@acme.test" "argon2id$").run (World.fresh .empty 0 staffed)).2.elapse
      (inMemorySessionStore sampleSha256 .default) 1000000

def staleJar : List StoredCookie :=
  [⟨ACCESS_COOKIE, "hr@acme.test", "/", some 900000⟩,
    ⟨REFRESH_COOKIE, sampleTokens.1, REFRESH_PATH, some 1209600000⟩]

theorem staleJar_received : staleJar =
    (received sampleEdge.number (setAuthCookies sampleSerialize sampleConfig 0 loggedIn)
      .serverAction).map (ResponseCookie.store 0 "/login") := by decide +kernel

theorem staleSession : StaleSession (inMemorySessionStore sampleSha256 .default) verifyingEnv
    sampleSerialize sampleConfig sampleEdge staleWorld staleJar where
  issued := by
    refine ⟨World.fresh .empty 0 staffed, loggedIn, .serverAction, "/login", ?_, ?_⟩
    · exact .login sampleDraws "hr@acme.test" "argon2id$" _ (Prod.ext (by decide +kernel) rfl)
    · intro c member _
      rwa [staleJar_received] at member
  accessGone := by decide +kernel
  refreshHeld := by
    refine ⟨_, List.mem_cons_of_mem _ List.mem_cons_self, rfl, ?_, ?_⟩
    · decide +kernel
    · exact ⟨{ sampleDraws with token := sampleTokens.2.1 }, rotated, _,
        Prod.ext (by decide +kernel) rfl, by decide +kernel⟩

theorem not_renewed_account :
    ¬ (middleware sampleEdge staleWorld.now "/account"
      (cookiesFor staleWorld.now "/account" staleJar)).Renewed :=
  not_renewed sampleSerialize_format staleSession (by decide)

theorem not_always_renewed : ¬ ∀ {σ : Type} (S : SessionStore σ) (env : Env)
    (serialize : String → String → CookieOptions → String) (config : CookieConfig) (edge : Edge)
    (w : World σ) (jar : List StoredCookie) (pathname : String),
    HeaderFormat serialize → StaleSession S env serialize config edge w jar →
    matcher pathname = true →
    (middleware edge w.now pathname (cookiesFor w.now pathname jar)).Renewed := by
  intro always
  obtain ⟨cookies, next, -⟩ := always _ _ _ _ _ _ _ "/account" sampleSerialize_format staleSession
    (by decide)
  have redirected : middleware sampleEdge staleWorld.now "/account"
      (cookiesFor staleWorld.now "/account" staleJar) = .redirect "/login" := by decide +kernel
  rw [redirected] at next
  cases next

end Arac.Web
