/-
# Arac.Http.Proxy -- the web app in front of the gateway

Below `/api/auth` the web app has two route handlers.  A catch-all forwards a request to the
gateway once its `Origin` is that of the app; a route of its own serves the sign-out form.
That one is more specific, so the check of the catch-all never sees a sign-out.  The pages of
the app, their middleware and their server actions are not modelled.

`cross_origin_run` says what the two handlers leave to other sites: whatever these make the
browser send below `/api/auth`, what comes of it are revocations of refresh tokens that the
cookies of the browser hold, and nothing else.
-/
import Arac.Http.Failures

namespace Arac.Http

open Arac.Theory Arac.Sessions Arac.Db Arac.Service Arac.Auth Arac.Web Arac.Mediation

set_option autoImplicit false

structure WebApp where
  /-- `req.nextUrl.origin`. -/
  origin : String
  /-- The path of the address that these segments, joined, are fetched at. -/
  resolve : List String → List String
  /-- The text of the cookie jar that is read from a `Cookie` header. -/
  jar : Option String → String

inductive WebAnswer where
  | upstream (answer : Answer)
  /-- `Cross-origin request blocked`. -/
  | blocked
  /-- To `/login`, with both cookies cleared. -/
  | signedOut
  | notAllowed

namespace WebApp

variable (web : WebApp)

def sameOriginOrSafe (r : Request) : Bool :=
  if r.method = .get || r.method = .head then true
  else match truthy (r.headers "origin") with
    | none => true
    | some origin => origin = web.origin

def FORWARD_REQUEST_HEADERS : List String := ["content-type", "cookie", "authorization"]

/-- What the catch-all sends to the gateway. -/
def upstreamRequest (r : Request) (segments : List String) : Request where
  method := r.method
  path := web.resolve segments
  headers name := if name ∈ FORWARD_REQUEST_HEADERS then truthy (r.headers name) else none
  body := if r.method = .get || r.method = .head then "" else r.body

/-- What the sign-out route sends to the gateway. -/
def logoutRequest (r : Request) : Request where
  method := .post
  path := ["api", "auth", "logout"]
  headers name := if name = "cookie" then some (web.jar (r.headers "cookie")) else none
  body := ""

section

variable {σ : Type} (app : App σ) (validator : Validator)

def proxy (draws : Draws) (r : Request) (segments : List String) (w : World σ) : WebAnswer × World σ :=
  if web.sameOriginOrSafe r then
    let (answer, w') := Gateway.serve app validator draws (web.upstreamRequest r segments) w
    (.upstream answer, w')
  else (.blocked, w)

/-- The route of the form; what the gateway answers does not matter. -/
def logout (draws : Draws) (r : Request) (w : World σ) : WebAnswer × World σ :=
  (.signedOut, (Gateway.serve app validator draws (web.logoutRequest r) w).2)

/-- The route handlers below `/api/auth`; what is not for them is left to the rest of the app.
The catch-all needs a segment, and exports `GET`, which serves `HEAD` too, and `POST`. -/
def serve (draws : Draws) (r : Request) (w : World σ) : Option (WebAnswer × World σ) :=
  match r.path with
  | ["api", "auth", "logout"] =>
      some (if r.method = .post then web.logout app validator draws r w else (.notAllowed, w))
  | "api" :: "auth" :: segment :: segments =>
      some (if r.method = .get || r.method = .head || r.method = .post then
        web.proxy app validator draws r (segment :: segments) w
      else (.notAllowed, w))
  | _ => none

end

end WebApp

/-! ## Signing out -/

section

variable {σ : Type} {app : App σ} {validator : Validator} {draws : Draws} {w w' : World σ}

/-- Revoke a refresh token. -/
def revoked (S : SessionStore σ) (w : World σ) (token : String) : World σ :=
  { w with sessions := S.machine.perform w.sessions (.revoke token) }

theorem logout_world (app : App σ) (headers : Headers) (w : World σ) :
    (app.logout headers w).2 = w ∨ ∃ token,
      AuthController.readCookie (headers "cookie") REFRESH_COOKIE = .ok (some token) ∧
        (app.logout headers w).2 = revoked app.store w token := by
  unfold App.logout AuthController.logout
  cases read : AuthController.readCookie (headers "cookie") REFRESH_COOKIE with
  | error e => exact Or.inl rfl
  | ok token =>
      dsimp only
      cases present : truthy token with
      | none => exact Or.inl rfl
      | some value =>
          obtain rfl : token = some value := (Option.filter_eq_some_iff.mp present).1
          exact Or.inr ⟨value, rfl, rfl⟩

/-- The gateway and the auth service route a sign-out to `logout`. -/
theorem logoutRequest_world (app : App σ) (validator : Validator) (draws : Draws) (web : WebApp)
    (r : Request) (w : World σ) :
    (Gateway.serve app validator draws (web.logoutRequest r) w).2 = w ∨ ∃ token,
      AuthController.readCookie (some (web.jar (r.headers "cookie"))) REFRESH_COOKIE = .ok (some token) ∧
        (Gateway.serve app validator draws (web.logoutRequest r) w).2 = revoked app.store w token := by
  have sent : ∃ forwarded, forward (web.logoutRequest r) = some (.authService, forwarded) ∧
      forwarded.method = .post ∧ forwarded.path = ["auth", "logout"] ∧
      forwarded.headers "cookie" = some (web.jar (r.headers "cookie")) :=
    ⟨_, rfl, rfl, rfl, rfl⟩
  obtain ⟨forwarded, sent, method, path, cookie⟩ := sent
  unfold Gateway.serve
  rw [sent]
  dsimp only
  unfold App.serve
  cases app.parseBody (forwarded.headers "content-type") forwarded.body with
  | none => exact Or.inl rfl
  | some json =>
      have found : dispatch routes (App.routed .post) ["auth", "logout"] = some (.logout, []) := by decide
      simp only [method, path, found]
      have signs := logout_world app forwarded.headers w
      rw [cookie] at signs
      exact signs

/-! ## Requests from other sites -/

/-- A request that another site may have made the browser send: one that is no `GET` or `HEAD`
names the site as its `Origin`. -/
def CrossSite (web : WebApp) (r : Request) : Prop :=
  r.method = .get ∨ r.method = .head ∨
    ∃ origin, r.headers "origin" = some origin ∧ origin ≠ "" ∧ origin ≠ web.origin

theorem proxy_crossSite {web : WebApp} {r : Request} (crossSite : CrossSite web r)
    (segments : List String) (w : World σ) :
    (web.proxy app validator draws r segments w).2 = w := by
  unfold WebApp.proxy
  split
  · rename_i passed
    -- only a `GET` or a `HEAD` gets here
    have get : App.routed r.method = .get := by
      rcases crossSite with get | head | ⟨origin, given, nonempty, other⟩
      · rw [get]
        rfl
      · rw [head]
        rfl
      · have named : truthy (r.headers "origin") = some origin := by
          rw [given]
          simp [truthy, nonempty]
        unfold WebApp.sameOriginOrSafe at passed
        rw [named] at passed
        cases method : r.method <;> simp [method, other, App.routed] at passed ⊢
    exact gateway_get get
  · rfl

theorem serve_crossSite {web : WebApp} {r : Request} (crossSite : CrossSite web r) {w w' : World σ}
    {answer : WebAnswer} (served : web.serve app validator draws r w = some (answer, w')) :
    w' = w ∨ ∃ token,
      AuthController.readCookie (some (web.jar (r.headers "cookie"))) REFRESH_COOKIE =
        .ok (some token) ∧ w' = revoked app.store w token := by
  unfold WebApp.serve at served
  split at served
  · obtain rfl := congrArg Prod.snd (Option.some.inj served)
    split
    · exact logoutRequest_world app validator draws web r w
    · exact Or.inl rfl
  · obtain rfl := congrArg Prod.snd (Option.some.inj served)
    left
    split
    · exact proxy_crossSite crossSite _ w
    · rfl
  · cases served

/-- Another site makes the browser send a request below `/api/auth`, with cookies that it
`sends`, or time passes. -/
inductive CrossOrigin (web : WebApp) (app : App σ) (validator : Validator)
    (sends : Option String → Prop) : World σ → World σ → Prop
  | request {w w' : World σ} (draws : Draws) (r : Request) (crossSite : CrossSite web r)
      (cookies : sends (r.headers "cookie")) {answer : WebAnswer}
      (served : web.serve app validator draws r w = some (answer, w')) :
      CrossOrigin web app validator sends w w'
  | elapse (w : World σ) (ms : Nat) : CrossOrigin web app validator sends w (w.elapse app.store ms)

/-- The token is the refresh token of a cookie header that is sent. -/
def HeldBy (web : WebApp) (sends : Option String → Prop) (token : String) : Prop :=
  ∃ header, sends header ∧
    AuthController.readCookie (some (web.jar header)) REFRESH_COOKIE = .ok (some token)

/-- One of these refresh tokens is revoked, or time passes. -/
inductive Revokes (S : SessionStore σ) (held : String → Prop) : World σ → World σ → Prop
  | token {token : String} (mine : held token) (w : World σ) : Revokes S held w (revoked S w token)
  | elapse (w : World σ) (ms : Nat) : Revokes S held w (w.elapse S ms)

theorem Revokes.kept {S : SessionStore σ} {held : String → Prop} (step : Revokes S held w w') :
    Retained w w' ∧ ∀ key userId, w'.resets.get key = some userId → w.resets.get key = some userId := by
  cases step with
  | token _ _ => exact ⟨⟨rfl, rfl⟩, fun _ _ => id⟩
  | elapse _ ms =>
      refine ⟨⟨rfl, rfl⟩, fun key userId live => ?_⟩
      obtain ⟨entry, found, value⟩ := Option.map_eq_some_iff.mp live
      exact Option.map_eq_some_iff.mpr ⟨entry, (ExpiringMap.elapse_eq_some.mp found).1, value⟩

/-- Whatever requests other sites make the browser send below `/api/auth`, in whatever order and
with whatever time between them: refresh tokens that the cookies of the browser hold are revoked,
and no table, no mail and no reset token is touched, but for those that expire. -/
theorem cross_origin_run {web : WebApp} {sends : Option String → Prop} {w₀ : World σ}
    (run : Relation.ReflTransGen (CrossOrigin web app validator sends) w₀ w) :
    Relation.ReflTransGen (Revokes app.store (HeldBy web sends)) w₀ w ∧ Retained w₀ w ∧
      ∀ key userId, w.resets.get key = some userId → w₀.resets.get key = some userId := by
  have revocations : Relation.ReflTransGen (Revokes app.store (HeldBy web sends)) w₀ w := by
    induction run with
    | refl => exact .refl
    | tail _ last ih =>
        cases last with
        | elapse ms => exact ih.tail (.elapse _ ms)
        | request draws r crossSite cookies served =>
            rcases serve_crossSite crossSite served with rfl | ⟨token, read, rfl⟩
            · exact ih
            · exact ih.tail (.token ⟨_, cookies, read⟩ _)
  refine ⟨revocations, ?_⟩
  clear run
  induction revocations with
  | refl => exact ⟨.refl _, fun _ _ => id⟩
  | tail _ last ih =>
      obtain ⟨retained, resets⟩ := last.kept
      exact ⟨ih.1.trans retained, fun key userId live => ih.2 key userId (resets key userId live)⟩

end

def sampleWebApp : WebApp where
  origin := "https://app.acme.test"
  resolve segments := "api" :: "auth" :: segments
  jar header := header.getD ""

/-- Another site submits the sign-out form. -/
def sampleSignOut : Request where
  method := .post
  path := ["api", "auth", "logout"]
  headers name :=
    if name = "origin" then some "https://other.test"
    else if name = "cookie" then some "arac_refresh=t1"
    else none
  body := ""

theorem cross_origin_run_sampleSignOut :
    ∃ answer w, sampleWebApp.serve sampleApp sampleValidator sampleDraws sampleSignOut
        (World.fresh .empty 0 staffed) = some (answer, w) ∧
      Relation.ReflTransGen
        (Revokes sampleStore (HeldBy sampleWebApp fun header => header = some "arac_refresh=t1"))
        (World.fresh .empty 0 staffed) (w.elapse sampleStore 1000) ∧
      (w.elapse sampleStore 1000).db = staffed := by
  have crossSite : CrossSite sampleWebApp sampleSignOut :=
    Or.inr (Or.inr ⟨"https://other.test", by decide, by decide, by decide⟩)
  obtain ⟨answer, w, served⟩ : ∃ answer w, sampleWebApp.serve sampleApp sampleValidator sampleDraws
      sampleSignOut (World.fresh .empty 0 staffed) = some (answer, w) := ⟨_, _, rfl⟩
  have step : CrossOrigin sampleWebApp sampleApp sampleValidator
      (fun header => header = some "arac_refresh=t1") (World.fresh .empty 0 staffed) w :=
    .request sampleDraws sampleSignOut crossSite rfl served
  obtain ⟨revocations, retained, -⟩ :=
    cross_origin_run (Relation.ReflTransGen.tail (.single step) (.elapse w 1000))
  exact ⟨answer, w, served, revocations, retained.db⟩

end Arac.Http
