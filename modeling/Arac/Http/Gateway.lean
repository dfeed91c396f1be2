/-
# Arac.Http.Gateway -- the endpoints of the gateway

The gateway forwards a request only where its method and path are those of an endpoint,
under the path of the backend and with no headers but the listed ones.  The endpoints of the
auth service differ from its routes by the leading `/api` alone, so what is forwarded
reaches the handler of the same name with the same parameter (`forward_routed`).

The endpoint of the RAG gateway is validated first: the claims of the token replace the
`X-Identity-*` headers, whatever the client has sent in them.
-/
import Arac.Http.Controllers

namespace Arac.Http

open Arac.Theory Arac.Sessions Arac.Db Arac.Service

set_option autoImplicit false

inductive Backend where
  | authService
  | ragGateway
  deriving DecidableEq

structure Endpoint where
  backend : Backend
  /-- In lower case. -/
  inputHeaders : List String
  urlPattern : Pattern
  deriving DecidableEq

/-- An endpoint of the auth service: both patterns are given by their common end. -/
def authEndpoint (method : Method) (rest : Pattern) (inputHeaders : List String) : Route Method Endpoint :=
  ⟨method, .fixed "api" :: .fixed "auth" :: rest, ⟨.authService, inputHeaders, .fixed "auth" :: rest⟩⟩

/-- Claim and header. -/
def propagateClaims : List (String × String) :=
  [("sub", "x-identity-subject"), ("tenant", "x-identity-tenant"),
    ("departments", "x-identity-departments"), ("clearance", "x-identity-clearance"),
    ("level", "x-identity-level"), ("compartments", "x-identity-compartments")]

def ragEndpoint : Route Method Endpoint :=
  ⟨.post, [.fixed "api", .fixed "rag", .fixed "query"],
    ⟨.ragGateway,
      ["content-type", "authorization", "x-identity-subject", "x-identity-tenant",
        "x-identity-departments", "x-identity-clearance", "x-identity-level",
        "x-identity-compartments"],
      [.fixed "rag", .fixed "query"]⟩⟩

/-- The endpoints of the auth service. -/
def authEndpoints : List (Route Method Endpoint) :=
  let users := Segment.fixed "users"
  let body := ["content-type"]
  let session := ["authorization", "cookie"]
  let both := ["content-type", "authorization", "cookie"]
  [authEndpoint .post [.fixed "login"] body,
    authEndpoint .post [.fixed "signup"] body,
    authEndpoint .post [.fixed "change-password"] both,
    authEndpoint .post [.fixed "forgot"] body,
    authEndpoint .post [.fixed "reset"] body,
    authEndpoint .get [users] session,
    authEndpoint .post [users, .param, .fixed "grant"] both,
    authEndpoint .get [users, .fixed "roles"] session,
    authEndpoint .post [users, .param, .fixed "roles"] both,
    authEndpoint .delete [users, .param, .fixed "roles"] both,
    authEndpoint .get [.fixed "departments"] session,
    authEndpoint .post [.fixed "departments"] both,
    authEndpoint .get [.fixed "compartments"] session,
    authEndpoint .post [.fixed "compartments"] both,
    authEndpoint .put [users, .param, .fixed "departments"] both,
    authEndpoint .put [users, .param, .fixed "compartments"] both,
    authEndpoint .post [.fixed "refresh"] both,
    authEndpoint .get [.fixed "me"] session,
    authEndpoint .post [.fixed "logout"] both,
    authEndpoint .post [.fixed "logout-all"] both]

def endpoints : List (Route Method Endpoint) := authEndpoints ++ [ragEndpoint]

theorem endpoints_unambiguous : Unambiguous endpoints := by decide

/-- The request that the backend of an endpoint gets. -/
def Endpoint.forward (e : Endpoint) (values : List String) (r : Request) : Option Request :=
  (e.urlPattern.fill values).map fun path =>
    { r with path, headers := fun name => if name ∈ e.inputHeaders then r.headers name else none }

def forward (r : Request) : Option (Backend × Request) := do
  let (endpoint, values) ← dispatch endpoints r.method r.path
  let forwarded ← endpoint.forward values r
  return (endpoint.backend, forwarded)

/-! ## The RAG gateway -/

/-- What the handler of `/rag/query` takes from the headers; an absent header is empty. -/
structure RagIdentity where
  subject : String
  tenant : String
  departments : String
  clearance : String
  level : String
  compartments : String
  deriving DecidableEq

def ragIdentity (headers : Headers) : RagIdentity where
  subject := (headers "x-identity-subject").getD ""
  tenant := (headers "x-identity-tenant").getD ""
  departments := (headers "x-identity-departments").getD ""
  clearance := (headers "x-identity-clearance").getD ""
  level := (headers "x-identity-level").getD ""
  compartments := (headers "x-identity-compartments").getD ""

/-- The validator of the gateway. -/
structure Validator where
  /-- The payload of the bearer token at a time, if the token verifies. -/
  verify : Nat → Headers → Option JwtPayload
  /-- A claim as the text of a header, if the payload has it. -/
  claimText : JwtPayload → String → Option String

/-- The claims that are there are written over the headers. -/
def Validator.propagate (validator : Validator) (payload : JwtPayload) (headers : Headers) : Headers :=
  propagateClaims.foldl (fun headers claim =>
    match validator.claimText payload claim.1 with
    | some value => Function.update headers claim.2 (some value)
    | none => headers) headers

inductive Answer where
  /-- The gateway has no endpoint, or its validator refuses. -/
  | refused (status : Nat)
  | auth (reply : Reply)
  | rag (identity : RagIdentity)

/-- The client is told of an error. -/
def Answer.Failed : Answer → Prop
  | .refused _ => True
  | .auth reply => 400 ≤ reply.status
  | .rag _ => False

section

variable {σ : Type} (app : App σ) (validator : Validator)

/-- A request to the gateway.  The validator runs before the headers are selected. -/
def Gateway.serve (draws : Draws) (r : Request) (w : World σ) : Answer × World σ :=
  match forward r with
  | none => (.refused 404, w)
  | some (.authService, forwarded) =>
      let (reply, w') := app.serve draws forwarded w
      (.auth reply, w')
  | some (.ragGateway, _) =>
      match validator.verify w.now r.headers with
      | none => (.refused 401, w)
      | some payload =>
          match forward { r with headers := validator.propagate payload r.headers } with
          | none => (.refused 404, w)
          | some (_, forwarded) => (.rag (ragIdentity forwarded.headers), w)

end

/-- A validator that lets nobody pass. -/
def sampleValidator : Validator := ⟨fun _ _ => none, fun _ _ => none⟩

/-! ## Where requests go -/

/-- The handler of an endpoint: the routes and the endpoints list the same methods and ends. -/
def Endpoint.handler (e : Endpoint) (method : Method) : Option Handler :=
  (routes.find? fun r => r.method = method ∧ r.pattern = e.urlPattern).map Route.action

/-- Every route has an endpoint, and every endpoint of the auth service a route. -/
theorem endpoints_cover :
    (∀ e ∈ authEndpoints, (e.action.handler e.method).isSome = true) ∧
      ∀ r ∈ routes, ∃ e ∈ authEndpoints, e.method = r.method ∧ e.action.urlPattern = r.pattern := by
  decide

theorem routed_of_mem {r : Route Method Handler} (listed : r ∈ routes) :
    App.routed r.method = r.method := by
  have none_head : ∀ r ∈ routes, App.routed r.method = r.method := by decide
  exact none_head r listed

/-- What is forwarded to the auth service is routed there, to the handler of the endpoint and
with the parameter it had. -/
theorem forward_routed {r forwarded : Request} (sent : forward r = some (.authService, forwarded)) :
    ∃ e ∈ authEndpoints, ∃ values handler, e.method = r.method ∧
      e.pattern.matchPath r.path = some values ∧ e.action.handler e.method = some handler ∧
      forwarded.method = r.method ∧ forwarded.body = r.body ∧
      (∀ name, forwarded.headers name =
        if name ∈ e.action.inputHeaders then r.headers name else none) ∧
      dispatch routes (App.routed forwarded.method) forwarded.path = some (handler, values) := by
  obtain ⟨⟨endpoint, values⟩, found, rest⟩ := Option.bind_eq_some_iff.mp sent
  obtain ⟨filled, forwards, same⟩ := Option.bind_eq_some_iff.mp rest
  obtain ⟨backend, rfl⟩ := Prod.mk.inj (Option.some.inj same)
  obtain ⟨e, listed, method, matched, rfl⟩ := (dispatch_eq_some endpoints_unambiguous).mp found
  obtain ⟨path, fills, rfl⟩ := Option.map_eq_some_iff.mp forwards
  have auth : e ∈ authEndpoints := by
    rcases List.mem_append.mp listed with ours | other
    · exact ours
    · obtain rfl := List.mem_singleton.mp other
      cases backend
  obtain ⟨handler, handled⟩ := Option.isSome_iff_exists.mp (endpoints_cover.1 e auth)
  refine ⟨e, auth, values, handler, method, matched, handled, rfl, rfl, fun _ => rfl, ?_⟩
  obtain ⟨route, is_route, rfl⟩ := Option.map_eq_some_iff.mp handled
  have fits := List.find?_some is_route
  simp only [decide_eq_true_eq] at fits
  have routed := routed_of_mem (List.mem_of_find?_eq_some is_route)
  refine (dispatch_eq_some routes_unambiguous).mpr
    ⟨route, List.mem_of_find?_eq_some is_route, ?_, ?_, rfl⟩
  · rw [← method, ← fits.1, routed]
  · rw [fits.2]
    exact Pattern.matchPath_of_fill fills (Pattern.ne_empty_of_matchPath matched)

end Arac.Http
