/-
# Arac.Http.Controllers -- the routes of the auth service

A request passes the body parser, is routed by method and path, has its body validated
and reaches a handler, which takes the access token from the request and calls one
operation of a service.  `App.serve` is that path; `refresh` and `logout` are the handlers
of `Web.AuthController`.

Three controllers read cookies, with loops of their own that agree (`readCookie_eq`).

Rate limits and the published keys are left out.
-/
import Arac.Http.Dtos
import Arac.Sessions.Redis
import Arac.Theory.Routes
import Arac.Web.AuthController

namespace Arac.Http

open Arac.Theory Arac.Sessions Arac.Db Arac.Service Arac.Rbac Arac.Admin Arac.Org Arac.Auth Arac.Web

set_option autoImplicit false

/-! ## Requests and replies -/

inductive Method where
  | get
  | head
  | post
  | put
  | delete
  | patch
  | options
  deriving DecidableEq

/-- The values of headers by name, in lower case. -/
abbrev Headers := String → Option String

structure Request where
  method : Method
  path : List String
  headers : Headers
  body : String

inductive Payload where
  | user (user : SessionUser)
  | me (me : AuthService.Me)
  | success
  | users (users : List AdminUserView)
  | managed (user : AdminUserView)
  | roles (roles : List RoleView)
  | departments (departments : List DepartmentView)
  | department (department : DepartmentView)
  | compartments (compartments : List CompartmentView)
  | compartment (compartment : CompartmentView)
  | message (text : String)
  | violations (violations : List Violation)
  /-- The framework's own answer to what it cannot parse or route. -/
  | unserved

structure Reply where
  status : Nat
  cookies : List CookieCall
  payload : Payload

/-- The status and message of an exception; what is no `HttpException` is a 500. -/
def ofThrown : Thrown → Nat × String
  | .service (.unauthorized message) => (401, message)
  | .service (.forbidden message) => (403, message)
  | .service (.notFound message) => (404, message)
  | .service (.conflict message) => (409, message)
  | .service (.badRequest message) => (400, message)
  | _ => (500, "Internal server error")

/-- The reply to a handler that has run. -/
def replyOf {α : Type} (status : Nat) (payload : α → Payload) (r : Response α) : Reply :=
  match r.result with
  | .ok a => ⟨status, r.cookies, payload a⟩
  | .error e => ⟨(ofThrown e).1, r.cookies, .message (ofThrown e).2⟩

/-! ## Access tokens -/

/-- `header?.startsWith('Bearer ') ? header.slice(7) : undefined`. -/
def bearer (authorization : Option String) : Option String :=
  authorization.bind fun header =>
    if "Bearer ".toList.isPrefixOf header.toList then some (String.ofList (header.toList.drop 7)) else none

/-- The bearer token or else the cookie; the cookie is not read when there is a bearer token. -/
def takeToken (readCookie : Option String → String → Except Thrown (Option String)) (headers : Headers) :
    Except Thrown String := do
  let token ← match bearer (headers "authorization") with
    | some token => pure (some token)
    | none => readCookie (headers "cookie") ACCESS_COOKIE
  match truthy token with
  | some token => pure token
  | none => .error (.service (.unauthorized "Missing access token"))

/-- `AuthController.requireAccessToken`. -/
def requireAccessToken : Headers → Except Thrown String := takeToken AuthController.readCookie

/-- The loop of `readCookie` in the admin and org controllers. -/
def readPartsOf (name : String) : List String → Except Thrown (Option String)
  | [] => .ok none
  | part :: parts =>
      if '=' ∈ part.toList ∧ trim (String.ofList (part.toList.takeWhile (· ≠ '='))) = name then
        match decodeURIComponent (trim (String.ofList (part.toList.dropWhile (· ≠ '=')).tail)) with
        | none => .error .uriError
        | some value => .ok (some value)
      else readPartsOf name parts

namespace AdminController

def readCookie (header : Option String) (name : String) : Except Thrown (Option String) :=
  match truthy header with
  | none => .ok none
  | some header => readPartsOf name (split ';' header)

def accessToken : Headers → Except Thrown String := takeToken readCookie

end AdminController

namespace OrgController

def readCookie : Option String → String → Except Thrown (Option String) := AdminController.readCookie

def accessToken : Headers → Except Thrown String := takeToken readCookie

end OrgController

theorem readPartsOf_eq (name : String) (parts : List String) :
    readPartsOf name parts = AuthController.readParts name parts := by
  induction parts with
  | nil => rfl
  | cons part parts ih =>
      unfold readPartsOf AuthController.readParts
      rw [ih]
      by_cases pair : '=' ∈ part.toList
      · by_cases named : trim (String.ofList (part.toList.takeWhile (· ≠ '='))) = name
        · refine (if_pos ⟨pair, named⟩).trans (Eq.trans ?_ ((if_pos pair).trans (if_pos named)).symm)
          cases decodeURIComponent (trim (String.ofList (part.toList.dropWhile (· ≠ '=')).tail)) with
          | none => rfl
          | some _ => rfl
        · rw [if_neg fun both => named both.2, if_pos pair, if_neg named]
      · rw [if_neg fun both => pair both.1, if_neg pair]

/-- The cookie readers agree on every header. -/
theorem readCookie_eq : AdminController.readCookie = AuthController.readCookie := by
  funext header name
  unfold AdminController.readCookie AuthController.readCookie
  cases truthy header with
  | none => rfl
  | some header => exact readPartsOf_eq name _

theorem accessToken_eq :
    AdminController.accessToken = requireAccessToken ∧ OrgController.accessToken = requireAccessToken := by
  have same : AdminController.accessToken = requireAccessToken := congrArg takeToken readCookie_eq
  exact ⟨same, same⟩

/-! ## The app -/

structure App (σ : Type) where
  store : SessionStore σ
  env : Env
  cookies : CookieConfig
  validators : Validators
  /-- The body parser, given the content type: `none` is a syntax error, and a body that is
  not JSON is `null`. -/
  parseBody : Option String → String → Option Json

inductive Handler where
  | login
  | signup
  | refresh
  | logout
  | logoutAll
  | forgot
  | reset
  | changePassword
  | me
  | listUsers
  | listRoles
  | assignRole
  | removeRole
  | grant
  | listDepartments
  | createDepartment
  | listCompartments
  | createCompartment
  | setMemberships
  | setCompartments
  deriving DecidableEq

/-- The `@Get`, `@Post`, `@Put` and `@Delete` decorators of the controllers. -/
def routes : List (Route Method Handler) :=
  let auth := Segment.fixed "auth"
  let users := Segment.fixed "users"
  [⟨.post, [auth, .fixed "login"], .login⟩,
    ⟨.post, [auth, .fixed "signup"], .signup⟩,
    ⟨.post, [auth, .fixed "refresh"], .refresh⟩,
    ⟨.post, [auth, .fixed "logout"], .logout⟩,
    ⟨.post, [auth, .fixed "logout-all"], .logoutAll⟩,
    ⟨.post, [auth, .fixed "forgot"], .forgot⟩,
    ⟨.post, [auth, .fixed "reset"], .reset⟩,
    ⟨.post, [auth, .fixed "change-password"], .changePassword⟩,
    ⟨.get, [auth, .fixed "me"], .me⟩,
    ⟨.get, [auth, users], .listUsers⟩,
    ⟨.get, [auth, users, .fixed "roles"], .listRoles⟩,
    ⟨.post, [auth, users, .param, .fixed "roles"], .assignRole⟩,
    ⟨.delete, [auth, users, .param, .fixed "roles"], .removeRole⟩,
    ⟨.post, [auth, users, .param, .fixed "grant"], .grant⟩,
    ⟨.get, [auth, .fixed "departments"], .listDepartments⟩,
    ⟨.post, [auth, .fixed "departments"], .createDepartment⟩,
    ⟨.get, [auth, .fixed "compartments"], .listCompartments⟩,
    ⟨.post, [auth, .fixed "compartments"], .createCompartment⟩,
    ⟨.put, [auth, users, .param, .fixed "departments"], .setMemberships⟩,
    ⟨.put, [auth, users, .param, .fixed "compartments"], .setCompartments⟩]

theorem routes_unambiguous : Unambiguous routes := by decide

section

variable {σ α β : Type}

/-- A handler that calls a service and responds with its value, and with cookies where it
succeeds. -/
def respond (p : Service σ α) (value : α → β) (cookies : World σ → α → List CookieCall) (w : World σ) :
    Response β × World σ :=
  match p.run w with
  | (.ok a, w') => (⟨.ok (value a), cookies w' a⟩, w')
  | (.error e, w') => (⟨.error (.service e), []⟩, w')

theorem respond_world (p : Service σ α) (value : α → β) (cookies : World σ → α → List CookieCall)
    (w : World σ) : (respond p value cookies w).2 = (p.run w).2 := by
  unfold respond
  rcases p.run w with ⟨result, w'⟩
  cases result <;> rfl

/-- A handler that needs a token. -/
def withToken (token : Except Thrown String) (f : String → Service σ α) (w : World σ) :
    Response α × World σ :=
  match token with
  | .error e => (⟨.error e, []⟩, w)
  | .ok token => respond (f token) id (fun _ _ => []) w

/-- `setUserMemberships` of a list with an array among its elements: the slug of an array
is undefined, which the query for the departments does not take. -/
def setBrokenMemberships (env : Env) (accessToken userId : String) : Service σ Unit := do
  let _ ← require env accessToken ORG_MANAGE
  match ← query (·.userById userId) with
  | none => Prog.fail (.notFound "User not found")
  | some _ => Prog.fail (.error "Can not use undefined value within array")

namespace App

variable (app : App σ)

/-! ## The handlers -/

/-- `publicBody` and `setAuthCookies` of a result. -/
def issue (p : Service σ AuthResult) (w : World σ) : Response SessionUser × World σ :=
  respond p AuthResult.user (fun w result => AuthController.setAuthCookies app.cookies w.now result) w

def login (draws : Draws) (body : Fields) : World σ → Response SessionUser × World σ :=
  app.issue (AuthService.login app.store app.env draws (text body "email") (text body "password"))

def signup (draws : Draws) (body : Fields) : World σ → Response SessionUser × World σ :=
  app.issue (AuthService.signup app.store app.env draws (text body "email") (text body "name")
    (text body "password"))

def refresh (draws : Draws) (headers : Headers) : World σ → Response SessionUser × World σ :=
  AuthController.refresh app.cookies app.store app.env (fun _ => .answers) draws (headers "cookie")

def logout (headers : Headers) : World σ → Response Unit × World σ :=
  AuthController.logout app.cookies app.store (fun _ => .answers) (headers "cookie")

def logoutAll (headers : Headers) (w : World σ) : Response Unit × World σ :=
  match requireAccessToken headers with
  | .error e => (⟨.error e, []⟩, w)
  | .ok token => respond (AuthService.logoutAll app.store app.env token) id
      (fun _ _ => AuthController.clearAuthCookies app.cookies) w

/-- `passwordReset.requestReset`. -/
def forgot (draws : Draws) (body : Fields) : World σ → Response Unit × World σ :=
  respond (PasswordResetService.requestReset app.env draws (text body "email")) id fun _ _ => []

def reset (draws : Draws) (body : Fields) (w : World σ) : Response Unit × World σ :=
  match (PasswordResetService.reset app.store app.env draws (text body "token")
      (text body "newPassword")).run w with
  | (.ok true, w') => (⟨.ok (), []⟩, w')
  | (.ok false, w') => (⟨.error (.service (.badRequest "Invalid or expired reset token")), []⟩, w')
  | (.error e, w') => (⟨.error (.service e), []⟩, w')

def changePassword (draws : Draws) (headers : Headers) (body : Fields) (w : World σ) :
    Response SessionUser × World σ :=
  match requireAccessToken headers with
  | .error e => (⟨.error e, []⟩, w)
  | .ok token => app.issue (AuthService.changePassword app.store app.env draws token
      (text body "currentPassword") (text body "newPassword")) w

def me (headers : Headers) : World σ → Response AuthService.Me × World σ :=
  withToken (requireAccessToken headers) (AuthService.me app.env)

def listUsers (headers : Headers) : World σ → Response (List AdminUserView) × World σ :=
  withToken (AdminController.accessToken headers) (Admin.listUsers app.env)

def listRoles (headers : Headers) : World σ → Response (List RoleView) × World σ :=
  withToken (AdminController.accessToken headers) (Admin.listRoles app.env)

def assignRole (draws : Draws) (headers : Headers) (id : String) (body : Fields) :
    World σ → Response AdminUserView × World σ :=
  withToken (AdminController.accessToken headers) fun token =>
    Admin.assignRole app.store app.env draws token id (RoleAssignmentDto.input body)

def removeRole (headers : Headers) (id : String) (body : Fields) :
    World σ → Response AdminUserView × World σ :=
  withToken (AdminController.accessToken headers) fun token =>
    Admin.removeRole app.store app.env token id (RoleAssignmentDto.input body)

def grant (headers : Headers) (id : String) (body : Fields) :
    World σ → Response AdminUserView × World σ :=
  withToken (AdminController.accessToken headers) fun token =>
    Admin.grantAttributes app.store app.env token id (GrantDto.input body)

def listDepartments (headers : Headers) : World σ → Response (List DepartmentView) × World σ :=
  withToken (OrgController.accessToken headers) (Org.listDepartments app.env)

def createDepartment (draws : Draws) (headers : Headers) (body : Fields) :
    World σ → Response DepartmentView × World σ :=
  withToken (OrgController.accessToken headers) fun token =>
    Org.createDepartment app.env draws token (CreateDepartmentDto.input body)

def listCompartments (headers : Headers) : World σ → Response (List CompartmentView) × World σ :=
  withToken (OrgController.accessToken headers) (Org.listCompartments app.env)

def createCompartment (draws : Draws) (headers : Headers) (body : Fields) :
    World σ → Response CompartmentView × World σ :=
  withToken (OrgController.accessToken headers) fun token =>
    Org.createCompartment app.env draws token (CreateCompartmentDto.input body)

def setMemberships (headers : Headers) (id : String) (body : Fields) :
    World σ → Response Unit × World σ :=
  withToken (OrgController.accessToken headers) fun token =>
    match (SetMembershipsDto.memberships body).mapM fun m => m with
    | some memberships => Org.setUserMemberships app.store app.env token id memberships
    | none => setBrokenMemberships app.env token id

def setCompartments (headers : Headers) (id : String) (body : Fields) :
    World σ → Response Unit × World σ :=
  withToken (OrgController.accessToken headers) fun token =>
    Org.setUserCompartments app.store app.env token id (SetCompartmentsDto.keys body)

/-! ## Serving a request -/

/-- A handler behind the validation of its body. -/
def withBody (dto : Dto) (json : Json) (handle : Fields → Reply × World σ) (w : World σ) :
    Reply × World σ :=
  match dto.validate app.validators json with
  | .error wrong => (⟨400, [], .violations wrong⟩, w)
  | .ok body => handle body.fields

/-- A body with a property that its DTO does not declare is answered with the names of
properties of either, and no handler runs. -/
theorem withBody_undeclared {dto : Dto} (flat : dto.nested = []) {fields : Fields} {name : String}
    {value : Json} (given : (name, value) ∈ fields)
    (undeclared : name ∉ dto.properties.map Property.name) (handle : Fields → Reply × World σ)
    (w : World σ) :
    ∃ wrong, app.withBody dto (.obj fields) handle w = (⟨400, [], .violations wrong⟩, w) ∧
      ∀ x ∈ wrong, ∃ key, x.path = [key] ∧
        (key ∈ dto.properties.map Property.name ∨ key ∈ fields.map Prod.fst) := by
  obtain ⟨wrong, refused, names⟩ :=
    @Dto.validate_undeclared app.validators _ _ flat _ _ given undeclared
  refine ⟨wrong, ?_, names⟩
  rw [withBody, refused]

/-- The reply of a handler, with the status of its method. -/
def reply (status : Nat) (payload : α → Payload) (handled : Response α × World σ) : Reply × World σ :=
  (replyOf status payload handled.1, handled.2)

/-- The handler of a route; a `POST` that succeeds is a 201. -/
def handle (draws : Draws) (headers : Headers) (json : Json) (id : String) (w : World σ) :
    Handler → Reply × World σ
  | .login => app.withBody LoginDto json (fun body => reply 201 .user (app.login draws body w)) w
  | .signup => app.withBody SignupDto json (fun body => reply 201 .user (app.signup draws body w)) w
  | .refresh => reply 201 .user (app.refresh draws headers w)
  | .logout => reply 201 (fun _ => .success) (app.logout headers w)
  | .logoutAll => reply 201 (fun _ => .success) (app.logoutAll headers w)
  | .forgot => app.withBody ForgotPasswordDto json
      (fun body => reply 201 (fun _ => .success) (app.forgot draws body w)) w
  | .reset => app.withBody ResetPasswordDto json
      (fun body => reply 201 (fun _ => .success) (app.reset draws body w)) w
  | .changePassword => app.withBody ChangePasswordDto json
      (fun body => reply 201 .user (app.changePassword draws headers body w)) w
  | .me => reply 200 .me (app.me headers w)
  | .listUsers => reply 200 .users (app.listUsers headers w)
  | .listRoles => reply 200 .roles (app.listRoles headers w)
  | .assignRole => app.withBody RoleAssignmentDto json
      (fun body => reply 201 .managed (app.assignRole draws headers id body w)) w
  | .removeRole => app.withBody RoleAssignmentDto json
      (fun body => reply 200 .managed (app.removeRole headers id body w)) w
  | .grant => app.withBody GrantDto json
      (fun body => reply 201 .managed (app.grant headers id body w)) w
  | .listDepartments => reply 200 .departments (app.listDepartments headers w)
  | .createDepartment => app.withBody CreateDepartmentDto json
      (fun body => reply 201 .department (app.createDepartment draws headers body w)) w
  | .listCompartments => reply 200 .compartments (app.listCompartments headers w)
  | .createCompartment => app.withBody CreateCompartmentDto json
      (fun body => reply 201 .compartment (app.createCompartment draws headers body w)) w
  | .setMemberships => app.withBody SetMembershipsDto json
      (fun body => reply 200 (fun _ => .success) (app.setMemberships headers id body w)) w
  | .setCompartments => app.withBody SetCompartmentsDto json
      (fun body => reply 200 (fun _ => .success) (app.setCompartments headers id body w)) w

/-- A `HEAD` is routed like a `GET`. -/
def routed : Method → Method
  | .head => .get
  | method => method

def serve (draws : Draws) (r : Request) (w : World σ) : Reply × World σ :=
  match app.parseBody (r.headers "content-type") r.body with
  | none => (⟨400, [], .unserved⟩, w)
  | some json =>
      match dispatch routes (routed r.method) r.path with
      | none => (⟨404, [], .unserved⟩, w)
      | some (handler, params) => app.handle draws r.headers json (params.headD "") w handler

end App

end

/-! ## A sample app -/

def sampleGrantBody : String := "\x7b\"clearance\":7\x7d"

def sampleSignupBody : String :=
  "\x7b\"email\":\"new@acme.test\",\"name\":\"New\",\"password\":\"correct horse\"\x7d"

/-- The bodies that the samples send, parsed. -/
def sampleParse (_ : Option String) (body : String) : Option Json :=
  if body = "" then some .null
  else if body = sampleGrantBody then some (.obj [("clearance", .num 7)])
  else if body = sampleSignupBody then some (.obj [("email", .str "new@acme.test"),
    ("name", .str "New"), ("password", .str "correct horse")])
  else none

def sampleApp : App RedisSessions where
  store := sampleStore
  env := sampleEnv
  cookies := AuthController.sampleCookieConfig
  validators := { isEmail := fun s => '@' ∈ s.toList, length := String.length }
  parseBody := sampleParse

end Arac.Http
