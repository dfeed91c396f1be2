/-
# Arac.Http.Carried -- the operation that a request carries

What a request to the gateway asks for, read off the request alone: the endpoint of its
method and path names a handler, the body is parsed and passes the DTO of the handler,
and the tokens are those of the headers (`carried`).  A read carries nothing, and neither
does a request that is refused before a service is called.

`App.replyTo` is the reply to an operation in a world: what the services answer, or
their exception, with the cookies that go with it.

* `carried_admissible`: the inputs are in the ranges that the DTOs ask for.
* `carried_presented`: the tokens are those of the headers, and a user is one of the path.
-/
import Arac.Http.Gateway
import Arac.Mediation.Operations

namespace Arac.Http

open Arac.Theory Arac.Sessions Arac.Db Arac.Service Arac.Rbac Arac.Admin Arac.Org Arac.Auth Arac.Web
  Arac.Mediation

set_option autoImplicit false

namespace Handler

/-- The handlers of `GET` routes. -/
def reads : Handler → Bool
  | .me | .listUsers | .listRoles | .listDepartments | .listCompartments => true
  | _ => false

/-- The handlers whose route names a user. -/
def onUser : Handler → Bool
  | .assignRole | .removeRole | .grant | .setMemberships | .setCompartments => true
  | _ => false

/-- The handlers that take no token. -/
def isPublic : Handler → Bool
  | .login | .signup | .forgot | .reset => true
  | _ => false

/-- The class of the body. -/
def dto : Handler → Option Dto
  | .login => some LoginDto
  | .signup => some SignupDto
  | .forgot => some ForgotPasswordDto
  | .reset => some ResetPasswordDto
  | .changePassword => some ChangePasswordDto
  | .assignRole => some RoleAssignmentDto
  | .removeRole => some RoleAssignmentDto
  | .grant => some GrantDto
  | .createDepartment => some CreateDepartmentDto
  | .createCompartment => some CreateCompartmentDto
  | .setMemberships => some SetMembershipsDto
  | .setCompartments => some SetCompartmentsDto
  | _ => none

/-- The fields of a body that passes validation; without a DTO the body is not read. -/
def fields (v : Validators) (json : Json) (h : Handler) : Option Fields :=
  match h.dto with
  | none => some []
  | some dto => (dto.validate v json).toOption.map Validated.fields

end Handler

/-- The refresh token that a request presents. -/
def presentedToken (headers : Headers) : Option String :=
  (AuthController.readCookie (headers "cookie") REFRESH_COOKIE).toOption.bind truthy

/-- The access token that a request presents. -/
def accessToken (headers : Headers) : Option String := (requireAccessToken headers).toOption

/-- The operation of a handler, with the tokens of the headers, the parameter of the
path and the fields of the body. -/
def Handler.operation (headers : Headers) (id : String) (fields : Fields) : Handler → Option Operation
  | .login => some (.login (text fields "email") (text fields "password"))
  | .signup => some (.signup (text fields "email") (text fields "name") (text fields "password"))
  | .refresh => (presentedToken headers).map .refresh
  | .logout => (presentedToken headers).map .logout
  | .logoutAll => (accessToken headers).map .logoutAll
  | .forgot => some (.requestReset (text fields "email"))
  | .reset => some (.reset (text fields "token") (text fields "newPassword"))
  | .changePassword => (accessToken headers).map fun token =>
      .changePassword token (text fields "currentPassword") (text fields "newPassword")
  | .assignRole => (accessToken headers).map fun token =>
      .assignRole token id (RoleAssignmentDto.input fields)
  | .removeRole => (accessToken headers).map fun token =>
      .removeRole token id (RoleAssignmentDto.input fields)
  | .grant => (accessToken headers).map fun token =>
      .grantAttributes token id (GrantDto.input fields)
  | .createDepartment => (accessToken headers).map fun token =>
      .createDepartment token (CreateDepartmentDto.input fields)
  | .createCompartment => (accessToken headers).map fun token =>
      .createCompartment token (CreateCompartmentDto.input fields)
  -- with an array among the memberships the service fails before it writes
  | .setMemberships => (accessToken headers).bind fun token =>
      ((SetMembershipsDto.memberships fields).mapM fun m => m).map fun memberships =>
        .setUserMemberships token id memberships
  | .setCompartments => (accessToken headers).map fun token =>
      .setUserCompartments token id (SetCompartmentsDto.keys fields)
  | .me | .listUsers | .listRoles | .listDepartments | .listCompartments => none

/-- The operation that a request to the gateway carries. -/
def carried {σ : Type} (app : App σ) (r : Request) : Option Operation := do
  let (endpoint, values) ← dispatch authEndpoints r.method r.path
  let handler ← endpoint.handler r.method
  let json ← app.parseBody (r.headers "content-type") r.body
  let fields ← handler.fields app.validators json
  handler.operation r.headers (values.headD "") fields

/-! ## The reply to an operation -/

/-- The reply with the value of a service, or with its exception. -/
def outcome {σ α : Type} (status : Nat) (payload : α → Payload) (cookies : World σ → α → List CookieCall)
    (failed : List CookieCall) : Except ServiceError α × World σ → Reply
  | (.ok a, w) => ⟨status, cookies w a, payload a⟩
  | (.error e, _) => ⟨(ofThrown (.service e)).1, failed, .message (ofThrown (.service e)).2⟩

section

variable {σ : Type} (app : App σ) (draws : Draws) (w : World σ)

/-- The cookies of a session that has been issued. -/
def issued (w : World σ) (result : AuthResult) : List CookieCall :=
  AuthController.setAuthCookies app.cookies w.now result

def App.replyTo : Operation → Reply
  | .signup email name password =>
      outcome 201 (fun result => .user result.user) (issued app) []
        ((AuthService.signup app.store app.env draws email name password).run w)
  | .login email password =>
      outcome 201 (fun result => .user result.user) (issued app) []
        ((AuthService.login app.store app.env draws email password).run w)
  | .refresh presented =>
      outcome 201 (fun result => .user result.user) (issued app)
        (AuthController.clearAuthCookies app.cookies)
        ((AuthService.refresh app.store app.env draws presented).run w)
  | .logout presented =>
      outcome 201 (fun _ => .success) (fun _ _ => AuthController.clearAuthCookies app.cookies) []
        ((AuthService.logout app.store presented).run w)
  | .logoutAll accessToken =>
      outcome 201 (fun _ => .success) (fun _ _ => AuthController.clearAuthCookies app.cookies) []
        ((AuthService.logoutAll app.store app.env accessToken).run w)
  | .changePassword accessToken current new =>
      outcome 201 (fun result => .user result.user) (issued app) []
        ((AuthService.changePassword app.store app.env draws accessToken current new).run w)
  | .requestReset email =>
      outcome 201 (fun _ => .success) (fun _ _ => []) []
        ((PasswordResetService.requestReset app.env draws email).run w)
  | .reset token new =>
      match (PasswordResetService.reset app.store app.env draws token new).run w with
      | (.ok true, _) => ⟨201, [], .success⟩
      | (.ok false, _) => ⟨400, [], .message "Invalid or expired reset token"⟩
      | (.error e, _) => ⟨(ofThrown (.service e)).1, [], .message (ofThrown (.service e)).2⟩
  | .grantAttributes accessToken targetId input =>
      outcome 201 .managed (fun _ _ => []) []
        ((Admin.grantAttributes app.store app.env accessToken targetId input).run w)
  | .assignRole accessToken targetId input =>
      outcome 201 .managed (fun _ _ => []) []
        ((Admin.assignRole app.store app.env draws accessToken targetId input).run w)
  | .removeRole accessToken targetId input =>
      outcome 200 .managed (fun _ _ => []) []
        ((Admin.removeRole app.store app.env accessToken targetId input).run w)
  | .createDepartment accessToken input =>
      outcome 201 .department (fun _ _ => []) []
        ((Org.createDepartment app.env draws accessToken input).run w)
  | .createCompartment accessToken input =>
      outcome 201 .compartment (fun _ _ => []) []
        ((Org.createCompartment app.env draws accessToken input).run w)
  | .setUserMemberships accessToken userId memberships =>
      outcome 200 (fun _ => .success) (fun _ _ => []) []
        ((Org.setUserMemberships app.store app.env accessToken userId memberships).run w)
  | .setUserCompartments accessToken userId keys =>
      outcome 200 (fun _ => .success) (fun _ _ => []) []
        ((Org.setUserCompartments app.store app.env accessToken userId keys).run w)

end

/-! ## What a carried operation is like -/

/-- The inputs have passed the validation of a body. -/
def Admissible : Operation → Prop
  | .grantAttributes _ _ input =>
      (∀ n ∈ input.clearance, 0 ≤ n ∧ n ≤ 10) ∧ ∀ n ∈ input.level, 3 ≤ n ∧ n ≤ 12
  | .createDepartment _ input => SLUG input.slug = true
  | _ => True

/-- The tokens are those of the headers, and the user is named in the path. -/
def Presented (headers : Headers) (path : List String) : Operation → Prop
  | .refresh presented => presentedToken headers = some presented
  | .logout presented => presentedToken headers = some presented
  | .logoutAll token => requireAccessToken headers = .ok token
  | .changePassword token _ _ => requireAccessToken headers = .ok token
  | .grantAttributes token targetId _ => requireAccessToken headers = .ok token ∧ targetId ∈ path
  | .assignRole token targetId _ => requireAccessToken headers = .ok token ∧ targetId ∈ path
  | .removeRole token targetId _ => requireAccessToken headers = .ok token ∧ targetId ∈ path
  | .createDepartment token _ => requireAccessToken headers = .ok token
  | .createCompartment token _ => requireAccessToken headers = .ok token
  | .setUserMemberships token userId _ => requireAccessToken headers = .ok token ∧ userId ∈ path
  | .setUserCompartments token userId _ => requireAccessToken headers = .ok token ∧ userId ∈ path
  | _ => True

section

variable {σ : Type} {app : App σ} {headers : Headers} {path : List String} {id : String}
  {fields : Fields} {h : Handler} {op : Operation} {r : Request}

theorem accessToken_eq_some {token : String} :
    accessToken headers = some token ↔ requireAccessToken headers = .ok token := by
  unfold accessToken
  cases requireAccessToken headers <;> simp [Except.toOption]

theorem Handler.fields_eq_some {v : Validators} {json : Json} {dto : Dto} (classed : h.dto = some dto)
    (passed : h.fields v json = some fields) : ∃ body : Validated v dto, body.fields = fields := by
  rw [Handler.fields, classed] at passed
  obtain ⟨body, -, same⟩ := Option.map_eq_some_iff.mp passed
  exact ⟨body, same⟩

theorem Handler.operation_presented (carries : h.operation headers id fields = some op)
    (named : h.onUser = true → id ∈ path) : Presented headers path op := by
  cases h <;> simp only [Handler.operation, Option.map_eq_some_iff, Option.bind_eq_some_iff,
    Option.some.injEq, accessToken_eq_some, reduceCtorEq] at carries
  case refresh | logout =>
    obtain ⟨token, presented, rfl⟩ := carries
    exact presented
  case logoutAll | changePassword | createDepartment | createCompartment =>
    obtain ⟨token, taken, rfl⟩ := carries
    exact taken
  case assignRole | removeRole | grant | setCompartments =>
    obtain ⟨token, taken, rfl⟩ := carries
    exact ⟨taken, named rfl⟩
  case setMemberships =>
    obtain ⟨token, taken, memberships, -, rfl⟩ := carries
    exact ⟨taken, named rfl⟩
  all_goals
    subst carries
    trivial

theorem Handler.operation_reads (reads : h.reads = true) : h.operation headers id fields = none := by
  cases h with
  | me | listUsers | listRoles | listDepartments | listCompartments => rfl
  | _ => cases reads

theorem Handler.operation_admissible {v : Validators} {json : Json}
    (passed : h.fields v json = some fields) (carries : h.operation headers id fields = some op) :
    Admissible op := by
  cases h <;> simp only [Handler.operation, Option.map_eq_some_iff, Option.bind_eq_some_iff,
    Option.some.injEq, reduceCtorEq] at carries
  case grant =>
    obtain ⟨token, -, rfl⟩ := carries
    obtain ⟨body, rfl⟩ := Handler.fields_eq_some rfl passed
    exact GrantDto.input_bounds body
  case createDepartment =>
    obtain ⟨token, -, rfl⟩ := carries
    obtain ⟨body, rfl⟩ := Handler.fields_eq_some rfl passed
    exact CreateDepartmentDto.input_slug body
  case setMemberships =>
    obtain ⟨token, -, memberships, -, rfl⟩ := carries
    trivial
  case refresh | logout | logoutAll | changePassword | assignRole | removeRole | createCompartment |
      setCompartments =>
    obtain ⟨token, -, rfl⟩ := carries
    trivial
  all_goals
    subst carries
    trivial

theorem authEndpoints_unambiguous : Unambiguous authEndpoints := by decide

theorem onUser_endpoint : ∀ e ∈ authEndpoints, ∀ h, e.action.handler e.method = some h →
    h.onUser = true → Segment.param ∈ e.pattern := by decide

/-- At its endpoint, a request carries what the handler of the endpoint reads off it. -/
theorem carried_eq {e : Route Method Endpoint} (listed : e ∈ authEndpoints) {values : List String}
    (method : e.method = r.method) (matched : e.pattern.matchPath r.path = some values)
    (handled : e.action.handler e.method = some h) :
    carried app r = (app.parseBody (r.headers "content-type") r.body).bind fun json =>
      (h.fields app.validators json).bind fun fields =>
        h.operation r.headers (values.headD "") fields := by
  have found : dispatch authEndpoints r.method r.path = some (e.action, values) :=
    (dispatch_eq_some authEndpoints_unambiguous).mpr ⟨e, listed, method, matched, rfl⟩
  rw [method] at handled
  simp only [carried, found, handled, Option.bind_eq_bind, Option.bind_some]

/-- The steps of a request to its operation. -/
theorem carried_eq_some (carries : carried app r = some op) :
    ∃ e ∈ authEndpoints, ∃ values handler json fields, e.method = r.method ∧
      e.pattern.matchPath r.path = some values ∧ e.action.handler e.method = some handler ∧
      app.parseBody (r.headers "content-type") r.body = some json ∧
      handler.fields app.validators json = some fields ∧
      handler.operation r.headers (values.headD "") fields = some op := by
  simp only [carried, Option.bind_eq_bind, Option.bind_eq_some_iff] at carries
  obtain ⟨⟨endpoint, values⟩, found, handler, handled, json, parsed, fields, passed, carries⟩ := carries
  obtain ⟨e, listed, method, matched, rfl⟩ := (dispatch_eq_some authEndpoints_unambiguous).mp found
  exact ⟨e, listed, values, handler, json, fields, method, matched, method ▸ handled, parsed, passed,
    carries⟩

theorem carried_admissible (carries : carried app r = some op) : Admissible op := by
  obtain ⟨_, -, _, _, _, _, -, -, -, -, passed, carries⟩ := carried_eq_some carries
  exact Handler.operation_admissible passed carries

theorem carried_presented (carries : carried app r = some op) : Presented r.headers r.path op := by
  obtain ⟨e, listed, values, handler, _, _, -, matched, handled, -, -, carries⟩ :=
    carried_eq_some carries
  refine Handler.operation_presented carries fun onUser => ?_
  exact Pattern.head_mem_of_matchPath matched (onUser_endpoint e listed handler handled onUser)

/-- The target of an operation that a request carries is named in its path. -/
theorem Presented.targets {userId : String} (presented : Presented headers path op)
    (targeted : op.Targets userId) : userId ∈ path := by
  cases op with
  | grantAttributes _ _ _ => exact targeted ▸ presented.2
  | setUserMemberships _ _ _ => exact targeted ▸ presented.2
  | setUserCompartments _ _ _ => exact targeted ▸ presented.2
  | _ => exact targeted.elim

end

end Arac.Http
