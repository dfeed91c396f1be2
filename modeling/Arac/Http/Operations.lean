/-
# Arac.Http.Operations -- what a request does to the world

A request to the gateway that carries an operation does that operation, and its answer is the
reply to it; a request that carries none leaves the world as it is, and so does every `GET`
(`gateway_refines`).  The operation is read off the request alone, so what the services see
of a request is its validated body, the tokens of its own headers and the user in its path.

What holds of the operations in any order then holds of the requests in any order
(`served_steps`).
-/
import Arac.Http.Carried
import Arac.Mediation.Writes
import Arac.Org.Transactions

namespace Arac.Http

open Arac.Theory Arac.Sessions Arac.Db Arac.Service Arac.Rbac Arac.Admin Arac.Org Arac.Auth Arac.Web
  Arac.Mediation

set_option autoImplicit false

section

variable {σ α β : Type}

/-- The reply and the world after it are those of the operation; where there is none, the
world is the same. -/
def Does (app : App σ) (draws : Draws) (w : World σ) : Option Operation → Reply × World σ → Prop
  | none, out => out.2 = w
  | some op, out => out = (app.replyTo draws w op, ((op.service app.store app.env draws).run w).2)

/-! ## Handlers -/

variable {app : App σ} {validator : Validator} {draws : Draws} {headers : Headers} {w : World σ}
  {status : Nat} {id : String}

theorem run_void_eq (p : Service σ α) (w : World σ) :
    p.void.run w = ((p.run w).1.map fun _ => (), (p.run w).2) := by
  rw [Prog.void, Prog.run_bind]
  rcases p.run w with ⟨result, w'⟩
  cases result <;> rfl

theorem reply_respond (status : Nat) (payload : β → Payload) (p : Service σ α) (value : α → β)
    (cookies : World σ → α → List CookieCall) (w : World σ) :
    App.reply status payload (respond p value cookies w) =
      (outcome status (fun a => payload (value a)) cookies [] (p.run w), (p.run w).2) := by
  unfold respond
  rcases p.run w with ⟨result, w'⟩
  cases result <;> rfl

/-- A handler that responds with the outcome of a service does the operation of that service. -/
theorem does_respond {op : Operation} {p : Service σ α} {value : α → β}
    {cookies : World σ → α → List CookieCall} {payload : β → Payload}
    (replies : app.replyTo draws w op =
      outcome status (fun a => payload (value a)) cookies [] (p.run w))
    (world : ((op.service app.store app.env draws).run w).2 = (p.run w).2) :
    Does app draws w (some op) (App.reply status payload (respond p value cookies w)) := by
  rw [Does, reply_respond, replies, world]

/-- A handler that needs a token, and calls with it a service that changes nothing. -/
theorem withToken_quiet {f : String → Service σ α} (quiet : ∀ token, Quiet (f token))
    (taken : Except Thrown String) (w : World σ) : (withToken taken f w).2 = w := by
  cases taken with
  | error e => rfl
  | ok token => exact (respond_world _ _ _ w).trans ((quiet token).run w)

/-- A handler that needs a token, and does an operation with it. -/
theorem does_withToken {f : String → Service σ α} {payload : α → Payload} (op : String → Operation)
    (replies : ∀ token, app.replyTo draws w (op token) =
      outcome status payload (fun _ _ => []) [] ((f token).run w))
    (world : ∀ token, (((op token).service app.store app.env draws).run w).2 = ((f token).run w).2) :
    Does app draws w ((accessToken headers).map op)
      (App.reply status payload (withToken (requireAccessToken headers) f w)) := by
  unfold accessToken
  cases requireAccessToken headers with
  | error e => rfl
  | ok token => exact does_respond (replies token) (world token)

/-- A body that is refused does nothing, and one that passes is handled by its fields. -/
theorem does_withBody (h : Handler) (id : String) {dto : Dto} (classed : h.dto = some dto) {json : Json}
    {handle : Fields → Reply × World σ}
    (accepted : ∀ fields, Does app draws w (h.operation headers id fields) (handle fields)) :
    Does app draws w ((h.fields app.validators json).bind fun fields => h.operation headers id fields)
      (app.withBody dto json handle w) := by
  unfold App.withBody Handler.fields
  rw [classed]
  dsimp only
  cases dto.validate app.validators json with
  | error wrong => rfl
  | ok body => exact accepted body.fields

/-! ## Reads -/

theorem quiet_me (env : Env) (accessToken : String) :
    Quiet (AuthService.me env accessToken : Service σ AuthService.Me) := by
  refine .bind (quiet_authenticate _ _) fun verified => .bind (IdentityProvider.quiet_findById _) ?_
  intro found
  cases found with
  | none => exact .fail _
  | some user =>
      exact .bind (.bind (.query _) fun _ => .pure _) fun _ => .bind (quiet_can _ _ _) fun _ => .pure _

theorem quiet_callerId (env : Env) (accessToken : String) :
    Quiet (callerId env accessToken : Service σ String) :=
  .bind (quiet_authenticate _ _) fun _ => .pure _

theorem quiet_listUsers (env : Env) (accessToken : String) :
    Quiet (Admin.listUsers env accessToken : Service σ (List AdminUserView)) := by
  refine .bind (quiet_callerId _ _) fun caller => .bind ?_ fun scopes => ?_
  · exact .bind (quiet_effectiveGrants _) fun _ => .pure _
  · split
    · exact .fail _
    · exact .query _

theorem quiet_listRoles (env : Env) (accessToken : String) :
    Quiet (Admin.listRoles env accessToken : Service σ (List RoleView)) := by
  refine .bind (quiet_callerId _ _) fun caller => .bind (quiet_can _ _ _) fun allowed => ?_
  split
  · exact .query _
  · exact .fail _

theorem quiet_listDepartments (env : Env) (accessToken : String) :
    Quiet (Org.listDepartments env accessToken : Service σ (List DepartmentView)) :=
  .bind (quiet_require _ _ _) fun _ => .query _

theorem quiet_listCompartments (env : Env) (accessToken : String) :
    Quiet (Org.listCompartments env accessToken : Service σ (List CompartmentView)) :=
  .bind (quiet_require _ _ _) fun _ => .query _

theorem quiet_setBrokenMemberships (env : Env) (accessToken userId : String) :
    Quiet (setBrokenMemberships env accessToken userId : Service σ Unit) := by
  refine .bind (quiet_require _ _ _) fun _ => .bind (.query _) fun found => ?_
  cases found with
  | none => exact .fail _
  | some _ => exact .fail _

/-! ## Each handler -/

theorem does_refresh (draws : Draws) (headers : Headers) (w : World σ) :
    Does app draws w ((presentedToken headers).map .refresh)
      (App.reply 201 .user (app.refresh draws headers w)) := by
  unfold App.refresh AuthController.refresh presentedToken
  cases AuthController.readCookie (headers "cookie") REFRESH_COOKIE with
  | error e => rfl
  | ok token =>
      dsimp only [Except.toOption, Option.bind_some]
      cases truthy token with
      | none => rfl
      | some value =>
          dsimp only [Option.map_some, Does, App.replyTo, Operation.service]
          rw [Prog.runUnder_answers, Prog.run_void_snd]
          rcases (AuthService.refresh app.store app.env draws value).run w with ⟨result, w'⟩
          cases result <;> rfl

theorem does_logout (draws : Draws) (headers : Headers) (w : World σ) :
    Does app draws w ((presentedToken headers).map .logout)
      (App.reply 201 (fun _ => .success) (app.logout headers w)) := by
  unfold App.logout AuthController.logout presentedToken
  cases AuthController.readCookie (headers "cookie") REFRESH_COOKIE with
  | error e => rfl
  | ok token =>
      dsimp only [Except.toOption, Option.bind_some]
      cases truthy token with
      | none => rfl
      | some value =>
          dsimp only [Option.map_some, Does, App.replyTo, Operation.service]
          rw [Prog.runUnder_answers]
          rcases (AuthService.logout app.store value).run w with ⟨result, w'⟩
          cases result <;> rfl

theorem does_logoutAll (draws : Draws) (headers : Headers) (w : World σ) :
    Does app draws w ((accessToken headers).map .logoutAll)
      (App.reply 201 (fun _ => .success) (app.logoutAll headers w)) := by
  unfold App.logoutAll accessToken
  cases requireAccessToken headers with
  | error e => rfl
  | ok token => exact does_respond rfl rfl

theorem does_reset (draws : Draws) (body : Fields) (w : World σ) :
    Does app draws w (some (.reset (text body "token") (text body "newPassword")))
      (App.reply 201 (fun _ => .success) (app.reset draws body w)) := by
  dsimp only [Does, App.replyTo, Operation.service]
  rw [Prog.run_void_snd]
  unfold App.reset
  rcases (PasswordResetService.reset app.store app.env draws (text body "token")
    (text body "newPassword")).run w with ⟨result, w'⟩
  cases result with
  | error e => rfl
  | ok taken => cases taken <;> rfl

theorem does_changePassword (draws : Draws) (headers : Headers) (body : Fields) (w : World σ) :
    Does app draws w (Handler.changePassword.operation headers id body)
      (App.reply 201 .user (app.changePassword draws headers body w)) := by
  unfold App.changePassword
  dsimp only [Handler.operation, accessToken]
  cases requireAccessToken headers with
  | error e => rfl
  | ok token => exact does_respond rfl (Prog.run_void_snd _ w)

theorem does_setMemberships (draws : Draws) (headers : Headers) (body : Fields) (w : World σ) :
    Does app draws w (Handler.setMemberships.operation headers id body)
      (App.reply 200 (fun _ => .success) (app.setMemberships headers id body w)) := by
  unfold App.setMemberships
  rw [accessToken_eq.2]
  dsimp only [Handler.operation]
  cases (SetMembershipsDto.memberships body).mapM fun m => m with
  | none =>
      have nothing : ((accessToken headers).bind fun token =>
          Option.map (Operation.setUserMemberships token id) none) = none := by
        cases accessToken headers <;> rfl
      rw [nothing]
      exact withToken_quiet (quiet_setBrokenMemberships _ · id) _ w
  | some memberships =>
      have single : ((accessToken headers).bind fun token =>
          Option.map (Operation.setUserMemberships token id) (some memberships)) =
          (accessToken headers).map fun token => .setUserMemberships token id memberships := by
        cases accessToken headers <;> rfl
      rw [single]
      exact does_withToken _ (fun _ => rfl) fun _ => rfl

/-- Every handler does what it carries. -/
theorem does_handle (json : Json) (id : String) (h : Handler) :
    Does app draws w ((h.fields app.validators json).bind fun fields => h.operation headers id fields)
      (app.handle draws headers json id w h) := by
  have admin := accessToken_eq.1
  have org := accessToken_eq.2
  unfold App.handle
  cases h with
  | login =>
      apply does_withBody .login id rfl
      intro body
      exact does_respond rfl (Prog.run_void_snd _ w)
  | signup =>
      apply does_withBody .signup id rfl
      intro body
      exact does_respond rfl (Prog.run_void_snd _ w)
  | refresh => exact does_refresh draws headers w
  | logout => exact does_logout draws headers w
  | logoutAll => exact does_logoutAll draws headers w
  | forgot =>
      apply does_withBody .forgot id rfl
      intro body
      exact does_respond rfl rfl
  | reset => exact does_withBody .reset id rfl fun body => does_reset draws body w
  | changePassword => exact does_withBody .changePassword id rfl fun body => does_changePassword draws headers body w
  | me => exact withToken_quiet (quiet_me _) _ w
  | listUsers => exact withToken_quiet (quiet_listUsers _) _ w
  | listRoles => exact withToken_quiet (quiet_listRoles _) _ w
  | assignRole =>
      apply does_withBody .assignRole id rfl
      intro body
      unfold App.assignRole
      rw [admin]
      exact does_withToken _ (fun _ => rfl) fun _ => Prog.run_void_snd _ w
  | removeRole =>
      apply does_withBody .removeRole id rfl
      intro body
      unfold App.removeRole
      rw [admin]
      exact does_withToken _ (fun _ => rfl) fun _ => Prog.run_void_snd _ w
  | grant =>
      apply does_withBody .grant id rfl
      intro body
      unfold App.grant
      rw [admin]
      exact does_withToken _ (fun _ => rfl) fun _ => Prog.run_void_snd _ w
  | listDepartments => exact withToken_quiet (quiet_listDepartments _) _ w
  | createDepartment =>
      apply does_withBody .createDepartment id rfl
      intro body
      unfold App.createDepartment
      rw [org]
      exact does_withToken _ (fun _ => rfl) fun _ => Prog.run_void_snd _ w
  | listCompartments => exact withToken_quiet (quiet_listCompartments _) _ w
  | createCompartment =>
      apply does_withBody .createCompartment id rfl
      intro body
      unfold App.createCompartment
      rw [org]
      exact does_withToken _ (fun _ => rfl) fun _ => Prog.run_void_snd _ w
  | setMemberships => exact does_withBody .setMemberships id rfl fun body => does_setMemberships draws headers body w
  | setCompartments =>
      apply does_withBody .setCompartments id rfl
      intro body
      unfold App.setCompartments
      rw [org]
      exact does_withToken _ (fun _ => rfl) fun _ => rfl

/-! ## Reads -/

theorem reads_handle (json : Json) (id : String) {h : Handler} (reads : h.reads = true) :
    (app.handle draws headers json id w h).2 = w := by
  cases h with
  | me => exact withToken_quiet (quiet_me _) _ w
  | listUsers => exact withToken_quiet (quiet_listUsers _) _ w
  | listRoles => exact withToken_quiet (quiet_listRoles _) _ w
  | listDepartments => exact withToken_quiet (quiet_listDepartments _) _ w
  | listCompartments => exact withToken_quiet (quiet_listCompartments _) _ w
  | _ => cases reads

theorem reads_get : ∀ r ∈ routes, r.method = .get → r.action.reads = true := by decide

/-- Reading changes nothing. -/
theorem serve_get {r : Request} (get : App.routed r.method = .get) : (app.serve draws r w).2 = w := by
  unfold App.serve
  cases app.parseBody (r.headers "content-type") r.body with
  | none => rfl
  | some json =>
      dsimp only
      cases found : dispatch routes (App.routed r.method) r.path with
      | none => rfl
      | some action =>
          obtain ⟨handler, params⟩ := action
          obtain ⟨route, listed, method, -, rfl⟩ := (dispatch_eq_some routes_unambiguous).mp found
          exact reads_handle json _ (reads_get route listed (method.trans get))

/-- A `GET` changes nothing. -/
theorem gateway_get {r : Request} (get : App.routed r.method = .get) :
    (Gateway.serve app validator draws r w).2 = w := by
  unfold Gateway.serve
  cases sent : forward r with
  | none => rfl
  | some target =>
      obtain ⟨backend, forwarded⟩ := target
      cases backend with
      | ragGateway =>
          dsimp only
          split
          · rfl
          · split <;> rfl
      | authService =>
          obtain ⟨_, _, _, _, _, _, _, method, _⟩ := forward_routed sent
          exact serve_get (method.symm ▸ get)

/-! ## Requests to the gateway -/

/-- A handler that takes a token gets the headers it may be in, and one that is no read the
type of the body. -/
theorem endpoint_headers : ∀ e ∈ authEndpoints, ∀ h, e.action.handler e.method = some h →
    (h.isPublic = true ∨ ("authorization" ∈ e.action.inputHeaders ∧ "cookie" ∈ e.action.inputHeaders)) ∧
      (h.reads = true ∨ "content-type" ∈ e.action.inputHeaders) := by decide

theorem reads_endpoint : ∀ e ∈ authEndpoints, ∀ h, e.action.handler e.method = some h →
    h.reads = true → e.method = .get := by decide

/-- The backend sees the tokens that the client has sent. -/
theorem operation_forwarded {h : Handler} {headers forwarded : Headers} {fields : Fields}
    (same : h.isPublic = true ∨
      (forwarded "authorization" = headers "authorization" ∧ forwarded "cookie" = headers "cookie")) :
    h.operation forwarded id fields = h.operation headers id fields := by
  rcases same with isPublic | ⟨bearer, cookie⟩
  · cases h with
    | login | signup | forgot | reset => rfl
    | _ => cases isPublic
  · have tokens : accessToken forwarded = accessToken headers := by
      unfold accessToken requireAccessToken takeToken
      rw [bearer, cookie]
    have presented : presentedToken forwarded = presentedToken headers := by
      unfold presentedToken
      rw [cookie]
    cases h <;> simp only [Handler.operation, tokens, presented]

/-- A path that an endpoint of the auth service matches can be filled in at the backend. -/
theorem forward_authEndpoint {e : Route Method Endpoint} (listed : e ∈ authEndpoints) {r : Request}
    {values : List String} (method : e.method = r.method)
    (matched : e.pattern.matchPath r.path = some values) :
    ∃ forwarded, forward r = some (.authService, forwarded) := by
  have found : dispatch endpoints r.method r.path = some (e.action, values) :=
    (dispatch_eq_some endpoints_unambiguous).mpr
      ⟨e, List.mem_append.mpr (Or.inl listed), method, matched, rfl⟩
  have prefixed : ∀ e ∈ authEndpoints, e.action.backend = .authService ∧
      e.pattern = .fixed "api" :: e.action.urlPattern := by decide
  obtain ⟨backend, pattern⟩ := prefixed e listed
  have filled : ∃ path, e.action.urlPattern.fill values = some path := by
    have whole := Pattern.fill_of_matchPath matched
    rw [pattern] at whole
    obtain ⟨path, filled, -⟩ := Option.map_eq_some_iff.mp whole
    exact ⟨path, filled⟩
  obtain ⟨path, filled⟩ := filled
  simp only [forward, found, Endpoint.forward, filled, backend, Option.bind_eq_bind, Option.bind_some,
    Option.map_some, Option.pure_def]
  exact ⟨_, rfl⟩

/-- The auth service does what the request carried when the gateway got it. -/
theorem serve_does {r forwarded : Request} (draws : Draws)
    (sent : forward r = some (.authService, forwarded)) (w : World σ) :
    Does app draws w (carried app r) (app.serve draws forwarded w) := by
  obtain ⟨e, listed, values, h, method, matched, handled, method', body, selected, found⟩ :=
    forward_routed sent
  rw [carried_eq listed method matched handled]
  obtain ⟨session, typed⟩ := endpoint_headers e listed h handled
  rcases typed with reads | typed
  · -- a read carries nothing, whatever its body is
    have nothing : ((app.parseBody (r.headers "content-type") r.body).bind fun json =>
        (h.fields app.validators json).bind fun fields =>
          h.operation r.headers (values.headD "") fields) = none := by
      simp only [Handler.operation_reads reads, Option.bind_fun_none]
    rw [nothing]
    refine serve_get ?_
    rw [method', ← method, reads_endpoint e listed h handled reads]
    rfl
  · have parsed : app.parseBody (forwarded.headers "content-type") forwarded.body =
        app.parseBody (r.headers "content-type") r.body := by
      rw [selected, if_pos typed, body]
    unfold App.serve
    rw [parsed]
    cases app.parseBody (r.headers "content-type") r.body with
    | none => rfl
    | some json =>
        have tokens : h.isPublic = true ∨
            (forwarded.headers "authorization" = r.headers "authorization" ∧
              forwarded.headers "cookie" = r.headers "cookie") := by
          refine session.imp_right ?_
          rintro ⟨bearer, cookie⟩
          exact ⟨(selected _).trans (if_pos bearer), (selected _).trans (if_pos cookie)⟩
        simp only [found, Option.bind_some, ← operation_forwarded tokens]
        exact does_handle json _ h

/-- A request to the gateway does what it carries, and the answer is the reply to that. -/
theorem gateway_does (app : App σ) (validator : Validator) (draws : Draws) (r : Request) (w : World σ) :
    (carried app r = none → (Gateway.serve app validator draws r w).2 = w) ∧
      ∀ op, carried app r = some op → Gateway.serve app validator draws r w =
        (.auth (app.replyTo draws w op), ((op.service app.store app.env draws).run w).2) := by
  -- only an endpoint of the auth service carries anything
  have elsewhere : (∀ forwarded, forward r ≠ some (.authService, forwarded)) → carried app r = none := by
    intro unsent
    by_contra carries
    obtain ⟨op, carries⟩ := Option.ne_none_iff_exists'.mp carries
    obtain ⟨e, listed, _, _, _, _, method, matched, -⟩ := carried_eq_some carries
    obtain ⟨forwarded, sent⟩ := forward_authEndpoint listed method matched
    exact unsent forwarded sent
  unfold Gateway.serve
  cases sent : forward r with
  | none =>
      have nothing := elsewhere fun forwarded same => by rw [sent] at same; cases same
      rw [nothing]
      exact ⟨fun _ => rfl, fun op carries => by cases carries⟩
  | some target =>
      obtain ⟨backend, forwarded⟩ := target
      cases backend with
      | ragGateway =>
          have nothing := elsewhere fun forwarded same => by rw [sent] at same; cases same
          rw [nothing]
          refine ⟨fun _ => ?_, fun op carries => by cases carries⟩
          dsimp only
          split
          · rfl
          · split <;> rfl
      | authService =>
          dsimp only
          have does : Does app draws w (carried app r) (app.serve draws forwarded w) :=
            serve_does draws sent w
          cases carries : carried app r with
          | none =>
              rw [carries] at does
              exact ⟨fun _ => does, fun op other => by cases other⟩
          | some op =>
              rw [carries] at does
              refine ⟨fun nothing => (by cases nothing), ?_⟩
              rintro _ ⟨⟩
              rw [show app.serve draws forwarded w = _ from does]

/-! ## What a reply says -/

theorem ofThrown_status (e : Thrown) : 400 ≤ (ofThrown e).1 := by
  cases e with
  | uriError => decide
  | service e => cases e <;> simp [ofThrown]

/-- A success tells that the service has answered, an error that it has thrown. -/
theorem outcome_status (success : status < 400) (payload : α → Payload)
    (cookies : World σ → α → List CookieCall) (failed : List CookieCall) (p : Service σ α) (w : World σ) :
    ((outcome status payload cookies failed (p.run w)).status < 400 ∧
        ((p.run w).1.map fun _ => ()) = .ok ()) ∨
      (400 ≤ (outcome status payload cookies failed (p.run w)).status ∧
        ∃ e, ((p.run w).1.map fun _ => ()) = .error e) := by
  rcases p.run w with ⟨result, w'⟩
  cases result with
  | ok a => exact Or.inl ⟨success, rfl⟩
  | error e => exact Or.inr ⟨ofThrown_status _, e, rfl⟩

/-- A token that nobody holds changes neither tables nor mails. -/
theorem reset_false {S : SessionStore σ} {env : Env} {token new : String} {w' : World σ}
    (run : (PasswordResetService.reset S env draws token new).run w = (.ok false, w')) :
    Retained w w' := by
  unfold PasswordResetService.reset PasswordResetService.takeReset at run
  rw [Prog.run_bind_ok (Prog.run_call _ w)] at run
  dsimp only at run
  split at run
  · cases run
    exact ⟨rfl, rfl⟩
  · obtain ⟨_, _, -, run⟩ := Prog.run_bind_eq_ok.mp run
    obtain ⟨_, _, -, run⟩ := Prog.run_bind_eq_ok.mp run
    cases run

/-- The status of the reply to an operation: a success where it has answered; an error where it
has thrown, and where a reset has found nothing to reset. -/
theorem replyTo_status (app : App σ) (draws : Draws) (w : World σ) (op : Operation) :
    ((app.replyTo draws w op).status < 400 ∧
        ((op.service app.store app.env draws).run w).1 = .ok ()) ∨
      (400 ≤ (app.replyTo draws w op).status ∧
        ((∃ e, ((op.service app.store app.env draws).run w).1 = .error e) ∨
          Retained w ((op.service app.store app.env draws).run w).2)) := by
  have unit : ∀ p : Service σ Unit, (p.run w).1 = (p.run w).1.map fun _ => () := by
    intro p
    cases (p.run w).1 <;> rfl
  cases op with
  | reset token new =>
      dsimp only [App.replyTo, Operation.service]
      rw [run_void_eq]
      rcases ran : (PasswordResetService.reset app.store app.env draws token new).run w with ⟨result, w'⟩
      rcases result with e | taken
      · exact Or.inr ⟨ofThrown_status _, Or.inl ⟨e, rfl⟩⟩
      · cases taken with
        | true => exact Or.inl ⟨(by decide : 201 < 400), rfl⟩
        | false => exact Or.inr ⟨(by decide : 400 ≤ 400), Or.inr (reset_false ran)⟩
  | logout | logoutAll | requestReset | setUserMemberships | setUserCompartments =>
      dsimp only [App.replyTo, Operation.service]
      rw [unit]
      exact (outcome_status (by decide) _ _ _ _ w).imp_right fun failed => ⟨failed.1, Or.inl failed.2⟩
  | _ =>
      dsimp only [App.replyTo, Operation.service]
      rw [run_void_eq]
      exact (outcome_status (by decide) _ _ _ _ w).imp_right fun failed => ⟨failed.1, Or.inl failed.2⟩

/-- Whatever is sent to the gateway in whatever state: a `GET` or a `HEAD` changes nothing,
nor does a request that carries no operation.  A request that carries one is answered with the
reply to that operation and leaves the world after it; its inputs are validated, its tokens are
those of its own headers, its user is named in its path, and it has succeeded where the reply
says so. -/
theorem gateway_refines (app : App σ) (validator : Validator) (draws : Draws) (r : Request)
    (w : World σ) :
    (App.routed r.method = .get → (Gateway.serve app validator draws r w).2 = w) ∧
      (carried app r = none → (Gateway.serve app validator draws r w).2 = w) ∧
      ∀ op, carried app r = some op →
        Gateway.serve app validator draws r w =
          (.auth (app.replyTo draws w op), ((op.service app.store app.env draws).run w).2) ∧
        Admissible op ∧ Presented r.headers r.path op ∧
        ((app.replyTo draws w op).status < 400 →
          ((op.service app.store app.env draws).run w).1 = .ok ()) := by
  obtain ⟨nothing, something⟩ := gateway_does app validator draws r w
  refine ⟨gateway_get, nothing, fun op carries => ?_⟩
  refine ⟨something op carries, carried_admissible carries, carried_presented carries, fun success => ?_⟩
  rcases replyTo_status app draws w op with ⟨-, answered⟩ | ⟨failed, -⟩
  · exact answered
  · exact absurd success (Nat.not_lt.mpr failed)

/-- A request does nothing, or the operation that it carries. -/
theorem gateway_cases (app : App σ) (validator : Validator) (draws : Draws) (r : Request)
    (w : World σ) :
    (Gateway.serve app validator draws r w).2 = w ∨
      ∃ op result, carried app r = some op ∧
        (Gateway.serve app validator draws r w).1 = .auth (app.replyTo draws w op) ∧
        (op.service app.store app.env draws).run w =
          (result, (Gateway.serve app validator draws r w).2) := by
  obtain ⟨nothing, something⟩ := gateway_does app validator draws r w
  cases carries : carried app r with
  | none => exact Or.inl (nothing carries)
  | some op =>
      refine Or.inr ⟨op, ((op.service app.store app.env draws).run w).1, rfl, ?_, ?_⟩
      · rw [something op carries]
      · rw [something op carries]

/-! ## Runs of requests -/

/-- Somebody sends a request to the gateway, or time passes. -/
inductive Served (app : App σ) (validator : Validator) : World σ → World σ → Prop
  | request (draws : Draws) (r : Request) (w : World σ) :
      Served app validator w (Gateway.serve app validator draws r w).2
  | elapse (w : World σ) (ms : Nat) : Served app validator w (w.elapse app.store ms)

/-- A run of requests is a run of admissible operations. -/
theorem served_steps {w' : World σ} (run : Relation.ReflTransGen (Served app validator) w w') :
    Relation.ReflTransGen (Step app.store app.env fun op _ => Admissible op) w w' := by
  induction run with
  | refl => exact .refl
  | tail _ last ih =>
      cases last with
      | elapse _ ms => exact ih.tail (.elapse _ ms)
      | request draws r _ =>
          rcases gateway_cases app validator draws r _ with same | ⟨op, result, carries, -, ran⟩
          · rw [same]
            exact ih
          · exact ih.tail (.operation draws op ran (carried_admissible carries))

end

end Arac.Http
