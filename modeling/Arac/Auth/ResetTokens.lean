/-
# Arac.Auth.ResetTokens -- what a password replacement leaves of older reset links

A `History` is the world together with the reset tokens that were issued, and to
whom.  `reset` consumes the token it is given and `changePassword` none; no operation
looks for the other tokens of the user.  So a replacement invalidates what was issued
before it exactly where nothing else is outstanding (`invalidatesIssued_iff`).
-/
import Arac.Auth.PasswordRace

namespace Arac.Auth

open Arac.Theory Arac.Sessions Arac.Db Arac.Service

set_option autoImplicit false

variable {σ : Type}

/-- The account to which a reset link for this email is mailed. -/
def recipient (env : Env) (w : World σ) (email : String) : Option Db.User :=
  (w.db.userByEmail (IdentityProvider.normalizeEmail env email)).filter (·.status = .active)

/-- A reset token is there: a `reset` with it finds a user. -/
def Outstanding (env : Env) (w : World σ) (token : String) : Prop :=
  truthy (w.resets.get (env.sha256 token)) ≠ none

/-- The token that a replacement presents. -/
def PasswordReplacement.presents : PasswordReplacement → Option String
  | .changePassword _ _ _ _ => none
  | .reset _ token _ => some token

/-- The replacement succeeds, for this user. -/
def PasswordReplacement.Succeeds (S : SessionStore σ) (env : Env) (w : World σ) (userId : String) :
    PasswordReplacement → Prop
  | .changePassword draws accessToken current new => ∃ result w',
      (AuthService.changePassword S env draws accessToken current new).run w = (.ok result, w') ∧
        result.user.id = userId
  | .reset draws token new => ∃ w',
      (PasswordResetService.reset S env draws token new).run w = (.ok true, w') ∧
        w.resets.get (env.sha256 token) = some userId

/-! ## Runs -/

/-- The world, and every reset token issued so far with its user. -/
structure History (σ : Type) where
  world : World σ
  issued : List (String × String)

section

variable (S : SessionStore σ) (env : Env)

/-- The history after a password replacement. -/
def History.replace (h : History σ) (replacement : PasswordReplacement) : History σ :=
  { h with world := ((replacement.service S env).run h.world).2 }

inductive ResetStep : History σ → History σ → Prop
  | requestReset {h : History σ} (draws : Draws) (email : String)
      (fresh : ∀ userId, (draws.token, userId) ∉ h.issued) :
      ResetStep h
        { world := ((PasswordResetService.requestReset env draws email).run h.world).2
          issued := (recipient env h.world email).toList.map (fun user => (draws.token, user.id)) ++
            h.issued }
  | replace {h : History σ} (replacement : PasswordReplacement) :
      ResetStep h (h.replace S env replacement)
  | elapse {h : History σ} (ms : Nat) : ResetStep h { h with world := h.world.elapse S ms }

def ResetRun : History σ → History σ → Prop := Relation.ReflTransGen (ResetStep S env)

/-- No call of `reset` takes the token. -/
def Rejected (w : World σ) (token : String) : Prop :=
  ∀ draws new, ((PasswordResetService.reset S env draws token new).run w).1 = .ok false

/-- After the replacement, every token issued to the user before it is rejected for
good. -/
def InvalidatesIssued (h : History σ) (replacement : PasswordReplacement) (userId : String) : Prop :=
  ∀ h', ResetRun S env (h.replace S env replacement) h' →
    ∀ token, (token, userId) ∈ h.issued → Rejected S env h'.world token

end

/-! ## What the calls do to the pending resets -/

section

variable {S : SessionStore σ} {env : Env} {w : World σ}

theorem run_requestReset (draws : Draws) (email : String) :
    (PasswordResetService.requestReset env draws email).run w =
      (.ok (), match recipient env w email with
        | none => w
        | some user =>
            { w with
              resets := w.resets.put (env.sha256 draws.token)
                ⟨user.id, some (w.now + PasswordResetService.RESET_TTL_SECONDS * 1000)⟩
              outbox := w.outbox ++ [{
                recipient := user.email
                url := env.appBaseUrl ++ "/reset-password?token=" ++
                  env.encodeURIComponent draws.token }] }) := by
  unfold PasswordResetService.requestReset recipient
  rw [Prog.run_bind_ok (run_query _ w)]
  cases w.db.userByEmail (IdentityProvider.normalizeEmail env email) with
  | none => rfl
  | some user =>
      by_cases active : user.status = .active
      · simp only [active, ne_eq, not_true_eq_false, if_false, Option.filter_some, decide_true, if_true]
        rfl
      · simp only [active, ne_eq, not_false_eq_true, if_true, Option.filter_some, decide_false,
          Bool.false_eq_true, if_false]
        rfl

/-- The rest of a `reset` that found its user. -/
def replaceFor (S : SessionStore σ) (env : Env) (draws : Draws) (userId new : String) :
    Service σ Bool := do
  IdentityProvider.changePassword env draws userId new
  revokeUser S userId
  return true

theorem run_reset (draws : Draws) (token new : String) :
    (PasswordResetService.reset S env draws token new).run w =
      match truthy (w.resets.get (env.sha256 token)) with
      | none => (.ok false, { w with resets := w.resets.del (env.sha256 token) })
      | some userId => (replaceFor S env draws userId new).run
          { w with resets := w.resets.del (env.sha256 token) } := by
  have taken : (PasswordResetService.takeReset (env.sha256 token)).run w =
    (.ok (w.resets.get (env.sha256 token)),
      { w with resets := w.resets.del (env.sha256 token) }) := rfl
  rw [PasswordResetService.reset, Prog.run_bind_ok taken]
  cases truthy (w.resets.get (env.sha256 token)) <;> rfl

/-- A call that leaves the pending resets alone. -/
def KeepsResets (w w' : World σ) : Prop := w'.resets = w.resets

theorem keepsResets_trans (u v w : World σ) (first : KeepsResets u v) (second : KeepsResets v w) :
    KeepsResets u w := Eq.trans second first

theorem keepsResets_quiet {α : Type} {p : Service σ α} (quiet : Quiet p) :
    p.Guarantees KeepsResets := by
  apply quiet.mono
  rintro w _ rfl
  rfl

theorem keepsResets_issueFor (draws : Draws) (user : User) :
    (AuthService.issueFor S env draws user).Guarantees KeepsResets := by
  refine .bind (keepsResets_quiet (quiet_toIdentity user)) ?_
  intro identity
  refine .bind (keepsResets_quiet (quiet_signAccessToken env identity draws.jti)) ?_
  intro access
  exact .bind (.call fun _ => rfl) fun _ => .pure _

theorem keepsResets_replace (draws : Draws) (userId new : String) :
    (IdentityProvider.changePassword env draws userId new : Service σ Unit).Guarantees
      KeepsResets :=
  commit_guarantees (fun _ => rfl) fun _ _ _ => rfl

theorem keepsResets_changePassword (draws : Draws) (accessToken current new : String) :
    (AuthService.changePassword S env draws accessToken current new).Guarantees KeepsResets := by
  refine .bind (keepsResets_quiet (quiet_authenticate env accessToken)) ?_
  intro verified
  refine .bind (keepsResets_quiet (IdentityProvider.quiet_findById verified.sub)) ?_
  intro found
  cases found with
  | none => exact .fail _
  | some user =>
      refine .bind (keepsResets_quiet (.bind (.query _) fun _ => .pure _)) ?_
      intro matched
      cases matched with
      | none => exact .fail _
      | some _ =>
          refine .bind (keepsResets_replace draws user.id new) fun _ => ?_
          exact .bind (.call fun _ => rfl) fun _ => keepsResets_issueFor draws user

theorem run_keepsResets {α : Type} {p : Service σ α} (keeps : p.Guarantees KeepsResets)
    (w : World σ) : (p.run w).2.resets = w.resets := by
  have kept : KeepsResets w (p.run w).2 :=
    Prog.Guarantees.run (G := KeepsResets) (fun _ => rfl) keepsResets_trans keeps w
  exact kept

/-- A replacement consumes the token it presents, and no other. -/
theorem replace_resets (replacement : PasswordReplacement) :
    ((replacement.service S env).run w).2.resets = match replacement.presents with
      | none => w.resets
      | some token => w.resets.del (env.sha256 token) := by
  cases replacement with
  | changePassword draws accessToken current new =>
      simp only [PasswordReplacement.service, PasswordReplacement.presents, Prog.run_void_snd]
      exact run_keepsResets (keepsResets_changePassword draws accessToken current new) w
  | reset draws token new =>
      simp only [PasswordReplacement.service, PasswordReplacement.presents, Prog.run_void_snd,
        run_reset]
      cases truthy (w.resets.get (env.sha256 token)) with
      | none => rfl
      | some userId =>
          refine run_keepsResets (.bind (keepsResets_replace draws userId new) fun _ => ?_) _
          exact .bind (.call fun _ => rfl) fun _ => .pure _

/-- A token is rejected exactly where no user is found under it. -/
theorem rejected_iff (token : String) : Rejected S env w token ↔ ¬ Outstanding env w token := by
  constructor
  · intro rejected there
    obtain ⟨userId, found⟩ := Option.ne_none_iff_exists'.mp there
    have refused := rejected sampleDraws ""
    rw [run_reset, found] at refused
    -- a `reset` that found its user answers true or throws
    have accepts : (replaceFor S env sampleDraws userId "").Ensures (· = true) :=
      .bind (.true _) fun _ _ => .bind (.true _) fun _ _ => .pure rfl
    have answered := accepts.run (Prod.ext refused rfl)
    cases answered
  · intro gone draws new
    have nothing : truthy (w.resets.get (env.sha256 token)) = none := not_not.mp gone
    rw [run_reset, nothing]

/-- What remains outstanding after a replacement: all but the token presented. -/
theorem outstanding_replace (injective : Function.Injective env.sha256)
    (replacement : PasswordReplacement) (token : String) :
    Outstanding env ((replacement.service S env).run w).2 token ↔
      replacement.presents ≠ some token ∧ Outstanding env w token := by
  unfold Outstanding
  rw [replace_resets]
  cases presents : replacement.presents with
  | none => simp
  | some presented =>
      by_cases same : presented = token
      · subst same
        simp [ExpiringMap.get, truthy]
      · have apart : env.sha256 token ≠ env.sha256 presented :=
          fun eq => same (injective eq).symm
        simp [ExpiringMap.get, ExpiringMap.del_ne apart, same]

end

/-! ## Whole runs -/

section

variable {S : SessionStore σ} {env : Env}

/-- A token that was issued and is gone does not come back. -/
theorem ResetStep.stays_gone (injective : Function.Injective env.sha256) {h h' : History σ}
    (step : ResetStep S env h h') {token userId : String} (issued : (token, userId) ∈ h.issued)
    (gone : ¬ Outstanding env h.world token) :
    (token, userId) ∈ h'.issued ∧ ¬ Outstanding env h'.world token := by
  cases step with
  | requestReset draws email fresh =>
      refine ⟨List.mem_append_right _ issued, ?_⟩
      have other : env.sha256 token ≠ env.sha256 draws.token := by
        intro eq
        have same : token = draws.token := injective eq
        rw [same] at issued
        exact fresh userId issued
      intro there
      apply gone
      unfold Outstanding at there ⊢
      simp only [run_requestReset] at there
      cases at_email : recipient env h.world email with
      | none => simpa [at_email] using there
      | some user =>
          simp only [at_email] at there
          simpa [ExpiringMap.get, ExpiringMap.put_ne other] using there
  | replace replacement =>
      refine ⟨issued, fun there => gone ?_⟩
      exact ((outstanding_replace injective replacement token).mp there).2
  | elapse ms =>
      refine ⟨issued, fun there => gone ?_⟩
      obtain ⟨userId', found⟩ := Option.ne_none_iff_exists'.mp there
      obtain ⟨at_token, nonempty⟩ := Option.filter_eq_some_iff.mp found
      obtain ⟨entry, later, rfl⟩ := Option.map_eq_some_iff.mp at_token
      obtain ⟨before, -⟩ := ExpiringMap.elapse_eq_some.mp later
      refine Option.ne_none_iff_exists'.mpr ⟨entry.value, ?_⟩
      exact Option.filter_eq_some_iff.mpr ⟨Option.map_eq_some_iff.mpr ⟨entry, before, rfl⟩, nonempty⟩

theorem ResetRun.stays_gone (injective : Function.Injective env.sha256) {h h' : History σ}
    (run : ResetRun S env h h') {token userId : String} (issued : (token, userId) ∈ h.issued)
    (gone : ¬ Outstanding env h.world token) : ¬ Outstanding env h'.world token := by
  have kept : (token, userId) ∈ h'.issued ∧ ¬ Outstanding env h'.world token := by
    induction run with
    | refl => exact ⟨issued, gone⟩
    | tail _ step ih => exact step.stays_gone injective ih.1 ih.2
  exact kept.2

/-- A replacement invalidates every token issued to the user before it exactly where
none is outstanding besides the one it presents. -/
theorem invalidatesIssued_iff (injective : Function.Injective env.sha256) (h : History σ)
    (replacement : PasswordReplacement) (userId : String) :
    InvalidatesIssued S env h replacement userId ↔
      ∀ token, (token, userId) ∈ h.issued → replacement.presents ≠ some token →
        ¬ Outstanding env h.world token := by
  constructor
  · intro invalidates token issued other there
    have rejected := invalidates _ .refl token issued
    exact (rejected_iff token).mp rejected
      ((outstanding_replace injective replacement token).mpr ⟨other, there⟩)
  · intro alone h' run token issued
    refine (rejected_iff token).mpr (ResetRun.stays_gone injective run issued ?_)
    intro there
    obtain ⟨other, before⟩ := (outstanding_replace injective replacement token).mp there
    exact alone token issued other before

end

/-! ## Two links for one account -/

/-- One reset link was mailed to the account. -/
def mailedOnce : History InMemorySessions where
  world := ((PasswordResetService.requestReset sampleEnv sampleDraws "hr@acme.test").run
    (World.fresh .empty 0 staffed)).2
  issued := [(sampleTokens.1, "hr@acme.test")]

/-- And another one. -/
def mailedTwice : History InMemorySessions where
  world := ((PasswordResetService.requestReset sampleEnv
    { sampleDraws with token := sampleTokens.2.1 } "hr@acme.test").run mailedOnce.world).2
  issued := [(sampleTokens.2.1, "hr@acme.test"), (sampleTokens.1, "hr@acme.test")]

theorem invalidatesIssued_mailedOnce :
    InvalidatesIssued (inMemorySessionStore sampleSha256 .default) sampleEnv mailedOnce
      (.reset sampleDraws sampleTokens.1 "N3w-Passw0rd") "hr@acme.test" := by
  apply (invalidatesIssued_iff sampleSha256.injective mailedOnce _ _).mpr
  intro token issued other
  obtain ⟨rfl, -⟩ := Prod.mk.inj (List.mem_singleton.mp issued)
  exact absurd rfl other

theorem not_always_invalidatesIssued : ¬ ∀ {σ : Type} (S : SessionStore σ) (env : Env)
    (h₀ h : History σ) (replacement : PasswordReplacement) (userId : String),
    Function.Injective env.sha256 → h₀.world.resets = .empty → h₀.issued = [] →
    ResetRun S env h₀ h → replacement.Succeeds S env h.world userId →
    InvalidatesIssued S env h replacement userId := by
  intro always
  have first : ResetStep (inMemorySessionStore sampleSha256 .default) sampleEnv
      ⟨World.fresh .empty 0 staffed, []⟩ mailedOnce :=
    .requestReset sampleDraws "hr@acme.test" (by simp)
  have second : ResetStep (inMemorySessionStore sampleSha256 .default) sampleEnv
      mailedOnce mailedTwice :=
    .requestReset { sampleDraws with token := sampleTokens.2.1 } "hr@acme.test"
      (by simp [mailedOnce]; decide)
  have invalidates := always _ _ _ mailedTwice (.reset sampleDraws sampleTokens.1 "N3w-Passw0rd")
    "hr@acme.test" sampleSha256.injective rfl rfl
    ((Relation.ReflTransGen.single first).tail second) ⟨_, Prod.ext (by decide) rfl, by decide⟩
  -- the second link still works
  have rejected := invalidates _ .refl sampleTokens.2.1 (by decide) sampleDraws "0ld-Passw0rd"
  revert rejected
  decide

end Arac.Auth
