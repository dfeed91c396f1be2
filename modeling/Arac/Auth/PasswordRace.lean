/-
# Arac.Auth.PasswordRace -- logins at the time of a password change

Any number of logins run at the same time as one `changePassword` or `reset`.  A
login reads the stored hash in its first call and opens the session in its last; the
replacement writes the new hash and then revokes the user's sessions, once.  A login
that was checked against the old hash and opens its session after that revocation
leaves a session behind that nothing kills.  `no_session_outlives_password` says that
this is the only way: where no such login is late, none of their sessions is accepted.

* `LoginMove`, `ReplaceMove`: the phases of the two kinds of requests, and what one
  call does in each.
* `Contained`: the invariant over runs.
* `kills_inMemory`: what is assumed of `revokeUser` holds of the in-memory store.
-/
import Arac.Auth.Service
import Arac.Services.Concurrent
import Arac.Sessions.InMemoryIndex

namespace Arac.Auth

open Arac.Theory Arac.Sessions Arac.Db Arac.Service Arac.Org

set_option autoImplicit false

/-! ## The requests -/

/-- The operations that replace a password. -/
inductive PasswordReplacement where
  | changePassword (draws : Draws) (accessToken currentPassword newPassword : String)
  | reset (draws : Draws) (token newPassword : String)

namespace PasswordReplacement

def service {σ : Type} (S : SessionStore σ) (env : Env) : PasswordReplacement → Service σ Unit
  | .changePassword draws accessToken current new =>
      (AuthService.changePassword S env draws accessToken current new).void
  | .reset draws token new => (PasswordResetService.reset S env draws token new).void

/-- The family of the session that the replacement opens itself. -/
def opens : PasswordReplacement → Option String
  | .changePassword draws _ _ _ => some draws.familyId
  | .reset _ _ _ => none

end PasswordReplacement

structure LoginRequest where
  draws : Draws
  email : String
  password : String

def LoginRequest.service {σ : Type} (S : SessionStore σ) (env : Env) (l : LoginRequest) :
    Service σ Unit := (AuthService.login S env l.draws l.email l.password).void

section

variable {σ κ : Type} (S : SessionStore σ) (env : Env)

/-- One replacement and any number of logins. -/
def requests (replacement : PasswordReplacement) (logins : κ → LoginRequest) :
    Option κ → Service σ Unit
  | none => replacement.service S env
  | some k => (logins k).service S env

variable [DecidableEq κ]

/-- The login's credentials were checked against this hash of the user. -/
def CheckedAgainst (userId hash : String) (l : LoginRequest) (k : κ)
    (trace : List (Made (Option κ) (World σ))) : Prop :=
  ∃ e row, Pool.firstCall trace (some k) = some e ∧
    e.met.db.activeUserByEmail (IdentityProvider.normalizeEmail env l.email) = some row ∧
    row.id = userId ∧ row.passwordHash = hash

/-- No login that was checked against the hash opens its session after a call of
`revokeUser` for the user. -/
def InTime (userId hash : String) (logins : κ → LoginRequest) :
    List (Made (Option κ) (World σ)) → Prop
  | [] => True
  | e :: earlier =>
      (∀ k owner token, e.who = some k →
        Performs S (.createSession owner (logins k).draws.familyId token) e →
        CheckedAgainst env userId hash (logins k) k earlier →
        ∀ e' ∈ earlier, ¬ Performs S (.revokeUser userId) e') ∧
      InTime userId hash logins earlier

/-- Each `revokeUser` call for the user leaves no session of the user. -/
def Kills (ledger : σ → Ledger) (userId : String) (trace : List (Made (Option κ) (World σ))) : Prop :=
  ∀ e ∈ trace, Performs S (.revokeUser userId) e →
    ∀ h r, ledger e.left.sessions.state.store h = some r → r.userId ≠ userId

/-- Some refresh token of the family is accepted. -/
def Accepted (w : World σ) (familyId : String) : Prop :=
  ∃ presented newToken userId refresh,
    (S.rotate w.now presented newToken w.sessions.state.store).1 = .rotated userId familyId refresh

/-- A run in which all calls have returned and the user's password was replaced. -/
structure Race (sha256 : String → String) (ledger : σ → Ledger) (userId hash : String)
    (replacement : PasswordReplacement) (logins : κ → LoginRequest) (w₀ : World σ)
    (P : Pool (Option κ) (World σ) ServiceError Unit) : Prop where
  refines : RefinesLedger S sha256 ledger
  /-- The hash stored at the start. -/
  stored : ∀ x ∈ w₀.db.users, x.id = userId → x.passwordHash = hash
  /-- The family ids are fresh. -/
  unused : ∀ k h r, ledger w₀.sessions.state.store h = some r →
    r.familyId ≠ (logins k).draws.familyId
  distinct : Function.Injective fun k => (logins k).draws.familyId
  apart : ∀ k, replacement.opens ≠ some (logins k).draws.familyId
  run : Pool.Run (TimePasses S) Always (Pool.start (requests S env replacement logins) w₀) P
  ended : ∀ i, ∃ r, P.Ended i r
  replaced : ∃ x ∈ P.state.db.users, x.id = userId ∧ x.passwordHash ≠ hash
  kills : Kills S ledger userId P.trace

end

/-! ## Phases -/

inductive Phase where
  /-- A login: before its check, after it, and when it makes no more calls. -/
  | start
  | checked (userId : String)
  | closed
  /-- A replacement: before its write, after it, and after the revocation. -/
  | before
  | written (userId : String)
  | revoked (userId : String)

section

variable {σ : Type} (S : SessionStore σ) (env : Env)

inductive LoginMove (l : LoginRequest) : Phase → World σ → World σ → Phase → Prop
  | found {w : World σ} {row : Db.User}
      (found : w.db.activeUserByEmail (IdentityProvider.normalizeEmail env l.email) = some row) :
      LoginMove l .start w w (.checked row.id)
  | refused (w : World σ) : LoginMove l .start w w .closed
  | quiet (w : World σ) (userId : String) : LoginMove l (.checked userId) w w (.checked userId)
  | opens (w : World σ) (userId : String) :
      LoginMove l (.checked userId) w
        (w.perform S (.createSession userId l.draws.familyId l.draws.token)) .closed

theorem LoginMove.db {S : SessionStore σ} {env : Env} {l : LoginRequest} {φ φ' : Phase}
    {w w' : World σ} (moved : LoginMove S env l φ w w' φ') : w'.db = w.db := by
  cases moved <;> rfl

theorem LoginMove.started {S : SessionStore σ} {env : Env} {l : LoginRequest} {φ φ' : Phase}
    {w w' : World σ} (moved : LoginMove S env l φ w w' φ') : φ' ≠ .start := by
  cases moved <;> simp

inductive ReplaceMove (replacement : PasswordReplacement) :
    Phase → World σ → World σ → Phase → Prop
  | quiet {w w' : World σ} (db : w'.db = w.db) (sessions : w'.sessions = w.sessions) :
      ReplaceMove replacement .before w w' .before
  | writes {w : World σ} {userId : String} {data : UserUpdate} {db : Database}
      (ok : w.db.userUpdate userId data = .ok db) :
      ReplaceMove replacement .before w { w with db } (.written userId)
  | revokes (w : World σ) (userId : String) :
      ReplaceMove replacement (.written userId) w (w.perform S (.revokeUser userId))
        (.revoked userId)
  | reads (w : World σ) (userId : String) :
      ReplaceMove replacement (.revoked userId) w w (.revoked userId)
  | opens (w : World σ) {userId familyId : String} (token : String)
      (family : replacement.opens = some familyId) :
      ReplaceMove replacement (.revoked userId) w
        (w.perform S (.createSession userId familyId token)) (.revoked userId)

end

section

variable {σ : Type} {S : SessionStore σ} {env : Env}

theorem quiet_toIdentity (user : User) :
    Quiet (AuthService.toIdentity user : Service σ AbacIdentity) :=
  .bind (quiet_effectiveClaims user.id) fun _ => .pure _

/-- `issueFor` only reads until it opens the session. -/
theorem issueFor_follows {T : Phase → World σ → World σ → Phase → Prop} {draws : Draws}
    {user : User} {φ ψ : Phase} (quiet : ∀ w, T φ w w φ)
    (opens : ∀ w, T φ w (w.perform S (.createSession user.id draws.familyId draws.token)) ψ) :
    (AuthService.issueFor S env draws user).Follows (fun _ => True) T
      (fun _ χ => χ = φ ∨ χ = ψ) φ := by
  refine .bind ((quiet_toIdentity user).follows fun w _ => quiet w) ?_ ?_
  · rintro identity _ rfl
    refine .bind ((quiet_signAccessToken env identity draws.jti).follows fun w _ => quiet w) ?_ ?_
    · rintro access _ rfl
      refine .bind (D := fun _ χ => χ = ψ) (.call fun w _ => ⟨ψ, opens w, rfl⟩) ?_ ?_
      · intro refresh χ here
        exact .pure (Or.inr here)
      · intro e χ here
        exact Or.inr here
    · intro e χ here
      exact Or.inl here
  · intro e χ here
    exact Or.inl here

theorem login_follows (l : LoginRequest) :
    (l.service S env).Follows (fun _ => True) (LoginMove S env l) (fun _ _ => True) .start := by
  refine .bind (D := fun _ _ => True) ?_ (fun _ _ _ => .pure trivial) fun _ _ _ => trivial
  refine .bind (D := fun r φ => ∀ user, r = .ok (some user) → φ = .checked user.id) ?_ ?_
    fun _ _ _ => trivial
  · -- the check reads one row and answers with that user or with nobody
    refine .bind (D := fun r φ => ∀ row, r = .ok (some row) → φ = .checked row.id) ?_ ?_ ?_
    · refine .call ?_
      intro w _
      cases found : w.db.activeUserByEmail (IdentityProvider.normalizeEmail env l.email) with
      | none => exact ⟨.closed, .refused w, by simp [found]⟩
      | some row =>
          refine ⟨.checked row.id, .found found, ?_⟩
          intro row' same
          have same_row : some row = some row' := found.symm.trans (Except.ok.inj same)
          rw [Option.some.inj same_row]
    · intro row φ known
      refine .pure ?_
      intro user answered
      split at answered
      · cases row with
        | none => simp at answered
        | some row =>
            simp only [Option.map_some, Except.ok.injEq, Option.some.injEq] at answered
            rw [known row rfl, ← answered]
            rfl
      · simp at answered
    · intro e φ _ user impossible
      cases impossible
  · intro found φ known
    cases found with
    | none => exact .fail trivial
    | some user =>
        have phase : φ = .checked user.id := known user rfl
        rw [phase]
        exact .mono (issueFor_follows (fun w => .quiet w user.id) fun w => .opens w user.id)
          fun _ _ _ => trivial

/-- The phases in which a replacement may end. -/
def ReplaceEnds {α : Type} (_ : Except ServiceError α) (φ : Phase) : Prop :=
  ∀ userId, φ ≠ .written userId

/-- A write of the user's password, and right after it the revocation. -/
theorem replace_follows {α : Type} {replacement : PasswordReplacement} {draws : Draws}
    {userId new : String} {rest : Service σ α}
    (later : rest.Follows (fun _ => True) (ReplaceMove S replacement) ReplaceEnds
      (.revoked userId)) :
    (do
      IdentityProvider.changePassword env draws userId new
      revokeUser S userId
      rest).Follows (fun _ => True) (ReplaceMove S replacement) ReplaceEnds .before := by
  refine .bind (D := fun r φ => (r = .ok () ∧ φ = .written userId) ∨
    ∃ e, r = .error e ∧ φ = .before) ?_ ?_ ?_
  · exact commit_follows
      (fun w db _ ok => ⟨.written userId, .writes ok, Or.inl ⟨rfl, rfl⟩⟩)
      fun w e _ _ => ⟨.before, .quiet rfl rfl, Or.inr ⟨_, rfl, rfl⟩⟩
  · rintro _ φ (⟨-, rfl⟩ | ⟨_, impossible, -⟩)
    · refine .bind (D := fun _ φ => φ = .revoked userId)
        (.call fun w _ => ⟨_, .revokes w userId, rfl⟩) ?_ ?_
      · rintro _ _ rfl
        exact later
      · rintro e _ rfl
        simp [ReplaceEnds]
    · cases impossible
  · rintro e φ (⟨impossible, -⟩ | ⟨_, -, rfl⟩)
    · cases impossible
    · simp [ReplaceEnds]

theorem replacement_follows (replacement : PasswordReplacement) :
    (replacement.service S env).Follows (fun _ => True) (ReplaceMove S replacement) ReplaceEnds
      .before := by
  have before : ∀ {α : Type} {p : Service σ α}, Quiet p → p.Follows (fun _ => True)
      (ReplaceMove S replacement) (fun _ φ => φ = .before) .before :=
    fun quiet => quiet.follows fun w _ => .quiet rfl rfl
  have refused : ∀ userId, Phase.before ≠ .written userId := by simp
  cases replacement with
  | changePassword draws accessToken current new =>
      refine .bind (D := ReplaceEnds) ?_
        (fun _ _ ends => .pure ends) fun _ _ ends => ends
      refine .bind (before (quiet_authenticate env accessToken)) ?_ ?_
      · rintro verified _ rfl
        refine .bind (before (IdentityProvider.quiet_findById verified.sub)) ?_ ?_
        · rintro found _ rfl
          cases found with
          | none => exact .fail refused
          | some user =>
              refine .bind (before (.bind (.query _) fun _ => .pure _)) ?_ ?_
              · rintro matched _ rfl
                cases matched with
                | none => exact .fail refused
                | some _ =>
                    apply replace_follows
                    refine .mono (issueFor_follows (ψ := .revoked user.id)
                      (fun w => .reads w user.id) fun w => .opens w draws.token rfl) ?_
                    rintro r φ (rfl | rfl) <;> simp [ReplaceEnds]
              · rintro e _ rfl
                exact refused
        · rintro e _ rfl
          exact refused
      · rintro e _ rfl
        exact refused
  | reset draws token new =>
      refine .bind (D := ReplaceEnds) ?_
        (fun _ _ ends => .pure ends) fun _ _ ends => ends
      refine .bind (D := fun _ φ => φ = .before)
        (.call fun w _ => ⟨.before, .quiet rfl rfl, rfl⟩) ?_ ?_
      · rintro taken _ rfl
        cases truthy taken with
        | none => exact .pure refused
        | some userId => exact replace_follows (.pure (by simp [ReplaceEnds]))
      · rintro e _ rfl
        exact refused

end

/-! ## The invariant -/

section

variable {σ κ : Type} [DecidableEq κ] (S : SessionStore σ) (env : Env)

def moves (replacement : PasswordReplacement) (logins : κ → LoginRequest) :
    Option κ → Phase → World σ → World σ → Phase → Prop
  | none => ReplaceMove S replacement
  | some k => LoginMove S env (logins k)

def ends {κ : Type} : Option κ → Except ServiceError Unit → Phase → Prop
  | none => ReplaceEnds
  | some _ => fun _ _ => True

def phases {κ : Type} : Option κ → Phase
  | none => .before
  | some _ => .start

/-- The session of a login that was checked against the old hash is there only
until the revocation. -/
structure Contained (ledger : σ → Ledger) (userId hash : String) (logins : κ → LoginRequest)
    (φ : Option κ → Phase) (w : World σ) (trace : List (Made (Option κ) (World σ))) : Prop where
  unreplaced : (∀ x ∈ w.db.users, x.id = userId → x.passwordHash = hash) ∨
    φ none = .written userId ∨ φ none = .revoked userId
  revoked : φ none = .revoked userId → ∃ e ∈ trace, Performs S (.revokeUser userId) e
  checked : ∀ k owner, φ (some k) = .checked owner → ∃ e row,
    Pool.firstCall trace (some k) = some e ∧
      e.met.db.activeUserByEmail (IdentityProvider.normalizeEmail env (logins k).email) = some row ∧
      row.id = owner
  unstarted : ∀ k, φ (some k) = .start → Pool.firstCall trace (some k) = none
  records : ∀ k h r, ledger w.sessions.state.store h = some r →
    r.familyId = (logins k).draws.familyId → φ (some k) = .closed ∧
      (CheckedAgainst env userId hash (logins k) k trace →
        r.userId = userId ∧ ∀ e ∈ trace, ¬ Performs S (.revokeUser userId) e)

end

namespace Contained

variable {σ κ : Type} [DecidableEq κ] {S : SessionStore σ} {env : Env} {sha256 : String → String}
  {ledger : σ → Ledger} {userId hash : String} {logins : κ → LoginRequest}
  {replacement : PasswordReplacement} {φ : Option κ → Phase} {φ' : Phase} {w w' : World σ}
  {trace : List (Made (Option κ) (World σ))}

/-- A call of another request does not change what a login was checked against. -/
theorem checkedAgainst_other {k : κ} {i : Option κ} (other : i ≠ some k) :
    CheckedAgainst env userId hash (logins k) k (⟨i, w, w'⟩ :: trace) ↔
      CheckedAgainst env userId hash (logins k) k trace := by
  simp only [CheckedAgainst, Pool.firstCall_cons_ne (e := ⟨i, w, w'⟩) other]

/-- Records that are left over keep what is known of them. -/
theorem records_kept (contained : Contained S env ledger userId hash logins φ w trace) {i : Option κ}
    (kept : ∀ h r, ledger w'.sessions.state.store h = some r → ledger w.sessions.state.store h = some r)
    (silent : ¬ Performs S (.revokeUser userId) (⟨i, w, w'⟩ : Made (Option κ) (World σ)))
    (open_ : ∀ k, i = some k → φ (some k) ≠ .closed) :
    ∀ k h r, ledger w'.sessions.state.store h = some r →
      r.familyId = (logins k).draws.familyId → Function.update φ i φ' (some k) = .closed ∧
        (CheckedAgainst env userId hash (logins k) k (⟨i, w, w'⟩ :: trace) →
          r.userId = userId ∧ ∀ e ∈ ⟨i, w, w'⟩ :: trace, ¬ Performs S (.revokeUser userId) e) := by
  intro k h r live mine
  obtain ⟨closed, old⟩ := contained.records k h r (kept h r live) mine
  have other : i ≠ some k := fun same => open_ k same closed
  refine ⟨by rw [Function.update_of_ne other.symm]; exact closed, ?_⟩
  intro stale
  obtain ⟨owner, unrevoked⟩ := old ((checkedAgainst_other other).mp stale)
  refine ⟨owner, ?_⟩
  intro e member
  rcases List.mem_cons.mp member with rfl | earlier
  · exact silent
  · exact unrevoked e earlier

/-- A new session: what is known of the older records is kept, and the new one must be
its own login's. -/
theorem records_opened (refines : RefinesLedger S sha256 ledger)
    (contained : Contained S env ledger userId hash logins φ w trace) {i : Option κ}
    {owner familyId token : String} (open_ : ∀ k, i = some k → φ (some k) ≠ .closed)
    (own : ∀ k, familyId = (logins k).draws.familyId → Function.update φ i φ' (some k) = .closed ∧
      (CheckedAgainst env userId hash (logins k) k
          (⟨i, w, w.perform S (.createSession owner familyId token)⟩ :: trace) →
        owner = userId ∧ ∀ e ∈ trace, ¬ Performs S (.revokeUser userId) e)) :
    ∀ k h r, ledger (w.perform S (.createSession owner familyId token)).sessions.state.store h =
        some r →
      r.familyId = (logins k).draws.familyId → Function.update φ i φ' (some k) = .closed ∧
        (CheckedAgainst env userId hash (logins k) k
            (⟨i, w, w.perform S (.createSession owner familyId token)⟩ :: trace) →
          r.userId = userId ∧ ∀ e ∈ ⟨i, w, w.perform S (.createSession owner familyId token)⟩ :: trace,
            ¬ Performs S (.revokeUser userId) e) := by
  have performs : Performs S (.createSession owner familyId token)
    (⟨i, w, w.perform S (.createSession owner familyId token)⟩ : Made (Option κ) (World σ)) := rfl
  have unrevoked : (∀ e ∈ trace, ¬ Performs S (.revokeUser userId) e) →
      ∀ e ∈ ⟨i, w, w.perform S (.createSession owner familyId token)⟩ :: trace,
        ¬ Performs S (.revokeUser userId) e := by
    intro earlier e member
    rcases List.mem_cons.mp member with rfl | old
    · intro revokes
      cases performs.unique revokes
    · exact earlier e old
  intro k h r live mine
  have step := refines.step w.sessions.state (.createSession owner familyId token)
  rcases step.createSession_records h r live with old | rfl
  · obtain ⟨closed, kept⟩ := contained.records k h r old mine
    have other : i ≠ some k := fun same => open_ k same closed
    refine ⟨by rw [Function.update_of_ne other.symm]; exact closed, ?_⟩
    intro stale
    exact (kept ((checkedAgainst_other other).mp stale)).imp_right unrevoked
  · obtain ⟨closed, kept⟩ := own k mine
    exact ⟨closed, fun stale => (kept stale).imp_right unrevoked⟩

/-! ### A call of a login -/

theorem login_checked (contained : Contained S env ledger userId hash logins φ w trace) {k : κ}
    (moved : LoginMove S env (logins k) (φ (some k)) w w' φ') (j : κ) (owner : String)
    (phase : Function.update φ (some k) φ' (some j) = .checked owner) :
    ∃ e row, Pool.firstCall (⟨some k, w, w'⟩ :: trace) (some j) = some e ∧
      e.met.db.activeUserByEmail (IdentityProvider.normalizeEmail env (logins j).email) = some row ∧
      row.id = owner := by
  by_cases same : j = k
  · subst same
    rw [Function.update_self] at phase
    generalize before : φ (some j) = ψ at moved
    cases moved with
    | found found =>
        cases phase
        exact ⟨_, _, Pool.firstCall_cons_none (contained.unstarted j before), found, rfl⟩
    | refused => cases phase
    | quiet _ owner' =>
        cases phase
        obtain ⟨e, row, first, found, mine⟩ := contained.checked j _ before
        exact ⟨e, row, Pool.firstCall_cons_some first, found, mine⟩
    | opens => cases phase
  · have apart : some j ≠ some k := by simpa using same
    rw [Function.update_of_ne apart] at phase
    obtain ⟨e, row, first, found, mine⟩ := contained.checked j owner phase
    exact ⟨e, row, Pool.firstCall_cons_some first, found, mine⟩

theorem login_records (refines : RefinesLedger S sha256 ledger)
    (distinct : Function.Injective fun k => (logins k).draws.familyId)
    (contained : Contained S env ledger userId hash logins φ w trace) {k : κ}
    (inTime : InTime S env userId hash logins (⟨some k, w, w'⟩ :: trace))
    (moved : LoginMove S env (logins k) (φ (some k)) w w' φ') :
    ∀ j h r, ledger w'.sessions.state.store h = some r →
      r.familyId = (logins j).draws.familyId →
      Function.update φ (some k) φ' (some j) = .closed ∧
        (CheckedAgainst env userId hash (logins j) j (⟨some k, w, w'⟩ :: trace) →
          r.userId = userId ∧
            ∀ e ∈ ⟨some k, w, w'⟩ :: trace, ¬ Performs S (.revokeUser userId) e) := by
  have only : ∀ j, some k = some j → φ (some j) ≠ .closed := by
    intro j same closed
    cases same
    rw [closed] at moved
    cases moved
  generalize before : φ (some k) = ψ at moved
  cases moved with
  | found => exact contained.records_kept (fun _ _ live => live) (not_performs rfl) only
  | refused => exact contained.records_kept (fun _ _ live => live) (not_performs rfl) only
  | quiet => exact contained.records_kept (fun _ _ live => live) (not_performs rfl) only
  | opens _ owner =>
      apply contained.records_opened refines only
      intro j mine
      obtain rfl : k = j := distinct mine
      refine ⟨Function.update_self _ _ _, ?_⟩
      -- opened by the login itself, in time, for the user it was checked for
      rintro ⟨e, row, first, found, owned, hashed⟩
      obtain ⟨e', row', first', found', mine'⟩ := contained.checked k owner before
      obtain rfl : e' = e := Option.some.inj ((Pool.firstCall_cons_some first').symm.trans first)
      obtain rfl : row' = row := Option.some.inj (found'.symm.trans found)
      have stale : CheckedAgainst env userId hash (logins k) k trace :=
        ⟨e', row', first', found', owned, hashed⟩
      exact ⟨mine'.symm.trans owned, inTime.1 k owner _ rfl rfl stale⟩

theorem login (refines : RefinesLedger S sha256 ledger)
    (distinct : Function.Injective fun k => (logins k).draws.familyId)
    (contained : Contained S env ledger userId hash logins φ w trace) {k : κ}
    (inTime : InTime S env userId hash logins (⟨some k, w, w'⟩ :: trace))
    (moved : LoginMove S env (logins k) (φ (some k)) w w' φ') :
    Contained S env ledger userId hash logins (Function.update φ (some k) φ') w'
      (⟨some k, w, w'⟩ :: trace) := by
  have replacing : Function.update φ (some k) φ' none = φ none :=
    Function.update_of_ne (by simp) _ _
  refine
    { unreplaced := ?_
      revoked := ?_
      checked := contained.login_checked moved
      unstarted := ?_
      records := contained.login_records refines distinct inTime moved }
  · rw [replacing, moved.db]
    exact contained.unreplaced
  · rw [replacing]
    intro revoked
    obtain ⟨e, member, performs⟩ := contained.revoked revoked
    exact ⟨e, List.mem_cons_of_mem _ member, performs⟩
  · intro j phase
    have other : j ≠ k := by
      rintro rfl
      rw [Function.update_self] at phase
      exact moved.started phase
    have apart : some k ≠ some j := by simpa using other.symm
    rw [Function.update_of_ne apart.symm] at phase
    rw [Pool.firstCall_cons_ne apart]
    exact contained.unstarted j phase

/-! ### A call of the replacement -/

theorem replace_unreplaced (contained : Contained S env ledger userId hash logins φ w trace)
    (moved : ReplaceMove S replacement (φ none) w w' φ') :
    (∀ x ∈ w'.db.users, x.id = userId → x.passwordHash = hash) ∨
      φ' = .written userId ∨ φ' = .revoked userId := by
  generalize before : φ none = ψ at moved
  have unreplaced := contained.unreplaced
  rw [before] at unreplaced
  cases moved with
  | quiet db =>
      rw [db]
      simpa using unreplaced
  | writes ok =>
      rename_i owner data db
      by_cases same : owner = userId
      · exact Or.inr (Or.inl (by rw [same]))
      · left
        have stored : ∀ x ∈ w.db.users, x.id = userId → x.passwordHash = hash := by
          simpa using unreplaced
        intro x member mine
        simp only at member
        rw [Database.userUpdate_ok ok] at member
        obtain ⟨y, y_row, rfl⟩ := List.mem_map.mp member
        split at mine
        · rename_i here
          exact absurd (here.symm.trans mine) same
        · rename_i there
          rw [if_neg there]
          exact stored y y_row mine
  | revokes _ owner =>
      have same_db : (w.perform S (.revokeUser owner)).db = w.db := rfl
      rw [same_db]
      simpa using unreplaced
  | reads _ owner => exact unreplaced
  | opens _ _ family => exact unreplaced

theorem replace_revoked (contained : Contained S env ledger userId hash logins φ w trace)
    (moved : ReplaceMove S replacement (φ none) w w' φ') (revoked : φ' = .revoked userId) :
    ∃ e ∈ ⟨none, w, w'⟩ :: trace, Performs S (.revokeUser userId) e := by
  generalize before : φ none = ψ at moved
  have earlier : φ none = .revoked userId →
      ∃ e ∈ ⟨none, w, w'⟩ :: trace, Performs S (.revokeUser userId) e := by
    intro already
    obtain ⟨e, member, performs⟩ := contained.revoked already
    exact ⟨e, List.mem_cons_of_mem _ member, performs⟩
  cases moved with
  | quiet => cases revoked
  | writes => cases revoked
  | revokes _ owner =>
      cases revoked
      exact ⟨_, List.mem_cons_self, rfl⟩
  | reads _ owner => exact earlier (before.trans revoked)
  | opens _ _ family => exact earlier (before.trans revoked)

theorem replace_records (refines : RefinesLedger S sha256 ledger)
    (apart : ∀ k, replacement.opens ≠ some (logins k).draws.familyId)
    (contained : Contained S env ledger userId hash logins φ w trace)
    (kills : Kills S ledger userId (⟨none, w, w'⟩ :: trace))
    (moved : ReplaceMove S replacement (φ none) w w' φ') :
    ∀ k h r, ledger w'.sessions.state.store h = some r →
      r.familyId = (logins k).draws.familyId → Function.update φ none φ' (some k) = .closed ∧
        (CheckedAgainst env userId hash (logins k) k (⟨none, w, w'⟩ :: trace) →
          r.userId = userId ∧ ∀ e ∈ ⟨none, w, w'⟩ :: trace, ¬ Performs S (.revokeUser userId) e) := by
  have others : ∀ k, (none : Option κ) ≠ some k := by simp
  have unlogged : ∀ k, (none : Option κ) = some k → φ (some k) ≠ .closed :=
    fun k impossible => absurd impossible (others k)
  generalize φ none = ψ at moved
  cases moved with
  | quiet _ sessions =>
      exact contained.records_kept (fun _ _ live => by rwa [sessions] at live)
        (not_performs sessions) unlogged
  | writes => exact contained.records_kept (fun _ _ live => live) (not_performs rfl) unlogged
  | reads => exact contained.records_kept (fun _ _ live => live) (not_performs rfl) unlogged
  | revokes _ owner =>
      have performs : Performs S (.revokeUser owner)
        (⟨none, w, w.perform S (.revokeUser owner)⟩ : Made (Option κ) (World σ)) := rfl
      have kept := (refines.step w.sessions.state (.revokeUser owner)).silent_records rfl
      by_cases same : owner = userId
      · subst same
        -- no record of the user is left, so none of a login checked against the hash
        intro k h r live mine
        obtain ⟨closed, old⟩ := contained.records k h r (kept h r live) mine
        refine ⟨by rw [Function.update_of_ne (others k).symm]; exact closed, ?_⟩
        intro stale
        have owned := (old ((checkedAgainst_other (others k)).mp stale)).1
        exact absurd owned (kills _ List.mem_cons_self performs h r live)
      · refine contained.records_kept kept ?_ unlogged
        intro revokes
        cases performs.unique revokes
        exact same rfl
  | opens _ token family =>
      apply contained.records_opened refines unlogged
      intro k mine
      exact absurd (family.trans (congrArg some mine)) (apart k)

theorem replace (refines : RefinesLedger S sha256 ledger)
    (apart : ∀ k, replacement.opens ≠ some (logins k).draws.familyId)
    (contained : Contained S env ledger userId hash logins φ w trace)
    (kills : Kills S ledger userId (⟨none, w, w'⟩ :: trace))
    (moved : ReplaceMove S replacement (φ none) w w' φ') :
    Contained S env ledger userId hash logins (Function.update φ none φ') w'
      (⟨none, w, w'⟩ :: trace) := by
  have self : Function.update φ none φ' none = φ' := Function.update_self _ _ _
  have logins_same : ∀ k, Function.update φ none φ' (some k) = φ (some k) :=
    fun k => Function.update_of_ne (by simp) _ _
  have others : ∀ k, (none : Option κ) ≠ some k := by simp
  refine
    { unreplaced := by rw [self]; exact contained.replace_unreplaced moved
      revoked := by rw [self]; exact contained.replace_revoked moved
      checked := ?_
      unstarted := ?_
      records := contained.replace_records refines apart kills moved }
  · intro k owner phase
    rw [logins_same] at phase
    rw [Pool.firstCall_cons_ne (others k)]
    exact contained.checked k owner phase
  · intro k phase
    rw [logins_same] at phase
    rw [Pool.firstCall_cons_ne (others k)]
    exact contained.unstarted k phase

/-- Time passes. -/
theorem elapse (refines : RefinesLedger S sha256 ledger)
    (contained : Contained S env ledger userId hash logins φ w trace) (ms : Nat) :
    Contained S env ledger userId hash logins φ (w.elapse S ms) trace where
  unreplaced := contained.unreplaced
  revoked := contained.revoked
  checked := contained.checked
  unstarted := contained.unstarted
  records k h r live mine :=
    contained.records k h r
      ((refines.step w.sessions.state (.elapse ms)).silent_records rfl h r live) mine

end Contained

/-- Where no login that was checked against the replaced hash opens its session after
the revocation, none of their sessions is accepted once all calls have returned. -/
theorem no_session_outlives_password {σ κ : Type} [DecidableEq κ] {S : SessionStore σ} {env : Env}
    {sha256 : String → String} {ledger : σ → Ledger} {userId hash : String}
    {replacement : PasswordReplacement} {logins : κ → LoginRequest} {w₀ : World σ}
    {P : Pool (Option κ) (World σ) ServiceError Unit}
    (race : Race S env sha256 ledger userId hash replacement logins w₀ P)
    (inTime : InTime S env userId hash logins P.trace) (k : κ)
    (stale : CheckedAgainst env userId hash (logins k) k P.trace) :
    ¬ Accepted S P.state (logins k).draws.familyId := by
  have reached := Pool.Run.invariant (Φ := Phase)
    (I := fun _ _ => True) (T := moves S env replacement logins) (D := ends)
    (J := fun φ w trace => InTime S env userId hash logins trace → Kills S ledger userId trace →
      Contained S env ledger userId hash logins φ w trace)
    (fun _ _ _ _ _ _ => trivial) ?_ ?_ phases ?_ ?_ race.run
  · obtain ⟨φ, inv, follows⟩ := reached
    have contained := inv inTime race.kills
    -- the password was replaced and the call has returned, so it has revoked
    have revoked : φ none = .revoked userId := by
      obtain ⟨x, x_row, mine, changed⟩ := race.replaced
      rcases contained.unreplaced with stored | written | revoked
      · exact absurd (stored x x_row mine) changed
      · obtain ⟨r, ended⟩ := race.ended none
        exact absurd written ((follows none).ends ended userId)
      · exact revoked
    obtain ⟨e, member, performs⟩ := contained.revoked revoked
    rintro ⟨presented, newToken, owner, refresh, accepted⟩
    have rotated : (S.step P.state.sessions.state (.rotate presented newToken)).1 =
        .rotation (.rotated owner (logins k).draws.familyId refresh) :=
      congrArg Answer.rotation accepted
    have moved := race.refines.step P.state.sessions.state (.rotate presented newToken)
    rw [rotated] at moved
    obtain ⟨-, known⟩ := contained.records k _ _ moved.rotated rfl
    exact (known stale).2 e member performs
  · intro φ w trace i w' φ' inv _ moved inTime kills
    have contained := inv inTime.2 fun e member => kills e (List.mem_cons_of_mem _ member)
    cases i with
    | none => exact contained.replace race.refines race.apart kills moved
    | some k => exact contained.login race.refines race.distinct inTime moved
  · rintro φ w trace _ inv ⟨ms, rfl⟩ inTime kills
    exact (inv inTime kills).elapse race.refines ms
  · intro i
    cases i with
    | none => exact replacement_follows replacement
    | some k => exact login_follows (logins k)
  · intro _ _
    refine { unreplaced := Or.inl race.stored, revoked := ?_, checked := ?_, unstarted := ?_,
             records := ?_ }
    · simp [phases]
    · simp [phases]
    · intro k _
      rfl
    · intro k h r live mine
      exact absurd mine (race.unused k h r live)

/-! ## Reading a trace -/

section

variable {σ κ : Type} [DecidableEq κ] {S : SessionStore σ} {env : Env} {userId hash : String}
  {logins : κ → LoginRequest} {trace : List (Made (Option κ) (World σ))}

theorem checkedAgainst_of_found {l : LoginRequest} {k : κ}
    (found : ((Pool.firstCall trace (some k)).bind fun e => e.met.db.activeUserByEmail
      (IdentityProvider.normalizeEmail env l.email)).map (fun row => (row.id, row.passwordHash)) =
        some (userId, hash)) :
    CheckedAgainst env userId hash l k trace := by
  obtain ⟨row, at_row, eq⟩ := Option.map_eq_some_iff.mp found
  obtain ⟨e, first, active⟩ := Option.bind_eq_some_iff.mp at_row
  cases eq
  exact ⟨e, row, first, active, rfl, rfl⟩

/-- Every login call comes before any revocation. -/
theorem inTime_of_pairwise (apart : trace.Pairwise fun e e' => e.who = none ∨
    e'.left.sessions.log.head?.map Logged.call ≠ some (.revokeUser userId)) :
    InTime S env userId hash logins trace := by
  induction apart with
  | nil => trivial
  | cons here _ ih =>
      refine ⟨?_, ih⟩
      intro k owner token mine _ _ e' member revokes
      rcases here e' member with replacing | unrevoked
      · rw [replacing] at mine
        cases mine
      · rw [Performs] at revokes
        rw [revokes] at unrevoked
        exact unrevoked rfl

end

/-! ## The in-memory store -/

section

variable {κ : Type} [DecidableEq κ] {sha256 : String → String} {ttl : RefreshTtl} {env : Env}
  {replacement : PasswordReplacement} {logins : κ → LoginRequest} {w₀ : World InMemorySessions}

omit [DecidableEq κ] in
theorem moves_sessions {S : SessionStore InMemorySessions} {i : Option κ} {φ φ' : Phase}
    {w w' : World InMemorySessions} (moved : moves S env replacement logins i φ w w' φ') :
    w'.sessions = w.sessions ∨ ∃ call, w'.sessions = S.machine.perform w.sessions call := by
  cases i with
  | none =>
      have moved : ReplaceMove S replacement φ w w' φ' := moved
      cases moved with
      | quiet _ sessions => exact Or.inl sessions
      | writes => exact Or.inl rfl
      | revokes _ owner => exact Or.inr ⟨.revokeUser owner, rfl⟩
      | reads => exact Or.inl rfl
      | opens => exact Or.inr ⟨_, rfl⟩
  | some k =>
      have moved : LoginMove S env (logins k) φ w w' φ' := moved
      cases moved with
      | found => exact Or.inl rfl
      | refused => exact Or.inl rfl
      | quiet => exact Or.inl rfl
      | opens => exact Or.inr ⟨_, rfl⟩

/-- Over the in-memory store every `revokeUser` kills. -/
theorem kills_inMemory {P : Pool (Option κ) (World InMemorySessions) ServiceError Unit}
    (coherent : w₀.sessions.state.store.Coherent) (userId : String)
    (run : Pool.Run (TimePasses (inMemorySessionStore sha256 ttl)) Always
      (Pool.start (requests (inMemorySessionStore sha256 ttl) env replacement logins) w₀) P) :
    Kills (inMemorySessionStore sha256 ttl) InMemorySessions.ledger userId P.trace := by
  have reached := Pool.Run.invariant (Φ := Phase) (I := fun _ _ => True)
    (T := moves (inMemorySessionStore sha256 ttl) env replacement logins) (D := ends)
    (J := fun _ w trace => w.sessions.state.store.Coherent ∧
      Kills (inMemorySessionStore sha256 ttl) InMemorySessions.ledger userId trace)
    (fun _ _ _ _ _ _ => trivial) ?_ ?_ phases ?_ ?_ run
  · obtain ⟨φ, ⟨-, kills⟩, -⟩ := reached
    exact kills
  · rintro φ w trace i w' φ' ⟨coherent, kills⟩ - moved
    constructor
    · rcases moves_sessions moved with same | ⟨call, performed⟩
      · rw [same]
        exact coherent
      · rw [performed]
        exact coherent.step call
    · intro e member performs h r live
      rcases List.mem_cons.mp member with rfl | earlier
      · have left : w'.sessions = _ := performs
        simp only [left] at live
        exact coherent.revokeUser_kills live
      · exact kills e earlier performs h r live
  · rintro φ w trace _ ⟨coherent, kills⟩ ⟨ms, rfl⟩
    exact ⟨coherent.step (.elapse ms), kills⟩
  · intro i
    cases i with
    | none => exact replacement_follows replacement
    | some k => exact login_follows (logins k)
  · refine ⟨coherent, ?_⟩
    intro e impossible
    cases impossible

end

/-! ## A reset while a login is under way -/

/-- A login with the password that is in the database. -/
def oldLogin : LoginRequest := ⟨sampleDraws, "hr@acme.test", "argon2id$"⟩

/-- The reset of the same account with a link that was mailed. -/
def linkedReset : PasswordReplacement :=
  .reset { sampleDraws with familyId := "f2" } sampleTokens.2.1 "N3w-Passw0rd"

def linked : World InMemorySessions :=
  { World.fresh .empty 0 staffed with
    resets := ExpiringMap.empty.put (sampleSha256 sampleTokens.2.1) ⟨"hr@acme.test", some 1800000⟩ }

/-- The two requests, run along a schedule. -/
def scheduled (schedule : List (Option Unit)) :
    Pool (Option Unit) (World InMemorySessions) ServiceError Unit :=
  Pool.play Always (Pool.start (requests (inMemorySessionStore sampleSha256 .default) verifyingEnv
    linkedReset fun _ => oldLogin) linked) schedule

theorem race_scheduled (schedule : List (Option Unit))
    (reset : ((scheduled schedule).procs none).ended = some (.ok ()))
    (loggedIn : ((scheduled schedule).procs (some ())).ended = some (.ok ()))
    (replaced : ∃ x ∈ (scheduled schedule).state.db.users, x.id = "hr@acme.test" ∧
      x.passwordHash ≠ "$argon2id$") :
    Race (inMemorySessionStore sampleSha256 .default) verifyingEnv sampleSha256
      InMemorySessions.ledger "hr@acme.test" "$argon2id$" linkedReset (fun _ : Unit => oldLogin)
      linked (scheduled schedule) where
  refines := InMemorySessions.refinesLedger sampleSha256 .default
  stored := by decide
  unused k h r live := by cases live
  distinct := Function.injective_of_subsingleton _
  apart k := by simp [linkedReset, PasswordReplacement.opens]
  run := Pool.run_play _ schedule
  ended i := ⟨.ok (), by cases i with | none => exact reset | some _ => exact loggedIn⟩
  replaced := replaced
  kills := kills_inMemory .empty "hr@acme.test" (Pool.run_play _ schedule)

/-- The login has returned before the reset begins. -/
theorem no_session_outlives_password_before :
    ¬ Accepted (inMemorySessionStore sampleSha256 .default)
      (scheduled [some (), some (), some (), some (), some (), some (), none, none, none]).state
      "f1" := by
  refine no_session_outlives_password (race_scheduled _ ?_ ?_ ?_) ?_ () ?_
  · decide +kernel
  · decide +kernel
  · decide +kernel
  · exact inTime_of_pairwise (by decide +kernel)
  · exact checkedAgainst_of_found (by decide +kernel)

/-- The login has made its check when the reset runs, and opens its session after it. -/
theorem not_always_outlived : ¬ ∀ {σ κ : Type} [DecidableEq κ] (S : SessionStore σ) (env : Env)
    (sha256 : String → String) (ledger : σ → Ledger) (userId hash : String)
    (replacement : PasswordReplacement) (logins : κ → LoginRequest) (w₀ : World σ)
    (P : Pool (Option κ) (World σ) ServiceError Unit),
    Race S env sha256 ledger userId hash replacement logins w₀ P →
    ∀ k, CheckedAgainst env userId hash (logins k) k P.trace →
      ¬ Accepted S P.state (logins k).draws.familyId := by
  intro always
  refine always _ _ _ _ _ _ _ _ _ _ (race_scheduled
    [some (), none, none, none, some (), some (), some (), some (), some ()] ?_ ?_ ?_) () ?_ ?_
  · decide +kernel
  · decide +kernel
  · decide +kernel
  · exact checkedAgainst_of_found (by decide +kernel)
  · exact ⟨sampleTokens.1, sampleTokens.2.2, "hr@acme.test", ⟨sampleTokens.2.2, "f1", 1209600⟩,
      by decide +kernel⟩

end Arac.Auth
