/-
# Arac.Auth.FailedReplacement -- a password replacement that fails half-way

`changePassword` and `reset` write the new hash to the database and then revoke the
user's sessions in Redis.  Nothing undoes the first where the second, or anything
after it, fails.  `failsSafely_iff` says for which failures a user is left with a new
password and an old session:

* the reply of the write is lost, or the revocation fails before it runs, and some
  token of the user was current (`Current`);
* the revocation has run, something after it fails, and a current token of the user
  was in no family that the user's index listed (`Unlisted`).

`Reaches` is what it takes to get to the write; up to there nothing has changed.
-/
import Arac.Auth.PasswordRace
import Arac.Sessions.Redis
import Arac.Theory.Faults

namespace Arac.Auth

open Arac.Theory Arac.Sessions Arac.Db Arac.Service Arac.Org

set_option autoImplicit false

/-! ## The property -/

section

variable {σ : Type} (S : SessionStore σ) (env : Env)

/-- The store rotates the token. -/
def Accepts (w : World σ) (token : String) : Prop :=
  ∃ newToken userId familyId refresh,
    (S.rotate w.now token newToken w.sessions.state.store).1 = .rotated userId familyId refresh

def storedHash (t : Tables) (userId : String) : Option String :=
  (t.userById userId).map Db.User.passwordHash

/-- The token was handed out to the user. -/
def IssuedTo (log : Log) (userId token : String) : Prop :=
  ∃ familyId instant, Issued log token userId familyId instant

/-- A failed call left the user with another password hash and a token that was handed
out before the call and is still accepted. -/
structure HalfReplaced {α : Type} (w : World σ) (userId : String)
    (outcome : Except ServiceError α × Nat × World σ) : Prop where
  failed : ∃ e, outcome.1 = .error e
  changed : storedHash outcome.2.2.db.toTables userId ≠ storedHash w.db.toTables userId
  accepted : ∃ token, IssuedTo w.sessions.log userId token ∧ Accepts S outcome.2.2 token

/-- If the call fails under these fates, every user keeps the hash or loses the sessions. -/
def FailsSafely (fates : Nat → Fate ServiceError) (replacement : PasswordReplacement)
    (w : World σ) : Prop :=
  let (result, _, after) := (replacement.service S env).runUnder fates 0 w
  (∃ e, result = .error e) → ∀ userId,
    storedHash after.db.toTables userId = storedHash w.db.toTables userId ∨
      ∀ token, IssuedTo w.sessions.log userId token → ¬ Accepts S after token

theorem failsSafely_iff_not_halfReplaced {S : SessionStore σ} {env : Env}
    {fates : Nat → Fate ServiceError} {replacement : PasswordReplacement} {w : World σ} :
    FailsSafely S env fates replacement w ↔
      ¬ ∃ userId, HalfReplaced S w userId ((replacement.service S env).runUnder fates 0 w) := by
  unfold FailsSafely
  constructor
  · rintro safe ⟨userId, failed, changed, token, issued, accepted⟩
    rcases safe failed userId with same | dead
    · exact changed same
    · exact dead token issued accepted
  · intro never failed userId
    by_cases same : storedHash ((replacement.service S env).runUnder fates 0 w).2.2.db.toTables
        userId = storedHash w.db.toTables userId
    · exact Or.inl same
    · refine Or.inr fun token issued accepted => never ⟨userId, failed, same, token, issued, accepted⟩

end

namespace PasswordReplacement

def draws : PasswordReplacement → Draws
  | .changePassword draws _ _ _ => draws
  | .reset draws _ _ => draws

/-- The hash that is written. -/
def newHash (env : Env) : PasswordReplacement → String
  | .changePassword draws _ _ new => env.argon2Hash new draws.salt
  | .reset draws _ new => env.argon2Hash new draws.salt

end PasswordReplacement

/-! ## The condition -/

section

variable {σ : Type} (env : Env) (fates : Nat → Fate ServiceError) (w : World σ) (userId : String)

/-- The checks pass for the user, and call number `n` is the write. -/
def Reaches (n : Nat) : PasswordReplacement → Prop
  | .changePassword _ accessToken current _ =>
      n = 3 ∧ (∀ k, k < n → fates k = .answers) ∧ env.TokenOf w.now accessToken userId ∧
        ∃ row, w.db.activeUserById userId = some row ∧
          ∃ checked, w.db.activeUserByEmail (IdentityProvider.normalizeEmail env row.email) =
            some checked ∧ env.argon2Verify checked.passwordHash current = true
  | .reset _ token _ =>
      n = 1 ∧ (∀ k, k < n → fates k = .answers) ∧
        truthy (w.resets.get (env.sha256 token)) = some userId

/-- What comes after the revocation, from call number `n` on, fails: the claims, the
signing or the new session of `changePassword`. -/
def FinishFails (n : Nat) : PasswordReplacement → Prop
  | .changePassword _ _ _ _ =>
      (∃ e, claimsIn w.db.toTables userId = .error e) ∨ ∃ k, n ≤ k ∧ k < n + 5 ∧ fates k ≠ .answers
  | .reset _ _ _ => False

/-- The user exists and has another hash than the new one. -/
def Replaces (newHash : String) : Prop :=
  ∃ row, w.db.userById userId = some row ∧ row.passwordHash ≠ newHash

end

/-- With the write as call number `n`: it fails after it took effect, or the revocation
fails before it does, and a token is current; or what follows the revocation's effect
fails, and a current token is unlisted. -/
def LeavesSession (sha256 : String → String) (fates : Nat → Fate ServiceError)
    (w : World RedisSessions) (userId : String) (n : Nat) (finishFails : Prop) : Prop :=
  (((∃ e, fates n = .throws true e) ∨
      (fates n = .answers ∧ ∃ e, fates (n + 1) = .throws false e)) ∧
    ∃ token, IssuedTo w.sessions.log userId token ∧
      w.sessions.state.store.Current (sha256 token)) ∨
  ((fates n = .answers ∧
      ((∃ e, fates (n + 1) = .throws true e) ∨ (fates (n + 1) = .answers ∧ finishFails))) ∧
    ∃ token, IssuedTo w.sessions.log userId token ∧
      w.sessions.state.store.Unlisted userId (sha256 token) ∧
        w.sessions.state.store.Current (sha256 token))

/-! ## The writes and what follows them -/

section

variable {sha256 : String → String} {ttl : RefreshTtl} {env : Env}
  {fates : Nat → Fate ServiceError}

theorem accepts_iff {w : World RedisSessions} {token : String} :
    Accepts (redisSessionStore sha256 ttl) w token ↔
      w.sessions.state.store.Current (sha256 token) := by
  constructor
  · rintro ⟨newToken, accepted⟩
    exact RedisSessions.rotate_accepts_iff.mp accepted
  · intro current
    exact ⟨token, RedisSessions.rotate_accepts_iff.mpr current⟩

/-- The write changes the hash of one user, to the new one. -/
theorem storedHash_userUpdate {db db' : Database} {userId new : String}
    (ok : db.userUpdate userId { passwordHash := some new } = .ok db') (other : String) :
    storedHash db'.toTables other ≠ storedHash db.toTables other ↔
      other = userId ∧ ∃ row, db.userById userId = some row ∧ row.passwordHash ≠ new := by
  by_cases same : other = userId
  · subst same
    cases found : db.userById other with
    | none =>
        have unknown : other ∉ db.userIds := by
          intro known
          obtain ⟨u, row, id⟩ := List.mem_map.mp known
          rw [Database.userById_eq_some.mpr ⟨row, id⟩] at found
          cases found
        rw [Database.userUpdate, if_neg unknown] at ok
        cases ok
    | some row =>
        simp only [storedHash, found, Database.userById_userUpdate found ok, Option.map_some]
        simp [Db.User.update, eq_comm]
  · simp [storedHash, Database.userById_userUpdate_ne same ok, same]

/-- A procedure that only reads changes nothing, whatever fails. -/
theorem quiet_runUnder {σ α : Type} {p : Service σ α} (quiet : Quiet p)
    (fates : Nat → Fate ServiceError) (n : Nat) (w : World σ) :
    (p.runUnder fates n w).2.2 = w :=
  Prog.Guarantees.runUnder (G := fun w w' : World σ => w' = w) (fun _ => rfl)
    (fun _ _ _ first second => second.trans first) quiet fates n w

/-- What comes after the revocation keeps the database and the other tokens. -/
def KeepsTokens (hash : String) (w w' : World RedisSessions) : Prop :=
  w'.db = w.db ∧
    ∀ h, h ≠ hash → (w'.sessions.state.store.Current h ↔ w.sessions.state.store.Current h)

theorem issueFor_keepsTokens (draws : Draws) (user : User) :
    (AuthService.issueFor (redisSessionStore sha256 ttl) env draws user).Guarantees
      (KeepsTokens (sha256 draws.token)) := by
  have quiet : ∀ {α : Type} {p : Service RedisSessions α}, Quiet p →
      p.Guarantees (KeepsTokens (sha256 draws.token)) :=
    fun quiet => quiet.mono fun w w' same => same ▸ ⟨rfl, fun _ _ => Iff.rfl⟩
  refine .bind (quiet (quiet_toIdentity user)) fun identity => ?_
  refine .bind (quiet (quiet_signAccessToken env identity draws.jti)) fun access => ?_
  refine .bind (.call fun w => ⟨rfl, fun h other => ?_⟩) fun refresh => .pure _
  exact RedisSessions.createSession_current sha256 other

/-- A failed call that committed the write, in terms of the tokens it left current. -/
theorem halfReplaced_iff {α : Type} {w₀ w : World RedisSessions} {db : Database}
    {userId new : String} {n : Nat} {e : ServiceError} (left : String → Prop)
    (ok : w₀.db.userUpdate userId { passwordHash := some new } = .ok db) (written : w.db = db)
    (tokens : ∀ token, IssuedTo w₀.sessions.log userId token →
      (w.sessions.state.store.Current (sha256 token) ↔ left token)) :
    (∃ other, HalfReplaced (redisSessionStore sha256 ttl) w₀ other
        ((.error e, n, w) : Except ServiceError α × Nat × World RedisSessions)) ↔
      Replaces w₀ userId new ∧ ∃ token, IssuedTo w₀.sessions.log userId token ∧ left token := by
  constructor
  · rintro ⟨other, -, changed, token, issued, accepted⟩
    simp only [written] at changed
    obtain ⟨rfl, replaces⟩ := (storedHash_userUpdate ok other).mp changed
    exact ⟨replaces, token, issued, (tokens token issued).mp (accepts_iff.mp accepted)⟩
  · rintro ⟨replaces, token, issued, here⟩
    refine ⟨userId, ⟨e, rfl⟩, ?_, token, issued, accepts_iff.mpr ((tokens token issued).mpr here)⟩
    simp only [written]
    exact (storedHash_userUpdate ok userId).mpr ⟨rfl, replaces⟩

/-- A call that answers, or has not written, did no harm. -/
theorem not_halfReplaced {α : Type} {w₀ : World RedisSessions}
    {outcome : Except ServiceError α × Nat × World RedisSessions}
    (harmless : (∃ a, outcome.1 = .ok a) ∨ outcome.2.2.db = w₀.db) :
    ¬ ∃ userId, HalfReplaced (redisSessionStore sha256 ttl) w₀ userId outcome := by
  rintro ⟨userId, ⟨e, failed⟩, changed, -⟩
  rcases harmless with ⟨a, ok⟩ | same
  · rw [ok] at failed
    cases failed
  · rw [same] at changed
    exact changed rfl

/-- Forgetting the value of the call changes nothing. -/
theorem halfReplaced_map {α β : Type} {f : α → β} {w₀ : World RedisSessions} {userId : String}
    {outcome : Except ServiceError α × Nat × World RedisSessions} :
    HalfReplaced (redisSessionStore sha256 ttl) w₀ userId (outcome.1.map f, outcome.2) ↔
      HalfReplaced (redisSessionStore sha256 ttl) w₀ userId outcome := by
  have errors : (∃ e, outcome.1.map f = .error e) ↔ ∃ e, outcome.1 = .error e := by
    cases outcome.1 <;> simp [Except.map]
  constructor
  · rintro ⟨failed, changed, accepted⟩
    exact ⟨errors.mp failed, changed, accepted⟩
  · rintro ⟨failed, changed, accepted⟩
    exact ⟨errors.mpr failed, changed, accepted⟩

/-- The write of a procedure under its fate. -/
theorem runUnder_commit_bind {σ α : Type} (update : Database → Except PrismaError Database)
    (f : Unit → Service σ α) (n : Nat) (w : World σ) :
    (commit update >>= f).runUnder fates n w = match fates n, update w.db with
      | .answers, .ok db => (f ()).runUnder fates (n + 1) { w with db }
      | .answers, .error e => (.error (.prisma e), n + 1, w)
      | .throws true e, .ok db => (.error e, n + 1, { w with db })
      | .throws true e, .error _ => (.error e, n + 1, w)
      | .throws false e, _ => (.error e, n + 1, w) := by
  change (Prog.await _ _).runUnder fates n w = _
  rw [Prog.runUnder_await]
  cases update w.db with
  | ok db =>
      cases fates n with
      | answers => rfl
      | throws applied e => cases applied <;> rfl
  | error e =>
      cases fates n with
      | answers => rfl
      | throws applied e => cases applied <;> rfl

/-- The write, the revocation and the rest. -/
def replaceAndRevoke {σ α : Type} (S : SessionStore σ) (env : Env) (draws : Draws)
    (userId new : String) (rest : Service σ α) : Service σ α := do
  IdentityProvider.changePassword env draws userId new
  revokeUser S userId
  rest

theorem not_replaces {w : World RedisSessions} {userId new : String} {e : PrismaError}
    (refused : w.db.userUpdate userId { passwordHash := some new } = .error e) :
    ¬ Replaces w userId new := by
  rintro ⟨row, found, -⟩
  obtain ⟨member, same⟩ := Database.userById_eq_some.mp found
  obtain ⟨db, ok⟩ := Database.userUpdate_commits (List.mem_map.mpr ⟨row, member, same⟩)
    { passwordHash := some new }
  rw [refused] at ok
  cases ok

theorem KeepsTokens.runUnder {α : Type} {p : Service RedisSessions α} {hash : String}
    (keeps : p.Guarantees (KeepsTokens hash)) (n : Nat) (w : World RedisSessions) :
    KeepsTokens hash w (p.runUnder fates n w).2.2 := by
  refine Prog.Guarantees.runUnder ?_ ?_ keeps fates n w
  · exact fun w => ⟨rfl, fun _ _ => Iff.rfl⟩
  · rintro w w' w'' ⟨db₁, tokens₁⟩ ⟨db₂, tokens₂⟩
    exact ⟨db₂.trans db₁, fun h other => (tokens₂ h other).trans (tokens₁ h other)⟩

/-- After the write and the revocation, what follows does harm exactly where it fails and
a current token was unlisted. -/
theorem halfReplaced_rest {α : Type} {rest : Service RedisSessions α}
    {w₀ w₁ : World RedisSessions} {userId new hash : String} {n : Nat} {finishFails : Prop}
    (ok : w₀.db.userUpdate userId { passwordHash := some new } = .ok w₁.db)
    (revoked : ∀ token, w₁.sessions.state.store.Current (sha256 token) ↔
      w₀.sessions.state.store.Unlisted userId (sha256 token) ∧
        w₀.sessions.state.store.Current (sha256 token))
    (keeps : rest.Guarantees (KeepsTokens hash))
    (fresh : ∀ token, IssuedTo w₀.sessions.log userId token → sha256 token ≠ hash)
    (fails : (∃ e, (rest.runUnder fates n w₁).1 = .error e) ↔ finishFails) :
    (∃ other, HalfReplaced (redisSessionStore sha256 ttl) w₀ other (rest.runUnder fates n w₁)) ↔
      Replaces w₀ userId new ∧ finishFails ∧ ∃ token, IssuedTo w₀.sessions.log userId token ∧
        w₀.sessions.state.store.Unlisted userId (sha256 token) ∧
          w₀.sessions.state.store.Current (sha256 token) := by
  have kept : KeepsTokens hash w₁ (rest.runUnder fates n w₁).2.2 := .runUnder keeps n w₁
  rcases outcome : rest.runUnder fates n w₁ with ⟨r, m, w₂⟩
  rw [outcome] at kept fails
  cases r with
  | ok a =>
      have finished : ¬ finishFails := fun failed => by
        obtain ⟨e, impossible⟩ := fails.mpr failed
        cases impossible
      exact iff_of_false (not_halfReplaced (Or.inl ⟨a, rfl⟩)) fun both => finished both.2.1
  | error e =>
      have failed : finishFails := fails.mp ⟨e, rfl⟩
      rw [halfReplaced_iff (fun token => w₀.sessions.state.store.Unlisted userId (sha256 token) ∧
        w₀.sessions.state.store.Current (sha256 token)) ok kept.1
        fun token issued => (kept.2 _ (fresh token issued)).trans (revoked token)]
      simp only [failed, true_and]

theorem halfReplaced_replaceAndRevoke {α : Type} {rest : Service RedisSessions α}
    {w₀ w : World RedisSessions} {draws : Draws} {userId new hash : String} {n : Nat}
    {finishFails : Prop} (db : w.db = w₀.db) (sessions : w.sessions = w₀.sessions)
    (keeps : rest.Guarantees (KeepsTokens hash))
    (fresh : ∀ token, IssuedTo w₀.sessions.log userId token → sha256 token ≠ hash)
    (finish : ∀ w₁ : World RedisSessions, w₁.db.toTables = { w₀.db.toTables with users := w₁.db.users } →
      ((∃ e, (rest.runUnder fates (n + 2) w₁).1 = .error e) ↔ finishFails)) :
    (∃ other, HalfReplaced (redisSessionStore sha256 ttl) w₀ other
        ((replaceAndRevoke (redisSessionStore sha256 ttl) env draws userId new rest).runUnder
          fates n w)) ↔
      Replaces w₀ userId (env.argon2Hash new draws.salt) ∧
        LeavesSession sha256 fates w₀ userId n finishFails := by
  unfold replaceAndRevoke IdentityProvider.changePassword
  rw [runUnder_commit_bind, db]
  have unrevoked : ∀ token, IssuedTo w₀.sessions.log userId token →
      (w.sessions.state.store.Current (sha256 token) ↔
        w₀.sessions.state.store.Current (sha256 token)) := by
    intro token _
    rw [sessions]
  have revoked : ∀ token, (w.sessions.state.store.revokeUser userId).Current (sha256 token) ↔
      w₀.sessions.state.store.Unlisted userId (sha256 token) ∧
        w₀.sessions.state.store.Current (sha256 token) := by
    intro token
    rw [RedisSessions.revokeUser_current, sessions]
  cases written : w₀.db.userUpdate userId
      { passwordHash := some (env.argon2Hash new draws.salt) } with
  | error e =>
      refine iff_of_false (not_halfReplaced (Or.inr ?_)) fun both => not_replaces written both.1
      cases fates n with
      | answers => exact db
      | throws applied e' => cases applied <;> exact db
  | ok db' =>
      cases first : fates n with
      | throws applied e =>
          cases applied with
          | true =>
              refine (halfReplaced_iff (fun token =>
                w₀.sessions.state.store.Current (sha256 token)) written rfl ?_).trans ?_
              · exact unrevoked
              · simp [LeavesSession, first]
          | false =>
              refine iff_of_false (not_halfReplaced (Or.inr db)) ?_
              simp [LeavesSession, first]
      | answers =>
          -- the hash is written; the revocation is next
          simp only
          rw [revokeUser, Prog.runUnder_call_bind]
          cases second : fates (n + 1) with
          | throws applied e =>
              cases applied with
              | true =>
                  refine (halfReplaced_iff (fun token =>
                    w₀.sessions.state.store.Unlisted userId (sha256 token) ∧
                      w₀.sessions.state.store.Current (sha256 token)) written rfl
                    fun token _ => revoked token).trans ?_
                  simp [LeavesSession, first, second]
              | false =>
                  refine (halfReplaced_iff (fun token =>
                    w₀.sessions.state.store.Current (sha256 token)) written rfl ?_).trans ?_
                  · exact unrevoked
                  · simp [LeavesSession, first, second]
          | answers =>
              refine (halfReplaced_rest written revoked keeps fresh
                (finish _ (by rw [Database.userUpdate_ok written]))).trans ?_
              simp [LeavesSession, first, second]

end

/-! ## The two operations -/

section

variable {sha256 : String → String} {ttl : RefreshTtl} {env : Env}
  {fates : Nat → Fate ServiceError}

/-- What `changePassword` checks before it writes. -/
def authorise {σ : Type} (env : Env) (accessToken currentPassword : String) : Service σ User := do
  let verified ← authenticate env accessToken
  match ← IdentityProvider.findById verified.sub with
  | none => Prog.fail (.unauthorized "Invalid access token")
  | some user =>
      match ← IdentityProvider.verifyCredentials env user.email currentPassword with
      | none => Prog.fail (.unauthorized "Current password is incorrect")
      | some _ => return user

theorem changePassword_eq {σ : Type} (S : SessionStore σ) (draws : Draws)
    (accessToken current new : String) :
    AuthService.changePassword S env draws accessToken current new =
      authorise env accessToken current >>= fun user =>
        replaceAndRevoke S env draws user.id new (AuthService.issueFor S env draws user) := by
  unfold AuthService.changePassword authorise
  rw [Prog.bind_assoc]
  congr 1
  funext verified
  rw [Prog.bind_assoc]
  congr 1
  funext found
  cases found with
  | none => rfl
  | some user =>
      simp only
      rw [Prog.bind_assoc]
      congr 1
      funext matched
      cases matched <;> rfl

theorem quiet_authorise {σ : Type} (env : Env) (accessToken current : String) :
    Quiet (authorise env accessToken current : Service σ User) := by
  refine .bind (quiet_authenticate env accessToken) fun verified => ?_
  refine .bind (IdentityProvider.quiet_findById verified.sub) fun found => ?_
  cases found with
  | none => exact .fail _
  | some user =>
      refine .bind (.bind (.query _) fun _ => .pure _) fun matched => ?_
      cases matched with
      | none => exact .fail _
      | some _ => exact .pure _

/-- The access token is valid for the active user of this row, and the password is the
one of the account with the user's email. -/
def Authorised {σ : Type} (env : Env) (w : World σ) (accessToken current : String)
    (row : Db.User) : Prop :=
  env.TokenOf w.now accessToken row.id ∧ w.db.activeUserById row.id = some row ∧
    ∃ checked, w.db.activeUserByEmail (IdentityProvider.normalizeEmail env row.email) =
      some checked ∧ env.argon2Verify checked.passwordHash current = true

theorem run_findById {σ : Type} (id : String) (w : World σ) :
    (IdentityProvider.findById id).run w = (.ok ((w.db.activeUserById id).map toUser), w) := rfl

theorem run_verifyCredentials {σ : Type} (env : Env) (email password : String) (w : World σ) :
    (IdentityProvider.verifyCredentials env email password).run w =
      (.ok (let row := w.db.activeUserByEmail (IdentityProvider.normalizeEmail env email)
        if env.argon2Verify ((row.map Db.User.passwordHash).getD env.decoyHash) password then
          row.map toUser
        else none), w) := rfl

/-- An authorised caller is let through by three calls. -/
theorem Authorised.run {σ : Type} {w : World σ} {accessToken current : String} {row : Db.User}
    (authorised : Authorised env w accessToken current row) :
    (authorise env accessToken current).run w = (.ok (toUser row), w) ∧
      (authorise env accessToken current).calls w = 3 := by
  obtain ⟨valid, active, checked, matched, verifies⟩ := authorised
  obtain ⟨verified, authenticated, sub⟩ := run_authenticate_ok valid
  have first : (authenticate env accessToken).calls w = 1 := by
    unfold authenticate
    rw [Prog.calls_bind_ok (run_clock w)]
    cases env.verifyAccessToken w.now accessToken <;> rfl
  have found := run_findById verified.sub w
  rw [sub, active] at found
  have checks := run_verifyCredentials env (toUser row).email current w
  have matched : w.db.activeUserByEmail
      (IdentityProvider.normalizeEmail env (toUser row).email) = some checked := matched
  simp only [matched, Option.map_some, Option.getD_some, verifies, if_true] at checks
  unfold authorise
  constructor
  · rw [Prog.run_bind_ok authenticated, sub, Prog.run_bind_ok found]
    exact Prog.run_bind_ok checks _
  · rw [Prog.calls_bind_ok authenticated, first, sub, Prog.calls_bind_ok found]
    simp only [Option.map_some]
    rw [Prog.calls_bind_ok checks]
    rfl

/-- Whoever is let through is authorised. -/
theorem run_authorise {σ : Type} {w w' : World σ} {accessToken current : String} {user : User}
    (ok : (authorise env accessToken current).run w = (.ok user, w')) :
    ∃ row, user = toUser row ∧ w' = w ∧ Authorised env w accessToken current row := by
  unfold authorise at ok
  obtain ⟨verified, w₁, authenticated, ok⟩ := Prog.run_bind_eq_ok.mp ok
  rw [run_authenticate] at authenticated
  cases valid : env.verifyAccessToken w.now accessToken with
  | error e =>
      rw [valid] at authenticated
      cases authenticated
  | ok v =>
      rw [valid] at authenticated
      cases authenticated
      rw [Prog.run_bind_ok (run_findById verified.sub w)] at ok
      cases active : w.db.activeUserById verified.sub with
      | none =>
          rw [active] at ok
          cases ok
      | some row =>
          rw [active] at ok
          simp only [Option.map_some] at ok
          rw [Prog.run_bind_ok (run_verifyCredentials env _ _ w)] at ok
          simp only at ok
          have sub := List.find?_some active
          simp only [decide_eq_true_eq] at sub
          cases matched : w.db.activeUserByEmail
              (IdentityProvider.normalizeEmail env (toUser row).email) with
          | none =>
              simp only [matched, Option.map_none, ite_self] at ok
              cases ok
          | some checked =>
              simp only [matched, Option.map_some, Option.getD_some] at ok
              by_cases verifies : env.argon2Verify checked.passwordHash current = true
              · rw [if_pos verifies] at ok
                cases ok
                refine ⟨row, rfl, rfl, ⟨verified, valid, sub.1.symm⟩, ?_, checked, matched, verifies⟩
                rw [sub.1]
                exact active
              · rw [if_neg verifies] at ok
                cases ok

theorem calls_effectiveClaims {σ : Type} (userId : String) (w : World σ) :
    (effectiveClaims userId).calls w = 3 := by
  unfold effectiveClaims
  rw [Prog.calls_bind_ok (run_query _ w), Prog.calls_bind_ok (run_query _ w),
    Prog.calls_bind_ok (run_query _ w)]
  cases expandMemberships (w.db.departmentsOf TENANT) (w.db.membershipsOf userId) <;> rfl

/-- Minting fails with the claims, and makes five calls otherwise. -/
theorem issueFor_fails_iff {draws : Draws} {user : User} {n : Nat} {w w₁ : World RedisSessions}
    (same : w₁.db.toTables = { w.db.toTables with users := w₁.db.users }) :
    (∃ e, ((AuthService.issueFor (redisSessionStore sha256 ttl) env draws user).runUnder
        fates n w₁).1 = .error e) ↔
      (∃ e, claimsIn w.db.toTables user.id = .error e) ∨
        ∃ k, n ≤ k ∧ k < n + 5 ∧ fates k ≠ .answers := by
  have claimed : claimsIn w₁.db.toTables user.id = claimsIn w.db.toTables user.id := by
    rw [same]
    rfl
  have found := run_effectiveClaims user.id w₁
  rw [claimed] at found
  rw [Prog.runUnder_fails_iff]
  unfold AuthService.issueFor AuthService.toIdentity
  rw [Prog.bind_assoc]
  cases minted : claimsIn w.db.toTables user.id with
  | error e =>
      rw [minted] at found
      rw [Prog.run_bind_error found]
      exact iff_of_true (Or.inl ⟨e, rfl⟩) (Or.inl ⟨e, rfl⟩)
  | ok claims =>
      rw [minted] at found
      rw [Prog.run_bind_ok found, Prog.calls_bind_ok found, calls_effectiveClaims]
      refine or_congr (iff_of_false ?_ (by simp)) Iff.rfl
      rintro ⟨e, impossible⟩
      cases impossible

/-- The checks pass under the fates when they would alone and their calls answer. -/
theorem runUnder_authorise {σ : Type} {w w' : World σ} {accessToken current : String} {user : User}
    {n : Nat} :
    (authorise env accessToken current).runUnder fates 0 w = (.ok user, n, w') ↔
      w' = w ∧ n = 3 ∧ (∀ k, k < n → fates k = .answers) ∧
        ∃ row, user = toUser row ∧ Authorised env w accessToken current row := by
  rw [Prog.runUnder_eq_ok]
  constructor
  · rintro ⟨ran, count, answers⟩
    obtain ⟨row, rfl, rfl, authorised⟩ := run_authorise ran
    rw [authorised.run.2] at count
    exact ⟨rfl, count.trans (Nat.zero_add 3), fun k => answers k (Nat.zero_le k), row, rfl, authorised⟩
  · rintro ⟨rfl, rfl, answers, row, rfl, authorised⟩
    rw [authorised.run.1, authorised.run.2]
    exact ⟨rfl, rfl, fun k _ => answers k⟩

theorem halfReplaced_changePassword {w : World RedisSessions} {draws : Draws}
    {accessToken current new : String}
    (fresh : ∀ userId token, IssuedTo w.sessions.log userId token →
      sha256 token ≠ sha256 draws.token) :
    (∃ userId, HalfReplaced (redisSessionStore sha256 ttl) w userId
        ((AuthService.changePassword (redisSessionStore sha256 ttl) env draws accessToken current
          new).runUnder fates 0 w)) ↔
      ∃ userId n, Reaches env fates w userId n (.changePassword draws accessToken current new) ∧
        Replaces w userId (env.argon2Hash new draws.salt) ∧
        LeavesSession sha256 fates w userId n (FinishFails fates w userId (n + 2)
          (.changePassword draws accessToken current new)) := by
  rw [changePassword_eq]
  rcases checks : (authorise env accessToken current).runUnder fates 0 w with ⟨r, n, w'⟩
  cases r with
  | error e =>
      -- the checks have written nothing
      have kept := quiet_runUnder (quiet_authorise env accessToken current) fates 0 w
      rw [checks] at kept
      rw [Prog.runUnder_bind_error checks]
      refine iff_of_false (not_halfReplaced (Or.inr (congrArg World.db kept))) ?_
      rintro ⟨userId, n', ⟨three, answers, valid, row, active, matched⟩, -⟩
      have mine := List.find?_some active
      simp only [decide_eq_true_eq] at mine
      obtain ⟨rfl, -⟩ := mine
      rw [runUnder_authorise.mpr
        ⟨rfl, three, answers, row, rfl, valid, active, matched⟩] at checks
      cases checks
  | ok user =>
      obtain ⟨rfl, three, answers, row, rfl, authorised⟩ := runUnder_authorise.mp checks
      rw [Prog.runUnder_bind_ok checks]
      refine (halfReplaced_replaceAndRevoke rfl rfl (issueFor_keepsTokens draws (toUser row))
        (fresh row.id) fun w₁ same => issueFor_fails_iff same).trans ?_
      constructor
      · rintro ⟨replaces, leaves⟩
        exact ⟨row.id, n, ⟨three, answers, authorised.1, row, authorised.2⟩, replaces, leaves⟩
      · rintro ⟨userId, n', ⟨three', -, valid, -⟩, replaces, leaves⟩
        obtain rfl := valid.unique authorised.1
        rw [three', ← three] at leaves
        exact ⟨replaces, leaves⟩

theorem halfReplaced_reset {w : World RedisSessions} {draws : Draws} {token new : String}
    (fresh : ∀ userId token, IssuedTo w.sessions.log userId token →
      sha256 token ≠ sha256 draws.token) :
    (∃ userId, HalfReplaced (redisSessionStore sha256 ttl) w userId
        ((PasswordResetService.reset (redisSessionStore sha256 ttl) env draws token new).runUnder
          fates 0 w)) ↔
      ∃ userId n, Reaches env fates w userId n (.reset draws token new) ∧
        Replaces w userId (env.argon2Hash new draws.salt) ∧
        LeavesSession sha256 fates w userId n (FinishFails fates w userId (n + 2)
          (.reset draws token new)) := by
  unfold PasswordResetService.reset PasswordResetService.takeReset
  rw [Prog.runUnder_call_bind]
  cases first : fates 0 with
  | throws applied e =>
      refine iff_of_false (not_halfReplaced (Or.inr ?_)) ?_
      · cases applied <;> rfl
      · rintro ⟨userId, n, ⟨rfl, answers, -⟩, -⟩
        have answered := answers 0 (by omega)
        rw [first] at answered
        cases answered
  | answers =>
      simp only
      cases taken : truthy (w.resets.get (env.sha256 token)) with
      | none =>
          refine iff_of_false (not_halfReplaced (Or.inr rfl)) ?_
          rintro ⟨userId, n, ⟨-, -, found⟩, -⟩
          rw [taken] at found
          cases found
      | some userId =>
          simp only
          have tail : (∃ other, HalfReplaced (redisSessionStore sha256 ttl) w other
              ((replaceAndRevoke (redisSessionStore sha256 ttl) env draws userId new
                (pure true)).runUnder fates 1
                { w with resets := w.resets.del (env.sha256 token) })) ↔
              Replaces w userId (env.argon2Hash new draws.salt) ∧
                LeavesSession sha256 fates w userId 1 False :=
            halfReplaced_replaceAndRevoke rfl rfl (.pure true) (fresh userId) fun _ _ => by simp
          refine tail.trans ?_
          constructor
          · rintro ⟨replaces, leaves⟩
            refine ⟨userId, 1, ⟨rfl, ?_, taken⟩, replaces, leaves⟩
            intro k below
            obtain rfl : k = 0 := by omega
            exact first
          · rintro ⟨userId', n, ⟨rfl, -, found⟩, replaces, leaves⟩
            rw [taken] at found
            cases found
            exact ⟨replaces, leaves⟩

/-- A failed replacement is safe exactly when it does not come to the write of a new hash
and then leave an old session. -/
theorem failsSafely_iff {replacement : PasswordReplacement} {w : World RedisSessions}
    (inj : Function.Injective sha256)
    (fresh : ∀ userId, ¬ IssuedTo w.sessions.log userId replacement.draws.token) :
    FailsSafely (redisSessionStore sha256 ttl) env fates replacement w ↔
      ¬ ∃ userId n, Reaches env fates w userId n replacement ∧
        Replaces w userId (replacement.newHash env) ∧
        LeavesSession sha256 fates w userId n (FinishFails fates w userId (n + 2) replacement) := by
  have unissued : ∀ userId token, IssuedTo w.sessions.log userId token →
      sha256 token ≠ sha256 replacement.draws.token := by
    intro userId token issued collides
    rw [inj collides] at issued
    exact fresh userId issued
  rw [failsSafely_iff_not_halfReplaced]
  apply not_congr
  cases replacement with
  | changePassword draws accessToken current new =>
      simp only [PasswordReplacement.service, Prog.runUnder_void, halfReplaced_map]
      exact halfReplaced_changePassword unissued
  | reset draws token new =>
      simp only [PasswordReplacement.service, Prog.runUnder_void, halfReplaced_map]
      exact halfReplaced_reset unissued

end

/-! ## Redis is gone after the write -/

/-- An account with an open session. -/
def signedIn : World RedisSessions :=
  { World.fresh RedisSessions.empty 0 staffed with
    sessions := sampleStore.machine.perform ⟨[], ⟨0, RedisSessions.empty⟩⟩
      (.createSession "hr@acme.test" "f0" sampleTokens.1) }

/-- The owner changes the password. -/
def ownChange : PasswordReplacement :=
  .changePassword { sampleDraws with token := sampleTokens.2.1 } "hr@acme.test" "argon2id$"
    "N3w-Passw0rd"

/-- Only this call fails, before it takes effect. -/
def unreachable (k : Nat) : Nat → Fate ServiceError :=
  fun n => if n = k then .throws false (.error "Connection is closed.") else .answers

theorem signedIn_unissued (userId : String) :
    ¬ IssuedTo signedIn.sessions.log userId ownChange.draws.token := by
  rintro ⟨familyId, instant, issued⟩
  rcases issued_cons.mp issued with ⟨hands, -⟩ | none
  · revert hands
    simp [Logged.hands, ownChange, PasswordReplacement.draws, sampleStore, redisSessionStore,
      SessionStore.machine, SessionStore.step, RedisSessions.createSession, sampleTokens]
  · exact absurd none not_issued_nil

/-- Where the write itself fails, nothing has happened. -/
theorem failsSafely_unwritten :
    FailsSafely sampleStore verifyingEnv (unreachable 3) ownChange signedIn := by
  refine (failsSafely_iff sampleSha256.injective signedIn_unissued).mpr ?_
  rintro ⟨userId, n, ⟨rfl, -⟩, -, (⟨⟨e, lost⟩ | ⟨answered, -⟩, -⟩ | ⟨⟨answered, -⟩, -⟩)⟩
  · cases lost
  · cases answered
  · cases answered

/-- The revocation fails: the password is new and the session of before is accepted. -/
theorem not_always_failsSafely : ¬ ∀ (sha256 : String → String) (ttl : RefreshTtl) (env : Env)
    (fates : Nat → Fate ServiceError) (replacement : PasswordReplacement)
    (w : World RedisSessions), Function.Injective sha256 →
      (∀ userId, ¬ IssuedTo w.sessions.log userId replacement.draws.token) →
        FailsSafely (redisSessionStore sha256 ttl) env fates replacement w := by
  intro always
  have safe := always sampleSha256 .default verifyingEnv (unreachable 4) ownChange signedIn
    sampleSha256.injective signedIn_unissued
  rcases safe ⟨.error "Connection is closed.", by decide +kernel⟩ "hr@acme.test" with same | dead
  · revert same
    decide +kernel
  · refine dead sampleTokens.1 ⟨"f0", 0, issued_cons.mpr (Or.inl ⟨rfl, rfl⟩)⟩ ?_
    exact ⟨sampleTokens.2.2, "hr@acme.test", "f0", ⟨sampleTokens.2.2, "f0", 1209600⟩,
      by decide +kernel⟩

end Arac.Auth
