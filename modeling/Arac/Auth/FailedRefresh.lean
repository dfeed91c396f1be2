/-
# Arac.Auth.FailedRefresh -- a refresh that fails after its rotation

`refresh` rotates the presented token first and only then looks up the user, reads the
claims and signs.  Where one of these later steps fails the client gets no successor,
while the store has retired the presented token and keeps it for the theft alarm.
`refresh_failure_is_theft` says that this is always so: presenting the token again is
answered `reuse_detected` and ends the family, over both stores.

* `ReplayBurns`: what a store does with a token presented right after its rotation.
* `runUnder_refresh`: a refresh of an active user's token leaves just the rotation.
-/
import Arac.Auth.FailedReplacement
import Arac.Sessions.ReuseDetection

namespace Arac.Auth

open Arac.Theory Arac.Sessions Arac.Db Arac.Service Arac.Org

set_option autoImplicit false

/-! ## The property -/

section

variable {σ : Type} (S : SessionStore σ) (env : Env)

/-- Presenting the token, with this one drawn for its successor, is answered `rotated`. -/
def Rotates (w : World σ) (token newToken userId familyId : String) : Prop :=
  ∃ refresh, (S.rotate w.now token newToken w.sessions.state.store).1 =
    .rotated userId familyId refresh

/-- Under these fates `refresh` fails although its rotation answered. -/
def FailsDownstream (fates : Nat → Fate ServiceError) (draws : Draws) (token : String)
    (w : World σ) : Prop :=
  fates 0 = .answers ∧ ∃ e, ((AuthService.refresh S env draws token).runUnder fates 0 w).1 = .error e

/-- Presenting the token is not taken for theft, does not end the family, and is
answered with a successor. -/
structure Honoured (w : World σ) (token newToken familyId : String) : Prop where
  noAlarm : ∀ userId family, (S.rotate w.now token newToken w.sessions.state.store).1 ≠
    .reuseDetected userId family
  familyKept : Accepted S (w.perform S (.rotate token newToken)) familyId
  successor : ∃ userId, Rotates S w token newToken userId familyId

/-- A token presented right after its rotation springs the alarm, and no record of its
family is left. -/
def ReplayBurns (ledger : σ → Ledger) (c : Machine.Config (Clocked σ) Logged) : Prop :=
  ∀ token newToken again userId familyId refresh, Fresh c.log (.rotate token newToken) →
    (S.rotate c.state.now token newToken c.state.store).1 = .rotated userId familyId refresh →
      let replayed := S.rotate c.state.now token again
        (S.rotate c.state.now token newToken c.state.store).2
      replayed.1 = .reuseDetected userId familyId ∧ (ledger replayed.2).NoFamily familyId

end

/-! ## The two stores -/

section

variable {sha256 : String → String} {ttl : RefreshTtl} {start : Nat}

theorem replayBurns_redis (inj : Function.Injective sha256)
    {c : Machine.Config (Clocked RedisSessions) Logged}
    (reached : (redisSessionStore sha256 ttl).Reaches ⟨start, .empty⟩ c) :
    ReplayBurns (redisSessionStore sha256 ttl) RedisSessions.ledger c := by
  intro token newToken again userId familyId refresh fresh rotated
  have refines := RedisSessions.refinesLedger sha256 ttl
  have after := reached.perform fresh
  have alarm : ((c.state.store.rotate sha256 ttl c.state.now token newToken).2.rotate sha256 ttl
      c.state.now token again).1 = .reuseDetected userId familyId := by
    simp only [redisSessionStore] at rotated
    have moved := RedisSessions.rotate_effect sha256 ttl c.state.now token newToken c.state.store
    generalize c.state.store.rotate sha256 ttl c.state.now token newToken = result at moved rotated ⊢
    cases moved with
    | invalid absent => cases rotated
    | reuse found used => cases rotated
    | @rotated e found unused hashes inHashes =>
        cases rotated
        have minted := (refines.linear inj rfl reached).minted inj
          (RedisSessions.ledger_eq_some.mpr ⟨e, found, rfl⟩)
        -- the old record is retired, not overwritten by its successor
        rw [RedisSessions.rotate_reuse
          (e := ⟨⟨e.value.familyId, e.value.userId, true⟩, e.deadline⟩)
          (ExpiringMap.put_put_eq_some.mpr
            (Or.inr (Or.inl ⟨Linear.hash_ne inj minted fresh, rfl, rfl⟩))) rfl]
  refine ⟨alarm, ?_⟩
  exact (burned_of_reuse (FamilyIndex.of_reaches inj after) (refines.linear inj rfl after) inj
    alarm).2.gone

theorem replayBurns_inMemory (inj : Function.Injective sha256)
    {c : Machine.Config (Clocked InMemorySessions) Logged}
    (reached : (inMemorySessionStore sha256 ttl).Reaches ⟨start, .empty⟩ c) :
    ReplayBurns (inMemorySessionStore sha256 ttl) InMemorySessions.ledger c := by
  intro token newToken again userId familyId refresh fresh rotated
  have after := reached.perform fresh
  have coherent := (InMemoryIndex.of_reaches after).toCoherent
  have unused := ((InMemorySessions.refinesLedger sha256 ttl).step c.state
    (.rotate token newToken))
  rw [show ((inMemorySessionStore sha256 ttl).step c.state (.rotate token newToken)).1 =
    .rotation (.rotated userId familyId refresh) from congrArg Answer.rotation rotated] at unused
  have minted := ((InMemorySessions.refinesLedger sha256 ttl).linear inj rfl reached).minted inj
    unused.rotated
  obtain ⟨record, found, used, rfl, rfl⟩ :=
    InMemorySessions.rotate_rotated rotated (Linear.hash_ne inj minted fresh)
  simp only [inMemorySessionStore] at found ⊢
  rw [InMemorySessions.rotate_reuse found used]
  exact ⟨rfl, coherent.revokeFamily_kills record.familyId⟩

end

/-! ## The failed refresh -/

section

variable {σ : Type} {S : SessionStore σ} {env : Env} {sha256 : String → String}
  {ledger : σ → Ledger} {fates : Nat → Fate ServiceError} {draws : Draws}
  {token userId familyId : String} {w : World σ}

/-- A refresh of an active user's token leaves the rotation and nothing else. -/
theorem runUnder_refresh (rotates : Rotates S w token draws.token userId familyId)
    (active : ∃ row, w.db.activeUserById userId = some row) (answers : fates 0 = .answers) :
    ((AuthService.refresh S env draws token).runUnder fates 0 w).2.2 =
      w.perform S (.rotate token draws.token) := by
  obtain ⟨refresh, rotated⟩ := rotates
  obtain ⟨row, found⟩ := active
  unfold AuthService.refresh rotate
  rw [Prog.runUnder_call_bind, answers]
  simp only [rotated]
  change ((AuthService.afterRotate S env draws (.rotated userId familyId refresh)).runUnder fates 1
    (w.perform S (.rotate token draws.token))).2.2 = _
  have same : (w.perform S (.rotate token draws.token)).db = w.db := rfl
  generalize w.perform S (.rotate token draws.token) = after at same ⊢
  unfold AuthService.afterRotate
  have kept := quiet_runUnder (IdentityProvider.quiet_findById userId) fates 1 after
  rcases looked : (IdentityProvider.findById userId).runUnder fates 1 after with ⟨r, n, w'⟩
  rw [looked] at kept
  cases r with
  | error e =>
      rw [Prog.runUnder_bind_error looked]
      exact kept
  | ok user =>
      rw [Prog.runUnder_bind_ok looked, show w' = after from kept]
      -- the user is active, so nobody is cleaned up
      have ran := (Prog.runUnder_eq_ok.mp looked).1
      rw [run_findById, same, found] at ran
      cases ran
      simp only [Option.map_some]
      exact quiet_runUnder (.bind (quiet_toIdentity _) fun identity =>
        .bind (quiet_signAccessToken env identity draws.jti) fun access => .pure _) fates n after

/-- A family without records is not rotated. -/
theorem not_accepted (refines : RefinesLedger S sha256 ledger) {store : σ}
    (at_store : w.sessions.state.store = store) (gone : (ledger store).NoFamily familyId) :
    ¬ Accepted S w familyId := by
  rintro ⟨presented, newToken, owner, refresh, accepted⟩
  have moved := refines.step w.sessions.state (.rotate presented newToken)
  rw [show (S.step w.sessions.state (.rotate presented newToken)).1 =
    .rotation (.rotated owner familyId refresh) from congrArg Answer.rotation accepted] at moved
  rw [← at_store] at gone
  exact gone _ _ moved.rotated rfl

/-- After a refresh whose rotation answered, each way to be honoured again is closed. -/
theorem refresh_taken (refines : RefinesLedger S sha256 ledger)
    (burns : ReplayBurns S ledger w.sessions)
    (fresh : Fresh w.sessions.log (.rotate token draws.token))
    (rotates : Rotates S w token draws.token userId familyId)
    (active : ∃ row, w.db.activeUserById userId = some row)
    (fails : FailsDownstream S env fates draws token w) (again : String) :
    let after := ((AuthService.refresh S env draws token).runUnder fates 0 w).2.2
    (S.rotate after.now token again after.sessions.state.store).1 = .reuseDetected userId familyId ∧
      ¬ Accepted S (after.perform S (.rotate token again)) familyId := by
  simp only
  rw [runUnder_refresh rotates active fails.1]
  obtain ⟨refresh, rotated⟩ := rotates
  obtain ⟨alarm, gone⟩ := burns token draws.token again userId familyId refresh fresh rotated
  exact ⟨alarm, not_accepted refines rfl gone⟩

end

/-- In every state of a run: where a refresh of a current token of an active user fails
after its rotation, presenting the token again is answered `reuse_detected`, no token of
the family is accepted any more, and so the token is in no way honoured. -/
def TakesForTheft {σ : Type} (S : SessionStore σ) (env : Env) (start : Clocked σ) : Prop :=
  ∀ w : World σ, S.Reaches start w.sessions → ∀ fates draws token userId familyId,
    Fresh w.sessions.log (.rotate token draws.token) →
    Rotates S w token draws.token userId familyId →
    (∃ row, w.db.activeUserById userId = some row) →
    FailsDownstream S env fates draws token w →
    let after := ((AuthService.refresh S env draws token).runUnder fates 0 w).2.2
    ∀ again : Draws,
      (S.rotate after.now token again.token after.sessions.state.store).1 =
        .reuseDetected userId familyId ∧
      (AuthService.refresh S env again token).run after =
        (.error (.unauthorized "Session revoked"), after.perform S (.rotate token again.token)) ∧
      ¬ Accepted S (after.perform S (.rotate token again.token)) familyId ∧
      ¬ Honoured S after token again.token familyId

theorem takesForTheft {σ : Type} {S : SessionStore σ} {sha256 : String → String}
    {ledger : σ → Ledger} {start : Clocked σ} (refines : RefinesLedger S sha256 ledger)
    (burns : ∀ c, S.Reaches start c → ReplayBurns S ledger c) (env : Env) :
    TakesForTheft S env start := by
  intro w reached fates draws token userId familyId fresh rotates active fails after again
  obtain ⟨alarm, ended⟩ :=
    refresh_taken refines (burns w.sessions reached) fresh rotates active fails again.token
  refine ⟨alarm, ?_, ended, fun honoured => honoured.noAlarm userId familyId alarm⟩
  have answered : (rotate S token again.token).run after = (.ok (.reuseDetected userId familyId),
      after.perform S (.rotate token again.token)) := by
    rw [← alarm]
    rfl
  rw [AuthService.refresh, Prog.run_bind_ok answered]
  rfl

/-- A refresh that fails after its rotation is always taken for theft later, by the Redis
store and by the in-memory store. -/
theorem refresh_failure_is_theft {sha256 : String → String} (inj : Function.Injective sha256)
    (ttl : RefreshTtl) (env : Env) (start : Nat) :
    TakesForTheft (redisSessionStore sha256 ttl) env ⟨start, .empty⟩ ∧
      TakesForTheft (inMemorySessionStore sha256 ttl) env ⟨start, .empty⟩ :=
  ⟨takesForTheft (RedisSessions.refinesLedger sha256 ttl)
      (fun _ reached => replayBurns_redis inj reached) env,
    takesForTheft (InMemorySessions.refinesLedger sha256 ttl)
      (fun _ reached => replayBurns_inMemory inj reached) env⟩

/-! ## The database is gone after the rotation -/

theorem signedIn_reached : sampleStore.Reaches ⟨0, .empty⟩ signedIn.sessions := by
  refine Machine.Reachable.start.perform ?_
  simp [Fresh]

theorem signedIn_fresh : Fresh signedIn.sessions.log (.rotate sampleTokens.1 sampleTokens.2.1) := by
  show ¬ Minted signedIn.sessions.log sampleTokens.2.1
  rintro ⟨l, member, mints⟩
  rw [List.mem_singleton.mp member] at mints
  revert mints
  decide

theorem signedIn_rotates :
    Rotates sampleStore signedIn sampleTokens.1 sampleTokens.2.1 "hr@acme.test" "f0" :=
  ⟨⟨sampleTokens.2.1, "f0", 1209600⟩, by decide +kernel⟩

theorem signedIn_active : ∃ row, signedIn.db.activeUserById "hr@acme.test" = some row :=
  Option.isSome_iff_exists.mp (by decide +kernel)

theorem signedIn_fails : FailsDownstream sampleStore verifyingEnv (unreachable 1)
    { sampleDraws with token := sampleTokens.2.1 } sampleTokens.1 signedIn :=
  ⟨rfl, .error "Connection is closed.", by decide +kernel⟩

theorem refresh_failure_is_theft_signedIn :
    ¬ Honoured sampleStore
      ((AuthService.refresh sampleStore verifyingEnv { sampleDraws with token := sampleTokens.2.1 }
        sampleTokens.1).runUnder (unreachable 1) 0 signedIn).2.2 sampleTokens.1 sampleTokens.2.2
      "f0" :=
  ((refresh_failure_is_theft sampleSha256.injective .default verifyingEnv 0).1 signedIn
    signedIn_reached (unreachable 1) { sampleDraws with token := sampleTokens.2.1 } sampleTokens.1
    "hr@acme.test" "f0" signedIn_fresh signedIn_rotates signedIn_active signedIn_fails
    { sampleDraws with token := sampleTokens.2.2 }).2.2.2

/-- The lookup of the user fails: the honest client's next try is reported as theft. -/
theorem not_always_honoured : ¬ ∀ (sha256 : String → String) (ttl : RefreshTtl) (env : Env)
    (start : Nat) (w : World RedisSessions), Function.Injective sha256 →
      (redisSessionStore sha256 ttl).Reaches ⟨start, .empty⟩ w.sessions →
      ∀ (fates : Nat → Fate ServiceError) (draws : Draws) (token userId familyId : String),
        Fresh w.sessions.log (.rotate token draws.token) →
        Rotates (redisSessionStore sha256 ttl) w token draws.token userId familyId →
        (∃ row, w.db.activeUserById userId = some row) →
        FailsDownstream (redisSessionStore sha256 ttl) env fates draws token w →
        ∀ newToken, Honoured (redisSessionStore sha256 ttl)
          ((AuthService.refresh (redisSessionStore sha256 ttl) env draws token).runUnder fates 0
            w).2.2 token newToken familyId := by
  intro always
  have honoured := always sampleSha256 .default verifyingEnv 0 signedIn sampleSha256.injective
    signedIn_reached (unreachable 1) { sampleDraws with token := sampleTokens.2.1 } sampleTokens.1
    "hr@acme.test" "f0" signedIn_fresh signedIn_rotates signedIn_active signedIn_fails
    sampleTokens.2.2
  exact honoured.noAlarm "hr@acme.test" "f0" (by decide +kernel)

end Arac.Auth
