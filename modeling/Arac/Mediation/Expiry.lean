/-
# Arac.Mediation.Expiry -- nothing stays in the auth Redis

Every key of the auth Redis has a deadline, at most one refresh lifetime away for a session
and thirty minutes for a pending reset (`Lapsing`).  No operation leaves a key without one,
whatever it answers and whatever values were drawn for it, so a deployment that nobody has
used for that long has an empty auth Redis (`lapsing_run`).
-/
import Arac.Mediation.Calls

namespace Arac.Mediation

open Arac.Theory Arac.Sessions Arac.Db Arac.Service Arac.Auth

set_option autoImplicit false

/-! ## The session keys -/

/-- Every session key vanishes, at `t` or before. -/
structure SessionsWithin (db : RedisSessions) (t : Nat) : Prop where
  refresh : db.refresh.Within t
  family : db.family.Within t
  userfam : db.userfam.Within t

namespace SessionsWithin

variable {sha256 : String → String} {ttl : RefreshTtl} {db : RedisSessions} {t now : Nat}

theorem empty (t : Nat) : SessionsWithin .empty t := ⟨.empty t, .empty t, .empty t⟩

theorem elapse_eq_empty (within : SessionsWithin db t) (come : t ≤ now) : db.elapse now = .empty := by
  rw [RedisSessions.elapse, within.refresh.elapse_eq_empty come, within.family.elapse_eq_empty come,
    within.userfam.elapse_eq_empty come]
  rfl

theorem burn (within : SessionsWithin db t) (userId familyId : String) :
    SessionsWithin (db.burn userId familyId) t where
  refresh := within.refresh.kept fun _ e found => ⟨e, (RedisSessions.burn_refresh.mp found).2, rfl⟩
  family := within.family.kept fun _ e found => ⟨e, (RedisSessions.burn_family.mp found).2, rfl⟩
  userfam := within.userfam.kept fun _ _ found => ExpiringMap.srem_eq_some found

theorem createSession (within : SessionsWithin db (now + ttl.ms)) (userId familyId token : String) :
    SessionsWithin (db.createSession sha256 ttl now userId familyId token).2 (now + ttl.ms) := by
  obtain ⟨_, _, eq, -, -⟩ :=
    RedisSessions.createSession_opened sha256 ttl now userId familyId token db
  rw [eq]
  exact ⟨within.refresh.put _ _ (Nat.le_refl _), within.family.put _ _ (Nat.le_refl _),
    within.userfam.put _ _ (Nat.le_refl _)⟩

/-- A retired record keeps its deadline. -/
theorem rotate (within : SessionsWithin db (now + ttl.ms)) (presented newToken : String) :
    SessionsWithin (db.rotate sha256 ttl now presented newToken).2 (now + ttl.ms) := by
  have moved := RedisSessions.rotate_effect sha256 ttl now presented newToken db
  generalize db.rotate sha256 ttl now presented newToken = result at moved ⊢
  cases moved with
  | invalid _ => exact within
  | reuse _ _ => exact within.burn _ _
  | @rotated e found _ hashes _ =>
      obtain ⟨d, deadline, before⟩ := within.refresh _ e found
      refine ⟨?_, within.family.put _ _ (Nat.le_refl _), within.userfam⟩
      rw [deadline]
      exact (within.refresh.put _ _ before).put _ _ (Nat.le_refl _)

theorem revoke (within : SessionsWithin db t) (presented : String) :
    SessionsWithin (db.revoke sha256 presented) t := by
  cases found : db.refresh (sha256 presented) with
  | none =>
      rw [RedisSessions.revoke_none found]
      exact within
  | some e =>
      rw [RedisSessions.revoke_some found]
      exact within.burn _ _

theorem revokeUser (within : SessionsWithin db t) (userId : String) :
    SessionsWithin (db.revokeUser userId) t where
  refresh := within.refresh.kept fun _ e found =>
    ⟨e, (RedisSessions.revokeUser_refresh.mp found).2, rfl⟩
  family := within.family.kept fun _ e found =>
    ⟨e, (RedisSessions.revokeUser_family.mp found).2, rfl⟩
  userfam := by
    rw [RedisSessions.revokeUser_userfam]
    exact within.userfam.del userId

/-- One call of the store, at its own time. -/
theorem step {c : Clocked RedisSessions} (within : SessionsWithin c.store (c.now + ttl.ms))
    (call : Call) :
    SessionsWithin ((redisSessionStore sha256 ttl).step c call).2.store
      (((redisSessionStore sha256 ttl).step c call).2.now + ttl.ms) := by
  cases call with
  | createSession userId familyId token => exact within.createSession userId familyId token
  | rotate presented newToken => exact within.rotate presented newToken
  | revoke presented => exact within.revoke presented
  | revokeUser userId => exact within.revokeUser userId
  | elapse ms =>
      have later : c.now + ttl.ms ≤ c.now + ms + ttl.ms := by omega
      exact ⟨(within.refresh.elapse).mono later, (within.family.elapse).mono later,
        (within.userfam.elapse).mono later⟩

end SessionsWithin

/-! ## The auth Redis in a run of operations -/

/-- Every key of the auth Redis has a deadline, at most one lifetime away. -/
structure Lapsing (ttl : RefreshTtl) (w : World RedisSessions) : Prop where
  sessions : SessionsWithin w.sessions.state.store (w.now + ttl.ms)
  resets : w.resets.Within (w.now + RESET_TTL_MS)

section

variable {sha256 : String → String} {ttl : RefreshTtl} {env : Env}
  {may : Operation → Except ServiceError Unit → Prop} {w₀ w w' : World RedisSessions}

/-- A call of the session store. -/
theorem Lapsing.performed (lapsing : Lapsing ttl w) (call : Call)
    (sessions : w'.sessions = (redisSessionStore sha256 ttl).machine.perform w.sessions call)
    (resets : w'.resets = w.resets) : Lapsing ttl w' where
  sessions := by
    rw [World.now, sessions]
    exact lapsing.sessions.step call
  resets := by
    have later : w.now ≤ w'.now := by
      rw [World.now, World.now, sessions]
      cases call with
      | elapse ms => exact Nat.le_add_right _ _
      | createSession _ _ _ => exact Nat.le_refl _
      | rotate _ _ => exact Nat.le_refl _
      | revoke _ => exact Nat.le_refl _
      | revokeUser _ => exact Nat.le_refl _
    rw [resets]
    exact lapsing.resets.mono (Nat.add_le_add_right later _)

theorem Lapsing.called (lapsing : Lapsing ttl w)
    (moved : RedisCall (redisSessionStore sha256 ttl) w w') : Lapsing ttl w' := by
  cases moved with
  | revokes _ _ _ sessions resets => exact lapsing.performed _ sessions resets
  | idle sessions resets =>
      refine ⟨?_, ?_⟩
      · rw [World.now, sessions]
        exact lapsing.sessions
      · rw [World.now, sessions, resets]
        exact lapsing.resets
  | storeReset hash userId sessions resets =>
      refine ⟨?_, ?_⟩
      · rw [World.now, sessions]
        exact lapsing.sessions
      · rw [World.now, sessions, resets]
        exact lapsing.resets.put hash userId (Nat.le_refl _)
  | takeReset hash sessions resets =>
      refine ⟨?_, ?_⟩
      · rw [World.now, sessions]
        exact lapsing.sessions
      · rw [World.now, sessions, resets]
        exact lapsing.resets.del hash

theorem Lapsing.minted {draws : Draws} (lapsing : Lapsing ttl w)
    (moved : MintCall (redisSessionStore sha256 ttl) draws w w') : Lapsing ttl w' := by
  cases moved with
  | createSession userId sessions resets => exact lapsing.performed _ sessions resets
  | rotate presented sessions resets => exact lapsing.performed _ sessions resets

theorem Lapsing.step (lapsing : Lapsing ttl w)
    (step : Step (redisSessionStore sha256 ttl) env may w w') : Lapsing ttl w' := by
  cases step with
  | elapse ms =>
      refine ⟨lapsing.sessions.step (.elapse ms), ?_⟩
      exact (lapsing.resets.elapse).mono (Nat.add_le_add_right (Nat.le_add_right w.now ms) _)
  | operation draws op run _ =>
      have kept := Prog.OnceAmong.run
        (R := fun w w' : World RedisSessions => Lapsing ttl w → Lapsing ttl w') (I := fun _ => True)
        (fun _ => id) (fun _ _ _ first second lapsing => second (first lapsing))
        (fun _ _ moved lapsing => lapsing.called moved) (fun _ _ _ _ => trivial)
        (fun _ _ _ moved lapsing => lapsing.minted moved)
        (operation_calls op : MintsOnce (redisSessionStore sha256 ttl) draws (op.service _ env draws))
        w trivial
      rw [run] at kept
      exact kept lapsing

/-- In every run of operations, with whatever draws and answers, every key of the auth Redis
vanishes within one lifetime; so a deployment that is then left alone for that long has an empty
auth Redis. -/
theorem lapsing_run (sessions : w₀.sessions.state.store = .empty) (resets : w₀.resets = .empty)
    (run : Relation.ReflTransGen (Step (redisSessionStore sha256 ttl) env may) w₀ w) :
    Lapsing ttl w ∧ ∀ ms, ttl.ms ≤ ms → RESET_TTL_MS ≤ ms →
      (w.elapse (redisSessionStore sha256 ttl) ms).sessions.state.store = .empty ∧
        (w.elapse (redisSessionStore sha256 ttl) ms).resets = .empty := by
  have lapsing : Lapsing ttl w := by
    induction run with
    | refl =>
        refine ⟨?_, ?_⟩
        · rw [sessions]
          exact .empty _
        · rw [resets]
          exact .empty _
    | tail _ last ih => exact ih.step last
  refine ⟨lapsing, fun ms lifetime thirty => ⟨?_, ?_⟩⟩
  · exact lapsing.sessions.elapse_eq_empty (Nat.add_le_add_left lifetime _)
  · exact lapsing.resets.elapse_eq_empty (Nat.add_le_add_left thirty _)

end

/-- A session opened by a signup is there, and gone two weeks later. -/
theorem lapsing_run_signup :
    let signup := Operation.signup "new@acme.test" "New" "correct horse"
    let w := ((signup.service sampleStore sampleEnv sampleDraws).run (World.fresh .empty 0 staffed)).2
    w.sessions.state.store.ledger (sampleSha256 sampleTokens.1) = some ⟨"f1", "c1", false⟩ ∧
      (w.elapse sampleStore 1209600000).sessions.state.store = .empty := by
  intro signup w
  have step : Step sampleStore sampleEnv (fun _ _ => True) (World.fresh .empty 0 staffed) w :=
    .operation sampleDraws signup rfl trivial
  exact ⟨by decide +kernel, ((lapsing_run rfl rfl (.single step)).2 1209600000 (by decide) (by decide)).1⟩

end Arac.Mediation
