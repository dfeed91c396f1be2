/-
# Arac.Sessions.ReuseDetection -- the theft tripwire and what it burns

Presenting a token that was rotated out, before its record expires, must answer
`reuse_detected` and end the family for good.

* `FamilyIndex.lapsed` leaves only one way for the record of an unexpired token to
  be missing, a revocation that emptied the family; a record that is there is marked
  used by `Linear.spent`, so `rotate` takes the reuse branch.
* That branch and `revoke` burn one family (`Burned`): its records and its set are
  gone, the records and sets of every other family are untouched.
* A family without records is never rotated again, by
  `RefinesLedger.never_rotated_family`.
-/
import Arac.Sessions.FamilyIndex

namespace Arac.Sessions

open Arac.Theory

set_option autoImplicit false

/-- Some call of the run revoked the family and left no record of it. -/
def FamilyRevoked (ttl : RefreshTtl) (c : Machine.Config (Clocked RedisSessions) Logged)
    (familyId : String) : Prop :=
  Revoked ttl familyId c.log ∧ c.state.store.ledger.NoFamily familyId

/-- The call answers `reuse_detected` for the family, or is a logout with a token of
the family whose record has not expired. -/
def EndsFamily (sha256 : String → String) (ttl : RefreshTtl)
    (c : Machine.Config (Clocked RedisSessions) Logged) (familyId : String) (call : Call) : Prop :=
  (∃ userId, ((redisSessionStore sha256 ttl).step c.state call).1 =
    .rotation (.reuseDetected userId familyId)) ∨
  ∃ token, call = .revoke token ∧ Unexpired ttl c.log token familyId c.state.now

/-- Every record of the family is gone and nothing of another family has changed. -/
structure Burned (familyId : String) (before after : RedisSessions) : Prop where
  gone : after.ledger.NoFamily familyId
  records : ∀ h e, e.value.familyId ≠ familyId → (after.refresh h = some e ↔ before.refresh h = some e)
  sets : ∀ f, f ≠ familyId → after.family f = before.family f

section

variable {sha256 : String → String} {ttl : RefreshTtl} {start : Nat}
  {c : Machine.Config (Clocked RedisSessions) Logged} {db : RedisSessions} {familyId : String}

theorem Burned.of_burn (families : FamilyIndex sha256 ttl c.log c.state.now db)
    (linear : Linear sha256 c.log db.ledger) (inj : Function.Injective sha256) (userId familyId : String) :
    Burned familyId db (db.burn userId familyId) where
  gone := by
    intro h r live
    rintro rfl
    obtain ⟨e, at_h, rfl⟩ := RedisSessions.ledger_eq_some.mp live
    obtain ⟨unlisted, old⟩ := RedisSessions.burn_refresh.mp at_h
    exact unlisted (families.listed_self old)
  records h e other := by
    rw [RedisSessions.burn_refresh]
    constructor
    · exact And.right
    · intro found
      exact ⟨fun listed => other (families.family_of_listed linear inj listed found), found⟩
  sets f ne := ExpiringMap.del_ne ne

/-- A rotated-out token whose record has not expired springs the trap. -/
theorem rotate_reuse_of_rotatedOut
    (families : FamilyIndex sha256 ttl c.log c.state.now c.state.store)
    (linear : Linear sha256 c.log c.state.store.ledger) (inj : Function.Injective sha256)
    {token userId : String} {instant : Nat} (issued : Issued c.log token userId familyId instant)
    (rotatedOut : RotatedOut c.log token) (unexpired : c.state.now < instant + ttl.ms)
    (kept : ¬ FamilyRevoked ttl c familyId) (newToken : String) :
    (c.state.store.rotate sha256 ttl c.state.now token newToken).1 =
      .reuseDetected userId familyId := by
  cases found : c.state.store.refresh (sha256 token) with
  | none => exact absurd (families.lapsed _ _ _ _ issued unexpired found) kept
  | some e =>
      have live := RedisSessions.ledger_eq_some.mpr ⟨e, found, rfl⟩
      have used := (linear.spent token rotatedOut).2 _ live
      obtain ⟨token', instant', same, issued', -, -⟩ := families.deadline _ e found
      rw [← inj same] at issued'
      obtain ⟨owner, family, -⟩ := linear.issued_once _ _ _ _ _ _ _ issued' issued
      rw [RedisSessions.rotate_reuse found used, owner, family]

/-- A `reuse_detected` answer burns the family it names. -/
theorem burned_of_reuse (families : FamilyIndex sha256 ttl c.log c.state.now c.state.store)
    (linear : Linear sha256 c.log c.state.store.ledger) (inj : Function.Injective sha256)
    {presented newToken userId : String}
    (reuse : (c.state.store.rotate sha256 ttl c.state.now presented newToken).1 =
      .reuseDetected userId familyId) :
    (∃ openedAt, Opened c.log userId familyId openedAt) ∧
      Burned familyId c.state.store
        (c.state.store.rotate sha256 ttl c.state.now presented newToken).2 := by
  cases found : c.state.store.refresh (sha256 presented) with
  | none =>
      rw [RedisSessions.rotate_invalid found] at reuse
      cases reuse
  | some e =>
      by_cases used : e.value.used = true
      · rw [RedisSessions.rotate_reuse found used] at reuse ⊢
        cases reuse
        exact ⟨linear.opened (RedisSessions.ledger_eq_some.mpr ⟨e, found, rfl⟩),
          .of_burn families linear inj _ _⟩
      · have unused : e.value.used = false := by simpa using used
        obtain ⟨_, eq, -⟩ := RedisSessions.rotate_rotated sha256 ttl c.state.now newToken found unused
        rw [eq] at reuse
        cases reuse

/-- A logout with an unexpired token of the family burns it, or finds it burned. -/
theorem burned_of_revoke (families : FamilyIndex sha256 ttl c.log c.state.now c.state.store)
    (linear : Linear sha256 c.log c.state.store.ledger) (inj : Function.Injective sha256)
    {token : String} (unexpired : Unexpired ttl c.log token familyId c.state.now) :
    (∃ userId openedAt, Opened c.log userId familyId openedAt) ∧
      Burned familyId c.state.store (c.state.store.revoke sha256 token) := by
  obtain ⟨userId, instant, issued, live⟩ := unexpired
  refine ⟨⟨userId, (linear.issued _ _ _ _ issued).2⟩, ?_⟩
  cases found : c.state.store.refresh (sha256 token) with
  | none =>
      rw [RedisSessions.revoke_none found]
      exact ⟨(families.lapsed _ _ _ _ issued live found).2, fun _ _ _ => Iff.rfl, fun _ _ => rfl⟩
  | some e =>
      rw [RedisSessions.revoke_some found]
      obtain ⟨token', instant', same, issued', -, -⟩ := families.deadline _ e found
      rw [← inj same] at issued'
      obtain ⟨-, family, -⟩ := linear.issued_once _ _ _ _ _ _ _ issued' issued
      rw [family]
      exact .of_burn families linear inj _ _

theorem EndsFamily.burned (families : FamilyIndex sha256 ttl c.log c.state.now c.state.store)
    (linear : Linear sha256 c.log c.state.store.ledger) (inj : Function.Injective sha256)
    {call : Call} (ends : EndsFamily sha256 ttl c familyId call) :
    (∃ userId openedAt, Opened c.log userId familyId openedAt) ∧
      Burned familyId c.state.store
        ((redisSessionStore sha256 ttl).machine.perform c call).state.store := by
  rcases ends with ⟨userId, answer⟩ | ⟨token, rfl, unexpired⟩
  · cases call with
    | rotate presented newToken =>
        have reuse : (c.state.store.rotate sha256 ttl c.state.now presented newToken).1 =
            .reuseDetected userId familyId := Answer.rotation.inj answer
        obtain ⟨opened, burned⟩ := burned_of_reuse families linear inj reuse
        exact ⟨⟨userId, opened⟩, burned⟩
    | createSession _ _ _ => cases answer
    | revoke _ => cases answer
    | revokeUser _ => cases answer
    | elapse _ => cases answer
  · exact burned_of_revoke families linear inj unexpired

/-- The tripwire.  In every run: an unexpired rotated-out token of a family that was
not revoked answers `reuse_detected` with the family and its owner; a call that
answers so, or logs out with an unexpired token of the family, leaves every other
family alone, and no continuation rotates the family again. -/
theorem reuse_tripwire (inj : Function.Injective sha256)
    (reached : (redisSessionStore sha256 ttl).Reaches ⟨start, .empty⟩ c) (familyId : String) :
    (∀ token userId instant newToken, Issued c.log token userId familyId instant →
      RotatedOut c.log token → c.state.now < instant + ttl.ms → ¬ FamilyRevoked ttl c familyId →
        (∃ openedAt, Opened c.log userId familyId openedAt) ∧
          ((redisSessionStore sha256 ttl).step c.state (.rotate token newToken)).1 =
            .rotation (.reuseDetected userId familyId)) ∧
    ∀ call, Fresh c.log call → EndsFamily sha256 ttl c familyId call →
      let after := (redisSessionStore sha256 ttl).machine.perform c call
      (∀ c', (redisSessionStore sha256 ttl).machine.Continues Fresh after c' →
        ∀ presented newToken userId refresh,
          ((redisSessionStore sha256 ttl).step c'.state (.rotate presented newToken)).1 ≠
            .rotation (.rotated userId familyId refresh)) ∧
      (∀ h e, e.value.familyId ≠ familyId →
        (after.state.store.refresh h = some e ↔ c.state.store.refresh h = some e)) ∧
      ∀ f, f ≠ familyId → after.state.store.family f = c.state.store.family f := by
  have refines := RedisSessions.refinesLedger sha256 ttl
  have linear := refines.linear inj rfl reached
  have families := FamilyIndex.of_reaches inj reached
  constructor
  · intro token userId instant newToken issued rotatedOut unexpired kept
    refine ⟨(linear.issued _ _ _ _ issued).2, congrArg Answer.rotation ?_⟩
    exact rotate_reuse_of_rotatedOut families linear inj issued rotatedOut unexpired kept newToken
  · intro call fresh ends
    obtain ⟨⟨userId, openedAt, opened⟩, burned⟩ := ends.burned families linear inj
    refine ⟨fun c' run presented newToken userId refresh => ?_, burned.records, burned.sets⟩
    exact refines.never_rotated_family opened.cons burned.gone run

end

section

/-- Replaying the first token afterwards is detected. -/
theorem reuse_tripwire_replayed :
    (sampleStore.step rotatedOnce.state (.rotate sampleTokens.1 sampleTokens.2.2)).1 =
      .rotation (.reuseDetected "u1" "f1") := by
  have kept : ¬ FamilyRevoked .default rotatedOnce "f1" := fun revoked =>
    revoked.2 (sampleSha256 sampleTokens.2.1) ⟨"f1", "u1", false⟩ (by decide) rfl
  have issued : Issued rotatedOnce.log sampleTokens.1 "u1" "f1" 0 :=
    issued_cons.mpr (Or.inr (issued_cons.mpr (Or.inl ⟨rfl, rfl⟩)))
  have rotatedOut : RotatedOut rotatedOnce.log sampleTokens.1 :=
    rotatedOut_cons.mpr (Or.inl (by decide))
  exact ((reuse_tripwire sampleSha256.injective rotatedOnce_reached "f1").1 _ _ _ _ issued rotatedOut
    (by decide) kept).2

end

end Arac.Sessions
