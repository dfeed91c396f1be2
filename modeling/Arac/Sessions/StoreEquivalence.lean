/-
# Arac.Sessions.StoreEquivalence -- the Redis store answers as the in-memory store

Both stores simulate the ideal store while a run is shorter than one refresh
lifetime, so they give the same answers.

* Redis: within one lifetime of the start no key expires.  `FamilyIndex` then says
  that burning a family removes exactly its records, and `UserIndex` that
  `revokeUser` reaches exactly the records of the user.
* In memory: by `InMemoryIndex` the set of a family lists exactly its records, and
  within one lifetime no record is found expired.
-/
import Arac.Sessions.Ideal
import Arac.Sessions.InMemoryIndex
import Arac.Sessions.ReuseDetection
import Arac.Sessions.RevokeUser

namespace Arac.Sessions

open Arac.Theory

set_option autoImplicit false

/-- Nothing was logged before the start. -/
theorem reaches_since {σ : Type} {S : SessionStore σ} {start : Clocked σ}
    {c : Machine.Config (Clocked σ) Logged} (reached : S.Reaches start c) :
    start.now ≤ c.state.now ∧ ∀ l ∈ c.log, start.now ≤ l.instant := by
  apply Machine.Reachable.invariant (P := fun c =>
    start.now ≤ c.state.now ∧ ∀ l ∈ c.log, start.now ≤ l.instant) _ _ reached
  · exact ⟨Nat.le_refl _, by simp⟩
  · intro c call _ since _
    refine ⟨?_, ?_⟩
    · have clock := step_now (S := S) c.state call
      simp only [Machine.perform, SessionStore.machine]
      omega
    · intro l member
      rcases List.mem_cons.mp member with rfl | earlier
      · exact since.1
      · exact since.2 l earlier

/-! ## Redis -/

namespace RedisSessions

section

variable {sha256 : String → String} {ttl : RefreshTtl} {start : Nat}
  {c : Machine.Config (Clocked RedisSessions) Logged}

/-- Burning a family removes its records and no others. -/
theorem burn_ledger (inj : Function.Injective sha256)
    (reached : (redisSessionStore sha256 ttl).Reaches ⟨start, .empty⟩ c) (userId familyId : String) :
    (c.state.store.burn userId familyId).ledger = c.state.store.ledger.dropFamily familyId := by
  have linear := (refinesLedger sha256 ttl).linear inj rfl reached
  have families := FamilyIndex.of_reaches inj reached
  have burned := Burned.of_burn families linear inj userId familyId
  apply Ledger.ext_some
  intro h r
  rw [Ledger.dropFamily_eq_some, ledger_eq_some, ledger_eq_some]
  constructor
  · rintro ⟨e, at_h, rfl⟩
    exact ⟨⟨e, (burn_refresh.mp at_h).2, rfl⟩,
      fun same => burned.gone h e.value (ledger_eq_some.mpr ⟨e, at_h, rfl⟩) same⟩
  · rintro ⟨⟨e, at_h, rfl⟩, other⟩
    exact ⟨e, (burned.records h e other).mpr at_h, rfl⟩

/-- Within one lifetime of the start the user's index lists every family of theirs
that has a record, so `revokeUser` removes the user's records and no others. -/
theorem revokeUser_ledger (inj : Function.Injective sha256)
    (reached : (redisSessionStore sha256 ttl).Reaches ⟨start, .empty⟩ c)
    (short : c.state.now < start + ttl.ms) (userId : String) :
    (c.state.store.revokeUser userId).ledger = c.state.store.ledger.dropUser userId := by
  have linear := (refinesLedger sha256 ttl).linear inj rfl reached
  have families := FamilyIndex.of_reaches inj reached
  have users := UserIndex.of_reaches inj reached
  apply Ledger.ext_some
  intro h r
  rw [Ledger.dropUser_eq_some, ledger_eq_some, ledger_eq_some]
  constructor
  · rintro ⟨e, at_h, rfl⟩
    obtain ⟨unlisted, old⟩ := revokeUser_refresh.mp at_h
    refine ⟨⟨e, old, rfl⟩, ?_⟩
    rintro rfl
    obtain ⟨openedAt, opened⟩ := linear.opened (ledger_eq_some.mpr ⟨e, old, rfl⟩)
    have since : start ≤ openedAt := by
      obtain ⟨token, answer, member⟩ := opened
      exact (reaches_since reached).2 _ member
    have covered : Covered ttl c.log e.value.userId openedAt c.state.now := by
      intro t after upTo
      exact ⟨openedAt, ⟨_, opened⟩, after, by omega⟩
    have listed := users.complete h e openedAt old opened covered
    exact unlisted _ listed (families.listed_self old)
  · rintro ⟨⟨e, at_h, rfl⟩, other⟩
    refine ⟨e, revokeUser_refresh.mpr ⟨?_, at_h⟩, rfl⟩
    intro f mine listed
    have same := families.family_of_listed linear inj listed at_h
    obtain ⟨instant, opened⟩ := families.owners userId f mine
    obtain ⟨instant', opened'⟩ := linear.opened (ledger_eq_some.mpr ⟨e, at_h, rfl⟩)
    rw [same] at opened'
    exact other (linear.sole f _ _ _ _ opened' opened).1

/-- Within one lifetime of the start no record expires. -/
theorem elapse_ledger_short (inj : Function.Injective sha256)
    (reached : (redisSessionStore sha256 ttl).Reaches ⟨start, .empty⟩ c) {now : Nat}
    (short : now < start + ttl.ms) :
    (c.state.store.elapse now).ledger = c.state.store.ledger := by
  have families := FamilyIndex.of_reaches inj reached
  apply Ledger.ext_some
  intro h r
  constructor
  · exact elapse_ledger
  · intro live
    obtain ⟨e, at_h, rfl⟩ := ledger_eq_some.mp live
    obtain ⟨token, instant, -, issued, deadline, -⟩ := families.deadline h e at_h
    have since : start ≤ instant := by
      obtain ⟨l, member, -, rfl⟩ := issued
      exact (reaches_since reached).2 l member
    refine ledger_eq_some.mpr ⟨e, ExpiringMap.elapse_eq_some.mpr ⟨at_h, ?_⟩, rfl⟩
    simp only [Entry.liveAt, deadline]
    have later : now < instant + ttl.ms := by omega
    simpa using later

theorem rotate_ideal (inj : Function.Injective sha256)
    (reached : (redisSessionStore sha256 ttl).Reaches ⟨start, .empty⟩ c) (now : Nat)
    (presented newToken : String) :
    Ledger.rotate sha256 ttl now presented newToken c.state.store.ledger =
      ((c.state.store.rotate sha256 ttl now presented newToken).1,
        (c.state.store.rotate sha256 ttl now presented newToken).2.ledger) := by
  cases found : c.state.store.refresh (sha256 presented) with
  | none =>
      have absent : c.state.store.ledger (sha256 presented) = none := by
        simp [ledger, ExpiringMap.get, found]
      rw [rotate_invalid found, Ledger.rotate, absent]
  | some e =>
      obtain ⟨⟨familyId, userId, used⟩, deadline⟩ := e
      have live : c.state.store.ledger (sha256 presented) = some ⟨familyId, userId, used⟩ :=
        ledger_eq_some.mpr ⟨_, found, rfl⟩
      cases used with
      | true =>
          rw [rotate_reuse found rfl, Ledger.rotate, live]
          simp only [burn_ledger inj reached]
      | false =>
          obtain ⟨hashes, eq, -⟩ := rotate_rotated sha256 ttl now newToken found rfl
          rw [eq, Ledger.rotate, live]
          refine Prod.ext rfl (Ledger.ext_some ?_)
          intro h r
          rw [Ledger.record_record_eq_some, ledger_eq_some, ledger_eq_some]
          simp only [ExpiringMap.put_put_eq_some]
          constructor
          · rintro (⟨rfl, rfl⟩ | ⟨new, rfl, rfl⟩ | ⟨new, old, e, at_h, rfl⟩)
            · exact ⟨_, Or.inl ⟨rfl, rfl⟩, rfl⟩
            · exact ⟨_, Or.inr (Or.inl ⟨new, rfl, rfl⟩), rfl⟩
            · exact ⟨e, Or.inr (Or.inr ⟨new, old, at_h⟩), rfl⟩
          · rintro ⟨e, ⟨rfl, rfl⟩ | ⟨new, rfl, rfl⟩ | ⟨new, old, at_h⟩, rfl⟩
            · exact Or.inl ⟨rfl, rfl⟩
            · exact Or.inr (Or.inl ⟨new, rfl, rfl⟩)
            · exact Or.inr (Or.inr ⟨new, old, e, at_h, rfl⟩)

end

/-- The Redis store simulates the ideal store. -/
theorem matchesIdeal {sha256 : String → String} (inj : Function.Injective sha256) (ttl : RefreshTtl)
    (start : Nat) :
    MatchesIdeal (redisSessionStore sha256 ttl) sha256 ttl ledger ⟨start, .empty⟩ where
  empty := rfl
  step c call reached _ in_time := by
    cases call with
    | createSession userId familyId token =>
        refine ⟨_, rfl, ?_⟩
        obtain ⟨hashes, families, eq, -, -⟩ := createSession_opened sha256 ttl c.state.now userId
          familyId token c.state.store
        simp only [SessionStore.step, idealSessionStore, redisSessionStore, eq]
        apply Ledger.ext_some
        intro h r
        rw [Ledger.record_eq_some, ledger_eq_some, ledger_eq_some]
        simp only [ExpiringMap.put_eq_some]
        constructor
        · rintro (⟨rfl, rfl⟩ | ⟨other, e, at_h, rfl⟩)
          · exact ⟨_, Or.inl ⟨rfl, rfl⟩, rfl⟩
          · exact ⟨e, Or.inr ⟨other, at_h⟩, rfl⟩
        · rintro ⟨e, ⟨rfl, rfl⟩ | ⟨other, at_h⟩, rfl⟩
          · exact Or.inl ⟨rfl, rfl⟩
          · exact Or.inr ⟨other, e, at_h, rfl⟩
    | rotate presented newToken =>
        have same := rotate_ideal inj reached c.state.now presented newToken
        simp only [SessionStore.step, idealSessionStore, redisSessionStore, same]
        exact ⟨_, rfl, rfl⟩
    | revoke presented =>
        refine ⟨_, rfl, ?_⟩
        simp only [SessionStore.step, idealSessionStore, redisSessionStore, Ledger.revoke]
        cases found : c.state.store.refresh (sha256 presented) with
        | none =>
            have absent : c.state.store.ledger (sha256 presented) = none := by
              simp [ledger, ExpiringMap.get, found]
            rw [revoke_none found, absent]
        | some e =>
            rw [revoke_some found, ledger_eq_some.mpr ⟨e, found, rfl⟩,
              burn_ledger inj reached]
    | revokeUser userId =>
        refine ⟨_, rfl, ?_⟩
        exact (revokeUser_ledger inj reached in_time userId).symm
    | elapse ms =>
        refine ⟨_, rfl, ?_⟩
        exact (elapse_ledger_short inj reached in_time).symm

end RedisSessions

/-! ## In memory -/

namespace InMemorySessions

theorem ledger_eq_some {m : InMemorySessions} {h : String} {r : RefreshRecord} :
    m.ledger h = some r ↔ ∃ record, m.byHash.lookup h = some record ∧
      (⟨record.familyId, record.userId, record.used⟩ : RefreshRecord) = r := by
  simp [ledger, Option.map_eq_some_iff]

section

variable {sha256 : String → String} {ttl : RefreshTtl} {start : Nat}
  {c : Machine.Config (Clocked InMemorySessions) Logged}

/-- A family set lists a record of the family and of no other. -/
theorem listed_iff (inj : Function.Injective sha256)
    (reached : (inMemorySessionStore sha256 ttl).Reaches ⟨start, .empty⟩ c) {h familyId : String}
    {record : SessionRecord} (found : c.state.store.byHash.lookup h = some record) :
    h ∈ c.state.store.hashesOf familyId ↔ record.familyId = familyId := by
  have linear := (refinesLedger sha256 ttl).linear inj rfl reached
  have index := InMemoryIndex.of_reaches reached
  constructor
  · intro listed
    obtain ⟨token, userId, instant, rfl, issued⟩ := index.members familyId h listed
    obtain ⟨token', instant', same, issued'⟩ := linear.record _ _
      (ledger_eq_some.mpr ⟨record, found, rfl⟩)
    rw [← inj same] at issued'
    exact (linear.issued_once _ _ _ _ _ _ _ issued' issued).2.1
  · rintro rfl
    exact index.listed h record found

theorem revokeFamily_ideal (inj : Function.Injective sha256)
    (reached : (inMemorySessionStore sha256 ttl).Reaches ⟨start, .empty⟩ c) (familyId : String) :
    (c.state.store.revokeFamily familyId).ledger = c.state.store.ledger.dropFamily familyId := by
  apply Ledger.ext_some
  intro h r
  rw [Ledger.dropFamily_eq_some, ledger_eq_some, ledger_eq_some]
  constructor
  · rintro ⟨record, at_h, rfl⟩
    obtain ⟨unlisted, old⟩ := revokeFamily_lookup.mp at_h
    exact ⟨⟨record, old, rfl⟩, fun same => unlisted ((listed_iff inj reached old).mpr same)⟩
  · rintro ⟨⟨record, at_h, rfl⟩, other⟩
    exact ⟨record, revokeFamily_lookup.mpr
      ⟨fun listed => other ((listed_iff inj reached at_h).mp listed), at_h⟩, rfl⟩

theorem revokeUser_ideal (inj : Function.Injective sha256)
    (reached : (inMemorySessionStore sha256 ttl).Reaches ⟨start, .empty⟩ c) (userId : String) :
    (c.state.store.revokeUser userId).ledger = c.state.store.ledger.dropUser userId := by
  have linear := (refinesLedger sha256 ttl).linear inj rfl reached
  have index := InMemoryIndex.of_reaches reached
  apply Ledger.ext_some
  intro h r
  rw [Ledger.dropUser_eq_some, ledger_eq_some, ledger_eq_some]
  constructor
  · rintro ⟨record, at_h, rfl⟩
    obtain ⟨old, other⟩ := index.toCoherent.revokeUser_lookup at_h
    exact ⟨⟨record, old, rfl⟩, other⟩
  · rintro ⟨⟨record, at_h, rfl⟩, other⟩
    refine ⟨record, ((revokeFamilies_spec _ _).1 h record).mpr ⟨?_, at_h⟩, rfl⟩
    -- a family of the user's has no record of another user
    intro f mine listed
    obtain ⟨h', record', at_h', rfl, family'⟩ := mem_familyIdsOf.mp mine
    have family := (listed_iff inj reached at_h).mp listed
    obtain ⟨i, opened⟩ := linear.opened (ledger_eq_some.mpr ⟨record, at_h, rfl⟩)
    obtain ⟨i', opened'⟩ := linear.opened (ledger_eq_some.mpr ⟨record', at_h', rfl⟩)
    simp only [family, family'] at opened opened'
    exact other (linear.sole f _ _ _ _ opened opened').1

theorem issue_ideal (m : InMemorySessions) (now : Nat) (userId familyId token : String) :
    (m.issue sha256 ttl now userId familyId token).2.ledger =
      m.ledger.record (sha256 token) ⟨familyId, userId, false⟩ := by
  apply Ledger.ext_some
  intro h r
  rw [Ledger.record_eq_some, ledger_eq_some, ledger_eq_some]
  constructor
  · rintro ⟨record, at_h, rfl⟩
    rcases issue_lookup.mp at_h with ⟨rfl, rfl⟩ | ⟨other, old⟩
    · exact Or.inl ⟨rfl, rfl⟩
    · exact Or.inr ⟨other, record, old, rfl⟩
  · rintro (⟨rfl, rfl⟩ | ⟨other, record, old, rfl⟩)
    · exact ⟨_, issue_lookup.mpr (Or.inl ⟨rfl, rfl⟩), rfl⟩
    · exact ⟨record, issue_lookup.mpr (Or.inr ⟨other, old⟩), rfl⟩

theorem retire_ideal (m : InMemorySessions) (h : String) (record : SessionRecord) :
    ({ m with byHash := m.byHash.insert h { record with used := true } } : InMemorySessions).ledger =
      m.ledger.record h ⟨record.familyId, record.userId, true⟩ := by
  funext h'
  by_cases same : h' = h
  · subst same
    simp [ledger, Ledger.record]
  · simp [ledger, Ledger.record, AList.lookup_insert_ne same, same]

theorem rotate_ideal (inj : Function.Injective sha256)
    (reached : (inMemorySessionStore sha256 ttl).Reaches ⟨start, .empty⟩ c)
    (short : c.state.now < start + ttl.ms) (presented newToken : String) :
    Ledger.rotate sha256 ttl c.state.now presented newToken c.state.store.ledger =
      ((c.state.store.rotate sha256 ttl c.state.now presented newToken).1,
        (c.state.store.rotate sha256 ttl c.state.now presented newToken).2.ledger) := by
  have index := InMemoryIndex.of_reaches reached
  cases found : c.state.store.byHash.lookup (sha256 presented) with
  | none =>
      have absent : c.state.store.ledger (sha256 presented) = none := by simp [ledger, found]
      rw [Ledger.rotate, absent]
      simp only [rotate, found]
  | some record =>
      have live : c.state.store.ledger (sha256 presented) =
          some ⟨record.familyId, record.userId, record.used⟩ :=
        ledger_eq_some.mpr ⟨record, found, rfl⟩
      rw [Ledger.rotate, live]
      simp only [rotate, found]
      cases used : record.used with
      | true =>
          simp only [if_true]
          rw [revokeFamily_ideal inj reached]
      | false =>
          have young : ¬ nowSeconds c.state.now > record.expiresAt := by
            have deadline := index.expires _ record found
            have bound : c.state.now < start + ttl.seconds * 1000 := short
            simp only [nowSeconds] at deadline ⊢
            omega
          simp only [Bool.false_eq_true, if_false, if_neg young, issue_ideal, retire_ideal]
          rfl

end

/-- The in-memory store simulates the ideal store. -/
theorem matchesIdeal {sha256 : String → String} (inj : Function.Injective sha256) (ttl : RefreshTtl)
    (start : Nat) :
    MatchesIdeal (inMemorySessionStore sha256 ttl) sha256 ttl ledger ⟨start, .empty⟩ where
  empty := rfl
  step c call reached _ in_time := by
    cases call with
    | createSession userId familyId token =>
        exact ⟨_, rfl, (issue_ideal c.state.store c.state.now userId familyId token).symm⟩
    | rotate presented newToken =>
        have same := rotate_ideal inj reached in_time presented newToken
        simp only [SessionStore.step, idealSessionStore, inMemorySessionStore, same]
        exact ⟨_, rfl, rfl⟩
    | revoke presented =>
        refine ⟨_, rfl, ?_⟩
        simp only [SessionStore.step, idealSessionStore, inMemorySessionStore, Ledger.revoke, revoke]
        cases found : c.state.store.byHash.lookup (sha256 presented) with
        | none =>
            have absent : c.state.store.ledger (sha256 presented) = none := by simp [ledger, found]
            rw [absent]
        | some record =>
            rw [ledger_eq_some.mpr ⟨record, found, rfl⟩]
            exact (revokeFamily_ideal inj reached record.familyId).symm
    | revokeUser userId => exact ⟨_, rfl, (revokeUser_ideal inj reached userId).symm⟩
    | elapse ms => exact ⟨_, rfl, rfl⟩

end InMemorySessions

/-! ## The two stores -/

/-- From the same instant, with the same clock and the same fresh draws for each
call, the two stores give the same answer at every step of a sequence of calls that
takes less than one refresh lifetime. -/
theorem same_answers {sha256 : String → String} (inj : Function.Injective sha256) (ttl : RefreshTtl)
    (start : Nat) {calls : List Call} (fresh : FreshCalls calls) (short : duration calls < ttl.ms) :
    ((redisSessionStore sha256 ttl).replay ⟨start, .empty⟩ calls).log =
      ((inMemorySessionStore sha256 ttl).replay ⟨start, .empty⟩ calls).log := by
  have redis := ((RedisSessions.matchesIdeal inj ttl start).replay fresh short).2
  have inMemory := ((InMemorySessions.matchesIdeal inj ttl start).replay fresh short).2
  rw [redis] at inMemory
  exact congrArg Machine.Config.log inMemory

/-- A login, a rotation, a replay of the rotated token, and a logout of everything. -/
theorem same_answers_replayed :
    ((redisSessionStore sampleSha256 .default).replay ⟨0, .empty⟩
      [.createSession "u1" "f1" sampleTokens.1, .elapse 1000,
        .rotate sampleTokens.1 sampleTokens.2.1, .rotate sampleTokens.1 sampleTokens.2.2,
        .revokeUser "u1"]).log =
      ((inMemorySessionStore sampleSha256 .default).replay ⟨0, .empty⟩
        [.createSession "u1" "f1" sampleTokens.1, .elapse 1000,
          .rotate sampleTokens.1 sampleTokens.2.1, .rotate sampleTokens.1 sampleTokens.2.2,
          .revokeUser "u1"]).log :=
  same_answers sampleSha256.injective .default 0 ⟨by decide, by decide⟩ (by decide)

end Arac.Sessions
