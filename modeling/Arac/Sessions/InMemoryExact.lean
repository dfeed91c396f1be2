/-
# Arac.Sessions.InMemoryExact -- the two maps of the in-memory store agree

A family set lists exactly the hashes of the family's records, in every run that mints
fresh tokens.  Family ids need not be fresh and time may pass in any amount, since
nothing here looks at a clock but the expiry test of `rotate`.

* `Exact`: the maps agree.  Issuing keeps this because the new hash is not in use,
  revoking a family because no hash is listed twice.
* `InMemoryExact.step`: every call keeps it.
* `retired_step`: the record of a retired token leaves only with its whole family
  (`BurnsFamily`), so a replay is detected until then.
* `detectsReplay_of_rotated`: the trap, however long after the rotation.
* `index_exact` collects what follows for the four operations.
-/
import Arac.Sessions.InMemoryIndex

namespace Arac.Sessions

open Arac.Theory

set_option autoImplicit false

namespace InMemorySessions

/-- Whatever a family set lists has a record of that family. -/
structure Exact (m : InMemorySessions) : Prop extends Coherent m where
  recorded : ∀ f h, h ∈ m.hashesOf f →
    ∃ record, m.byHash.lookup h = some record ∧ record.familyId = f

namespace Exact

variable {sha256 : String → String} {ttl : RefreshTtl} {m : InMemorySessions} {h f : String}
  {record : SessionRecord}

theorem mem_hashesOf (exact : Exact m) :
    h ∈ m.hashesOf f ↔ ∃ record, m.byHash.lookup h = some record ∧ record.familyId = f := by
  constructor
  · exact exact.recorded f h
  · rintro ⟨record, found, rfl⟩
    exact exact.listed h record found

/-- A record is listed in the set of its own family only. -/
theorem family_of_listed (exact : Exact m) (found : m.byHash.lookup h = some record)
    (listed : h ∈ m.hashesOf f) : record.familyId = f := by
  obtain ⟨record', found', family⟩ := exact.recorded f h listed
  rw [found] at found'
  cases found'
  exact family

theorem empty : Exact .empty where
  toCoherent := .empty
  recorded f h listed := by simp [hashesOf, InMemorySessions.empty] at listed

/-- Issuing under a hash that is not in use. -/
theorem issue (exact : Exact m) (now : Nat) (userId familyId : String) {token : String}
    (unused : m.byHash.lookup (sha256 token) = none) :
    Exact (m.issue sha256 ttl now userId familyId token).2 where
  toCoherent := exact.toCoherent.issue now userId familyId token
  recorded g h listed := by
    rcases issue_hashesOf.mp listed with old | ⟨rfl, rfl⟩
    · obtain ⟨record, found, family⟩ := exact.recorded g h old
      refine ⟨record, issue_lookup.mpr (Or.inr ⟨?_, found⟩), family⟩
      rintro rfl
      rw [unused] at found
      cases found
    · exact ⟨_, issue_lookup.mpr (Or.inl ⟨rfl, rfl⟩), rfl⟩

theorem revokeFamily (exact : Exact m) (familyId : String) : Exact (m.revokeFamily familyId) where
  toCoherent := exact.toCoherent.revokeFamily familyId
  recorded g h listed := by
    obtain ⟨other, old⟩ := revokeFamily_hashesOf.mp listed
    obtain ⟨record, found, family⟩ := exact.recorded g h old
    refine ⟨record, revokeFamily_lookup.mpr ⟨fun gone => ?_, found⟩, family⟩
    exact other (family.symm.trans (exact.family_of_listed found gone))

theorem revokeFamilies (exact : Exact m) (familyIds : List String) :
    Exact (familyIds.foldl (fun m familyId => m.revokeFamily familyId) m) := by
  induction familyIds generalizing m with
  | nil => exact exact
  | cons familyId familyIds ih => exact ih (exact.revokeFamily familyId)

/-- Removing a record that is there. -/
theorem remove (exact : Exact m) {gone : SessionRecord}
    (found : m.byHash.lookup h = some gone) : Exact (m.remove gone) where
  toCoherent := exact.toCoherent.remove gone
  recorded g h' listed := by
    obtain ⟨old, other⟩ := remove_hashesOf.mp listed
    obtain ⟨record, found', family⟩ := exact.recorded g h' old
    refine ⟨record, remove_lookup.mpr ⟨?_, found'⟩, family⟩
    rintro rfl
    rw [exact.keyed h gone found, found] at found'
    cases found'
    exact other ⟨family.symm, rfl⟩

/-- Retiring a record. -/
theorem retire (exact : Exact m) (found : m.byHash.lookup h = some record) :
    Exact (m.retire h record) where
  toCoherent := exact.toCoherent.retire found
  recorded g h' listed := by
    obtain ⟨record', found', family⟩ := exact.recorded g h' listed
    by_cases same : h' = h
    · subst same
      rw [found] at found'
      cases found'
      exact ⟨_, AList.lookup_insert _, family⟩
    · exact ⟨record', (AList.lookup_insert_ne same).trans found', family⟩

end Exact

end InMemorySessions

/-- The maps agree, and every record is that of a minted token. -/
structure InMemoryExact (sha256 : String → String) (log : Log) (m : InMemorySessions) : Prop
    extends m.Exact where
  minted : ∀ h record, m.byHash.lookup h = some record → ∃ token, h = sha256 token ∧ Minted log token

namespace InMemoryExact

open InMemorySessions

variable {sha256 : String → String} {ttl : RefreshTtl} {start : Nat} {log : Log}
  {m m' : InMemorySessions} {c c' : Machine.Config (Clocked InMemorySessions) Logged}

theorem empty (sha256 : String → String) : InMemoryExact sha256 [] .empty where
  toExact := .empty
  minted h record found := by simp [InMemorySessions.empty] at found

/-- A record under the hash of a token says that the token was minted. -/
theorem minted_of_lookup (exact : InMemoryExact sha256 log m) (inj : Function.Injective sha256)
    {token : String} {record : SessionRecord}
    (found : m.byHash.lookup (sha256 token) = some record) : Minted log token := by
  obtain ⟨token', same, minted⟩ := exact.minted _ record found
  rw [inj same]
  exact minted

/-- A fresh token has no record. -/
theorem free (exact : InMemoryExact sha256 log m) (inj : Function.Injective sha256) {token : String}
    (fresh : ¬ Minted log token) : m.byHash.lookup (sha256 token) = none := by
  cases found : m.byHash.lookup (sha256 token) with
  | none => rfl
  | some record => exact absurd (exact.minted_of_lookup inj found) fresh

/-- A call that only drops records. -/
theorem drop (exact : InMemoryExact sha256 log m) (l : Logged) (agree : m'.Exact)
    (records : ∀ h record, m'.byHash.lookup h = some record → m.byHash.lookup h = some record) :
    InMemoryExact sha256 (l :: log) m' where
  toExact := agree
  minted h record found := by
    obtain ⟨token, same, minted⟩ := exact.minted h record (records h record found)
    exact ⟨token, same, minted_cons.mpr (Or.inr minted)⟩

/-- A call that files a record under the hash of the token it minted. -/
theorem issued (exact : InMemoryExact sha256 log m) {l : Logged} {now : Nat}
    {userId familyId token : String} (unused : m.byHash.lookup (sha256 token) = none)
    (mints : l.call.mints = some token) :
    InMemoryExact sha256 (l :: log) (m.issue sha256 ttl now userId familyId token).2 where
  toExact := exact.toExact.issue now userId familyId unused
  minted h record found := by
    rcases issue_lookup.mp found with ⟨rfl, -⟩ | ⟨-, old⟩
    · exact ⟨token, rfl, minted_cons.mpr (Or.inl mints)⟩
    · obtain ⟨token', same, minted⟩ := exact.minted h record old
      exact ⟨token', same, minted_cons.mpr (Or.inr minted)⟩

theorem retire (exact : InMemoryExact sha256 log m) {h : String} {record : SessionRecord}
    (found : m.byHash.lookup h = some record) :
    InMemoryExact sha256 log (m.retire h record) where
  toExact := exact.toExact.retire found
  minted h' record' at_h := by
    unfold InMemorySessions.retire at at_h
    by_cases same : h' = h
    · subst same
      exact exact.minted h' record found
    · rw [AList.lookup_insert_ne same] at at_h
      exact exact.minted h' record' at_h

/-- Every call that mints a fresh token, or none, keeps the maps in agreement. -/
theorem step (inj : Function.Injective sha256) (exact : InMemoryExact sha256 c.log c.state.store)
    (call : Call) (fresh : FreshToken c.log call) :
    InMemoryExact sha256 ((inMemorySessionStore sha256 ttl).machine.perform c call).log
      ((inMemorySessionStore sha256 ttl).machine.perform c call).state.store := by
  have moved := effect sha256 ttl c.state call
  simp only [Machine.perform, SessionStore.machine]
  generalize (inMemorySessionStore sha256 ttl).step c.state call = result at moved ⊢
  obtain ⟨answer, now, store⟩ := result
  cases moved with
  | opens userId familyId token => exact exact.issued (exact.free inj (fresh token rfl)) rfl
  | @rotates _ newToken _ _ found unused issued =>
      have retired := exact.retire found
      exact retired.issued (l := ⟨c.state.now, .rotate _ newToken, _⟩)
        (retired.free inj (fresh newToken rfl)) rfl
  | expires found unused =>
      exact exact.drop _ (exact.toExact.remove found) fun h record found => (remove_lookup.mp found).2
  | revokes familyIds burns =>
      obtain ⟨records, -⟩ := revokeFamilies_spec familyIds c.state.store
      exact exact.drop _ (exact.toExact.revokeFamilies familyIds)
        fun h record found => ((records h record).mp found).2

theorem of_reachable (inj : Function.Injective sha256)
    (reached : (inMemorySessionStore sha256 ttl).machine.Reachable FreshToken ⟨start, .empty⟩ c) :
    InMemoryExact sha256 c.log c.state.store :=
  Machine.Reachable.invariant (P := fun c => InMemoryExact sha256 c.log c.state.store)
    (empty sha256) (fun _ call _ exact fresh => exact.step inj call fresh) reached

/-! ## Burning a family -/

/-- A call that burns a family leaves no record of it. -/
theorem noFamily_of_burns (exact : InMemoryExact sha256 c.log c.state.store) {familyId : String}
    {call : Call} (burns : BurnsFamily sha256 familyId c.state.store call) :
    ((inMemorySessionStore sha256 ttl).machine.perform c call).state.store.ledger.NoFamily
      familyId := by
  cases call with
  | createSession userId familyId token => exact burns.elim
  | rotate presented newToken =>
      obtain ⟨record, found, used, rfl⟩ := burns
      simp only [Machine.perform, SessionStore.machine, SessionStore.step, inMemorySessionStore,
        rotate_reuse found used]
      exact exact.revokeFamily_kills record.familyId
  | revoke presented =>
      obtain ⟨record, found, rfl⟩ := burns
      simp only [Machine.perform, SessionStore.machine, SessionStore.step, inMemorySessionStore,
        revoke, found]
      exact exact.revokeFamily_kills record.familyId
  | revokeUser userId =>
      obtain ⟨h, record, found, mine, rfl⟩ := burns
      intro h' r live family
      obtain ⟨record', found', rfl⟩ := Option.map_eq_some_iff.mp live
      obtain ⟨unlisted, old⟩ := ((revokeFamilies_spec _ c.state.store).1 h' record').mp found'
      have named : record.familyId ∈ c.state.store.familyIdsOf userId :=
        mem_familyIdsOf.mpr ⟨h, record, found, mine, rfl⟩
      exact unlisted _ named (exact.mem_hashesOf.mpr ⟨record', old, family⟩)
  | elapse ms => exact burns.elim

/-- The record of a retired token stays as it is while its family is not burned. -/
theorem retired_step (inj : Function.Injective sha256)
    (exact : InMemoryExact sha256 c.log c.state.store) {token : String} {record : SessionRecord}
    (found : c.state.store.byHash.lookup (sha256 token) = some record) (used : record.used = true)
    {call : Call} (fresh : FreshToken c.log call)
    (kept : ¬ BurnsFamily sha256 record.familyId c.state.store call) :
    ((inMemorySessionStore sha256 ttl).machine.perform c call).state.store.byHash.lookup
      (sha256 token) = some record := by
  have minted := exact.minted_of_lookup inj found
  have moved := effect sha256 ttl c.state call
  simp only [Machine.perform, SessionStore.machine]
  generalize (inMemorySessionStore sha256 ttl).step c.state call = result at moved ⊢
  obtain ⟨answer, now, store⟩ := result
  -- an unused record is that of another token
  have other : ∀ {presented record'}, c.state.store.byHash.lookup (sha256 presented) = some record' →
      ¬ record'.used = true → sha256 token ≠ sha256 presented := by
    intro presented record' at_presented unused same
    rw [← same, found] at at_presented
    cases at_presented
    exact unused used
  cases moved with
  | opens userId familyId newToken =>
      exact issue_lookup.mpr (Or.inr ⟨Linear.hash_ne inj minted (fresh newToken rfl), found⟩)
  | @rotates _ newToken _ _ at_presented unused issued =>
      refine issue_lookup.mpr (Or.inr ⟨Linear.hash_ne inj minted (fresh newToken rfl), ?_⟩)
      exact (AList.lookup_insert_ne (other at_presented unused)).trans found
  | @expires _ _ record' at_presented unused =>
      refine remove_lookup.mpr ⟨?_, found⟩
      rw [exact.keyed _ record' at_presented]
      exact other at_presented unused
  | revokes familyIds burns =>
      refine ((revokeFamilies_spec familyIds c.state.store).1 _ _).mpr ⟨fun f named listed => ?_, found⟩
      -- a family that lists the token is the record's own
      have family := exact.family_of_listed found listed
      exact kept (family.symm ▸ burns f named)

end InMemoryExact

/-! ## The four operations -/

section

open InMemorySessions

variable {sha256 : String → String} {ttl : RefreshTtl} {start : Nat}
  {c : Machine.Config (Clocked InMemorySessions) Logged}

/-- In every continuation the token is answered `invalid`. -/
def NeverAccepted (sha256 : String → String) (ttl : RefreshTtl)
    (c : Machine.Config (Clocked InMemorySessions) Logged) (token : String) : Prop :=
  ∀ c', (inMemorySessionStore sha256 ttl).machine.Continues FreshToken c c' → ∀ newToken,
    ((inMemorySessionStore sha256 ttl).step c'.state (.rotate token newToken)).1 =
      .rotation .invalid

/-- The call leaves no record of the chosen kind, and no token that had one is accepted
again. -/
def Expels (sha256 : String → String) (ttl : RefreshTtl)
    (c : Machine.Config (Clocked InMemorySessions) Logged) (call : Call)
    (chosen : SessionRecord → Prop) : Prop :=
  let after := (inMemorySessionStore sha256 ttl).machine.perform c call
  (∀ h record, after.state.store.byHash.lookup h = some record → ¬ chosen record) ∧
  ∀ token record, c.state.store.byHash.lookup (sha256 token) = some record → chosen record →
    NeverAccepted sha256 ttl after token

/-- In every continuation a replay of the token is answered `reuse_detected` and leaves
no record of the family, unless a call in between has burned it already. -/
def DetectsReplay (sha256 : String → String) (ttl : RefreshTtl)
    (c : Machine.Config (Clocked InMemorySessions) Logged) (token userId familyId : String) : Prop :=
  ∀ c', (inMemorySessionStore sha256 ttl).machine.Continues FreshToken c c' →
    (∀ again,
      let (answer, after) := (inMemorySessionStore sha256 ttl).step c'.state (.rotate token again)
      answer = .rotation (.reuseDetected userId familyId) ∧
        after.store.ledger.NoFamily familyId) ∨
    ∃ between call, (inMemorySessionStore sha256 ttl).machine.Continues FreshToken c between ∧
      let burned := (inMemorySessionStore sha256 ttl).machine.perform between call
      BurnsFamily sha256 familyId between.state.store call ∧
        burned.state.store.ledger.NoFamily familyId ∧
        (inMemorySessionStore sha256 ttl).machine.Continues FreshToken burned c'

theorem neverAccepted_of_gone (inj : Function.Injective sha256) {token : String}
    (minted : Minted c.log token) (gone : c.state.store.byHash.lookup (sha256 token) = none) :
    NeverAccepted sha256 ttl c token := by
  intro c' run newToken
  have absent : c.state.store.ledger (sha256 token) = none := by
    rw [InMemorySessions.ledger, gone, Option.map_none]
  have still := (refinesLedger sha256 ttl).still_gone inj (fun _ _ fresh => fresh) minted absent run
  have unknown : c'.state.store.byHash.lookup (sha256 token) = none := Option.map_eq_none_iff.mp still
  simp only [SessionStore.step, inMemorySessionStore, rotate, unknown]

/-- A call that only drops records, and those of the chosen kind, expels them. -/
theorem expels_of (inj : Function.Injective sha256)
    (exact : InMemoryExact sha256 c.log c.state.store) {call : Call} {chosen : SessionRecord → Prop}
    (drops : ∀ h record, ((inMemorySessionStore sha256 ttl).machine.perform c
      call).state.store.byHash.lookup h = some record →
        c.state.store.byHash.lookup h = some record ∧ ¬ chosen record) :
    Expels sha256 ttl c call chosen := by
  refine ⟨fun h record found => (drops h record found).2, ?_⟩
  intro token record found mine
  refine neverAccepted_of_gone inj (minted_cons.mpr (Or.inr (exact.minted_of_lookup inj found))) ?_
  cases left : ((inMemorySessionStore sha256 ttl).machine.perform c call).state.store.byHash.lookup
      (sha256 token) with
  | none => rfl
  | some record' =>
      obtain ⟨old, other⟩ := drops _ record' left
      rw [found] at old
      cases old
      exact absurd mine other

/-- The token of a rotation is a trap from then on. -/
theorem detectsReplay_of_rotated (inj : Function.Injective sha256)
    (reached : (inMemorySessionStore sha256 ttl).machine.Reachable FreshToken ⟨start, .empty⟩ c)
    {token newToken userId familyId : String} {refresh : IssuedRefreshToken}
    (fresh : ¬ Minted c.log newToken)
    (rotated : ((inMemorySessionStore sha256 ttl).step c.state (.rotate token newToken)).1 =
      .rotation (.rotated userId familyId refresh)) :
    DetectsReplay sha256 ttl
      ((inMemorySessionStore sha256 ttl).machine.perform c (.rotate token newToken)) token userId
      familyId := by
  intro c' run
  have admitted : FreshToken c.log (.rotate token newToken) := Fresh.token fresh
  have before := InMemoryExact.of_reachable inj reached
  have after := reached.perform admitted
  have exact := InMemoryExact.of_reachable inj after
  have known : Minted c.log token := by
    cases found : c.state.store.byHash.lookup (sha256 token) with
    | some record => exact before.minted_of_lookup inj found
    | none =>
        simp only [SessionStore.step, inMemorySessionStore, rotate, found] at rotated
        cases rotated
  obtain ⟨record, found, used, rfl, rfl⟩ :=
    rotate_rotated (Answer.rotation.inj rotated) (Linear.hash_ne inj known fresh)
  -- the retired record stays until its family is burned
  have kept := Machine.Continues.preserves_unless
    (P := fun c => InMemoryExact sha256 c.log c.state.store ∧
      c.state.store.byHash.lookup (sha256 token) = some record)
    (fun c call => BurnsFamily sha256 record.familyId c.state.store call)
    (fun c call holds fresh kept => ⟨holds.1.step inj call fresh,
      holds.1.retired_step inj holds.2 used fresh kept⟩) run ⟨exact, found⟩
  rcases kept with ⟨later, there⟩ | ⟨between, call, first, -, burns, rest⟩
  · refine Or.inl fun again => ?_
    simp only [SessionStore.step, inMemorySessionStore, rotate_reuse there used]
    exact ⟨trivial, later.revokeFamily_kills record.familyId⟩
  · have there := InMemoryExact.of_reachable inj (after.continues first)
    exact Or.inr ⟨between, call, first, burns, there.noFamily_of_burns burns, rest⟩

/-- In every run with fresh tokens: the family sets list exactly the records of the
families; a logout with a known token expels its family, and `revokeUser` the user's
records; a rotated token is detected whenever it is replayed; and an expired token costs
its own record only. -/
theorem index_exact (inj : Function.Injective sha256)
    (reached : (inMemorySessionStore sha256 ttl).machine.Reachable FreshToken ⟨start, .empty⟩ c) :
    (∀ familyId h, (∃ record, c.state.store.byHash.lookup h = some record ∧
      record.familyId = familyId) ↔ h ∈ c.state.store.hashesOf familyId) ∧
    (∀ token record, c.state.store.byHash.lookup (sha256 token) = some record →
      Expels sha256 ttl c (.revoke token) fun r => r.familyId = record.familyId) ∧
    (∀ userId, Expels sha256 ttl c (.revokeUser userId) fun r => r.userId = userId) ∧
    (∀ token newToken userId familyId refresh, ¬ Minted c.log newToken →
      ((inMemorySessionStore sha256 ttl).step c.state (.rotate token newToken)).1 =
        .rotation (.rotated userId familyId refresh) →
      DetectsReplay sha256 ttl
        ((inMemorySessionStore sha256 ttl).machine.perform c (.rotate token newToken)) token userId
        familyId) ∧
    (∀ token newToken record, c.state.store.byHash.lookup (sha256 token) = some record →
      record.used = false → nowSeconds c.state.now > record.expiresAt →
      let (answer, after) := (inMemorySessionStore sha256 ttl).step c.state (.rotate token newToken)
      answer = .rotation .expired ∧ ∀ h, after.store.byHash.lookup h =
        if h = sha256 token then none else c.state.store.byHash.lookup h) := by
  have exact := InMemoryExact.of_reachable inj reached
  refine ⟨fun familyId h => exact.mem_hashesOf.symm, fun token record found => ?_, fun userId => ?_,
    ?_, ?_⟩
  · refine expels_of inj exact fun h record' left => ?_
    simp only [Machine.perform, SessionStore.machine, SessionStore.step, inMemorySessionStore, revoke,
      found] at left
    obtain ⟨unlisted, old⟩ := revokeFamily_lookup.mp left
    exact ⟨old, fun same => unlisted (same ▸ exact.listed h record' old)⟩
  · exact expels_of inj exact fun h record left => exact.revokeUser_lookup left
  · intro token newToken userId familyId refresh fresh rotated
    exact detectsReplay_of_rotated inj reached fresh rotated
  · intro token newToken record found unused late
    simp only [SessionStore.step, inMemorySessionStore, rotate, found, unused, if_pos late,
      Bool.false_eq_true, if_false, true_and]
    intro h
    have hash : record.tokenHash = sha256 token := exact.keyed _ record found
    simp only [remove, hash]
    split
    · rename_i same
      rw [same, AList.lookup_erase]
    · rename_i other
      exact AList.lookup_erase_ne other

/-- A login and a rotation. -/
def rotatedInMemory : Machine.Config (Clocked InMemorySessions) Logged :=
  [.createSession "u1" "f1" sampleTokens.1, .rotate sampleTokens.1 sampleTokens.2.1].foldl
    (inMemorySessionStore sampleSha256 .default).machine.perform ⟨[], ⟨0, .empty⟩⟩

theorem rotatedInMemory_reached : (inMemorySessionStore sampleSha256 .default).machine.Reachable
    FreshToken ⟨0, .empty⟩ rotatedInMemory := by
  refine (Machine.Reachable.start.perform ?_).perform ?_
  · simp [FreshToken, Call.mints]
  · simp [FreshToken, Call.mints, sampleTokens]

/-- Logging out with the first token, although it has been rotated out, ends the family. -/
theorem index_exact_rotatedInMemory :
    sampleSha256 sampleTokens.2.1 ∈ rotatedInMemory.state.store.hashesOf "f1" ∧
      NeverAccepted sampleSha256 .default
        ((inMemorySessionStore sampleSha256 .default).machine.perform rotatedInMemory
          (.revoke sampleTokens.1)) sampleTokens.2.1 := by
  obtain ⟨agree, revoked, -, -, -⟩ := index_exact sampleSha256.injective rotatedInMemory_reached
  have first : rotatedInMemory.state.store.byHash.lookup (sampleSha256 sampleTokens.1) =
      some ⟨sampleSha256 sampleTokens.1, "f1", "u1", 1209600, true⟩ := by decide +kernel
  have second : rotatedInMemory.state.store.byHash.lookup (sampleSha256 sampleTokens.2.1) =
      some ⟨sampleSha256 sampleTokens.2.1, "f1", "u1", 1209600, false⟩ := by decide +kernel
  exact ⟨(agree _ _).mp ⟨_, second, rfl⟩, (revoked _ _ first).2 _ _ second rfl⟩

end

end Arac.Sessions
