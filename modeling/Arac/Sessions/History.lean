/-
# Arac.Sessions.History -- the log decides what a refresh answers

What a presented refresh token is answered can be read off the calls made so far and the
clock, without looking at the store (`Verdict`).  For the Redis store the token must have
been handed out less than one lifetime ago and its family must not have ended; it is then
rotated if it never was before, and reported as reused if it was.  Everything else is
answered `invalid`, and `expired` is never answered.

A family ends with a `reuse_detected` answer, with a `revoke` of an unexpired token of it,
or with a `revokeUser` that comes while the user's logins still cover it (`Ends`).  `Told`
is the invariant: an unexpired token of a family that has not ended has a record, its flag
says whether it was rotated out, and a family that has ended has no record.  `Effect` says
once what a call does to the records.
-/
import Arac.Sessions.ReuseDetection
import Arac.Sessions.RevokeUser

namespace Arac.Sessions

open Arac.Theory

set_option autoImplicit false

/-! ## Reading the answer off a log -/

/-- The logged call took away the records of the family. -/
def Ends (ttl : RefreshTtl) (earlier : Log) (familyId : String) (l : Logged) : Prop :=
  (∃ userId, l.answer = .rotation (.reuseDetected userId familyId)) ∨
  (∃ token, l.call = .revoke token ∧ Unexpired ttl earlier token familyId l.instant) ∨
  ∃ userId openedAt, l.call = .revokeUser userId ∧ Opened earlier userId familyId openedAt ∧
    Covered ttl earlier userId openedAt l.instant

/-- Some call of the run took away the records of the family. -/
def Ended (ttl : RefreshTtl) (familyId : String) : Log → Prop
  | [] => False
  | l :: earlier => Ends ttl earlier familyId l ∨ Ended ttl familyId earlier

/-- The token was handed out to the user less than one lifetime ago, in a family that has
not ended. -/
def Stands (ttl : RefreshTtl) (log : Log) (now : Nat) (token userId familyId : String) : Prop :=
  ∃ instant, Issued log token userId familyId instant ∧ now < instant + ttl.ms ∧
    ¬ Ended ttl familyId log

/-- What a presented token is answered, when it stands for at most one user and family,
may have outlived its time, and may have been rotated out before. -/
inductive Verdict (stands : String → String → Prop) (lapsed again : Prop)
    (successor : String → IssuedRefreshToken) : RotationResult → Prop
  | rotated {userId familyId : String} (stood : stands userId familyId) (first : ¬ again)
      (lasts : ¬ lapsed) :
      Verdict stands lapsed again successor (.rotated userId familyId (successor familyId))
  | expired {userId familyId : String} (stood : stands userId familyId) (first : ¬ again)
      (late : lapsed) : Verdict stands lapsed again successor .expired
  | reuse {userId familyId : String} (stood : stands userId familyId) (used : again) :
      Verdict stands lapsed again successor (.reuseDetected userId familyId)
  | invalid (fallen : ∀ userId familyId, ¬ stands userId familyId) :
      Verdict stands lapsed again successor .invalid

/-- There is one verdict. -/
theorem Verdict.unique {stands : String → String → Prop} {lapsed again : Prop}
    {successor : String → IssuedRefreshToken}
    (sole : ∀ userId familyId userId' familyId', stands userId familyId → stands userId' familyId' →
      userId = userId' ∧ familyId = familyId') {one two : RotationResult}
    (first : Verdict stands lapsed again successor one)
    (second : Verdict stands lapsed again successor two) : one = two := by
  cases first with
  | rotated stood first lasts =>
      cases second with
      | rotated stood' _ _ =>
          obtain ⟨rfl, rfl⟩ := sole _ _ _ _ stood stood'
          rfl
      | expired _ _ late => exact absurd late lasts
      | reuse _ used => exact absurd used first
      | invalid fallen => exact absurd stood (fallen _ _)
  | expired stood first late =>
      cases second with
      | rotated _ _ lasts => exact absurd late lasts
      | expired _ _ _ => rfl
      | reuse _ used => exact absurd used first
      | invalid fallen => exact absurd stood (fallen _ _)
  | reuse stood used =>
      cases second with
      | rotated _ first _ => exact absurd used first
      | expired _ first _ => exact absurd used first
      | reuse stood' _ =>
          obtain ⟨rfl, rfl⟩ := sole _ _ _ _ stood stood'
          rfl
      | invalid fallen => exact absurd stood (fallen _ _)
  | invalid fallen =>
      cases second with
      | rotated stood _ _ => exact absurd stood (fallen _ _)
      | expired stood _ _ => exact absurd stood (fallen _ _)
      | reuse stood _ => exact absurd stood (fallen _ _)
      | invalid _ => rfl

/-- What the log says a presented token is answered.  A token that stands has not outlived
its time. -/
def Decides (ttl : RefreshTtl) (log : Log) (now : Nat) (token newToken : String) :
    RotationResult → Prop :=
  Verdict (Stands ttl log now token) False (RotatedOut log token)
    fun familyId => ⟨newToken, familyId, nowSeconds now + ttl.seconds⟩

/-! ## What one call does to the records -/

namespace RedisSessions

/-- The call takes away the family: it answers `reuse_detected` for it, presents a token
whose record is in it, or names the user whose index lists it. -/
def Takes (sha256 : String → String) (db : RedisSessions) (call : Call) (answer : Answer)
    (familyId : String) : Prop :=
  (∃ userId, answer = .rotation (.reuseDetected userId familyId)) ∨
  (∃ token e, call = .revoke token ∧ db.refresh (sha256 token) = some e ∧
    e.value.familyId = familyId) ∨
  ∃ userId, call = .revokeUser userId ∧ familyId ∈ db.userfam.smembers userId

/-- What a call answers, and what it leaves of the records. -/
inductive Effect (sha256 : String → String) (ttl : RefreshTtl) (now : Nat) (db : RedisSessions) :
    Call → Answer → Clocked RedisSessions → Prop
  | opens {userId familyId token : String} {refresh : IssuedRefreshToken} {after : RedisSessions}
      (issued : refresh.token = token)
      (records : after.refresh =
        db.refresh.put (sha256 token) ⟨⟨familyId, userId, false⟩, some (now + ttl.ms)⟩) :
      Effect sha256 ttl now db (.createSession userId familyId token) (.issued refresh) ⟨now, after⟩
  | rotates {presented newToken : String} {e : Entry RefreshRecord} {after : RedisSessions}
      (found : db.refresh (sha256 presented) = some e) (unused : e.value.used = false)
      (records : after.refresh =
        (db.refresh.put (sha256 presented) ⟨⟨e.value.familyId, e.value.userId, true⟩,
          e.deadline⟩).put (sha256 newToken)
          ⟨⟨e.value.familyId, e.value.userId, false⟩, some (now + ttl.ms)⟩) :
      Effect sha256 ttl now db (.rotate presented newToken)
        (.rotation (.rotated e.value.userId e.value.familyId
          ⟨newToken, e.value.familyId, nowSeconds now + ttl.seconds⟩)) ⟨now, after⟩
  | removes {call : Call} {answer : Answer} {after : RedisSessions} (removed : List String)
      (silent : ∀ instant, (⟨instant, call, answer⟩ : Logged).hands = none)
      (taken : ∀ f, f ∈ removed ↔ Takes sha256 db call answer f)
      (records : ∀ h e, after.refresh h = some e ↔
        (∀ f ∈ removed, h ∉ db.family.smembers f) ∧ db.refresh h = some e) :
      Effect sha256 ttl now db call answer ⟨now, after⟩
  | elapses (ms : Nat) : Effect sha256 ttl now db (.elapse ms) .done ⟨now + ms, db.elapse (now + ms)⟩

theorem effect (sha256 : String → String) (ttl : RefreshTtl) (c : Clocked RedisSessions)
    (call : Call) :
    Effect sha256 ttl c.now c.store call ((redisSessionStore sha256 ttl).step c call).1
      ((redisSessionStore sha256 ttl).step c call).2 := by
  cases call with
  | createSession userId familyId token =>
      exact .opens rfl (ExpiringMap.hset_expireAt _ _ _ _)
  | rotate presented newToken =>
      have moved := rotate_effect sha256 ttl c.now presented newToken c.store
      simp only [SessionStore.step, redisSessionStore]
      generalize c.store.rotate sha256 ttl c.now presented newToken = result at moved ⊢
      cases moved with
      | invalid absent =>
          refine .removes [] (fun _ => rfl) (fun f => ?_) (by simp)
          simp [Takes]
      | @reuse e found used =>
          refine .removes [e.value.familyId] (fun _ => rfl) (fun f => ?_) fun h e => ?_
          · simp [Takes, eq_comm]
          · rw [burn_refresh]
            simp
      | rotated found unused hashes inHashes => exact .rotates found unused rfl
  | revoke presented =>
      simp only [SessionStore.step, redisSessionStore]
      cases found : c.store.refresh (sha256 presented) with
      | none =>
          rw [revoke_none found]
          refine .removes [] (fun _ => rfl) (fun f => ?_) (by simp)
          simp [Takes, found]
      | some e =>
          rw [revoke_some found]
          refine .removes [e.value.familyId] (fun _ => rfl) (fun f => ?_) fun h e => ?_
          · simp [Takes, found, eq_comm]
          · rw [burn_refresh]
            simp
  | revokeUser userId =>
      refine .removes (c.store.userfam.smembers userId) (fun _ => rfl) (fun f => ?_)
        fun h e => revokeUser_refresh
      simp [Takes, SessionStore.step]
  | elapse ms => exact .elapses ms

end RedisSessions

/-! ## What the log tells about the records -/

structure Told (sha256 : String → String) (ttl : RefreshTtl) (log : Log) (now : Nat)
    (db : RedisSessions) : Prop where
  /-- Only a token that was rotated out has a used record. -/
  used : ∀ token e, db.refresh (sha256 token) = some e → e.value.used = true → RotatedOut log token
  /-- An unexpired token has its record until its family ends. -/
  kept : ∀ token userId f, Stands ttl log now token userId f → db.refresh (sha256 token) ≠ none
  /-- A family that ended was opened and has no record. -/
  ended : ∀ f, Ended ttl f log →
    (∃ userId openedAt, Opened log userId f openedAt) ∧ db.ledger.NoFamily f

namespace Told

variable {sha256 : String → String} {ttl : RefreshTtl} {start : Nat}
  {c : Machine.Config (Clocked RedisSessions) Logged}

theorem empty (sha256 : String → String) (ttl : RefreshTtl) (now : Nat) :
    Told sha256 ttl [] now .empty where
  used := by simp [RedisSessions.empty, ExpiringMap.empty]
  kept := by simp [Stands]
  ended := by simp [Ended]

/-- A used record after a call is that of a token rotated out before or by the call. -/
theorem used_step (inj : Function.Injective sha256)
    (told : Told sha256 ttl c.log c.state.now c.state.store) (call : Call) :
    let after := (redisSessionStore sha256 ttl).machine.perform c call
    ∀ token e, after.state.store.refresh (sha256 token) = some e → e.value.used = true →
      RotatedOut after.log token := by
  intro after token e found used
  apply rotatedOut_cons.mpr
  have moved := RedisSessions.effect sha256 ttl c.state call
  simp only [after, Machine.perform, SessionStore.machine] at found ⊢
  generalize (redisSessionStore sha256 ttl).step c.state call = result at moved found ⊢
  obtain ⟨answer, later⟩ := result
  cases moved with
  | opens issued records =>
      rw [records] at found
      rcases ExpiringMap.put_eq_some.mp found with ⟨-, rfl⟩ | ⟨-, old⟩
      · cases used
      · exact Or.inr (told.used token e old used)
  | rotates known unused records =>
      rw [records] at found
      rcases ExpiringMap.put_put_eq_some.mp found with ⟨-, rfl⟩ | ⟨-, same, -⟩ | ⟨-, -, old⟩
      · cases used
      · exact Or.inl (by simp [Logged.rotates, inj same])
      · exact Or.inr (told.used token e old used)
  | removes removed silent taken records =>
      exact Or.inr (told.used token e ((records _ e).mp found).2 used)
  | elapses ms => exact Or.inr (told.used token e (ExpiringMap.elapse_eq_some.mp found).1 used)

/-- The record of a standing token is of its family and expires one lifetime after the
token was handed out. -/
theorem record_of_stands (inj : Function.Injective sha256)
    (families : FamilyIndex sha256 ttl c.log c.state.now c.state.store)
    (linear : Linear sha256 c.log c.state.store.ledger) {token userId familyId : String}
    {instant : Nat} (issued : Issued c.log token userId familyId instant)
    {e : Entry RefreshRecord} (found : c.state.store.refresh (sha256 token) = some e) :
    e.value.userId = userId ∧ e.value.familyId = familyId ∧ e.deadline = some (instant + ttl.ms) := by
  obtain ⟨token', instant', same, issued', deadline, -⟩ := families.deadline _ e found
  rw [← inj same] at issued'
  obtain ⟨owner, family, rfl⟩ := linear.issued_once _ _ _ _ _ _ _ issued' issued
  exact ⟨owner, family, deadline⟩

/-- A call takes away a family with records only if it ends the family. -/
theorem ends_of_takes (inj : Function.Injective sha256)
    (families : FamilyIndex sha256 ttl c.log c.state.now c.state.store)
    (users : UserIndex ttl c.log c.state.now c.state.store) {call : Call} {answer : Answer}
    {familyId : String} (takes : RedisSessions.Takes sha256 c.state.store call answer familyId) :
    Ends ttl c.log familyId ⟨c.state.now, call, answer⟩ := by
  rcases takes with reuse | ⟨token, e, revoke, found, rfl⟩ | ⟨userId, revokeUser, listed⟩
  · exact Or.inl reuse
  · obtain ⟨token', instant, same, issued, -, live⟩ := families.deadline _ e found
    rw [← inj same] at issued
    exact Or.inr (Or.inl ⟨token, revoke, _, instant, issued, live⟩)
  · obtain ⟨openedAt, opened⟩ := families.owners userId familyId listed
    exact Or.inr (Or.inr ⟨userId, openedAt, revokeUser, opened,
      users.covered userId familyId openedAt listed opened⟩)

/-- A token that stands after a call stood before it, or the call handed it out. -/
theorem stands_cons {l : Logged} {now : Nat} {token userId familyId : String}
    (earlier : c.state.now ≤ now)
    (stands : Stands ttl (l :: c.log) now token userId familyId) :
    ¬ Ends ttl c.log familyId l ∧ (Stands ttl c.log c.state.now token userId familyId ∨
      l.hands = some (token, userId, familyId)) := by
  obtain ⟨instant, issued, unexpired, standing⟩ := stands
  refine ⟨fun ends => standing (Or.inl ends), ?_⟩
  rcases issued_cons.mp issued with ⟨here, -⟩ | issued
  · exact Or.inr here
  · exact Or.inl ⟨instant, issued, Nat.lt_of_le_of_lt earlier unexpired,
      fun ended => standing (Or.inr ended)⟩

/-- A token that stands after a call has a record. -/
theorem kept_step (inj : Function.Injective sha256)
    (families : FamilyIndex sha256 ttl c.log c.state.now c.state.store)
    (users : UserIndex ttl c.log c.state.now c.state.store)
    (linear : Linear sha256 c.log c.state.store.ledger)
    (told : Told sha256 ttl c.log c.state.now c.state.store) (call : Call) :
    let after := (redisSessionStore sha256 ttl).machine.perform c call
    ∀ token userId f, Stands ttl after.log after.state.now token userId f →
      after.state.store.refresh (sha256 token) ≠ none := by
  intro after token userId f stands gone
  have moved := RedisSessions.effect sha256 ttl c.state call
  simp only [after, Machine.perform, SessionStore.machine] at stands gone
  generalize (redisSessionStore sha256 ttl).step c.state call = result at moved stands gone
  obtain ⟨answer, later⟩ := result
  dsimp only at stands gone
  cases moved with
  | opens issued records =>
      rw [records] at gone
      obtain ⟨other, gone⟩ := ExpiringMap.put_eq_none.mp gone
      obtain ⟨-, before | here⟩ := stands_cons (Nat.le_refl _) stands
      · exact told.kept token userId f before gone
      · cases here
        exact other (congrArg sha256 issued)
  | rotates known unused records =>
      rw [records] at gone
      obtain ⟨other, gone⟩ := ExpiringMap.put_eq_none.mp gone
      obtain ⟨-, before | here⟩ := stands_cons (Nat.le_refl _) stands
      · exact told.kept token userId f before (ExpiringMap.put_eq_none.mp gone).2
      · cases here
        exact other rfl
  | removes removed silent taken records =>
      obtain ⟨spared, before | here⟩ := stands_cons (Nat.le_refl _) stands
      · obtain ⟨e, found⟩ := Option.ne_none_iff_exists'.mp (told.kept token userId f before)
        obtain ⟨instant, issued, -⟩ := before
        obtain ⟨-, family, -⟩ := record_of_stands inj families linear issued found
        rw [(records _ e).mpr ⟨fun g inRemoved listed => spared ?_, found⟩] at gone
        · cases gone
        · -- a hash that a removed set lists has its record in that family
          have same := families.family_of_listed linear inj listed found
          rw [← family, same]
          exact ends_of_takes inj families users ((taken g).mp inRemoved)
      · rw [silent] at here
        cases here
  | elapses ms =>
      obtain ⟨-, before | here⟩ := stands_cons (Nat.le_add_right _ _) stands
      · obtain ⟨e, found⟩ := Option.ne_none_iff_exists'.mp (told.kept token userId f before)
        obtain ⟨instant, issued, unexpired, -⟩ := stands
        have issued : Issued c.log token userId f instant := by
          simpa [issued_cons, Logged.hands] using issued
        obtain ⟨-, -, deadline⟩ := record_of_stands inj families linear issued found
        have live : e.liveAt (c.state.now + ms) = true := by
          simpa [Entry.liveAt, deadline] using unexpired
        exact absurd (gone.symm.trans (ExpiringMap.elapse_eq_some.mpr ⟨found, live⟩)) (by simp)
      · cases here

/-- A family that a call ends had been opened and is left without records. -/
theorem gone_of_ends (inj : Function.Injective sha256)
    (families : FamilyIndex sha256 ttl c.log c.state.now c.state.store)
    (users : UserIndex ttl c.log c.state.now c.state.store)
    (linear : Linear sha256 c.log c.state.store.ledger) (call : Call) {familyId : String}
    (ends : Ends ttl c.log familyId ((redisSessionStore sha256 ttl).machine.entry c.state call)) :
    (∃ userId openedAt, Opened c.log userId familyId openedAt) ∧
      ((redisSessionStore sha256 ttl).machine.perform c call).state.store.ledger.NoFamily familyId := by
  rcases ends with reuse | ⟨token, revoke, unexpired⟩ | ⟨userId, openedAt, revokeUser, opened, covered⟩
  · have ends : EndsFamily sha256 ttl c familyId call := Or.inl reuse
    obtain ⟨opened, burned⟩ := ends.burned families linear inj
    exact ⟨opened, burned.gone⟩
  · have ends : EndsFamily sha256 ttl c familyId call := Or.inr ⟨token, revoke, unexpired⟩
    obtain ⟨opened, burned⟩ := ends.burned families linear inj
    exact ⟨opened, burned.gone⟩
  · obtain rfl : call = .revokeUser userId := revokeUser
    refine ⟨⟨userId, openedAt, opened⟩, ?_⟩
    intro h r live
    rintro rfl
    obtain ⟨e, at_h, rfl⟩ := RedisSessions.ledger_eq_some.mp live
    obtain ⟨unlisted, old⟩ := RedisSessions.revokeUser_refresh.mp at_h
    -- the family has one owner, whose index lists it while it is covered
    obtain ⟨instant, theirs⟩ := linear.opened (RedisSessions.ledger_eq_some.mpr ⟨e, old, rfl⟩)
    obtain ⟨owner, rfl⟩ := linear.sole _ _ _ _ _ opened theirs
    subst owner
    exact unlisted _ (users.complete h e openedAt old opened covered) (families.listed_self old)

/-- The log tells about the records in every run from the empty database. -/
theorem of_reaches (inj : Function.Injective sha256)
    (reached : (redisSessionStore sha256 ttl).Reaches ⟨start, .empty⟩ c) :
    Told sha256 ttl c.log c.state.now c.state.store := by
  have refines := RedisSessions.refinesLedger sha256 ttl
  apply Machine.Reachable.invariant
    (P := fun c => Told sha256 ttl c.log c.state.now c.state.store) _ _ reached
  · exact empty sha256 ttl start
  · intro c call reached told fresh
    have linear := refines.linear inj rfl reached
    have families := FamilyIndex.of_reaches inj reached
    have users := UserIndex.of_reaches inj reached
    refine ⟨used_step inj told call, kept_step inj families users linear told call, ?_⟩
    rintro f (ends | earlier)
    · obtain ⟨⟨userId, openedAt, opened⟩, gone⟩ := gone_of_ends inj families users linear call ends
      exact ⟨⟨userId, openedAt, opened.cons⟩, gone⟩
    · obtain ⟨⟨userId, openedAt, opened⟩, gone⟩ := told.ended f earlier
      exact ⟨⟨userId, openedAt, opened.cons⟩,
        (refines.step c.state call).noFamily fresh opened gone⟩

end Told

/-! ## The answer -/

section

variable {sha256 : String → String} {ttl : RefreshTtl} {start : Nat}
  {c : Machine.Config (Clocked RedisSessions) Logged}

/-- A token with a record stands, as the record's. -/
theorem stands_of_record (inj : Function.Injective sha256)
    (reached : (redisSessionStore sha256 ttl).Reaches ⟨start, .empty⟩ c) {token : String}
    {e : Entry RefreshRecord} (found : c.state.store.refresh (sha256 token) = some e) :
    Stands ttl c.log c.state.now token e.value.userId e.value.familyId := by
  obtain ⟨token', instant, same, issued, -, unexpired⟩ :=
    (FamilyIndex.of_reaches inj reached).deadline _ e found
  rw [← inj same] at issued
  refine ⟨instant, issued, unexpired, fun ended => ?_⟩
  exact ((Told.of_reaches inj reached).ended _ ended).2 _ e.value
    (RedisSessions.ledger_eq_some.mpr ⟨e, found, rfl⟩) rfl

/-- What a rotation answers is what the log decides. -/
theorem rotate_decides (inj : Function.Injective sha256)
    (reached : (redisSessionStore sha256 ttl).Reaches ⟨start, .empty⟩ c) (token newToken : String) :
    Decides ttl c.log c.state.now token newToken
      (c.state.store.rotate sha256 ttl c.state.now token newToken).1 := by
  have told := Told.of_reaches inj reached
  have linear := (RedisSessions.refinesLedger sha256 ttl).linear inj rfl reached
  have moved := RedisSessions.rotate_effect sha256 ttl c.state.now token newToken c.state.store
  generalize c.state.store.rotate sha256 ttl c.state.now token newToken = result at moved ⊢
  cases moved with
  | invalid absent => exact .invalid fun userId f stands => told.kept token userId f stands absent
  | reuse found used => exact .reuse (stands_of_record inj reached found) (told.used token _ found used)
  | @rotated e found unused =>
      refine Verdict.rotated (stands_of_record inj reached found) (fun again => ?_) not_false
      have used := (linear.spent token again).2 e.value
        (RedisSessions.ledger_eq_some.mpr ⟨e, found, rfl⟩)
      rw [unused] at used
      cases used

/-- In every run, a presented token gets an answer exactly when the log decides it. -/
theorem rotate_answers_iff (inj : Function.Injective sha256)
    (reached : (redisSessionStore sha256 ttl).Reaches ⟨start, .empty⟩ c) (token newToken : String)
    (result : RotationResult) :
    ((redisSessionStore sha256 ttl).step c.state (.rotate token newToken)).1 = .rotation result ↔
      Decides ttl c.log c.state.now token newToken result := by
  have decided := rotate_decides inj reached token newToken
  constructor
  · intro answered
    rwa [← Answer.rotation.inj answered]
  · intro wanted
    have linear := (RedisSessions.refinesLedger sha256 ttl).linear inj rfl reached
    refine congrArg Answer.rotation (Verdict.unique ?_ decided wanted)
    rintro _ _ _ _ ⟨_, issued, -⟩ ⟨_, issued', -⟩
    obtain ⟨owner, family, -⟩ := linear.issued_once _ _ _ _ _ _ _ issued issued'
    exact ⟨owner, family⟩

end

/-- The second token of the sample run is rotated: its log decides so. -/
theorem rotate_answers_iff_rotatedOnce :
    Decides .default rotatedOnce.log 0 sampleTokens.2.1 sampleTokens.2.2
      (.rotated "u1" "f1" ⟨sampleTokens.2.2, "f1", 1209600⟩) :=
  (rotate_answers_iff sampleSha256.injective rotatedOnce_reached _ _ _).mp (by decide)

end Arac.Sessions
