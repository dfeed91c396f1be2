/-
# Arac.Sessions.RevokeUser -- when `revokeUser` reaches every session

`revokeUser` deletes the families that `userfam:{u}` lists.  A login renews all
three keys, a rotation the record and the family set only, so the user's index dies
one lifetime after the last login while a family lives on for as long as its client
keeps rotating.

`UserIndex` is the invariant: the index lists a live family exactly when the user
has logged in again before each previous login was one lifetime old, ever since the
family was opened (`Covered`).  `revokedForGood_iff` draws the consequence.
-/
import Arac.Sessions.FamilyIndex

namespace Arac.Sessions

open Arac.Theory

set_option autoImplicit false

/-! ## Logins -/

/-- At every instant after `since`, up to `now`, the last earlier login of the user
is less than one lifetime old. -/
def Covered (ttl : RefreshTtl) (log : Log) (userId : String) (since now : Nat) : Prop :=
  ∀ t, since < t → t ≤ now → ∃ login, LoginAt log userId login ∧ login < t ∧ t < login + ttl.ms

section

variable {ttl : RefreshTtl} {log : Log} {l : Logged} {userId : String} {since now : Nat}

theorem loginAt_cons {login : Nat} : LoginAt (l :: log) userId login ↔
    (l.instant = login ∧ ∃ familyId token, l.call = .createSession userId familyId token) ∨
      LoginAt log userId login := by
  simp only [LoginAt, opened_cons]
  constructor
  · rintro ⟨familyId, ⟨here, token, call⟩ | earlier⟩
    · exact Or.inl ⟨here, familyId, token, call⟩
    · exact Or.inr ⟨familyId, earlier⟩
  · rintro (⟨here, familyId, token, call⟩ | ⟨familyId, earlier⟩)
    · exact ⟨familyId, Or.inl ⟨here, token, call⟩⟩
    · exact ⟨familyId, Or.inr earlier⟩

/-- A login at the present instant covers nothing up to it. -/
theorem covered_cons (present : l.instant = now) :
    Covered ttl (l :: log) userId since now ↔ Covered ttl log userId since now := by
  constructor
  · intro covered t after upTo
    obtain ⟨login, logged, before, within⟩ := covered t after upTo
    rcases loginAt_cons.mp logged with ⟨here, -⟩ | earlier
    · omega
    · exact ⟨login, earlier, before, within⟩
  · intro covered t after upTo
    obtain ⟨login, logged, before, within⟩ := covered t after upTo
    exact ⟨login, loginAt_cons.mpr (Or.inr logged), before, within⟩

theorem covered_cons_elapse {instant ms : Nat} {answer : Answer} :
    Covered ttl (⟨instant, .elapse ms, answer⟩ :: log) userId since now ↔
      Covered ttl log userId since now := by
  have same : ∀ login, LoginAt (⟨instant, .elapse ms, answer⟩ :: log) userId login ↔
      LoginAt log userId login := fun login => by simp [loginAt_cons]
  simp only [Covered, same]

theorem Covered.upTo {later : Nat} (covered : Covered ttl log userId since later)
    (le : now ≤ later) : Covered ttl log userId since now :=
  fun t after upTo => covered t after (Nat.le_trans upTo le)

end

/-! ## The user index -/

structure UserIndex (ttl : RefreshTtl) (log : Log) (now : Nat) (db : RedisSessions) : Prop where
  /-- A user's index expires one lifetime after the last login. -/
  last : ∀ u e, db.userfam u = some e → ∃ login, LoginAt log u login ∧
    e.deadline = some (login + ttl.ms) ∧ now < login + ttl.ms ∧
      ∀ other, LoginAt log u other → other ≤ login
  /-- It lists families only for as long as logins followed each other in time. -/
  covered : ∀ u f openedAt, f ∈ db.userfam.smembers u → Opened log u f openedAt →
    Covered ttl log u openedAt now
  /-- It then lists every family of the user that has a record. -/
  complete : ∀ h e openedAt, db.refresh h = some e →
    Opened log e.value.userId e.value.familyId openedAt →
    Covered ttl log e.value.userId openedAt now →
    e.value.familyId ∈ db.userfam.smembers e.value.userId

namespace UserIndex

variable {sha256 : String → String} {ttl : RefreshTtl} {log : Log} {now : Nat}
  {db db' : RedisSessions}

theorem empty (ttl : RefreshTtl) (now : Nat) : UserIndex ttl [] now .empty where
  last := by simp [RedisSessions.empty, ExpiringMap.empty]
  covered := by simp [RedisSessions.empty, ExpiringMap.empty, ExpiringMap.smembers]
  complete := by simp [RedisSessions.empty, ExpiringMap.empty]

/-- A call that opens no session, keeps the deadlines of the users' indexes and
takes a family off an index only with all its records. -/
theorem step_quiet (index : UserIndex ttl log now db) {l : Logged} (present : l.instant = now)
    (quiet : ∀ userId familyId token, l.call ≠ .createSession userId familyId token)
    (userfam : ∀ u e', db'.userfam u = some e' → ∃ e, db.userfam u = some e ∧
      e'.deadline = e.deadline)
    (shrinks : ∀ u f, f ∈ db'.userfam.smembers u → f ∈ db.userfam.smembers u)
    (refresh : ∀ h e', db'.refresh h = some e' →
      (∃ h e, db.refresh h = some e ∧ e.value.userId = e'.value.userId ∧
        e.value.familyId = e'.value.familyId) ∧
      (e'.value.familyId ∈ db.userfam.smembers e'.value.userId →
        e'.value.familyId ∈ db'.userfam.smembers e'.value.userId)) :
    UserIndex ttl (l :: log) now db' := by
  have opened : ∀ u f t, Opened (l :: log) u f t → Opened log u f t := by
    intro u f t opened
    rcases opened_cons.mp opened with ⟨-, token, call⟩ | earlier
    · exact absurd call (quiet u f token)
    · exact earlier
  have login : ∀ u t, LoginAt (l :: log) u t → LoginAt log u t :=
    fun u t ⟨f, here⟩ => ⟨f, opened u f t here⟩
  refine { last := ?_, covered := ?_, complete := ?_ }
  · intro u e' found
    obtain ⟨e, old, deadline⟩ := userfam u e' found
    obtain ⟨t, logged, at_e, live, latest⟩ := index.last u e old
    exact ⟨t, loginAt_cons.mpr (Or.inr logged), deadline.trans at_e, live,
      fun other here => latest other (login u other here)⟩
  · intro u f t member here
    exact (covered_cons present).mpr (index.covered u f t (shrinks u f member) (opened u f t here))
  · intro h e' t found here covered
    obtain ⟨⟨h₀, e, old, sameUser, sameFamily⟩, stays⟩ := refresh h e' found
    apply stays
    rw [← sameUser, ← sameFamily] at here ⊢
    rw [← sameUser] at covered
    exact index.complete h₀ e t old (opened _ _ t here) ((covered_cons present).mp covered)

/-- A call that burns a family takes it off the index together with its records. -/
theorem step_burn (index : UserIndex ttl log now db)
    (families : FamilyIndex sha256 ttl log now db) {l : Logged} (present : l.instant = now)
    (quiet : ∀ userId familyId token, l.call ≠ .createSession userId familyId token)
    (userId familyId : String) : UserIndex ttl (l :: log) now (db.burn userId familyId) := by
  refine index.step_quiet present quiet (fun u e' found => ExpiringMap.srem_eq_some found)
    (fun u f member => (ExpiringMap.mem_smembers_srem.mp member).1) ?_
  intro h e found
  obtain ⟨unlisted, old⟩ := RedisSessions.burn_refresh.mp found
  refine ⟨⟨h, e, old, rfl, rfl⟩, fun member => ExpiringMap.mem_smembers_srem.mpr ⟨member, ?_⟩⟩
  rintro ⟨-, rfl⟩
  exact unlisted (families.listed_self old)

/-- A call that leaves the database alone. -/
theorem step_same (index : UserIndex ttl log now db) {l : Logged} (present : l.instant = now)
    (quiet : ∀ userId familyId token, l.call ≠ .createSession userId familyId token) :
    UserIndex ttl (l :: log) now db :=
  index.step_quiet present quiet (fun _ e' found => ⟨e', found, rfl⟩) (fun _ _ member => member)
    fun h e' found => ⟨⟨h, e', found, rfl, rfl⟩, id⟩

theorem step_rotate (index : UserIndex ttl log now db)
    (families : FamilyIndex sha256 ttl log now db) (presented newToken : String) :
    UserIndex ttl
      (⟨now, .rotate presented newToken,
        .rotation (db.rotate sha256 ttl now presented newToken).1⟩ :: log) now
      (db.rotate sha256 ttl now presented newToken).2 := by
  have moved := RedisSessions.rotate_effect sha256 ttl now presented newToken db
  generalize db.rotate sha256 ttl now presented newToken = result at moved ⊢
  cases moved with
  | invalid absent => exact index.step_same rfl (by simp)
  | reuse found used => exact index.step_burn families rfl (by simp) _ _
  | @rotated e found unused hashes inHashes =>
      refine index.step_quiet rfl (by simp) (fun u e' found => ⟨e', found, rfl⟩)
        (fun _ _ member => member) ?_
      intro h e' at_h
      rcases ExpiringMap.put_put_eq_some.mp at_h with ⟨-, rfl⟩ | ⟨-, -, rfl⟩ | ⟨-, -, old⟩
      · exact ⟨⟨_, e, found, rfl, rfl⟩, id⟩
      · exact ⟨⟨_, e, found, rfl, rfl⟩, id⟩
      · exact ⟨⟨h, e', old, rfl, rfl⟩, id⟩

theorem step_revoke (index : UserIndex ttl log now db)
    (families : FamilyIndex sha256 ttl log now db) (presented : String) :
    UserIndex ttl (⟨now, .revoke presented, .done⟩ :: log) now (db.revoke sha256 presented) := by
  cases found : db.refresh (sha256 presented) with
  | none =>
      rw [RedisSessions.revoke_none found]
      exact index.step_same rfl (by simp)
  | some e =>
      rw [RedisSessions.revoke_some found]
      exact index.step_burn families rfl (by simp) _ _

theorem step_revokeUser (index : UserIndex ttl log now db)
    (families : FamilyIndex sha256 ttl log now db) (userId : String) :
    UserIndex ttl (⟨now, .revokeUser userId, .done⟩ :: log) now (db.revokeUser userId) := by
  refine index.step_quiet rfl (by simp) ?_ ?_ ?_
  · intro u e' found
    rw [RedisSessions.revokeUser_userfam] at found
    exact ⟨e', (ExpiringMap.del_eq_some.mp found).2, rfl⟩
  · intro u f member
    rw [RedisSessions.revokeUser_userfam] at member
    exact (ExpiringMap.mem_smembers_del.mp member).2
  · intro h e found
    obtain ⟨unlisted, old⟩ := RedisSessions.revokeUser_refresh.mp found
    refine ⟨⟨h, e, old, rfl, rfl⟩, ?_⟩
    intro member
    rw [RedisSessions.revokeUser_userfam]
    refine ExpiringMap.mem_smembers_del.mpr ⟨?_, member⟩
    rintro rfl
    exact unlisted _ member (families.listed_self old)

theorem step_createSession (index : UserIndex ttl log now db)
    (families : FamilyIndex sha256 ttl log now db) (linear : Linear sha256 log db.ledger)
    (userId familyId token : String) (fresh : Fresh log (.createSession userId familyId token)) :
    UserIndex ttl
      (⟨now, .createSession userId familyId token,
        .issued (db.createSession sha256 ttl now userId familyId token).1⟩ :: log) now
      (db.createSession sha256 ttl now userId familyId token).2 := by
  obtain ⟨hashes, listing, eq, -, inListing⟩ :=
    RedisSessions.createSession_opened sha256 ttl now userId familyId token db
  rw [eq]
  have past : ∀ u t, LoginAt log u t → t ≤ now := fun u t ⟨f, token, answer, member⟩ =>
    families.past _ member
  refine { last := ?_, covered := ?_, complete := ?_ }
  · intro u e found
    rcases ExpiringMap.put_eq_some.mp found with ⟨rfl, rfl⟩ | ⟨ne, old⟩
    · refine ⟨now, loginAt_cons.mpr (Or.inl ⟨rfl, familyId, token, rfl⟩), rfl,
        Nat.lt_add_of_pos_right ttl.ms_pos, fun other logged => ?_⟩
      rcases loginAt_cons.mp logged with ⟨rfl, -⟩ | earlier
      · exact Nat.le_refl _
      · exact past u other earlier
    · obtain ⟨login, logged, deadline, live, latest⟩ := index.last u e old
      refine ⟨login, loginAt_cons.mpr (Or.inr logged), deadline, live, ?_⟩
      intro other here
      rcases loginAt_cons.mp here with ⟨-, _, _, call⟩ | earlier
      · cases call
        exact absurd rfl ne
      · exact latest other earlier
  · intro u f t member opened
    apply (covered_cons rfl).mpr
    rcases opened_cons.mp opened with ⟨rfl, -⟩ | earlier
    · -- nothing lies between the opening and the present
      exact fun _ after upTo => absurd after (Nat.not_lt.mpr upTo)
    · have listed : f ∈ db.userfam.smembers u := by
        rcases ExpiringMap.mem_smembers_put.mp member with ⟨rfl, inside⟩ | ⟨-, old⟩
        · rcases (inListing f).mp inside with old | rfl
          · exact old
          · exact absurd earlier (fresh.2 _ _)
        · exact old
      exact index.covered u f t listed earlier
  · intro h e t found opened covered
    apply ExpiringMap.mem_smembers_put.mpr
    rcases ExpiringMap.put_eq_some.mp found with ⟨-, rfl⟩ | ⟨-, old⟩
    · exact Or.inl ⟨rfl, (inListing _).mpr (Or.inr rfl)⟩
    · obtain ⟨openedAt, known⟩ := linear.opened (RedisSessions.ledger_eq_some.mpr ⟨e, old, rfl⟩)
      have earlier : Opened log e.value.userId e.value.familyId t := by
        rcases opened_cons.mp opened with ⟨-, token', call⟩ | earlier
        · cases call
          exact absurd known (fresh.2 _ _)
        · exact earlier
      have member := index.complete h e t old earlier ((covered_cons rfl).mp covered)
      by_cases same : e.value.userId = userId
      · exact Or.inl ⟨same, (inListing _).mpr (Or.inl (same ▸ member))⟩
      · exact Or.inr ⟨same, member⟩

theorem step_elapse (index : UserIndex ttl log now db)
    (families : FamilyIndex sha256 ttl log now db) (ms : Nat) :
    UserIndex ttl (⟨now, .elapse ms, .done⟩ :: log) (now + ms) (db.elapse (now + ms)) := by
  have past : ∀ u t, LoginAt log u t → t ≤ now := fun u t ⟨f, token, answer, member⟩ =>
    families.past _ member
  have login : ∀ u t, LoginAt (⟨now, .elapse ms, .done⟩ :: log) u t ↔ LoginAt log u t :=
    fun u t => by simp [loginAt_cons]
  have opened : ∀ u f t, Opened (⟨now, .elapse ms, .done⟩ :: log) u f t → Opened log u f t :=
    fun u f t here => by simpa [opened_cons] using here
  refine { last := ?_, covered := ?_, complete := ?_ }
  · intro u e found
    obtain ⟨old, live⟩ := ExpiringMap.elapse_eq_some.mp found
    obtain ⟨t, logged, deadline, -, latest⟩ := index.last u e old
    simp only [Entry.liveAt, deadline, decide_eq_true_eq] at live
    exact ⟨t, (login u t).mpr logged, deadline, live, fun other here =>
      latest other ((login u other).mp here)⟩
  · intro u f t member here
    obtain ⟨e, at_u, inside⟩ := ExpiringMap.mem_smembers.mp member
    obtain ⟨old, live⟩ := ExpiringMap.elapse_eq_some.mp at_u
    obtain ⟨last, logged, deadline, -, latest⟩ := index.last u e old
    simp only [Entry.liveAt, deadline, decide_eq_true_eq] at live
    apply covered_cons_elapse.mpr
    intro s after upTo
    by_cases before : s ≤ now
    · exact index.covered u f t (ExpiringMap.mem_smembers.mpr ⟨e, old, inside⟩) (opened u f t here)
        s after before
    · exact ⟨last, logged, Nat.lt_of_le_of_lt (past u last logged) (Nat.lt_of_not_le before),
        Nat.lt_of_le_of_lt upTo live⟩
  · intro h e t found here covered
    have old := (ExpiringMap.elapse_eq_some.mp found).1
    have covered := covered_cons_elapse.mp covered
    have member := index.complete h e t old (opened _ _ t here)
      (covered.upTo (Nat.le_add_right now ms))
    obtain ⟨e', at_u, inside⟩ := ExpiringMap.mem_smembers.mp member
    refine ExpiringMap.mem_smembers.mpr ⟨e', ExpiringMap.elapse_eq_some.mpr ⟨at_u, ?_⟩, inside⟩
    obtain ⟨last, -, deadline, live, latest⟩ := index.last _ e' at_u
    simp only [Entry.liveAt, deadline, decide_eq_true_eq]
    by_cases still : now + ms ≤ t
    · have := past _ t ⟨_, opened _ _ t here⟩
      omega
    · obtain ⟨s, logged, -, within⟩ := covered (now + ms) (Nat.lt_of_not_le still) (Nat.le_refl _)
      have := latest s logged
      omega

/-- The index holds in every run from the empty database. -/
theorem of_reaches (inj : Function.Injective sha256) {start : Nat}
    {c : Machine.Config (Clocked RedisSessions) Logged}
    (reached : (redisSessionStore sha256 ttl).Reaches ⟨start, .empty⟩ c) :
    UserIndex ttl c.log c.state.now c.state.store := by
  apply Machine.Reachable.invariant
    (P := fun c => UserIndex ttl c.log c.state.now c.state.store) _ _ reached
  · exact empty ttl start
  · intro c call reached index fresh
    have families := FamilyIndex.of_reaches inj reached
    cases call with
    | createSession userId familyId token =>
        have linear := (RedisSessions.refinesLedger sha256 ttl).linear inj rfl reached
        exact index.step_createSession families linear userId familyId token fresh
    | rotate presented newToken => exact index.step_rotate families presented newToken
    | revoke presented => exact index.step_revoke families presented
    | revokeUser userId => exact index.step_revokeUser families userId
    | elapse ms => exact index.step_elapse families ms

end UserIndex

/-! ## Revoking a user -/

section

variable (sha256 : String → String) (ttl : RefreshTtl)
  (c : Machine.Config (Clocked RedisSessions) Logged) (userId : String)

/-- Right after `revokeUser(userId)` no live record is the user's, and no token
handed out to the user before is answered `rotated` in any continuation. -/
def RevokedForGood : Prop :=
  let S := redisSessionStore sha256 ttl
  let after := S.machine.perform c (.revokeUser userId)
  (∀ h r, after.state.store.ledger h = some r → r.userId ≠ userId) ∧
    ∀ token familyId instant, Issued c.log token userId familyId instant →
      ∀ c', S.machine.Continues Fresh after c' → ∀ newToken owner family refresh,
        (S.step c'.state (.rotate token newToken)).1 ≠ .rotation (.rotated owner family refresh)

/-- Since each live family of the user was opened, the user has always logged in
again before the previous login was one lifetime old. -/
def LiveFamiliesCovered : Prop :=
  ∀ h r openedAt, c.state.store.ledger h = some r → r.userId = userId →
    Opened c.log userId r.familyId openedAt → Covered ttl c.log userId openedAt c.state.now

end

section

variable {sha256 : String → String} {ttl : RefreshTtl} {start : Nat}
  {c : Machine.Config (Clocked RedisSessions) Logged} {userId : String}

/-- A record survives `revokeUser` when the user's index does not list its family. -/
theorem survives_revokeUser (families : FamilyIndex sha256 ttl c.log c.state.now c.state.store)
    (linear : Linear sha256 c.log c.state.store.ledger) (inj : Function.Injective sha256)
    {h : String} {e : Entry RefreshRecord} (found : c.state.store.refresh h = some e)
    (unlisted : e.value.familyId ∉ c.state.store.userfam.smembers userId) :
    (c.state.store.revokeUser userId).refresh h = some e := by
  refine RedisSessions.revokeUser_refresh.mpr ⟨fun f member listed => unlisted ?_, found⟩
  rwa [families.family_of_listed linear inj listed found]

/-- `revokeUser` cuts off every session of the user exactly when the user's index
was renewed in time. -/
theorem revokedForGood_iff (inj : Function.Injective sha256)
    (reached : (redisSessionStore sha256 ttl).Reaches ⟨start, .empty⟩ c) :
    RevokedForGood sha256 ttl c userId ↔ LiveFamiliesCovered ttl c userId := by
  have refines := RedisSessions.refinesLedger sha256 ttl
  have linear := refines.linear inj rfl reached
  have families := FamilyIndex.of_reaches inj reached
  have users := UserIndex.of_reaches inj reached
  constructor
  · rintro ⟨gone, -⟩ h r openedAt found rfl opened
    obtain ⟨e, at_h, rfl⟩ := RedisSessions.ledger_eq_some.mp found
    -- an unlisted family would leave this record behind
    have listed : e.value.familyId ∈ c.state.store.userfam.smembers e.value.userId := by
      by_contra unlisted
      have survives := survives_revokeUser families linear inj at_h unlisted
      exact gone h e.value (RedisSessions.ledger_eq_some.mpr ⟨e, survives, rfl⟩) rfl
    exact users.covered _ _ _ listed opened
  · intro covered
    have gone : ∀ h r, (c.state.store.revokeUser userId).ledger h = some r → r.userId ≠ userId := by
      intro h r found
      rintro rfl
      obtain ⟨e, at_h, rfl⟩ := RedisSessions.ledger_eq_some.mp found
      obtain ⟨unlisted, old⟩ := RedisSessions.revokeUser_refresh.mp at_h
      have live := RedisSessions.ledger_eq_some.mpr ⟨e, old, rfl⟩
      obtain ⟨openedAt, opened⟩ := linear.opened live
      have listed := users.complete h e openedAt old opened (covered h _ openedAt live rfl opened)
      exact unlisted _ listed (families.listed_self old)
    refine ⟨gone, ?_⟩
    intro token familyId instant issued c' run newToken owner family refresh
    refine refines.never_rotated_token inj (minted_cons.mpr (Or.inr ?_)) ?_ run
    · exact (linear.issued _ _ _ _ issued).1
    · -- a record of the token would be the user's
      cases found : (c.state.store.revokeUser userId).ledger (sha256 token) with
      | none => exact found
      | some r =>
          obtain ⟨e, at_h, rfl⟩ := RedisSessions.ledger_eq_some.mp found
          have old := (RedisSessions.revokeUser_refresh.mp at_h).2
          obtain ⟨token', instant', same, issued', -, -⟩ := families.deadline _ e old
          rw [← inj same] at issued'
          exact absurd (linear.issued_once _ _ _ _ _ _ _ issued' issued).1 (gone _ _ found)

end

section

/-- A login, a rotation in the last millisecond of the first token, and that
millisecond. -/
def rotatedAtTheEnd : Machine.Config (Clocked RedisSessions) Logged :=
  [.createSession "u1" "f1" sampleTokens.1, .elapse (RefreshTtl.default.ms - 1),
    .rotate sampleTokens.1 sampleTokens.2.1, .elapse 1].foldl sampleStore.machine.perform
    ⟨[], ⟨0, .empty⟩⟩

theorem rotatedAtTheEnd_reached : sampleStore.Reaches ⟨0, .empty⟩ rotatedAtTheEnd := by
  refine (((Machine.Reachable.start.perform ?_).perform ?_).perform ?_).perform ?_
  · simp [Fresh]
  · trivial
  · simp [Fresh, Call.mints, sampleTokens]
  · trivial

/-- The index has expired, the rotated token has not: `revokeUser` misses it. -/
theorem not_always_revokedForGood :
    ¬ ∀ (sha256 : String → String) (ttl : RefreshTtl), Function.Injective sha256 →
      ∀ (start : Nat) (c : Machine.Config (Clocked RedisSessions) Logged),
        (redisSessionStore sha256 ttl).Reaches ⟨start, .empty⟩ c →
          ∀ userId, RevokedForGood sha256 ttl c userId := by
  intro always
  have gone := (always sampleSha256 .default sampleSha256.injective 0 rotatedAtTheEnd
    rotatedAtTheEnd_reached "u1").1
  have missed : (sampleStore.machine.perform rotatedAtTheEnd (.revokeUser "u1")).state.store.ledger
      (sampleSha256 sampleTokens.2.1) = some ⟨"f1", "u1", false⟩ := by decide
  exact gone _ _ missed rfl

/-- A day after the login the index is alive, and `revokeUser` is complete. -/
theorem revokedForGood_next_day :
    RevokedForGood sampleSha256 .default
      ([.createSession "u1" "f1" sampleTokens.1, .elapse 86400000].foldl
        sampleStore.machine.perform ⟨[], ⟨0, .empty⟩⟩) "u1" := by
  have reached : sampleStore.Reaches ⟨0, .empty⟩
      ([.createSession "u1" "f1" sampleTokens.1, .elapse 86400000].foldl
        sampleStore.machine.perform ⟨[], ⟨0, .empty⟩⟩) := by
    refine (Machine.Reachable.start.perform ?_).perform ?_
    · simp [Fresh]
    · trivial
  apply (revokedForGood_iff sampleSha256.injective reached).mpr
  · intro h r openedAt found owner opened t after upTo
    refine ⟨0, ⟨"f1", opened_cons.mpr (Or.inr (opened_cons.mpr (Or.inl ⟨rfl, _, rfl⟩)))⟩, by omega, ?_⟩
    have day : t ≤ 86400000 := upTo
    have lifetime : RefreshTtl.default.ms = 1209600000 := rfl
    omega

end

end Arac.Sessions
