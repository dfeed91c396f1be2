/-
# Arac.Sessions.FamilyIndex -- the family sets of the Redis store

Burning a family deletes the records its `family:{f}` set lists, so the set must
list every live record of the family and outlive each of them.  `FamilyIndex` is
that invariant, for every run of the Redis store with fresh randomness, together
with what explains a missing record: a record expires one lifetime after its token
was handed out, and one that is missing before that was lost to a revocation of its
family (`Revoked`), which leaves no record of the family behind.
-/
import Arac.Sessions.Redis

namespace Arac.Sessions

open Arac.Theory

set_option autoImplicit false

/-! ## What a log says about revocation -/

/-- The token belongs to the family and was handed out less than one lifetime ago. -/
def Unexpired (ttl : RefreshTtl) (log : Log) (token familyId : String) (now : Nat) : Prop :=
  ∃ userId instant, Issued log token userId familyId instant ∧ now < instant + ttl.ms

/-- The logged call revoked the family: it answered `reuse_detected` for it, it was
a `revoke` with an unexpired token of it, or it was a `revokeUser` of its user. -/
def Revokes (ttl : RefreshTtl) (earlier : Log) (familyId : String) (l : Logged) : Prop :=
  (∃ userId, l.answer = .rotation (.reuseDetected userId familyId)) ∨
  (∃ token, l.call = .revoke token ∧ Unexpired ttl earlier token familyId l.instant) ∨
  (∃ userId instant, l.call = .revokeUser userId ∧ Opened earlier userId familyId instant)

/-- Some call of the run revoked the family. -/
def Revoked (ttl : RefreshTtl) (familyId : String) : Log → Prop
  | [] => False
  | l :: earlier => Revokes ttl earlier familyId l ∨ Revoked ttl familyId earlier

/-! ## The family index -/

structure FamilyIndex (sha256 : String → String) (ttl : RefreshTtl) (log : Log) (now : Nat)
    (db : RedisSessions) : Prop where
  /-- The log is not ahead of the clock. -/
  past : ∀ l ∈ log, l.instant ≤ now
  /-- A record expires one lifetime after its token was handed out, which is to come. -/
  deadline : ∀ h e, db.refresh h = some e → ∃ token instant, h = sha256 token ∧
    Issued log token e.value.userId e.value.familyId instant ∧
      e.deadline = some (instant + ttl.ms) ∧ now < instant + ttl.ms
  /-- The family set lists every record of the family and outlives it. -/
  listed : ∀ h e, db.refresh h = some e → ∃ set t, db.family e.value.familyId = some ⟨set, some t⟩ ∧
    h ∈ set ∧ ∀ d, e.deadline = some d → d ≤ t
  /-- A family set lists hashes of tokens of the family only. -/
  members : ∀ f h, h ∈ db.family.smembers f → ∃ token userId instant, h = sha256 token ∧
    Issued log token userId f instant
  /-- A user's index lists sessions of the user only. -/
  owners : ∀ u f, f ∈ db.userfam.smembers u → ∃ instant, Opened log u f instant
  /-- An unexpired token without a record belongs to a revoked family. -/
  lapsed : ∀ token userId f instant, Issued log token userId f instant → now < instant + ttl.ms →
    db.refresh (sha256 token) = none → Revoked ttl f log ∧ db.ledger.NoFamily f

namespace FamilyIndex

variable {sha256 : String → String} {ttl : RefreshTtl} {log : Log} {now : Nat}
  {db db' : RedisSessions}

theorem issued_past (index : FamilyIndex sha256 ttl log now db) {token userId familyId : String}
    {instant : Nat} (issued : Issued log token userId familyId instant) : instant ≤ now := by
  obtain ⟨l, member, -, rfl⟩ := issued
  exact index.past l member

/-- A hash listed in a family set has no record of another family. -/
theorem family_of_listed (index : FamilyIndex sha256 ttl log now db)
    (linear : Linear sha256 log db.ledger) (inj : Function.Injective sha256) {f h : String}
    {e : Entry RefreshRecord} (listed : h ∈ db.family.smembers f) (found : db.refresh h = some e) :
    e.value.familyId = f := by
  obtain ⟨token, userId, instant, rfl, issued⟩ := index.members f h listed
  obtain ⟨token', instant', same, issued', -, -⟩ := index.deadline _ e found
  rw [← inj same] at issued'
  exact (linear.issued_once _ _ _ _ _ _ _ issued' issued).2.1

/-- The family set of a record lists it. -/
theorem listed_self (index : FamilyIndex sha256 ttl log now db) {h : String}
    {e : Entry RefreshRecord} (found : db.refresh h = some e) :
    h ∈ db.family.smembers e.value.familyId := by
  obtain ⟨set, t, family, member, -⟩ := index.listed h e found
  exact ExpiringMap.mem_smembers.mpr ⟨_, family, member⟩

theorem empty (sha256 : String → String) (ttl : RefreshTtl) (now : Nat) :
    FamilyIndex sha256 ttl [] now .empty where
  past := by simp
  deadline := by simp [RedisSessions.empty, ExpiringMap.empty]
  listed := by simp [RedisSessions.empty, ExpiringMap.empty]
  members := by simp [RedisSessions.empty, ExpiringMap.empty, ExpiringMap.smembers]
  owners := by simp [RedisSessions.empty, ExpiringMap.empty, ExpiringMap.smembers]
  lapsed := by simp

theorem past_cons (index : FamilyIndex sha256 ttl log now db) {l : Logged}
    (present : l.instant = now) : ∀ l' ∈ l :: log, l'.instant ≤ now := by
  intro l' member
  rcases List.mem_cons.mp member with rfl | earlier
  · exact Nat.le_of_eq present
  · exact index.past l' earlier

/-- A call that hands out nothing and removes some families, with every token they
list, keeps the index.  Removed families must count as revoked by the call. -/
theorem step_remove (index : FamilyIndex sha256 ttl log now db)
    (linear : Linear sha256 log db.ledger) (inj : Function.Injective sha256) {l : Logged}
    (present : l.instant = now) (silent : l.hands = none) (removed : List String)
    (refresh : ∀ h e, db'.refresh h = some e ↔
      (∀ f ∈ removed, h ∉ db.family.smembers f) ∧ db.refresh h = some e)
    (family : ∀ g e, db'.family g = some e ↔ g ∉ removed ∧ db.family g = some e)
    (userfam : ∀ u f, f ∈ db'.userfam.smembers u → f ∈ db.userfam.smembers u)
    (revokes : ∀ f ∈ removed, Revokes ttl log f l) :
    FamilyIndex sha256 ttl (l :: log) now db' where
  past := index.past_cons present
  deadline h e found := by
    obtain ⟨token, instant, eq, issued, deadline⟩ := index.deadline h e ((refresh h e).mp found).2
    exact ⟨token, instant, eq, issued.cons, deadline⟩
  listed h e found := by
    obtain ⟨unlisted, old⟩ := (refresh h e).mp found
    obtain ⟨set, t, at_family, member, later⟩ := index.listed h e old
    refine ⟨set, t, (family _ _).mpr ⟨fun gone => ?_, at_family⟩, member, later⟩
    exact unlisted _ gone (index.listed_self old)
  members f h member := by
    obtain ⟨e, at_f, inside⟩ := ExpiringMap.mem_smembers.mp member
    obtain ⟨token, userId, instant, eq, issued⟩ := index.members f h
      (ExpiringMap.mem_smembers.mpr ⟨e, ((family f e).mp at_f).2, inside⟩)
    exact ⟨token, userId, instant, eq, issued.cons⟩
  owners u f member := by
    obtain ⟨instant, opened⟩ := index.owners u f (userfam u f member)
    exact ⟨instant, opened.cons⟩
  lapsed token userId f instant issued unexpired gone := by
    have issued : Issued log token userId f instant := by
      rcases issued_cons.mp issued with ⟨here, -⟩ | earlier
      · rw [silent] at here
        cases here
      · exact earlier
    cases found : db.refresh (sha256 token) with
    | none =>
        obtain ⟨revoked, noFamily⟩ := index.lapsed token userId f instant issued unexpired found
        refine ⟨Or.inr revoked, ?_⟩
        intro h r live
        obtain ⟨e, at_h, rfl⟩ := RedisSessions.ledger_eq_some.mp live
        exact noFamily h e.value (RedisSessions.ledger_eq_some.mpr ⟨e, ((refresh h e).mp at_h).2, rfl⟩)
    | some e =>
        -- the record was listed in a removed family, which is the token's own
        have listed : ∃ g ∈ removed, sha256 token ∈ db.family.smembers g := by
          by_contra unlisted
          push Not at unlisted
          rw [(refresh _ e).mpr ⟨unlisted, found⟩] at gone
          cases gone
        obtain ⟨g, inRemoved, member⟩ := listed
        obtain ⟨token', userId', instant', same, issued'⟩ := index.members g _ member
        rw [← inj same] at issued'
        obtain ⟨-, rfl, -⟩ := linear.issued_once _ _ _ _ _ _ _ issued issued'
        refine ⟨Or.inl (revokes f inRemoved), ?_⟩
        intro h r live
        obtain ⟨e', at_h, rfl⟩ := RedisSessions.ledger_eq_some.mp live
        rintro rfl
        obtain ⟨unlisted, old⟩ := (refresh h e').mp at_h
        exact unlisted _ inRemoved (index.listed_self old)

/-- A call that leaves the database alone and hands out nothing. -/
theorem step_same (index : FamilyIndex sha256 ttl log now db)
    (linear : Linear sha256 log db.ledger) (inj : Function.Injective sha256) {l : Logged}
    (present : l.instant = now) (silent : l.hands = none) :
    FamilyIndex sha256 ttl (l :: log) now db :=
  index.step_remove linear inj present silent [] (by simp) (by simp) (fun _ _ member => member)
    (by simp)

theorem step_burn (index : FamilyIndex sha256 ttl log now db)
    (linear : Linear sha256 log db.ledger) (inj : Function.Injective sha256) {l : Logged}
    (present : l.instant = now) (silent : l.hands = none) (userId familyId : String)
    (revokes : Revokes ttl log familyId l) :
    FamilyIndex sha256 ttl (l :: log) now (db.burn userId familyId) := by
  refine index.step_remove linear inj present silent [familyId] ?_ ?_ ?_ (by simpa using revokes)
  · intro h e
    rw [RedisSessions.burn_refresh]
    simp
  · intro g e
    rw [RedisSessions.burn_family]
    simp
  · intro u f member
    exact (ExpiringMap.mem_smembers_srem.mp member).1

/-- A call that adds the record of a token it hands out and renews the family set
keeps the index, unless the family had been emptied before. -/
theorem step_mint (index : FamilyIndex sha256 ttl log now db) {l : Logged}
    (present : l.instant = now) {token userId familyId : String} {hashes : OrderedSet String}
    (hands : l.hands = some (token, userId, familyId))
    (kept : ∀ h e, db'.refresh h = some e →
      (h = sha256 token ∧ e = ⟨⟨familyId, userId, false⟩, some (now + ttl.ms)⟩) ∨
        ∃ old, db.refresh h = some old ∧ e.deadline = old.deadline ∧
          e.value.userId = old.value.userId ∧ e.value.familyId = old.value.familyId)
    (stays : ∀ h, db'.refresh h = none → h ≠ sha256 token ∧ db.refresh h = none)
    (family : db'.family = db.family.put familyId ⟨hashes, some (now + ttl.ms)⟩)
    (inHashes : ∀ h, h ∈ hashes ↔ h ∈ db.family.smembers familyId ∨ h = sha256 token)
    (owners : ∀ u f, f ∈ db'.userfam.smembers u → ∃ instant, Opened (l :: log) u f instant)
    (alive : ∀ token' u instant, Issued log token' u familyId instant →
      ¬ db.ledger.NoFamily familyId) :
    FamilyIndex sha256 ttl (l :: log) now db' where
  past := index.past_cons present
  deadline h e found := by
    rcases kept h e found with ⟨rfl, rfl⟩ | ⟨old, at_h, deadline, sameUser, sameFamily⟩
    · exact ⟨token, now, rfl, issued_cons.mpr (Or.inl ⟨hands, present⟩), rfl,
        Nat.lt_add_of_pos_right ttl.ms_pos⟩
    · obtain ⟨token', instant, eq, issued, at_old⟩ := index.deadline h old at_h
      rw [sameUser, sameFamily, deadline]
      exact ⟨token', instant, eq, issued.cons, at_old⟩
  listed h e found := by
    rcases kept h e found with ⟨rfl, rfl⟩ | ⟨old, at_h, deadline, -, sameFamily⟩
    · exact ⟨hashes, now + ttl.ms, by rw [family, ExpiringMap.put_self],
        (inHashes _).mpr (Or.inr rfl), by simp⟩
    · rw [sameFamily, deadline, family]
      by_cases same : old.value.familyId = familyId
      · refine ⟨hashes, now + ttl.ms, by rw [same, ExpiringMap.put_self], ?_, fun d at_d => ?_⟩
        · exact (inHashes h).mpr (Or.inl (same ▸ index.listed_self at_h))
        · obtain ⟨token', instant, -, issued, at_old, -⟩ := index.deadline h old at_h
          rw [at_d, Option.some.injEq] at at_old
          have := index.issued_past issued
          omega
      · rw [ExpiringMap.put_ne same]
        exact index.listed h old at_h
  members f h member := by
    rw [family, ExpiringMap.mem_smembers_put] at member
    have minted : Issued (l :: log) token userId familyId now :=
      issued_cons.mpr (Or.inl ⟨hands, present⟩)
    rcases member with ⟨rfl, inside⟩ | ⟨-, old⟩
    · rcases (inHashes h).mp inside with old | rfl
      · obtain ⟨token', userId', instant, eq, issued⟩ := index.members f h old
        exact ⟨token', userId', instant, eq, issued.cons⟩
      · exact ⟨token, userId, now, rfl, minted⟩
    · obtain ⟨token', userId', instant, eq, issued⟩ := index.members f h old
      exact ⟨token', userId', instant, eq, issued.cons⟩
  owners := owners
  lapsed token' userId' f instant issued unexpired gone := by
    obtain ⟨ne, gone⟩ := stays _ gone
    rcases issued_cons.mp issued with ⟨here, -⟩ | earlier
    · rw [hands] at here
      cases here
      exact absurd rfl ne
    · obtain ⟨revoked, noFamily⟩ := index.lapsed token' userId' f instant earlier unexpired gone
      refine ⟨Or.inr revoked, ?_⟩
      intro h r live
      obtain ⟨e, at_h, rfl⟩ := RedisSessions.ledger_eq_some.mp live
      rcases kept h e at_h with ⟨-, rfl⟩ | ⟨old, at_old, -, -, sameFamily⟩
      · rintro rfl
        exact alive _ _ _ earlier noFamily
      · rw [sameFamily]
        exact noFamily h old.value (RedisSessions.ledger_eq_some.mpr ⟨old, at_old, rfl⟩)

theorem step_createSession (index : FamilyIndex sha256 ttl log now db)
    (linear : Linear sha256 log db.ledger) (userId familyId token : String)
    (fresh : Fresh log (.createSession userId familyId token)) :
    FamilyIndex sha256 ttl
      (⟨now, .createSession userId familyId token,
        .issued (db.createSession sha256 ttl now userId familyId token).1⟩ :: log) now
      (db.createSession sha256 ttl now userId familyId token).2 := by
  obtain ⟨hashes, families, eq, inHashes, inFamilies⟩ :=
    RedisSessions.createSession_opened sha256 ttl now userId familyId token db
  rw [eq]
  refine index.step_mint (l := ⟨now, .createSession userId familyId token, _⟩) rfl rfl ?_ ?_ rfl
    inHashes ?_ ?_
  · intro h e found
    rcases ExpiringMap.put_eq_some.mp found with here | ⟨-, old⟩
    · exact Or.inl here
    · exact Or.inr ⟨e, old, rfl, rfl, rfl⟩
  · intro h gone
    exact ExpiringMap.put_eq_none.mp gone
  · intro u f member
    rcases ExpiringMap.mem_smembers_put.mp member with ⟨rfl, inside⟩ | ⟨-, old⟩
    · rcases (inFamilies f).mp inside with old | rfl
      · obtain ⟨instant, opened⟩ := index.owners _ _ old
        exact ⟨instant, opened.cons⟩
      · exact ⟨now, opened_cons.mpr (Or.inl ⟨rfl, token, rfl⟩)⟩
    · obtain ⟨instant, opened⟩ := index.owners _ _ old
      exact ⟨instant, opened.cons⟩
  · intro token' u instant issued
    obtain ⟨-, openedAt, opened⟩ := linear.issued _ _ _ _ issued
    exact absurd opened (fresh.2 _ _)

theorem step_rotate (index : FamilyIndex sha256 ttl log now db)
    (linear : Linear sha256 log db.ledger) (inj : Function.Injective sha256)
    (presented newToken : String) :
    FamilyIndex sha256 ttl
      (⟨now, .rotate presented newToken,
        .rotation (db.rotate sha256 ttl now presented newToken).1⟩ :: log) now
      (db.rotate sha256 ttl now presented newToken).2 := by
  have moved := RedisSessions.rotate_effect sha256 ttl now presented newToken db
  generalize db.rotate sha256 ttl now presented newToken = result at moved ⊢
  cases moved with
  | invalid absent => exact index.step_same linear inj rfl rfl
  | reuse found used => exact index.step_burn linear inj rfl rfl _ _ (Or.inl ⟨_, rfl⟩)
  | @rotated e found unused hashes inHashes =>
      refine index.step_mint (l := ⟨now, .rotate presented newToken, _⟩) rfl rfl ?_ ?_ rfl
        inHashes ?_ ?_
      · intro h e' at_h
        rcases ExpiringMap.put_put_eq_some.mp at_h with here | ⟨-, rfl, rfl⟩ | ⟨-, -, old⟩
        · exact Or.inl here
        · exact Or.inr ⟨e, found, rfl, rfl, rfl⟩
        · exact Or.inr ⟨e', old, rfl, rfl, rfl⟩
      · intro h gone
        obtain ⟨isNew, gone⟩ := ExpiringMap.put_eq_none.mp gone
        exact ⟨isNew, (ExpiringMap.put_eq_none.mp gone).2⟩
      · intro u f member
        obtain ⟨instant, opened⟩ := index.owners u f member
        exact ⟨instant, opened.cons⟩
      · intro _ _ _ _ noFamily
        exact noFamily _ e.value (RedisSessions.ledger_eq_some.mpr ⟨e, found, rfl⟩) rfl

theorem step_revoke (index : FamilyIndex sha256 ttl log now db)
    (linear : Linear sha256 log db.ledger) (inj : Function.Injective sha256) (presented : String) :
    FamilyIndex sha256 ttl (⟨now, .revoke presented, .done⟩ :: log) now
      (db.revoke sha256 presented) := by
  cases found : db.refresh (sha256 presented) with
  | none =>
      rw [RedisSessions.revoke_none found]
      exact index.step_same linear inj rfl rfl
  | some e =>
      rw [RedisSessions.revoke_some found]
      obtain ⟨token, instant, same, issued, -, live⟩ := index.deadline _ e found
      rw [← inj same] at issued
      exact index.step_burn linear inj rfl rfl _ _
        (Or.inr (Or.inl ⟨presented, rfl, e.value.userId, instant, issued, live⟩))

theorem step_revokeUser (index : FamilyIndex sha256 ttl log now db)
    (linear : Linear sha256 log db.ledger) (inj : Function.Injective sha256) (userId : String) :
    FamilyIndex sha256 ttl (⟨now, .revokeUser userId, .done⟩ :: log) now (db.revokeUser userId) := by
  refine index.step_remove linear inj rfl rfl (db.userfam.smembers userId)
    (fun _ _ => RedisSessions.revokeUser_refresh) (fun _ _ => RedisSessions.revokeUser_family) ?_ ?_
  · intro u f member
    rw [RedisSessions.revokeUser_userfam] at member
    exact (ExpiringMap.mem_smembers_del.mp member).2
  · intro f member
    obtain ⟨instant, opened⟩ := index.owners userId f member
    exact Or.inr (Or.inr ⟨userId, instant, rfl, opened⟩)

theorem step_elapse (index : FamilyIndex sha256 ttl log now db)
    (linear : Linear sha256 log db.ledger) (inj : Function.Injective sha256) (ms : Nat) :
    FamilyIndex sha256 ttl (⟨now, .elapse ms, .done⟩ :: log) (now + ms) (db.elapse (now + ms)) where
  past l member := by
    rcases List.mem_cons.mp member with rfl | earlier
    · exact Nat.le_add_right now ms
    · exact Nat.le_trans (index.past l earlier) (Nat.le_add_right now ms)
  deadline h e found := by
    obtain ⟨old, live⟩ := ExpiringMap.elapse_eq_some.mp found
    obtain ⟨token, instant, eq, issued, deadline, -⟩ := index.deadline h e old
    simp only [Entry.liveAt, deadline, decide_eq_true_eq] at live
    exact ⟨token, instant, eq, issued.cons, deadline, live⟩
  listed h e found := by
    obtain ⟨old, live⟩ := ExpiringMap.elapse_eq_some.mp found
    obtain ⟨set, t, family, member, later⟩ := index.listed h e old
    obtain ⟨token, instant, -, -, deadline, -⟩ := index.deadline h e old
    refine ⟨set, t, ExpiringMap.elapse_eq_some.mpr ⟨family, ?_⟩, member, later⟩
    have := later _ deadline
    simp only [Entry.liveAt, deadline, decide_eq_true_eq] at live ⊢
    omega
  members f h member := by
    obtain ⟨e, at_f, inside⟩ := ExpiringMap.mem_smembers.mp member
    obtain ⟨token, userId, instant, eq, issued⟩ := index.members f h
      (ExpiringMap.mem_smembers.mpr ⟨e, (ExpiringMap.elapse_eq_some.mp at_f).1, inside⟩)
    exact ⟨token, userId, instant, eq, issued.cons⟩
  owners u f member := by
    obtain ⟨e, at_u, inside⟩ := ExpiringMap.mem_smembers.mp member
    obtain ⟨instant, opened⟩ := index.owners u f
      (ExpiringMap.mem_smembers.mpr ⟨e, (ExpiringMap.elapse_eq_some.mp at_u).1, inside⟩)
    exact ⟨instant, opened.cons⟩
  lapsed token userId f instant issued unexpired gone := by
    have issued : Issued log token userId f instant := by
      simpa [issued_cons, Logged.hands] using issued
    have missing : db.refresh (sha256 token) = none := by
      by_contra present
      obtain ⟨e, found⟩ := Option.ne_none_iff_exists'.mp present
      -- the clock is before the record's deadline, so it survived
      obtain ⟨token', instant', same, issued', deadline, -⟩ := index.deadline _ e found
      rw [← inj same] at issued'
      obtain ⟨-, -, rfl⟩ := linear.issued_once _ _ _ _ _ _ _ issued issued'
      have live : e.liveAt (now + ms) = true := by simpa [Entry.liveAt, deadline] using unexpired
      have kept := ExpiringMap.elapse_eq_some.mpr ⟨found, live⟩
      exact absurd (gone.symm.trans kept) (by simp)
    obtain ⟨revoked, noFamily⟩ := index.lapsed token userId f instant issued (by omega) missing
    refine ⟨Or.inr revoked, fun h r live => noFamily h r (RedisSessions.elapse_ledger live)⟩

/-- The index holds in every run from the empty database. -/
theorem of_reaches (inj : Function.Injective sha256) {start : Nat}
    {c : Machine.Config (Clocked RedisSessions) Logged}
    (reached : (redisSessionStore sha256 ttl).Reaches ⟨start, .empty⟩ c) :
    FamilyIndex sha256 ttl c.log c.state.now c.state.store := by
  apply Machine.Reachable.invariant
    (P := fun c => FamilyIndex sha256 ttl c.log c.state.now c.state.store) _ _ reached
  · exact empty sha256 ttl start
  · intro c call reached index fresh
    have linear := (RedisSessions.refinesLedger sha256 ttl).linear inj rfl reached
    cases call with
    | createSession userId familyId token =>
        exact index.step_createSession linear userId familyId token fresh
    | rotate presented newToken => exact index.step_rotate linear inj presented newToken
    | revoke presented => exact index.step_revoke linear inj presented
    | revokeUser userId => exact index.step_revokeUser linear inj userId
    | elapse ms => exact index.step_elapse linear inj ms

end FamilyIndex

end Arac.Sessions
