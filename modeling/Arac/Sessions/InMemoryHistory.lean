/-
# Arac.Sessions.InMemoryHistory -- the log decides for the in-memory store too

The verdict of the in-memory store reads the log by other rules.  Nothing expires by
itself, so a token is on file until its family ends or a rotation finds that it has
outlived its lifetime, in whole seconds, and drops it.  A reuse is therefore noticed
however old the token is, `revoke` works with an old token, and `revokeUser` ends every
family of the user, whenever the user has logged in.
-/
import Arac.Sessions.History
import Arac.Sessions.InMemoryExact

namespace Arac.Sessions

open Arac.Theory

set_option autoImplicit false

/-! ## Reading the answer off a log -/

/-- The token was presented once too late and dropped for it. -/
def Dropped (log : Log) (token : String) : Prop :=
  ∃ l ∈ log, l.answer = .rotation .expired ∧ ∃ newToken, l.call = .rotate token newToken

/-- The logged call took away the records of the family. -/
def EndsInMemory (earlier : Log) (familyId : String) (l : Logged) : Prop :=
  (∃ userId, l.answer = .rotation (.reuseDetected userId familyId)) ∨
  (∃ token userId instant, l.call = .revoke token ∧ Issued earlier token userId familyId instant ∧
    ¬ Dropped earlier token) ∨
  ∃ userId openedAt, l.call = .revokeUser userId ∧ Opened earlier userId familyId openedAt

def EndedInMemory (familyId : String) : Log → Prop
  | [] => False
  | l :: earlier => EndsInMemory earlier familyId l ∨ EndedInMemory familyId earlier

/-- The token was handed out to the user, in a family that has not ended, and was not
dropped. -/
def OnFile (log : Log) (token userId familyId : String) : Prop :=
  (∃ instant, Issued log token userId familyId instant) ∧ ¬ EndedInMemory familyId log ∧
    ¬ Dropped log token

/-- The token was handed out more than one lifetime ago, in whole seconds. -/
def Outlived (ttl : RefreshTtl) (log : Log) (now : Nat) (token : String) : Prop :=
  ∃ userId familyId instant, Issued log token userId familyId instant ∧
    nowSeconds instant + ttl.seconds < nowSeconds now

/-- What the log says a presented token is answered. -/
def DecidesInMemory (ttl : RefreshTtl) (log : Log) (now : Nat) (token newToken : String) :
    RotationResult → Prop :=
  Verdict (OnFile log token) (Outlived ttl log now token) (RotatedOut log token)
    fun familyId => ⟨newToken, familyId, nowSeconds now + ttl.seconds⟩

theorem dropped_cons {l : Logged} {log : Log} {token : String} : Dropped (l :: log) token ↔
    (l.answer = .rotation .expired ∧ ∃ newToken, l.call = .rotate token newToken) ∨
      Dropped log token := by
  simp [Dropped]

/-! ## What one call does to the records -/

namespace InMemorySessions

/-- The call takes away the family: it answers `reuse_detected` for it, presents a token
whose record is in it, or names the user of a record in it. -/
def Takes (sha256 : String → String) (m : InMemorySessions) (call : Call) (answer : Answer)
    (familyId : String) : Prop :=
  (∃ userId, answer = .rotation (.reuseDetected userId familyId)) ∨
  (∃ token record, call = .revoke token ∧ m.byHash.lookup (sha256 token) = some record ∧
    record.familyId = familyId) ∨
  ∃ userId, call = .revokeUser userId ∧ familyId ∈ m.familyIdsOf userId

/-- What a call answers, and what it leaves of the records. -/
inductive Moves (sha256 : String → String) (ttl : RefreshTtl) (now : Nat) (m : InMemorySessions) :
    Call → Answer → InMemorySessions → Prop
  | opens (userId familyId token : String) :
      Moves sha256 ttl now m (.createSession userId familyId token)
        (.issued (m.issue sha256 ttl now userId familyId token).1)
        (m.issue sha256 ttl now userId familyId token).2
  | rotates {presented newToken : String} {record : SessionRecord}
      (found : m.byHash.lookup (sha256 presented) = some record) (unused : record.used = false)
      (lasts : nowSeconds now ≤ record.expiresAt) :
      Moves sha256 ttl now m (.rotate presented newToken)
        (.rotation (.rotated record.userId record.familyId
          ⟨newToken, record.familyId, nowSeconds now + ttl.seconds⟩))
        ((m.retire (sha256 presented) record).issue sha256 ttl now record.userId record.familyId
          newToken).2
  | expires {presented newToken : String} {record : SessionRecord}
      (found : m.byHash.lookup (sha256 presented) = some record) (unused : record.used = false)
      (late : record.expiresAt < nowSeconds now) :
      Moves sha256 ttl now m (.rotate presented newToken) (.rotation .expired) (m.remove record)
  | removes {call : Call} {answer : Answer} (removed : List String)
      (silent : ∀ instant, (⟨instant, call, answer⟩ : Logged).hands = none)
      (punctual : answer ≠ .rotation .expired)
      (taken : ∀ f, f ∈ removed ↔ Takes sha256 m call answer f)
      (held : ∀ f ∈ removed, ∃ h record, m.byHash.lookup h = some record ∧ record.familyId = f) :
      Moves sha256 ttl now m call answer
        (removed.foldl (fun m familyId => m.revokeFamily familyId) m)

theorem moves (sha256 : String → String) (ttl : RefreshTtl) (c : Clocked InMemorySessions)
    (call : Call) :
    Moves sha256 ttl c.now c.store call ((inMemorySessionStore sha256 ttl).step c call).1
      ((inMemorySessionStore sha256 ttl).step c call).2.store := by
  cases call with
  | createSession userId familyId token => exact .opens userId familyId token
  | rotate presented newToken =>
      simp only [SessionStore.step, inMemorySessionStore, rotate]
      cases found : c.store.byHash.lookup (sha256 presented) with
      | none => exact .removes [] (fun _ => rfl) (by simp) (by simp [Takes]) (by simp)
      | some record =>
          dsimp only
          split
          · refine .removes [record.familyId] (fun _ => rfl) (by simp) (fun f => ?_) fun f named => ?_
            · simp [Takes, eq_comm]
            · exact ⟨_, record, found, (List.mem_singleton.mp named).symm⟩
          · rename_i fresh
            have unused : record.used = false := by simpa using fresh
            split
            · exact .expires found unused ‹_›
            · exact .rotates found unused (Nat.le_of_not_lt ‹_›)
  | revoke presented =>
      simp only [SessionStore.step, inMemorySessionStore, revoke]
      cases found : c.store.byHash.lookup (sha256 presented) with
      | none => exact .removes [] (fun _ => rfl) (by simp) (by simp [Takes, found]) (by simp)
      | some record =>
          refine .removes [record.familyId] (fun _ => rfl) (by simp) (fun f => ?_) fun f named => ?_
          · simp [Takes, found, eq_comm]
          · exact ⟨_, record, found, (List.mem_singleton.mp named).symm⟩
  | revokeUser userId =>
      refine .removes (c.store.familyIdsOf userId).toList (fun _ => rfl)
        (by simp [SessionStore.step]) (fun f => ?_) fun f named => ?_
      · simp [Takes, SessionStore.step]
      · obtain ⟨h, record, found, -, family⟩ := mem_familyIdsOf.mp named
        exact ⟨h, record, found, family⟩
  | elapse ms =>
      exact .removes [] (fun _ => rfl) (by simp [SessionStore.step])
        (by simp [Takes, SessionStore.step]) (by simp)

end InMemorySessions

/-! ## What the log tells about the records -/

structure ToldInMemory (sha256 : String → String) (ttl : RefreshTtl) (log : Log)
    (m : InMemorySessions) : Prop where
  /-- A record dates from when its token was handed out. -/
  dated : ∀ token record, m.byHash.lookup (sha256 token) = some record →
    ∃ instant, Issued log token record.userId record.familyId instant ∧
      record.expiresAt = nowSeconds instant + ttl.seconds
  /-- Only a token that was rotated out has a used record. -/
  used : ∀ token record, m.byHash.lookup (sha256 token) = some record → record.used = true →
    RotatedOut log token
  /-- A token on file has its record. -/
  kept : ∀ token userId f, OnFile log token userId f → m.byHash.lookup (sha256 token) ≠ none
  /-- A family that ended was opened and has no record. -/
  ended : ∀ f, EndedInMemory f log →
    (∃ userId openedAt, Opened log userId f openedAt) ∧ m.ledger.NoFamily f
  /-- A token that was dropped was minted and has no record. -/
  dropped : ∀ token, Dropped log token → Minted log token ∧ m.ledger (sha256 token) = none

namespace ToldInMemory

open InMemorySessions

variable {sha256 : String → String} {ttl : RefreshTtl} {start : Nat}
  {c : Machine.Config (Clocked InMemorySessions) Logged} {m : InMemorySessions}

theorem empty (sha256 : String → String) (ttl : RefreshTtl) : ToldInMemory sha256 ttl [] .empty where
  dated := by simp [InMemorySessions.empty]
  used := by simp [InMemorySessions.empty]
  kept := by simp [OnFile]
  ended := by simp [EndedInMemory]
  dropped := by simp [Dropped]

theorem ledger_eq_none {h : String} : m.ledger h = none ↔ m.byHash.lookup h = none := by
  simp [ledger]

/-- The families that a call takes away end with it. -/
theorem ends_of_takes (linear : Linear sha256 c.log c.state.store.ledger)
    (told : ToldInMemory sha256 ttl c.log c.state.store) {call : Call} {answer : Answer}
    {familyId : String} (takes : Takes sha256 c.state.store call answer familyId) :
    EndsInMemory c.log familyId ⟨c.state.now, call, answer⟩ := by
  rcases takes with reuse | ⟨token, record, revoke, found, rfl⟩ | ⟨userId, revokeUser, named⟩
  · exact Or.inl reuse
  · obtain ⟨instant, issued, -⟩ := told.dated token record found
    refine Or.inr (Or.inl ⟨token, _, instant, revoke, issued, fun dropped => ?_⟩)
    have gone := ledger_eq_none.mp (told.dropped token dropped).2
    rw [gone] at found
    cases found
  · obtain ⟨h, record, found, rfl, rfl⟩ := mem_familyIdsOf.mp named
    obtain ⟨openedAt, opened⟩ :=
      linear.opened (h := h) (r := ⟨record.familyId, record.userId, record.used⟩)
        (by simp [ledger, found])
    exact Or.inr (Or.inr ⟨_, openedAt, revokeUser, opened⟩)

/-- The record of a token handed out is of the user and family it was handed out to. -/
theorem record_of_issued (linear : Linear sha256 c.log c.state.store.ledger)
    (told : ToldInMemory sha256 ttl c.log c.state.store) {token userId familyId : String}
    {instant : Nat} (issued : Issued c.log token userId familyId instant) {record : SessionRecord}
    (found : c.state.store.byHash.lookup (sha256 token) = some record) :
    record.userId = userId ∧ record.familyId = familyId ∧
      record.expiresAt = nowSeconds instant + ttl.seconds := by
  obtain ⟨instant', issued', dated⟩ := told.dated token record found
  obtain ⟨owner, family, rfl⟩ := linear.issued_once _ _ _ _ _ _ _ issued' issued
  exact ⟨owner, family, dated⟩

theorem dated_step (inj : Function.Injective sha256)
    (told : ToldInMemory sha256 ttl c.log c.state.store) (call : Call) :
    let after := (inMemorySessionStore sha256 ttl).machine.perform c call
    ∀ token record, after.state.store.byHash.lookup (sha256 token) = some record →
      (∃ instant, Issued after.log token record.userId record.familyId instant ∧
        record.expiresAt = nowSeconds instant + ttl.seconds) ∧
      (record.used = true → RotatedOut after.log token) := by
  intro after token record found
  have moved := moves sha256 ttl c.state call
  simp only [after, Machine.perform, SessionStore.machine] at found ⊢
  generalize (inMemorySessionStore sha256 ttl).step c.state call = result at moved found ⊢
  obtain ⟨answer, now, store⟩ := result
  -- what a record from before the call is still good for
  have earlier : ∀ {l : Logged}, c.state.store.byHash.lookup (sha256 token) = some record →
      (∃ instant, Issued (l :: c.log) token record.userId record.familyId instant ∧
        record.expiresAt = nowSeconds instant + ttl.seconds) ∧
      (record.used = true → RotatedOut (l :: c.log) token) := by
    intro l old
    obtain ⟨instant, issued, dated⟩ := told.dated token record old
    exact ⟨⟨instant, issued.cons, dated⟩, fun used =>
      rotatedOut_cons.mpr (Or.inr (told.used token record old used))⟩
  cases moved with
  | opens userId familyId minted =>
      rcases issue_lookup.mp found with ⟨same, rfl⟩ | ⟨-, old⟩
      · refine ⟨⟨c.state.now, issued_cons.mpr (Or.inl ⟨?_, rfl⟩), rfl⟩, fun used => (by cases used)⟩
        rw [inj same]
        rfl
      · exact earlier old
  | @rotates presented newToken known record_found unused lasts =>
      rcases issue_lookup.mp found with ⟨same, rfl⟩ | ⟨-, found⟩
      · refine ⟨⟨c.state.now, issued_cons.mpr (Or.inl ⟨?_, rfl⟩), rfl⟩, fun used => (by cases used)⟩
        rw [inj same]
        rfl
      · by_cases same : sha256 token = sha256 presented
        · obtain rfl := inj same
          have retired : some record = some { known with used := true } :=
            found.symm.trans (AList.lookup_insert _)
          cases retired
          obtain ⟨instant, issued, dated⟩ := told.dated token known record_found
          exact ⟨⟨instant, issued.cons, dated⟩, fun _ =>
            rotatedOut_cons.mpr (Or.inl (by simp [Logged.rotates]))⟩
        · exact earlier ((AList.lookup_insert_ne same).symm.trans found)
  | expires _ _ _ => exact earlier (remove_lookup.mp found).2
  | removes removed silent punctual taken =>
      exact earlier (((revokeFamilies_spec removed c.state.store).1 _ _).mp found).2

/-- A token on file after a call was on file before it, or the call handed it out. -/
theorem onFile_cons {l : Logged} {token userId familyId : String}
    (onFile : OnFile (l :: c.log) token userId familyId) :
    ¬ EndsInMemory c.log familyId l ∧ (OnFile c.log token userId familyId ∨
      l.hands = some (token, userId, familyId)) := by
  obtain ⟨⟨instant, issued⟩, standing, kept⟩ := onFile
  refine ⟨fun ends => standing (Or.inl ends), ?_⟩
  rcases issued_cons.mp issued with ⟨here, -⟩ | issued
  · exact Or.inr here
  · exact Or.inl ⟨⟨instant, issued⟩, fun ended => standing (Or.inr ended),
      fun dropped => kept (dropped_cons.mpr (Or.inr dropped))⟩

theorem issue_eq_none {now : Nat} {userId familyId token h : String}
    (gone : (m.issue sha256 ttl now userId familyId token).2.byHash.lookup h = none) :
    h ≠ sha256 token ∧ m.byHash.lookup h = none := by
  by_cases same : h = sha256 token
  · subst same
    rw [issue_lookup.mpr (Or.inl ⟨rfl, rfl⟩)] at gone
    cases gone
  · refine ⟨same, ?_⟩
    rwa [issue, AList.lookup_insert_ne same] at gone

/-- A token on file after a call has a record. -/
theorem kept_step (inj : Function.Injective sha256)
    (index : InMemoryIndex sha256 ttl start c.log c.state.store)
    (linear : Linear sha256 c.log c.state.store.ledger)
    (told : ToldInMemory sha256 ttl c.log c.state.store) (call : Call) :
    let after := (inMemorySessionStore sha256 ttl).machine.perform c call
    ∀ token userId f, OnFile after.log token userId f →
      after.state.store.byHash.lookup (sha256 token) ≠ none := by
  intro after token userId f onFile gone
  have moved := moves sha256 ttl c.state call
  simp only [after, Machine.perform, SessionStore.machine] at onFile gone
  generalize (inMemorySessionStore sha256 ttl).step c.state call = result at moved onFile gone
  obtain ⟨answer, now, store⟩ := result
  dsimp only at onFile gone
  obtain ⟨spared, before | here⟩ := onFile_cons onFile
  · -- the token had a record before the call
    obtain ⟨known, found⟩ := Option.ne_none_iff_exists'.mp (told.kept token userId f before)
    cases moved with
    | opens _ _ minted =>
        rw [(issue_eq_none gone).2] at found
        cases found
    | @rotates presented _ record _ _ _ =>
        have gone := (issue_eq_none gone).2
        by_cases same : sha256 token = sha256 presented
        · rw [same, retire, AList.lookup_insert] at gone
          cases gone
        · rw [retire, AList.lookup_insert_ne same, found] at gone
          cases gone
    | @expires presented _ record old _ _ =>
        -- only the presented token is dropped
        have other : sha256 token ≠ record.tokenHash := fun same =>
          onFile.2.2 (dropped_cons.mpr
            (Or.inl ⟨rfl, _, by rw [inj (same.trans (index.keyed _ _ old))]⟩))
        exact absurd (gone.symm.trans (remove_lookup.mpr ⟨other, found⟩)) (by simp)
    | removes removed silent punctual taken held =>
        obtain ⟨⟨instant, issued⟩, -, -⟩ := before
        rw [((revokeFamilies_spec removed c.state.store).1 _ known).mpr
          ⟨fun g inRemoved listed => spared ?_, found⟩] at gone
        · cases gone
        · -- what a removed set lists was handed out in that family
          obtain ⟨token', userId', instant', same, issued'⟩ := index.members g _ listed
          rw [← inj same] at issued'
          obtain ⟨-, rfl, -⟩ := linear.issued_once _ _ _ _ _ _ _ issued issued'
          exact ends_of_takes linear told ((taken f).mp inRemoved)
  · -- the call filed the token
    cases moved with
    | opens _ _ minted =>
        cases here
        exact (issue_eq_none gone).1 rfl
    | rotates _ _ _ =>
        cases here
        exact (issue_eq_none gone).1 rfl
    | expires _ _ _ => cases here
    | removes _ silent _ _ _ =>
        rw [silent] at here
        cases here

/-- A family that a call ends had been opened and is left without records. -/
theorem gone_of_ends (index : InMemoryIndex sha256 ttl start c.log c.state.store)
    (linear : Linear sha256 c.log c.state.store.ledger)
    (told : ToldInMemory sha256 ttl c.log c.state.store) (call : Call) {familyId : String}
    (ends : EndsInMemory c.log familyId
      ((inMemorySessionStore sha256 ttl).machine.entry c.state call)) :
    (∃ userId openedAt, Opened c.log userId familyId openedAt) ∧
      ((inMemorySessionStore sha256 ttl).machine.perform c call).state.store.ledger.NoFamily
        familyId := by
  have moved := moves sha256 ttl c.state call
  simp only [Machine.perform, SessionStore.machine] at ends ⊢
  generalize (inMemorySessionStore sha256 ttl).step c.state call = result at moved ends ⊢
  obtain ⟨answer, now, store⟩ := result
  cases moved with
  | opens _ _ _ => simp [EndsInMemory] at ends
  | rotates _ _ _ => simp [EndsInMemory] at ends
  | expires _ _ _ => simp [EndsInMemory] at ends
  | removes removed silent punctual taken held =>
      obtain ⟨records, -⟩ := revokeFamilies_spec removed c.state.store
      have shrinks : ∀ h record, (removed.foldl (fun m familyId => m.revokeFamily familyId)
          c.state.store).byHash.lookup h = some record → c.state.store.byHash.lookup h = some record :=
        fun h record live => ((records h record).mp live).2
      by_cases inRemoved : familyId ∈ removed
      · refine ⟨?_, ?_⟩
        · obtain ⟨h, record, found, rfl⟩ := held familyId inRemoved
          exact ⟨_, linear.opened (h := h) (r := ⟨_, record.userId, record.used⟩) (by simp [ledger, found])⟩
        · intro h r live
          rintro rfl
          obtain ⟨record, found, rfl⟩ := Option.map_eq_some_iff.mp live
          obtain ⟨unlisted, old⟩ := (records h record).mp found
          exact unlisted _ inRemoved (index.listed h record old)
      · -- nothing to take away: the family had no record
        rcases ends with reuse | ⟨token, userId, instant, revoke, issued, kept⟩ |
          ⟨userId, openedAt, revokeUser, opened⟩
        · exact absurd ((taken familyId).mpr (Or.inl reuse)) inRemoved
        · have ended : EndedInMemory familyId c.log := by
            by_contra standing
            obtain ⟨record, found⟩ := Option.ne_none_iff_exists'.mp
              (told.kept token userId familyId ⟨⟨instant, issued⟩, standing, kept⟩)
            obtain ⟨-, family, -⟩ := record_of_issued linear told issued found
            exact inRemoved ((taken familyId).mpr (Or.inr (Or.inl ⟨token, record, revoke, found, family⟩)))
          obtain ⟨opened, gone⟩ := told.ended familyId ended
          exact ⟨opened, fun h r live => gone h r (ledger_of_lookup _ (shrinks h) live)⟩
        · refine ⟨⟨userId, openedAt, opened⟩, ?_⟩
          intro h r live
          rintro rfl
          obtain ⟨record, found, rfl⟩ := Option.map_eq_some_iff.mp live
          have old := shrinks h record found
          obtain ⟨instant, theirs⟩ := linear.opened (h := h)
            (r := ⟨record.familyId, record.userId, record.used⟩) (by simp [ledger, old])
          obtain ⟨mine, -⟩ := linear.sole _ _ _ _ _ theirs opened
          have named : record.familyId ∈ c.state.store.familyIdsOf userId :=
            mem_familyIdsOf.mpr ⟨h, record, old, mine, rfl⟩
          exact inRemoved ((taken _).mpr (Or.inr (Or.inr ⟨userId, revokeUser, named⟩)))

/-- A token that a call drops was minted, and its record is gone. -/
theorem gone_of_drops (inj : Function.Injective sha256)
    (index : InMemoryIndex sha256 ttl start c.log c.state.store)
    (linear : Linear sha256 c.log c.state.store.ledger) {token newToken : String}
    (late : ((inMemorySessionStore sha256 ttl).step c.state (.rotate token newToken)).1 =
      .rotation .expired) :
    Minted c.log token ∧
      ((inMemorySessionStore sha256 ttl).machine.perform c (.rotate token newToken)).state.store.ledger
        (sha256 token) = none := by
  have moved := moves sha256 ttl c.state (.rotate token newToken)
  simp only [Machine.perform, SessionStore.machine]
  generalize (inMemorySessionStore sha256 ttl).step c.state (.rotate token newToken) = result
    at moved late ⊢
  obtain ⟨answer, now, store⟩ := result
  cases moved with
  | rotates _ _ _ => cases late
  | expires found _ _ =>
      refine ⟨linear.minted inj (r := ⟨_, _, _⟩) (by simp only [ledger, found]; rfl), ?_⟩
      rw [ledger_eq_none, ← index.keyed _ _ found]
      exact AList.lookup_erase _ _
  | removes _ _ punctual _ _ => exact absurd late punctual

/-- The log tells about the records in every run from the empty store. -/
theorem of_reaches (inj : Function.Injective sha256)
    (reached : (inMemorySessionStore sha256 ttl).Reaches ⟨start, .empty⟩ c) :
    ToldInMemory sha256 ttl c.log c.state.store := by
  have refines := InMemorySessions.refinesLedger sha256 ttl
  apply Machine.Reachable.invariant
    (P := fun c => ToldInMemory sha256 ttl c.log c.state.store) _ _ reached
  · exact empty sha256 ttl
  · intro c call reached told fresh
    have linear := refines.linear inj rfl reached
    have index := InMemoryIndex.of_reaches reached
    refine ⟨fun token record found => (dated_step inj told call token record found).1,
      fun token record found => (dated_step inj told call token record found).2,
      kept_step inj index linear told call, ?_, ?_⟩
    · rintro f (ends | earlier)
      · obtain ⟨⟨userId, openedAt, opened⟩, gone⟩ := gone_of_ends index linear told call ends
        exact ⟨⟨userId, openedAt, opened.cons⟩, gone⟩
      · obtain ⟨⟨userId, openedAt, opened⟩, gone⟩ := told.ended f earlier
        exact ⟨⟨userId, openedAt, opened.cons⟩,
          (refines.step c.state call).noFamily fresh opened gone⟩
    · intro token dropped
      rcases dropped_cons.mp dropped with ⟨late, newToken, rotate⟩ | earlier
      · obtain rfl : call = .rotate token newToken := rotate
        obtain ⟨minted, gone⟩ := gone_of_drops inj index linear late
        exact ⟨minted_cons.mpr (Or.inr minted), gone⟩
      · obtain ⟨minted, gone⟩ := told.dropped token earlier
        exact ⟨minted_cons.mpr (Or.inr minted),
          (refines.step c.state call).noToken inj fresh.token minted gone⟩

end ToldInMemory

/-! ## The answer -/

section

open InMemorySessions

variable {sha256 : String → String} {ttl : RefreshTtl} {start : Nat}
  {c : Machine.Config (Clocked InMemorySessions) Logged}

/-- A token with a record is on file, as the record's. -/
theorem onFile_of_record (inj : Function.Injective sha256)
    (reached : (inMemorySessionStore sha256 ttl).Reaches ⟨start, .empty⟩ c) {token : String}
    {record : SessionRecord} (found : c.state.store.byHash.lookup (sha256 token) = some record) :
    OnFile c.log token record.userId record.familyId := by
  have told := ToldInMemory.of_reaches inj reached
  obtain ⟨instant, issued, -⟩ := told.dated token record found
  refine ⟨⟨instant, issued⟩, fun ended => ?_, fun dropped => ?_⟩
  · exact (told.ended _ ended).2 (sha256 token) ⟨record.familyId, record.userId, record.used⟩
      (by simp [ledger, found]) rfl
  · rw [ToldInMemory.ledger_eq_none.mp (told.dropped token dropped).2] at found
    cases found

/-- A record has outlived its lifetime with its token. -/
theorem outlived_iff (inj : Function.Injective sha256)
    (reached : (inMemorySessionStore sha256 ttl).Reaches ⟨start, .empty⟩ c) {token : String}
    {record : SessionRecord} (found : c.state.store.byHash.lookup (sha256 token) = some record) :
    Outlived ttl c.log c.state.now token ↔ record.expiresAt < nowSeconds c.state.now := by
  have told := ToldInMemory.of_reaches inj reached
  have linear := (InMemorySessions.refinesLedger sha256 ttl).linear inj rfl reached
  constructor
  · rintro ⟨userId, familyId, instant, issued, late⟩
    obtain ⟨-, -, dated⟩ := ToldInMemory.record_of_issued linear told issued found
    rwa [dated]
  · intro late
    obtain ⟨instant, issued, dated⟩ := told.dated token record found
    exact ⟨_, _, instant, issued, dated ▸ late⟩

/-- In every run of the in-memory store, a presented token gets an answer exactly when the
log decides it. -/
theorem rotate_answers_in_memory_iff (inj : Function.Injective sha256)
    (reached : (inMemorySessionStore sha256 ttl).Reaches ⟨start, .empty⟩ c)
    (token newToken : String) (result : RotationResult) :
    ((inMemorySessionStore sha256 ttl).step c.state (.rotate token newToken)).1 = .rotation result ↔
      DecidesInMemory ttl c.log c.state.now token newToken result := by
  have told := ToldInMemory.of_reaches inj reached
  have linear := (InMemorySessions.refinesLedger sha256 ttl).linear inj rfl reached
  have decided : DecidesInMemory ttl c.log c.state.now token newToken
      (c.state.store.rotate sha256 ttl c.state.now token newToken).1 := by
    unfold rotate
    cases found : c.state.store.byHash.lookup (sha256 token) with
    | none => exact .invalid fun userId f onFile => told.kept token userId f onFile found
    | some record =>
        have onFile := onFile_of_record inj reached found
        dsimp only
        split
        · exact .reuse onFile (told.used token record found ‹_›)
        · rename_i unused
          have first : ¬ RotatedOut c.log token := fun again =>
            unused ((linear.spent token again).2 ⟨record.familyId, record.userId, record.used⟩
              (by simp [ledger, found]))
          split
          · exact Verdict.expired onFile first ((outlived_iff inj reached found).mpr ‹_›)
          · exact Verdict.rotated onFile first fun late =>
              absurd ((outlived_iff inj reached found).mp late) ‹_›
  constructor
  · intro answered
    rwa [← Answer.rotation.inj answered]
  · intro wanted
    refine congrArg Answer.rotation (Verdict.unique ?_ decided wanted)
    rintro _ _ _ _ ⟨⟨_, issued⟩, -⟩ ⟨⟨_, issued'⟩, -⟩
    obtain ⟨owner, family, -⟩ := linear.issued_once _ _ _ _ _ _ _ issued issued'
    exact ⟨owner, family⟩

end

/-- A login and, fourteen days and a second later, nothing else. -/
def outlivedInMemory : Machine.Config (Clocked InMemorySessions) Logged :=
  [.createSession "u1" "f1" sampleTokens.1, .elapse (RefreshTtl.default.ms + 1000)].foldl
    (inMemorySessionStore sampleSha256 .default).machine.perform ⟨[], ⟨0, .empty⟩⟩

theorem outlivedInMemory_reached :
    (inMemorySessionStore sampleSha256 .default).Reaches ⟨0, .empty⟩ outlivedInMemory := by
  refine (Machine.Reachable.start.perform ?_).perform ?_
  · simp [Fresh]
  · trivial

/-- The token of the login is answered `expired`: its log decides so. -/
theorem rotate_answers_in_memory_iff_outlived :
    DecidesInMemory .default outlivedInMemory.log 1209601000 sampleTokens.1 sampleTokens.2.1 .expired :=
  (rotate_answers_in_memory_iff sampleSha256.injective outlivedInMemory_reached _ _ _).mp (by decide)

end Arac.Sessions
