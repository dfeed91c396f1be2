/-
# Arac.Sessions.Ledger -- what a rotating session store is for

The abstract store.  A `Ledger` maps token hashes to records: the family and owner
of the token and whether it has been rotated out.  `Ledger.Step` says what one call
may do with one answer:

* opening a session adds one unused record, of the new family and its user;
* a `rotated` answer needs an unused record of the presented token, retires it and
  adds one unused record of the same family and owner;
* every other answer may only drop records.

Nothing else is fixed: which records are dropped, when, and why is the store's
business.  `Linear` is the invariant of runs that already follows: a token is
rotated at most once, a family has at most one unused record, and its owner never
changes.  A store inherits it by `RefinesLedger`, one simulation step.
-/
import Arac.Sessions.Store
import Mathlib.Tactic.Tauto

namespace Arac.Sessions

open Arac.Theory

set_option autoImplicit false

/-- What a store knows about a live token. -/
structure RefreshRecord where
  familyId : String
  userId : String
  /-- Set once the token has been rotated out. -/
  used : Bool
  deriving DecidableEq

/-- Token hashes to records. -/
abbrev Ledger := String → Option RefreshRecord

/-- What a call with its answer may do to the records. -/
inductive Ledger.Step (sha256 : String → String) (before : Ledger) : Call → Answer → Ledger → Prop
  | opens {userId familyId token : String} {refresh : IssuedRefreshToken} {after : Ledger}
      (issued : refresh.token = token)
      (kept : ∀ h r, after h = some r →
        before h = some r ∨ (h = sha256 token ∧ r = ⟨familyId, userId, false⟩)) :
      Step sha256 before (.createSession userId familyId token) (.issued refresh) after
  | rotates {presented newToken userId familyId : String} {refresh : IssuedRefreshToken}
      {after : Ledger}
      (unused : before (sha256 presented) = some ⟨familyId, userId, false⟩)
      (issued : refresh.token = newToken)
      (kept : ∀ h r, after h = some r →
        (h = sha256 newToken ∧ r = ⟨familyId, userId, false⟩) ∨
          (h = sha256 presented ∧ r = ⟨familyId, userId, true⟩) ∨
          (h ≠ sha256 presented ∧ before h = some r)) :
      Step sha256 before (.rotate presented newToken)
        (.rotation (.rotated userId familyId refresh)) after
  | drops {call : Call} {answer : Answer} {after : Ledger}
      (silent : ∀ instant, (⟨instant, call, answer⟩ : Logged).hands = none)
      (kept : ∀ h r, after h = some r → before h = some r) :
      Step sha256 before call answer after

/-- The log shows this `rotated` answer. -/
def AnsweredRotated (log : Log) (presented userId familyId : String) : Prop :=
  ∃ l ∈ log, l.rotates presented = true ∧ ∃ token, l.hands = some (token, userId, familyId)

/-- The linear-rotation invariant of a run and the ledger it leads to. -/
structure Linear (sha256 : String → String) (log : Log) (ledger : Ledger) : Prop where
  /-- Every record is that of a token handed out to its user in its family. -/
  record : ∀ h r, ledger h = some r →
    ∃ token instant, h = sha256 token ∧ Issued log token r.userId r.familyId instant
  /-- Tokens that are handed out were minted, in a family opened for their user. -/
  issued : ∀ token userId familyId instant, Issued log token userId familyId instant →
    Minted log token ∧ ∃ openedAt, Opened log userId familyId openedAt
  /-- A token is handed out once. -/
  issued_once : ∀ token userId userId' familyId familyId' instant instant',
    Issued log token userId familyId instant → Issued log token userId' familyId' instant' →
    userId = userId' ∧ familyId = familyId' ∧ instant = instant'
  /-- A family has at most one unused record. -/
  single : ∀ h h' r r', ledger h = some r → ledger h' = some r' → r.used = false →
    r'.used = false → r.familyId = r'.familyId → h = h'
  /-- The used flag of a rotated token is never reset. -/
  spent : ∀ token, RotatedOut log token →
    Minted log token ∧ ∀ r, ledger (sha256 token) = some r → r.used = true
  /-- A token is rotated at most once. -/
  once : ∀ token, (log.filter fun l => l.rotates token).length ≤ 1
  /-- A family is opened once. -/
  sole : ∀ familyId userId userId' instant instant', Opened log userId familyId instant →
    Opened log userId' familyId instant' → userId = userId' ∧ instant = instant'

theorem Logged.hands_of_rotates {l : Logged} {token : String} (rotates : l.rotates token = true) :
    ∃ userId familyId refresh newToken, l.call = .rotate token newToken ∧
      l.answer = .rotation (.rotated userId familyId refresh) ∧
      l.hands = some (refresh.token, userId, familyId) := by
  obtain ⟨instant, call, answer⟩ := l
  cases call <;> cases answer <;> try simp [Logged.rotates] at rotates
  rename_i presented newToken result
  cases result <;> simp at rotates
  rename_i userId familyId refresh
  subst rotates
  exact ⟨userId, familyId, refresh, newToken, rfl, rfl, rfl⟩

theorem Logged.rotates_eq_false {l : Logged} (silent : l.hands = none) (token : String) :
    l.rotates token = false := by
  cases found : l.rotates token with
  | false => rfl
  | true =>
      obtain ⟨_, _, _, _, _, _, hands⟩ := Logged.hands_of_rotates found
      rw [silent] at hands
      cases hands

namespace Linear

variable {sha256 : String → String} {log : Log} {before after : Ledger}

theorem empty (sha256 : String → String) : Linear sha256 [] fun _ => none where
  record := by simp
  issued := by simp
  issued_once := by simp
  single := by simp
  spent := by simp [RotatedOut]
  once := by simp
  sole := by simp

/-- Every record belongs to an opened session. -/
theorem opened (linear : Linear sha256 log before) {h : String} {r : RefreshRecord}
    (found : before h = some r) : ∃ instant, Opened log r.userId r.familyId instant := by
  obtain ⟨token, instant, -, issued⟩ := linear.record h r found
  exact (linear.issued _ _ _ _ issued).2

/-- The record under a token's hash is that of a minted token. -/
theorem minted (linear : Linear sha256 log before) (inj : Function.Injective sha256)
    {token : String} {r : RefreshRecord} (found : before (sha256 token) = some r) :
    Minted log token := by
  obtain ⟨token', instant, same, issued⟩ := linear.record _ r found
  rw [inj same]
  exact (linear.issued _ _ _ _ issued).1

/-- A `rotated` answer names the user whose session opened the family. -/
theorem owner (linear : Linear sha256 log before) {presented userId familyId : String}
    (answered : AnsweredRotated log presented userId familyId) :
    ∃ instant, Opened log userId familyId instant := by
  obtain ⟨l, member, -, token, hands⟩ := answered
  exact (linear.issued token userId familyId l.instant ⟨l, member, hands, rfl⟩).2

/-- A minted token's hash is not the hash of the token being minted. -/
theorem hash_ne (inj : Function.Injective sha256) {token newToken : String}
    (minted : Minted log token) (fresh : ¬ Minted log newToken) :
    sha256 token ≠ sha256 newToken := by
  intro same
  rw [inj same] at minted
  exact fresh minted

/-- What the log alone says stays true when a call is logged that hands out
nothing, or hands out the token it minted to the owner of an opened family. -/
theorem log_cons {l : Logged} (linear : Linear sha256 log before) (fresh : Fresh log l.call)
    (hands : ∀ token userId familyId, l.hands = some (token, userId, familyId) →
      (l.call.mints = some token ∧ ¬ Minted log token) ∧
        ∃ instant, Opened (l :: log) userId familyId instant) :
    (∀ token userId familyId instant, Issued (l :: log) token userId familyId instant →
      Minted (l :: log) token ∧ ∃ openedAt, Opened (l :: log) userId familyId openedAt) ∧
    (∀ token userId userId' familyId familyId' instant instant',
      Issued (l :: log) token userId familyId instant →
      Issued (l :: log) token userId' familyId' instant' →
      userId = userId' ∧ familyId = familyId' ∧ instant = instant') ∧
    (∀ familyId userId userId' instant instant', Opened (l :: log) userId familyId instant →
      Opened (l :: log) userId' familyId instant' → userId = userId' ∧ instant = instant') := by
  refine ⟨?_, ?_, ?_⟩
  · intro token userId familyId instant issued
    rcases issued_cons.mp issued with ⟨here, -⟩ | earlier
    · obtain ⟨⟨mints, -⟩, opened⟩ := hands _ _ _ here
      exact ⟨minted_cons.mpr (Or.inl mints), opened⟩
    · obtain ⟨minted, openedAt, opened⟩ := linear.issued _ _ _ _ earlier
      exact ⟨minted_cons.mpr (Or.inr minted), openedAt, opened.cons⟩
  · intro token userId userId' familyId familyId' instant instant' one two
    rcases issued_cons.mp one with ⟨here, at_one⟩ | one <;>
      rcases issued_cons.mp two with ⟨here', at_two⟩ | two
    · rw [here] at here'
      cases here'
      exact ⟨rfl, rfl, at_one.symm.trans at_two⟩
    · exact absurd (linear.issued _ _ _ _ two).1 (hands _ _ _ here).1.2
    · exact absurd (linear.issued _ _ _ _ one).1 (hands _ _ _ here').1.2
    · exact linear.issued_once token _ _ _ _ _ _ one two
  · intro familyId userId userId' instant instant' one two
    rcases opened_cons.mp one with ⟨here, token, call⟩ | one <;>
      rcases opened_cons.mp two with ⟨here', token', call'⟩ | two
    · rw [call] at call'
      cases call'
      exact ⟨rfl, here.symm.trans here'⟩
    · rw [call] at fresh
      exact absurd two (fresh.2 _ _)
    · rw [call'] at fresh
      exact absurd one (fresh.2 _ _)
    · exact linear.sole familyId userId userId' instant instant' one two

theorem step_drops {l : Logged} (linear : Linear sha256 log before) (fresh : Fresh log l.call)
    (silent : l.hands = none) (kept : ∀ h r, after h = some r → before h = some r) :
    Linear sha256 (l :: log) after := by
  obtain ⟨issued, issued_once, sole⟩ := linear.log_cons fresh (by simp [silent])
  refine
    { record := ?_, issued := issued, issued_once := issued_once, single := ?_, spent := ?_,
      once := ?_, sole := sole }
  · intro h r found
    obtain ⟨token, instant, eq, handed⟩ := linear.record h r (kept h r found)
    exact ⟨token, instant, eq, handed.cons⟩
  · intro h h' r r' found found'
    exact linear.single h h' r r' (kept h r found) (kept h' r' found')
  · intro token rotated
    rw [rotatedOut_cons, Logged.rotates_eq_false silent token] at rotated
    obtain ⟨minted, used⟩ := linear.spent token (rotated.resolve_left (by simp))
    exact ⟨minted_cons.mpr (Or.inr minted), fun r found => used r (kept _ r found)⟩
  · intro token
    rw [List.filter_cons, Logged.rotates_eq_false silent token]
    exact linear.once token

theorem step_opens (inj : Function.Injective sha256) {instant : Nat}
    {userId familyId token : String} {refresh : IssuedRefreshToken}
    (linear : Linear sha256 log before)
    (fresh : Fresh log (.createSession userId familyId token)) (minted : refresh.token = token)
    (kept : ∀ h r, after h = some r →
      before h = some r ∨ (h = sha256 token ∧ r = ⟨familyId, userId, false⟩)) :
    Linear sha256 (⟨instant, .createSession userId familyId token, .issued refresh⟩ :: log) after := by
  obtain ⟨issued, issued_once, sole⟩ := linear.log_cons
    (l := ⟨instant, .createSession userId familyId token, .issued refresh⟩) fresh (by
      intro token' userId' familyId' hands
      simp only [Logged.hands, Option.some.injEq, Prod.mk.injEq] at hands
      obtain ⟨rfl, rfl, rfl⟩ := hands
      refine ⟨⟨by rw [minted]; rfl, minted ▸ fresh.1⟩, instant, ?_⟩
      exact opened_cons.mpr (Or.inl ⟨rfl, token, rfl⟩))
  -- the new family is fresh, so only the new record belongs to it
  have foreign : ∀ g s, before g = some s → s.familyId ≠ familyId := by
    rintro g s old rfl
    obtain ⟨t, opened⟩ := linear.opened old
    exact fresh.2 _ _ opened
  refine
    { record := ?_, issued := issued, issued_once := issued_once, single := ?_, spent := ?_,
      once := ?_, sole := sole }
  · intro h r found
    rcases kept h r found with old | ⟨rfl, rfl⟩
    · obtain ⟨token', t, eq, handed⟩ := linear.record h r old
      exact ⟨token', t, eq, handed.cons⟩
    · exact ⟨token, instant, rfl, issued_cons.mpr (Or.inl ⟨by rw [← minted]; rfl, rfl⟩)⟩
  · intro h h' r r' found found' unused unused' same
    rcases kept h r found with old | ⟨rfl, rfl⟩ <;> rcases kept h' r' found' with old' | ⟨rfl, rfl⟩
    · exact linear.single h h' r r' old old' unused unused' same
    · exact absurd same (foreign h r old)
    · exact absurd same.symm (foreign h' r' old')
    · rfl
  · intro token' rotated
    obtain ⟨known, used⟩ := linear.spent token' (by simpa [Logged.rotates] using rotated)
    refine ⟨minted_cons.mpr (Or.inr known), ?_⟩
    intro r found
    rcases kept _ r found with old | ⟨same, -⟩
    · exact used r old
    · exact absurd same (hash_ne inj known fresh.1)
  · intro token'
    simpa [Logged.rotates] using linear.once token'

/-- A rotation adds an unused record to the family whose unused record it retires. -/
theorem single_rotates {presented newHash userId familyId : String}
    (linear : Linear sha256 log before)
    (unused : before (sha256 presented) = some ⟨familyId, userId, false⟩)
    (kept : ∀ h r, after h = some r →
      (h = newHash ∧ r = ⟨familyId, userId, false⟩) ∨
        (h = sha256 presented ∧ r = ⟨familyId, userId, true⟩) ∨
        (h ≠ sha256 presented ∧ before h = some r)) :
    ∀ h h' r r', after h = some r → after h' = some r' → r.used = false → r'.used = false →
      r.familyId = r'.familyId → h = h' := by
  -- an old unused record of the family could only be the one just retired
  have retired : ∀ g s, g ≠ sha256 presented → before g = some s → s.used = false →
      s.familyId ≠ familyId := fun g s ne old unusedOld same =>
    ne (linear.single g _ s _ old unused unusedOld rfl same)
  intro h h' r r' found found' unusedOne unusedTwo same
  rcases kept h r found with ⟨rfl, rfl⟩ | ⟨-, rfl⟩ | ⟨ne, old⟩
  · rcases kept h' r' found' with ⟨rfl, -⟩ | ⟨-, rfl⟩ | ⟨ne', old'⟩
    · rfl
    · cases unusedTwo
    · exact absurd same.symm (retired h' r' ne' old' unusedTwo)
  · cases unusedOne
  · rcases kept h' r' found' with ⟨-, rfl⟩ | ⟨-, rfl⟩ | ⟨-, old'⟩
    · exact absurd same (retired h r ne old unusedOne)
    · cases unusedTwo
    · exact linear.single h h' r r' old old' unusedOne unusedTwo same

/-- A token that is rotated for the first time is rotated once. -/
theorem once_rotates (linear : Linear sha256 log before) {l : Logged} {presented : String}
    (only : ∀ token, l.rotates token = true → token = presented)
    (first : ¬ RotatedOut log presented) (token : String) :
    ((l :: log).filter fun l => l.rotates token).length ≤ 1 := by
  rw [List.filter_cons]
  split
  · rename_i rotates
    obtain rfl := only token rotates
    have none_earlier : (log.filter fun l => l.rotates token) = [] := by
      rw [List.filter_eq_nil_iff]
      exact fun l member rotates => first ⟨l, member, rotates⟩
    simp [none_earlier]
  · exact linear.once token

theorem step_rotates (inj : Function.Injective sha256) {instant : Nat}
    {presented newToken userId familyId : String} {refresh : IssuedRefreshToken}
    (linear : Linear sha256 log before) (fresh : Fresh log (.rotate presented newToken))
    (unused : before (sha256 presented) = some ⟨familyId, userId, false⟩)
    (minted : refresh.token = newToken)
    (kept : ∀ h r, after h = some r →
      (h = sha256 newToken ∧ r = ⟨familyId, userId, false⟩) ∨
        (h = sha256 presented ∧ r = ⟨familyId, userId, true⟩) ∨
        (h ≠ sha256 presented ∧ before h = some r)) :
    Linear sha256
      (⟨instant, .rotate presented newToken, .rotation (.rotated userId familyId refresh)⟩ :: log)
      after := by
  obtain ⟨openedAt, family⟩ := linear.opened unused
  obtain ⟨issued, issued_once, sole⟩ := linear.log_cons
    (l := ⟨instant, .rotate presented newToken, .rotation (.rotated userId familyId refresh)⟩)
    fresh (by
      intro token' userId' familyId' hands
      simp only [Logged.hands, Option.some.injEq, Prod.mk.injEq] at hands
      obtain ⟨rfl, rfl, rfl⟩ := hands
      exact ⟨⟨by rw [minted]; rfl, minted ▸ fresh⟩, openedAt, family.cons⟩)
  -- the presented token is rotated for the first time
  have presentedMinted : Minted log presented := linear.minted inj unused
  have first : ¬ RotatedOut log presented := fun rotated => by
    have := (linear.spent presented rotated).2 _ unused
    simp at this
  refine
    { record := ?_, issued := issued, issued_once := issued_once, single := ?_, spent := ?_,
      once := ?_, sole := sole }
  · intro h r found
    rcases kept h r found with ⟨rfl, rfl⟩ | ⟨rfl, rfl⟩ | ⟨-, old⟩
    · exact ⟨newToken, instant, rfl, issued_cons.mpr (Or.inl ⟨by rw [← minted]; rfl, rfl⟩)⟩
    · obtain ⟨token', t, eq, handed⟩ := linear.record _ _ unused
      exact ⟨token', t, eq, handed.cons⟩
    · obtain ⟨token', t, eq, handed⟩ := linear.record h r old
      exact ⟨token', t, eq, handed.cons⟩
  · exact linear.single_rotates unused kept
  · intro token rotated
    have known : Minted log token := by
      rcases rotatedOut_cons.mp rotated with here | earlier
      · obtain ⟨_, _, _, _, call, -, -⟩ := Logged.hands_of_rotates here
        cases call
        exact presentedMinted
      · exact (linear.spent token earlier).1
    refine ⟨minted_cons.mpr (Or.inr known), ?_⟩
    intro r found
    rcases kept _ r found with ⟨same, -⟩ | ⟨-, rfl⟩ | ⟨ne, old⟩
    · exact absurd same (hash_ne inj known fresh)
    · rfl
    · rcases rotatedOut_cons.mp rotated with here | earlier
      · obtain ⟨_, _, _, _, call, -, -⟩ := Logged.hands_of_rotates here
        cases call
        exact absurd rfl ne
      · exact (linear.spent token earlier).2 r old
  · refine linear.once_rotates (fun token rotates => ?_) first
    simpa [Logged.rotates, eq_comm] using rotates

/-- One admitted step of the ledger keeps the invariant. -/
theorem step (inj : Function.Injective sha256) {l : Logged} (linear : Linear sha256 log before)
    (fresh : Fresh log l.call) (moved : Ledger.Step sha256 before l.call l.answer after) :
    Linear sha256 (l :: log) after := by
  obtain ⟨instant, call, answer⟩ := l
  cases moved with
  | opens issued kept => exact linear.step_opens inj fresh issued kept
  | rotates unused issued kept => exact linear.step_rotates inj fresh unused issued kept
  | drops silent kept => exact linear.step_drops fresh (silent instant) kept

end Linear

/-! ## What no step brings back -/

/-- No record of the family is left. -/
def Ledger.NoFamily (ledger : Ledger) (familyId : String) : Prop :=
  ∀ h r, ledger h = some r → r.familyId ≠ familyId

namespace Ledger.Step

variable {sha256 : String → String} {log : Log} {before after : Ledger} {call : Call}
  {answer : Answer}

/-- A family without records stays without, since family ids are fresh. -/
theorem noFamily (moved : Ledger.Step sha256 before call answer after) (fresh : Fresh log call)
    {userId familyId : String} {openedAt : Nat} (opened : Opened log userId familyId openedAt)
    (gone : before.NoFamily familyId) : after.NoFamily familyId := by
  intro h r found
  cases moved with
  | opens issued kept =>
      rcases kept h r found with old | ⟨-, rfl⟩
      · exact gone h r old
      · rintro rfl
        exact fresh.2 _ _ opened
  | rotates unused issued kept =>
      have ne := gone _ _ unused
      rcases kept h r found with ⟨-, rfl⟩ | ⟨-, rfl⟩ | ⟨-, old⟩
      · exact ne
      · exact ne
      · exact gone h r old
  | drops silent kept => exact gone h r (kept h r found)

/-- A minted token without a record stays without, since tokens are fresh. -/
theorem noToken (inj : Function.Injective sha256)
    (moved : Ledger.Step sha256 before call answer after) (fresh : FreshToken log call)
    {token : String} (minted : Minted log token) (gone : before (sha256 token) = none) :
    after (sha256 token) = none := by
  cases found : after (sha256 token) with
  | none => rfl
  | some r =>
      cases moved with
      | opens issued kept =>
          rcases kept _ r found with old | ⟨same, -⟩
          · exact absurd (gone.symm.trans old) (by simp)
          · exact absurd same (Linear.hash_ne inj minted (fresh _ rfl))
      | rotates unused issued kept =>
          rcases kept _ r found with ⟨same, -⟩ | ⟨same, -⟩ | ⟨-, old⟩
          · exact absurd same (Linear.hash_ne inj minted (fresh _ rfl))
          · rw [← same, gone] at unused
            cases unused
          · exact absurd (gone.symm.trans old) (by simp)
      | drops silent kept => exact absurd (gone.symm.trans (kept _ r found)) (by simp)

/-- A record after a login is old or the login's. -/
theorem createSession_records {userId familyId token : String}
    (moved : Ledger.Step sha256 before (.createSession userId familyId token) answer after)
    (h : String) (r : RefreshRecord) (found : after h = some r) :
    before h = some r ∨ r = ⟨familyId, userId, false⟩ := by
  cases moved with
  | opens issued kept => exact (kept h r found).imp_right And.right
  | drops silent kept => exact Or.inl (kept h r found)

/-- A call that mints nothing adds no record. -/
theorem silent_records (moved : Ledger.Step sha256 before call answer after)
    (silent : call.mints = none) (h : String) (r : RefreshRecord) (found : after h = some r) :
    before h = some r := by
  cases moved with
  | opens => cases silent
  | rotates => cases silent
  | drops _ kept => exact kept h r found

/-- A `rotated` answer needs an unused record of the presented token. -/
theorem rotated {presented newToken userId familyId : String} {refresh : IssuedRefreshToken}
    (moved : Ledger.Step sha256 before (.rotate presented newToken)
      (.rotation (.rotated userId familyId refresh)) after) :
    before (sha256 presented) = some ⟨familyId, userId, false⟩ := by
  cases moved with
  | rotates unused => exact unused
  | drops silent => exact absurd (silent 0) (by simp [Logged.hands])

end Ledger.Step

/-! ## Stores that refine the ledger -/

/-- Every step of the store is a step of the ledger it shows. -/
structure RefinesLedger {σ : Type} (S : SessionStore σ) (sha256 : String → String)
    (view : σ → Ledger) : Prop where
  step : ∀ (c : Clocked σ) (call : Call), Ledger.Step sha256 (view c.store) call (S.step c call).1
    (view (S.step c call).2.store)

/-- A run of a store from empty, with fresh randomness. -/
def SessionStore.Reaches {σ : Type} (S : SessionStore σ) (start : Clocked σ)
    (c : Machine.Config (Clocked σ) Logged) : Prop :=
  S.machine.Reachable Fresh start c

/-- A refining store keeps the linear-rotation invariant in every run. -/
theorem RefinesLedger.linear {σ : Type} {S : SessionStore σ} {sha256 : String → String}
    {view : σ → Ledger} (refines : RefinesLedger S sha256 view)
    (inj : Function.Injective sha256) {start : Clocked σ}
    (empty : view start.store = fun _ => none) {c : Machine.Config (Clocked σ) Logged}
    (reached : S.Reaches start c) : Linear sha256 c.log (view c.state.store) := by
  apply Machine.Reachable.invariant (P := fun c => Linear sha256 c.log (view c.state.store)) _ _ reached
  · rw [empty]
    exact Linear.empty sha256
  · intro c call _ linear fresh
    exact Linear.step (l := S.machine.entry c.state call) inj linear fresh (refines.step c.state call)

/-- No continuation of a run answers `rotated` with a family that has no records
left. -/
theorem RefinesLedger.never_rotated_family {σ : Type} {S : SessionStore σ}
    {sha256 : String → String} {view : σ → Ledger} (refines : RefinesLedger S sha256 view)
    {c c' : Machine.Config (Clocked σ) Logged} {owner familyId : String} {openedAt : Nat}
    (opened : Opened c.log owner familyId openedAt)
    (gone : (view c.state.store).NoFamily familyId) (run : S.machine.Continues Fresh c c')
    {presented newToken userId : String} {refresh : IssuedRefreshToken} :
    (S.step c'.state (.rotate presented newToken)).1 ≠
      .rotation (.rotated userId familyId refresh) := by
  have still : Opened c'.log owner familyId openedAt ∧ (view c'.state.store).NoFamily familyId := by
    refine Machine.Continues.preserves
      (P := fun c => Opened c.log owner familyId openedAt ∧ (view c.state.store).NoFamily familyId)
      ?_ run ⟨opened, gone⟩
    intro c call before fresh
    exact ⟨before.1.cons, (refines.step c.state call).noFamily fresh before.1 before.2⟩
  intro answered
  have moved := refines.step c'.state (.rotate presented newToken)
  rw [answered] at moved
  exact still.2 _ _ moved.rotated rfl

/-- A minted token that has no record left gets none in any run that mints fresh
tokens. -/
theorem RefinesLedger.still_gone {σ : Type} {S : SessionStore σ} {sha256 : String → String}
    {view : σ → Ledger} (refines : RefinesLedger S sha256 view) (inj : Function.Injective sha256)
    {admits : Log → Call → Prop} (fresh : ∀ log call, admits log call → FreshToken log call)
    {c c' : Machine.Config (Clocked σ) Logged} {token : String} (minted : Minted c.log token)
    (gone : view c.state.store (sha256 token) = none) (run : S.machine.Continues admits c c') :
    view c'.state.store (sha256 token) = none := by
  have still : Minted c'.log token ∧ view c'.state.store (sha256 token) = none := by
    refine Machine.Continues.preserves
      (P := fun c => Minted c.log token ∧ view c.state.store (sha256 token) = none)
      ?_ run ⟨minted, gone⟩
    intro c call before admitted
    exact ⟨minted_cons.mpr (Or.inr before.1),
      (refines.step c.state call).noToken inj (fresh _ _ admitted) before.1 before.2⟩
  exact still.2

/-- No continuation of a run rotates a minted token that has no record left. -/
theorem RefinesLedger.never_rotated_token {σ : Type} {S : SessionStore σ}
    {sha256 : String → String} {view : σ → Ledger} (refines : RefinesLedger S sha256 view)
    (inj : Function.Injective sha256) {c c' : Machine.Config (Clocked σ) Logged} {token : String}
    (minted : Minted c.log token) (gone : view c.state.store (sha256 token) = none)
    (run : S.machine.Continues Fresh c c') {newToken userId familyId : String}
    {refresh : IssuedRefreshToken} :
    (S.step c'.state (.rotate token newToken)).1 ≠
      .rotation (.rotated userId familyId refresh) := by
  have still := refines.still_gone inj (fun _ _ => Fresh.token) minted gone run
  intro answered
  have moved := refines.step c'.state (.rotate token newToken)
  rw [answered] at moved
  have := moved.rotated
  rw [still] at this
  cases this

end Arac.Sessions
