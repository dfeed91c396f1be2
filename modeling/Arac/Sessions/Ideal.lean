/-
# Arac.Sessions.Ideal -- the store without deadlines and indexes

The ideal store keeps one record for each token and nothing else.  It finds the
records of a family or of a user by looking at all of them, and nothing expires.
It says what both stores are for while no refresh token has grown old.

`MatchesIdeal` is the simulation: in a run with fresh randomness that is shorter
than one refresh lifetime, a step answers as the ideal store does and leaves the
records it leaves.  `MatchesIdeal.replay` is the induction over a sequence of calls.
-/
import Arac.Sessions.Ledger
import Mathlib.Algebra.GroupWithZero.Nat
import Mathlib.Data.List.Induction

namespace Arac.Sessions

open Arac.Theory

set_option autoImplicit false

/-! ## The ideal store -/

namespace Ledger

/-- The records outside a family. -/
def dropFamily (familyId : String) (ledger : Ledger) : Ledger := fun h =>
  (ledger h).filter fun r => r.familyId ≠ familyId

/-- The records of other users. -/
def dropUser (userId : String) (ledger : Ledger) : Ledger := fun h =>
  (ledger h).filter fun r => r.userId ≠ userId

/-- A record under a hash. -/
def record (tokenHash : String) (r : RefreshRecord) (ledger : Ledger) : Ledger :=
  Function.update ledger tokenHash (some r)

theorem dropFamily_eq_some {familyId h : String} {ledger : Ledger} {r : RefreshRecord} :
    ledger.dropFamily familyId h = some r ↔ ledger h = some r ∧ r.familyId ≠ familyId := by
  simp [dropFamily, Option.filter_eq_some_iff]

theorem dropUser_eq_some {userId h : String} {ledger : Ledger} {r : RefreshRecord} :
    ledger.dropUser userId h = some r ↔ ledger h = some r ∧ r.userId ≠ userId := by
  simp [dropUser, Option.filter_eq_some_iff]

theorem record_eq_some {tokenHash h : String} {ledger : Ledger} {r r' : RefreshRecord} :
    ledger.record tokenHash r h = some r' ↔
      (h = tokenHash ∧ r' = r) ∨ (h ≠ tokenHash ∧ ledger h = some r') := by
  by_cases same : h = tokenHash
  · subst same
    simp [record, eq_comm]
  · simp [record, same]

theorem record_record_eq_some {old new h : String} {ledger : Ledger} {r r' s : RefreshRecord} :
    (ledger.record old r).record new r' h = some s ↔
      (h = new ∧ s = r') ∨ (h ≠ new ∧ h = old ∧ s = r) ∨ (h ≠ new ∧ h ≠ old ∧ ledger h = some s) := by
  rw [record_eq_some, record_eq_some]
  tauto

/-- Two ledgers that show the same records are the same. -/
theorem ext_some {ledger ledger' : Ledger} (same : ∀ h r, ledger h = some r ↔ ledger' h = some r) :
    ledger = ledger' := by
  funext h
  exact Option.ext fun r => same h r

end Ledger

section

variable (sha256 : String → String) (ttl : RefreshTtl)

/-- What `rotate` does with the record of the presented token. -/
def Ledger.rotate (now : Nat) (presentedToken newToken : String) (ledger : Ledger) :
    RotationResult × Ledger :=
  match ledger (sha256 presentedToken) with
  | none => (.invalid, ledger)
  | some ⟨familyId, userId, true⟩ => (.reuseDetected userId familyId, ledger.dropFamily familyId)
  | some ⟨familyId, userId, false⟩ =>
      (.rotated userId familyId
        { token := newToken, familyId, expiresAt := nowSeconds now + ttl.seconds },
        (ledger.record (sha256 presentedToken) ⟨familyId, userId, true⟩).record (sha256 newToken)
          ⟨familyId, userId, false⟩)

def Ledger.revoke (presentedToken : String) (ledger : Ledger) : Ledger :=
  match ledger (sha256 presentedToken) with
  | none => ledger
  | some r => ledger.dropFamily r.familyId

def idealSessionStore : SessionStore Ledger where
  createSession now userId familyId token ledger :=
    ({ token, familyId, expiresAt := nowSeconds now + ttl.seconds },
      ledger.record (sha256 token) ⟨familyId, userId, false⟩)
  rotate := Ledger.rotate sha256 ttl
  revoke _ := Ledger.revoke sha256
  revokeUser _ := Ledger.dropUser
  elapse _ ledger := ledger

end

/-! ## Sequences of calls -/

/-- The family a call opens, if any. -/
def Call.opens : Call → Option String
  | .createSession _ familyId _ => some familyId
  | _ => none

/-- The time a call takes. -/
def Call.ms : Call → Nat
  | .elapse ms => ms
  | _ => 0

/-- The tokens and family ids drawn for the calls are distinct. -/
structure FreshCalls (calls : List Call) : Prop where
  tokens : (calls.filterMap Call.mints).Nodup
  families : (calls.filterMap Call.opens).Nodup

/-- How long the calls take together. -/
def duration (calls : List Call) : Nat := (calls.map Call.ms).sum

theorem FreshCalls.of_append {calls : List Call} {call : Call} (fresh : FreshCalls (calls ++ [call])) :
    FreshCalls calls := by
  obtain ⟨tokens, families⟩ := fresh
  rw [List.filterMap_append] at tokens families
  exact ⟨(List.nodup_append.mp tokens).1, (List.nodup_append.mp families).1⟩

section

variable {σ : Type} (S : SessionStore σ)

/-- The calls one after the other. -/
def SessionStore.replay (start : Clocked σ) (calls : List Call) :
    Machine.Config (Clocked σ) Logged :=
  calls.foldl S.machine.perform ⟨[], start⟩

theorem SessionStore.replay_append (start : Clocked σ) (calls : List Call) (call : Call) :
    S.replay start (calls ++ [call]) = S.machine.perform (S.replay start calls) call := by
  rw [replay, List.foldl_append]
  rfl

variable {S}

theorem step_now (c : Clocked σ) (call : Call) : (S.step c call).2.now = c.now + call.ms := by
  cases call <;> rfl

theorem replay_now (start : Clocked σ) (calls : List Call) :
    (S.replay start calls).state.now = start.now + duration calls := by
  induction calls using List.reverseRecOn with
  | nil => rfl
  | append_singleton calls call ih =>
      have last : (S.replay start (calls ++ [call])).state.now =
          (S.replay start calls).state.now + call.ms := by
        rw [S.replay_append]
        exact step_now _ call
      rw [last, ih]
      simp only [duration, List.map_append, List.sum_append, List.map_cons, List.map_nil,
        List.sum_cons, List.sum_nil]
      omega

/-- The log of a sequence lists its calls. -/
theorem replay_calls (start : Clocked σ) (calls : List Call) :
    (S.replay start calls).log.map Logged.call = calls.reverse := by
  induction calls using List.reverseRecOn with
  | nil => rfl
  | append_singleton calls call ih =>
      rw [S.replay_append, Machine.perform_log, List.map_cons, ih, SessionStore.machine_entry_call,
        List.reverse_append]
      rfl

theorem replay_minted {start : Clocked σ} {calls : List Call} {token : String}
    (minted : Minted (S.replay start calls).log token) : token ∈ calls.filterMap Call.mints := by
  obtain ⟨l, member, mints⟩ := minted
  have listed : l.call ∈ calls.reverse := by
    rw [← replay_calls (S := S) start calls]
    exact List.mem_map_of_mem member
  exact List.mem_filterMap.mpr ⟨l.call, List.mem_reverse.mp listed, mints⟩

theorem replay_opened {start : Clocked σ} {calls : List Call} {userId familyId : String}
    {instant : Nat} (opened : Opened (S.replay start calls).log userId familyId instant) :
    familyId ∈ calls.filterMap Call.opens := by
  obtain ⟨token, answer, member⟩ := opened
  have listed : Call.createSession userId familyId token ∈ calls.reverse := by
    rw [← replay_calls (S := S) start calls]
    exact List.mem_map.mpr ⟨_, member, rfl⟩
  exact List.mem_filterMap.mpr ⟨_, List.mem_reverse.mp listed, rfl⟩

/-- Distinct draws are fresh at every call. -/
theorem FreshCalls.fresh {start : Clocked σ} {calls : List Call} {call : Call}
    (fresh : FreshCalls (calls ++ [call])) : Fresh (S.replay start calls).log call := by
  obtain ⟨tokens, families⟩ := fresh
  rw [List.filterMap_append, List.nodup_append] at tokens families
  have unminted : ∀ token, call.mints = some token → ¬ Minted (S.replay start calls).log token := by
    intro token mints minted
    exact tokens.2.2 token (replay_minted minted) token (by simp [mints]) rfl
  have unopened : ∀ familyId, call.opens = some familyId →
      ∀ userId instant, ¬ Opened (S.replay start calls).log userId familyId instant := by
    intro familyId opens userId instant opened
    exact families.2.2 familyId (replay_opened opened) familyId (by simp [opens]) rfl
  cases call with
  | createSession userId familyId token => exact ⟨unminted token rfl, unopened familyId rfl⟩
  | rotate presented newToken => exact unminted newToken rfl
  | revoke presented => trivial
  | revokeUser userId => trivial
  | elapse ms => trivial

end

/-! ## Simulating the ideal store -/

/-- In a run from `start` that is shorter than one refresh lifetime, a step of the
store is the step of the ideal store on the records it shows. -/
structure MatchesIdeal {σ : Type} (S : SessionStore σ) (sha256 : String → String) (ttl : RefreshTtl)
    (view : σ → Ledger) (start : Clocked σ) : Prop where
  empty : view start.store = fun _ => none
  step : ∀ c call, S.Reaches start c → Fresh c.log call →
    c.state.now + call.ms < start.now + ttl.ms →
    ∃ after, (idealSessionStore sha256 ttl).step ⟨c.state.now, view c.state.store⟩ call =
      ((S.step c.state call).1, after) ∧ after.store = view (S.step c.state call).2.store

/-- A whole sequence is answered as by the ideal store. -/
theorem MatchesIdeal.replay {σ : Type} {S : SessionStore σ} {sha256 : String → String}
    {ttl : RefreshTtl} {view : σ → Ledger} {start : Clocked σ}
    (simulates : MatchesIdeal S sha256 ttl view start) {calls : List Call} (fresh : FreshCalls calls)
    (short : duration calls < ttl.ms) :
    S.Reaches start (S.replay start calls) ∧
      (idealSessionStore sha256 ttl).replay ⟨start.now, fun _ => none⟩ calls =
        ⟨(S.replay start calls).log,
          ⟨(S.replay start calls).state.now, view (S.replay start calls).state.store⟩⟩ := by
  induction calls using List.reverseRecOn with
  | nil =>
      refine ⟨Machine.Reachable.start, ?_⟩
      simp only [SessionStore.replay, List.foldl_nil, simulates.empty]
  | append_singleton calls call ih =>
      have whole : duration (calls ++ [call]) = duration calls + call.ms := by
        simp [duration]
      have shorter : duration calls < ttl.ms := by omega
      obtain ⟨reached, same⟩ := ih fresh.of_append shorter
      have fresh_call : Fresh (S.replay start calls).log call := fresh.fresh
      have in_time : (S.replay start calls).state.now + call.ms < start.now + ttl.ms := by
        rw [replay_now]
        omega
      obtain ⟨after, stepped, records⟩ := simulates.step _ call reached fresh_call in_time
      rw [S.replay_append, SessionStore.replay_append, same]
      refine ⟨reached.perform fresh_call, ?_⟩
      have clock := step_now (S := idealSessionStore sha256 ttl)
        ⟨(S.replay start calls).state.now, view (S.replay start calls).state.store⟩ call
      have clock' := step_now (S := S) (S.replay start calls).state call
      rw [stepped] at clock
      simp only [Machine.perform, SessionStore.machine, stepped]
      obtain ⟨now, store⟩ := after
      simp only at clock records
      rw [records, clock, clock']

end Arac.Sessions
