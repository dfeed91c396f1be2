/-
# Arac.Sessions.InMemoryIndex -- the family sets of the in-memory store

`Effect` says what one call answers and leaves: it files a record, retires one and
files its successor, drops one that expired, or revokes families (`BurnsFamily`).

`Coherent`: every record lies under its own hash and is listed in the set of its
family.  Every call keeps this, whatever tokens were drawn, and it is all that
`revokeUser` needs to reach every record of a user (`revokeUser_kills`).

`InMemoryIndex` adds what fresh randomness gives: a family set lists hashes of
tokens of the family only.
-/
import Arac.Sessions.InMemory
import Arac.Theory.LookupTable

namespace Arac.Sessions

open Arac.Theory

set_option autoImplicit false

namespace InMemorySessions

/-- The hashes a family set lists. -/
def hashesOf (familyId : String) (m : InMemorySessions) : List String :=
  ((m.families.lookup familyId).getD .empty).toList

structure Coherent (m : InMemorySessions) : Prop where
  keyed : ∀ h record, m.byHash.lookup h = some record → record.tokenHash = h
  listed : ∀ h record, m.byHash.lookup h = some record → h ∈ m.hashesOf record.familyId

/-! ## What the methods leave -/

section

variable {sha256 : String → String} {ttl : RefreshTtl} {now : Nat} {m : InMemorySessions}
  {userId familyId token h g : String} {record : SessionRecord}

theorem issue_lookup :
    (m.issue sha256 ttl now userId familyId token).2.byHash.lookup h = some record ↔
      (h = sha256 token ∧
        record = ⟨sha256 token, familyId, userId, nowSeconds now + ttl.seconds, false⟩) ∨
      (h ≠ sha256 token ∧ m.byHash.lookup h = some record) := by
  by_cases same : h = sha256 token
  · subst same
    simp [issue, eq_comm]
  · simp [issue, AList.lookup_insert_ne same, same]

theorem issue_hashesOf :
    h ∈ (m.issue sha256 ttl now userId familyId token).2.hashesOf g ↔
      h ∈ m.hashesOf g ∨ (g = familyId ∧ h = sha256 token) := by
  by_cases same : g = familyId
  · subst same
    simp [issue, hashesOf]
  · simp [issue, hashesOf, AList.lookup_insert_ne same, same]

theorem revokeFamily_lookup :
    (m.revokeFamily familyId).byHash.lookup h = some record ↔
      h ∉ m.hashesOf familyId ∧ m.byHash.lookup h = some record := by
  unfold revokeFamily hashesOf
  cases m.families.lookup familyId with
  | none => simp
  | some family => exact lookup_eraseAll

theorem revokeFamily_hashesOf :
    h ∈ (m.revokeFamily familyId).hashesOf g ↔ g ≠ familyId ∧ h ∈ m.hashesOf g := by
  by_cases same : g = familyId
  · subst same
    unfold revokeFamily hashesOf
    cases listed : m.families.lookup g with
    | none => simp [listed]
    | some family => simp
  · unfold revokeFamily hashesOf
    cases m.families.lookup familyId with
    | none => simp [same]
    | some family => simp [AList.lookup_erase_ne same, same]

/-- Revoking families one after the other. -/
theorem revokeFamilies_spec (familyIds : List String) (m : InMemorySessions) :
    let after := familyIds.foldl (fun m familyId => m.revokeFamily familyId) m
    (∀ h record, after.byHash.lookup h = some record ↔
      (∀ f ∈ familyIds, h ∉ m.hashesOf f) ∧ m.byHash.lookup h = some record) ∧
    ∀ g h, h ∈ after.hashesOf g ↔ g ∉ familyIds ∧ h ∈ m.hashesOf g := by
  induction familyIds generalizing m with
  | nil => simp
  | cons f familyIds ih =>
      obtain ⟨records, sets⟩ := ih (m.revokeFamily f)
      refine ⟨fun h record => ?_, fun g h => ?_⟩
      · apply (records h record).trans
        simp only [List.forall_mem_cons, revokeFamily_lookup, revokeFamily_hashesOf]
        constructor
        · rintro ⟨rest, notHere, found⟩
          refine ⟨⟨notHere, fun g member listed => ?_⟩, found⟩
          by_cases same : g = f
          · subst same
            exact notHere listed
          · exact rest g member ⟨same, listed⟩
        · rintro ⟨⟨notHere, rest⟩, found⟩
          exact ⟨fun g member listed => rest g member listed.2, notHere, found⟩
      · apply (sets g h).trans
        simp only [revokeFamily_hashesOf, List.mem_cons, not_or]
        tauto

theorem remove_lookup {gone : SessionRecord} :
    (m.remove gone).byHash.lookup h = some record ↔
      h ≠ gone.tokenHash ∧ m.byHash.lookup h = some record := by
  by_cases same : h = gone.tokenHash
  · subst same
    simp [remove]
  · simp [remove, AList.lookup_erase_ne same, same]

theorem remove_hashesOf {gone : SessionRecord} :
    h ∈ (m.remove gone).hashesOf g ↔
      h ∈ m.hashesOf g ∧ ¬ (g = gone.familyId ∧ h = gone.tokenHash) := by
  unfold remove hashesOf
  cases listed : m.families.lookup gone.familyId with
  | none =>
      by_cases same : g = gone.familyId
      · subst same
        simp [listed]
      · simp [same]
  | some family =>
      simp only [lookup_replace]
      by_cases same : g = gone.familyId
      · subst same
        simp [listed]
      · simp [same]

theorem mem_familyIdsOf :
    familyId ∈ m.familyIdsOf userId ↔
      ∃ h record, m.byHash.lookup h = some record ∧ record.userId = userId ∧
        record.familyId = familyId := by
  simp only [familyIdsOf, OrderedSet.mem_addAll, OrderedSet.not_mem_empty, false_or, List.mem_map,
    List.mem_filter, decide_eq_true_eq]
  constructor
  · rintro ⟨⟨h, record⟩, ⟨found, mine⟩, same⟩
    exact ⟨h, record, AList.mem_lookup_iff.mpr found, mine, same⟩
  · rintro ⟨h, record, found, mine, same⟩
    exact ⟨⟨h, record⟩, ⟨AList.mem_lookup_iff.mp found, mine⟩, same⟩

theorem rotate_reuse {presented newToken : String}
    (found : m.byHash.lookup (sha256 presented) = some record) (used : record.used = true) :
    m.rotate sha256 ttl now presented newToken =
      (.reuseDetected record.userId record.familyId, m.revokeFamily record.familyId) := by
  simp only [rotate, found, if_pos used]

/-- A rotation keeps the record of the presented token, retired. -/
theorem rotate_rotated {presented newToken : String} {refresh : IssuedRefreshToken}
    (rotated : (m.rotate sha256 ttl now presented newToken).1 = .rotated userId familyId refresh)
    (other : sha256 presented ≠ sha256 newToken) :
    ∃ record, (m.rotate sha256 ttl now presented newToken).2.byHash.lookup (sha256 presented) =
        some record ∧
      record.used = true ∧ record.userId = userId ∧ record.familyId = familyId := by
  unfold rotate at rotated ⊢
  cases found : m.byHash.lookup (sha256 presented) with
  | none =>
      simp only [found] at rotated
      cases rotated
  | some record =>
      simp only [found] at rotated ⊢
      split at rotated
      · cases rotated
      · rename_i unused
        split at rotated
        · cases rotated
        · rename_i unexpired
          cases rotated
          rw [if_neg unused, if_neg unexpired]
          exact ⟨{ record with used := true },
            issue_lookup.mpr (Or.inr ⟨other, AList.lookup_insert _⟩), rfl, rfl, rfl⟩

end

/-! ## What one call does -/

/-- The call finds a record of the family and revokes the family for it: a replay, a
logout or a revocation of the record's user. -/
def BurnsFamily (sha256 : String → String) (familyId : String) (m : InMemorySessions) : Call → Prop
  | .rotate presented _ => ∃ record, m.byHash.lookup (sha256 presented) = some record ∧
      record.used = true ∧ record.familyId = familyId
  | .revoke presented => ∃ record, m.byHash.lookup (sha256 presented) = some record ∧
      record.familyId = familyId
  | .revokeUser userId => ∃ h record, m.byHash.lookup h = some record ∧ record.userId = userId ∧
      record.familyId = familyId
  | _ => False

/-- The record with its flag set. -/
def retire (h : String) (record : SessionRecord) (m : InMemorySessions) : InMemorySessions :=
  { m with byHash := m.byHash.insert h { record with used := true } }

/-- What a call answers and leaves. -/
inductive Effect (sha256 : String → String) (ttl : RefreshTtl) (now : Nat) (m : InMemorySessions) :
    Call → Answer → InMemorySessions → Prop
  | opens (userId familyId token : String) :
      Effect sha256 ttl now m (.createSession userId familyId token)
        (.issued (m.issue sha256 ttl now userId familyId token).1)
        (m.issue sha256 ttl now userId familyId token).2
  | rotates {presented newToken : String} {record : SessionRecord} {refresh : IssuedRefreshToken}
      (found : m.byHash.lookup (sha256 presented) = some record) (unused : ¬ record.used = true)
      (issued : refresh.token = newToken) :
      Effect sha256 ttl now m (.rotate presented newToken)
        (.rotation (.rotated record.userId record.familyId refresh))
        ((m.retire (sha256 presented) record).issue sha256 ttl now record.userId record.familyId
          newToken).2
  | expires {presented newToken : String} {record : SessionRecord}
      (found : m.byHash.lookup (sha256 presented) = some record) (unused : ¬ record.used = true) :
      Effect sha256 ttl now m (.rotate presented newToken) (.rotation .expired) (m.remove record)
  | revokes {call : Call} {answer : Answer} (familyIds : List String)
      (burns : ∀ f ∈ familyIds, BurnsFamily sha256 f m call) :
      Effect sha256 ttl now m call answer
        (familyIds.foldl (fun m familyId => m.revokeFamily familyId) m)

theorem effect (sha256 : String → String) (ttl : RefreshTtl) (c : Clocked InMemorySessions)
    (call : Call) :
    Effect sha256 ttl c.now c.store call ((inMemorySessionStore sha256 ttl).step c call).1
      ((inMemorySessionStore sha256 ttl).step c call).2.store := by
  have nothing : ∀ call answer, Effect sha256 ttl c.now c.store call answer c.store :=
    fun call answer => .revokes [] (by simp)
  cases call with
  | createSession userId familyId token => exact .opens userId familyId token
  | rotate presented newToken =>
      simp only [SessionStore.step, inMemorySessionStore, rotate]
      cases found : c.store.byHash.lookup (sha256 presented) with
      | none => exact nothing _ _
      | some record =>
          dsimp only
          split
          · rename_i used
            refine .revokes [record.familyId] fun f named => ?_
            exact ⟨record, found, used, (List.mem_singleton.mp named).symm⟩
          · rename_i unused
            split
            · exact .expires found unused
            · exact .rotates found unused rfl
  | revoke presented =>
      simp only [SessionStore.step, inMemorySessionStore, revoke]
      cases found : c.store.byHash.lookup (sha256 presented) with
      | none => exact nothing _ _
      | some record =>
          refine .revokes [record.familyId] fun f named => ?_
          exact ⟨record, found, (List.mem_singleton.mp named).symm⟩
  | revokeUser userId =>
      refine .revokes (c.store.familyIdsOf userId).toList fun f named => ?_
      exact mem_familyIdsOf.mp named
  | elapse ms => exact nothing _ _

/-! ## Coherence -/

namespace Coherent

variable {sha256 : String → String} {ttl : RefreshTtl} {m : InMemorySessions}

theorem empty : Coherent .empty where
  keyed h record found := by simp [InMemorySessions.empty] at found
  listed h record found := by simp [InMemorySessions.empty] at found

theorem issue (coherent : Coherent m) (now : Nat) (userId familyId token : String) :
    Coherent (m.issue sha256 ttl now userId familyId token).2 where
  keyed h record found := by
    rcases issue_lookup.mp found with ⟨rfl, rfl⟩ | ⟨-, old⟩
    · rfl
    · exact coherent.keyed h record old
  listed h record found := by
    rcases issue_lookup.mp found with ⟨rfl, rfl⟩ | ⟨-, old⟩
    · exact issue_hashesOf.mpr (Or.inr ⟨rfl, rfl⟩)
    · exact issue_hashesOf.mpr (Or.inl (coherent.listed h record old))

theorem revokeFamilies (coherent : Coherent m) (familyIds : List String) :
    Coherent (familyIds.foldl (fun m familyId => m.revokeFamily familyId) m) := by
  obtain ⟨records, sets⟩ := revokeFamilies_spec familyIds m
  constructor
  · intro h record found
    exact coherent.keyed h record ((records h record).mp found).2
  · intro h record found
    obtain ⟨unlisted, old⟩ := (records h record).mp found
    have listed := coherent.listed h record old
    exact (sets _ h).mpr ⟨fun gone => unlisted _ gone listed, listed⟩

theorem revokeFamily (coherent : Coherent m) (familyId : String) :
    Coherent (m.revokeFamily familyId) := coherent.revokeFamilies [familyId]

theorem remove (coherent : Coherent m) (gone : SessionRecord) : Coherent (m.remove gone) where
  keyed h record found := coherent.keyed h record (remove_lookup.mp found).2
  listed h record found := by
    obtain ⟨other, old⟩ := remove_lookup.mp found
    exact remove_hashesOf.mpr ⟨coherent.listed h record old, fun same => other same.2⟩

/-- Retiring a record. -/
theorem retire (coherent : Coherent m) {h : String} {record : SessionRecord}
    (found : m.byHash.lookup h = some record) :
    Coherent (m.retire h record) := by
  have records : ∀ h' record', (m.byHash.insert h { record with used := true }).lookup h' = some record' →
      ∃ old, m.byHash.lookup h' = some old ∧ record'.tokenHash = old.tokenHash ∧
        record'.familyId = old.familyId := by
    intro h' record' at_h
    by_cases same : h' = h
    · subst same
      rw [AList.lookup_insert] at at_h
      cases at_h
      exact ⟨record, found, rfl, rfl⟩
    · rw [AList.lookup_insert_ne same] at at_h
      exact ⟨record', at_h, rfl, rfl⟩
  constructor
  · intro h' record' at_h
    obtain ⟨old, at_old, hash, -⟩ := records h' record' at_h
    rw [hash]
    exact coherent.keyed h' old at_old
  · intro h' record' at_h
    obtain ⟨old, at_old, -, family⟩ := records h' record' at_h
    rw [family]
    exact coherent.listed h' old at_old

/-- Every call keeps the store coherent. -/
theorem step {c : Clocked InMemorySessions} (coherent : Coherent c.store) (call : Call) :
    Coherent ((inMemorySessionStore sha256 ttl).step c call).2.store := by
  have moved := effect sha256 ttl c call
  generalize (inMemorySessionStore sha256 ttl).step c call = result at moved ⊢
  obtain ⟨answer, now, store⟩ := result
  cases moved with
  | opens userId familyId token => exact coherent.issue c.now userId familyId token
  | rotates found unused issued => exact (coherent.retire found).issue _ _ _ _
  | @expires _ _ record found unused => exact coherent.remove record
  | revokes familyIds burns => exact coherent.revokeFamilies familyIds

/-- `revokeUser` removes the records of the families of the user's records. -/
theorem revokeUser_lookup (coherent : Coherent m) {userId h : String} {record : SessionRecord}
    (found : (m.revokeUser userId).byHash.lookup h = some record) :
    m.byHash.lookup h = some record ∧ record.userId ≠ userId := by
  obtain ⟨unlisted, old⟩ := ((revokeFamilies_spec _ m).1 h record).mp found
  refine ⟨old, ?_⟩
  intro mine
  have listed : record.familyId ∈ m.familyIdsOf userId := mem_familyIdsOf.mpr ⟨h, record, old, mine, rfl⟩
  exact unlisted _ listed (coherent.listed h record old)

/-- No record of the family survives its revocation. -/
theorem revokeFamily_kills (coherent : Coherent m) (familyId : String) :
    (m.revokeFamily familyId).ledger.NoFamily familyId := by
  intro h r live
  rintro rfl
  obtain ⟨record, found, rfl⟩ := Option.map_eq_some_iff.mp live
  obtain ⟨unlisted, old⟩ := revokeFamily_lookup.mp found
  exact unlisted (coherent.listed h record old)

/-- No record of the user survives `revokeUser`. -/
theorem revokeUser_kills (coherent : Coherent m) {userId h : String} {r : RefreshRecord}
    (live : (m.revokeUser userId).ledger h = some r) : r.userId ≠ userId := by
  obtain ⟨record, found, rfl⟩ := Option.map_eq_some_iff.mp live
  exact (coherent.revokeUser_lookup found).2

end Coherent

end InMemorySessions

/-! ## The family sets -/

/-- A family set lists hashes of tokens of the family only, and no record expires
before one lifetime of the start has passed. -/
structure InMemoryIndex (sha256 : String → String) (ttl : RefreshTtl) (start : Nat) (log : Log)
    (m : InMemorySessions) : Prop extends m.Coherent where
  members : ∀ f h, h ∈ m.hashesOf f → ∃ token userId instant, h = sha256 token ∧
    Issued log token userId f instant
  expires : ∀ h record, m.byHash.lookup h = some record →
    nowSeconds start + ttl.seconds ≤ record.expiresAt

namespace InMemoryIndex

open InMemorySessions

variable {sha256 : String → String} {ttl : RefreshTtl} {start : Nat} {log : Log}
  {m m' : InMemorySessions}

theorem empty (sha256 : String → String) (ttl : RefreshTtl) (start : Nat) :
    InMemoryIndex sha256 ttl start [] .empty where
  toCoherent := .empty
  members f h listed := by simp [hashesOf, InMemorySessions.empty] at listed
  expires h record found := by simp [InMemorySessions.empty] at found

/-- A call that only drops records and hashes. -/
theorem step_drop (index : InMemoryIndex sha256 ttl start log m) (l : Logged)
    (coherent : m'.Coherent) (sets : ∀ f h, h ∈ m'.hashesOf f → h ∈ m.hashesOf f)
    (records : ∀ h record, m'.byHash.lookup h = some record → m.byHash.lookup h = some record) :
    InMemoryIndex sha256 ttl start (l :: log) m' where
  toCoherent := coherent
  members f h listed := by
    obtain ⟨token, userId, instant, eq, issued⟩ := index.members f h (sets f h listed)
    exact ⟨token, userId, instant, eq, issued.cons⟩
  expires h record found := index.expires h record (records h record found)

/-- A call that hands out a token and files it in its family. -/
theorem step_issue (index : InMemoryIndex sha256 ttl start log m) {l : Logged}
    {userId familyId token : String} (since : start ≤ l.instant)
    (hands : l.hands = some (token, userId, familyId)) :
    InMemoryIndex sha256 ttl start (l :: log)
      (m.issue sha256 ttl l.instant userId familyId token).2 where
  toCoherent := index.toCoherent.issue _ _ _ _
  members f h listed := by
    rcases issue_hashesOf.mp listed with old | ⟨rfl, rfl⟩
    · obtain ⟨token, userId, instant, eq, issued⟩ := index.members f h old
      exact ⟨token, userId, instant, eq, issued.cons⟩
    · exact ⟨token, userId, l.instant, rfl, issued_cons.mpr (Or.inl ⟨hands, rfl⟩)⟩
  expires h record found := by
    rcases issue_lookup.mp found with ⟨-, rfl⟩ | ⟨-, old⟩
    · have later : start / 1000 ≤ l.instant / 1000 := Nat.div_le_div_right since
      simp only [nowSeconds]
      omega
    · exact index.expires h record old

/-- Retiring a record touches neither sets nor deadlines. -/
theorem retire (index : InMemoryIndex sha256 ttl start log m) {h : String} {record : SessionRecord}
    (found : m.byHash.lookup h = some record) :
    InMemoryIndex sha256 ttl start log (m.retire h record) where
  toCoherent := index.toCoherent.retire found
  members := index.members
  expires h' record' at_h := by
    unfold InMemorySessions.retire at at_h
    by_cases same : h' = h
    · subst same
      rw [AList.lookup_insert] at at_h
      cases at_h
      exact index.expires h' record found
    · rw [AList.lookup_insert_ne same] at at_h
      exact index.expires h' record' at_h

theorem step {c : Machine.Config (Clocked InMemorySessions) Logged}
    (index : InMemoryIndex sha256 ttl start c.log c.state.store) (since : start ≤ c.state.now)
    (call : Call) :
    InMemoryIndex sha256 ttl start ((inMemorySessionStore sha256 ttl).machine.perform c call).log
      ((inMemorySessionStore sha256 ttl).machine.perform c call).state.store := by
  have moved := effect sha256 ttl c.state call
  simp only [Machine.perform, SessionStore.machine]
  generalize (inMemorySessionStore sha256 ttl).step c.state call = result at moved ⊢
  obtain ⟨answer, now, store⟩ := result
  cases moved with
  | opens userId familyId token => exact index.step_issue since rfl
  | rotates found unused issued =>
      refine (index.retire found).step_issue (l := ⟨c.state.now, .rotate _ _, _⟩) since ?_
      simp only [Logged.hands, issued]
  | @expires _ _ record found unused =>
      exact index.step_drop _ (index.toCoherent.remove record)
        (fun f h listed => (remove_hashesOf.mp listed).1)
        fun h record found => (remove_lookup.mp found).2
  | revokes familyIds burns =>
      obtain ⟨records, sets⟩ := revokeFamilies_spec familyIds c.state.store
      exact index.step_drop _ (index.toCoherent.revokeFamilies familyIds)
        (fun f h listed => ((sets f h).mp listed).2) fun h record found => ((records h record).mp found).2

/-- The index holds in every run from the empty store. -/
theorem of_reaches {c : Machine.Config (Clocked InMemorySessions) Logged}
    (reached : (inMemorySessionStore sha256 ttl).Reaches ⟨start, .empty⟩ c) :
    InMemoryIndex sha256 ttl start c.log c.state.store := by
  have both : start ≤ c.state.now ∧ InMemoryIndex sha256 ttl start c.log c.state.store := by
    apply Machine.Reachable.invariant (P := fun c =>
      start ≤ c.state.now ∧ InMemoryIndex sha256 ttl start c.log c.state.store) _ _ reached
    · exact ⟨Nat.le_refl _, empty sha256 ttl start⟩
    · intro c call _ index _
      refine ⟨?_, index.2.step index.1 call⟩
      cases call with
      | elapse ms => exact Nat.le_trans index.1 (Nat.le_add_right _ _)
      | createSession userId familyId token => exact index.1
      | rotate presented newToken => exact index.1
      | revoke presented => exact index.1
      | revokeUser userId => exact index.1
  exact both.2

end InMemoryIndex

end Arac.Sessions
