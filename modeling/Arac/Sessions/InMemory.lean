/-
# Arac.Sessions.InMemory -- the in-memory session store

`InMemorySessionStore` keeps every record in a map by hash and the hashes of each
family in a second map.  Its methods contain no `await`, so each is one step.
Nothing expires by itself: an expired record stays until a rotation finds it, and
`rotate` then drops that one record.

The order in which a map is iterated shows nowhere (`revokeUser` collects family
ids into a set and removes them all), so the maps are Mathlib's association lists.
-/
import Arac.Sessions.Ledger
import Arac.Theory.OrderedSet
import Mathlib.Data.List.AList

namespace Arac.Sessions

open Arac.Theory

set_option autoImplicit false

structure SessionRecord where
  tokenHash : String
  familyId : String
  userId : String
  /-- Unix seconds. -/
  expiresAt : Nat
  /-- True once this token has been rotated out. -/
  used : Bool
  deriving DecidableEq

structure InMemorySessions where
  byHash : AList fun _ : String => SessionRecord
  families : AList fun _ : String => OrderedSet String

namespace InMemorySessions

def empty : InMemorySessions := ⟨∅, ∅⟩

def issue (sha256 : String → String) (ttl : RefreshTtl) (now : Nat) (userId familyId token : String)
    (m : InMemorySessions) : IssuedRefreshToken × InMemorySessions :=
  let tokenHash := sha256 token
  let expiresAt := nowSeconds now + ttl.seconds
  let family := (m.families.lookup familyId).getD OrderedSet.empty
  ({ token, familyId, expiresAt },
    { byHash := m.byHash.insert tokenHash { tokenHash, familyId, userId, expiresAt, used := false }
      families := m.families.insert familyId (family.add tokenHash) })

def revokeFamily (familyId : String) (m : InMemorySessions) : InMemorySessions :=
  match m.families.lookup familyId with
  | none => m
  | some family =>
      { byHash := family.toList.foldl (fun byHash tokenHash => byHash.erase tokenHash) m.byHash
        families := m.families.erase familyId }

def remove (record : SessionRecord) (m : InMemorySessions) : InMemorySessions :=
  { byHash := m.byHash.erase record.tokenHash
    families := match m.families.lookup record.familyId with
      | none => m.families
      | some family => m.families.replace record.familyId (family.erase record.tokenHash) }

section

variable (sha256 : String → String) (ttl : RefreshTtl)

def createSession (now : Nat) (userId familyId token : String) (m : InMemorySessions) :
    IssuedRefreshToken × InMemorySessions :=
  m.issue sha256 ttl now userId familyId token

def rotate (now : Nat) (presentedToken newToken : String) (m : InMemorySessions) :
    RotationResult × InMemorySessions :=
  match m.byHash.lookup (sha256 presentedToken) with
  | none => (.invalid, m)
  | some record =>
      if record.used then
        (.reuseDetected record.userId record.familyId, m.revokeFamily record.familyId)
      else if nowSeconds now > record.expiresAt then (.expired, m.remove record)
      else
        -- `record.used = true` writes through to the stored record
        let m := { m with
          byHash := m.byHash.insert (sha256 presentedToken) { record with used := true } }
        let (refresh, m) := m.issue sha256 ttl now record.userId record.familyId newToken
        (.rotated record.userId record.familyId refresh, m)

def revoke (presentedToken : String) (m : InMemorySessions) : InMemorySessions :=
  match m.byHash.lookup (sha256 presentedToken) with
  | none => m
  | some record => m.revokeFamily record.familyId

/-- The family ids of the user's records, collected into a set. -/
def familyIdsOf (userId : String) (m : InMemorySessions) : OrderedSet String :=
  OrderedSet.empty.addAll
    ((m.byHash.entries.filter fun record => record.2.userId = userId).map fun record => record.2.familyId)

def revokeUser (userId : String) (m : InMemorySessions) : InMemorySessions :=
  (m.familyIdsOf userId).toList.foldl (fun m familyId => m.revokeFamily familyId) m

end

end InMemorySessions

/-- `InMemorySessionStore`. -/
def inMemorySessionStore (sha256 : String → String) (ttl : RefreshTtl) :
    SessionStore InMemorySessions where
  createSession := InMemorySessions.createSession sha256 ttl
  rotate := InMemorySessions.rotate sha256 ttl
  revoke _ := InMemorySessions.revoke sha256
  revokeUser _ := InMemorySessions.revokeUser
  elapse _ m := m

namespace InMemorySessions

variable {m : InMemorySessions} {h : String} {r : RefreshRecord}

/-- The records of the store, expired ones included. -/
def ledger (m : InMemorySessions) : Ledger := fun h =>
  (m.byHash.lookup h).map fun record => ⟨record.familyId, record.userId, record.used⟩

theorem lookup_eraseAll {byHash : AList fun _ : String => SessionRecord} {hashes : List String}
    {record : SessionRecord} :
    (hashes.foldl (fun byHash tokenHash => byHash.erase tokenHash) byHash).lookup h = some record ↔
      h ∉ hashes ∧ byHash.lookup h = some record := by
  induction hashes generalizing byHash with
  | nil => simp
  | cons tokenHash hashes ih =>
      rw [List.foldl_cons, ih]
      by_cases same : h = tokenHash
      · subst same
        simp
      · simp [AList.lookup_erase_ne same, same]

theorem ledger_of_lookup (m' : InMemorySessions)
    (kept : ∀ record, m'.byHash.lookup h = some record → m.byHash.lookup h = some record)
    (found : m'.ledger h = some r) : m.ledger h = some r := by
  obtain ⟨record, at_h, eq⟩ := Option.map_eq_some_iff.mp found
  exact Option.map_eq_some_iff.mpr ⟨record, kept record at_h, eq⟩

/-- Removing a family drops records only. -/
theorem revokeFamily_ledger {familyId : String} (found : (m.revokeFamily familyId).ledger h = some r) :
    m.ledger h = some r := by
  unfold revokeFamily at found
  split at found
  · exact found
  · exact ledger_of_lookup _ (fun record at_h => (lookup_eraseAll.mp at_h).2) found

theorem remove_ledger {record : SessionRecord} (found : (m.remove record).ledger h = some r) :
    m.ledger h = some r := by
  refine ledger_of_lookup (m.remove record) (fun other at_h => ?_) found
  by_cases same : h = record.tokenHash
  · subst same
    simp only [remove, AList.lookup_erase] at at_h
    cases at_h
  · simpa only [remove, AList.lookup_erase_ne same] using at_h

theorem revokeFamilies_ledger {familyIds : List String}
    (found : (familyIds.foldl (fun m familyId => m.revokeFamily familyId) m).ledger h = some r) :
    m.ledger h = some r := by
  induction familyIds generalizing m with
  | nil => exact found
  | cons familyId familyIds ih => exact revokeFamily_ledger (ih found)

/-- Issuing a token adds its record. -/
theorem issue_ledger {sha256 : String → String} {ttl : RefreshTtl} {now : Nat}
    {userId familyId token : String}
    (found : (m.issue sha256 ttl now userId familyId token).2.ledger h = some r) :
    (h = sha256 token ∧ r = ⟨familyId, userId, false⟩) ∨ (h ≠ sha256 token ∧ m.ledger h = some r) := by
  by_cases same : h = sha256 token
  · subst same
    simp only [issue, ledger, AList.lookup_insert, Option.map_some, Option.some.injEq] at found
    exact Or.inl ⟨rfl, found.symm⟩
  · simp only [issue, ledger, AList.lookup_insert_ne same] at found
    exact Or.inr ⟨same, found⟩

/-- Retiring a record sets its flag and touches no other. -/
theorem retire_ledger {key : String} {record : SessionRecord}
    (found : ({ m with byHash := m.byHash.insert key { record with used := true } } :
      InMemorySessions).ledger h = some r) :
    (h = key ∧ r = ⟨record.familyId, record.userId, true⟩) ∨ (h ≠ key ∧ m.ledger h = some r) := by
  by_cases same : h = key
  · subst same
    simp only [ledger, AList.lookup_insert, Option.map_some, Option.some.injEq] at found
    exact Or.inl ⟨rfl, found.symm⟩
  · simp only [ledger, AList.lookup_insert_ne same] at found
    exact Or.inr ⟨same, found⟩

theorem rotate_step (sha256 : String → String) (ttl : RefreshTtl) (now : Nat)
    (presented newToken : String) (m : InMemorySessions) :
    Ledger.Step sha256 m.ledger (.rotate presented newToken)
      (.rotation (m.rotate sha256 ttl now presented newToken).1)
      (m.rotate sha256 ttl now presented newToken).2.ledger := by
  unfold rotate
  cases found : m.byHash.lookup (sha256 presented) with
  | none => exact .drops (fun _ => rfl) fun _ _ live => live
  | some record =>
      simp only
      by_cases used : record.used = true
      · rw [if_pos used]
        exact .drops (fun _ => rfl) fun _ _ => revokeFamily_ledger
      · rw [if_neg used]
        split
        · exact .drops (fun _ => rfl) fun _ _ => remove_ledger
        · have unused : m.ledger (sha256 presented) =
              some ⟨record.familyId, record.userId, false⟩ := by
            simp [ledger, found, used]
          refine .rotates unused rfl ?_
          intro h r live
          rcases issue_ledger live with here | ⟨-, live⟩
          · exact Or.inl here
          · rcases retire_ledger live with here | other
            · exact Or.inr (Or.inl here)
            · exact Or.inr (Or.inr other)

/-- The in-memory store refines the ledger. -/
theorem refinesLedger (sha256 : String → String) (ttl : RefreshTtl) :
    RefinesLedger (inMemorySessionStore sha256 ttl) sha256 ledger where
  step c call := by
    cases call with
    | createSession userId familyId token =>
        refine .opens rfl ?_
        intro h r live
        rcases issue_ledger live with here | ⟨-, old⟩
        · exact Or.inr here
        · exact Or.inl old
    | rotate presented newToken => exact rotate_step sha256 ttl c.now presented newToken c.store
    | revoke presented =>
        refine .drops (fun _ => rfl) ?_
        intro h r live
        simp only [SessionStore.step, inMemorySessionStore, revoke] at live
        split at live
        · exact live
        · exact revokeFamily_ledger live
    | revokeUser userId => exact .drops (fun _ => rfl) fun _ _ => revokeFamilies_ledger
    | elapse ms => exact .drops (fun _ => rfl) fun _ _ live => live

end InMemorySessions

end Arac.Sessions
