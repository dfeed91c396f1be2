/-
# Arac.Theory.ExpiringMap -- a key-value store whose keys carry a deadline

A key maps to an `Entry`: a value and the instant at which the key vanishes
(`none` for a key without a deadline).  Time is not read by the commands.  It acts
through `elapse now`, which drops exactly the keys whose deadline is at or before
`now`; between two clock advances every present key is live.

The commands follow the store they are named after.  `hset` and `sadd` on a
present key keep its deadline and on an absent key create one without; `expireAt`
moves the deadline of a present key and does nothing to an absent one; `srem` of
the last member deletes the key.  Each command comes with one lemma that says what
is found at every key afterwards.
-/
import Arac.Theory.OrderedSet
import Mathlib.Tactic.Tauto
import Mathlib.Tactic.SplitIfs

namespace Arac.Theory

set_option autoImplicit false
set_option linter.unusedSectionVars false

/-- A stored value and the instant at which its key vanishes. -/
structure Entry (V : Type) where
  value : V
  deadline : Option Nat
  deriving DecidableEq

/-- An entry is live strictly before its deadline. -/
def Entry.liveAt {V : Type} (now : Nat) (e : Entry V) : Bool :=
  match e.deadline with
  | none => true
  | some t => decide (now < t)

def ExpiringMap (K V : Type) := K → Option (Entry V)

namespace ExpiringMap

variable {K V : Type} [DecidableEq K]

def empty : ExpiringMap K V := fun _ => none

/-- What a reader sees at a key. -/
def get (m : ExpiringMap K V) (k : K) : Option V := (m k).map Entry.value

/-- The clock reaches `now`: keys whose deadline has come are gone. -/
def elapse (now : Nat) (m : ExpiringMap K V) : ExpiringMap K V :=
  fun k => (m k).filter (Entry.liveAt now)

def put (m : ExpiringMap K V) (k : K) (e : Entry V) : ExpiringMap K V :=
  fun k' => if k' = k then some e else m k'

/-- `DEL key`. -/
def del (m : ExpiringMap K V) (k : K) : ExpiringMap K V :=
  fun k' => if k' = k then none else m k'

/-- `DEL` of every key of a list, one after the other. -/
def delAll (m : ExpiringMap K V) (ks : List K) : ExpiringMap K V := ks.foldl del m

/-- `HSET key` of a whole value: a present key keeps its deadline. -/
def hset (m : ExpiringMap K V) (k : K) (v : V) : ExpiringMap K V :=
  m.put k ⟨v, (m k).bind Entry.deadline⟩

/-- `HSET key` of some fields of a present value. -/
def update (m : ExpiringMap K V) (k : K) (f : V → V) : ExpiringMap K V :=
  match m k with
  | some e => m.put k { e with value := f e.value }
  | none => m

/-- `EXPIRE key`, with the deadline already computed. -/
def expireAt (m : ExpiringMap K V) (k : K) (t : Nat) : ExpiringMap K V :=
  match m k with
  | some e => m.put k { e with deadline := some t }
  | none => m

theorem elapse_eq_some {m : ExpiringMap K V} {now : Nat} {k : K} {e : Entry V} :
    m.elapse now k = some e ↔ m k = some e ∧ e.liveAt now = true := by
  simp [elapse, Option.filter_eq_some_iff]

@[simp] theorem put_self (m : ExpiringMap K V) (k : K) (e : Entry V) : m.put k e k = some e := by
  simp [put]

theorem put_ne {m : ExpiringMap K V} {k k' : K} {e : Entry V} (ne : k' ≠ k) :
    m.put k e k' = m k' := by simp [put, ne]

theorem put_eq_some {m : ExpiringMap K V} {k k' : K} {e e' : Entry V} :
    m.put k e k' = some e' ↔ (k' = k ∧ e' = e) ∨ (k' ≠ k ∧ m k' = some e') := by
  by_cases h : k' = k
  · subst h
    simp [eq_comm]
  · simp [put, h]

theorem put_eq_none {m : ExpiringMap K V} {k k' : K} {e : Entry V} :
    m.put k e k' = none ↔ k' ≠ k ∧ m k' = none := by
  by_cases h : k' = k <;> simp [put, h]

theorem put_put_eq_some {m : ExpiringMap K V} {j k k' : K} {d e e' : Entry V} :
    (m.put j d).put k e k' = some e' ↔
      (k' = k ∧ e' = e) ∨ (k' ≠ k ∧ k' = j ∧ e' = d) ∨ (k' ≠ k ∧ k' ≠ j ∧ m k' = some e') := by
  rw [put_eq_some, put_eq_some]
  tauto

@[simp] theorem del_self (m : ExpiringMap K V) (k : K) : m.del k k = none := by simp [del]

theorem del_ne {m : ExpiringMap K V} {k k' : K} (ne : k' ≠ k) : m.del k k' = m k' := by
  simp [del, ne]

theorem del_eq_some {m : ExpiringMap K V} {k k' : K} {e : Entry V} :
    m.del k k' = some e ↔ k' ≠ k ∧ m k' = some e := by
  by_cases h : k' = k <;> simp [del, h]

theorem delAll_eq_some {m : ExpiringMap K V} {ks : List K} {k : K} {e : Entry V} :
    m.delAll ks k = some e ↔ k ∉ ks ∧ m k = some e := by
  induction ks generalizing m with
  | nil => simp [delAll]
  | cons a ks ih =>
      have step : m.delAll (a :: ks) = (m.del a).delAll ks := rfl
      rw [step, ih, del_eq_some, List.mem_cons, not_or]
      tauto

/-- `HSET` then `EXPIRE` of one key leaves exactly that value and deadline. -/
theorem hset_expireAt (m : ExpiringMap K V) (k : K) (v : V) (t : Nat) :
    (m.hset k v).expireAt k t = m.put k ⟨v, some t⟩ := by
  funext k'
  by_cases h : k' = k <;> simp [hset, expireAt, put, h]

/-- `HSET` of some fields changes the value at one present key and nothing else. -/
theorem update_of_some {m : ExpiringMap K V} {k : K} {e : Entry V} (f : V → V)
    (found : m k = some e) : m.update k f = m.put k { e with value := f e.value } := by
  simp [update, found]

/-- Every key vanishes, at `t` or before. -/
def Within (m : ExpiringMap K V) (t : Nat) : Prop :=
  ∀ k e, m k = some e → ∃ d, e.deadline = some d ∧ d ≤ t

namespace Within

variable {m : ExpiringMap K V} {t t' now : Nat}

theorem empty (t : Nat) : Within (ExpiringMap.empty : ExpiringMap K V) t := nofun

theorem mono (within : Within m t) (le : t ≤ t') : Within m t' := by
  intro k e found
  obtain ⟨d, deadline, before⟩ := within k e found
  exact ⟨d, deadline, Nat.le_trans before le⟩

/-- Keys that keep their deadlines. -/
theorem kept {m' : ExpiringMap K V} (within : Within m t)
    (same : ∀ k e', m' k = some e' → ∃ e, m k = some e ∧ e'.deadline = e.deadline) : Within m' t := by
  intro k e' found
  obtain ⟨e, old, deadline⟩ := same k e' found
  rw [deadline]
  exact within k e old

theorem put (within : Within m t) (k : K) (v : V) {d : Nat} (before : d ≤ t) :
    Within (m.put k ⟨v, some d⟩) t := by
  intro k' e found
  rcases put_eq_some.mp found with ⟨-, rfl⟩ | ⟨-, old⟩
  · exact ⟨d, rfl, before⟩
  · exact within k' e old

theorem del (within : Within m t) (k : K) : Within (m.del k) t :=
  within.kept fun _ e found => ⟨e, (del_eq_some.mp found).2, rfl⟩

theorem elapse (within : Within m t) : Within (m.elapse now) t :=
  within.kept fun _ e found => ⟨e, (elapse_eq_some.mp found).1, rfl⟩

/-- Nothing is left when the time has come. -/
theorem elapse_eq_empty (within : Within m t) (come : t ≤ now) : m.elapse now = .empty := by
  funext k
  cases found : m.elapse now k with
  | none => rfl
  | some e =>
      obtain ⟨old, live⟩ := elapse_eq_some.mp found
      obtain ⟨d, deadline, before⟩ := within k e old
      simp only [Entry.liveAt, deadline, decide_eq_true_eq] at live
      omega

end Within

section Sets

variable {α : Type} [DecidableEq α]

/-- `SADD key member`. -/
def sadd (m : ExpiringMap K (OrderedSet α)) (k : K) (a : α) : ExpiringMap K (OrderedSet α) :=
  match m k with
  | some e => m.put k { e with value := e.value.add a }
  | none => m.put k ⟨OrderedSet.empty.add a, none⟩

/-- `SREM key member`: an emptied set is deleted. -/
def srem (m : ExpiringMap K (OrderedSet α)) (k : K) (a : α) : ExpiringMap K (OrderedSet α) :=
  match m k with
  | some e =>
      if (e.value.erase a).toList = [] then m.del k
      else m.put k { e with value := e.value.erase a }
  | none => m

/-- `SMEMBERS key`; an absent key is the empty set. -/
def smembers (m : ExpiringMap K (OrderedSet α)) (k : K) : List α :=
  match m k with
  | some e => e.value.toList
  | none => []

theorem mem_smembers {m : ExpiringMap K (OrderedSet α)} {k : K} {a : α} :
    a ∈ m.smembers k ↔ ∃ e, m k = some e ∧ a ∈ e.value := by
  unfold smembers
  cases m k <;> simp

/-- `SADD` then `EXPIRE` of one key: the deadline is the new one, and the members
are the old ones with the added one. -/
theorem sadd_expireAt_self (m : ExpiringMap K (OrderedSet α)) (k : K) (a : α) (t : Nat) :
    ∃ s : OrderedSet α, (m.sadd k a).expireAt k t = m.put k ⟨s, some t⟩ ∧
      ∀ b, b ∈ s ↔ b ∈ m.smembers k ∨ b = a := by
  cases found : m k with
  | none =>
      refine ⟨OrderedSet.empty.add a, ?_, fun b => by simp [smembers, found]⟩
      funext k'
      by_cases h : k' = k <;> simp [sadd, expireAt, put, found, h]
  | some e =>
      refine ⟨e.value.add a, ?_, fun b => by simp [smembers, found]⟩
      funext k'
      by_cases h : k' = k <;> simp [sadd, expireAt, put, found, h]

theorem srem_eq_some {m : ExpiringMap K (OrderedSet α)} {k k' : K} {a : α}
    {e' : Entry (OrderedSet α)} (found : m.srem k a k' = some e') :
    ∃ e, m k' = some e ∧ e'.deadline = e.deadline := by
  unfold srem at found
  cases at_k : m k with
  | none =>
      simp only [at_k] at found
      exact ⟨e', found, rfl⟩
  | some e =>
      simp only [at_k] at found
      split at found
      · exact ⟨e', (del_eq_some.mp found).2, rfl⟩
      · rcases put_eq_some.mp found with ⟨rfl, rfl⟩ | ⟨-, old⟩
        · exact ⟨e, at_k, rfl⟩
        · exact ⟨e', old, rfl⟩

/-- `SREM` takes one member out of one set. -/
theorem mem_smembers_srem {m : ExpiringMap K (OrderedSet α)} {k k' : K} {a b : α} :
    b ∈ (m.srem k a).smembers k' ↔ b ∈ m.smembers k' ∧ ¬ (k' = k ∧ b = a) := by
  unfold srem smembers
  cases at_k : m k with
  | none =>
      simp only
      constructor
      · intro member
        refine ⟨member, ?_⟩
        rintro ⟨rfl, -⟩
        simp [at_k] at member
      · exact And.left
  | some e =>
      simp only
      by_cases same : k' = k
      · subst same
        split_ifs with emptied
        · have gone : b ∉ e.value.erase a := OrderedSet.toList_eq_nil_iff.mp emptied b
          rw [OrderedSet.mem_erase] at gone
          simp only [del_self, at_k, OrderedSet.mem_toList, List.not_mem_nil, true_and, false_iff]
          exact gone
        · simp only [put_self, at_k, OrderedSet.mem_toList, OrderedSet.mem_erase, true_and]
      · split_ifs
        · simp [del_ne same, same]
        · simp [put_ne same, same]

theorem mem_smembers_del {m : ExpiringMap K (OrderedSet α)} {k k' : K} {b : α} :
    b ∈ (m.del k).smembers k' ↔ k' ≠ k ∧ b ∈ m.smembers k' := by
  simp only [mem_smembers, del_eq_some, and_assoc, exists_and_left]

theorem mem_smembers_put {m : ExpiringMap K (OrderedSet α)} {k k' : K}
    {e : Entry (OrderedSet α)} {b : α} :
    b ∈ (m.put k e).smembers k' ↔ (k' = k ∧ b ∈ e.value) ∨ (k' ≠ k ∧ b ∈ m.smembers k') := by
  by_cases same : k' = k
  · subst same
    simp [smembers]
  · simp [smembers, put_ne same, same]

end Sets

end ExpiringMap

end Arac.Theory
