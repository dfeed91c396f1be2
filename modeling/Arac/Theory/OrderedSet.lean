/-
# Arac.Theory.OrderedSet -- sets that remember insertion order

A duplicate-free list under the operations of a set: `add` appends a new element
and ignores a present one, `erase` drops one, `addAll` adds a list left to right.
The list is the order of first insertion, so a program that iterates over such a
set and the order in which it emits results can be followed exactly.  Freedom from
duplicates is a field: every operation carries its own proof of it.
-/
import Mathlib.Data.List.Nodup
import Mathlib.Data.List.Perm.Subperm

namespace Arac.Theory

set_option autoImplicit false

structure OrderedSet (α : Type) where
  toList : List α
  nodup : toList.Nodup
  deriving DecidableEq

namespace OrderedSet

variable {α : Type} [DecidableEq α]

instance : Membership α (OrderedSet α) := ⟨fun s a => a ∈ s.toList⟩

instance (a : α) (s : OrderedSet α) : Decidable (a ∈ s) :=
  inferInstanceAs (Decidable (a ∈ s.toList))

omit [DecidableEq α] in
@[simp] theorem mem_toList {a : α} {s : OrderedSet α} : a ∈ s.toList ↔ a ∈ s := Iff.rfl

def empty : OrderedSet α := ⟨[], List.nodup_nil⟩

def add (s : OrderedSet α) (a : α) : OrderedSet α :=
  if h : a ∈ s.toList then s
  else ⟨s.toList ++ [a], List.nodup_append.mpr ⟨s.nodup, List.nodup_singleton a, by
    rintro x hx y hy rfl
    exact h (List.mem_singleton.mp hy ▸ hx)⟩⟩

def addAll (s : OrderedSet α) (as : List α) : OrderedSet α := as.foldl add s

def erase (s : OrderedSet α) (a : α) : OrderedSet α :=
  ⟨s.toList.filter (· ≠ a), s.nodup.filter _⟩

omit [DecidableEq α] in
@[simp] theorem not_mem_empty (a : α) : a ∉ (empty : OrderedSet α) := List.not_mem_nil

@[simp] theorem mem_add {s : OrderedSet α} {a b : α} : b ∈ s.add a ↔ b ∈ s ∨ b = a := by
  unfold add
  split
  · rename_i present
    constructor
    · exact Or.inl
    · rintro (h | rfl)
      · exact h
      · exact present
  · rw [← mem_toList, ← mem_toList, List.mem_append, List.mem_singleton]

@[simp] theorem mem_addAll {s : OrderedSet α} {as : List α} {b : α} :
    b ∈ s.addAll as ↔ b ∈ s ∨ b ∈ as := by
  induction as generalizing s with
  | nil => simp [addAll]
  | cons a as ih =>
      have step : s.addAll (a :: as) = (s.add a).addAll as := rfl
      rw [step, ih, mem_add, List.mem_cons, or_assoc]

@[simp] theorem mem_erase {s : OrderedSet α} {a b : α} : b ∈ s.erase a ↔ b ∈ s ∧ b ≠ a := by
  rw [← mem_toList, ← mem_toList, erase, List.mem_filter, decide_eq_true_eq]

omit [DecidableEq α] in
/-- A fold of fallible insertions: when every step adds what `P` says, the whole
adds what `P` says of some element. -/
theorem mem_foldlM {β ε : Type} {f : OrderedSet α → β → Except ε (OrderedSet α)}
    {P : β → α → Prop} {bs : List β} {s s' : OrderedSet α}
    (step : ∀ b ∈ bs, ∀ s s', f s b = .ok s' → ∀ a, a ∈ s' ↔ a ∈ s ∨ P b a)
    (ok : bs.foldlM f s = .ok s') (a : α) : a ∈ s' ↔ a ∈ s ∨ ∃ b ∈ bs, P b a := by
  induction bs generalizing s with
  | nil =>
      cases ok
      simp
  | cons b bs ih =>
      rw [List.foldlM_cons] at ok
      cases first : f s b with
      | error e =>
          rw [first] at ok
          cases ok
      | ok between =>
          rw [first] at ok
          rw [ih (fun c later => step c (List.mem_cons_of_mem b later)) ok,
            step b List.mem_cons_self s between first, List.exists_mem_cons_iff, or_assoc]

omit [DecidableEq α] in
/-- A fold succeeds when every step does. -/
theorem foldlM_total {β ε : Type} {f : OrderedSet α → β → Except ε (OrderedSet α)} {bs : List β}
    (step : ∀ b ∈ bs, ∀ s, ∃ s', f s b = .ok s') (s : OrderedSet α) :
    ∃ s', bs.foldlM f s = .ok s' := by
  induction bs generalizing s with
  | nil => exact ⟨s, rfl⟩
  | cons b bs ih =>
      obtain ⟨between, first⟩ := step b List.mem_cons_self s
      obtain ⟨s', rest⟩ := ih (fun c later => step c (List.mem_cons_of_mem b later)) between
      refine ⟨s', ?_⟩
      rw [List.foldlM_cons, first]
      exact rest

omit [DecidableEq α] in
/-- A fold whose every success another step function repeats. -/
theorem foldlM_mono {β ε : Type} {f g : OrderedSet α → β → Except ε (OrderedSet α)} {bs : List β}
    {s s' : OrderedSet α} (step : ∀ b ∈ bs, ∀ s s', f s b = .ok s' → g s b = .ok s')
    (ok : bs.foldlM f s = .ok s') : bs.foldlM g s = .ok s' := by
  induction bs generalizing s with
  | nil => exact ok
  | cons b bs ih =>
      rw [List.foldlM_cons] at ok ⊢
      cases first : f s b with
      | error e =>
          rw [first] at ok
          cases ok
      | ok between =>
          rw [first] at ok
          rw [step b List.mem_cons_self s between first]
          exact ih (fun c later => step c (List.mem_cons_of_mem b later)) ok

omit [DecidableEq α] in
theorem toList_eq_nil_iff {s : OrderedSet α} : s.toList = [] ↔ ∀ a, a ∉ s :=
  List.eq_nil_iff_forall_not_mem

/-- Rows were found for wanted keys, one for each key at most: there are as many rows as
distinct keys exactly when every key was found. -/
theorem length_eq_addAll_iff {ρ : Type} {key : ρ → α} {rows : List ρ} {wanted : List α}
    (nodup : (rows.map key).Nodup) (among : ∀ row ∈ rows, key row ∈ wanted) :
    rows.length = ((empty : OrderedSet α).addAll wanted).toList.length ↔
      ∀ k ∈ wanted, ∃ row ∈ rows, key row = k := by
  have members : ∀ k, k ∈ ((empty : OrderedSet α).addAll wanted).toList ↔ k ∈ wanted := by simp
  have subset : rows.map key ⊆ ((empty : OrderedSet α).addAll wanted).toList := by
    intro k listed
    obtain ⟨row, member, rfl⟩ := List.mem_map.mp listed
    exact (members _).mpr (among row member)
  have counted : rows.length = (rows.map key).length := List.length_map key |>.symm
  rw [counted]
  constructor
  · intro count k member
    have same := (List.subperm_of_subset nodup subset).perm_of_length_le (Nat.le_of_eq count.symm)
    exact List.mem_map.mp (same.mem_iff.mpr ((members k).mpr member))
  · intro all
    have same : (rows.map key).Perm ((empty : OrderedSet α).addAll wanted).toList :=
      (List.perm_ext_iff_of_nodup nodup (OrderedSet.nodup _)).mpr fun k =>
        ⟨fun listed => subset listed, fun member => List.mem_map.mpr (all k ((members k).mp member))⟩
    exact same.length_eq

end OrderedSet

end Arac.Theory
