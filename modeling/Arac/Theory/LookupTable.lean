/-
# Arac.Theory.LookupTable -- maps built from a list of rows

A program that loads rows and indexes them builds a map by setting `key row` to
`val row` for each row in turn, so a later row with the same key wins
(`lookupTable`).  When rows with one key agree on their value the order of the
rows is immaterial: `lookupTable_eq_some` characterises the map by membership
alone.  `groupTable` is the map from a key to the list of the values filed under
it, in row order.
-/
import Mathlib.Logic.Function.Basic
import Mathlib.Data.List.AList
import Mathlib.Data.List.Nodup
import Mathlib.Data.List.Induction

namespace Arac.Theory

set_option autoImplicit false

variable {ρ κ ν : Type} [DecidableEq κ]

/-- Set `key row ↦ val row` for each row in turn. -/
def lookupTable (key : ρ → κ) (val : ρ → ν) (rows : List ρ) : κ → Option ν :=
  rows.foldl (fun table row => Function.update table (key row) (some (val row))) fun _ => none

theorem lookupTable_foldl (key : ρ → κ) (val : ρ → ν) (rows : List ρ) (table : κ → Option ν)
    (k : κ) : rows.foldl (fun t row => Function.update t (key row) (some (val row))) table k =
      (lookupTable key val rows k).or (table k) := by
  unfold lookupTable
  induction rows using List.reverseRecOn with
  | nil => rfl
  | append_singleton rows row ih =>
      simp only [List.foldl_append, List.foldl_cons, List.foldl_nil]
      by_cases h : k = key row
      · subst h
        simp only [Function.update_self, Option.some_or]
      · simp only [Function.update_of_ne h, ih]

theorem lookupTable_cons (key : ρ → κ) (val : ρ → ν) (row : ρ) (rows : List ρ) (k : κ) :
    lookupTable key val (row :: rows) k =
      (lookupTable key val rows k).or (if k = key row then some (val row) else none) := by
  have := lookupTable_foldl key val rows (Function.update (fun _ => none) (key row) (some (val row))) k
  rw [lookupTable, List.foldl_cons, this, Function.update_apply]

/-- A present key was set by some row, and every row's key is present. -/
theorem lookupTable_eq_none {key : ρ → κ} {val : ρ → ν} {rows : List ρ} {k : κ} :
    lookupTable key val rows k = none ↔ ∀ row ∈ rows, key row ≠ k := by
  induction rows with
  | nil => simp [lookupTable]
  | cons row rows ih =>
      rw [lookupTable_cons, Option.or_eq_none_iff, ih, List.forall_mem_cons]
      by_cases h : k = key row
      · simp [h]
      · simp [h, Ne.symm h]

theorem exists_row_of_lookupTable {key : ρ → κ} {val : ρ → ν} {rows : List ρ} {k : κ} {v : ν}
    (found : lookupTable key val rows k = some v) : ∃ row ∈ rows, key row = k ∧ val row = v := by
  induction rows with
  | nil => simp [lookupTable] at found
  | cons row rows ih =>
      rw [lookupTable_cons, Option.or_eq_some_iff] at found
      rcases found with later | ⟨-, here⟩
      · obtain ⟨row', member, same⟩ := ih later
        exact ⟨row', List.mem_cons_of_mem row member, same⟩
      · split at here
        · rename_i h
          exact ⟨row, List.mem_cons_self, h.symm, Option.some.inj here⟩
        · cases here

/-- When rows with one key agree on the value, the map is the set of rows. -/
theorem lookupTable_eq_some {key : ρ → κ} {val : ρ → ν} {rows : List ρ}
    (agree : ∀ a ∈ rows, ∀ b ∈ rows, key a = key b → val a = val b) {k : κ} {v : ν} :
    lookupTable key val rows k = some v ↔ ∃ row ∈ rows, key row = k ∧ val row = v := by
  constructor
  · exact exists_row_of_lookupTable
  · rintro ⟨row, member, rfl, rfl⟩
    cases found : lookupTable key val rows (key row) with
    | none => exact absurd rfl (lookupTable_eq_none.mp found row member)
    | some v =>
        obtain ⟨row', member', sameKey, rfl⟩ := exists_row_of_lookupTable found
        rw [agree row' member' row member sameKey]

/-- Rows of a table with a key: an index of the rows by their key. -/
theorem lookupTable_id_eq_some {key : ρ → κ} {rows : List ρ} (nodup : (rows.map key).Nodup)
    {k : κ} {row : ρ} :
    lookupTable key id rows k = some row ↔ row ∈ rows ∧ key row = k := by
  have agree : ∀ a ∈ rows, ∀ b ∈ rows, key a = key b → id a = id b :=
    fun a ha b hb same => List.inj_on_of_nodup_map nodup ha hb same
  rw [lookupTable_eq_some agree]
  constructor
  · rintro ⟨row', member, same, rfl⟩
    exact ⟨member, same⟩
  · rintro ⟨member, same⟩
    exact ⟨row, member, same, rfl⟩

/-- Looking every element up: what was found. -/
theorem mem_of_mapM {α β : Type} {f : α → Option β} {xs : List α} {ys : List β}
    (found : xs.mapM f = some ys) : (∀ y, y ∈ ys ↔ ∃ x ∈ xs, f x = some y) ∧ (ys = [] ↔ xs = []) := by
  induction xs generalizing ys with
  | nil =>
      cases found
      simp
  | cons x xs ih =>
      rw [List.mapM_cons] at found
      obtain ⟨y, here, rest⟩ := Option.bind_eq_some_iff.mp found
      obtain ⟨zs, later, same⟩ := Option.bind_eq_some_iff.mp rest
      cases same
      obtain ⟨members, -⟩ := ih later
      refine ⟨?_, by simp⟩
      intro z
      rw [List.mem_cons, members, List.exists_mem_cons_iff, here]
      exact or_congr_left ⟨fun same => congrArg some same.symm, fun same => (Option.some.inj same).symm⟩

/-- Looking every element up, when each is found. -/
theorem mapM_eq_map {α β : Type} {f : α → Option β} {g : α → β} {xs : List α}
    (each : ∀ x ∈ xs, f x = some (g x)) : xs.mapM f = some (xs.map g) := by
  induction xs with
  | nil => rfl
  | cons x xs ih =>
      rw [List.mapM_cons, each x List.mem_cons_self, ih fun y later => each y (List.mem_cons_of_mem x later)]
      rfl

/-- Looking every element up succeeds when each is found. -/
theorem exists_mapM_iff {α β : Type} {f : α → Option β} {xs : List α} :
    (∃ ys, xs.mapM f = some ys) ↔ ∀ x ∈ xs, ∃ y, f x = some y := by
  induction xs with
  | nil => exact ⟨fun _ _ listed => absurd listed List.not_mem_nil, fun _ => ⟨[], rfl⟩⟩
  | cons x xs ih =>
      rw [List.forall_mem_cons, ← ih, List.mapM_cons]
      constructor
      · rintro ⟨ys, found⟩
        obtain ⟨y, here, rest⟩ := Option.bind_eq_some_iff.mp found
        obtain ⟨zs, later, -⟩ := Option.bind_eq_some_iff.mp rest
        exact ⟨⟨y, here⟩, zs, later⟩
      · rintro ⟨⟨y, here⟩, zs, later⟩
        exact ⟨y :: zs, by rw [here, later]; rfl⟩

omit [DecidableEq κ] in
/-- Looking a row up by its key and a condition. -/
theorem find?_keyed_eq_some {key : ρ → κ} {rows : List ρ} (nodup : (rows.map key).Nodup)
    {p : ρ → Bool} {q : ρ → Prop} {k : κ} (tests : ∀ row, p row = true ↔ key row = k ∧ q row)
    {row : ρ} : rows.find? p = some row ↔ row ∈ rows ∧ key row = k ∧ q row := by
  constructor
  · intro found
    exact ⟨List.mem_of_find?_eq_some found, (tests row).mp (List.find?_some found)⟩
  · rintro ⟨member, same⟩
    cases found : rows.find? p with
    | none => exact absurd ((tests row).mpr same) (List.find?_eq_none.mp found row member)
    | some other =>
        have agree := ((tests other).mp (List.find?_some found)).1
        rw [List.inj_on_of_nodup_map nodup (List.mem_of_find?_eq_some found) member
          (agree.trans same.1.symm)]

omit [DecidableEq κ] in
/-- Looking a row up by its key. -/
theorem find?_key_eq_some {key : ρ → κ} {rows : List ρ} (nodup : (rows.map key).Nodup)
    {p : ρ → Bool} {k : κ} (tests : ∀ row, p row = true ↔ key row = k) {row : ρ} :
    rows.find? p = some row ↔ row ∈ rows ∧ key row = k := by
  rw [find?_keyed_eq_some (q := fun _ => True) nodup fun row => by rw [tests, and_true], and_true]

/-- Append `val row` to the list filed under `key row`, for each row that has a key. -/
def groupTable (key : ρ → Option κ) (val : ρ → ν) (rows : List ρ) : κ → List ν :=
  rows.foldl (fun table row => match key row with
    | some k => Function.update table k (table k ++ [val row])
    | none => table) fun _ => []

theorem groupTable_eq (key : ρ → Option κ) (val : ρ → ν) (rows : List ρ) (k : κ) :
    groupTable key val rows k = (rows.filter fun row => key row = some k).map val := by
  unfold groupTable
  induction rows using List.reverseRecOn with
  | nil => rfl
  | append_singleton rows row ih =>
      simp only [List.foldl_append, List.foldl_cons, List.foldl_nil, List.filter_append,
        List.map_append]
      cases found : key row with
      | none => simp [ih, found]
      | some k' =>
          by_cases same : k = k'
          · subst same
            simp [ih, found]
          · have ne : ¬ k' = k := fun h => same h.symm
            simp [Function.update_of_ne same, ih, found, ne]

/-- Replacing the value of a key, where it has one. -/
theorem lookup_replace {V : Type} (a a' : κ) (b : V) (s : AList fun _ : κ => V) :
    (s.replace a b).lookup a' = if a' = a then (s.lookup a').map fun _ => b else s.lookup a' := by
  obtain ⟨entries, nodup⟩ := s
  simp only [AList.replace, AList.lookup]
  clear nodup
  induction entries with
  | nil => split <;> rfl
  | cons entry entries ih =>
      obtain ⟨k, v⟩ := entry
      by_cases here : a = k
      · subst here
        have replaced : List.kreplace a b (⟨a, v⟩ :: entries) =
            (⟨a, b⟩ : Sigma fun _ : κ => V) :: entries := by
          simp [List.kreplace]
        rw [replaced]
        by_cases same : a' = a
        · subst same
          simp
        · have past : ∀ v : V, a' ≠ (⟨a, v⟩ : Sigma fun _ : κ => V).1 := fun _ => same
          rw [if_neg same, List.dlookup_cons_ne _ _ (past b), List.dlookup_cons_ne _ _ (past v)]
      · have kept : List.kreplace a b (⟨k, v⟩ :: entries) =
            (⟨k, v⟩ : Sigma fun _ : κ => V) :: List.kreplace a b entries := by
          simp [List.kreplace, here]
        rw [kept]
        by_cases same : a' = k
        · subst same
          simp [Ne.symm here]
        · have past : a' ≠ (⟨k, v⟩ : Sigma fun _ : κ => V).1 := same
          rw [List.dlookup_cons_ne _ _ past, ih, List.dlookup_cons_ne _ _ past]

end Arac.Theory
