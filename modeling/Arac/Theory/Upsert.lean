/-
# Arac.Theory.Upsert -- update the row with a key, or add one

`upsert` rewrites the row with the key when there is one, and adds a row when there is
none.  `Carries P` says that there is a row with the key and that it satisfies `P`.

* `upsert_carries`: an upsert brings this about.
* `Carries.map`, `Carries.upsert`: rewriting other columns, and upserting other keys,
  keep it.
* `upsert_idle`: where the rewriting has nothing to change, an upsert changes nothing.
* `run_forM_upserts`: a loop of upserts under different keys brings each about.
-/
import Arac.Theory.Async
import Mathlib.Data.List.Nodup

namespace Arac.Theory

set_option autoImplicit false

variable {ρ κ : Type}

/-- There is a row with the key, and it satisfies `P`. -/
def Carries (key : ρ → κ) (k : κ) (P : ρ → Prop) (rows : List ρ) : Prop :=
  ∃ r ∈ rows, key r = k ∧ P r

variable {key : ρ → κ} {k k' : κ} {rows : List ρ} {P : ρ → Prop}

theorem Carries.mem (carries : Carries key k P rows) : k ∈ rows.map key := by
  obtain ⟨r, r_row, rfl, -⟩ := carries
  exact List.mem_map_of_mem r_row

theorem Carries.mono {Q : ρ → Prop} (carries : Carries key k P rows) (weaker : ∀ r, P r → Q r) :
    Carries key k Q rows := by
  obtain ⟨r, r_row, same, holds⟩ := carries
  exact ⟨r, r_row, same, weaker r holds⟩

/-- Where keys are unique, the row with the key satisfies `P`. -/
theorem Carries.all (carries : Carries key k P rows) (unique : (rows.map key).Nodup) {r : ρ}
    (r_row : r ∈ rows) (same : key r = k) : P r := by
  obtain ⟨r', r'_row, same', holds⟩ := carries
  rwa [List.inj_on_of_nodup_map unique r_row r'_row (same.trans same'.symm)]

/-- Rewriting rows keeps what it keeps of each row. -/
theorem Carries.map (carries : Carries key k P rows) {g : ρ → ρ} (keys : ∀ r, key (g r) = key r)
    (keeps : ∀ r, key r = k → P r → P (g r)) : Carries key k P (rows.map g) := by
  obtain ⟨r, r_row, same, holds⟩ := carries
  exact ⟨g r, List.mem_map_of_mem r_row, (keys r).trans same, keeps r same holds⟩

theorem Carries.append (carries : Carries key k P rows) (more : List ρ) :
    Carries key k P (rows ++ more) := by
  obtain ⟨r, r_row, same⟩ := carries
  exact ⟨r, List.mem_append_left more r_row, same⟩

variable [DecidableEq κ]

/-- Rewrite the row with the key, or add a row. -/
def upsert (key : ρ → κ) (k : κ) (f : ρ → ρ) (row : ρ) (rows : List ρ) : List ρ :=
  if k ∈ rows.map key then rows.map fun r => if key r = k then f r else r else rows ++ [row]

variable {f : ρ → ρ} {row : ρ}

theorem upsert_of_mem (there : k ∈ rows.map key) :
    upsert key k f row rows = rows.map fun r => if key r = k then f r else r := if_pos there

theorem upsert_of_not_mem (absent : k ∉ rows.map key) :
    upsert key k f row rows = rows ++ [row] := if_neg absent

/-- What rewriting keeps and a new row has, all rows have after an upsert. -/
theorem upsert_forall {Q : ρ → Prop} (rewritten : ∀ r, key r = k → Q r → Q (f r))
    (added : k ∉ rows.map key → Q row) (all : ∀ r ∈ rows, Q r) :
    ∀ r ∈ upsert key k f row rows, Q r := by
  unfold upsert
  split
  · intro r member
    obtain ⟨r', r'_row, rfl⟩ := List.mem_map.mp member
    split
    · rename_i here
      exact rewritten r' here (all r' r'_row)
    · exact all r' r'_row
  · rename_i absent
    intro r member
    rcases List.mem_append.mp member with old | new
    · exact all r old
    · exact List.mem_singleton.mp new ▸ added absent

/-- An upsert keeps what its rewriting keeps of a row with its key. -/
theorem Carries.upsert (carries : Carries key k' P rows) (keys : ∀ r, key (f r) = key r)
    (keeps : k' = k → ∀ r, P r → P (f r)) : Carries key k' P (upsert key k f row rows) := by
  unfold Theory.upsert
  split
  · refine carries.map (fun r => ?_) fun r same holds => ?_
    · split
      · exact keys r
      · rfl
    · split
      · rename_i here
        exact keeps (same.symm.trans here) r holds
      · exact holds
  · exact carries.append [row]

/-- After an upsert the row with the key is a rewritten one or the new one. -/
theorem upsert_carries (keys : ∀ r, key (f r) = key r) (rewritten : ∀ r, P (f r))
    (new : key row = k) (added : P row) : Carries key k P (upsert key k f row rows) := by
  unfold upsert
  split
  · rename_i there
    obtain ⟨r, r_row, same⟩ := List.mem_map.mp there
    refine ⟨f r, List.mem_map.mpr ⟨r, r_row, if_pos same⟩, (keys r).trans same, rewritten r⟩
  · exact ⟨row, List.mem_append_right rows (List.mem_singleton.mpr rfl), new, added⟩

/-- An upsert with nothing to change. -/
theorem upsert_idle (carries : Carries key k P rows) (unique : (rows.map key).Nodup)
    (fixed : ∀ r, key r = k → P r → f r = r) : upsert key k f row rows = rows := by
  rw [upsert_of_mem carries.mem]
  refine (List.map_congr_left fun r r_row => ?_).trans (List.map_id rows)
  split
  · rename_i same
    exact fixed r same (carries.all unique r_row same)
  · rfl

/-! ## Loops of upserts -/

/-- The rows have been upserted with a row that satisfies `P`. -/
def Upserts (key : ρ → κ) (k : κ) (P : ρ → Prop) (rows rows' : List ρ) : Prop :=
  ∃ (f : ρ → ρ) (row : ρ), (∀ r, key (f r) = key r) ∧ (∀ r, P (f r)) ∧ (key row = k ∧ P row) ∧
    rows' = upsert key k f row rows

namespace Upserts

variable {rows' : List ρ}

theorem of_eq (same : rows' = upsert key k f row rows) (keys : ∀ r, key (f r) = key r)
    (rewritten : ∀ r, P (f r)) (new : key row = k) (added : P row) : Upserts key k P rows rows' :=
  ⟨f, row, keys, rewritten, ⟨new, added⟩, same⟩

theorem carries (upserts : Upserts key k P rows rows') : Carries key k P rows' := by
  obtain ⟨f, row, keys, rewritten, ⟨new, added⟩, rfl⟩ := upserts
  exact upsert_carries keys rewritten new added

theorem keeps (upserts : Upserts key k P rows rows') {Q : ρ → Prop} (other : k' ≠ k)
    (carries : Carries key k' Q rows) : Carries key k' Q rows' := by
  obtain ⟨f, row, keys, -, -, rfl⟩ := upserts
  exact carries.upsert keys fun same => absurd same other

/-- Of rows under different keys, an upsert of one keeps the others. -/
theorem stays {β : Type} {l : List β} {k : β → κ} {P : β → ρ → Prop} {x : β}
    (distinct : ∀ y ∈ l, k y = k x → y = x) (upserts : Upserts key (k x) (P x) rows rows') {y : β}
    (listed : y ∈ l) (carries : Carries key (k y) (P y) rows) : Carries key (k y) (P y) rows' := by
  by_cases same : k y = k x
  · rw [distinct y listed same]
    exact upserts.carries
  · exact upserts.keeps same carries

end Upserts

theorem run_forM_upserts {σ ε β : Type} {l : List β} {f : β → Prog σ ε PUnit} {J : σ → Prop}
    (key : ρ → κ) (rows : σ → List ρ) {k : β → κ} {P : β → ρ → Prop}
    (distinct : ∀ x ∈ l, ∀ y ∈ l, k y = k x → y = x)
    (round : ∀ x ∈ l, ∀ s s', J s → (f x).run s = (.ok ⟨⟩, s') →
      J s' ∧ Upserts key (k x) (P x) (rows s) (rows s'))
    {s s' : σ} (start : J s) (ok : (l.forM f).run s = (.ok ⟨⟩, s')) :
    J s' ∧ ∀ x ∈ l, Carries key (k x) (P x) (rows s') := by
  refine Prog.run_forM_settles (Q := fun x s => Carries key (k x) (P x) (rows s)) ?_ start ok
  intro x listed s s' holds first
  obtain ⟨after, upserts⟩ := round x listed s s' holds first
  exact ⟨after, upserts.carries, fun y listed' => upserts.stays (distinct x listed) listed'⟩

end Arac.Theory
