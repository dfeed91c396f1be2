/-
# Arac.Theory.ReadCommitted -- a table under READ COMMITTED

A `Table` keeps the versions of its rows with the transaction that created each of
them and the one that deleted it.  A statement has a beginning and an end: `DELETE`
sees, at its beginning, the rows that are committed by then, or its own; it ends once
no row it is about to delete is being deleted by a running transaction, and skips
those that were deleted meanwhile.  `INSERT` ends once no row with one of its keys is
in doubt, and violates the key where such a row is there.  `blocked` says which
transactions have to wait.

`replaceAll` deletes all rows that satisfy `p` and inserts new ones, in one
transaction; `replaceAll_ofRows` is its effect when nobody else is there.  `TxMove` is
one of its steps and `Replacing` the invariant of two at the same time: `mem_live_iff`
says what is left when both have committed, and `replaced_iff` when that is what one of
them has written.
-/
import Arac.Theory.Interleaving

namespace Arac.Theory

set_option autoImplicit false

inductive TxStatus where
  | idle
  | running
  | committed
  | aborted
  deriving DecidableEq

/-- A version of a row. -/
structure Version (ι ρ : Type) where
  row : ρ
  /-- `none` for a row of old. -/
  creator : Option ι
  deleter : Option ι
  /-- The transactions with a `DELETE` under way that is about to delete it. -/
  target : ι → Bool

structure Table (ι ρ : Type) where
  versions : List (Version ι ρ)
  status : ι → TxStatus
  /-- The rows of an `INSERT` that is under way. -/
  inserting : ι → List ρ

namespace Table

variable {ι ρ κ : Type}

/-- A table that nobody is using. -/
def ofRows (rows : List ρ) : Table ι ρ where
  versions := rows.map fun row => ⟨row, none, none, fun _ => false⟩
  status _ := .idle
  inserting _ := []

section

variable (t : Table ι ρ)

def committed (i : Option ι) : Bool := i.any fun i => t.status i = .committed

/-- The version is part of what is committed. -/
def isLive (v : Version ι ρ) : Bool :=
  (v.creator = none || t.committed v.creator) && !t.committed v.deleter

/-- The committed rows. -/
def live : List ρ := (t.versions.filter t.isLive).map Version.row

variable [DecidableEq ι]

/-- What the transaction sees: committed rows, and its own. -/
def visible (i : ι) (v : Version ι ρ) : Bool :=
  (v.creator = none || t.committed v.creator || v.creator = some i) &&
    !(t.committed v.deleter || v.deleter = some i)

/-- Another transaction, still running, has created or deleted the version. -/
def pendingFor (i : ι) (who : Option ι) : Bool :=
  who.any fun j => j ≠ i && t.status j = .running

/-! ## Statements -/

/-- `DELETE WHERE p` begins. -/
def beginDelete (i : ι) (p : ρ → Bool) : Table ι ρ :=
  { t with
    versions := t.versions.map fun v =>
      { v with target := Function.update v.target i (p v.row && t.visible i v) }
    status := Function.update t.status i .running }

/-- It ends: a row that was deleted meanwhile is skipped. -/
def finishDelete (i : ι) : Table ι ρ :=
  { t with
    versions := t.versions.map fun v =>
      { v with
        deleter := if v.target i && !t.committed v.deleter then some i else v.deleter
        target := Function.update v.target i false } }

/-- `INSERT` of some rows begins. -/
def beginInsert (i : ι) (rows : List ρ) : Table ι ρ :=
  { t with inserting := Function.update t.inserting i rows }

variable [DecidableEq κ] (key : ρ → κ)

/-- One of the rows to insert has the key of another, or of a row that is there. -/
def violates (i : ι) : Bool :=
  ¬ ((t.inserting i).map key).Nodup ||
    t.versions.any fun v => (t.inserting i).any fun r => key v.row = key r && t.visible i v

/-- It ends well. -/
def finishInsert (i : ι) : Table ι ρ :=
  { t with
    versions := t.versions ++ (t.inserting i).map fun row => ⟨row, some i, none, fun _ => false⟩
    inserting := Function.update t.inserting i [] }

def abort (i : ι) : Table ι ρ :=
  { t with
    status := Function.update t.status i .aborted
    inserting := Function.update t.inserting i [] }

def commit (i : ι) : Table ι ρ := { t with status := Function.update t.status i .committed }

/-- The statement under way has to wait: a row it is about to delete is being deleted
by a running transaction, or a row with a key it inserts is being inserted or deleted
by one. -/
def blocked (i : ι) : Bool :=
  t.versions.any fun v =>
    (v.target i && t.pendingFor i v.deleter) ||
      (t.inserting i).any fun r =>
        key v.row = key r && (t.pendingFor i v.creator || t.pendingFor i v.deleter)

end

/-! ## Replacing rows in one transaction -/

/-- Delete the rows that satisfy `p` and insert new ones.  Fails with `duplicate` where
the key is violated, and leaves nothing behind. -/
def replaceAll {ε : Type} [DecidableEq ι] [DecidableEq κ] (key : ρ → κ) (duplicate : ε) (i : ι)
    (p : ρ → Bool) (rows : List ρ) : Prog (Table ι ρ) ε Unit := do
  Prog.call fun t => ((), t.beginDelete i p)
  Prog.call fun t => ((), t.finishDelete i)
  Prog.call fun t => ((), t.beginInsert i rows)
  let violated ← Prog.call fun t =>
    if t.violates key i then (true, t.abort i) else (false, t.finishInsert i)
  if violated then Prog.fail duplicate else Prog.call fun t => ((), t.commit i)

/-! ## A replacement alone -/

section

variable [DecidableEq ι] [DecidableEq κ] {key : ρ → κ} {i : ι} {p : ρ → Bool} {rows old : List ρ}
  {status : TxStatus}

/-- The table when the rows of old that satisfy `p` have been deleted, and others inserted. -/
def replaced (i : ι) (p : ρ → Bool) (rows old : List ρ) (status : TxStatus) : Table ι ρ where
  versions :=
    (old.map fun row => ⟨row, none, if p row then some i else none, fun _ => false⟩) ++
      rows.map fun row => ⟨row, some i, none, fun _ => false⟩
  status := Function.update (fun _ => .idle) i status
  inserting _ := []

omit [DecidableEq ι] [DecidableEq κ] in
theorem live_ofRows : (ofRows old : Table ι ρ).live = old := by
  have unseen : (ofRows old : Table ι ρ).committed none = false := rfl
  have all : (ofRows old : Table ι ρ).versions.filter (ofRows old : Table ι ρ).isLive =
      (ofRows old : Table ι ρ).versions := by
    apply List.filter_eq_self.mpr
    intro v member
    obtain ⟨row, -, rfl⟩ := List.mem_map.mp member
    simp [isLive, unseen]
  rw [live, all, ofRows, List.map_map]
  exact List.map_id old

theorem finishDelete_ofRows :
    ((ofRows old : Table ι ρ).beginDelete i p).finishDelete i = replaced i p [] old .running := by
  have unseen : ∀ t : Table ι ρ, t.committed none = false := fun _ => rfl
  simp only [finishDelete, beginDelete, ofRows, replaced, List.map_map, List.map_nil,
    List.append_nil, Table.mk.injEq, and_true]
  apply List.map_congr_left
  intro row _
  simp [Function.comp, visible, unseen]

theorem committed_replaced : (replaced i p rows old status).committed (some i) =
    decide (status = .committed) := by
  simp [committed, replaced]

/-- What is committed, when the replacement is and when it is not. -/
theorem live_replaced : (replaced i p rows old status).live =
    if status = .committed then (old.filter fun row => ¬ p row) ++ rows else old := by
  have mine : (replaced i p rows old status).committed (some i) = decide (status = .committed) :=
    committed_replaced
  have unseen : (replaced i p rows old status).committed none = false := rfl
  have of_old : (replaced i p rows old status).isLive ∘ (fun row => ⟨row, none,
      if p row then some i else none, fun _ => false⟩) =
        fun row => !(p row && decide (status = .committed)) := by
    funext row
    cases satisfied : p row <;> simp [isLive, satisfied, mine, unseen]
  have inserted : (replaced i p rows old status).isLive ∘ (fun row => ⟨row, some i, none,
      fun _ => false⟩) = fun _ => decide (status = .committed) := by
    funext row
    simp [isLive, mine, unseen]
  have parts : (replaced i p rows old status).live =
      (old.filter fun row => !(p row && decide (status = .committed))) ++
        rows.filter fun _ => decide (status = .committed) := by
    rw [← of_old, ← inserted]
    simp [live, replaced, List.filter_map, Function.comp_def]
  rw [parts]
  by_cases done : status = .committed
  · simp [done]
  · rw [if_neg done, List.filter_eq_self.mpr (by simp [done]), List.filter_eq_nil_iff.mpr (by simp [done]),
      List.append_nil]

theorem violates_replaced (apart : ∀ o ∈ old, ∀ r ∈ rows, key o = key r → p o = true) :
    ((replaced i p [] old .running).beginInsert i rows).violates key i =
      decide (¬ (rows.map key).Nodup) := by
  have unseen : ∀ t : Table ι ρ, t.committed none = false := fun _ => rfl
  have nothing : ((replaced i p [] old .running).beginInsert i rows).versions.any (fun v =>
      rows.any fun r => key v.row = key r &&
        ((replaced i p [] old .running).beginInsert i rows).visible i v) = false := by
    apply List.any_eq_false.mpr
    intro v member
    obtain ⟨o, listed, rfl⟩ := List.mem_map.mp (by simpa [replaced, beginInsert] using member)
    simp only [List.any_eq_true, Bool.and_eq_true, decide_eq_true_eq, not_exists, not_and]
    intro r mine same
    have deleted := apart o listed r mine same
    simp [visible, deleted]
  rw [violates]
  simp only [beginInsert, Function.update_self] at nothing ⊢
  rw [nothing, Bool.or_false]

/-- Alone on a table whose rows with one of its keys satisfy `p`, a replacement does what
it says, unless two of its rows have one key. -/
theorem replaceAll_ofRows {ε : Type} (duplicate : ε)
    (apart : ∀ o ∈ old, ∀ r ∈ rows, key o = key r → p o = true) :
    ∃ t, (replaceAll key duplicate i p rows).run (ofRows old) =
        (if (rows.map key).Nodup then .ok () else .error duplicate, t) ∧
      t.live = if (rows.map key).Nodup then (old.filter fun row => ¬ p row) ++ rows else old := by
  have violated := violates_replaced (i := i) apart
  unfold replaceAll
  rw [Prog.run_bind_ok (Prog.run_call _ _), Prog.run_bind_ok (Prog.run_call _ _),
    Prog.run_bind_ok (Prog.run_call _ _), Prog.run_bind, Prog.run_call, finishDelete_ofRows]
  by_cases nodup : (rows.map key).Nodup
  · have fine : ((replaced i p [] old .running).beginInsert i rows).violates key i = false := by
      rw [violated, decide_eq_false (not_not_intro nodup)]
    have result : (((replaced i p [] old .running).beginInsert i rows).finishInsert i).commit i =
        replaced i p rows old .committed := by
      simp [replaced, beginInsert, finishInsert, commit]
    rw [if_pos nodup, if_pos nodup]
    simp only [fine]
    refine ⟨_, rfl, ?_⟩
    apply (congrArg live result).trans
    rw [live_replaced, if_pos rfl]
  · have bad : ((replaced i p [] old .running).beginInsert i rows).violates key i = true := by
      rw [violated, decide_eq_true nodup]
    have result : ((replaced i p [] old .running).beginInsert i rows).abort i =
        replaced i p [] old .aborted := by
      simp [replaced, beginInsert, abort]
    rw [if_neg nodup, if_neg nodup]
    simp only [bad]
    refine ⟨_, rfl, ?_⟩
    apply (congrArg live result).trans
    rw [live_replaced, if_neg (by decide)]

end

end Table

/-! ## Phases of a replacement -/

/-- Where a replacement stands.  `late` says that the other one had committed when the
`DELETE` began. -/
inductive TxPhase where
  | before
  | deleting (late : Bool)
  | deleted (late : Bool)
  | inserting (late : Bool)
  | inserted (late : Bool)
  | committed (late : Bool)
  | failed
  deriving DecidableEq

namespace TxPhase

def late : TxPhase → Bool
  | .before | .failed => false
  | .deleting l | .deleted l | .inserting l | .inserted l | .committed l => l

def isDeleting : TxPhase → Bool
  | .deleting _ => true
  | _ => false

/-- The `DELETE` has ended. -/
def hasDeleted : TxPhase → Bool
  | .deleted _ | .inserting _ | .inserted _ | .committed _ => true
  | _ => false

/-- The `INSERT` has ended. -/
def hasInserted : TxPhase → Bool
  | .inserted _ | .committed _ => true
  | _ => false

def status : TxPhase → TxStatus
  | .before => .idle
  | .committed _ => .committed
  | .failed => .aborted
  | _ => .running

end TxPhase

section

variable {ρ κ : Type} [DecidableEq κ] (key : ρ → κ) (p : ρ → Bool)

/-- One step of a replacement. -/
inductive TxMove (i : Bool) (rows : List ρ) :
    TxPhase → Table Bool ρ → Table Bool ρ → TxPhase → Prop
  | beginDelete (t : Table Bool ρ) :
      TxMove i rows .before t (t.beginDelete i p) (.deleting (t.committed (some (!i))))
  | finishDelete (t : Table Bool ρ) (l : Bool) :
      TxMove i rows (.deleting l) t (t.finishDelete i) (.deleted l)
  | beginInsert (t : Table Bool ρ) (l : Bool) :
      TxMove i rows (.deleted l) t (t.beginInsert i rows) (.inserting l)
  | finishInsert {t : Table Bool ρ} (l : Bool) (ok : t.violates key i = false) :
      TxMove i rows (.inserting l) t (t.finishInsert i) (.inserted l)
  | violates {t : Table Bool ρ} (l : Bool) (violated : t.violates key i = true) :
      TxMove i rows (.inserting l) t (t.abort i) .failed
  | commit (t : Table Bool ρ) (l : Bool) :
      TxMove i rows (.inserted l) t (t.commit i) (.committed l)

/-- A replacement that has returned has committed. -/
def TxEnds {ε : Type} (r : Except ε Unit) (φ : TxPhase) : Prop :=
  (r = .ok () ∧ ∃ l, φ = .committed l) ∨ (∃ e, r = .error e ∧ φ = .failed)

theorem replaceAll_follows {ε : Type} (duplicate : ε) (i : Bool) (rows : List ρ) :
    (Table.replaceAll key duplicate i p rows).Follows (fun _ => True) (TxMove key p i rows)
      TxEnds .before := by
  have never : ∀ {α : Type} {e : ε} {r : Except ε α}, r = .error e → (∃ a, r = .ok a) → False := by
    rintro α e r rfl ⟨a, impossible⟩
    cases impossible
  refine .bind (D := fun r φ => (∃ a, r = .ok a) ∧ ∃ l, φ = .deleting l)
    (.call fun t _ => ⟨_, .beginDelete t, ⟨_, rfl⟩, _, rfl⟩) ?_
    fun e φ ends => (never rfl ends.1).elim
  rintro _ _ ⟨-, l, rfl⟩
  refine .bind (D := fun r φ => (∃ a, r = .ok a) ∧ φ = .deleted l)
    (.call fun t _ => ⟨_, .finishDelete t l, ⟨_, rfl⟩, rfl⟩) ?_
    fun e φ ends => (never rfl ends.1).elim
  rintro _ _ ⟨-, rfl⟩
  refine .bind (D := fun r φ => (∃ a, r = .ok a) ∧ φ = .inserting l)
    (.call fun t _ => ⟨_, .beginInsert t l, ⟨_, rfl⟩, rfl⟩) ?_
    fun e φ ends => (never rfl ends.1).elim
  rintro _ _ ⟨-, rfl⟩
  refine .bind (D := fun r φ => (r = .ok true ∧ φ = .failed) ∨ (r = .ok false ∧ φ = .inserted l))
    (.call ?_) ?_ ?_
  · intro t _
    cases violated : t.violates key i with
    | true => exact ⟨.failed, by simpa [violated] using .violates l violated, Or.inl ⟨by simp, rfl⟩⟩
    | false =>
        exact ⟨.inserted l, by simpa [violated] using .finishInsert l violated,
          Or.inr ⟨by simp, rfl⟩⟩
  · rintro violated _ (⟨here, rfl⟩ | ⟨here, rfl⟩)
    · cases here
      exact .fail (Or.inr ⟨duplicate, rfl, rfl⟩)
    · cases here
      exact .call fun t _ => ⟨_, .commit t l, Or.inl ⟨rfl, l, rfl⟩⟩
  · rintro e φ (⟨impossible, -⟩ | ⟨impossible, -⟩) <;> cases impossible

end

/-! ## The invariant -/

section

variable {ρ κ : Type} (key : ρ → κ) (p : ρ → Bool) (rows : Bool → List ρ)

/-- A row of old: once a `DELETE` has ended it is deleted, and a `DELETE` that has begun
is about to delete it or found it deleted. -/
structure OldVersion (φ : Bool → TxPhase) (v : Version Bool ρ) : Prop where
  kept : v.deleter = none → ∀ k, (φ k).hasDeleted = false
  deleted : ∀ k, v.deleter = some k → (φ k).hasDeleted = true
  targeted : ∀ k, v.target k = true → (φ k).isDeleting = true
  seen : ∀ k, (φ k).isDeleting = true →
    v.target k = true ∨ ∃ j, v.deleter = some j ∧ (φ j).status = .committed

/-- A row inserted by a replacement: the other one deletes it where it is late. -/
structure NewVersion (φ : Bool → TxPhase) (k : Bool) (v : Version Bool ρ) : Prop where
  inserted : (φ k).hasInserted = true
  row : v.row ∈ rows k
  deleter : v.deleter =
    if (φ (!k)).late = true ∧ (φ (!k)).hasDeleted = true then some (!k) else none
  own : v.target k = false
  other : v.target (!k) = ((φ (!k)).isDeleting && (φ (!k)).late)

/-- Two replacements, neither of which has failed. -/
structure Replacing (φ : Bool → TxPhase) (t : Table Bool ρ) : Prop where
  status : ∀ k, t.status k = (φ k).status
  inserting : ∀ k, t.inserting k = match φ k with
    | .inserting _ => rows k
    | _ => []
  late : ∀ k, (φ k).late = true → (φ (!k)).status = .committed
  early : ∃ k, (φ k).late = false
  old : ∀ v ∈ t.versions, p v.row = true → v.creator = none → OldVersion φ v
  new : ∀ v ∈ t.versions, p v.row = true → ∀ k, v.creator = some k → NewVersion rows φ k v
  present : ∀ k, (φ k).hasInserted = true → ∀ r ∈ rows k, ∃ v ∈ t.versions, v.row = r ∧
    v.creator = some k
  disjoint : (∀ k, (φ k).hasInserted = true) → (∀ k, (φ k).late = false) →
    ∀ r ∈ rows false, ∀ r' ∈ rows true, key r ≠ key r'

end

/-- The phases differ only in what the versions that are there do not depend on. -/
structure Advances (φ φ₂ : Bool → TxPhase) : Prop where
  deleted : ∀ k, (φ₂ k).hasDeleted = (φ k).hasDeleted
  deleting : ∀ k, (φ₂ k).isDeleting = (φ k).isDeleting
  inserted : ∀ k, (φ k).hasInserted = true → (φ₂ k).hasInserted = true
  late : ∀ k, (φ₂ k).late = (φ k).late
  committed : ∀ k, (φ k).status = .committed → (φ₂ k).status = .committed

section

variable {ρ : Type} {rows : Bool → List ρ} {φ φ₂ : Bool → TxPhase} {v : Version Bool ρ} {j k : Bool}

theorem self_or_other (j k : Bool) : k = j ∨ k = !j := by cases j <;> cases k <;> simp

/-- What a move leaves alone of the phase it changes is as before for both. -/
theorem column_same {β : Type} {f : TxPhase → β} (same : f (φ₂ j) = f (φ j))
    (other : φ₂ (!j) = φ (!j)) (k : Bool) : f (φ₂ k) = f (φ k) := by
  rcases self_or_other j k with rfl | rfl
  · exact same
  · rw [other]

theorem Advances.of_other (other : φ₂ (!j) = φ (!j))
    (deleted : (φ₂ j).hasDeleted = (φ j).hasDeleted)
    (deleting : (φ₂ j).isDeleting = (φ j).isDeleting)
    (inserted : (φ j).hasInserted = true → (φ₂ j).hasInserted = true) (late : (φ₂ j).late = (φ j).late)
    (committed : (φ j).status = .committed → (φ₂ j).status = .committed) : Advances φ φ₂ := by
  constructor <;> intro k <;> rcases self_or_other j k with rfl | rfl
  · exact deleted
  · rw [other]
  · exact deleting
  · rw [other]
  · exact inserted
  · rw [other]
    exact id
  · exact late
  · rw [other]
  · exact committed
  · rw [other]
    exact id

theorem OldVersion.advance (old : OldVersion φ v) (advances : Advances φ φ₂) : OldVersion φ₂ v where
  kept none k := (advances.deleted k).trans (old.kept none k)
  deleted k by_k := (advances.deleted k).trans (old.deleted k by_k)
  targeted k target := (advances.deleting k).trans (old.targeted k target)
  seen k here := by
    rcases old.seen k ((advances.deleting k).symm.trans here) with target | ⟨i, by_i, done⟩
    · exact Or.inl target
    · exact Or.inr ⟨i, by_i, advances.committed i done⟩

theorem NewVersion.advance (new : NewVersion rows φ k v) (advances : Advances φ φ₂) :
    NewVersion rows φ₂ k v where
  inserted := advances.inserted k new.inserted
  row := new.row
  deleter := by
    rw [advances.late, advances.deleted]
    exact new.deleter
  own := new.own
  other := by
    rw [advances.late, advances.deleting]
    exact new.other

end

namespace Replacing

section

variable {ρ κ : Type} {key : ρ → κ} {p : ρ → Bool} {rows : Bool → List ρ}
  {φ : Bool → TxPhase} {t : Table Bool ρ} {j : Bool} {φ' : TxPhase}

theorem start (old : List ρ) : Replacing key p rows (fun _ => .before) (Table.ofRows old) where
  status _ := rfl
  inserting _ := rfl
  late k impossible := by cases impossible
  early := ⟨true, rfl⟩
  old v member _ _ := by
    obtain ⟨row, -, rfl⟩ := List.mem_map.mp member
    constructor
    · intro _ k
      rfl
    · intro k impossible
      cases impossible
    · intro k impossible
      cases impossible
    · intro k impossible
      cases impossible
  new v member _ k created := by
    obtain ⟨row, -, rfl⟩ := List.mem_map.mp member
    cases created
  present k impossible := by cases impossible
  disjoint impossible := by cases impossible true

theorem committed_iff (inv : Replacing key p rows φ t) {i : Option Bool} :
    t.committed i = true ↔ ∃ k, i = some k ∧ (φ k).status = .committed := by
  cases i with
  | none => simp [Table.committed]
  | some k => simp [Table.committed, inv.status k]

/-- What is left when both have committed: the rows of each one that the other was not
late for. -/
theorem mem_live_iff (inv : Replacing key p rows φ t) (done : ∀ k, ∃ l, φ k = .committed l)
    {r : ρ} (matches_ : p r = true) :
    r ∈ t.live ↔ ∃ k, r ∈ rows k ∧ (φ (!k)).late = false := by
  have committed : ∀ k, (φ k).status = .committed := by
    intro k
    obtain ⟨l, at_k⟩ := done k
    rw [at_k]
    rfl
  have deleted : ∀ k, (φ k).hasDeleted = true := by
    intro k
    obtain ⟨l, at_k⟩ := done k
    rw [at_k]
    rfl
  have inserted : ∀ k, (φ k).hasInserted = true := by
    intro k
    obtain ⟨l, at_k⟩ := done k
    rw [at_k]
    rfl
  have all : ∀ k, t.committed (some k) = true := fun k => inv.committed_iff.mpr ⟨k, rfl, committed k⟩
  constructor
  · intro live
    obtain ⟨v, member, rfl⟩ := List.mem_map.mp live
    obtain ⟨member, isLive⟩ := List.mem_filter.mp member
    cases creator : v.creator with
    | none =>
        have old := inv.old v member matches_ creator
        cases deleter : v.deleter with
        | none => exact absurd (old.kept deleter true) (by simp [deleted true])
        | some k => simp [Table.isLive, deleter, all] at isLive
    | some k =>
        have new := inv.new v member matches_ k creator
        refine ⟨k, new.row, ?_⟩
        by_contra late
        have late : (φ (!k)).late = true := by simpa using late
        have deleter := new.deleter
        rw [if_pos ⟨late, deleted (!k)⟩] at deleter
        simp [Table.isLive, deleter, all] at isLive
  · rintro ⟨k, listed, not_late⟩
    obtain ⟨v, member, rfl, creator⟩ := inv.present k (inserted k) r listed
    have new := inv.new v member matches_ k creator
    have deleter := new.deleter
    rw [if_neg (by simp [not_late])] at deleter
    refine List.mem_map.mpr ⟨v, List.mem_filter.mpr ⟨member, ?_⟩, rfl⟩
    have nobody : t.committed none = false := rfl
    simp [Table.isLive, creator, deleter, all, nobody]

end

/-! ## Every step keeps it -/

section

variable {ρ κ : Type} {key : ρ → κ} {p : ρ → Bool} {rows : Bool → List ρ}
  {φ : Bool → TxPhase} {t : Table Bool ρ} {j : Bool} {l : Bool}

/-- The other replacement was not late for one that has not committed. -/
theorem other_not_late (inv : Replacing key p rows φ t) (open_ : (φ j).status ≠ .committed) :
    (φ (!j)).late = false := by
  by_contra late
  have done := inv.late (!j) (by simpa using late)
  rw [Bool.not_not] at done
  exact open_ done

variable {φ₂ : Bool → TxPhase}

/-- A step of a `DELETE` edits versions one by one and inserts nothing. -/
theorem delete {f : Version Bool ρ → Version Bool ρ} {t' : Table Bool ρ}
    (inv : Replacing key p rows φ t) (other : φ₂ (!j) = φ (!j))
    (open_ : (φ j).status ≠ .committed) (before : (φ j).hasInserted = false)
    (after : (φ₂ j).hasInserted = false) (late : (φ₂ j).late = true → (φ (!j)).status = .committed)
    (status : ∀ k, t'.status k = (φ₂ k).status)
    (inserting : ∀ k, t'.inserting k = match φ₂ k with
      | .inserting _ => rows k
      | _ => [])
    (versions : t'.versions = t.versions.map f) (row : ∀ v, (f v).row = v.row)
    (creator : ∀ v, (f v).creator = v.creator)
    (old : ∀ v, p v.row = true → v.creator = none → OldVersion φ v → OldVersion φ₂ (f v))
    (new : ∀ v, p v.row = true → v.creator = some (!j) → NewVersion rows φ (!j) v →
      NewVersion rows φ₂ (!j) (f v)) : Replacing key p rows φ₂ t' where
  status := status
  inserting := inserting
  late k is_late := by
    rcases self_or_other j k with rfl | rfl
    · rw [other]
      exact late is_late
    · rw [other, inv.other_not_late open_] at is_late
      cases is_late
  early := ⟨!j, by rw [other, inv.other_not_late open_]⟩
  old v' member' matches_ created := by
    rw [versions] at member'
    obtain ⟨v, member, rfl⟩ := List.mem_map.mp member'
    rw [row] at matches_
    rw [creator] at created
    exact old v matches_ created (inv.old v member matches_ created)
  new v' member' matches_ k created := by
    rw [versions] at member'
    obtain ⟨v, member, rfl⟩ := List.mem_map.mp member'
    rw [row] at matches_
    rw [creator] at created
    have new_v := inv.new v member matches_ k created
    rcases self_or_other j k with rfl | rfl
    · exact absurd (before.symm.trans new_v.inserted) (by simp)
    · exact new v matches_ created new_v
  present k inserted r listed := by
    rcases self_or_other j k with rfl | rfl
    · exact absurd (after.symm.trans inserted) (by simp)
    · rw [other] at inserted
      obtain ⟨v, member, same, created⟩ := inv.present _ inserted r listed
      refine ⟨f v, ?_, (row v).trans same, (creator v).trans created⟩
      rw [versions]
      exact List.mem_map_of_mem member
  disjoint inserted := absurd (after.symm.trans (inserted j)) (by simp)

/-- A version that is not deleted by the one that moves is seen deleted as before. -/
theorem seen_kept {v : Version Bool ρ} (not_mine : v.deleter ≠ some j) (other : φ₂ (!j) = φ (!j))
    (gone : ∃ i, v.deleter = some i ∧ (φ i).status = .committed) :
    ∃ i, v.deleter = some i ∧ (φ₂ i).status = .committed := by
  obtain ⟨i, by_i, done⟩ := gone
  refine ⟨i, by_i, ?_⟩
  rcases self_or_other j i with rfl | rfl
  · exact absurd by_i not_mine
  · rw [other]
    exact done

theorem old_beginDelete (inv : Replacing key p rows φ t) (here : φ j = .before)
    (self : φ₂ j = .deleting (t.committed (some (!j)))) (other : φ₂ (!j) = φ (!j))
    {v : Version Bool ρ} (ours : p v.row = true) (of_old : v.creator = none) (old : OldVersion φ v) :
    OldVersion φ₂ { v with target := Function.update v.target j (p v.row && t.visible j v) } := by
  have not_mine : v.deleter ≠ some j := by
    intro mine
    have done := old.deleted j mine
    rw [here] at done
    cases done
  constructor
  · intro none k
    rcases self_or_other j k with rfl | rfl
    · rw [self]
      rfl
    · rw [other]
      exact old.kept none _
  · intro k by_k
    rcases self_or_other j k with rfl | rfl
    · exact absurd by_k not_mine
    · rw [other]
      exact old.deleted _ by_k
  · intro k target
    rcases self_or_other j k with rfl | rfl
    · rw [self]
      rfl
    · rw [other]
      apply old.targeted _
      simpa using target
  · intro k deleting
    rcases self_or_other j k with rfl | rfl
    · -- the rows of old that the statement does not see are deleted
      by_cases gone : t.committed v.deleter = true
      · exact Or.inr (seen_kept not_mine other (inv.committed_iff.mp gone))
      · left
        simp [Table.visible, ours, of_old, gone, not_mine]
    · rw [other] at deleting
      rcases old.seen _ deleting with target | gone
      · left
        simpa using target
      · exact Or.inr (seen_kept not_mine other gone)

theorem new_beginDelete (here : φ j = .before)
    (self : φ₂ j = .deleting (t.committed (some (!j)))) (other : φ₂ (!j) = φ (!j))
    {v : Version Bool ρ} (ours : p v.row = true) (created : v.creator = some (!j))
    (new : NewVersion rows φ (!j) v) :
    NewVersion rows φ₂ (!j)
      { v with target := Function.update v.target j (p v.row && t.visible j v) } := by
  have nobody := new.deleter
  rw [Bool.not_not, here] at nobody
  have nobody : v.deleter = none := by simpa [TxPhase.late] using nobody
  refine ⟨by rw [other]; exact new.inserted, new.row, ?_, ?_, ?_⟩
  · rw [Bool.not_not, self]
    simpa [TxPhase.hasDeleted] using nobody
  · simpa using new.own
  · -- the statement sees it exactly where its creator has committed
    have unseen : t.committed none = false := rfl
    rw [Bool.not_not, self]
    simp [Table.visible, ours, created, nobody, unseen, TxPhase.isDeleting, TxPhase.late]

theorem beginDelete (inv : Replacing key p rows φ t) (here : φ j = .before)
    (self : φ₂ j = .deleting (t.committed (some (!j)))) (other : φ₂ (!j) = φ (!j)) :
    Replacing key p rows φ₂ (t.beginDelete j p) := by
  refine inv.delete other (by simp [here, TxPhase.status]) (by rw [here]; rfl) (by rw [self]; rfl)
    ?_ ?_ ?_ rfl (fun _ => rfl) (fun _ => rfl)
    (fun v ours of_old old => inv.old_beginDelete here self other ours of_old old)
    (fun v ours created new => new_beginDelete here self other ours created new)
  · intro is_late
    rw [self] at is_late
    obtain ⟨i, same, done⟩ := inv.committed_iff.mp is_late
    cases same
    exact done
  · intro k
    rcases self_or_other j k with rfl | rfl
    · simp [Table.beginDelete, self, TxPhase.status]
    · simp [Table.beginDelete, other, inv.status]
  · intro k
    rcases self_or_other j k with rfl | rfl
    · simpa [Table.beginDelete, self, here] using inv.inserting k
    · simpa [Table.beginDelete, other] using inv.inserting (!j)

theorem old_finishDelete (inv : Replacing key p rows φ t) (here : φ j = .deleting l)
    (self : φ₂ j = .deleted l) (other : φ₂ (!j) = φ (!j)) {v : Version Bool ρ}
    (old : OldVersion φ v) :
    OldVersion φ₂ { v with
      deleter := if v.target j && !t.committed v.deleter then some j else v.deleter
      target := Function.update v.target j false } := by
  have not_mine : v.deleter ≠ some j := by
    intro mine
    have done := old.deleted j mine
    rw [here] at done
    cases done
  constructor
  · -- whatever the statement was about to delete is deleted now, and the rest was before
    intro kept
    exfalso
    have kept : (if v.target j && !t.committed v.deleter then some j else v.deleter) = none := kept
    rcases old.seen j (by rw [here]; rfl) with target | ⟨i, by_i, done⟩
    · split at kept
      · cases kept
      · rename_i skipped
        have nobody : t.committed none = false := rfl
        simp [target, kept, nobody] at skipped
    · rw [by_i] at kept
      split at kept <;> cases kept
  · intro k by_k
    rcases self_or_other j k with rfl | rfl
    · rw [self]
      rfl
    · rw [other]
      apply old.deleted _
      have by_k : (if v.target j && !t.committed v.deleter then some j else v.deleter) = some (!j) :=
        by_k
      split at by_k
      · simp at by_k
      · exact by_k
  · intro k target
    rcases self_or_other j k with rfl | rfl
    · simp at target
    · rw [other]
      apply old.targeted _
      simpa using target
  · intro k deleting
    rcases self_or_other j k with rfl | rfl
    · rw [self] at deleting
      cases deleting
    · rw [other] at deleting
      rcases old.seen _ deleting with target | gone
      · left
        simpa using target
      · have skipped : t.committed v.deleter = true := inv.committed_iff.mpr gone
        obtain ⟨i, by_i, done⟩ := seen_kept not_mine other gone
        rw [by_i] at skipped
        exact Or.inr ⟨i, by simp [skipped, by_i], done⟩

theorem new_finishDelete (here : φ j = .deleting l) (self : φ₂ j = .deleted l)
    (other : φ₂ (!j) = φ (!j)) {v : Version Bool ρ} (new : NewVersion rows φ (!j) v) :
    NewVersion rows φ₂ (!j) { v with
      deleter := if v.target j && !t.committed v.deleter then some j else v.deleter
      target := Function.update v.target j false } := by
  have nobody := new.deleter
  rw [Bool.not_not, here] at nobody
  have nobody : v.deleter = none := by simpa [TxPhase.hasDeleted] using nobody
  have target := new.other
  rw [Bool.not_not, here] at target
  have target : v.target j = l := by simpa [TxPhase.isDeleting, TxPhase.late] using target
  have unseen : t.committed none = false := rfl
  refine ⟨by rw [other]; exact new.inserted, new.row, ?_, ?_, ?_⟩
  · rw [Bool.not_not, self]
    simp [nobody, target, unseen, TxPhase.late, TxPhase.hasDeleted]
  · simpa using new.own
  · rw [Bool.not_not, self]
    simp [TxPhase.isDeleting]

theorem finishDelete (inv : Replacing key p rows φ t) (here : φ j = .deleting l)
    (self : φ₂ j = .deleted l) (other : φ₂ (!j) = φ (!j)) :
    Replacing key p rows φ₂ (t.finishDelete j) := by
  refine inv.delete other (by simp [here, TxPhase.status]) (by rw [here]; rfl) (by rw [self]; rfl)
    ?_ ?_ ?_ rfl (fun _ => rfl) (fun _ => rfl)
    (fun v _ _ old => inv.old_finishDelete here self other old)
    (fun v _ _ new => new_finishDelete here self other new)
  · intro is_late
    rw [self] at is_late
    apply inv.late j
    rw [here]
    exact is_late
  · intro k
    rw [column_same (f := TxPhase.status) (by rw [self, here]; rfl) other k]
    exact inv.status k
  · intro k
    rcases self_or_other j k with rfl | rfl
    · simpa [Table.finishDelete, self, here] using inv.inserting k
    · simpa [Table.finishDelete, other] using inv.inserting (!j)

/-- A step that touches no version. -/
theorem advance {t' : Table Bool ρ} (inv : Replacing key p rows φ t) (advances : Advances φ φ₂)
    (inserted : ∀ k, (φ₂ k).hasInserted = true → (φ k).hasInserted = true)
    (versions : t'.versions = t.versions) (status : ∀ k, t'.status k = (φ₂ k).status)
    (inserting : ∀ k, t'.inserting k = match φ₂ k with
      | .inserting _ => rows k
      | _ => []) : Replacing key p rows φ₂ t' where
  status := status
  inserting := inserting
  late k is_late := advances.committed _ (inv.late k ((advances.late k).symm.trans is_late))
  early := by
    obtain ⟨k, not_late⟩ := inv.early
    exact ⟨k, (advances.late k).trans not_late⟩
  old v member matches_ created := by
    rw [versions] at member
    exact (inv.old v member matches_ created).advance advances
  new v member matches_ k created := by
    rw [versions] at member
    exact (inv.new v member matches_ k created).advance advances
  present k done := by
    rw [versions]
    exact inv.present k (inserted k done)
  disjoint both nobody :=
    inv.disjoint (fun k => inserted k (both k)) fun k => (advances.late k).symm.trans (nobody k)

theorem beginInsert (inv : Replacing key p rows φ t) (here : φ j = .deleted l)
    (self : φ₂ j = .inserting l) (other : φ₂ (!j) = φ (!j)) :
    Replacing key p rows φ₂ (t.beginInsert j (rows j)) := by
  have advances : Advances φ φ₂ := by
    refine .of_other other ?_ ?_ ?_ ?_ ?_ <;> simp [self, here, TxPhase.hasDeleted,
      TxPhase.isDeleting, TxPhase.hasInserted, TxPhase.late, TxPhase.status]
  refine inv.advance advances ?_ rfl ?_ ?_
  · intro k done
    rwa [column_same (f := TxPhase.hasInserted) (by rw [self, here]; rfl) other k] at done
  · intro k
    rw [column_same (f := TxPhase.status) (by rw [self, here]; rfl) other k]
    exact inv.status k
  · intro k
    rcases self_or_other j k with rfl | rfl
    · simp [Table.beginInsert, self]
    · simpa [Table.beginInsert, other] using inv.inserting (!j)

theorem commit (inv : Replacing key p rows φ t) (here : φ j = .inserted l)
    (self : φ₂ j = .committed l) (other : φ₂ (!j) = φ (!j)) :
    Replacing key p rows φ₂ (t.commit j) := by
  have advances : Advances φ φ₂ := by
    refine .of_other other ?_ ?_ ?_ ?_ ?_ <;> simp [self, here, TxPhase.hasDeleted,
      TxPhase.isDeleting, TxPhase.hasInserted, TxPhase.late, TxPhase.status]
  refine inv.advance advances ?_ rfl ?_ ?_
  · intro k done
    rwa [column_same (f := TxPhase.hasInserted) (by rw [self, here]; rfl) other k] at done
  · intro k
    rcases self_or_other j k with rfl | rfl
    · simp [Table.commit, self, TxPhase.status]
    · simpa [Table.commit, other] using inv.status (!j)
  · intro k
    rcases self_or_other j k with rfl | rfl
    · have nothing := inv.inserting k
      rw [here] at nothing
      rw [self]
      exact nothing
    · rw [other]
      exact inv.inserting _

/-- Where the other one's rows are there, none of them has a key of a row that is
inserted: the statement would have waited, or found the key violated. -/
theorem inserted_apart [DecidableEq κ] (inv : Replacing key p rows φ t)
    (ours : ∀ k, ∀ r ∈ rows k, p r = true) (here : φ j = .inserting false)
    (free : t.blocked key j = false) (ok : t.violates key j = false)
    (done : (φ (!j)).hasInserted = true) : ∀ r ∈ rows j, ∀ r' ∈ rows (!j), key r ≠ key r' := by
  intro r mine r' theirs same
  have listed : r ∈ t.inserting j := by
    rw [inv.inserting, here]
    exact mine
  obtain ⟨v, member, rfl, created⟩ := inv.present _ done r' theirs
  have nobody := (inv.new v member (ours _ _ theirs) _ created).deleter
  rw [Bool.not_not, here] at nobody
  have nobody : v.deleter = none := by simpa [TxPhase.late] using nobody
  have committed : t.status (!j) = .committed := by
    by_contra open_
    rw [inv.status] at open_
    have status : (φ (!j)).status = .running := by
      cases at_other : φ (!j) <;> simp_all [TxPhase.hasInserted, TxPhase.status]
    have pending : t.pendingFor j v.creator = true := by
      simp [Table.pendingFor, created, inv.status, status]
    have waits : t.blocked key j = true := by
      refine List.any_eq_true.mpr ⟨v, member, ?_⟩
      refine Bool.or_eq_true_iff.mpr (Or.inr (List.any_eq_true.mpr ⟨r, listed, ?_⟩))
      simp [same, pending]
    rw [free] at waits
    cases waits
  have sees : t.visible j v = true := by
    simp [Table.visible, Table.committed, created, nobody, committed]
  have violated : t.violates key j = true := by
    refine Bool.or_eq_true_iff.mpr (Or.inr (List.any_eq_true.mpr ⟨v, member, ?_⟩))
    exact List.any_eq_true.mpr ⟨r, listed, by simp [same, sees]⟩
  rw [ok] at violated
  cases violated

theorem finishInsert [DecidableEq κ] (inv : Replacing key p rows φ t)
    (ours : ∀ k, ∀ r ∈ rows k, p r = true) (here : φ j = .inserting l) (self : φ₂ j = .inserted l)
    (other : φ₂ (!j) = φ (!j)) (free : t.blocked key j = false) (ok : t.violates key j = false) :
    Replacing key p rows φ₂ (t.finishInsert j) := by
  have advances : Advances φ φ₂ := by
    refine .of_other other ?_ ?_ ?_ ?_ ?_ <;> simp [self, here, TxPhase.hasDeleted,
      TxPhase.isDeleting, TxPhase.hasInserted, TxPhase.late, TxPhase.status]
  have not_late : (φ (!j)).late = false := inv.other_not_late (by simp [here, TxPhase.status])
  have listed : t.inserting j = rows j := by
    rw [inv.inserting, here]
  refine { status := ?_, inserting := ?_, late := ?_, early := ?_, old := ?_, new := ?_, present := ?_,
           disjoint := ?_ }
  · intro k
    rw [column_same (f := TxPhase.status) (by rw [self, here]; rfl) other k]
    exact inv.status k
  · intro k
    rcases self_or_other j k with rfl | rfl
    · simp [Table.finishInsert, self]
    · simpa [Table.finishInsert, other] using inv.inserting (!j)
  · intro k is_late
    exact advances.committed _ (inv.late k ((advances.late k).symm.trans is_late))
  · obtain ⟨k, not_late⟩ := inv.early
    exact ⟨k, (advances.late k).trans not_late⟩
  · intro v member matches_ created
    rcases List.mem_append.mp member with old | new
    · exact (inv.old v old matches_ created).advance advances
    · obtain ⟨row, -, rfl⟩ := List.mem_map.mp new
      cases created
  · intro v member matches_ k created
    rcases List.mem_append.mp member with old | new
    · exact (inv.new v old matches_ k created).advance advances
    · obtain ⟨row, mine, rfl⟩ := List.mem_map.mp new
      cases created
      refine ⟨by rw [self]; rfl, listed ▸ mine, ?_, rfl, ?_⟩
      · rw [other, not_late]
        rfl
      · rw [other, not_late, Bool.and_false]
  · intro k done r mine
    rcases self_or_other j k with rfl | rfl
    · refine ⟨⟨r, some k, none, fun _ => false⟩, List.mem_append_right _ ?_, rfl, rfl⟩
      exact List.mem_map.mpr ⟨r, listed ▸ mine, rfl⟩
    · rw [other] at done
      obtain ⟨v, member, row, created⟩ := inv.present _ done r mine
      exact ⟨v, List.mem_append_left _ member, row, created⟩
  · intro both nobody r in_false r' in_true
    have done := both (!j)
    rw [other] at done
    obtain rfl : l = false := by
      have early := nobody j
      rwa [self] at early
    have apart := inv.inserted_apart ours here free ok done
    cases j with
    | false => exact apart r in_false r' in_true
    | true => exact fun same => apart r' in_true r in_false same.symm

/-- Every step of a replacement that is not blocked and does not fail. -/
theorem step [DecidableEq κ] (inv : Replacing key p rows φ t)
    (ours : ∀ k, ∀ r ∈ rows k, p r = true) {t' : Table Bool ρ} {φ' : TxPhase}
    (moved : TxMove key p j (rows j) (φ j) t t' φ') (free : t.blocked key j = false)
    (ok : φ' ≠ .failed) : Replacing key p rows (Function.update φ j φ') t' := by
  have self : Function.update φ j φ' j = φ' := Function.update_self _ _ _
  have other : Function.update φ j φ' (!j) = φ (!j) := Function.update_of_ne (by simp) _ _
  generalize here : φ j = ψ at moved
  cases moved with
  | beginDelete => exact inv.beginDelete here self other
  | finishDelete l => exact inv.finishDelete here self other
  | beginInsert l => exact inv.beginInsert here self other
  | finishInsert l good => exact inv.finishInsert ours here self other free good
  | violates => exact absurd rfl ok
  | commit l => exact inv.commit here self other

/-- A replacement is late where its `DELETE` began after the other one had committed. -/
theorem late_iff [DecidableEq κ] (inv : Replacing key p rows φ t) {t' : Table Bool ρ}
    {φ' : TxPhase} (moved : TxMove key p j (rows j) (φ j) t t' φ') (ok : φ' ≠ .failed) :
    φ'.late = true ↔ (φ j).late = true ∨
      (t.status j = .idle ∧ t'.status j = .running ∧ t.status (!j) = .committed) := by
  have status := inv.status j
  generalize here : φ j = ψ at moved status
  have begun : ψ ≠ .before → ψ.status ≠ .idle := by cases ψ <;> simp [TxPhase.status]
  cases moved with
  | beginDelete => simp [status, TxPhase.late, TxPhase.status, Table.beginDelete, Table.committed]
  | violates => exact absurd rfl ok
  | finishDelete l => simp [status, TxPhase.late, TxPhase.status]
  | beginInsert l => simp [status, TxPhase.late, TxPhase.status]
  | finishInsert l good => simp [status, TxPhase.late, TxPhase.status]
  | commit l => simp [status, TxPhase.late, TxPhase.status]

/-- Where one was late, its rows are what is left. -/
theorem replaced_of_late (inv : Replacing key p rows φ t) (done : ∀ k, ∃ l, φ k = .committed l)
    {k : Bool} (late : (φ k).late = true) {r : ρ} (mine : p r = true) : r ∈ t.live ↔ r ∈ rows k := by
  have early : (φ (!k)).late = false := by
    obtain ⟨k', early⟩ := inv.early
    rcases self_or_other k k' with rfl | rfl
    · rw [late] at early
      cases early
    · exact early
  rw [inv.mem_live_iff done mine]
  constructor
  · rintro ⟨i, listed, not_late⟩
    rcases self_or_other k i with rfl | rfl
    · exact listed
    · rw [Bool.not_not, late] at not_late
      cases not_late
  · intro listed
    exact ⟨k, listed, early⟩

/-- When both have committed, the rows are those of one of them exactly where one was
late or had nothing to insert. -/
theorem replaced_iff (inv : Replacing key p rows φ t) (done : ∀ k, ∃ l, φ k = .committed l)
    (ours : ∀ k, ∀ r ∈ rows k, p r = true) :
    (∃ k, ∀ r, p r = true → (r ∈ t.live ↔ r ∈ rows k)) ↔
      (∃ k, (φ k).late = true) ∨ ∃ k, rows k = [] := by
  by_cases late : ∃ k, (φ k).late = true
  · refine iff_of_true ?_ (Or.inl late)
    obtain ⟨k, late⟩ := late
    exact ⟨k, fun r mine => inv.replaced_of_late done late mine⟩
  -- nobody was late: the rows of both are there, and no two of them have one key
  have nobody : ∀ k, (φ k).late = false := fun k => by simpa using not_exists.mp late k
  have inserted : ∀ k, (φ k).hasInserted = true := by
    intro k
    obtain ⟨l, at_k⟩ := done k
    rw [at_k]
    rfl
  simp only [nobody, Bool.false_eq_true, exists_false, false_or]
  constructor
  · rintro ⟨k, alone⟩
    refine ⟨!k, List.eq_nil_iff_forall_not_mem.mpr ?_⟩
    intro r listed
    have mine := ours _ r listed
    have both := (alone r mine).mp ((inv.mem_live_iff done mine).mpr ⟨!k, listed, nobody _⟩)
    cases k with
    | false => exact inv.disjoint inserted nobody r both r listed rfl
    | true => exact inv.disjoint inserted nobody r listed r both rfl
  · rintro ⟨k, empty⟩
    refine ⟨!k, ?_⟩
    intro r mine
    rw [inv.mem_live_iff done mine]
    constructor
    · rintro ⟨i, listed, -⟩
      rcases self_or_other k i with rfl | rfl
      · rw [empty] at listed
        cases listed
      · exact listed
    · intro listed
      exact ⟨!k, listed, nobody _⟩

end

end Replacing

end Arac.Theory
