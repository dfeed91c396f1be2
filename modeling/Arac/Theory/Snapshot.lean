/-
# Arac.Theory.Snapshot -- reading the parts of a state one at a time

A reader reads several parts of a shared state, each in a call of its own, while
others change them.  Put together, what it has read need not be what the state was at
any moment.

A run is `Torn` when a part that the reader had read was changed, and after that a part
that it had not read yet.  `Pool.Run.snapshot`: in a run that is not, what the reader
has read is the state at one moment between its first call and its last.  The moment is
that of the last change before the first part that was read went stale, and `Tracks` is
the invariant.
-/
import Arac.Theory.Interleaving
import Mathlib.Data.Fintype.Basic

namespace Arac.Theory

set_option autoImplicit false

section

variable {ι σ π : Type} {V : π → Type} [DecidableEq ι] (reader : ι) (position : π → Nat)
  (val : (p : π) → σ → V p)

/-! ## Torn runs -/

/-- The reader had read the part before the call: it is read in its call of this number. -/
def ReadBefore (trace : List (Made ι σ)) (p : π) : Prop :=
  position p < (Pool.callsOf trace reader).length

/-- A part was changed after the reader had read it. -/
def Stale : List (Made ι σ) → Prop
  | [] => False
  | e :: earlier =>
      (∃ p, ReadBefore reader position earlier p ∧ val p e.left ≠ val p e.met) ∨ Stale earlier

/-- Then, or at once, a part was changed that the reader had not read yet. -/
def Torn : List (Made ι σ) → Prop
  | [] => False
  | e :: earlier =>
      (Stale reader position val (e :: earlier) ∧
        ∃ p, ¬ ReadBefore reader position earlier p ∧ val p e.left ≠ val p e.met) ∨ Torn earlier

/-- A state that a call met, from the reader's first call on. -/
def Since (trace : List (Made ι σ)) (s : σ) : Prop :=
  ∃ later e earlier, trace = later ++ e :: earlier ∧ e.met = s ∧ ∃ f ∈ e :: earlier, f.who = reader

/-- A state that a call met, from the reader's first call to its last. -/
def During (trace : List (Made ι σ)) (s : σ) : Prop :=
  ∃ later e earlier, trace = later ++ e :: earlier ∧ e.met = s ∧
    (∃ f ∈ e :: earlier, f.who = reader) ∧ ∃ f ∈ later ++ [e], f.who = reader

instance (trace : List (Made ι σ)) (p : π) : Decidable (ReadBefore reader position trace p) :=
  inferInstanceAs (Decidable (_ < _))

section

variable [Fintype π] [∀ p, DecidableEq (V p)]

instance Stale.decide : (trace : List (Made ι σ)) → Decidable (Stale reader position val trace)
  | [] => .isFalse id
  | _ :: earlier =>
      have := Stale.decide earlier
      inferInstanceAs (Decidable (_ ∨ _))

instance Torn.decide : (trace : List (Made ι σ)) → Decidable (Torn reader position val trace)
  | [] => .isFalse id
  | _ :: earlier =>
      have := Torn.decide earlier
      inferInstanceAs (Decidable (_ ∨ _))

end

variable {reader} {position} {val}

omit [DecidableEq ι] in
theorem During.met {trace : List (Made ι σ)} {s : σ} (during : During reader trace s) :
    ∃ e ∈ trace, e.met = s := by
  obtain ⟨later, e, earlier, rfl, met, -⟩ := during
  exact ⟨e, List.mem_append_right _ List.mem_cons_self, met⟩

omit [DecidableEq ι] in
theorem Since.cons {trace : List (Made ι σ)} {s : σ} (since : Since reader trace s) (e : Made ι σ) :
    Since reader (e :: trace) s := by
  obtain ⟨later, e', earlier, rfl, met, begun⟩ := since
  exact ⟨e :: later, e', earlier, rfl, met, begun⟩

omit [DecidableEq ι] in
theorem During.cons {trace : List (Made ι σ)} {s : σ} (during : During reader trace s)
    (e : Made ι σ) : During reader (e :: trace) s := by
  obtain ⟨later, e', earlier, rfl, met, begun, f, member, mine⟩ := during
  exact ⟨e :: later, e', earlier, rfl, met, begun, f, List.mem_cons_of_mem _ member, mine⟩

omit [DecidableEq ι] in
/-- With another call of the reader the moment lies before its last call. -/
theorem Since.during {trace : List (Made ι σ)} {s : σ} (since : Since reader trace s)
    {e : Made ι σ} (mine : e.who = reader) : During reader (e :: trace) s := by
  obtain ⟨later, e', earlier, rfl, met, begun⟩ := since
  exact ⟨e :: later, e', earlier, rfl, met, begun, e, List.mem_cons_self, mine⟩

omit [DecidableEq ι] in
theorem During.now {trace : List (Made ι σ)} {e : Made ι σ} (mine : e.who = reader) :
    During reader (e :: trace) e.met :=
  ⟨[], e, trace, rfl, rfl, ⟨e, List.mem_cons_self, mine⟩, e, List.mem_cons_self, mine⟩

theorem mem_of_readBefore {trace : List (Made ι σ)} {p : π}
    (read : ReadBefore reader position trace p) : ∃ f ∈ trace, f.who = reader := by
  have some_call := List.getElem_mem read
  obtain ⟨member, mine⟩ := List.mem_filter.mp (List.mem_reverse.mp some_call)
  exact ⟨_, member, by simpa using mine⟩

end

/-! ## The reader -/

/-- How many calls the reader has made, and what it has read. -/
structure ReadPhase (π : Type) (V : π → Type) where
  calls : Nat
  seen : (p : π) → Option (V p)

namespace ReadPhase

variable {π : Type} {V : π → Type}

def start : ReadPhase π V := ⟨0, fun _ => none⟩

def next (φ : ReadPhase π V) : ReadPhase π V := { φ with calls := φ.calls + 1 }

/-- The next call has read a part. -/
def read [DecidableEq π] (φ : ReadPhase π V) (p : π) (v : V p) : ReadPhase π V :=
  ⟨φ.calls + 1, Function.update φ.seen p (some v)⟩

end ReadPhase

section

variable {σ π : Type} {V : π → Type} [DecidableEq π] (position : π → Nat) (val : (p : π) → σ → V p)

/-- A call of the reader changes no part, and reads the one whose turn it is. -/
inductive ReadMove : ReadPhase π V → σ → σ → ReadPhase π V → Prop
  | reads {φ : ReadPhase π V} {s s' : σ} {p : π} (here : position p = φ.calls)
      (same : ∀ q, val q s' = val q s) : ReadMove φ s s' (φ.read p (val p s))
  | passes {φ : ReadPhase π V} {s s' : σ} (nothing : ∀ p, position p ≠ φ.calls)
      (same : ∀ p, val p s' = val p s) : ReadMove φ s s' φ.next

variable {position} {val}

/-- A call that changes no part is a move, whatever it reads. -/
theorem ReadMove.exists_next (φ : ReadPhase π V) {s s' : σ} (same : ∀ p, val p s' = val p s) :
    ∃ φ', ReadMove position val φ s s' φ' := by
  by_cases turn : ∃ p, position p = φ.calls
  · obtain ⟨p, here⟩ := turn
    exact ⟨_, .reads here same⟩
  · exact ⟨_, .passes (fun p here => turn ⟨p, here⟩) same⟩

end

/-! ## The invariant -/

section

variable {ι σ π : Type} {V : π → Type} [DecidableEq ι] (reader : ι) (position : π → Nat)
  (val : (p : π) → σ → V p)

/-- What the parts that were read have to do with the state. -/
inductive Tracks (seen : (p : π) → Option (V p)) (s : σ) (trace : List (Made ι σ)) : Prop
  /-- They are still what they were. -/
  | fresh (unread : ∃ p, seen p = none) (same : ∀ p v, seen p = some v → v = val p s)
  /-- They were all there at one moment, and what is unread has not changed since. -/
  | stale (unread : ∃ p, seen p = none) (gone : Stale reader position val trace) {s₀ : σ}
      (since : Since reader trace s₀) (same : ∀ p v, seen p = some v → v = val p s₀)
      (kept : ∀ p, seen p = none → val p s₀ = val p s)
  | settled {s₀ : σ} (during : During reader trace s₀) (same : ∀ p, seen p = some (val p s₀))

structure Reading (φ : ReadPhase π V) (s : σ) (trace : List (Made ι σ)) : Prop where
  calls : (Pool.callsOf trace reader).length = φ.calls
  seen : ∀ p, φ.seen p = none ↔ φ.calls ≤ position p
  tracks : ¬ Torn reader position val trace → Tracks reader position val φ.seen s trace

variable {reader} {position} {val} {φ φ' : ReadPhase π V} {s s' : σ} {trace : List (Made ι σ)}

/-- Nobody has changed a part. -/
theorem Tracks.same {seen : (p : π) → Option (V p)} (tracks : Tracks reader position val seen s trace)
    (same : ∀ p, val p s' = val p s) : Tracks reader position val seen s' trace := by
  cases tracks with
  | fresh unread known => exact .fresh unread fun p v read => (known p v read).trans (same p).symm
  | stale unread gone since known kept =>
      exact .stale unread gone since known fun p open_ => (kept p open_).trans (same p).symm
  | settled during known => exact .settled during known

theorem Tracks.cons {seen : (p : π) → Option (V p)} (tracks : Tracks reader position val seen s trace)
    (e : Made ι σ) : Tracks reader position val seen s (e :: trace) := by
  cases tracks with
  | fresh unread known => exact .fresh unread known
  | stale unread gone since known kept => exact .stale unread (Or.inr gone) (since.cons e) known kept
  | settled during known => exact .settled (during.cons e) known

theorem Reading.readBefore_iff (reading : Reading reader position val φ s trace) {p : π} :
    ReadBefore reader position trace p ↔ φ.seen p ≠ none := by
  rw [ReadBefore, reading.calls, ne_eq, reading.seen, Nat.not_le]

/-- A call of somebody else. -/
theorem Reading.other (reading : Reading reader position val φ s trace) {i : ι} (other : i ≠ reader) :
    Reading reader position val φ s' (⟨i, s, s'⟩ :: trace) where
  calls := by
    rw [Pool.callsOf_cons_ne other]
    exact reading.calls
  seen := reading.seen
  tracks whole := by
    have tracks := reading.tracks fun torn => whole (Or.inr torn)
    -- once something that was read has changed, nothing unread may
    have kept : Stale reader position val (⟨i, s, s'⟩ :: trace) → ∀ p, φ.seen p = none →
        val p s' = val p s := by
      intro stale p unread
      by_contra changed
      exact whole (Or.inl ⟨stale, p, fun read => reading.readBefore_iff.mp read unread, changed⟩)
    cases tracks with
    | fresh unread known =>
        by_cases gone : ∃ p, ReadBefore reader position trace p ∧ val p s' ≠ val p s
        · have stale : Stale reader position val (⟨i, s, s'⟩ :: trace) := Or.inl gone
          obtain ⟨p, read, -⟩ := gone
          obtain ⟨f, member, mine⟩ := mem_of_readBefore read
          exact .stale unread stale
            ⟨[], ⟨i, s, s'⟩, trace, rfl, rfl, f, List.mem_cons_of_mem _ member, mine⟩ known
            fun q open_ => (kept stale q open_).symm
        · refine .fresh unread ?_
          intro p v read
          rw [known p v read]
          by_contra changed
          refine gone ⟨p, reading.readBefore_iff.mpr ?_, fun same => changed same.symm⟩
          rw [read]
          exact Option.some_ne_none v
    | stale unread gone since known before =>
        refine .stale unread (Or.inr gone) (since.cons _) known ?_
        intro p open_
        rw [before p open_, kept (Or.inr gone) p open_]
    | settled during known => exact .settled (during.cons _) known

variable [DecidableEq π]

/-- What has just been read, and what was read before, are the parts of one state. -/
theorem ReadPhase.read_known {p : π} {s₀ : σ} (now : val p s = val p s₀)
    (before : ∀ q v, φ.seen q = some v → v = val q s₀) (q : π) (v : V q)
    (seen : (φ.read p (val p s)).seen q = some v) : v = val q s₀ := by
  by_cases this : q = p
  · subst this
    simp only [ReadPhase.read, Function.update_self, Option.some.injEq] at seen
    exact seen.symm.trans now
  · simp only [ReadPhase.read, Function.update_of_ne this] at seen
    exact before q v seen

omit [DecidableEq π] in
theorem seen_of_known {seen : (p : π) → Option (V p)} {s₀ : σ} (all : ¬ ∃ q, seen q = none)
    (known : ∀ q v, seen q = some v → v = val q s₀) (q : π) : seen q = some (val q s₀) := by
  obtain ⟨v, at_q⟩ := Option.ne_none_iff_exists'.mp (not_exists.mp all q)
  rw [at_q, known q v at_q]

/-- The reader reads one more part. -/
theorem Tracks.read {p : π} (tracks : Tracks reader position val φ.seen s trace)
    (open_ : φ.seen p = none) (same : ∀ q, val q s' = val q s) :
    Tracks reader position val (φ.read p (val p s)).seen s' (⟨reader, s, s'⟩ :: trace) := by
  by_cases unread : ∃ q, (φ.read p (val p s)).seen q = none
  · cases tracks with
    | fresh _ known =>
        exact .fresh unread fun q v at_q =>
          (ReadPhase.read_known rfl known q v at_q).trans (same q).symm
    | stale _ gone since known kept =>
        refine .stale unread (Or.inr gone) (since.cons _)
          (ReadPhase.read_known (kept p open_).symm known) ?_
        intro q open_q
        refine (kept q ?_).trans (same q).symm
        by_cases here : q = p
        · exact here ▸ open_
        · simpa only [ReadPhase.read, Function.update_of_ne here] using open_q
    | settled _ known => exact absurd (open_.symm.trans (known p)) (by simp)
  · -- it was the last one
    cases tracks with
    | fresh _ known =>
        exact .settled (.now rfl) (seen_of_known unread (ReadPhase.read_known rfl known))
    | stale _ gone since known kept =>
        exact .settled (since.during rfl)
          (seen_of_known unread (ReadPhase.read_known (kept p open_).symm known))
    | settled _ known => exact absurd (open_.symm.trans (known p)) (by simp)

/-- A call of the reader. -/
theorem Reading.mine (reading : Reading reader position val φ s trace)
    (apart : Function.Injective position) (moved : ReadMove position val φ s s' φ') :
    Reading reader position val φ' s' (⟨reader, s, s'⟩ :: trace) := by
  have calls : (Pool.callsOf (⟨reader, s, s'⟩ :: trace) reader).length = φ.calls + 1 := by
    rw [Pool.callsOf_cons_self ⟨reader, s, s'⟩ trace, List.length_append, reading.calls]
    rfl
  cases moved with
  | passes nothing same =>
      refine ⟨calls, ?_, ?_⟩
      · intro p
        have elsewhere := nothing p
        show φ.seen p = none ↔ φ.calls + 1 ≤ position p
        rw [reading.seen]
        omega
      · intro whole
        have tracks := reading.tracks fun torn => whole (Or.inr torn)
        exact (tracks.same same).cons _
  | reads here same =>
      rename_i p
      have open_ : φ.seen p = none := (reading.seen p).mpr (Nat.le_of_eq here.symm)
      refine ⟨calls, ?_, ?_⟩
      · intro q
        show (φ.read p (val p s)).seen q = none ↔ φ.calls + 1 ≤ position q
        by_cases this : q = p
        · subst this
          simp [ReadPhase.read, here]
        · have elsewhere : position q ≠ φ.calls := fun there => this (apart (there.trans here.symm))
          simp only [ReadPhase.read, Function.update_of_ne this, reading.seen]
          omega
      · intro whole
        exact (reading.tracks fun torn => whole (Or.inr torn)).read open_ same

end

/-! ## Whole runs -/

section

variable {ι σ ε α π : Type} {V : π → Type} [DecidableEq ι] [DecidableEq π] {reader : ι}
  {position : π → Nat} {val : (p : π) → σ → V p} {rely : σ → σ → Prop} {ready : ι → σ → Prop}
  {D : Except ε α → ReadPhase π V → Prop} {procs : ι → Prog σ ε α} {s₀ : σ} {P : Pool ι σ ε α}

/-- When the run is not torn, a reader that has read every part has read a state of the
run, from the time between its first call and its last. -/
theorem Pool.Run.snapshot [Nonempty π] (apart : Function.Injective position)
    (reads : (procs reader).Follows (fun _ => True) (ReadMove position val) D .start)
    (others : ∀ s s', rely s s' → ∀ p, val p s' = val p s)
    (run : Pool.Run rely ready (Pool.start procs s₀) P) {r : Except ε α} (ended : P.Ended reader r)
    (whole : ¬ Torn reader position val P.trace) :
    ∃ φ : ReadPhase π V, D r φ ∧ ((∀ p, φ.seen p ≠ none) →
      ∃ s, During reader P.trace s ∧ ∀ p, φ.seen p = some (val p s)) := by
  have reached := Pool.Run.invariant (Φ := ReadPhase π V) (I := fun _ _ => True)
    (T := fun i φ s s' φ' => i = reader → ReadMove position val φ s s' φ')
    (D := fun i r φ => i = reader → D r φ)
    (J := fun φ s trace => Reading reader position val (φ reader) s trace)
    (fun _ _ _ _ _ _ => trivial) ?_ ?_ (fun _ => .start) ?_ ?_ run
  · obtain ⟨φ, reading, follows⟩ := reached
    refine ⟨φ reader, (follows reader).ends ended rfl, ?_⟩
    intro all
    cases reading.tracks whole with
    | fresh unread _ =>
        obtain ⟨p, open_⟩ := unread
        exact absurd open_ (all p)
    | stale unread _ _ _ _ =>
        obtain ⟨p, open_⟩ := unread
        exact absurd open_ (all p)
    | settled during same => exact ⟨_, during, same⟩
  · intro φ s trace i s' φ' reading _ moved
    by_cases mine : i = reader
    · subst mine
      rw [Function.update_self]
      exact reading.mine apart (moved rfl)
    · rw [Function.update_of_ne (Ne.symm mine)]
      exact reading.other mine
  · intro φ s trace s' reading moved
    exact ⟨reading.calls, reading.seen, fun whole => (reading.tracks whole).same (others s s' moved)⟩
  · intro i
    by_cases mine : i = reader
    · subst mine
      exact reads.imp (fun _ _ _ _ moved _ => moved) fun _ _ ends _ => ends
    · exact .any _ (fun _ _ reader => absurd reader mine) fun _ reader => absurd reader mine
  · refine ⟨rfl, fun p => ⟨fun _ => Nat.zero_le _, fun _ => rfl⟩, fun _ => .fresh ?_ ?_⟩
    · obtain ⟨p⟩ := ‹Nonempty π›
      exact ⟨p, rfl⟩
    · intro p v impossible
      cases impossible

end

end Arac.Theory
