/-
# Arac.Theory.Interleaving -- several procedures over one shared state

A `Pool` holds procedures that run at the same time over one state.  One step of the
pool is one awaited call of one procedure, or a move of the surroundings along
`rely`; a procedure may only proceed in a state that is `ready` for it, so a call
that waits for a lock is a call whose procedure is not ready.  The pool keeps the
trace of the calls made, with the state each call met and the state it left.

Reasoning is by phases.  `Prog.Follows` says that a procedure moves through phases
along `T`, whatever states of `I` its calls meet, and ends in a phase that suits its
result; it is proved once, from the text of the procedure, by the rules `call`,
`bind`, `ofGuarantees`.  `Pool.Run.invariant` is the induction over a run: prove that
the invariant over phases, state and trace holds at the start and is kept by every
move of a phase.

`Pool.play` runs a pool along a given schedule.
-/
import Arac.Theory.Async
import Mathlib.Logic.Function.Basic
import Mathlib.Data.List.DropRight
import Mathlib.Logic.Relation

namespace Arac.Theory

set_option autoImplicit false

namespace Prog

variable {σ ε α β Φ : Type}

/-- The result of a procedure that makes no more calls. -/
def ended : Prog σ ε α → Option (Except ε α)
  | .ret a => some (.ok a)
  | .fail e => some (.error e)
  | .await _ _ => none

/-! ## Phases -/

/-- From this phase on, every call moves the phase along `T`, and the procedure ends
in a phase that `D` allows for its result. -/
def Follows (I : σ → Prop) (T : Φ → σ → σ → Φ → Prop) (D : Except ε α → Φ → Prop) :
    Prog σ ε α → Φ → Prop
  | .ret a, φ => D (.ok a) φ
  | .fail e, φ => D (.error e) φ
  | .await call next, φ =>
      ∀ s, I s → ∃ φ', T φ s (call s).2 φ' ∧ (next (call s).1).Follows I T D φ'

namespace Follows

variable {I : σ → Prop} {T : Φ → σ → σ → Φ → Prop} {D : Except ε α → Φ → Prop} {φ : Φ}

theorem pure {a : α} (ends : D (.ok a) φ) : (Pure.pure a : Prog σ ε α).Follows I T D φ := ends

theorem fail {e : ε} (ends : D (.error e) φ) :
    (Prog.fail e : Prog σ ε α).Follows I T D φ := ends

theorem ofExcept {r : Except ε α} (ends : D r φ) : (Prog.ofExcept r : Prog σ ε α).Follows I T D φ := by
  cases r <;> exact ends

theorem call {c : σ → α × σ}
    (moves : ∀ s, I s → ∃ φ', T φ s (c s).2 φ' ∧ D (.ok (c s).1) φ') :
    (Prog.call c : Prog σ ε α).Follows I T D φ := moves

/-- A sequence follows the phases of its first part, then those of the rest. -/
theorem bind {p : Prog σ ε α} {f : α → Prog σ ε β} {after : Except ε β → Φ → Prop}
    (first : p.Follows I T D φ) (rest : ∀ a φ', D (.ok a) φ' → (f a).Follows I T after φ')
    (stops : ∀ e φ', D (.error e) φ' → after (.error e) φ') :
    (p >>= f).Follows I T after φ := by
  induction p generalizing φ with
  | ret a => exact rest a φ first
  | fail e => exact stops e φ first
  | await c next ih =>
      intro s holds
      obtain ⟨φ', moved, later⟩ := first s holds
      exact ⟨φ', moved, ih (c s).1 later⟩

/-- With more moves, and less asked of the end. -/
theorem imp {p : Prog σ ε α} {T' : Φ → σ → σ → Φ → Prop} {D' : Except ε α → Φ → Prop}
    (follows : p.Follows I T D φ) (moves : ∀ φ s s' φ', T φ s s' φ' → T' φ s s' φ')
    (weaker : ∀ r φ', D r φ' → D' r φ') : p.Follows I T' D' φ := by
  induction p generalizing φ with
  | ret a => exact weaker _ _ follows
  | fail e => exact weaker _ _ follows
  | await c next ih =>
      intro s holds
      obtain ⟨φ', moved, later⟩ := follows s holds
      exact ⟨φ', moves _ _ _ _ moved, ih (c s).1 later⟩

theorem mono {p : Prog σ ε α} {D' : Except ε α → Φ → Prop} (follows : p.Follows I T D φ)
    (weaker : ∀ r φ', D r φ' → D' r φ') : p.Follows I T D' φ :=
  follows.imp (fun _ _ _ _ moved => moved) weaker

/-- Where every move is allowed a procedure may stay in one phase. -/
theorem any (p : Prog σ ε α) (stays : ∀ s s', T φ s s' φ) (ends : ∀ r, D r φ) :
    p.Follows I T D φ := by
  induction p with
  | ret a => exact ends _
  | fail e => exact ends _
  | await c next ih => exact fun s _ => ⟨φ, stays s _, ih _⟩

/-- The errors it can fail with are known. -/
theorem raises {p : Prog σ ε α} {Q : ε → Prop} (follows : p.Follows I T D φ)
    (raises : p.Raises Q) :
    p.Follows I T (fun r φ' => D r φ' ∧ ∀ e, r = .error e → Q e) φ := by
  induction p generalizing φ with
  | ret a => exact ⟨follows, fun e impossible => by cases impossible⟩
  | fail e =>
      refine ⟨follows, ?_⟩
      rintro e' ⟨⟩
      exact raises
  | await c next ih =>
      intro s holds
      obtain ⟨φ', moved, later⟩ := follows s holds
      exact ⟨φ', moved, ih (c s).1 later (raises s)⟩

/-- Calls that do not leave the phase. -/
theorem ofGuarantees {G : σ → σ → Prop} {p : Prog σ ε α} (guarantee : p.Guarantees G)
    (stays : ∀ s s', I s → G s s' → T φ s s' φ) :
    p.Follows I T (fun _ φ' => φ' = φ) φ := by
  induction p with
  | ret a => exact rfl
  | fail e => exact rfl
  | await c next ih =>
      intro s holds
      obtain ⟨moved, later⟩ := guarantee s
      exact ⟨φ, stays s (c s).2 holds moved, ih (c s).1 later⟩

/-- A procedure that has ended has ended in a phase that suits its result. -/
theorem ends {p : Prog σ ε α} {r : Except ε α} (follows : p.Follows I T D φ)
    (ended : p.ended = some r) : D r φ := by
  cases p with
  | ret a =>
      cases ended
      exact follows
  | fail e =>
      cases ended
      exact follows
  | await c next => cases ended

/-- In a phase without moves it has ended. -/
theorem ended {p : Prog σ ε α} (follows : p.Follows I T D φ) {s : σ} (holds : I s)
    (stuck : ∀ s' φ', ¬ T φ s s' φ') : ∃ r, p.ended = some r ∧ D r φ := by
  cases p with
  | ret a => exact ⟨.ok a, rfl, follows⟩
  | fail e => exact ⟨.error e, rfl, follows⟩
  | await c next =>
      obtain ⟨φ', moved, -⟩ := follows s holds
      exact absurd moved (stuck _ φ')

/-- Alone it ends in a phase that suits its result, where its moves keep `I`. -/
theorem run {p : Prog σ ε α} (follows : p.Follows I T D φ)
    (keeps : ∀ φ s s' φ', I s → T φ s s' φ' → I s') {s : σ} (holds : I s) :
    ∃ φ', D (p.run s).1 φ' := by
  induction p generalizing φ s with
  | ret a => exact ⟨φ, follows⟩
  | fail e => exact ⟨φ, follows⟩
  | await c next ih =>
      obtain ⟨φ', moved, later⟩ := follows s holds
      exact ih _ later (keeps φ s _ φ' holds moved)

end Follows

/-! ## A part of the state -/

variable {τ : Type}

/-- Run a procedure over a part of a larger state. -/
def zoom (get : τ → σ) (set : τ → σ → τ) : Prog σ ε α → Prog τ ε α
  | .ret a => .ret a
  | .fail e => .fail e
  | .await call next =>
      .await (fun t => ((call (get t)).1, set t (call (get t)).2)) fun b => (next b).zoom get set

/-- A procedure over a part goes through the phases it goes through there. -/
theorem Follows.zoom {get : τ → σ} {set : τ → σ → τ} {I : σ → Prop} {H : τ → Prop}
    {T : Φ → σ → σ → Φ → Prop} {U : Φ → τ → τ → Φ → Prop} {D : Except ε α → Φ → Prop}
    {p : Prog σ ε α} {φ : Φ} (follows : p.Follows I T D φ) (holds : ∀ t, H t → I (get t))
    (lifts : ∀ φ t s φ', H t → T φ (get t) s φ' → U φ t (set t s) φ') :
    (p.zoom get set).Follows H U D φ := by
  induction p generalizing φ with
  | ret a => exact follows
  | fail e => exact follows
  | await c next ih =>
      intro t here
      obtain ⟨φ', moved, later⟩ := follows (get t) (holds t here)
      exact ⟨φ', lifts φ t _ φ' here moved, ih _ later⟩

/-- A run over a part of a state changes that part as it does there. -/
theorem run_zoom (get : τ → σ) (set : τ → σ → τ) (get_set : ∀ t s, get (set t s) = s)
    (set_get : ∀ t, set t (get t) = t) (set_set : ∀ t s s', set (set t s) s' = set t s')
    (p : Prog σ ε α) (t : τ) :
    (p.zoom get set).run t = ((p.run (get t)).1, set t (p.run (get t)).2) := by
  induction p generalizing t with
  | ret a => exact congrArg (Prod.mk _) (set_get t).symm
  | fail e => exact congrArg (Prod.mk _) (set_get t).symm
  | await c next ih =>
      apply (ih _ _).trans
      rw [get_set, set_set]
      rfl

end Prog

/-! ## Pools -/

/-- A call that was made: by whom, the state it met and the state it left. -/
structure Made (ι σ : Type) where
  who : ι
  met : σ
  left : σ

/-- Procedures over one state, and the calls made so far, newest first. -/
structure Pool (ι σ ε α : Type) : Type 1 where
  procs : ι → Prog σ ε α
  state : σ
  trace : List (Made ι σ)

namespace Pool

variable {ι σ ε α Φ : Type}

/-- Before any call. -/
def start (procs : ι → Prog σ ε α) (state : σ) : Pool ι σ ε α := ⟨procs, state, []⟩

/-- The procedure has ended with this result. -/
def Ended (P : Pool ι σ ε α) (i : ι) (r : Except ε α) : Prop := (P.procs i).ended = some r

theorem exists_ended_ok {P : Pool ι σ ε α} {i : ι}
    (returned : ((P.procs i).ended.bind Except.toOption).isSome = true) :
    ∃ a, P.Ended i (.ok a) := by
  obtain ⟨a, at_i⟩ := Option.isSome_iff_exists.mp returned
  obtain ⟨r, ended, ok⟩ := Option.bind_eq_some_iff.mp at_i
  cases r with
  | error e => cases ok
  | ok b => exact ⟨b, ended⟩

variable [DecidableEq ι]

/-- The calls that a procedure made, oldest first. -/
def callsOf (trace : List (Made ι σ)) (i : ι) : List (Made ι σ) :=
  (trace.filter fun e => e.who = i).reverse

theorem callsOf_cons_self (e : Made ι σ) (trace : List (Made ι σ)) :
    callsOf (e :: trace) e.who = callsOf trace e.who ++ [e] := by
  simp [callsOf]

theorem callsOf_cons_ne {e : Made ι σ} {trace : List (Made ι σ)} {i : ι} (other : e.who ≠ i) :
    callsOf (e :: trace) i = callsOf trace i := by
  simp [callsOf, other]

/-- A call keeps its place. -/
theorem callsOf_cons_some {e e' : Made ι σ} {trace : List (Made ι σ)} {i : ι} {n : Nat}
    (found : (callsOf trace i)[n]? = some e') : (callsOf (e :: trace) i)[n]? = some e' := by
  by_cases mine : e.who = i
  · subst mine
    rw [callsOf_cons_self]
    exact List.getElem?_append_left (List.getElem?_eq_some_iff.mp found).1 ▸ found
  · rw [callsOf_cons_ne mine]
    exact found

/-- What relates each phase to the calls of its procedure is shown only of the procedure
that moves. -/
theorem forall_callsOf_cons (φ : ι → Φ) {q : ι → Φ → List (Made ι σ) → Prop} {φ' : Φ}
    {e : Made ι σ} {trace : List (Made ι σ)} (before : ∀ i, q i (φ i) (callsOf trace i))
    (mine : q e.who φ' (callsOf trace e.who ++ [e])) (i : ι) :
    q i (Function.update φ e.who φ' i) (callsOf (e :: trace) i) := by
  by_cases other : e.who = i
  · subst other
    rw [Function.update_self, callsOf_cons_self]
    exact mine
  · rw [Function.update_of_ne (Ne.symm other), callsOf_cons_ne other]
    exact before i

/-- The first call a procedure made. -/
def firstCall (trace : List (Made ι σ)) (i : ι) : Option (Made ι σ) := (callsOf trace i)[0]?

theorem firstCall_cons_ne {e : Made ι σ} {trace : List (Made ι σ)} {i : ι} (other : e.who ≠ i) :
    firstCall (e :: trace) i = firstCall trace i := by
  rw [firstCall, firstCall, callsOf_cons_ne other]

theorem firstCall_cons_some {e e' : Made ι σ} {trace : List (Made ι σ)} {i : ι}
    (found : firstCall trace i = some e') : firstCall (e :: trace) i = some e' :=
  callsOf_cons_some found

theorem firstCall_cons_none {e : Made ι σ} {trace : List (Made ι σ)}
    (nothing : firstCall trace e.who = none) : firstCall (e :: trace) e.who = some e := by
  have empty : callsOf trace e.who = [] := by simpa [firstCall] using nothing
  rw [firstCall, callsOf_cons_self, empty]
  rfl

/-- The calls made before the first one of this procedure, newest first. -/
def before (trace : List (Made ι σ)) (i : ι) : List (Made ι σ) :=
  trace.rtakeWhile fun e => e.who ≠ i

theorem before_suffix {trace : List (Made ι σ)} {i : ι} : before trace i <:+ trace :=
  List.rtakeWhile_suffix _ trace

theorem firstCall_eq_none {trace : List (Made ι σ)} {i : ι} :
    firstCall trace i = none ↔ ∀ e ∈ trace, e.who ≠ i := by
  simp [firstCall, callsOf]

/-- At its first call everything so far came before. -/
theorem before_cons_none {e : Made ι σ} {trace : List (Made ι σ)}
    (nothing : firstCall trace e.who = none) : before (e :: trace) e.who = trace := by
  have others : ∀ e' ∈ trace.reverse, (decide (e'.who ≠ e.who)) = true := by
    intro e' member
    exact decide_eq_true (firstCall_eq_none.mp nothing e' (List.mem_reverse.mp member))
  rw [before, List.rtakeWhile, List.reverse_cons, List.takeWhile_append_of_pos others]
  simp

/-- Later calls change nothing about what came before the first. -/
theorem before_cons_some {e : Made ι σ} {trace : List (Made ι σ)} {i : ι}
    (made : firstCall trace i ≠ none) : before (e :: trace) i = before trace i := by
  have some_mine : (trace.reverse.takeWhile fun e => e.who ≠ i).length ≠ trace.reverse.length := by
    intro all
    apply made
    rw [firstCall_eq_none]
    intro e' member
    have whole := (List.takeWhile_prefix (l := trace.reverse) fun e : Made ι σ =>
      decide (e.who ≠ i)).eq_of_length all
    exact of_decide_eq_true (List.takeWhile_eq_self_iff.mp whole e' (List.mem_reverse.mpr member))
  rw [before, before, List.rtakeWhile, List.reverse_cons, List.takeWhile_append, if_neg some_mine,
    List.rtakeWhile]

variable (rely : σ → σ → Prop) (ready : ι → σ → Prop)

/-- One call of a procedure that is ready, or a move of the surroundings. -/
inductive Step : Pool ι σ ε α → Pool ι σ ε α → Prop
  | call {P : Pool ι σ ε α} (i : ι) {β : Type} {c : σ → β × σ} {next : β → Prog σ ε α}
      (awaits : P.procs i = .await c next) (free : ready i P.state) :
      Step P
        { procs := Function.update P.procs i (next (c P.state).1)
          state := (c P.state).2
          trace := ⟨i, P.state, (c P.state).2⟩ :: P.trace }
  | other {P : Pool ι σ ε α} {s : σ} (moved : rely P.state s) : Step P { P with state := s }

def Run : Pool ι σ ε α → Pool ι σ ε α → Prop := Relation.ReflTransGen (Step rely ready)

variable {rely ready} {P₀ P : Pool ι σ ε α}

/-- An invariant of phases, state and trace that every move of a phase keeps holds
after every run of procedures that follow their phases. -/
theorem Run.invariant {I : ι → σ → Prop} {T : ι → Φ → σ → σ → Φ → Prop}
    {D : ι → Except ε α → Φ → Prop} (J : (ι → Φ) → σ → List (Made ι σ) → Prop)
    (holds : ∀ φ s trace i, J φ s trace → ready i s → I i s)
    (call : ∀ φ s trace i s' φ', J φ s trace → ready i s → T i (φ i) s s' φ' →
      J (Function.update φ i φ') s' (⟨i, s, s'⟩ :: trace))
    (other : ∀ φ s trace s', J φ s trace → rely s s' → J φ s' trace)
    (φ₀ : ι → Φ) (follows : ∀ i, (P₀.procs i).Follows (I i) (T i) (D i) (φ₀ i))
    (start : J φ₀ P₀.state P₀.trace) (run : Run rely ready P₀ P) :
    ∃ φ, J φ P.state P.trace ∧ ∀ i, (P.procs i).Follows (I i) (T i) (D i) (φ i) := by
  induction run with
  | refl => exact ⟨φ₀, start, follows⟩
  | tail _ last ih =>
      obtain ⟨φ, inv, follows⟩ := ih
      cases last with
      | other moved => exact ⟨φ, other φ _ _ _ inv moved, follows⟩
      | call i awaits free =>
          have mine := follows i
          rw [awaits] at mine
          obtain ⟨φ', moved, later⟩ := mine _ (holds φ _ _ i inv free)
          refine ⟨Function.update φ i φ', call φ _ _ i _ φ' inv free moved, ?_⟩
          intro j
          by_cases same : j = i
          · subst same
            simpa using later
          · simpa [same] using follows j

theorem Run.trans {P' : Pool ι σ ε α} (first : Run rely ready P₀ P) (second : Run rely ready P P') :
    Run rely ready P₀ P' := Relation.ReflTransGen.trans first second

/-! ## Running along a schedule -/

/-- The next call of the procedure, if there is one and it is ready. -/
def turn (ready : ι → σ → Prop) [∀ i s, Decidable (ready i s)] (P : Pool ι σ ε α) (i : ι) :
    Pool ι σ ε α :=
  match P.procs i with
  | .await c next =>
      if ready i P.state then
        { procs := Function.update P.procs i (next (c P.state).1)
          state := (c P.state).2
          trace := ⟨i, P.state, (c P.state).2⟩ :: P.trace }
      else P
  | _ => P

def play (ready : ι → σ → Prop) [∀ i s, Decidable (ready i s)] (P : Pool ι σ ε α)
    (schedule : List ι) : Pool ι σ ε α := schedule.foldl (turn ready) P

theorem run_turn [∀ i s, Decidable (ready i s)] (P : Pool ι σ ε α) (i : ι) :
    Run rely ready P (turn ready P i) := by
  unfold turn
  split
  · rename_i awaits
    split
    · rename_i free
      exact Relation.ReflTransGen.single (.call i awaits free)
    · exact Relation.ReflTransGen.refl
  · exact Relation.ReflTransGen.refl

/-- Playing a schedule is a run. -/
theorem run_play [∀ i s, Decidable (ready i s)] (P : Pool ι σ ε α) (schedule : List ι) :
    Run rely ready P (play ready P schedule) := by
  induction schedule generalizing P with
  | nil => exact Relation.ReflTransGen.refl
  | cons i schedule ih => exact (run_turn P i).trans (ih (turn ready P i))

end Pool

end Arac.Theory
