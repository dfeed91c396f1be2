/-
# Arac.Theory.Commuting -- procedures that do not see each other

Two calls commute when neither changes what the other answers and both orders lead to one
state.  Procedures whose calls commute, each with each, may be interleaved in any way: each
returns what it returns alone, and the state at the end is that of running one after the
other, in either order (`Pool.Run.inOrder`).

The argument moves one call at a time: the rest of a procedure can be run before or after a
call that commutes with all of its own (`Makes.run_commute`), so the state that the pool would
reach by running what is left, one procedure after the other, never changes.

The surroundings may move too.  They lead to another state along a relation that does not
matter to either procedure (`Steady`), and the state at the end is then so related.
-/
import Arac.Theory.Interleaving

namespace Arac.Theory

set_option autoImplicit false

variable {σ ε α β γ : Type}

/-- Neither call sees the other. -/
structure Commute (c : σ → α × σ) (d : σ → β × σ) : Prop where
  left : ∀ s, (c (d s).2).1 = (c s).1
  right : ∀ s, (d (c s).2).1 = (d s).1
  state : ∀ s, (c (d s).2).2 = (d (c s).2).2

namespace Commute

variable {c : σ → α × σ} {d : σ → β × σ}

theorem symm (commute : Commute c d) : Commute d c :=
  ⟨commute.right, commute.left, fun s => (commute.state s).symm⟩

/-- A call that changes nothing, and whose answer the other does not change. -/
theorem of_quiet (quiet : ∀ s, (c s).2 = s) (answer : ∀ s, (c (d s).2).1 = (c s).1) :
    Commute c d := by
  refine ⟨answer, fun s => ?_, fun s => ?_⟩
  · rw [quiet]
  · rw [quiet, quiet]

/-- Calls that answer nothing commute where their effects do. -/
theorem of_silent {c d : σ → Unit × σ} (state : ∀ s, (c (d s).2).2 = (d (c s).2).2) : Commute c d :=
  ⟨fun _ => rfl, fun _ => rfl, state⟩

end Commute

namespace Prog

/-- A property that a procedure has when its parts have it. -/
structure Compositional (Q : {α : Type} → Prog σ ε α → Prop) : Prop where
  pure : ∀ {α : Type} (a : α), Q (Pure.pure a : Prog σ ε α)
  fail : ∀ {α : Type} (e : ε), Q (Prog.fail e : Prog σ ε α)
  bind : ∀ {α β : Type} {p : Prog σ ε α} {f : α → Prog σ ε β}, Q p → (∀ a, Q (f a)) → Q (p >>= f)

theorem Compositional.ofExcept {Q : {α : Type} → Prog σ ε α → Prop} (parts : Compositional Q)
    (r : Except ε α) : Q (Prog.ofExcept r : Prog σ ε α) := by
  cases r with
  | ok a => exact parts.pure a
  | error e => exact parts.fail e

/-- Every call of the procedure is of the kind, whatever the calls before it answer. -/
def Makes (K : {β : Type} → (σ → β × σ) → Prop) : Prog σ ε α → Prop
  | .ret _ => True
  | .fail _ => True
  | .await c next => K c ∧ ∀ b, (next b).Makes K

namespace Makes

variable {K : {β : Type} → (σ → β × σ) → Prop}

theorem pure (a : α) : (Pure.pure a : Prog σ ε α).Makes K := trivial

theorem fail (e : ε) : (Prog.fail e : Prog σ ε α).Makes K := trivial

theorem call {c : σ → α × σ} (kind : K c) : (Prog.call c : Prog σ ε α).Makes K :=
  ⟨kind, fun _ => trivial⟩

theorem bind {p : Prog σ ε α} {f : α → Prog σ ε β} (first : p.Makes K)
    (rest : ∀ a, (f a).Makes K) : (p >>= f).Makes K := by
  induction p with
  | ret a => exact rest a
  | fail e => trivial
  | await c next ih => exact ⟨first.1, fun b => ih b (first.2 b)⟩

theorem compositional :
    Compositional fun {α} (p : Prog σ ε α) => p.Makes K := ⟨pure, fail, bind⟩

end Makes

theorem Makes.imp {K L : {β : Type} → (σ → β × σ) → Prop} {p : Prog σ ε α}
    (weaker : ∀ {β : Type} (c : σ → β × σ), K c → L c) (makes : p.Makes K) : p.Makes L := by
  induction p with
  | ret a => trivial
  | fail e => trivial
  | await c next ih => exact ⟨weaker c makes.1, fun b => ih b (makes.2 b)⟩

/-- A call that commutes with every call of a procedure may come before or after it. -/
theorem Makes.run_commute {d : σ → γ × σ} {p : Prog σ ε α}
    (makes : p.Makes fun {β} (c : σ → β × σ) => Commute c d) (s : σ) :
    p.run (d s).2 = ((p.run s).1, (d (p.run s).2).2) ∧ (d (p.run s).2).1 = (d s).1 := by
  induction p generalizing s with
  | ret a => exact ⟨rfl, rfl⟩
  | fail e => exact ⟨rfl, rfl⟩
  | await c next ih =>
      obtain ⟨commute, later⟩ := makes
      obtain ⟨run, answer⟩ := ih (c s).1 (later (c s).1) (c s).2
      constructor
      · show (next (c (d s).2).1).run (c (d s).2).2 = _
        rw [commute.left, commute.state, run]
        rfl
      · exact answer.trans (commute.right s)

/-- So may a whole procedure. -/
theorem Makes.run_apart {K L : {β : Type} → (σ → β × σ) → Prop} {p : Prog σ ε α} {q : Prog σ ε β}
    (apart : ∀ {β γ : Type} (c : σ → β × σ) (d : σ → γ × σ), K c → L d → Commute c d)
    (mine : p.Makes K) (yours : q.Makes L) (s : σ) :
    p.run (q.run s).2 = ((p.run s).1, (q.run (p.run s).2).2) ∧ (q.run (p.run s).2).1 = (q.run s).1 := by
  induction q generalizing s with
  | ret b => exact ⟨rfl, rfl⟩
  | fail e => exact ⟨rfl, rfl⟩
  | await d next ih =>
      obtain ⟨kind, later⟩ := yours
      obtain ⟨past, answer⟩ := (mine.imp fun c kind' => apart c d kind' kind).run_commute s
      obtain ⟨run, result⟩ := ih (d s).1 (later (d s).1) (d s).2
      constructor
      · show p.run ((next (d s).1).run (d s).2).2 = _
        rw [run, past]
        show _ = ((p.run s).1, ((next (d (p.run s).2).1).run (d (p.run s).2).2).2)
        rw [answer]
      · show ((next (d (p.run s).2).1).run (d (p.run s).2).2).1 = ((next (d s).1).run (d s).2).1
        rw [answer, ← result, past]

/-! ## Related states -/

/-- Now and after each of its calls, the procedure returns the same from related states and
leaves related states. -/
def Steady (R : σ → σ → Prop) : Prog σ ε α → Prop
  | .ret _ => True
  | .fail _ => True
  | .await c next =>
      (∀ s s', R s s' → ((Prog.await c next).run s').1 = ((Prog.await c next).run s).1 ∧
        R ((Prog.await c next).run s).2 ((Prog.await c next).run s').2) ∧
      ∀ b, (next b).Steady R

namespace Steady

variable {R : σ → σ → Prop} {s s' : σ}

theorem agree {p : Prog σ ε α} (steady : p.Steady R) (related : R s s') :
    (p.run s').1 = (p.run s).1 ∧ R (p.run s).2 (p.run s').2 := by
  cases p with
  | ret a => exact ⟨rfl, related⟩
  | fail e => exact ⟨rfl, related⟩
  | await c next => exact steady.1 s s' related

theorem pure (a : α) : (Pure.pure a : Prog σ ε α).Steady R := trivial

theorem fail (e : ε) : (Prog.fail e : Prog σ ε α).Steady R := trivial

theorem bind {p : Prog σ ε α} {f : α → Prog σ ε β} (first : p.Steady R)
    (rest : ∀ a, (f a).Steady R) : (p >>= f).Steady R := by
  induction p with
  | ret a => exact rest a
  | fail e => trivial
  | await c next ih =>
      refine ⟨fun s s' related => ?_, fun b => ih b (first.2 b)⟩
      obtain ⟨answer, left⟩ := first.agree related
      show ((Prog.await c next >>= f).run s').1 = ((Prog.await c next >>= f).run s).1 ∧
        R ((Prog.await c next >>= f).run s).2 ((Prog.await c next >>= f).run s').2
      rw [run_bind, run_bind]
      generalize (Prog.await c next).run s = one at answer left
      generalize (Prog.await c next).run s' = two at answer left
      rcases one with ⟨result, t⟩
      rcases two with ⟨result', t'⟩
      obtain rfl : result' = result := answer
      cases result' with
      | ok a => exact (rest a).agree left
      | error e => exact ⟨rfl, left⟩

theorem compositional : Compositional fun {α} (p : Prog σ ε α) => p.Steady R := ⟨pure, fail, bind⟩

/-- Calls that answer alike in related states are enough. -/
theorem of_makes {p : Prog σ ε α}
    (makes : p.Makes fun {β} (c : σ → β × σ) =>
      ∀ s s', R s s' → (c s').1 = (c s).1 ∧ R (c s).2 (c s').2) : p.Steady R := by
  induction p with
  | ret a => trivial
  | fail e => trivial
  | await c next ih =>
      have later : ∀ b, (next b).Steady R := fun b => ih b (makes.2 b)
      refine ⟨fun s s' related => ?_, later⟩
      obtain ⟨answer, left⟩ := makes.1 s s' related
      show ((next (c s').1).run (c s').2).1 = _ ∧ R _ ((next (c s').1).run (c s').2).2
      rw [answer]
      exact (later (c s).1).agree left

end Steady

theorem run_of_ended {p : Prog σ ε α} {r : Except ε α} (ended : p.ended = some r) (s : σ) :
    p.run s = (r, s) := by
  cases p with
  | ret a =>
      cases ended
      rfl
  | fail e =>
      cases ended
      rfl
  | await c next => cases ended

end Prog

namespace Pool

variable {ι : Type} {rely : σ → σ → Prop} {ready : ι → σ → Prop} {P₀ P : Pool ι σ ε α} {i j : ι}

/-- The results and the state of running what is left of `i`, and then what is left of `j`. -/
def inOrder (P : Pool ι σ ε α) (i j : ι) : Except ε α × Except ε α × σ :=
  let first := (P.procs i).run P.state
  (first.1, (P.procs j).run first.2)

theorem inOrder_ended {r r' : Except ε α} (ended : P.Ended i r) (ended' : P.Ended j r') :
    P.inOrder i j = (r, r', P.state) := by
  simp only [inOrder, Prog.run_of_ended ended, Prog.run_of_ended ended']

/-- The same results, and related states. -/
def AsGood (R : σ → σ → Prop) (o o' : Except ε α × Except ε α × σ) : Prop :=
  o'.1 = o.1 ∧ o'.2.1 = o.2.1 ∧ R o.2.2 o'.2.2

/-- What is left may as well begin in a related state. -/
theorem inOrder_steady {R : σ → σ → Prop} {s' : σ} (steady : (P.procs i).Steady R)
    (steady' : (P.procs j).Steady R) (related : R P.state s') :
    AsGood R (P.inOrder i j) ((⟨P.procs, s', P.trace⟩ : Pool ι σ ε α).inOrder i j) := by
  obtain ⟨first, left⟩ := steady.agree related
  obtain ⟨second, left'⟩ := steady'.agree left
  exact ⟨first, second, left'⟩

variable [DecidableEq ι] {β : Type} {c : σ → β × σ} {next : β → Prog σ ε α}

/-- What is left of `i` begins with the call that `i` makes. -/
theorem inOrder_first (ne : i ≠ j) (awaits : P.procs i = .await c next) (trace : List (Made ι σ)) :
    (⟨Function.update P.procs i (next (c P.state).1), (c P.state).2, trace⟩ : Pool ι σ ε α).inOrder i j =
      P.inOrder i j := by
  simp only [inOrder, Function.update_self, Function.update_of_ne ne.symm, awaits]
  rfl

/-- A call that `j` makes could as well have come after `i`. -/
theorem inOrder_second (ne : i ≠ j) (awaits : P.procs j = .await c next)
    (apart : (P.procs i).Makes fun c' => Commute c' c) (trace : List (Made ι σ)) :
    (⟨Function.update P.procs j (next (c P.state).1), (c P.state).2, trace⟩ : Pool ι σ ε α).inOrder i j =
      P.inOrder i j := by
  obtain ⟨past, answer⟩ := apart.run_commute P.state
  simp only [inOrder, Function.update_self, Function.update_of_ne ne, awaits, past]
  show _ = (_, (next (c ((P.procs i).run P.state).2).1).run (c ((P.procs i).run P.state).2).2)
  rw [answer]

/-- A run of two procedures whose calls commute ends in what running one and then the other
returns and leaves, but for what the surroundings did. -/
theorem Run.inOrder {K L : {β : Type} → (σ → β × σ) → Prop} {R : σ → σ → Prop}
    (apart : ∀ {β γ : Type} (c : σ → β × σ) (d : σ → γ × σ), K c → L d → Commute c d)
    (ne : i ≠ j) (only : ∀ k, k = i ∨ k = j) (refl : ∀ s, R s s)
    (trans : ∀ {s s' s''}, R s s' → R s' s'' → R s s'') (moves : ∀ s s', rely s s' → R s s')
    (mine : (P₀.procs i).Makes K) (yours : (P₀.procs j).Makes L)
    (steady : ∀ k, (P₀.procs k).Steady R) (run : Run rely ready P₀ P) :
    AsGood R (P₀.inOrder i j) (P.inOrder i j) := by
  -- what is left of the procedures still makes such calls, and is still steady
  have kept : AsGood R (P₀.inOrder i j) (P.inOrder i j) ∧ (P.procs i).Makes K ∧
      (P.procs j).Makes L ∧ ∀ k, (P.procs k).Steady R := by
    induction run with
    | refl => exact ⟨⟨rfl, rfl, refl _⟩, mine, yours, steady⟩
    | @tail P P' _ last ih =>
        obtain ⟨same, mine, yours, steady⟩ := ih
        cases last with
        | other moved =>
            obtain ⟨first, second, left⟩ := inOrder_steady (steady i) (steady j) (moves _ _ moved)
            exact ⟨⟨first.trans same.1, second.trans same.2.1, trans same.2.2 left⟩, mine, yours,
              steady⟩
        | @call k _ c next awaits _ =>
            have later : ∀ k', (Function.update P.procs k (next (c P.state).1) k').Steady R := by
              intro k'
              by_cases here : k' = k
              · subst here
                have still := steady k'
                rw [awaits] at still
                simpa using still.2 _
              · simpa [here] using steady k'
            rcases only k with rfl | rfl
            · rw [← inOrder_first ne awaits] at same
              rw [awaits] at mine
              exact ⟨same, by simpa using mine.2 _, by simpa [ne.symm] using yours, later⟩
            · rw [awaits] at yours
              have passed := mine.imp fun c' kind => apart c' _ kind yours.1
              rw [← inOrder_second ne awaits passed] at same
              exact ⟨same, by simpa [ne] using mine, by simpa using yours.2 _, later⟩
  exact kept.1

end Pool

end Arac.Theory
