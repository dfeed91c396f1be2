/-
# Arac.Theory.Faults -- procedures whose calls may fail

A call of a procedure can fail from outside: the connection is gone before it takes
effect, or its effect is there and the reply is lost.  A `Fate` says which of these
befalls a call, and `runUnder` runs a procedure under one fate for each call, counted
from `n`.  A failed call ends the procedure with its error; nothing done before is
undone.

* `runUnder_eq_ok`: a procedure answers exactly when it would have answered anyway and
  each of its calls does.
* `Guarantees.runUnder`: what every call guarantees holds of a run under any fates, as
  a failed call either takes its effect or leaves the state alone.
* `runUnder_call_bind`, `runUnder_bind`: how the fates of a sequence fall.
* `StopsIn`: what holds wherever a procedure may stop, with a rule for sequences.
-/
import Arac.Theory.Async
import Mathlib.Tactic.Push

namespace Arac.Theory

set_option autoImplicit false

/-- What becomes of a call. -/
inductive Fate (ε : Type) where
  | answers
  /-- The caller sees this error; the effect may have been applied all the same. -/
  | throws (applied : Bool) (e : ε)
  deriving DecidableEq

namespace Prog

variable {σ ε α β : Type}

/-- Run under these fates, the next call being number `n`: the result, the number of the
call that would come next, and the state. -/
def runUnder (fates : Nat → Fate ε) : Prog σ ε α → Nat → σ → Except ε α × Nat × σ
  | .ret a, n, s => (.ok a, n, s)
  | .fail e, n, s => (.error e, n, s)
  | .await call next, n, s =>
      match fates n with
      | .answers => (next (call s).1).runUnder fates (n + 1) (call s).2
      | .throws true e => (.error e, n + 1, (call s).2)
      | .throws false e => (.error e, n + 1, s)

/-- How many calls the procedure makes alone. -/
def calls : Prog σ ε α → σ → Nat
  | .ret _, _ => 0
  | .fail _, _ => 0
  | .await call next, s => (next (call s).1).calls (call s).2 + 1

section

variable {fates : Nat → Fate ε}

@[simp] theorem runUnder_pure (a : α) (n : Nat) (s : σ) :
    (pure a : Prog σ ε α).runUnder fates n s = (.ok a, n, s) := rfl

@[simp] theorem runUnder_fail (e : ε) (n : Nat) (s : σ) :
    (Prog.fail e : Prog σ ε α).runUnder fates n s = (.error e, n, s) := rfl

theorem runUnder_await (c : σ → β × σ) (next : β → Prog σ ε α) (n : Nat) (s : σ) :
    (Prog.await c next).runUnder fates n s = match fates n with
      | .answers => (next (c s).1).runUnder fates (n + 1) (c s).2
      | .throws true e => (.error e, n + 1, (c s).2)
      | .throws false e => (.error e, n + 1, s) := rfl

theorem runUnder_bind (p : Prog σ ε α) (f : α → Prog σ ε β) (n : Nat) (s : σ) :
    (p >>= f).runUnder fates n s = match p.runUnder fates n s with
      | (.ok a, n', s') => (f a).runUnder fates n' s'
      | (.error e, n', s') => (.error e, n', s') := by
  induction p generalizing n s with
  | ret a => rfl
  | fail e => rfl
  | await c next ih =>
      change (Prog.await c fun b => next b >>= f).runUnder fates n s = _
      rw [runUnder_await, runUnder_await]
      cases fates n with
      | answers => exact ih (c s).1 (n + 1) (c s).2
      | throws applied e => cases applied <;> rfl

theorem runUnder_bind_ok {p : Prog σ ε α} {n n' : Nat} {s s' : σ} {a : α}
    (ok : p.runUnder fates n s = (.ok a, n', s')) (f : α → Prog σ ε β) :
    (p >>= f).runUnder fates n s = (f a).runUnder fates n' s' := by
  rw [runUnder_bind, ok]

theorem runUnder_bind_error {p : Prog σ ε α} {n n' : Nat} {s s' : σ} {e : ε}
    (failed : p.runUnder fates n s = (.error e, n', s')) (f : α → Prog σ ε β) :
    (p >>= f).runUnder fates n s = (.error e, n', s') := by
  rw [runUnder_bind, failed]

/-- One call, and the rest. -/
theorem runUnder_call_bind (c : σ → α × σ) (f : α → Prog σ ε β) (n : Nat) (s : σ) :
    (call c >>= f).runUnder fates n s = match fates n with
      | .answers => (f (c s).1).runUnder fates (n + 1) (c s).2
      | .throws true e => (.error e, n + 1, (c s).2)
      | .throws false e => (.error e, n + 1, s) := rfl

/-- Forgetting the value changes neither the failures nor the effects. -/
theorem runUnder_void (p : Prog σ ε α) (n : Nat) (s : σ) :
    p.void.runUnder fates n s =
      ((p.runUnder fates n s).1.map fun _ => (), (p.runUnder fates n s).2) := by
  rw [void, runUnder_bind]
  rcases p.runUnder fates n s with ⟨r, n', s'⟩
  cases r <;> rfl

/-- A procedure answers when it does so alone and none of its calls fails. -/
theorem runUnder_eq_ok {p : Prog σ ε α} {n m : Nat} {s s' : σ} {a : α} :
    p.runUnder fates n s = (.ok a, m, s') ↔
      p.run s = (.ok a, s') ∧ m = n + p.calls s ∧ ∀ k, n ≤ k → k < m → fates k = .answers := by
  induction p generalizing n s with
  | ret b =>
      constructor
      · rintro ⟨⟩
        exact ⟨rfl, rfl, fun k above below => by omega⟩
      · rintro ⟨same, rfl, -⟩
        cases same
        rfl
  | fail e => simp [runUnder, run]
  | await c next ih =>
      unfold runUnder run calls
      cases first : fates n with
      | answers =>
          simp only
          rw [ih]
          refine and_congr Iff.rfl ?_
          constructor
          · rintro ⟨rfl, rest⟩
            refine ⟨by omega, fun k above below => ?_⟩
            rcases Nat.eq_or_lt_of_le above with rfl | later
            · exact first
            · exact rest k later below
          · rintro ⟨rfl, rest⟩
            exact ⟨by omega, fun k above below => rest k (by omega) below⟩
      | throws applied e =>
          have failed : ¬ (m = n + ((next (c s).1).calls (c s).2 + 1) ∧
              ∀ k, n ≤ k → k < m → fates k = .answers) := by
            rintro ⟨rfl, rest⟩
            have answered := rest n (Nat.le_refl n) (by omega)
            rw [first] at answered
            cases answered
          cases applied <;> simp [failed]

/-- Where every call answers, a run is a run. -/
theorem runUnder_answers (p : Prog σ ε α) (n : Nat) (s : σ) :
    p.runUnder (fun _ => .answers) n s = ((p.run s).1, n + p.calls s, (p.run s).2) := by
  induction p generalizing n s with
  | ret a => rfl
  | fail e => rfl
  | await c next ih =>
      rw [runUnder_await, ih, run, calls, Nat.add_right_comm, Nat.add_assoc]

/-- It fails when it does so alone or one of its calls fails. -/
theorem runUnder_fails_iff {p : Prog σ ε α} {n : Nat} {s : σ} :
    (∃ e, (p.runUnder fates n s).1 = .error e) ↔
      (∃ e, (p.run s).1 = .error e) ∨ ∃ k, n ≤ k ∧ k < n + p.calls s ∧ fates k ≠ .answers := by
  have answers : (∃ a, (p.runUnder fates n s).1 = .ok a) ↔
      (∃ a, (p.run s).1 = .ok a) ∧ ∀ k, n ≤ k → k < n + p.calls s → fates k = .answers := by
    constructor
    · rintro ⟨a, ok⟩
      obtain ⟨alone, count, all⟩ := runUnder_eq_ok.mp
        (Prod.ext ok rfl : p.runUnder fates n s = (.ok a, _, _))
      rw [count] at all
      exact ⟨⟨a, congrArg Prod.fst alone⟩, all⟩
    · rintro ⟨⟨a, ok⟩, all⟩
      have run := runUnder_eq_ok.mpr ⟨(Prod.ext ok rfl : p.run s = (.ok a, _)), rfl, all⟩
      exact ⟨a, congrArg Prod.fst run⟩
  have either : ∀ r : Except ε α, (∃ e, r = .error e) ↔ ¬ ∃ a, r = .ok a := by
    rintro (e | a) <;> simp
  rw [either, answers, either, not_and_or]
  push Not
  rfl

end

/-! ## Counting calls -/

@[simp] theorem calls_pure (a : α) (s : σ) : (pure a : Prog σ ε α).calls s = 0 := rfl

@[simp] theorem calls_fail (e : ε) (s : σ) : (Prog.fail e : Prog σ ε α).calls s = 0 := rfl

@[simp] theorem calls_call (c : σ → β × σ) (s : σ) : (call c : Prog σ ε β).calls s = 1 := rfl

@[simp] theorem calls_ofExcept (r : Except ε α) (s : σ) :
    (ofExcept r : Prog σ ε α).calls s = 0 := by
  cases r <;> rfl

theorem calls_bind (p : Prog σ ε α) (f : α → Prog σ ε β) (s : σ) :
    (p >>= f).calls s = p.calls s + match p.run s with
      | (.ok a, s') => (f a).calls s'
      | (.error _, _) => 0 := by
  induction p generalizing s with
  | ret a => exact (Nat.zero_add _).symm
  | fail e => rfl
  | await c next ih =>
      calc ((Prog.await c next) >>= f).calls s
          = (next (c s).1 >>= f).calls (c s).2 + 1 := rfl
        _ = _ := by rw [ih, Nat.add_right_comm]; rfl

theorem calls_bind_ok {p : Prog σ ε α} {s s' : σ} {a : α} (ok : p.run s = (.ok a, s'))
    (f : α → Prog σ ε β) : (p >>= f).calls s = p.calls s + (f a).calls s' := by
  rw [calls_bind, ok]

/-! ## What a failing run may do -/

/-- Whatever fails, a run moves the state along `G` as each of its calls does. -/
theorem Guarantees.runUnder {G : σ → σ → Prop} (refl : ∀ s, G s s)
    (trans : ∀ s t u, G s t → G t u → G s u) {p : Prog σ ε α} (guarantee : p.Guarantees G)
    (fates : Nat → Fate ε) (n : Nat) (s : σ) : G s (p.runUnder fates n s).2.2 := by
  induction p generalizing n s with
  | ret a => exact refl s
  | fail e => exact refl s
  | await c next ih =>
      obtain ⟨moves, later⟩ := guarantee s
      unfold Prog.runUnder
      cases fates n with
      | answers => exact trans _ _ _ moves (ih _ later _ _)
      | throws applied e =>
          cases applied with
          | true => exact moves
          | false => exact refl s

/-! ## Where a procedure may stop -/

/-- From this state, whichever call fails, the run ends where `Q` holds. -/
def StopsIn (Q : σ → Prop) (p : Prog σ ε α) (s : σ) : Prop :=
  ∀ fates n, Q (p.runUnder fates n s).2.2

namespace StopsIn

variable {Q Q' : σ → Prop} {p : Prog σ ε α} {s : σ}

theorem pure (a : α) (here : Q s) : (Pure.pure a : Prog σ ε α).StopsIn Q s := fun _ _ => here

theorem fail (e : ε) (here : Q s) : (Prog.fail e : Prog σ ε α).StopsIn Q s := fun _ _ => here

/-- A call that fails may have taken effect. -/
theorem call {c : σ → α × σ} (here : Q s) (after : Q (c s).2) :
    (Prog.call c : Prog σ ε α).StopsIn Q s := by
  intro fates n
  rw [show (Prog.call c : Prog σ ε α) = Prog.call c >>= Prog.ret from rfl,
    runUnder_call_bind c Prog.ret n s]
  cases fates n with
  | answers => exact after
  | throws applied e =>
      cases applied with
      | true => exact after
      | false => exact here

theorem mono (weaker : ∀ s, Q s → Q' s) (stops : p.StopsIn Q s) : p.StopsIn Q' s :=
  fun fates n => weaker _ (stops fates n)

/-- A run in which nothing fails is one of the runs. -/
theorem run (stops : p.StopsIn Q s) : Q (p.run s).2 := by
  have ended := stops (fun _ => .answers) 0
  rwa [runUnder_answers] at ended

/-- The second part begins only where the first has answered. -/
theorem bind {f : α → Prog σ ε β} (first : p.StopsIn Q s)
    (rest : ∀ a s', p.run s = (.ok a, s') → (f a).StopsIn Q s') : (p >>= f).StopsIn Q s := by
  intro fates n
  have ended := first fates n
  rw [runUnder_bind]
  rcases ran : p.runUnder fates n s with ⟨result, m, s'⟩
  rw [ran] at ended
  cases result with
  | ok a => exact rest a s' (runUnder_eq_ok.mp ran).1 fates m
  | error e => exact ended

/-- Where each call of a procedure keeps the set of states, it stops in it. -/
theorem of_guarantees (here : Q s) (guarantee : p.Guarantees fun s s' => Q s → Q s') :
    p.StopsIn Q s :=
  fun fates n => guarantee.runUnder (fun _ holds => holds)
    (fun _ _ _ first second holds => second (first holds)) fates n s here

end StopsIn

end Prog

end Arac.Theory
