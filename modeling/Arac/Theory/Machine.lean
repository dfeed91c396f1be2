/-
# Arac.Theory.Machine -- deterministic machines that keep a log

A `Machine` answers events: every event has one successor state and leaves one
entry in the log.  A `Config` pairs the log so far (newest entry first) with the
state, so an assumption about a run (that a random value was not handed out
before) is a predicate on the log and the next event, and an invariant may read
the whole past.

* `Continues` is a run of admitted events from any configuration;
  `Reachable` is a run from the empty log.
* `Reachable.invariant` and `Continues.preserves` are the two induction rules:
  prove the start and one admitted step.  `Continues.preserves_unless` leaves out the
  steps that end what is preserved.
* `Continues.log_append`: a run only prepends to the log.
-/
import Mathlib.Logic.Relation

namespace Arac.Theory

set_option autoImplicit false

/-- A deterministic machine over states `σ` and events `ε`, logging entries `η`. -/
structure Machine (σ ε η : Type) where
  next : σ → ε → σ
  entry : σ → ε → η

namespace Machine

/-- The log so far, newest entry first, and the state it led to. -/
structure Config (σ η : Type) where
  log : List η
  state : σ

variable {σ ε η : Type} (M : Machine σ ε η) (admits : List η → ε → Prop)

/-- One event, admitted or not. -/
def perform (c : Config σ η) (e : ε) : Config σ η :=
  ⟨M.entry c.state e :: c.log, M.next c.state e⟩

@[simp] theorem perform_log (c : Config σ η) (e : ε) :
    (M.perform c e).log = M.entry c.state e :: c.log := rfl

@[simp] theorem perform_state (c : Config σ η) (e : ε) :
    (M.perform c e).state = M.next c.state e := rfl

/-- One admitted event. -/
def Next (c c' : Config σ η) : Prop := ∃ e, admits c.log e ∧ c' = M.perform c e

/-- A finite run of admitted events. -/
def Continues : Config σ η → Config σ η → Prop := Relation.ReflTransGen (M.Next admits)

/-- A finite run of admitted events from `s₀` and the empty log. -/
def Reachable (s₀ : σ) (c : Config σ η) : Prop := M.Continues admits ⟨[], s₀⟩ c

variable {M admits} {s₀ : σ} {c c' c'' : Config σ η} {P : Config σ η → Prop}

theorem Continues.refl : M.Continues admits c c := Relation.ReflTransGen.refl

theorem Continues.trans (first : M.Continues admits c c') (second : M.Continues admits c' c'') :
    M.Continues admits c c'' := Relation.ReflTransGen.trans first second

theorem Continues.perform (run : M.Continues admits c c') {e : ε} (admitted : admits c'.log e) :
    M.Continues admits c (M.perform c' e) := run.tail ⟨e, admitted, rfl⟩

/-- What every admitted step preserves, every run preserves. -/
theorem Continues.preserves (step : ∀ c e, P c → admits c.log e → P (M.perform c e))
    (run : M.Continues admits c c') (start : P c) : P c' := by
  induction run with
  | refl => exact start
  | tail _ last ih =>
      obtain ⟨e, admitted, rfl⟩ := last
      exact step _ e ih admitted

/-- What every admitted step preserves unless it is an ending one holds at the end of a
run, or an ending step was taken on the way. -/
theorem Continues.preserves_unless (ends : Config σ η → ε → Prop)
    (step : ∀ c e, P c → admits c.log e → ¬ ends c e → P (M.perform c e))
    (run : M.Continues admits c c') (start : P c) :
    P c' ∨ ∃ between e, M.Continues admits c between ∧ admits between.log e ∧ ends between e ∧
      M.Continues admits (M.perform between e) c' := by
  induction run with
  | refl => exact Or.inl start
  | @tail c' _ run last ih =>
      obtain ⟨e, admitted, rfl⟩ := last
      rcases ih with holds | ⟨between, e', before, admitted', ended, after⟩
      · by_cases ended : ends c' e
        · exact Or.inr ⟨_, e, run, admitted, ended, Continues.refl⟩
        · exact Or.inl (step _ e holds admitted ended)
      · exact Or.inr ⟨between, e', before, admitted', ended, after.perform admitted⟩

/-- A predicate that holds at the start and is preserved by every admitted step
from a reachable configuration holds of every reachable configuration. -/
theorem Reachable.invariant (start : P ⟨[], s₀⟩)
    (step : ∀ c e, M.Reachable admits s₀ c → P c → admits c.log e → P (M.perform c e))
    (reached : M.Reachable admits s₀ c) : P c := by
  induction reached with
  | refl => exact start
  | tail run last ih =>
      obtain ⟨e, admitted, rfl⟩ := last
      exact step _ e run ih admitted

theorem Reachable.start : M.Reachable admits s₀ ⟨[], s₀⟩ := Continues.refl

theorem Reachable.continues (reached : M.Reachable admits s₀ c)
    (run : M.Continues admits c c') : M.Reachable admits s₀ c' :=
  Continues.trans reached run

theorem Reachable.perform (reached : M.Reachable admits s₀ c) {e : ε} (admitted : admits c.log e) :
    M.Reachable admits s₀ (M.perform c e) := Continues.perform reached admitted

/-- A run only adds to the front of the log. -/
theorem Continues.log_append (run : M.Continues admits c c') :
    ∃ later, c'.log = later ++ c.log := by
  induction run with
  | refl => exact ⟨[], rfl⟩
  | tail _ last ih =>
      obtain ⟨later, eq⟩ := ih
      obtain ⟨e, -, rfl⟩ := last
      exact ⟨_ :: later, by rw [perform_log, eq, List.cons_append]⟩

theorem Continues.log_mem (run : M.Continues admits c c') {entry : η} (logged : entry ∈ c.log) :
    entry ∈ c'.log := by
  obtain ⟨later, eq⟩ := run.log_append
  rw [eq]
  exact List.mem_append_right later logged

end Machine

end Arac.Theory
