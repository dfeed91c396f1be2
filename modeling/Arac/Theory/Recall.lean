/-
# Arac.Theory.Recall -- what a procedure has met before it acts

A check and the write it guards are different calls, and in between other procedures move.
So a write is not justified by the state it meets, but by the states that the calls before
it met.  `Prog.Recalls W past p post`: begun when the calls so far have met `past`, each call
of `p` relates what has been met, the state it meets and the state it leaves by `W`, and
what `p` returns is true to the states met (`post`).

Rules: `call`, `bind`, `of_guarantees`.  `Pool.Run.recalls` says of every call in the trace of
a run that it was so justified; `Pool.Run.recalled` is the invariant rule: what holds of every
state met before, and of this one, holds after the call.
-/
import Arac.Theory.Interleaving

namespace Arac.Theory

set_option autoImplicit false

variable {σ ε α β : Type}

namespace Prog

/-- Begun after calls that met `past`. -/
def Recalls (W : List σ → σ → σ → Prop) (past : List σ) (p : Prog σ ε α)
    (post : List σ → α → Prop) : Prop :=
  p.Follows (fun _ => True) (fun past s s' past' => past' = past ++ [s] ∧ W past s s')
    (fun r past' => past ⊆ past' ∧ ∀ a, r = .ok a → post past' a) past

namespace Recalls

variable {W : List σ → σ → σ → Prop} {past : List σ} {post : List σ → α → Prop}

theorem pure {a : α} (holds : post past a) : (Pure.pure a : Prog σ ε α).Recalls W past post := by
  refine Follows.pure ⟨List.Subset.refl _, fun a' same => ?_⟩
  cases same
  exact holds

theorem fail (e : ε) : (Prog.fail e : Prog σ ε α).Recalls W past post :=
  Follows.fail ⟨List.Subset.refl _, fun _ impossible => (by cases impossible)⟩

theorem ofExcept {r : Except ε α} (holds : ∀ a, r = .ok a → post past a) :
    (Prog.ofExcept r : Prog σ ε α).Recalls W past post :=
  Follows.ofExcept ⟨List.Subset.refl _, holds⟩

theorem call {c : σ → α × σ} (allowed : ∀ s, W past s (c s).2)
    (holds : ∀ s, post (past ++ [s]) (c s).1) : (Prog.call c : Prog σ ε α).Recalls W past post := by
  refine Follows.call fun s _ => ⟨past ++ [s], ⟨rfl, allowed s⟩, List.subset_append_left _ _, ?_⟩
  intro a same
  cases same
  exact holds s

/-- The rest has met what the first part met, and knows what it returned. -/
theorem bind {p : Prog σ ε α} {f : α → Prog σ ε β} {K : List σ → α → Prop}
    {after : List σ → β → Prop} (first : p.Recalls W past K)
    (rest : ∀ a past', past ⊆ past' → K past' a → (f a).Recalls W past' after) :
    (p >>= f).Recalls W past after := by
  refine Follows.bind first ?_ ?_
  · rintro a past' ⟨more, holds⟩
    refine (rest a past' more (holds a rfl)).mono fun r past'' ends => ?_
    exact ⟨List.Subset.trans more ends.1, ends.2⟩
  · rintro e past' ⟨more, -⟩
    exact ⟨more, fun _ impossible => (by cases impossible)⟩

/-- Calls that are always allowed. -/
theorem of_guarantees {G : σ → σ → Prop} {p : Prog σ ε α} (guarantees : p.Guarantees G)
    (allowed : ∀ past s s', G s s' → W past s s') : p.Recalls W past fun _ _ => True := by
  induction p generalizing past with
  | ret a => exact pure trivial
  | fail e => exact fail e
  | await c next ih =>
      intro s _
      obtain ⟨moved, later⟩ := guarantees s
      have rest : (next (c s).1).Recalls W (past ++ [s]) fun _ _ => True := ih (c s).1 later
      refine ⟨past ++ [s], ⟨rfl, allowed past s _ moved⟩, ?_⟩
      refine rest.mono fun r past' ends => ?_
      exact ⟨List.Subset.trans (List.subset_append_left _ _) ends.1, fun _ _ => trivial⟩

end Recalls

end Prog

namespace Pool

variable {ι : Type} [DecidableEq ι] {rely : σ → σ → Prop} {ready : ι → σ → Prop}
  {procs : ι → Prog σ ε α} {s₀ : σ} {P : Pool ι σ ε α} {W : ι → List σ → σ → σ → Prop}
  {post : ι → List σ → α → Prop}

/-- The states that the calls of a procedure met, oldest first. -/
def metBy (trace : List (Made ι σ)) (i : ι) : List σ := (callsOf trace i).map Made.met

/-- Every call of a run is justified by what its procedure had met before. -/
theorem Run.recalls (recalls : ∀ i, (procs i).Recalls (W i) [] (post i))
    (run : Run rely ready (.start procs s₀) P) {later earlier : List (Made ι σ)} {e : Made ι σ}
    (made : P.trace = later ++ e :: earlier) : W e.who (metBy earlier e.who) e.met e.left := by
  have follows : ∀ i, ((start procs s₀).procs i).Follows _ _ _ [] := recalls
  have reached := run.invariant
    (J := fun φ _ trace => (∀ i, φ i = metBy trace i) ∧
      ∀ (later earlier : List (Made ι σ)) (e : Made ι σ), trace = later ++ e :: earlier →
        W e.who (metBy earlier e.who) e.met e.left)
    (T := fun i past s s' past' => past' = past ++ [s] ∧ W i past s s')
    (D := fun i r past' => [] ⊆ past' ∧ ∀ a, r = .ok a → post i past' a)
    (fun _ _ _ _ _ _ => trivial) ?_ (fun _ _ _ _ inv _ => inv) (fun _ => []) follows
    ⟨fun _ => rfl, fun later earlier e impossible => ?_⟩
  · obtain ⟨φ, ⟨-, justified⟩, -⟩ := reached
    exact justified _ _ _ made
  · rintro φ s trace i s' φ' ⟨met, justified⟩ - ⟨rfl, allowed⟩
    constructor
    · intro j
      by_cases same : j = i
      · subst same
        rw [Function.update_self, met, metBy, metBy, callsOf_cons_self, List.map_append]
        rfl
      · rw [Function.update_of_ne same, met, metBy, metBy, callsOf_cons_ne (Ne.symm same)]
    · intro later earlier e made
      cases later with
      | nil =>
          obtain ⟨rfl, rfl⟩ := List.cons.inj made
          rw [← met]
          exact allowed
      | cons _ later => exact justified later earlier e (List.cons.inj made).2
  · cases later <;> cases impossible

theorem exists_met {trace : List (Made ι σ)} {i : ι} {s : σ} (met : s ∈ metBy trace i) :
    ∃ e ∈ trace, e.met = s := by
  obtain ⟨e, member, same⟩ := List.mem_map.mp met
  exact ⟨e, List.mem_of_mem_filter (List.mem_reverse.mp member), same⟩

/-- What a call keeps when it holds of all that its procedure has met, the run keeps. -/
theorem Run.recalled {J : σ → Prop} (recalls : ∀ i, (procs i).Recalls (W i) [] (post i))
    (run : Run rely ready (.start procs s₀) P) (begins : J s₀)
    (call : ∀ i past s s', (∀ v ∈ past, J v) → J s → W i past s s' → J s')
    (other : ∀ s s', J s → rely s s' → J s') : J P.state ∧ ∀ e ∈ P.trace, J e.met := by
  have follows : ∀ i, ((start procs s₀).procs i).Follows _ _ _ [] := recalls
  have reached := run.invariant
    (J := fun φ s trace => J s ∧ (∀ i, φ i ⊆ trace.map Made.met) ∧ ∀ e ∈ trace, J e.met)
    (T := fun i past s s' past' => past' = past ++ [s] ∧ W i past s s')
    (D := fun i r past' => [] ⊆ past' ∧ ∀ a, r = .ok a → post i past' a)
    (fun _ _ _ _ _ _ => trivial) ?_ (fun _ _ _ _ inv moved => ⟨other _ _ inv.1 moved, inv.2⟩)
    (fun _ => []) follows
    ⟨begins, fun _ => List.nil_subset _, fun e none_made => (by cases none_made)⟩
  · obtain ⟨φ, ⟨holds, -, met⟩, -⟩ := reached
    exact ⟨holds, met⟩
  · rintro φ s trace i s' φ' ⟨holds, within, met⟩ - ⟨rfl, allowed⟩
    have past : ∀ v ∈ φ i, J v := by
      intro v member
      obtain ⟨e, e_made, rfl⟩ := List.mem_map.mp (within i member)
      exact met e e_made
    refine ⟨call i (φ i) s s' past holds allowed, fun j => ?_, ?_⟩
    · by_cases same : j = i
      · subst same
        rw [Function.update_self]
        refine List.append_subset.mpr ⟨fun v member => ?_, fun v member => ?_⟩
        · exact List.mem_cons_of_mem _ (within j member)
        · rw [List.mem_singleton.mp member]
          exact List.mem_cons_self
      · rw [Function.update_of_ne same]
        exact fun v member => List.mem_cons_of_mem _ (within j member)
    · intro e made
      rcases List.mem_cons.mp made with rfl | earlier
      · exact holds
      · exact met e earlier

end Pool

end Arac.Theory
