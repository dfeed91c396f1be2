/-
# Arac.Theory.Async -- asynchronous procedures over a shared state

A `Prog` is a procedure that awaits calls on a shared state `σ`.  Each awaited call
is one atomic step, a function of the state; between two calls the procedure only
computes.  It returns a value or fails with an error, and an error does not undo
the calls already made.

* `run` executes a procedure alone, from a state to a result and a state.
* `Exec rely` executes it among others: before every call the state may be replaced
  by any state `rely` allows.  `exec_run` says that `run` is the execution in which
  nobody interferes.
* `Ensures Q` says that every value the procedure can return satisfies `Q`, whatever
  the states its calls meet.
* `Raises Q` says the same of the errors it can fail with.
* `Decides s A` says that from `s` it answers if `A` holds, and otherwise fails with the
  state as it was: a procedure that makes all its checks before its first effect.
* `Guarantees G` says that every call the procedure can make relates the state
  before and after it by `G`, whatever state it meets.  `Guarantees.run` lifts a
  reflexive and transitive `G` to whole runs.
* `OnceAmong G M` says that the calls do so, but for one at most that does `M`.
-/
namespace Arac.Theory

set_option autoImplicit false

inductive Prog (σ ε α : Type) : Type 1 where
  | ret (a : α)
  | fail (e : ε)
  | await {β : Type} (call : σ → β × σ) (next : β → Prog σ ε α)

namespace Prog

variable {σ ε α β : Type}

def bind : Prog σ ε α → (α → Prog σ ε β) → Prog σ ε β
  | .ret a, f => f a
  | .fail e, _ => .fail e
  | .await call next, f => .await call fun b => (next b).bind f

instance : Monad (Prog σ ε) where
  pure := .ret
  bind := bind

/-- Await one call. -/
def call (c : σ → β × σ) : Prog σ ε β := .await c .ret

def ofExcept : Except ε α → Prog σ ε α
  | .ok a => .ret a
  | .error e => .fail e

/-! ## Running alone -/

def run : Prog σ ε α → σ → Except ε α × σ
  | .ret a, s => (.ok a, s)
  | .fail e, s => (.error e, s)
  | .await call next, s => (next (call s).1).run (call s).2

@[simp] theorem run_pure (a : α) (s : σ) : (pure a : Prog σ ε α).run s = (.ok a, s) := rfl

@[simp] theorem run_fail (e : ε) (s : σ) : (Prog.fail e : Prog σ ε α).run s = (.error e, s) := rfl

@[simp] theorem run_call (c : σ → β × σ) (s : σ) :
    (call c : Prog σ ε β).run s = (.ok (c s).1, (c s).2) := rfl

@[simp] theorem run_ofExcept (r : Except ε α) (s : σ) :
    (ofExcept r : Prog σ ε α).run s = (r, s) := by
  cases r <;> rfl

theorem run_bind (p : Prog σ ε α) (f : α → Prog σ ε β) (s : σ) :
    (p >>= f).run s = match p.run s with
      | (.ok a, s') => (f a).run s'
      | (.error e, s') => (.error e, s') := by
  induction p generalizing s with
  | ret a => rfl
  | fail e => rfl
  | await c next ih => exact ih (c s).1 (c s).2

theorem bind_assoc {γ : Type} (p : Prog σ ε α) (f : α → Prog σ ε β) (g : β → Prog σ ε γ) :
    p >>= f >>= g = p >>= fun a => f a >>= g := by
  induction p with
  | ret a => rfl
  | fail e => rfl
  | await c next ih => exact congrArg (Prog.await c) (funext fun b => ih b)

/-- A step that succeeds hands its value and state to the rest. -/
theorem run_bind_ok {p : Prog σ ε α} {s s' : σ} {a : α} (ok : p.run s = (.ok a, s'))
    (f : α → Prog σ ε β) : (p >>= f).run s = (f a).run s' := by
  rw [run_bind, ok]

/-- A step that fails skips the rest. -/
theorem run_bind_error {p : Prog σ ε α} {s s' : σ} {e : ε} (failed : p.run s = (.error e, s'))
    (f : α → Prog σ ε β) : (p >>= f).run s = (.error e, s') := by
  rw [run_bind, failed]

/-- A step that fails and changes nothing ends the procedure where it began. -/
theorem stops {p : Prog σ ε α} {f : α → Prog σ ε β} {s s' : σ} {e : ε} {r : Except ε β}
    (failed : p.run s = (.error e, s)) (run : (p >>= f).run s = (r, s')) :
    r = .error e ∧ s' = s := by
  rw [run_bind_error failed] at run
  cases run
  exact ⟨rfl, rfl⟩

/-- A sequence succeeds exactly when its first part does and the rest does after it. -/
theorem run_bind_eq_ok {p : Prog σ ε α} {f : α → Prog σ ε β} {s s'' : σ} {b : β} :
    (p >>= f).run s = (.ok b, s'') ↔
      ∃ a s', p.run s = (.ok a, s') ∧ (f a).run s' = (.ok b, s'') := by
  rw [run_bind]
  rcases p.run s with ⟨r, s'⟩
  cases r with
  | ok a =>
      constructor
      · intro h
        exact ⟨a, s', rfl, h⟩
      · rintro ⟨a', t, same, h⟩
        cases same
        exact h
  | error e =>
      constructor
      · intro h
        cases h
      · rintro ⟨a', t, same, -⟩
        cases same

/-- Run for the effect, forgetting the value. -/
def void (p : Prog σ ε α) : Prog σ ε Unit := p >>= fun _ => Pure.pure ()

theorem run_void {p : Prog σ ε α} {s s' : σ} {r : Except ε Unit}
    (run : p.void.run s = (r, s')) :
    ∃ r', p.run s = (r', s') ∧ r = r'.map fun _ => () := by
  rw [void, run_bind] at run
  match first : p.run s with
  | (.ok a, t) =>
      rw [first] at run
      cases run
      exact ⟨.ok a, rfl, rfl⟩
  | (.error e, t) =>
      rw [first] at run
      cases run
      exact ⟨.error e, rfl, rfl⟩

/-- Forgetting the value changes no effect. -/
theorem run_void_snd (p : Prog σ ε α) (s : σ) : (p.void.run s).2 = (p.run s).2 := by
  rw [void, run_bind]
  rcases p.run s with ⟨r, s'⟩
  cases r <;> rfl

/-! ## Running among others -/

/-- An execution in which, before every call, the others may have moved the state
along `rely`. -/
inductive Exec (rely : σ → σ → Prop) : {α : Type} → Prog σ ε α → σ → Except ε α → σ → Prop
  | ret {α : Type} (a : α) (s : σ) : Exec rely (.ret a : Prog σ ε α) s (.ok a) s
  | fail {α : Type} (e : ε) (s : σ) : Exec rely (.fail e : Prog σ ε α) s (.error e) s
  | await {α β : Type} {c : σ → β × σ} {next : β → Prog σ ε α} {s s₁ s' : σ} {r : Except ε α}
      (moved : rely s s₁) (rest : Exec rely (next (c s₁).1) (c s₁).2 r s') :
      Exec rely (.await c next) s r s'

/-- Alone is the execution in which nothing moves. -/
theorem exec_run (rely : σ → σ → Prop) (refl : ∀ s, rely s s) (p : Prog σ ε α) (s : σ) :
    Exec rely p s (p.run s).1 (p.run s).2 := by
  induction p generalizing s with
  | ret a => exact .ret a s
  | fail e => exact .fail e s
  | await c next ih => exact .await (refl s) (ih (c s).1 (c s).2)

theorem exec_call {rely : σ → σ → Prop} {c : σ → β × σ} {s s' : σ} {r : Except ε β}
    (exec : Exec rely (call c : Prog σ ε β) s r s') :
    ∃ s₁, rely s s₁ ∧ r = .ok (c s₁).1 ∧ s' = (c s₁).2 := by
  cases exec with
  | await moved rest =>
      cases rest
      exact ⟨_, moved, rfl, rfl⟩

/-- An execution of a sequence is one of its first part and, where that succeeds,
one of the rest. -/
theorem exec_bind {rely : σ → σ → Prop} {p : Prog σ ε α} {f : α → Prog σ ε β} {s s'' : σ}
    {r : Except ε β} (exec : Exec rely (p >>= f) s r s'') :
    (∃ a s', Exec rely p s (.ok a) s' ∧ Exec rely (f a) s' r s'') ∨
      ∃ e, Exec rely p s (.error e) s'' ∧ r = .error e := by
  induction p generalizing s with
  | ret a => exact Or.inl ⟨a, s, .ret a s, exec⟩
  | fail e =>
      cases exec with
      | fail => exact Or.inr ⟨e, .fail e _, rfl⟩
  | await c next ih =>
      cases exec with
      | await moved rest =>
          rcases ih _ rest with ⟨a, s', first, second⟩ | ⟨e, failed, same⟩
          · exact Or.inl ⟨a, s', .await moved first, second⟩
          · exact Or.inr ⟨e, .await moved failed, same⟩

/-! ## What a procedure may return -/

/-- Every value returned satisfies `Q`, whatever the calls answer in any states. -/
def Ensures (Q : α → Prop) : Prog σ ε α → Prop
  | .ret a => Q a
  | .fail _ => True
  | .await call next => ∀ s, (next (call s).1).Ensures Q

namespace Ensures

variable {Q : α → Prop}

theorem pure {a : α} (holds : Q a) : (Pure.pure a : Prog σ ε α).Ensures Q := holds

theorem fail (e : ε) : (Prog.fail e : Prog σ ε α).Ensures Q := trivial

theorem call {c : σ → α × σ} (holds : ∀ s, Q (c s).1) : (Prog.call c : Prog σ ε α).Ensures Q := holds

theorem bind {p : Prog σ ε α} {f : α → Prog σ ε β} {R : β → Prop} (first : p.Ensures Q)
    (rest : ∀ a, Q a → (f a).Ensures R) : (p >>= f).Ensures R := by
  induction p with
  | ret a => exact rest a first
  | fail e => trivial
  | await c next ih => exact fun s => ih _ (first s)

/-- A procedure of which nothing is known. -/
theorem true (p : Prog σ ε α) : p.Ensures fun _ => True := by
  induction p with
  | ret a => trivial
  | fail e => trivial
  | await c next ih => exact fun s => ih _

theorem exec {rely : σ → σ → Prop} {p : Prog σ ε α} (ensures : p.Ensures Q) {s s' : σ} {a : α}
    (exec : Exec rely p s (.ok a) s') : Q a := by
  induction p generalizing s with
  | ret b =>
      cases exec
      exact ensures
  | fail e => cases exec
  | await c next ih =>
      cases exec with
      | await moved rest => exact ih _ (ensures _) rest

theorem run {p : Prog σ ε α} (ensures : p.Ensures Q) {s s' : σ} {a : α}
    (ok : p.run s = (.ok a, s')) : Q a := by
  have alone := exec_run Eq (fun _ => rfl) p s
  rw [ok] at alone
  exact ensures.exec alone

end Ensures

/-! ## What a procedure may fail with -/

/-- Every error the procedure can fail with satisfies `Q`. -/
def Raises (Q : ε → Prop) : Prog σ ε α → Prop
  | .ret _ => True
  | .fail e => Q e
  | .await call next => ∀ s, (next (call s).1).Raises Q

namespace Raises

variable {Q : ε → Prop}

theorem pure (a : α) : (Pure.pure a : Prog σ ε α).Raises Q := trivial

theorem fail {e : ε} (holds : Q e) : (Prog.fail e : Prog σ ε α).Raises Q := holds

theorem call (c : σ → α × σ) : (Prog.call c : Prog σ ε α).Raises Q := fun _ => trivial

theorem ofExcept {r : Except ε α} (holds : ∀ e, r = .error e → Q e) :
    (Prog.ofExcept r : Prog σ ε α).Raises Q := by
  cases r with
  | ok a => trivial
  | error e => exact holds e rfl

theorem bind {p : Prog σ ε α} {f : α → Prog σ ε β} (first : p.Raises Q)
    (rest : ∀ a, (f a).Raises Q) : (p >>= f).Raises Q := by
  induction p with
  | ret a => exact rest a
  | fail e => exact first
  | await c next ih => exact fun s => ih _ (first s)

theorem run {p : Prog σ ε α} (raises : p.Raises Q) {s : σ} {e : ε}
    (failed : (p.run s).1 = .error e) : Q e := by
  induction p generalizing s with
  | ret a => cases failed
  | fail e' =>
      cases failed
      exact raises
  | await c next ih => exact ih _ (raises s) failed

end Raises

/-! ## Procedures that check first -/

/-- From `s` the procedure answers when it is admitted, and otherwise fails and leaves
the state alone. -/
structure Decides (p : Prog σ ε α) (s : σ) (admitted : Prop) : Prop where
  answers : admitted → ∃ a s', p.run s = (.ok a, s')
  refuses : ¬ admitted → ∃ e, p.run s = (.error e, s)

namespace Decides

variable {p : Prog σ ε α} {f : α → Prog σ ε β} {s : σ} {a : α} {admitted : Prop}

theorem answer (holds : admitted) (run : ∃ a s', p.run s = (.ok a, s')) : Decides p s admitted :=
  ⟨fun _ => run, absurd holds⟩

theorem refuse (unmet : ¬ admitted) (run : ∃ e, p.run s = (.error e, s)) : Decides p s admitted :=
  ⟨fun holds => absurd holds unmet, fun _ => run⟩

theorem fail (unmet : ¬ admitted) (e : ε) : Decides (Prog.fail e : Prog σ ε α) s admitted :=
  refuse unmet ⟨e, rfl⟩

theorem congr {admitted' : Prop} (decides : Decides p s admitted) (same : admitted ↔ admitted') :
    Decides p s admitted' :=
  ⟨fun holds => decides.answers (same.mpr holds), fun refused => decides.refuses (mt same.mp refused)⟩

/-- A step that only reads decides nothing. -/
theorem bind_ok (read : p.run s = (.ok a, s)) (rest : Decides (f a) s admitted) :
    Decides (p >>= f) s admitted := by
  constructor
  · intro holds
    rw [run_bind_ok read]
    exact rest.answers holds
  · intro refused
    rw [run_bind_ok read]
    exact rest.refuses refused

/-- A check, and a rest that may use what it returned. -/
theorem bind_check {guard : Prop}
    (passes : guard → ∃ a, p.run s = (.ok a, s) ∧ Decides (f a) s admitted)
    (stops : ¬ guard → ∃ e, p.run s = (.error e, s)) : Decides (p >>= f) s (guard ∧ admitted) := by
  constructor
  · rintro ⟨passed, holds⟩
    obtain ⟨a, ok, rest⟩ := passes passed
    rw [run_bind_ok ok]
    exact rest.answers holds
  · intro refused
    by_cases passed : guard
    · obtain ⟨a, ok, rest⟩ := passes passed
      rw [run_bind_ok ok]
      exact rest.refuses fun holds => refused ⟨passed, holds⟩
    · obtain ⟨e, stopped⟩ := stops passed
      exact ⟨e, run_bind_error stopped f⟩

theorem bind_guard {guard : Prop} (passes : guard → p.run s = (.ok a, s))
    (stops : ¬ guard → ∃ e, p.run s = (.error e, s)) (rest : guard → Decides (f a) s admitted) :
    Decides (p >>= f) s (guard ∧ admitted) :=
  bind_check (fun passed => ⟨a, passes passed, rest passed⟩) stops

theorem void (decides : Decides p s admitted) : Decides p.void s admitted := by
  constructor
  · intro holds
    obtain ⟨a, s', run⟩ := decides.answers holds
    exact ⟨(), s', run_bind_ok run _⟩
  · intro refused
    obtain ⟨e, run⟩ := decides.refuses refused
    exact ⟨e, run_bind_error run _⟩

end Decides

/-! ## What the calls of a procedure may do -/

/-- Every call the procedure can make moves the state along `G`. -/
def Guarantees (G : σ → σ → Prop) : Prog σ ε α → Prop
  | .ret _ => True
  | .fail _ => True
  | .await call next => ∀ s, G s (call s).2 ∧ (next (call s).1).Guarantees G

namespace Guarantees

variable {G : σ → σ → Prop}

theorem pure (a : α) : (Pure.pure a : Prog σ ε α).Guarantees G := trivial

theorem fail (e : ε) : (Prog.fail e : Prog σ ε α).Guarantees G := trivial

theorem call {c : σ → β × σ} (moves : ∀ s, G s (c s).2) :
    (Prog.call c : Prog σ ε β).Guarantees G := fun s => ⟨moves s, trivial⟩

theorem ofExcept (r : Except ε α) : (Prog.ofExcept r : Prog σ ε α).Guarantees G := by
  cases r <;> trivial

theorem bind {p : Prog σ ε α} {f : α → Prog σ ε β} (first : p.Guarantees G)
    (rest : ∀ a, (f a).Guarantees G) : (p >>= f).Guarantees G := by
  induction p with
  | ret a => exact rest a
  | fail e => trivial
  | await c next ih =>
      intro s
      obtain ⟨moves, later⟩ := first s
      exact ⟨moves, ih _ later⟩

theorem mono {H : σ → σ → Prop} {p : Prog σ ε α} (guarantee : p.Guarantees G)
    (weaker : ∀ s s', G s s' → H s s') : p.Guarantees H := by
  induction p with
  | ret a => trivial
  | fail e => trivial
  | await c next ih =>
      intro s
      obtain ⟨moves, later⟩ := guarantee s
      exact ⟨weaker _ _ moves, ih _ later⟩

/-- A run moves the state along `G` as each of its calls does. -/
theorem run (refl : ∀ s, G s s) (trans : ∀ s t u, G s t → G t u → G s u) {p : Prog σ ε α}
    (guarantee : p.Guarantees G) (s : σ) :
    G s (p.run s).2 := by
  induction p generalizing s with
  | ret a => exact refl s
  | fail e => exact refl s
  | await c next ih =>
      obtain ⟨moves, later⟩ := guarantee s
      exact trans _ _ _ moves (ih _ later _)

/-- Among others that move the state along `G`, an execution does so too. -/
theorem exec (refl : ∀ s, G s s) (trans : ∀ s t u, G s t → G t u → G s u) {p : Prog σ ε α}
    (guarantee : p.Guarantees G) {s s' : σ} {r : Except ε α} (exec : Exec G p s r s') :
    G s s' := by
  induction p generalizing s with
  | ret a =>
      cases exec
      exact refl _
  | fail e =>
      cases exec
      exact refl _
  | await c next ih =>
      cases exec with
      | await moved rest =>
          obtain ⟨mine, later⟩ := guarantee _
          exact trans _ _ _ moved (trans _ _ _ mine (ih _ later rest))

end Guarantees

/-! ## At most one call of a kind -/

/-- Every call moves the state along `G`, but for one call at most that moves it along `M`. -/
def OnceAmong (G M : σ → σ → Prop) : Prog σ ε α → Prop
  | .ret _ => True
  | .fail _ => True
  | .await call next => ∀ s, (G s (call s).2 ∧ (next (call s).1).OnceAmong G M) ∨
      (M s (call s).2 ∧ (next (call s).1).Guarantees G)

namespace OnceAmong

variable {G M : σ → σ → Prop}

theorem never {p : Prog σ ε α} (guarantee : p.Guarantees G) : p.OnceAmong G M := by
  induction p with
  | ret a => trivial
  | fail e => trivial
  | await c next ih =>
      intro s
      obtain ⟨moves, later⟩ := guarantee s
      exact Or.inl ⟨moves, ih _ later⟩

theorem call {c : σ → β × σ} (moves : ∀ s, M s (c s).2) :
    (Prog.call c : Prog σ ε β).OnceAmong G M := fun s => Or.inr ⟨moves s, trivial⟩

/-- The call comes later. -/
theorem later {p : Prog σ ε α} {f : α → Prog σ ε β} (first : p.Guarantees G)
    (rest : ∀ a, (f a).OnceAmong G M) : (p >>= f).OnceAmong G M := by
  induction p with
  | ret a => exact rest a
  | fail e => trivial
  | await c next ih =>
      intro s
      obtain ⟨moves, after⟩ := first s
      exact Or.inl ⟨moves, ih _ after⟩

/-- The call has come. -/
theorem done {p : Prog σ ε α} {f : α → Prog σ ε β} (first : p.OnceAmong G M)
    (rest : ∀ a, (f a).Guarantees G) : (p >>= f).OnceAmong G M := by
  induction p with
  | ret a => exact never (rest a)
  | fail e => trivial
  | await c next ih =>
      intro s
      rcases first s with ⟨moves, after⟩ | ⟨moves, after⟩
      · exact Or.inl ⟨moves, ih _ after⟩
      · exact Or.inr ⟨moves, .bind after rest⟩

/-- A run moves the state along `R` if the calls do, where the one call may count on what
the others keep. -/
theorem run {R : σ → σ → Prop} {I : σ → Prop} (refl : ∀ s, R s s)
    (trans : ∀ s t u, R s t → R t u → R s u) (along : ∀ s t, G s t → R s t)
    (keeps : ∀ s t, I s → G s t → I t) (once : ∀ s t, I s → M s t → R s t) {p : Prog σ ε α}
    (among : p.OnceAmong G M) (s : σ) (holds : I s) : R s (p.run s).2 := by
  induction p generalizing s with
  | ret a => exact refl s
  | fail e => exact refl s
  | await c next ih =>
      rcases among s with ⟨moves, after⟩ | ⟨moves, after⟩
      · exact trans _ _ _ (along _ _ moves) (ih _ after _ (keeps _ _ holds moves))
      · exact trans _ _ _ (once _ _ holds moves)
          ((after.mono along).run refl trans _)

end OnceAmong

/-! ## What a whole run keeps -/

/-- Run alone, the procedure keeps the invariant, whether it succeeds or fails. -/
def Keeps (J : σ → Prop) (p : Prog σ ε α) : Prop := ∀ s, J s → J (p.run s).2

namespace Keeps

variable {J : σ → Prop}

theorem pure (a : α) : (Pure.pure a : Prog σ ε α).Keeps J := fun _ holds => holds

theorem bind {p : Prog σ ε α} {f : α → Prog σ ε β} (first : p.Keeps J)
    (rest : ∀ a, (f a).Keeps J) : (p >>= f).Keeps J := by
  intro s holds
  have between := first s holds
  cases run : p.run s with
  | mk r s' =>
      rw [run] at between
      cases r with
      | ok a =>
          rw [run_bind_ok run]
          exact rest a s' between
      | error e =>
          rw [run_bind_error run]
          exact between

/-- A loop keeps what each round keeps. -/
theorem forM {l : List β} {f : β → Prog σ ε PUnit} (each : ∀ x ∈ l, (f x).Keeps J) :
    (l.forM f).Keeps J := by
  induction l with
  | nil => exact .pure _
  | cons x l ih =>
      exact .bind (each x List.mem_cons_self) fun _ =>
        ih fun y member => each y (List.mem_cons_of_mem x member)

end Keeps

/-- A loop that succeeds has done every round: what a round brings about, and no other
round undoes, holds at the end. -/
theorem run_forM_ok {l : List β} {f : β → Prog σ ε PUnit} {Q : β → σ → Prop}
    (adds : ∀ x ∈ l, ∀ s s', (f x).run s = (.ok ⟨⟩, s') → Q x s')
    (stays : ∀ x, ∀ y ∈ l, (f y).Keeps (Q x)) {s s' : σ} (ok : (l.forM f).run s = (.ok ⟨⟩, s')) :
    ∀ x ∈ l, Q x s' := by
  induction l generalizing s with
  | nil =>
      intro x impossible
      cases impossible
  | cons x l ih =>
      obtain ⟨_, between, first, rest⟩ := run_bind_eq_ok.mp ok
      have stays' : ∀ x, ∀ y ∈ l, (f y).Keeps (Q x) :=
        fun x y member => stays x y (List.mem_cons_of_mem _ member)
      intro y member
      rcases List.mem_cons.mp member with rfl | later
      · have kept := Keeps.forM (stays' y) between (adds y List.mem_cons_self s between first)
        rwa [rest] at kept
      · exact ih (fun y member => adds y (List.mem_cons_of_mem _ member)) stays' rest y later

/-- A loop that succeeds, round by round: each round keeps `J`, brings its own part about
and keeps the parts of the others. -/
theorem run_forM_settles {l : List β} {f : β → Prog σ ε PUnit} {J : σ → Prop} {Q : β → σ → Prop}
    (round : ∀ x ∈ l, ∀ s s', J s → (f x).run s = (.ok ⟨⟩, s') →
      J s' ∧ Q x s' ∧ ∀ y ∈ l, Q y s → Q y s')
    {s s' : σ} (start : J s) (ok : (l.forM f).run s = (.ok ⟨⟩, s')) : J s' ∧ ∀ x ∈ l, Q x s' := by
  have loop : ∀ (todo : List β) (s s' : σ), (∀ x ∈ todo, x ∈ l) → J s →
      (todo.forM f).run s = (.ok ⟨⟩, s') →
      J s' ∧ (∀ x ∈ todo, Q x s') ∧ ∀ y ∈ l, Q y s → Q y s' := by
    intro todo
    induction todo with
    | nil =>
        intro s s' _ holds ok
        cases ok
        exact ⟨holds, by simp, fun _ _ part => part⟩
    | cons x todo ih =>
        intro s s' among holds ok
        obtain ⟨_, between, first, rest⟩ := run_bind_eq_ok.mp ok
        obtain ⟨here, listed⟩ := List.forall_mem_cons.mp among
        obtain ⟨after, mine, kept⟩ := round x here s between holds first
        obtain ⟨last, parts, kept'⟩ := ih between s' listed after rest
        refine ⟨last, List.forall_mem_cons.mpr ⟨kept' x here mine, parts⟩, fun y member part => ?_⟩
        exact kept' y member (kept y member part)
  obtain ⟨last, parts, -⟩ := loop l s s' (fun _ member => member) start ok
  exact ⟨last, parts⟩

/-- A loop whose rounds succeed and keep `J` succeeds and keeps `J`. -/
theorem run_forM_through {l : List β} {f : β → Prog σ ε PUnit} {J : σ → Prop}
    (round : ∀ x ∈ l, ∀ s, J s → ∃ s', (f x).run s = (.ok ⟨⟩, s') ∧ J s') {s : σ} (start : J s) :
    ∃ s', (l.forM f).run s = (.ok ⟨⟩, s') ∧ J s' := by
  induction l generalizing s with
  | nil => exact ⟨s, rfl, start⟩
  | cons x l ih =>
      obtain ⟨between, first, holds⟩ := round x List.mem_cons_self s start
      obtain ⟨s', rest, last⟩ := ih (fun y member => round y (List.mem_cons_of_mem x member)) holds
      exact ⟨s', (run_bind_ok first _).trans rest, last⟩

/-- A loop whose rounds change nothing. -/
theorem run_forM_idle {l : List β} {f : β → Prog σ ε PUnit} {s : σ}
    (round : ∀ x ∈ l, (f x).run s = (.ok ⟨⟩, s)) : (l.forM f).run s = (.ok ⟨⟩, s) := by
  obtain ⟨s', run, rfl⟩ := run_forM_through (f := f) (J := fun s' => s' = s)
    (fun x listed s' same => ⟨s', by rw [same]; exact round x listed, same⟩) rfl
  exact run

end Prog

end Arac.Theory
