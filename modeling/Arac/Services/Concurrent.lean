/-
# Arac.Services.Concurrent -- requests at the same time

Requests run interleaved at their awaited calls: a query, a write, a session call or
a mail is one atomic step, and time may pass in between.  A call is recognised by
what it did: `Performs` says that it was this call of the session store.
-/
import Arac.Services.Token
import Arac.Theory.Interleaving

namespace Arac

open Arac.Theory Arac.Sessions Arac.Service

set_option autoImplicit false

variable {σ ι α : Type}

/-- Between two calls only time passes. -/
def TimePasses (S : SessionStore σ) (w w' : World σ) : Prop := ∃ ms, w' = w.elapse S ms

/-- No request waits for another. -/
def Always (_ : ι) (_ : World σ) : Prop := True

instance (i : ι) (w : World σ) : Decidable (Always i w) := .isTrue trivial

/-- A call of the session store. -/
def World.perform (S : SessionStore σ) (call : Call) (w : World σ) : World σ :=
  { w with sessions := S.machine.perform w.sessions call }

/-- The call was this call of the session store. -/
def Performs (S : SessionStore σ) (call : Call) (e : Made ι (World σ)) : Prop :=
  e.left.sessions = S.machine.perform e.met.sessions call

/-- A call performs at most one call of the session store. -/
theorem Performs.unique {S : SessionStore σ} {call call' : Call} {e : Made ι (World σ)}
    (one : Performs S call e) (two : Performs S call' e) : call = call' := by
  have same := one.symm.trans two
  have logged := congrArg (fun c => c.log.head?.map Logged.call) same
  simpa [Machine.perform] using logged

/-- A call that leaves the sessions alone performs none. -/
theorem not_performs {S : SessionStore σ} {call : Call} {e : Made ι (World σ)}
    (same : e.left.sessions = e.met.sessions) : ¬ Performs S call e := by
  intro performs
  have longer := congrArg (fun c => c.log.length) (same.symm.trans performs)
  simp [Machine.perform] at longer

/-- A procedure that changes nothing stays in its phase. -/
theorem Service.Quiet.follows {Φ : Type} {I : World σ → Prop}
    {T : Φ → World σ → World σ → Φ → Prop} {φ : Φ} {p : Service σ α} (quiet : Quiet p)
    (stays : ∀ w, I w → T φ w w φ) : p.Follows I T (fun _ φ' => φ' = φ) φ := by
  apply Prog.Follows.ofGuarantees quiet
  rintro w _ holds rfl
  exact stays _ holds

section

variable {Φ : Type} {I : World σ → Prop} {T : Φ → World σ → World σ → Φ → Prop} {φ : Φ}
  {update : Db.Database → Except Db.PrismaError Db.Database}

/-- A write moves to a phase when it commits and when it fails. -/
theorem Service.write_follows {D : Except ServiceError (Except Db.PrismaError Unit) → Φ → Prop}
    (commits : ∀ w db, I w → update w.db = .ok db →
      ∃ φ', T φ w { w with db } φ' ∧ D (.ok (.ok ())) φ')
    (fails : ∀ w e, I w → update w.db = .error e → ∃ φ', T φ w w φ' ∧ D (.ok (.error e)) φ') :
    (write update : Service σ (Except Db.PrismaError Unit)).Follows I T D φ := by
  refine .call ?_
  intro w holds
  cases written : update w.db with
  | ok db => exact commits w db holds written
  | error e => exact fails w e holds written

theorem Service.commit_follows {D : Except ServiceError Unit → Φ → Prop}
    (commits : ∀ w db, I w → update w.db = .ok db → ∃ φ', T φ w { w with db } φ' ∧ D (.ok ()) φ')
    (fails : ∀ w e, I w → update w.db = .error e → ∃ φ', T φ w w φ' ∧ D (.error (.prisma e)) φ') :
    (commit update : Service σ Unit).Follows I T D φ := by
  refine .bind (D := fun r φ' => (r = .ok (.ok ()) ∧ D (.ok ()) φ') ∨
    ∃ e, r = .ok (.error e) ∧ D (.error (.prisma e)) φ') (write_follows ?_ ?_) ?_ ?_
  · intro w db holds written
    obtain ⟨φ', moved, ends⟩ := commits w db holds written
    exact ⟨φ', moved, Or.inl ⟨rfl, ends⟩⟩
  · intro w e holds written
    obtain ⟨φ', moved, ends⟩ := fails w e holds written
    exact ⟨φ', moved, Or.inr ⟨e, rfl, ends⟩⟩
  · rintro result φ' (⟨ok, ends⟩ | ⟨e, failed, ends⟩)
    · cases ok
      exact .pure ends
    · cases failed
      exact .fail ends
  · rintro e φ' (⟨impossible, -⟩ | ⟨_, impossible, -⟩) <;> cases impossible

end

end Arac
