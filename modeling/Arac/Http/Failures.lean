/-
# Arac.Http.Failures -- requests that are answered with an error

A request that is answered with an error has changed no table and has sent no mail
(`gateway_failed`).  With it, the claims of a user change only by a request that is answered
with success (`gateway_mediation`).
-/
import Arac.Http.Operations

namespace Arac.Http

open Arac.Theory Arac.Sessions Arac.Db Arac.Service Arac.Rbac Arac.Admin Arac.Org Arac.Auth Arac.Web
  Arac.Mediation

set_option autoImplicit false

section

variable {σ : Type} {app : App σ} {validator : Validator} {draws : Draws} {w₀ w : World σ}

/-- Every run of requests keeps the departments a forest. -/
theorem served_forest (forest : Acyclic (w₀.db.DepartmentParent TENANT))
    (run : Relation.ReflTransGen (Served app validator) w₀ w) :
    Acyclic (w.db.DepartmentParent TENANT) := by
  have steps := served_steps run
  clear run
  induction steps with
  | refl => exact forest
  | tail _ step ih => exact step.forest ih

theorem gateway_retained (forest : Acyclic (w.db.DepartmentParent TENANT)) (r : Request)
    (failed : (Gateway.serve app validator draws r w).1.Failed) :
    Retained w (Gateway.serve app validator draws r w).2 := by
  rcases gateway_cases app validator draws r w with same | ⟨op, result, -, answer, ran⟩
  · rw [same]
    exact .refl w
  · rw [answer] at failed
    have told := replyTo_status app draws w op
    rw [ran] at told
    rcases told with ⟨success, -⟩ | ⟨-, ⟨e, rfl⟩ | retained⟩
    · exact absurd failed (Nat.not_le.mpr success)
    · exact operation_failed forest ran
    · exact retained

/-- In every run of requests from a forest of departments, a request that is answered with an
error has changed no table and has sent no mail. -/
theorem gateway_failed (forest : Acyclic (w₀.db.DepartmentParent TENANT))
    (run : Relation.ReflTransGen (Served app validator) w₀ w) (draws : Draws) (r : Request)
    (failed : (Gateway.serve app validator draws r w).1.Failed) :
    Retained w (Gateway.serve app validator draws r w).2 :=
  gateway_retained (served_forest forest run) r failed

/-- In every run of requests from a forest of departments, the claims of a user change only by
a request that is answered with success and carries an operation that has passed the check for
the change: with the fields of its validated body, so that a grant has been checked over the
place it moves the user to, with the token of its own headers, and on a user its path names or
by creating a department below one the user manages. -/
theorem gateway_mediation (forest : Acyclic (w₀.db.DepartmentParent TENANT))
    (run : Relation.ReflTransGen (Served app validator) w₀ w) (draws : Draws) (r : Request)
    {userId : String} (known : userId ∈ w.db.userIds)
    (differs : mints (Gateway.serve app validator draws r w).2 userId ≠ mints w userId) :
    ∃ op, carried app r = some op ∧
      Gateway.serve app validator draws r w =
        (.auth (app.replyTo draws w op), ((op.service app.store app.env draws).run w).2) ∧
      (app.replyTo draws w op).status < 400 ∧
      Presented r.headers r.path op ∧ Admissible op ∧
      Mediated app.env w (Gateway.serve app validator draws r w).2 userId op ∧
      (userId ∈ r.path ∨ ∃ accessToken input, op = .createDepartment accessToken input) := by
  have forest := served_forest forest run
  rcases gateway_cases app validator draws r w with same | ⟨op, result, carries, answer, ran⟩
  · rw [same] at differs
    exact absurd rfl differs
  have success : (app.replyTo draws w op).status < 400 := by
    by_contra failed
    have refused : (Gateway.serve app validator draws r w).1.Failed := by
      rw [answer]
      exact Nat.not_lt.mp failed
    have retained := gateway_retained forest r refused
    exact differs (retained.mints userId)
  have presented := carried_presented carries
  refine ⟨op, carries, (gateway_does app validator draws r w).2 op carries, success, presented,
    carried_admissible carries, ?_⟩
  by_cases grows : ∃ accessToken input, op = .createDepartment accessToken input
  · obtain ⟨accessToken, input, rfl⟩ := grows
    obtain ⟨answer, creating, -⟩ := Prog.run_void ran
    exact ⟨(createDepartment_mediated forest creating known differs).2, Or.inr ⟨_, _, rfl⟩⟩
  by_cases targeted : op.Targets userId
  · rcases targeted_cases ran targeted with same | ⟨-, mediated⟩
    · rw [same] at differs
      exact absurd rfl differs
    · exact ⟨mediated, Or.inl (presented.targets targeted)⟩
  · have frame := operation_frame ran fun accessToken input same => grows ⟨accessToken, input, same⟩
    exact absurd (frame.mints known targeted) differs

end

/-! ## A grant at a staffed deployment -/

/-- The administrator raises the clearance of an account, or of an account that is not there. -/
def sampleGrant (userId : String) : Request where
  method := .post
  path := ["api", "auth", "users", userId, "grant"]
  headers name := if name = "authorization" then some "Bearer admin@acme.test" else none
  body := sampleGrantBody

theorem gateway_failed_sampleGrant :
    Retained (World.fresh .empty 0 staffed : World RedisSessions)
      (Gateway.serve sampleApp sampleValidator sampleDraws (sampleGrant "nobody@acme.test")
        (World.fresh .empty 0 staffed)).2 :=
  gateway_failed (staffed_seeded.departments_acyclic TENANT) .refl sampleDraws _ (by
    show 400 ≤ _
    decide +kernel)

/-- The clearance that the body asks for is the one that is checked and written. -/
theorem gateway_mediation_sampleGrant :
    ∃ op, carried sampleApp (sampleGrant "hr@acme.test") = some op ∧
      op = .grantAttributes "admin@acme.test" "hr@acme.test" ⟨none, none, some 7, none⟩ ∧
      (sampleApp.replyTo sampleDraws (World.fresh .empty 0 staffed) op).status < 400 ∧
      Mediated sampleEnv (World.fresh .empty 0 staffed)
        (Gateway.serve sampleApp sampleValidator sampleDraws (sampleGrant "hr@acme.test")
          (World.fresh .empty 0 staffed)).2 "hr@acme.test" op := by
  have grants : carried sampleApp (sampleGrant "hr@acme.test") =
      some (.grantAttributes "admin@acme.test" "hr@acme.test" ⟨none, none, some 7, none⟩) := rfl
  obtain ⟨op, carries, -, success, -, -, mediated, -⟩ :=
    @gateway_mediation _ sampleApp sampleValidator _ (World.fresh .empty 0 staffed)
      (staffed_seeded.departments_acyclic TENANT) .refl sampleDraws (sampleGrant "hr@acme.test")
      "hr@acme.test" (by decide) (by decide +kernel)
  exact ⟨op, carries, Option.some.inj (carries.symm.trans grants), success, mediated⟩

end Arac.Http
