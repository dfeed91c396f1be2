/-
# Arac.Admin.ScopeMonotone -- the scopes of assignments never widen

A run of admin requests by any callers.  The only way to a new assignment is
`assignRole`, and it goes through only for a caller whose own grant of
`users:assign-role` covers the scope of the new assignment.  The new one may carry
`users:assign-role` itself and serve to make further ones, so the invariant
`Bounded` speaks of the initial tables: every assignment is initial or lies within
the scope of an initial one that carries the permission.

`Scope.Covers.trans` carries the induction, and `Scope.Covers.everything` the case
of a global assignment: only a global scope covers it.
-/
import Arac.Admin.TargetScope
import Mathlib.Logic.Relation

namespace Arac.Admin

open Arac.Theory Arac.Sessions Arac.Db Arac.Service Arac.Rbac

set_option autoImplicit false

variable {σ : Type}

/-- One admin request with any token, whatever comes of it, or time passes. -/
inductive AdminStep (S : SessionStore σ) (env : Env) : World σ → World σ → Prop
  | request {w w' : World σ} {draws : Draws} {accessToken targetId : String}
      {result : Except ServiceError AdminUserView} (request : AdminRequest)
      (run : (request.service S env draws accessToken targetId).run w = (result, w')) :
      AdminStep S env w w'
  | elapse (w : World σ) (ms : Nat) : AdminStep S env w (w.elapse S ms)

/-- Some assignment that carries `users:assign-role` covers the scope. -/
def Assignable (t : Tables) (scope : Scope) : Prop :=
  ∃ b ∈ t.userRoles, Carries t b.roleId USERS_ASSIGN_ROLE ∧ (scopeOf b).Covers (some scope)

/-- The roles are those of the initial tables, and so are the assignments, or they
lie within what could be assigned there. -/
structure Bounded (t₀ t : Tables) : Prop where
  roles : SameRoles t t₀
  assignments : ∀ a ∈ t.userRoles, a ∈ t₀.userRoles ∨ Assignable t₀ (scopeOf a)

namespace Bounded

variable {w₀ w w' : World σ} {S : SessionStore σ} {env : Env} {draws : Draws}
  {accessToken targetId caller : String} {result : Except ServiceError AdminUserView}

theorem start (t : Tables) : Bounded t t := ⟨.refl t, fun _ member => Or.inl member⟩

/-- Whoever may assign in a scope now does so under an initial assignment. -/
theorem assignable {scope : Scope} (bounded : Bounded w₀.db.toTables w.db.toTables)
    (allowed : Allowed w caller USERS_ASSIGN_ROLE (some scope)) :
    Assignable w₀.db.toTables scope := by
  obtain ⟨-, a, member, -, carries, covered⟩ := allowed.holds
  rcases bounded.assignments a member with initial | ⟨b, b_row, b_carries, outer⟩
  · exact ⟨a, initial, bounded.roles.carries carries, covered⟩
  · -- the caller's own assignment was made under `b`
    exact ⟨b, b_row, b_carries, outer.trans covered⟩

/-- An assignment is made within the scope the caller may assign in. -/
theorem assignRole (bounded : Bounded w₀.db.toTables w.db.toTables) {input : RoleAssignmentInput}
    (run : (Admin.assignRole S env draws accessToken targetId input).run w = (result, w')) :
    Bounded w₀.db.toTables w'.db.toTables := by
  rcases assignRole_cases run with ⟨e, -, rfl⟩ |
    ⟨caller, role, db, v, -, allowed, -, created, -, rfl⟩
  · exact bounded
  rcases created with rfl | created
  · exact bounded
  have tables := Database.userRoleCreate_ok created
  rw [tables]
  refine ⟨⟨bounded.roles.1, bounded.roles.2, bounded.roles.3⟩, ?_⟩
  intro a member
  rcases List.mem_append.mp member with old | new
  · exact bounded.assignments a old
  · rw [List.mem_singleton.mp new]
    exact Or.inr (bounded.assignable allowed)

theorem removeRole (bounded : Bounded w₀.db.toTables w.db.toTables) {input : RoleAssignmentInput}
    (run : (Admin.removeRole S env accessToken targetId input).run w = (result, w')) :
    Bounded w₀.db.toTables w'.db.toTables := by
  rcases removeRole_cases run with ⟨e, -, rfl⟩ | ⟨caller, role, -, -, -, -, rfl⟩
  · exact bounded
  refine ⟨⟨bounded.roles.1, bounded.roles.2, bounded.roles.3⟩, ?_⟩
  intro a member
  exact bounded.assignments a (List.mem_of_mem_filter member)

/-- A grant changes user rows only. -/
theorem grantAttributes (bounded : Bounded w₀.db.toTables w.db.toTables) {input : GrantInput}
    (run : (Admin.grantAttributes S env accessToken targetId input).run w = (result, w')) :
    Bounded w₀.db.toTables w'.db.toTables := by
  rcases grantAttributes_cases run with ⟨e, -, rfl⟩ |
    ⟨caller, x, db, v, -, -, -, -, -, ok, -, rfl⟩
  · exact bounded
  have tables := Database.userUpdate_ok ok
  rw [tables]
  exact ⟨⟨bounded.roles.1, bounded.roles.2, bounded.roles.3⟩, bounded.assignments⟩

theorem step (bounded : Bounded w₀.db.toTables w.db.toTables) (step : AdminStep S env w w') :
    Bounded w₀.db.toTables w'.db.toTables := by
  cases step with
  | elapse => exact bounded
  | request request run =>
      cases request with
      | grantAttributes input => exact bounded.grantAttributes run
      | assignRole input => exact bounded.assignRole run
      | removeRole input => exact bounded.removeRole run

theorem run (run : Relation.ReflTransGen (AdminStep S env) w₀ w) :
    Bounded w₀.db.toTables w.db.toTables := by
  induction run with
  | refl => exact .start _
  | tail _ step ih => exact ih.step step

end Bounded

/-- An assignment made in a run lies within the scope of an initial assignment that
carries `users:assign-role`; a global one needs a global one.  An acyclic role
hierarchy is not needed: on a cyclic one the checks fail. -/
theorem scopes_never_widen {S : SessionStore σ} {env : Env} {w₀ w : World σ}
    (run : Relation.ReflTransGen (AdminStep S env) w₀ w) :
    (∀ a ∈ w.db.userRoles, a ∈ w₀.db.userRoles ∨
      ∃ b ∈ w₀.db.userRoles, Carries w₀.db.toTables b.roleId USERS_ASSIGN_ROLE ∧
        (scopeOf b).Covers (some (scopeOf a))) ∧
    ∀ a ∈ w.db.userRoles, scopeOf a = ⟨none, none⟩ → a ∈ w₀.db.userRoles ∨
      ∃ b ∈ w₀.db.userRoles, (∃ u ∈ w₀.db.users, u.id = b.userId) ∧
        Carries w₀.db.toTables b.roleId USERS_ASSIGN_ROLE ∧ scopeOf b = ⟨none, none⟩ := by
  have bounded := Bounded.run run
  refine ⟨bounded.assignments, ?_⟩
  intro a member everything
  apply (bounded.assignments a member).imp_right
  rintro ⟨b, b_row, carries, covers⟩
  have holder := w₀.db.valid.userRole_user b b_row
  rw [everything] at covers
  exact ⟨b, b_row, List.mem_map.mp holder, carries, covers.everything⟩

/-- The user administrator of the finance department makes another user one there. -/
def delegated : World RedisSessions :=
  ((assignRole sampleStore sampleEnv sampleDraws "user-admin@acme.test" "hr@acme.test"
    ⟨"user-admin", some "acme", some "finance"⟩).run (World.fresh .empty 0 staffed)).2

theorem scopes_never_widen_delegated :
    ∃ b ∈ staffed.userRoles, Carries staffed.toTables b.roleId USERS_ASSIGN_ROLE ∧
      (scopeOf b).Covers (some ⟨some "acme", some "finance"⟩) := by
  have step : AdminStep sampleStore sampleEnv (World.fresh .empty 0 staffed) delegated :=
    .request (.assignRole ⟨"user-admin", some "acme", some "finance"⟩) rfl
  have made : ⟨"c1", "hr@acme.test", "user-admin", some "acme", some "finance"⟩ ∈
      delegated.db.userRoles := by decide +kernel
  rcases (scopes_never_widen (.single step)).1 _ made with initial | bounded
  · exact absurd initial (by decide)
  · exact bounded

end Arac.Admin
