/-
# Arac.Admin.Effects -- what an admin operation does

One inversion for each operation: either it throws and nothing has changed, or the
caller is the subject of a valid token, the checks have passed, and the listed
writes were made.  Everything later about these operations is read off here.
-/
import Arac.Admin.Service

namespace Arac.Admin

open Arac.Theory Arac.Sessions Arac.Db Arac.Service Arac.Rbac

set_option autoImplicit false

section

variable {σ : Type} {S : SessionStore σ} {env : Env} {draws : Draws} {w : World σ}
  {accessToken caller permission : String} {scope : Scope}

theorem run_callerId {caller : String} (valid : env.TokenOf w.now accessToken caller) :
    (callerId env accessToken).run w = (.ok caller, w) := by
  obtain ⟨verified, run, rfl⟩ := run_authenticate_ok valid
  rw [callerId, Prog.run_bind_ok run]
  rfl

theorem run_callerId_cases (env : Env) (accessToken : String) (w : World σ) :
    (∃ e, (callerId env accessToken).run w = (.error e, w)) ∨
      ∃ caller, env.TokenOf w.now accessToken caller ∧
        (callerId env accessToken).run w = (.ok caller, w) := by
  rcases run_authenticate_cases env accessToken w with ⟨e, refused⟩ | ⟨caller, valid⟩
  · exact Or.inl ⟨e, Prog.run_bind_error refused _⟩
  · exact Or.inr ⟨caller, valid, run_callerId valid⟩

theorem run_requireScope_cases (permission caller : String) (scope : Scope) (w : World σ) :
    (∃ e, (requireScope permission caller scope).run w = (.error e, w)) ∨
      (Allowed w caller permission (some scope) ∧
        (requireScope permission caller scope).run w = (.ok (), w)) := by
  obtain ⟨answer, run, -⟩ := can_spec caller permission (some scope) w
  rw [Allowed, requireScope]
  cases answer with
  | error e => exact Or.inl ⟨e, Prog.run_bind_error run _⟩
  | ok allowed =>
      cases allowed with
      | false => exact Or.inl ⟨_, Prog.run_bind_ok run _⟩
      | true => exact Or.inr ⟨congrArg Prod.fst run, Prog.run_bind_ok run _⟩

theorem run_requireScope_allowed (allowed : Allowed w caller permission (some scope)) :
    (requireScope permission caller scope).run w = (.ok (), w) := by
  obtain ⟨answer, run, -⟩ := can_spec caller permission (some scope) w
  rw [Allowed, run] at allowed
  simp only at allowed
  rw [allowed] at run
  rw [requireScope, Prog.run_bind_ok run]
  rfl

theorem run_requireScope_refused (refused : ¬ Allowed w caller permission (some scope)) :
    ∃ e, (requireScope permission caller scope).run w = (.error e, w) := by
  rcases run_requireScope_cases permission caller scope w with thrown | ⟨allowed, -⟩
  · exact thrown
  · exact absurd allowed refused

theorem run_view {targetId : String} {u : User} (found : w.db.userById targetId = some u) :
    (view targetId : Service σ AdminUserView).run w = (.ok (toView w.db.toTables u), w) := by
  rw [view, Prog.run_bind_ok (run_query _ w), found]
  rfl

theorem run_view_missing {targetId : String} (missing : w.db.userById targetId = none) :
    (view targetId : Service σ AdminUserView).run w = (.error (.prisma .recordNotFound), w) := by
  rw [view, Prog.run_bind_ok (run_query _ w), missing]
  rfl

theorem quiet_requireScope (permission caller : String) (scope : Scope) :
    Quiet (requireScope permission caller scope : Service σ Unit) := by
  refine .bind (quiet_can caller permission (some scope)) ?_
  intro allowed
  cases allowed with
  | true => exact .pure _
  | false => exact .fail _

theorem quiet_view (targetId : String) : Quiet (view targetId : Service σ AdminUserView) := by
  refine .bind (.query _) ?_
  intro found
  cases found with
  | none => exact .fail _
  | some _ => exact .pure _

/-- What `grantAttributes` writes. -/
def granted (x : User) (input : GrantInput) : UserUpdate :=
  { tenant := some (input.tenant.getD x.tenant)
    department := some (input.department.getD x.department)
    clearance := some (input.clearance.getD x.clearance)
    level := some (input.level.getD x.level) }

/-- The place `grantAttributes` moves the target to. -/
def grantedPlace (x : User) (input : GrantInput) : Scope :=
  ⟨some (input.tenant.getD x.tenant), some (input.department.getD x.department)⟩

theorem grantAttributes_cases {targetId : String} {input : GrantInput} {w' : World σ}
    {result : Except ServiceError AdminUserView}
    (run : (grantAttributes S env accessToken targetId input).run w = (result, w')) :
    (∃ e, result = .error e ∧ w' = w) ∨
    ∃ caller x db v, env.TokenOf w.now accessToken caller ∧ x ∈ w.db.users ∧ x.id = targetId ∧
      Allowed w caller USERS_GRANT (some (placeOf x)) ∧
      Allowed w caller USERS_GRANT (some (grantedPlace x input)) ∧
      w.db.userUpdate targetId (granted x input) = .ok db ∧ result = .ok v ∧
      w' = { w with db, sessions := S.machine.perform w.sessions (.revokeUser targetId) } := by
  rw [grantAttributes] at run
  rcases run_callerId_cases env accessToken w with ⟨e, refused⟩ | ⟨caller, valid, passed⟩
  · exact Or.inl ⟨e, Prog.stops refused run⟩
  rw [Prog.run_bind_ok passed, Prog.run_bind_ok (run_query _ w)] at run
  cases found : w.db.userById targetId with
  | none =>
      rw [found] at run
      cases run
      exact Or.inl ⟨_, rfl, rfl⟩
  | some x =>
      obtain ⟨x_row, same⟩ := Database.userById_eq_some.mp found
      rw [found] at run
      simp only [requireGrantScope] at run
      rcases run_requireScope_cases USERS_GRANT caller (placeOf x) w with
        ⟨e, refused⟩ | ⟨present, passed⟩
      · exact Or.inl ⟨e, Prog.stops refused run⟩
      simp only [placeOf] at passed
      rw [Prog.run_bind_ok passed] at run
      rcases run_requireScope_cases USERS_GRANT caller (grantedPlace x input) w with
        ⟨e, refused⟩ | ⟨next, passed⟩
      · exact Or.inl ⟨e, Prog.stops refused run⟩
      simp only [grantedPlace] at passed
      rw [Prog.run_bind_ok passed] at run
      have known : targetId ∈ w.db.userIds := List.mem_map.mpr ⟨x, x_row, same⟩
      obtain ⟨db, ok⟩ := Database.userUpdate_commits known (granted x input)
      have committed := run_commit_ok (·.userUpdate targetId (granted x input)) ok
      simp only [granted] at committed
      rw [Prog.run_bind_ok committed, Prog.run_bind_ok (run_revokeUser S targetId _)] at run
      -- the target is still there to be viewed
      have still := Database.userById_userUpdate found ok
      rw [run_view still] at run
      cases run
      exact Or.inr ⟨caller, x, db, _, valid, x_row, same, present, next, ok, rfl, rfl⟩

/-- Whoever assigns or removes a role may do so in its scope. -/
theorem run_assign_cases {α : Type} {input : RoleAssignmentInput} {f : String → Service σ α}
    {w' : World σ} {result : Except ServiceError α}
    (run : (callerId env accessToken >>= fun caller =>
      requireAssignScope caller input.scopeTenant input.scopeDepartment >>= fun _ => f caller).run w =
        (result, w')) :
    (∃ e, result = .error e ∧ w' = w) ∨ ∃ caller, env.TokenOf w.now accessToken caller ∧
      Allowed w caller USERS_ASSIGN_ROLE (some ⟨input.scopeTenant, input.scopeDepartment⟩) ∧
      (f caller).run w = (result, w') := by
  rcases run_callerId_cases env accessToken w with ⟨e, refused⟩ | ⟨caller, valid, passed⟩
  · exact Or.inl ⟨e, Prog.stops refused run⟩
  rw [Prog.run_bind_ok passed, requireAssignScope] at run
  rcases run_requireScope_cases USERS_ASSIGN_ROLE caller
    ⟨input.scopeTenant, input.scopeDepartment⟩ w with ⟨e, refused⟩ | ⟨allowed, passed⟩
  · exact Or.inl ⟨e, Prog.stops refused run⟩
  rw [Prog.run_bind_ok passed] at run
  exact Or.inr ⟨caller, valid, allowed, run⟩

/-- The row `assignRole` creates. -/
def assigned (draws : Draws) (targetId : String) (role : Role) (input : RoleAssignmentInput) :
    UserRole :=
  { id := draws.id.value
    userId := targetId
    roleId := role.id
    scopeTenant := input.scopeTenant
    scopeDepartment := input.scopeDepartment }

theorem assignRole_cases {targetId : String} {input : RoleAssignmentInput} {w' : World σ}
    {result : Except ServiceError AdminUserView}
    (run : (assignRole S env draws accessToken targetId input).run w = (result, w')) :
    (∃ e, result = .error e ∧ w' = w) ∨
    ∃ caller role db v, env.TokenOf w.now accessToken caller ∧
      Allowed w caller USERS_ASSIGN_ROLE (some ⟨input.scopeTenant, input.scopeDepartment⟩) ∧
      w.db.roleByName input.roleName = some role ∧
      (db = w.db ∨ w.db.userRoleCreate (assigned draws targetId role input) = .ok db) ∧
      result = .ok v ∧
      w' = { w with db, sessions := S.machine.perform w.sessions (.revokeUser targetId) } := by
  rw [assignRole] at run
  rcases run_assign_cases run with refused | ⟨caller, valid, allowed, run⟩
  · exact Or.inl refused
  rw [Prog.run_bind_ok (run_query _ w)] at run
  cases user : w.db.userById targetId with
  | none =>
      rw [user] at run
      cases run
      exact Or.inl ⟨_, rfl, rfl⟩
  | some x =>
      rw [user] at run
      simp only at run
      rw [Prog.run_bind_ok (run_query _ w)] at run
      cases found : w.db.roleByName input.roleName with
      | none =>
          rw [found] at run
          cases run
          exact Or.inl ⟨_, rfl, rfl⟩
      | some role =>
          rw [found] at run
          simp only at run
          rw [Prog.run_bind_ok (run_query _ w)] at run
          split at run
          · cases created : w.db.userRoleCreate (assigned draws targetId role input) with
            | error e =>
                have failed := run_commit_error (·.userRoleCreate (assigned draws targetId role input)) created
                simp only [assigned] at failed
                rw [Prog.run_bind_error failed] at run
                cases run
                exact Or.inl ⟨_, rfl, rfl⟩
            | ok db =>
                have committed := run_commit_ok (·.userRoleCreate (assigned draws targetId role input)) created
                simp only [assigned] at committed
                rw [Prog.run_bind_ok committed, Prog.run_bind_ok (run_revokeUser S targetId _)] at run
                have users : db.users = w.db.users := by rw [Database.userRoleCreate_ok created]
                have there : db.userById targetId = some x := by
                  rw [Tables.userById, users]
                  exact user
                rw [run_view (u := x) there] at run
                cases run
                exact Or.inr ⟨caller, role, db, _, valid, allowed, rfl, Or.inr created, rfl, rfl⟩
          · rw [Prog.run_bind_ok (run_revokeUser S targetId _), run_view (u := x) (by exact user)] at run
            cases run
            exact Or.inr ⟨caller, role, w.db, _, valid, allowed, rfl, Or.inl rfl, rfl, rfl⟩

theorem removeRole_cases {targetId : String} {input : RoleAssignmentInput} {w' : World σ}
    {result : Except ServiceError AdminUserView}
    (run : (removeRole S env accessToken targetId input).run w = (result, w')) :
    (∃ e, result = .error e ∧ w' = w) ∨
    ∃ caller role, env.TokenOf w.now accessToken caller ∧
      Allowed w caller USERS_ASSIGN_ROLE (some ⟨input.scopeTenant, input.scopeDepartment⟩) ∧
      w.db.roleByName input.roleName = some role ∧
      (∀ u, w.db.userById targetId = some u → ∃ v, result = .ok v) ∧
      w' = { w with
        db := w.db.userRoleDeleteMany targetId role.id input.scopeTenant input.scopeDepartment
        sessions := S.machine.perform w.sessions (.revokeUser targetId) } := by
  rw [removeRole] at run
  rcases run_assign_cases run with refused | ⟨caller, valid, allowed, run⟩
  · exact Or.inl refused
  rw [Prog.run_bind_ok (run_query _ w)] at run
  cases found : w.db.roleByName input.roleName with
  | none =>
      rw [found] at run
      cases run
      exact Or.inl ⟨_, rfl, rfl⟩
  | some role =>
      rw [found] at run
      have deleted : (commit fun db => .ok (db.userRoleDeleteMany targetId role.id input.scopeTenant
          input.scopeDepartment) : Service σ Unit).run w = (.ok (), _) := run_commit_ok _ rfl
      simp only at run
      rw [Prog.run_bind_ok deleted, Prog.run_bind_ok (run_revokeUser S targetId _)] at run
      refine Or.inr ⟨caller, role, valid, allowed, rfl, ?_⟩
      cases user : w.db.userById targetId with
      | none =>
          rw [run_view_missing (by exact user)] at run
          cases run
          exact ⟨by simp, rfl⟩
      | some x =>
          rw [run_view (u := x) (by exact user)] at run
          cases run
          exact ⟨fun _ _ => ⟨_, rfl⟩, rfl⟩

end

end Arac.Admin
