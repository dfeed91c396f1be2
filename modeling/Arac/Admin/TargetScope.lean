/-
# Arac.Admin.TargetScope -- which targets an operation reaches

`grantAttributes` checks the caller's permission over the target's present place and
over the new one before its first write.  `assignRole` and `removeRole` check the
scope of the assignment only: a caller whose `users:assign-role` is confined to one
place can hand out, or take away, roles of that scope to users anywhere, and revoke
their sessions.  `staysInScope_iff` says for which requests the two-sided check
holds all the same.
-/
import Arac.Admin.Effects
import Arac.Sessions.Redis

namespace Arac.Admin

open Arac.Theory Arac.Sessions Arac.Db Arac.Service Arac.Rbac

set_option autoImplicit false

inductive AdminRequest where
  | grantAttributes (input : GrantInput)
  | assignRole (input : RoleAssignmentInput)
  | removeRole (input : RoleAssignmentInput)
  deriving DecidableEq

namespace AdminRequest

def service {σ : Type} (S : SessionStore σ) (env : Env) (draws : Draws)
    (accessToken targetId : String) : AdminRequest → Service σ AdminUserView
  | .grantAttributes input => Admin.grantAttributes S env accessToken targetId input
  | .assignRole input => Admin.assignRole S env draws accessToken targetId input
  | .removeRole input => Admin.removeRole S env accessToken targetId input

/-- The permission the request is about. -/
def permission : AdminRequest → String
  | .grantAttributes _ => USERS_GRANT
  | .assignRole _ => USERS_ASSIGN_ROLE
  | .removeRole _ => USERS_ASSIGN_ROLE

/-- The scope that is granted, assigned or removed. -/
def newScope (x : User) : AdminRequest → Scope
  | .grantAttributes input =>
      ⟨some (input.tenant.getD x.tenant), some (input.department.getD x.department)⟩
  | .assignRole input => ⟨input.scopeTenant, input.scopeDepartment⟩
  | .removeRole input => ⟨input.scopeTenant, input.scopeDepartment⟩

end AdminRequest

section

variable {σ : Type} (S : SessionStore σ) (env : Env) (draws : Draws) (w : World σ)
  (accessToken callerId : String) (x : User)

/-- The caller holds the permission over the target's place and over the new scope,
or the call throws and nothing has changed. -/
def StaysInScope (request : AdminRequest) : Prop :=
  (Allowed w callerId request.permission (some (placeOf x)) ∧
    Allowed w callerId request.permission (some (request.newScope x))) ∨
  ∃ e, (request.service S env draws accessToken x.id).run w = (.error e, w)

/-- The request is a grant, names no role, is refused for its own scope, or comes
from a caller who holds the permission over the target's place. -/
def TargetChecked : AdminRequest → Prop
  | .grantAttributes _ => True
  | .assignRole input => w.db.roleByName input.roleName = none ∨
      ¬ Allowed w callerId USERS_ASSIGN_ROLE (some ⟨input.scopeTenant, input.scopeDepartment⟩) ∨
      Allowed w callerId USERS_ASSIGN_ROLE (some (placeOf x))
  | .removeRole input => w.db.roleByName input.roleName = none ∨
      ¬ Allowed w callerId USERS_ASSIGN_ROLE (some ⟨input.scopeTenant, input.scopeDepartment⟩) ∨
      Allowed w callerId USERS_ASSIGN_ROLE (some (placeOf x))

end

section

variable {σ : Type} {S : SessionStore σ} {env : Env} {draws : Draws} {w : World σ}
  {accessToken caller permission : String} {scope : Scope} {x : User}

/-- A grant that passes neither or only one check throws before its first write. -/
theorem grantAttributes_staysInScope (valid : env.TokenOf w.now accessToken caller)
    (x_row : x ∈ w.db.users) (input : GrantInput) :
    StaysInScope S env draws w accessToken caller x (.grantAttributes input) := by
  obtain ⟨result, w', run⟩ : ∃ result w',
      (grantAttributes S env accessToken x.id input).run w = (result, w') := ⟨_, _, rfl⟩
  rcases grantAttributes_cases run with ⟨e, rfl, rfl⟩ |
    ⟨caller', x', db, v, valid', x_row', same, present, next, -⟩
  · exact Or.inr ⟨e, run⟩
  · obtain rfl := valid.unique valid'
    obtain rfl := Database.user_eq x_row' x_row same
    exact Or.inl ⟨present, next⟩

/-- An assignment that passes its check, of a role that exists, goes through wherever
the target is. -/
theorem run_assignRole_allowed (valid : env.TokenOf w.now accessToken caller)
    (x_row : x ∈ w.db.users) (fresh : draws.id.value ∉ w.db.userRoles.map UserRole.id)
    {input : RoleAssignmentInput} {role : Role}
    (found : w.db.roleByName input.roleName = some role)
    (allowed : Allowed w caller USERS_ASSIGN_ROLE
      (some ⟨input.scopeTenant, input.scopeDepartment⟩)) :
    ∃ v w', (assignRole S env draws accessToken x.id input).run w = (.ok v, w') := by
  have user := Database.userById_eq_some.mpr ⟨x_row, rfl⟩
  rw [assignRole, Prog.run_bind_ok (run_callerId valid), requireAssignScope,
    Prog.run_bind_ok (run_requireScope_allowed allowed), Prog.run_bind_ok (run_query _ w), user]
  simp only
  rw [Prog.run_bind_ok (run_query _ w), found]
  simp only
  rw [Prog.run_bind_ok (run_query _ w)]
  by_cases existing : w.db.findAssignment x.id role.id input.scopeTenant input.scopeDepartment = none
  · obtain ⟨db, ok⟩ : ∃ db, w.db.userRoleCreate (assigned draws x.id role input) = .ok db :=
      Database.userRoleCreate_commits fresh existing (List.mem_map_of_mem x_row)
      (List.mem_map_of_mem (Database.roleByName_eq_some.mp found).1)
    have users : db.users = w.db.users := by rw [Database.userRoleCreate_ok ok]
    rw [if_pos existing, Prog.run_bind_ok (run_commit_ok _ ok), Prog.run_bind_ok (run_revokeUser S x.id _),
      run_view (u := x) (Database.userById_eq_some.mpr ⟨by rw [users]; exact x_row, rfl⟩)]
    exact ⟨_, _, rfl⟩
  · rw [if_neg existing, Prog.run_bind_ok (run_revokeUser S x.id _)]
    exact ⟨_, _, run_view (u := x) user⟩

theorem run_removeRole_allowed (valid : env.TokenOf w.now accessToken caller)
    (x_row : x ∈ w.db.users) {input : RoleAssignmentInput} {role : Role}
    (found : w.db.roleByName input.roleName = some role)
    (allowed : Allowed w caller USERS_ASSIGN_ROLE
      (some ⟨input.scopeTenant, input.scopeDepartment⟩)) :
    ∃ v w', (removeRole S env accessToken x.id input).run w = (.ok v, w') := by
  have user := Database.userById_eq_some.mpr ⟨x_row, rfl⟩
  have deleted : (commit fun db => .ok (db.userRoleDeleteMany x.id role.id input.scopeTenant
      input.scopeDepartment) : Service σ Unit).run w = (.ok (), _) := run_commit_ok _ rfl
  rw [removeRole, Prog.run_bind_ok (run_callerId valid), requireAssignScope,
    Prog.run_bind_ok (run_requireScope_allowed allowed), Prog.run_bind_ok (run_query _ w), found]
  simp only
  rw [Prog.run_bind_ok deleted, Prog.run_bind_ok (run_revokeUser S x.id _)]
  exact ⟨_, _, run_view (u := x) user⟩

/-- Removing from a user who does not exist throws at the very end. -/
theorem run_removeRole_missing (valid : env.TokenOf w.now accessToken caller) {targetId : String}
    (missing : w.db.userById targetId = none) {input : RoleAssignmentInput} {role : Role}
    (found : w.db.roleByName input.roleName = some role)
    (allowed : Allowed w caller USERS_ASSIGN_ROLE
      (some ⟨input.scopeTenant, input.scopeDepartment⟩)) :
    (removeRole S env accessToken targetId input).run w = (.error (.prisma .recordNotFound),
      { w with
        db := w.db.userRoleDeleteMany targetId role.id input.scopeTenant input.scopeDepartment
        sessions := S.machine.perform w.sessions (.revokeUser targetId) }) := by
  have deleted : (commit fun db => .ok (db.userRoleDeleteMany targetId role.id input.scopeTenant
      input.scopeDepartment) : Service σ Unit).run w = (.ok (), _) := run_commit_ok _ rfl
  rw [removeRole, Prog.run_bind_ok (run_callerId valid), requireAssignScope,
    Prog.run_bind_ok (run_requireScope_allowed allowed), Prog.run_bind_ok (run_query _ w), found]
  simp only
  rw [Prog.run_bind_ok deleted, Prog.run_bind_ok (run_revokeUser S targetId _),
    run_view_missing (by exact missing)]

/-- The argument shared by assigning and removing: a call that either fails and
changes nothing or has passed the check of its own scope, and that goes through
whenever the role exists and the check passes. -/
theorem assignment_iff {found : Option Role} {present allowed : Prop}
    {run : Except ServiceError AdminUserView × World σ}
    (cases : (∃ e, run = (.error e, w)) ∨ (allowed ∧ ∃ role, found = some role))
    (passes : ∀ role, found = some role → allowed → ∃ v w', run = (.ok v, w')) :
    ((present ∧ allowed) ∨ ∃ e, run = (.error e, w)) ↔ (found = none ∨ ¬ allowed ∨ present) := by
  constructor
  · rintro (⟨here, -⟩ | ⟨e, thrown⟩)
    · exact Or.inr (Or.inr here)
    · cases known : found with
      | none => exact Or.inl rfl
      | some role =>
          refine Or.inr (Or.inl ?_)
          intro may
          obtain ⟨v, w', passed⟩ := passes role known may
          exact absurd (thrown.symm.trans passed) (by simp)
  · intro checked
    rcases cases with thrown | ⟨may, role, known⟩
    · exact Or.inr thrown
    · rcases checked with unknown | refused | here
      · exact absurd (unknown.symm.trans known) (by simp)
      · exact absurd may refused
      · exact Or.inl ⟨here, may⟩

/-- The two-sided check holds exactly for the requests that do not slip past the
target. -/
theorem staysInScope_iff (valid : env.TokenOf w.now accessToken caller) (x_row : x ∈ w.db.users)
    (fresh : draws.id.value ∉ w.db.userRoles.map UserRole.id) (request : AdminRequest) :
    StaysInScope S env draws w accessToken caller x request ↔ TargetChecked w caller x request := by
  cases request with
  | grantAttributes input =>
      exact iff_of_true (grantAttributes_staysInScope valid x_row input) trivial
  | assignRole input =>
      refine assignment_iff ?_ fun role known may => run_assignRole_allowed valid x_row fresh known may
      obtain ⟨result, w', run⟩ : ∃ result w',
          (assignRole S env draws accessToken x.id input).run w = (result, w') := ⟨_, _, rfl⟩
      rcases assignRole_cases run with ⟨e, rfl, rfl⟩ | ⟨caller', role, -, -, valid', allowed, found, -⟩
      · exact Or.inl ⟨e, run⟩
      · obtain rfl := valid.unique valid'
        exact Or.inr ⟨allowed, role, found⟩
  | removeRole input =>
      refine assignment_iff ?_ fun role known may => run_removeRole_allowed valid x_row known may
      obtain ⟨result, w', run⟩ : ∃ result w',
          (removeRole S env accessToken x.id input).run w = (result, w') := ⟨_, _, rfl⟩
      rcases removeRole_cases run with ⟨e, rfl, rfl⟩ | ⟨caller', role, valid', allowed, found, -⟩
      · exact Or.inl ⟨e, run⟩
      · obtain rfl := valid.unique valid'
        exact Or.inr ⟨allowed, role, found⟩

end

/-- The seeded administrator's scope is everywhere. -/
theorem staysInScope_admin :
    StaysInScope sampleStore sampleEnv sampleDraws (World.fresh .empty 0 staffed) "admin@acme.test"
      "admin@acme.test" (staff "user-admin@acme.test" 6)
      (.assignRole ⟨"dept-admin", some "acme", some "finance"⟩) := by
  have allowed : Allowed (World.fresh RedisSessions.empty 0 staffed) "admin@acme.test"
      USERS_ASSIGN_ROLE (some (placeOf (staff "user-admin@acme.test" 6))) := by decide
  exact (staysInScope_iff (sampleEnv_tokenOf 0 _) (by decide) (by decide) _).mpr
    (Or.inr (Or.inr allowed))

/-- An administrator of the finance department assigns a finance role to somebody in
human resources. -/
theorem not_always_staysInScope :
    ¬ ∀ (σ : Type) (S : SessionStore σ) (env : Env) (draws : Draws) (w : World σ)
      (accessToken caller : String) (x : User), env.TokenOf w.now accessToken caller →
        x ∈ w.db.users → draws.id.value ∉ w.db.userRoles.map UserRole.id →
          ∀ request, StaysInScope S env draws w accessToken caller x request := by
  intro always
  obtain ⟨hr, found⟩ : ∃ hr, staffed.userById "hr@acme.test" = some hr := ⟨_, rfl⟩
  obtain ⟨hr_row, hr_id⟩ := Database.userById_eq_some.mp found
  have elsewhere : ¬ Allowed (World.fresh RedisSessions.empty 0 staffed) "user-admin@acme.test"
      USERS_ASSIGN_ROLE (some ⟨some "acme", some "hr"⟩) := by decide
  have allowed : Allowed (World.fresh RedisSessions.empty 0 staffed) "user-admin@acme.test"
      USERS_ASSIGN_ROLE (some ⟨some "acme", some "finance"⟩) := by decide
  have place : placeOf hr = ⟨some "acme", some "hr"⟩ := by
    cases found
    rfl
  obtain ⟨role, role_found⟩ : ∃ role, staffed.roleByName "dept-admin" = some role := ⟨_, rfl⟩
  rcases always RedisSessions sampleStore sampleEnv sampleDraws (World.fresh .empty 0 staffed)
    "user-admin@acme.test" "user-admin@acme.test" hr (sampleEnv_tokenOf 0 _) hr_row (by decide)
    (.assignRole ⟨"dept-admin", some "acme", some "finance"⟩) with ⟨present, -⟩ | ⟨e, thrown⟩
  · rw [place] at present
    exact elsewhere present
  · obtain ⟨v, w', passed⟩ : ∃ v w', (assignRole sampleStore sampleEnv sampleDraws
        "user-admin@acme.test" hr.id ⟨"dept-admin", some "acme", some "finance"⟩).run
        (World.fresh .empty 0 staffed) = (.ok v, w') :=
      run_assignRole_allowed (sampleEnv_tokenOf 0 _) hr_row (by decide) role_found allowed
    exact absurd (thrown.symm.trans passed) (by simp)

end Arac.Admin
