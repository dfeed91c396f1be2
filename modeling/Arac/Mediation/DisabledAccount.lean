/-
# Arac.Mediation.DisabledAccount -- administration by an account that was disabled

`AdminService` and `OrgService` take the caller from the access token and ask the role
tables what the caller may do.  Neither `callerId` nor `require`, `can` or `scopesFor`
reads the status of the account, so a token that is still valid keeps every permission
of its subject.  `failsClosed_iff` says what each operation asks for instead.

Every operation makes all its checks before its first effect (`Prog.Decides`), except
that `removeRole` looks for the target last.
-/
import Arac.Admin.TargetScope
import Arac.Mediation.Operations
import Arac.Org.TargetScope

namespace Arac.Mediation

open Arac.Theory Arac.Sessions Arac.Db Arac.Service Arac.Rbac Arac.Admin Arac.Org

set_option autoImplicit false

/-- The operations of `AdminService` and `OrgService`. -/
inductive AdminOperation where
  | listUsers
  | listRoles
  | grantAttributes (targetId : String) (input : GrantInput)
  | assignRole (targetId : String) (input : RoleAssignmentInput)
  | removeRole (targetId : String) (input : RoleAssignmentInput)
  | listDepartments
  | listCompartments
  | createDepartment (input : CreateDepartmentInput)
  | createCompartment (input : CreateCompartmentInput)
  | setUserMemberships (userId : String) (memberships : List MembershipInput)
  | setUserCompartments (userId : String) (keys : List String)

def AdminOperation.service {σ : Type} (S : SessionStore σ) (env : Env) (draws : Draws)
    (accessToken : String) : AdminOperation → Service σ Unit
  | .listUsers => (Admin.listUsers env accessToken).void
  | .listRoles => (Admin.listRoles env accessToken).void
  | .grantAttributes targetId input => (Admin.grantAttributes S env accessToken targetId input).void
  | .assignRole targetId input => (Admin.assignRole S env draws accessToken targetId input).void
  | .removeRole targetId input => (Admin.removeRole S env accessToken targetId input).void
  | .listDepartments => (Org.listDepartments env accessToken).void
  | .listCompartments => (Org.listCompartments env accessToken).void
  | .createDepartment input => (Org.createDepartment env draws accessToken input).void
  | .createCompartment input => (Org.createCompartment env draws accessToken input).void
  | .setUserMemberships userId memberships =>
      Org.setUserMemberships S env accessToken userId memberships
  | .setUserCompartments userId keys => Org.setUserCompartments S env accessToken userId keys

section

variable {σ : Type}

/-- Users, assignments, org tables and sessions are the same. -/
structure Unchanged (w w' : World σ) : Prop where
  users : w'.db.users = w.db.users
  userRoles : w'.db.userRoles = w.db.userRoles
  departments : w'.db.departments = w.db.departments
  userDepartments : w'.db.userDepartments = w.db.userDepartments
  compartments : w'.db.compartments = w.db.compartments
  userCompartments : w'.db.userCompartments = w.db.userCompartments
  sessions : w'.sessions.state.store = w.sessions.state.store

theorem Unchanged.refl (w : World σ) : Unchanged w w := ⟨rfl, rfl, rfl, rfl, rfl, rfl, rfl⟩

variable (S : SessionStore σ) (env : Env) (draws : Draws) (w : World σ)

/-- The operation throws and leaves everything unchanged. -/
def FailsClosed (accessToken : String) (op : AdminOperation) : Prop :=
  ∃ e w', (op.service S env draws accessToken).run w = (.error e, w') ∧ Unchanged w w'

/-- What the operation asks for before it answers.  The status of the caller's account
is no part of it. -/
def Admits (caller : String) : AdminOperation → Prop
  | .listUsers => ∃ scopes, ((scopesFor caller USERS_READ).run w).1 = .ok scopes ∧ scopes ≠ []
  | .listRoles => Allowed w caller USERS_ASSIGN_ROLE none
  | .grantAttributes targetId input => ∃ x, w.db.userById targetId = some x ∧
      Allowed w caller USERS_GRANT (some (placeOf x)) ∧
      Allowed w caller USERS_GRANT (some (grantedPlace x input))
  | .assignRole targetId input =>
      Allowed w caller USERS_ASSIGN_ROLE (some ⟨input.scopeTenant, input.scopeDepartment⟩) ∧
      (∃ x, w.db.userById targetId = some x) ∧
      ∃ role, w.db.roleByName input.roleName = some role ∧
        (w.db.findAssignment targetId role.id input.scopeTenant input.scopeDepartment = none →
          draws.id.value ∉ w.db.userRoles.map UserRole.id)
  | .removeRole targetId input =>
      Allowed w caller USERS_ASSIGN_ROLE (some ⟨input.scopeTenant, input.scopeDepartment⟩) ∧
      (∃ role, w.db.roleByName input.roleName = some role) ∧
      ((∃ x, w.db.userById targetId = some x) ∨
        (S.machine.perform w.sessions (.revokeUser targetId)).state.store ≠ w.sessions.state.store)
  | .listDepartments => Allowed w caller USERS_READ none
  | .listCompartments => Allowed w caller USERS_READ none
  | .createDepartment input => Allowed w caller ORG_MANAGE none ∧
      (∀ slug ∈ truthy input.parentSlug, ∃ d, w.db.departmentBySlug TENANT slug = some d) ∧
      draws.id.value ∉ w.db.departmentIds ∧
      ∀ d ∈ w.db.departments, d.tenant = TENANT → d.slug ≠ trim input.slug
  | .createCompartment input => Allowed w caller ORG_MANAGE none ∧
      draws.id.value ∉ w.db.compartmentIds ∧
      ∀ c ∈ w.db.compartments, c.tenant = TENANT → c.key ≠ trim input.key
  | .setUserMemberships userId memberships => Allowed w caller ORG_MANAGE none ∧
      (∃ x, w.db.userById userId = some x) ∧
      (∀ slug ∈ memberships.map MembershipInput.slug,
        ∃ d ∈ w.db.departments, d.tenant = TENANT ∧ d.slug = slug) ∧
      (memberships.map MembershipInput.slug).Nodup
  | .setUserCompartments userId keys => Allowed w caller ORG_MANAGE none ∧
      (∃ x, w.db.userById userId = some x) ∧
      ∀ key ∈ keys, ∃ c ∈ w.db.compartments, c.tenant = TENANT ∧ c.key = key

end

section

variable {σ : Type} {S : SessionStore σ} {env : Env} {draws : Draws} {w : World σ}
  {accessToken caller : String}

/-! ## The admin operations -/

theorem decides_listUsers (valid : env.TokenOf w.now accessToken caller) :
    Prog.Decides (Admin.listUsers env accessToken) w (Admits S draws w caller .listUsers) := by
  refine .bind_ok (run_callerId valid) ?_
  have loaded := run_scopesFor caller USERS_READ w
  simp only [Admits, loaded]
  cases grants : grantsIn w.db.toTables caller with
  | error e =>
      rw [grants] at loaded
      exact .refuse (by simp [Except.map]) ⟨_, Prog.run_bind_error loaded _⟩
  | ok gs =>
      rw [grants] at loaded
      refine .bind_ok loaded ?_
      split
      · rename_i nothing
        have empty := List.length_eq_zero_iff.mp nothing
        exact .fail (by simp [Except.map, empty]) _
      · rename_i something
        have nonempty := mt List.length_eq_zero_iff.mpr something
        exact .answer ⟨_, rfl, nonempty⟩ ⟨_, _, run_query _ w⟩

theorem decides_listRoles (valid : env.TokenOf w.now accessToken caller) :
    Prog.Decides (Admin.listRoles env accessToken) w (Admits S draws w caller .listRoles) := by
  refine .bind_ok (run_callerId valid) ?_
  obtain ⟨answer, run, -⟩ := can_spec caller USERS_ASSIGN_ROLE none w
  simp only [Admits, Allowed, run]
  cases answer with
  | error e => exact .refuse (by simp) ⟨e, Prog.run_bind_error run _⟩
  | ok allowed =>
      refine .bind_ok run ?_
      cases allowed with
      | false => exact .fail (by simp) _
      | true => exact .answer rfl ⟨_, _, rfl⟩

theorem decides_grantAttributes (valid : env.TokenOf w.now accessToken caller) (targetId : String)
    (input : GrantInput) :
    Prog.Decides (Admin.grantAttributes S env accessToken targetId input) w
      (Admits S draws w caller (.grantAttributes targetId input)) := by
  refine .bind_ok (run_callerId valid) (.bind_ok (run_query _ w) ?_)
  simp only [Admits]
  cases found : w.db.userById targetId with
  | none => exact .fail (by simp) _
  | some x =>
      obtain ⟨x_row, same⟩ := Database.userById_eq_some.mp found
      have known : targetId ∈ w.db.userIds := List.mem_map.mpr ⟨x, x_row, same⟩
      have asked : (Allowed w caller USERS_GRANT (some (placeOf x)) ∧
          Allowed w caller USERS_GRANT (some (grantedPlace x input)) ∧ True) ↔
          ∃ y, some x = some y ∧ Allowed w caller USERS_GRANT (some (placeOf y)) ∧
            Allowed w caller USERS_GRANT (some (grantedPlace y input)) := by simp
      refine Prog.Decides.congr ?_ asked
      refine .bind_guard run_requireScope_allowed run_requireScope_refused fun _ => ?_
      refine .bind_guard run_requireScope_allowed run_requireScope_refused fun _ => ?_
      apply decides_commit (iff_of_true (Database.userUpdate_commits known _) trivial)
      intro db ok
      rw [Prog.run_bind_ok (run_revokeUser S targetId _),
        run_view (Database.userById_userUpdate found ok)]
      exact ⟨_, _, rfl⟩

theorem decides_assignRole (valid : env.TokenOf w.now accessToken caller) (targetId : String)
    (input : RoleAssignmentInput) :
    Prog.Decides (Admin.assignRole S env draws accessToken targetId input) w
      (Admits S draws w caller (.assignRole targetId input)) := by
  refine .bind_ok (run_callerId valid) ?_
  refine .bind_guard run_requireScope_allowed run_requireScope_refused fun _ => ?_
  refine .bind_ok (run_query _ w) ?_
  cases user : w.db.userById targetId with
  | none => exact .fail (by simp) _
  | some x =>
      obtain ⟨x_row, same⟩ := Database.userById_eq_some.mp user
      have known : targetId ∈ w.db.userIds := List.mem_map.mpr ⟨x, x_row, same⟩
      refine .bind_ok (run_query _ w) ?_
      cases found : w.db.roleByName input.roleName with
      | none => exact .fail (by simp) _
      | some role =>
          have role_known : role.id ∈ w.db.roleIds :=
            List.mem_map_of_mem (Database.roleByName_eq_some.mp found).1
          refine .bind_ok (run_query _ w) ?_
          dsimp only
          split
          · rename_i absent
            refine decides_commit ?_ ?_
            · constructor
              · rintro ⟨db, ok⟩
                exact ⟨⟨x, rfl⟩, role, rfl, fun _ => Database.userRoleCreate_fresh ok⟩
              · rintro ⟨-, r, same_role, fresh⟩
                cases same_role
                exact Database.userRoleCreate_commits (fresh absent) absent known role_known
            · intro db ok
              have users : db.users = w.db.users := by rw [Database.userRoleCreate_ok ok]
              have there : db.userById targetId = some x := by
                rw [Tables.userById, users]
                exact user
              rw [Prog.run_bind_ok (run_revokeUser S targetId _), run_view (u := x) there]
              exact ⟨_, _, rfl⟩
          · rename_i present
            refine .answer ⟨⟨x, rfl⟩, role, rfl, fun absent => absurd absent present⟩ ?_
            rw [Prog.run_bind_ok (run_revokeUser S targetId _), run_view (u := x) (by exact user)]
            exact ⟨_, _, rfl⟩

theorem decides_removeRole (valid : env.TokenOf w.now accessToken caller) {targetId : String}
    {x : User} (user : w.db.userById targetId = some x) (input : RoleAssignmentInput) :
    Prog.Decides (Admin.removeRole S env accessToken targetId input) w
      (Admits S draws w caller (.removeRole targetId input)) := by
  refine .bind_ok (run_callerId valid) ?_
  refine .bind_guard run_requireScope_allowed run_requireScope_refused fun _ => ?_
  refine .bind_ok (run_query _ w) ?_
  cases found : w.db.roleByName input.roleName with
  | none => exact .fail (by simp) _
  | some role =>
      refine decides_commit (iff_of_true ⟨_, rfl⟩ ⟨⟨role, rfl⟩, Or.inl ⟨x, user⟩⟩) ?_
      intro db ok
      cases ok
      rw [Prog.run_bind_ok (run_revokeUser S targetId _), run_view (u := x) (by exact user)]
      exact ⟨_, _, rfl⟩

/-! ## The org operations -/

/-- A call that asks for a permission and then cannot fail. -/
theorem decides_require {α : Type} {permission : String} {f : String → Service σ α}
    (valid : env.TokenOf w.now accessToken caller)
    (answers : ∃ a w', (f caller).run w = (.ok a, w')) :
    Prog.Decides (require env accessToken permission >>= f) w (Allowed w caller permission none) := by
  have decided : Prog.Decides (require env accessToken permission >>= f) w
      (Allowed w caller permission none ∧ True) :=
    .bind_guard (run_require_allowed valid) (run_require_refused valid) fun _ =>
      .answer trivial answers
  exact decided.congr (by simp)

theorem decides_listDepartments (valid : env.TokenOf w.now accessToken caller) :
    Prog.Decides (Org.listDepartments env accessToken) w
      (Admits S draws w caller .listDepartments) := decides_require valid ⟨_, _, rfl⟩

theorem decides_listCompartments (valid : env.TokenOf w.now accessToken caller) :
    Prog.Decides (Org.listCompartments env accessToken) w
      (Admits S draws w caller .listCompartments) := decides_require valid ⟨_, _, rfl⟩

theorem decides_createDepartment (valid : env.TokenOf w.now accessToken caller)
    (input : CreateDepartmentInput) :
    Prog.Decides (Org.createDepartment env draws accessToken input) w
      (Admits S draws w caller (.createDepartment input)) := by
  refine .bind_guard (run_require_allowed valid) (run_require_refused valid) fun _ => ?_
  refine .bind_check ?_ run_resolveParent_unknown
  intro known
  obtain ⟨parentId, resolved, parent⟩ := run_resolveParent_known known
  refine ⟨parentId, resolved, ?_⟩
  refine (decides_writeSelect ?_ ?_).congr ?_
  · exact fun view => ⟨view, rfl⟩
  · intro e
    dsimp only
    split <;> exact ⟨_, rfl⟩
  · rw [Database.departmentCreate_commits_iff, and_iff_left parent]

theorem decides_createCompartment (valid : env.TokenOf w.now accessToken caller)
    (input : CreateCompartmentInput) :
    Prog.Decides (Org.createCompartment env draws accessToken input) w
      (Admits S draws w caller (.createCompartment input)) := by
  refine .bind_guard (run_require_allowed valid) (run_require_refused valid) fun _ => ?_
  refine (decides_writeSelect ?_ ?_).congr Database.compartmentCreate_commits_iff
  · exact fun _ => ⟨_, rfl⟩
  · intro e
    dsimp only
    split <;> exact ⟨_, rfl⟩

theorem decides_setUserMemberships (valid : env.TokenOf w.now accessToken caller) (userId : String)
    (memberships : List MembershipInput) :
    Prog.Decides (Org.setUserMemberships S env accessToken userId memberships) w
      (Admits S draws w caller (.setUserMemberships userId memberships)) := by
  refine .bind_guard (run_require_allowed valid) (run_require_refused valid) fun _ => ?_
  refine .bind_ok (run_query _ w) ?_
  cases user : w.db.userById userId with
  | none => exact .fail (by simp) _
  | some x =>
      obtain ⟨x_row, same⟩ := Database.userById_eq_some.mp user
      have target : userId ∈ w.db.userIds := List.mem_map.mpr ⟨x, x_row, same⟩
      refine .bind_ok (run_query _ w) ?_
      dsimp only
      split
      · rename_i missing
        exact .fail (fun holds => missing (departments_found_iff.mpr holds.2.1)) _
      · rename_i counted
        have known := departments_found_iff.mp (not_ne_iff.mp counted)
        obtain ⟨rows, found, departments, distinct⟩ := memberships_looked_up known
        rw [found]
        refine decides_commit ?_ fun db ok => ⟨_, _, rfl⟩
        rw [← distinct]
        constructor
        · rintro ⟨db, ok⟩
          refine ⟨⟨x, rfl⟩, known, ?_⟩
          by_contra repeats
          exact absurd (ok.symm.trans (Database.setUserDepartments_duplicate repeats)) (by simp)
        · rintro ⟨-, -, nodup⟩
          exact Database.setUserDepartments_commits nodup target departments

theorem decides_setUserCompartments (valid : env.TokenOf w.now accessToken caller) (userId : String)
    (keys : List String) :
    Prog.Decides (Org.setUserCompartments S env accessToken userId keys) w
      (Admits S draws w caller (.setUserCompartments userId keys)) := by
  refine .bind_guard (run_require_allowed valid) (run_require_refused valid) fun _ => ?_
  refine .bind_ok (run_query _ w) ?_
  cases user : w.db.userById userId with
  | none => exact .fail (by simp) _
  | some x =>
      obtain ⟨x_row, same⟩ := Database.userById_eq_some.mp user
      have target : userId ∈ w.db.userIds := List.mem_map.mpr ⟨x, x_row, same⟩
      refine .bind_ok (run_query _ w) ?_
      split
      · rename_i missing
        exact .fail (fun holds => missing (compartments_found_iff.mpr holds.2)) _
      · rename_i counted
        have known := compartments_found_iff.mp (not_ne_iff.mp counted)
        refine decides_commit (iff_of_true ?_ ⟨⟨x, rfl⟩, known⟩) fun db ok => ⟨_, _, rfl⟩
        refine Database.setUserCompartments_commits ?_ target ?_
        · exact (List.filter_sublist.map _).nodup w.db.valid.compartment_id
        · intro id listed
          obtain ⟨c, member, rfl⟩ := List.mem_map.mp listed
          exact List.mem_map_of_mem (Database.mem_compartmentsIn.mp member).1

/-! ## Failing closed -/

/-- An operation that checks first fails closed unless it is admitted. -/
theorem failsClosed_iff_of_decides {op : AdminOperation} {admitted : Prop}
    (decides : Prog.Decides (op.service S env draws accessToken) w admitted) :
    FailsClosed S env draws w accessToken op ↔ ¬ admitted := by
  constructor
  · rintro ⟨e, w', thrown, -⟩ holds
    obtain ⟨v, w'', answered⟩ := decides.answers holds
    exact absurd (thrown.symm.trans answered) (by simp)
  · intro refused
    obtain ⟨e, thrown⟩ := decides.refuses refused
    exact ⟨e, w, thrown, .refl w⟩

/-- Nobody's assignments can be removed from a user who does not exist. -/
theorem userRoleDeleteMany_missing {db : Database} {targetId : String}
    (missing : db.userById targetId = none) (roleId : String) (tenant department : Option String) :
    (db.userRoleDeleteMany targetId roleId tenant department).userRoles = db.userRoles := by
  refine List.filter_eq_self.mpr fun a member => decide_eq_true ?_
  rintro ⟨rfl, -⟩
  obtain ⟨x, x_row, same⟩ := List.mem_map.mp (db.valid.userRole_user a member)
  exact absurd (missing.symm.trans (Database.userById_eq_some.mpr ⟨x_row, same⟩)) (by simp)

/-- `removeRole` looks for the target after it has revoked the target's sessions: for a
user who does not exist it throws, but may have changed the session store. -/
theorem failsClosed_removeRole_missing (valid : env.TokenOf w.now accessToken caller)
    {targetId : String} (missing : w.db.userById targetId = none) (input : RoleAssignmentInput) :
    FailsClosed S env draws w accessToken (.removeRole targetId input) ↔
      ¬ Admits S draws w caller (.removeRole targetId input) := by
  have stopped : ∀ e, (Admin.removeRole S env accessToken targetId input).run w = (.error e, w) →
      FailsClosed S env draws w accessToken (.removeRole targetId input) :=
    fun e thrown => ⟨e, w, Prog.run_bind_error thrown _, .refl w⟩
  by_cases allowed : Allowed w caller USERS_ASSIGN_ROLE
    (some ⟨input.scopeTenant, input.scopeDepartment⟩)
  · cases found : w.db.roleByName input.roleName with
    | none =>
        refine iff_of_true (stopped (.notFound "Role not found") ?_) (by simp [Admits, found])
        rw [Admin.removeRole, Prog.run_bind_ok (run_callerId valid), requireAssignScope,
          Prog.run_bind_ok (run_requireScope_allowed allowed), Prog.run_bind_ok (run_query _ w), found]
        rfl
    | some role =>
        have removed := run_removeRole_missing (S := S) valid missing found allowed
        have kept : ¬ Admits S draws w caller (.removeRole targetId input) ↔
            (S.machine.perform w.sessions (.revokeUser targetId)).state.store =
              w.sessions.state.store := by
          simp [Admits, allowed, found, missing]
        rw [kept]
        constructor
        · rintro ⟨e, w', thrown, unchanged⟩
          have both := (Prog.run_bind_error removed _).symm.trans thrown
          cases both
          exact unchanged.sessions
        · intro same
          refine ⟨_, _, Prog.run_bind_error removed _, ?_⟩
          exact
            { Unchanged.refl w with
              userRoles := userRoleDeleteMany_missing missing _ _ _
              sessions := same }
  · obtain ⟨e, refused⟩ := run_requireScope_refused allowed
    refine iff_of_true (stopped e ?_) fun admits => allowed admits.1
    rw [Admin.removeRole, Prog.run_bind_ok (run_callerId valid), requireAssignScope,
      Prog.run_bind_error refused]

/-- Whatever the status of the caller's account: an operation called with a valid token
throws and leaves everything unchanged exactly when it is not admitted. -/
theorem failsClosed_iff (valid : env.TokenOf w.now accessToken caller) (op : AdminOperation) :
    FailsClosed S env draws w accessToken op ↔ ¬ Admits S draws w caller op := by
  cases op with
  | listUsers => exact failsClosed_iff_of_decides (decides_listUsers valid).void
  | listRoles => exact failsClosed_iff_of_decides (decides_listRoles valid).void
  | grantAttributes targetId input =>
      exact failsClosed_iff_of_decides (decides_grantAttributes valid targetId input).void
  | assignRole targetId input =>
      exact failsClosed_iff_of_decides (decides_assignRole valid targetId input).void
  | removeRole targetId input =>
      cases user : w.db.userById targetId with
      | none => exact failsClosed_removeRole_missing valid user input
      | some x => exact failsClosed_iff_of_decides (decides_removeRole valid user input).void
  | listDepartments => exact failsClosed_iff_of_decides (decides_listDepartments valid).void
  | listCompartments => exact failsClosed_iff_of_decides (decides_listCompartments valid).void
  | createDepartment input =>
      exact failsClosed_iff_of_decides (decides_createDepartment valid input).void
  | createCompartment input =>
      exact failsClosed_iff_of_decides (decides_createCompartment valid input).void
  | setUserMemberships userId memberships =>
      exact failsClosed_iff_of_decides (decides_setUserMemberships valid userId memberships)
  | setUserCompartments userId keys =>
      exact failsClosed_iff_of_decides (decides_setUserCompartments valid userId keys)

end

/-- The account is disabled. -/
def Disabled (t : Tables) (userId : String) : Prop :=
  ∃ u ∈ t.users, u.id = userId ∧ u.status = .disabled

theorem dismissed_disabled : Disabled dismissed.toTables "super-admin@acme.test" := by
  refine ⟨{ staff "super-admin@acme.test" 6 with status := .disabled }, ?_, rfl, rfl⟩
  decide

/-- The dismissed administrator is refused outside the finance department. -/
theorem failsClosed_elsewhere : FailsClosed sampleStore sampleEnv sampleDraws
    (World.fresh .empty 0 dismissed) "super-admin@acme.test"
    (.grantAttributes "hr@acme.test" ⟨none, some "finance", none, none⟩) := by
  apply (failsClosed_iff (sampleEnv_tokenOf 0 _) _).mpr
  rintro ⟨x, found, allowed, -⟩
  cases found
  have refused : ¬ Allowed (World.fresh RedisSessions.empty 0 dismissed) "super-admin@acme.test"
      USERS_GRANT (some ⟨some "acme", some "hr"⟩) := by decide
  exact refused allowed

/-- The dismissed administrator still replaces the compartments of somebody. -/
theorem not_always_failsClosed :
    ¬ ∀ (σ : Type) (S : SessionStore σ) (env : Env) (draws : Draws) (w : World σ)
      (accessToken caller : String), Disabled w.db.toTables caller →
        env.TokenOf w.now accessToken caller → ∀ op, FailsClosed S env draws w accessToken op := by
  intro always
  have closed := always RedisSessions sampleStore sampleEnv sampleDraws
    (World.fresh .empty 0 dismissed) "super-admin@acme.test" "super-admin@acme.test"
    dismissed_disabled (sampleEnv_tokenOf 0 _) (.setUserCompartments "hr@acme.test" ["PII"])
  have admitted : Admits sampleStore sampleDraws (World.fresh .empty 0 dismissed)
      "super-admin@acme.test" (.setUserCompartments "hr@acme.test" ["PII"]) :=
    ⟨by decide, ⟨_, rfl⟩, by decide⟩
  refine (failsClosed_iff_of_decides ?_).mp closed admitted
  exact decides_setUserCompartments (sampleEnv_tokenOf 0 _) _ _

end Arac.Mediation
