/-
# Arac.Mediation.Interleaved -- checked before it is written, call by call

An operation checks a token and a permission with several calls, and writes with another.
Other operations move in between, so the tables that are written need not be those that were
checked.  What is left of mediation is said here: every write of every interleaving follows,
in its own request, the checks for it, each of which was met by the tables of some moment of
that request (`WroteAfter`).  A permission check is itself three queries, so its assignments,
its roles and the level may come from three moments (`Cleared`).

`interleaved_mediation` holds of any number of requests, whatever else changes the tables.
-/
import Arac.Mediation.Writes
import Arac.Org.Transactions
import Arac.Theory.Recall

namespace Arac.Mediation

open Arac.Theory Arac.Sessions Arac.Db Arac.Service Arac.Rbac Arac.Admin Arac.Org Arac.Auth

set_option autoImplicit false

section

variable {σ : Type}

/-- The token was valid at a moment that was met. -/
def TokenMet (env : Env) (past : List (World σ)) (accessToken caller : String) : Prop :=
  ∃ w ∈ past, env.TokenOf w.now accessToken caller

/-- The three queries of a permission check have met an assignment, roles and a level that
together give the permission. -/
def Cleared (past : List (World σ)) (caller permission : String) (target : Option Scope) : Prop :=
  ∃ w₁ ∈ past, ∃ w₂ ∈ past, ∃ w₃ ∈ past,
    (∃ a ∈ w₁.db.userRoles, a.userId = caller ∧ Carries w₂.db.toTables a.roleId permission ∧
      (scopeOf a).Covers target) ∧
    ∃ u ∈ w₃.db.users, u.id = caller ∧
      ∀ minLevel, Floor w₂.db.toTables permission minLevel → minLevel ≤ u.level

theorem TokenMet.mono {env : Env} {past past' : List (World σ)} {accessToken caller : String}
    (more : past ⊆ past') (met : TokenMet env past accessToken caller) :
    TokenMet env past' accessToken caller := by
  obtain ⟨w, member, valid⟩ := met
  exact ⟨w, more member, valid⟩

theorem Cleared.mono {past past' : List (World σ)} {caller permission : String}
    {target : Option Scope} (more : past ⊆ past') (cleared : Cleared past caller permission target) :
    Cleared past' caller permission target := by
  obtain ⟨w₁, met₁, w₂, met₂, w₃, met₃, granted⟩ := cleared
  exact ⟨w₁, more met₁, w₂, more met₂, w₃, more met₃, granted⟩

/-- Met at one moment, it is the permission. -/
theorem Cleared.holds {w : World σ} {past : List (World σ)} {caller permission : String}
    {target : Option Scope} (still : ∀ v ∈ past, v.db = w.db)
    (cleared : Cleared past caller permission target) :
    Holds w.db.toTables caller permission target := by
  obtain ⟨w₁, met₁, w₂, met₂, w₃, met₃, ⟨a, a_row, mine, carries, covers⟩, u, u_row, same, floor⟩ :=
    cleared
  rw [still w₁ met₁] at a_row
  rw [still w₂ met₂] at carries floor
  rw [still w₃ met₃] at u_row
  exact ⟨⟨u, u_row, same, floor⟩, a, a_row, mine, carries, covers⟩

/-- The write of an operation, and what its request has met before. -/
def WroteAfter (env : Env) (draws : Draws) (past : List (World σ)) (db db' : Database) :
    Operation → Prop
  | .signup email name password => ∃ w ∈ past,
      db.userCreate (selfSignupRow draws.id.value (IdentityProvider.normalizeEmail env email) (trim name)
        (env.argon2Hash password draws.salt) w.now) = .ok db'
  | .changePassword accessToken current new => ∃ caller row row',
      TokenMet env past accessToken caller ∧
      (∃ w ∈ past, w.db.activeUserById caller = some row) ∧
      (∃ w ∈ past, w.db.activeUserByEmail (IdentityProvider.normalizeEmail env row.email) = some row') ∧
      env.argon2Verify row'.passwordHash current = true ∧
      db.userUpdate caller { passwordHash := some (env.argon2Hash new draws.salt) } = .ok db'
  | .reset token new => ∃ userId, (∃ w ∈ past, w.resets.get (env.sha256 token) = some userId) ∧
      db.userUpdate userId { passwordHash := some (env.argon2Hash new draws.salt) } = .ok db'
  | .grantAttributes accessToken targetId input => ∃ caller x, TokenMet env past accessToken caller ∧
      (∃ w ∈ past, x ∈ w.db.users) ∧ x.id = targetId ∧
      Cleared past caller USERS_GRANT (some (placeOf x)) ∧
      Cleared past caller USERS_GRANT (some (grantedPlace x input)) ∧
      db.userUpdate targetId (granted x input) = .ok db'
  | .assignRole accessToken targetId input => ∃ caller role, TokenMet env past accessToken caller ∧
      Cleared past caller USERS_ASSIGN_ROLE (some ⟨input.scopeTenant, input.scopeDepartment⟩) ∧
      (∃ w ∈ past, w.db.roleByName input.roleName = some role) ∧
      (∃ w ∈ past, w.db.findAssignment targetId role.id input.scopeTenant input.scopeDepartment = none) ∧
      db.userRoleCreate (assigned draws targetId role input) = .ok db'
  | .removeRole accessToken targetId input => ∃ caller role, TokenMet env past accessToken caller ∧
      Cleared past caller USERS_ASSIGN_ROLE (some ⟨input.scopeTenant, input.scopeDepartment⟩) ∧
      (∃ w ∈ past, w.db.roleByName input.roleName = some role) ∧
      db' = db.userRoleDeleteMany targetId role.id input.scopeTenant input.scopeDepartment
  | .createDepartment accessToken input => ∃ caller parentId, TokenMet env past accessToken caller ∧
      Cleared past caller ORG_MANAGE none ∧
      (∀ p ∈ parentId, ∃ w ∈ past, ∃ d ∈ w.db.departments, d.tenant = TENANT ∧ d.id = p ∧
        some d.slug = input.parentSlug) ∧
      db.departmentCreate draws.id TENANT (trim input.slug) (trim input.name) parentId = .ok db'
  | .createCompartment accessToken input => ∃ caller, TokenMet env past accessToken caller ∧
      Cleared past caller ORG_MANAGE none ∧
      db.compartmentCreate draws.id TENANT (trim input.key) (trim input.name) = .ok db'
  | .setUserMemberships accessToken userId memberships => ∃ caller rows,
      TokenMet env past accessToken caller ∧ Cleared past caller ORG_MANAGE none ∧
      (∃ w ∈ past, rowsOf memberships
        (w.db.departmentsIn TENANT (memberships.map MembershipInput.slug)) = .ok rows) ∧
      db.setUserDepartments userId rows = .ok db'
  | .setUserCompartments accessToken userId keys => ∃ caller ids,
      TokenMet env past accessToken caller ∧ Cleared past caller ORG_MANAGE none ∧
      (∃ w ∈ past, idsOf keys (w.db.compartmentsIn TENANT keys) = .ok ids) ∧
      db.setUserCompartments userId ids = .ok db'
  | .login _ _ => False
  | .refresh _ => False
  | .logout _ => False
  | .logoutAll _ => False
  | .requestReset _ => False

theorem WroteAfter.change {env : Env} {draws : Draws} {past : List (World σ)} {db db' : Database}
    {op : Operation} (wrote : WroteAfter env draws past db db' op) :
    Change (fun x => ∃ w ∈ past, x ∈ w.db.users) op db db' := by
  cases op with
  | signup email name password =>
      obtain ⟨w, -, ok⟩ := wrote
      exact .account _ _ _ _ _ ok
  | changePassword accessToken current new =>
      obtain ⟨caller, row, row', -, -, -, -, ok⟩ := wrote
      exact .password _ _ ok
  | reset token new =>
      obtain ⟨userId, -, ok⟩ := wrote
      exact .password _ _ ok
  | grantAttributes accessToken targetId input =>
      obtain ⟨caller, x, -, found, rfl, -, -, ok⟩ := wrote
      exact .attributes found rfl ok
  | assignRole accessToken targetId input =>
      obtain ⟨caller, role, -, -, -, -, ok⟩ := wrote
      exact .assignment _ ok
  | removeRole accessToken targetId input =>
      obtain ⟨caller, role, -, -, -, done⟩ := wrote
      exact .removal _ _ _ _ done
  | createDepartment accessToken input =>
      obtain ⟨caller, parentId, -, -, -, ok⟩ := wrote
      exact .department _ _ rfl ok
  | createCompartment accessToken input =>
      obtain ⟨caller, -, -, ok⟩ := wrote
      exact .compartment _ _ _ ok
  | setUserMemberships accessToken userId memberships =>
      obtain ⟨caller, rows, -, -, -, ok⟩ := wrote
      exact .memberships _ _ ok
  | setUserCompartments accessToken userId keys =>
      obtain ⟨caller, ids, -, -, -, ok⟩ := wrote
      exact .compartments _ _ ok
  | _ => exact wrote.elim

/-- The token that an operation presents, and the permission that it asks for. -/
def Operation.guard : Operation → Option (String × String)
  | .grantAttributes accessToken _ _ => some (accessToken, USERS_GRANT)
  | .assignRole accessToken _ _ => some (accessToken, USERS_ASSIGN_ROLE)
  | .removeRole accessToken _ _ => some (accessToken, USERS_ASSIGN_ROLE)
  | .createDepartment accessToken _ => some (accessToken, ORG_MANAGE)
  | .createCompartment accessToken _ => some (accessToken, ORG_MANAGE)
  | .setUserMemberships accessToken _ _ => some (accessToken, ORG_MANAGE)
  | .setUserCompartments accessToken _ _ => some (accessToken, ORG_MANAGE)
  | _ => none

theorem WroteAfter.cleared {env : Env} {draws : Draws} {past : List (World σ)} {db db' : Database}
    {op : Operation} (wrote : WroteAfter env draws past db db' op) {accessToken permission : String}
    (guarded : op.guard = some (accessToken, permission)) :
    ∃ caller target, TokenMet env past accessToken caller ∧ Cleared past caller permission target := by
  cases op with
  | grantAttributes _ _ _ =>
      cases guarded
      obtain ⟨caller, x, valid, -, -, cleared, -⟩ := wrote
      exact ⟨caller, _, valid, cleared⟩
  | assignRole _ _ _ =>
      cases guarded
      obtain ⟨caller, role, valid, cleared, -⟩ := wrote
      exact ⟨caller, _, valid, cleared⟩
  | removeRole _ _ _ =>
      cases guarded
      obtain ⟨caller, role, valid, cleared, -⟩ := wrote
      exact ⟨caller, _, valid, cleared⟩
  | createDepartment _ _ =>
      cases guarded
      obtain ⟨caller, parentId, valid, cleared, -⟩ := wrote
      exact ⟨caller, _, valid, cleared⟩
  | createCompartment _ _ =>
      cases guarded
      obtain ⟨caller, valid, cleared, -⟩ := wrote
      exact ⟨caller, _, valid, cleared⟩
  | setUserMemberships _ _ _ =>
      cases guarded
      obtain ⟨caller, rows, valid, cleared, -⟩ := wrote
      exact ⟨caller, _, valid, cleared⟩
  | setUserCompartments _ _ _ =>
      cases guarded
      obtain ⟨caller, ids, valid, cleared, -⟩ := wrote
      exact ⟨caller, _, valid, cleared⟩
  | _ => cases guarded

/-- No write makes a cycle of departments. -/
theorem Change.forest {known : Db.User → Prop} {op : Operation} {db db' : Database}
    (change : Change known op db db') (forest : Acyclic (db.DepartmentParent TENANT)) :
    Acyclic (db'.DepartmentParent TENANT) := by
  have unchanged : db'.departments = db.departments → Acyclic (db'.DepartmentParent TENANT) := by
    intro same
    apply forest.of_subrelation
    intro child parent link
    simpa only [Tables.DepartmentParent, same] using link
  cases change with
  | account _ _ _ _ _ ok => exact unchanged (by rw [(Database.userCreate_ok ok).1])
  | password _ _ ok => exact unchanged (by rw [Database.userUpdate_ok ok])
  | attributes _ _ ok => exact unchanged (by rw [Database.userUpdate_ok ok])
  | assignment _ ok => exact unchanged (by rw [Database.userRoleCreate_ok ok])
  | removal _ _ _ _ done => exact unchanged (by rw [done]; rfl)
  | department _ _ _ ok => exact (extends_of_departmentCreate ok).forest forest
  | compartment _ _ _ ok => exact unchanged (by rw [(Database.compartmentCreate_ok ok).1])
  | memberships _ _ ok => exact unchanged (by rw [Database.setUserDepartments_ok ok])
  | compartments _ _ ok => exact unchanged (by rw [Database.setUserCompartments_ok ok])

/-- A call changes no table, or is the write of the operation. -/
def WritesAfter (env : Env) (draws : Draws) (op : Operation) (past : List (World σ))
    (w w' : World σ) : Prop :=
  w'.db = w.db ∨ WroteAfter env draws past w.db w'.db op

end

/-! ## What the calls before a write have met -/

section

variable {σ α : Type} {S : SessionStore σ} {env : Env} {draws : Draws} {op : Operation}
  {past : List (World σ)} {accessToken caller permission : String} {target : Option Scope}

theorem recalls_retained {p : Service σ α} (retains : p.Guarantees Retained) :
    p.Recalls (WritesAfter env draws op) past fun _ _ => True :=
  .of_guarantees retains fun _ _ _ retained => Or.inl retained.db

theorem recalls_query (read : Tables → α) :
    (query read : Service σ α).Recalls (WritesAfter env draws op) past
      fun past' a => ∃ w ∈ past', a = read w.db.toTables :=
  .call (fun _ => Or.inl rfl) fun w => ⟨w, by simp, rfl⟩

theorem recalls_clock :
    (clock : Service σ Nat).Recalls (WritesAfter env draws op) past
      fun past' now => ∃ w ∈ past', now = w.now :=
  .call (fun _ => Or.inl rfl) fun w => ⟨w, by simp, rfl⟩

theorem recalls_authenticate :
    (authenticate env accessToken : Service σ VerifiedAccessToken).Recalls
      (WritesAfter env draws op) past
      fun past' verified => TokenMet env past' accessToken verified.sub := by
  refine .bind recalls_clock fun now past' _ met => ?_
  obtain ⟨w, member, rfl⟩ := met
  cases checked : env.verifyAccessToken w.now accessToken with
  | error e => exact .fail _
  | ok verified => exact .pure ⟨w, member, verified, checked, rfl⟩

/-- Each grant is by an assignment of one moment and the roles of another. -/
theorem recalls_effectiveGrants :
    (effectiveGrants caller : Service σ (List Grant)).Recalls (WritesAfter env draws op) past
      fun past' grants => ∃ w₁ ∈ past', ∃ w₂ ∈ past', ∀ g ∈ grants,
        ∃ a ∈ w₁.db.userRoles, a.userId = caller ∧ g.toScope = scopeOf a ∧
          Carries w₂.db.toTables a.roleId g.permission ∧
          Floor w₂.db.toTables g.permission g.minLevel := by
  refine .bind (recalls_query _) fun assignments past' _ met => ?_
  obtain ⟨w₁, met₁, rfl⟩ := met
  split
  · exact .pure ⟨w₁, met₁, w₁, met₁, fun g none_granted => (by cases none_granted)⟩
  · refine .bind (recalls_query _) fun roles past'' more met => ?_
    obtain ⟨w₂, met₂, rfl⟩ := met
    refine .ofExcept fun grants ok => ⟨w₁, more met₁, w₂, met₂, fun g member => ?_⟩
    obtain ⟨a, listed, scope, carries, floor⟩ := (mem_expandGrants ok g).mp member
    obtain ⟨a_row, mine⟩ := Tables.mem_assignmentsOf.mp listed
    exact ⟨a, a_row, mine, scope, carries, floor⟩

theorem recalls_can :
    (can caller permission target : Service σ Bool).Recalls (WritesAfter env draws op) past
      fun past' allowed => allowed = true → Cleared past' caller permission target := by
  refine .bind recalls_effectiveGrants fun grants past' _ met => ?_
  obtain ⟨w₁, met₁, w₂, met₂, each⟩ := met
  dsimp only
  split
  · exact .pure fun impossible => (by cases impossible)
  · rename_i required largest
    obtain ⟨g, member, rfl⟩ := List.mem_map.mp (List.max?_mem largest)
    obtain ⟨listed, matching⟩ := List.mem_filter.mp member
    simp only [Bool.and_eq_true, decide_eq_true_eq, covers_iff] at matching
    obtain ⟨rfl, covered⟩ := matching
    obtain ⟨a, a_row, mine, scope, carries, floor⟩ := each g listed
    refine .bind (recalls_query _) fun found past'' more met => ?_
    obtain ⟨w₃, met₃, rfl⟩ := met
    cases found : w₃.db.userById caller with
    | none => exact .pure fun impossible => (by cases impossible)
    | some u =>
        obtain ⟨u_row, same⟩ := Database.userById_eq_some.mp found
        refine .pure fun high => ⟨w₁, more met₁, w₂, more met₂, w₃, met₃, ?_, u, u_row, same, ?_⟩
        · exact ⟨a, a_row, mine, carries, scope ▸ covered⟩
        · intro minLevel floor'
          rw [floor'.unique floor]
          exact of_decide_eq_true high

theorem recalls_require :
    (require env accessToken permission : Service σ String).Recalls (WritesAfter env draws op) past
      fun past' caller => TokenMet env past' accessToken caller ∧ Cleared past' caller permission none := by
  refine .bind recalls_authenticate fun verified past' _ valid => ?_
  refine .bind recalls_can fun allowed past'' more cleared => ?_
  split
  · rename_i yes
    exact .pure ⟨valid.mono more, cleared yes⟩
  · exact .fail _

theorem recalls_callerId :
    (callerId env accessToken : Service σ String).Recalls (WritesAfter env draws op) past
      fun past' caller => TokenMet env past' accessToken caller :=
  .bind recalls_authenticate fun _ _ _ valid => .pure valid

theorem recalls_requireScope {scope : Scope} :
    (requireScope permission caller scope : Service σ Unit).Recalls (WritesAfter env draws op) past
      fun past' _ => Cleared past' caller permission (some scope) := by
  refine .bind recalls_can fun allowed past' _ cleared => ?_
  split
  · rename_i yes
    exact .pure (cleared yes)
  · exact .fail _

/-! ## Writes -/

theorem recalls_writeSelect {update : Database → Except PrismaError Database} (select : Tables → α)
    (justified : ∀ db db', update db = .ok db' → WroteAfter env draws past db db' op) :
    (writeSelect update select : Service σ (Except PrismaError α)).Recalls
      (WritesAfter env draws op) past fun _ _ => True := by
  refine .call (fun w => ?_) fun _ => trivial
  cases written : update w.db with
  | ok db => exact Or.inr (justified _ _ written)
  | error e => exact Or.inl rfl

theorem recalls_commit {update : Database → Except PrismaError Database}
    (justified : ∀ db db', update db = .ok db' → WroteAfter env draws past db db' op) :
    (commit update : Service σ Unit).Recalls (WritesAfter env draws op) past fun _ _ => True := by
  refine .bind (recalls_writeSelect _ justified) fun result _ _ _ => ?_
  cases result with
  | ok _ => exact .pure trivial
  | error e => exact .fail _

theorem recalls_void {p : Service σ α} {post : List (World σ) → α → Prop}
    (recalls : p.Recalls (WritesAfter env draws op) past post) :
    p.void.Recalls (WritesAfter env draws op) past fun _ _ => True :=
  .bind recalls fun _ _ _ _ => .pure trivial

theorem retained_revokeUser (userId : String) : (revokeUser S userId).Guarantees Retained :=
  .call fun _ => ⟨rfl, rfl⟩

/-- What comes after a write about a user. -/
theorem recalls_revokeAndView (targetId : String) :
    (do
      revokeUser S targetId
      view targetId).Recalls (WritesAfter env draws op) past fun _ _ => True :=
  recalls_retained (.bind (retained_revokeUser targetId) fun _ => retained_of_quiet (quiet_view targetId))

/-! ## The operations -/

theorem recalls_signup (email name password : String) :
    (AuthService.signup S env draws email name password).Recalls
      (WritesAfter env draws (.signup email name password)) [] fun _ _ => True := by
  refine .bind (K := fun _ _ => True) ?_ fun user _ _ _ => ?_
  · refine .bind recalls_clock fun now past' _ met => ?_
    obtain ⟨w, member, rfl⟩ := met
    refine .bind (recalls_writeSelect _ fun db db' ok => ⟨w, member, ok⟩) fun result _ _ _ => ?_
    cases result with
    | ok _ => exact .pure trivial
    | error e =>
        dsimp only
        split
        · exact .pure trivial
        · exact .fail _
  · cases user with
    | none => exact .fail _
    | some user => exact recalls_retained (retained_issueFor user)

theorem recalls_changePassword (current new : String) :
    (AuthService.changePassword S env draws accessToken current new).Recalls
      (WritesAfter env draws (.changePassword accessToken current new)) [] fun _ _ => True := by
  refine .bind recalls_authenticate fun verified past₁ _ valid => ?_
  refine .bind (K := fun past' user => ∃ w ∈ past',
    user = (w.db.activeUserById verified.sub).map toUser) ?_ fun user past₂ more₂ met => ?_
  · refine .bind (recalls_query _) fun row _ _ met => ?_
    obtain ⟨w, member, rfl⟩ := met
    exact .pure ⟨w, member, rfl⟩
  obtain ⟨w, member, rfl⟩ := met
  cases found : w.db.activeUserById verified.sub with
  | none => exact .fail _
  | some row =>
      refine .bind (K := fun past' matched => ∀ user, matched = some user → ∃ w ∈ past', ∃ row',
        w.db.activeUserByEmail (IdentityProvider.normalizeEmail env row.email) = some row' ∧
          env.argon2Verify row'.passwordHash current = true) ?_ fun matched past₃ more₃ met => ?_
      · refine .bind (recalls_query _) fun row' _ _ met => ?_
        obtain ⟨w', member', rfl⟩ := met
        refine .pure fun user same => ?_
        split at same
        · rename_i verifies
          obtain ⟨row', there, -⟩ := Option.map_eq_some_iff.mp same
          refine ⟨w', member', row', there, ?_⟩
          simpa [there] using verifies
        · cases same
      · cases matched with
        | none => exact .fail _
        | some user =>
            obtain ⟨w', member', row', there, verifies⟩ := met user rfl
            have same : (toUser row).id = verified.sub := by
              have fits := List.find?_some found
              simp only [decide_eq_true_eq] at fits
              exact fits.1
            refine .bind (recalls_commit fun db db' ok => ?_) fun _ _ _ _ => ?_
            · exact ⟨verified.sub, row, row',
                valid.mono (List.Subset.trans more₂ more₃),
                ⟨w, more₃ member, found⟩, ⟨w', member', there⟩, verifies, same ▸ ok⟩
            · exact recalls_retained
                (.bind (retained_revokeUser _) fun _ => retained_issueFor (toUser row))

theorem recalls_reset (token new : String) :
    (PasswordResetService.reset S env draws token new).Recalls
      (WritesAfter env draws (.reset token new)) [] fun _ _ => True := by
  refine .bind (K := fun past' taken => ∃ w ∈ past', taken = w.resets.get (env.sha256 token))
    (.call (fun _ => Or.inl rfl) fun w => ⟨w, by simp, rfl⟩) fun taken past' _ met => ?_
  obtain ⟨w, member, rfl⟩ := met
  split
  · exact .pure trivial
  · rename_i userId taken
    have there : w.resets.get (env.sha256 token) = some userId := (Option.filter_eq_some_iff.mp taken).1
    refine .bind (recalls_commit fun db db' ok => ⟨userId, ⟨w, member, there⟩, ok⟩) fun _ _ _ _ => ?_
    exact .bind (recalls_retained (retained_revokeUser userId)) fun _ _ _ _ => .pure trivial

theorem recalls_grantAttributes (targetId : String) (input : GrantInput) :
    (Admin.grantAttributes S env accessToken targetId input).Recalls
      (WritesAfter env draws (.grantAttributes accessToken targetId input)) [] fun _ _ => True := by
  refine .bind recalls_callerId fun caller past₁ _ valid => ?_
  refine .bind (recalls_query _) fun found past₂ more₂ met => ?_
  obtain ⟨w, member, rfl⟩ := met
  cases found : w.db.userById targetId with
  | none => exact .fail _
  | some x =>
      obtain ⟨x_row, same⟩ := Database.userById_eq_some.mp found
      refine .bind recalls_requireScope fun _ past₃ more₃ present => ?_
      refine .bind recalls_requireScope fun _ past₄ more₄ next => ?_
      refine .bind (recalls_commit fun db db' ok => ?_) fun _ _ _ _ => recalls_revokeAndView targetId
      exact ⟨caller, x, valid.mono (List.Subset.trans more₂ (List.Subset.trans more₃ more₄)),
        ⟨w, more₄ (more₃ member), x_row⟩, same, present.mono more₄, next, ok⟩

theorem recalls_assignRole (targetId : String) (input : RoleAssignmentInput) :
    (Admin.assignRole S env draws accessToken targetId input).Recalls
      (WritesAfter env draws (.assignRole accessToken targetId input)) [] fun _ _ => True := by
  refine .bind recalls_callerId fun caller past₁ _ valid => ?_
  refine .bind recalls_requireScope fun _ past₂ more₂ cleared => ?_
  refine .bind (recalls_query _) fun target past₃ more₃ _ => ?_
  cases target with
  | none => exact .fail _
  | some _ =>
      refine .bind (recalls_query _) fun named past₄ more₄ met => ?_
      obtain ⟨w, member, rfl⟩ := met
      cases named : w.db.roleByName input.roleName with
      | none => exact .fail _
      | some role =>
          refine .bind (recalls_query _) fun existing past₅ more₅ met => ?_
          obtain ⟨w', member', rfl⟩ := met
          have more : past₂ ⊆ past₅ := List.Subset.trans more₃ (List.Subset.trans more₄ more₅)
          dsimp only
          split
          · rename_i absent
            refine .bind (recalls_commit fun db db' ok => ?_) fun _ _ _ _ =>
              recalls_revokeAndView targetId
            exact ⟨caller, role, valid.mono (List.Subset.trans more₂ more), cleared.mono more,
              ⟨w, more₅ member, named⟩, ⟨w', member', absent⟩, ok⟩
          · exact recalls_revokeAndView targetId

theorem recalls_removeRole (targetId : String) (input : RoleAssignmentInput) :
    (Admin.removeRole S env accessToken targetId input).Recalls
      (WritesAfter env draws (.removeRole accessToken targetId input)) [] fun _ _ => True := by
  refine .bind recalls_callerId fun caller past₁ _ valid => ?_
  refine .bind recalls_requireScope fun _ past₂ more₂ cleared => ?_
  refine .bind (recalls_query _) fun named past₃ more₃ met => ?_
  obtain ⟨w, member, rfl⟩ := met
  cases named : w.db.roleByName input.roleName with
  | none => exact .fail _
  | some role =>
      refine .bind (recalls_commit fun db db' ok => ?_) fun _ _ _ _ => recalls_revokeAndView targetId
      exact ⟨caller, role, valid.mono (List.Subset.trans more₂ more₃), cleared.mono more₃,
        ⟨w, member, named⟩, (Except.ok.inj ok).symm⟩

theorem recalls_createDepartment (input : CreateDepartmentInput) :
    (Org.createDepartment env draws accessToken input : Service σ DepartmentView).Recalls
      (WritesAfter env draws (.createDepartment accessToken input)) [] fun _ _ => True := by
  refine .bind recalls_require fun caller past₁ _ passed => ?_
  refine .bind (K := fun past' parentId => ∀ p ∈ parentId, ∃ w ∈ past', ∃ d ∈ w.db.departments,
    d.tenant = TENANT ∧ d.id = p ∧ some d.slug = input.parentSlug) ?_ fun parentId past₂ more₂ known => ?_
  · unfold resolveParent
    split
    · exact .pure fun p impossible => (by cases impossible)
    · rename_i parentSlug given
      refine .bind (recalls_query _) fun parent past' _ met => ?_
      obtain ⟨w, member, rfl⟩ := met
      cases found : w.db.departmentBySlug TENANT parentSlug with
      | none => exact .fail _
      | some d =>
          refine .pure fun p same => ?_
          obtain rfl := Option.some.inj same
          have d_row := List.mem_of_find?_eq_some found
          have fits := List.find?_some found
          simp only [decide_eq_true_eq] at fits
          refine ⟨w, member, d, d_row, fits.1, rfl, ?_⟩
          rw [fits.2]
          exact ((Option.filter_eq_some_iff.mp given).1).symm
  · refine .bind (recalls_writeSelect _ fun db db' ok => ?_) fun result _ _ _ => ?_
    · exact ⟨caller, parentId, passed.1.mono more₂, passed.2.mono more₂, known, ok⟩
    · cases result with
      | ok _ => exact .pure trivial
      | error e =>
          dsimp only
          split
          · exact .fail _
          · exact .fail _

theorem recalls_createCompartment (input : CreateCompartmentInput) :
    (Org.createCompartment env draws accessToken input : Service σ CompartmentView).Recalls
      (WritesAfter env draws (.createCompartment accessToken input)) [] fun _ _ => True := by
  refine .bind recalls_require fun caller past₁ _ passed => ?_
  refine .bind (recalls_writeSelect _ fun db db' ok => ⟨caller, passed.1, passed.2, ok⟩)
    fun result _ _ _ => ?_
  cases result with
  | ok _ => exact .pure trivial
  | error e =>
      dsimp only
      split
      · exact .fail _
      · exact .fail _

/-- The reads of a replacement. -/
theorem recalls_readRows {β : Type} {userId : String} {find : Tables → β}
    {rows : β → Except ServiceError (List α)} :
    (readRows env accessToken userId find rows).Recalls (WritesAfter env draws op) past
      fun past' created => ∃ caller, TokenMet env past' accessToken caller ∧
        Cleared past' caller ORG_MANAGE none ∧ ∃ w ∈ past', rows (find w.db.toTables) = .ok created := by
  refine .bind recalls_require fun caller past₁ _ passed => ?_
  refine .bind (recalls_query _) fun user past₂ more₂ _ => ?_
  cases user with
  | none => exact .fail _
  | some _ =>
      refine .bind (recalls_query _) fun found past₃ more₃ met => ?_
      obtain ⟨w, member, rfl⟩ := met
      have more := List.Subset.trans more₂ more₃
      exact .ofExcept fun created ok => ⟨caller, passed.1.mono more, passed.2.mono more, w, member, ok⟩

theorem recalls_setUserMemberships (userId : String) (memberships : List MembershipInput) :
    (Org.setUserMemberships S env accessToken userId memberships).Recalls
      (WritesAfter env draws (.setUserMemberships accessToken userId memberships)) []
      fun _ _ => True := by
  rw [setUserMemberships_eq]
  refine .bind recalls_readRows fun rows past' _ met => ?_
  obtain ⟨caller, valid, cleared, found⟩ := met
  exact .bind (recalls_commit fun db db' ok => ⟨caller, rows, valid, cleared, found, ok⟩)
    fun _ _ _ _ => recalls_retained (retained_revokeUser userId)

theorem recalls_setUserCompartments (userId : String) (keys : List String) :
    (Org.setUserCompartments S env accessToken userId keys).Recalls
      (WritesAfter env draws (.setUserCompartments accessToken userId keys)) []
      fun _ _ => True := by
  rw [setUserCompartments_eq]
  refine .bind recalls_readRows fun ids past' _ met => ?_
  obtain ⟨caller, valid, cleared, found⟩ := met
  exact .bind (recalls_commit fun db db' ok => ⟨caller, ids, valid, cleared, found, ok⟩)
    fun _ _ _ _ => recalls_retained (retained_revokeUser userId)

/-- Every operation checks before it writes. -/
theorem operation_recalls (op : Operation) :
    (op.service S env draws).Recalls (WritesAfter env draws op) [] fun _ _ => True := by
  cases op with
  | signup email name password => exact recalls_void (recalls_signup email name password)
  | login email password => exact recalls_void (recalls_retained (retained_login email password))
  | refresh presented => exact recalls_void (recalls_retained (retained_refresh presented))
  | logout presented => exact .call (fun _ => Or.inl rfl) fun _ => trivial
  | logoutAll accessToken => exact recalls_retained (retained_logoutAll accessToken)
  | changePassword accessToken current new => exact recalls_void (recalls_changePassword current new)
  | requestReset email => exact .of_guarantees (requestReset_db env draws email) fun _ _ _ same => Or.inl same
  | reset token new => exact recalls_void (recalls_reset token new)
  | grantAttributes accessToken targetId input => exact recalls_void (recalls_grantAttributes targetId input)
  | assignRole accessToken targetId input => exact recalls_void (recalls_assignRole targetId input)
  | removeRole accessToken targetId input => exact recalls_void (recalls_removeRole targetId input)
  | createDepartment accessToken input => exact recalls_void (recalls_createDepartment input)
  | createCompartment accessToken input => exact recalls_void (recalls_createCompartment input)
  | setUserMemberships accessToken userId memberships =>
      exact recalls_setUserMemberships userId memberships
  | setUserCompartments accessToken userId keys => exact recalls_setUserCompartments userId keys

end

/-! ## Any number of requests -/

section

variable {σ ι : Type} [DecidableEq ι] {S : SessionStore σ} {env : Env} {draws : ι → Draws}
  {ops : ι → Operation} {rely : World σ → World σ → Prop} {ready : ι → World σ → Prop}
  {w₀ : World σ} {P : Pool ι (World σ) ServiceError Unit}

/-- Whatever requests run at the same time, and whatever else changes the state between their
calls: a call of a request changes no table, or is the write of its operation, after calls of
the same request that met a valid token and the permission for it. -/
theorem interleaved_mediation
    (run : Pool.Run rely ready (.start (fun i => (ops i).service S env (draws i)) w₀) P)
    {later earlier : List (Made ι (World σ))} {e : Made ι (World σ)}
    (made : P.trace = later ++ e :: earlier) :
    e.left.db = e.met.db ∨
      WroteAfter env (draws e.who) (Pool.metBy earlier e.who) e.met.db e.left.db (ops e.who) :=
  run.recalls (W := fun i => WritesAfter env (draws i) (ops i))
    (fun i => operation_recalls (ops i)) made

end

/-! ## A check that is out of date -/

/-- An administrator of the finance department changes a clearance, and is removed from that
role at the same time. -/
def lateGrant : Bool → Operation
  | false => .grantAttributes "super-admin@acme.test" "dept-admin@acme.test" ⟨none, none, some 5, none⟩
  | true => .removeRole "admin@acme.test" "super-admin@acme.test"
      ⟨"super-admin", some "acme", some "finance"⟩

/-- The removal comes between the checks of the grant and its write. -/
def grantingLate : Pool Bool (World InMemorySessions) ServiceError Unit :=
  Pool.play Always (.start (fun i => (lateGrant i).service (inMemorySessionStore sampleSha256 .default)
    sampleEnv sampleDraws) (World.fresh .empty 0 staffed))
    (List.replicate 8 false ++ List.replicate 20 true ++ List.replicate 20 false)

theorem interleaved_mediation_lateGrant : ∃ later earlier e,
    grantingLate.trace = later ++ e :: earlier ∧
      e.left.db.users ≠ e.met.db.users ∧ e.met.db.assignmentsOf "super-admin@acme.test" = [] ∧
      WroteAfter sampleEnv sampleDraws (Pool.metBy earlier e.who) e.met.db e.left.db
        (lateGrant e.who) := by
  have some_write : (grantingLate.trace.find? fun e => decide (e.left.db.users ≠ e.met.db.users ∧
      e.met.db.assignmentsOf "super-admin@acme.test" = [])).isSome = true := by decide +kernel
  obtain ⟨e, found⟩ := Option.isSome_iff_exists.mp some_write
  have fits := List.find?_some found
  obtain ⟨changed, removed⟩ := of_decide_eq_true fits
  obtain ⟨later, earlier, made⟩ := List.append_of_mem (List.mem_of_find?_eq_some found)
  refine ⟨later, earlier, e, made, changed, removed, ?_⟩
  have run : Pool.Run (TimePasses (inMemorySessionStore sampleSha256 .default)) Always _ grantingLate :=
    Pool.run_play _ _
  rcases interleaved_mediation run made with same | wrote
  · exact absurd (congrArg (fun db : Database => db.users) same) changed
  · exact wrote

end Arac.Mediation
