/-
# Arac.Mediation.Tenancy -- the tenant of the claims

The tenant of a user is a column that `grantAttributes` sets to anything; `OrgService`
knows one tenant, `TENANT`, and looks slugs and keys up there whoever the user is.
So the slugs and keys of a token name rows of `TENANT`, or of the tenant in which the
user had them at the start (`claims_of_org_tenant`).  They name rows of the tenant that
the token itself claims as long as nothing moves the user away from the tenant of the
rows, or gives rows of `TENANT` to a user of another tenant.
-/
import Arac.Mediation.Claims
import Arac.Org.Replacement

namespace Arac.Mediation

open Arac.Theory Arac.Sessions Arac.Db Arac.Service Arac.Rbac Arac.Admin Arac.Org Arac.Auth

set_option autoImplicit false

/-- The user's memberships and compartments belong to such tenants. -/
structure RowsWithin (t : Tables) (userId : String) (tenants : String → Prop) : Prop where
  memberships : ∀ m ∈ t.membershipsOf userId, tenants m.department.tenant
  compartments : ∀ c ∈ t.compartmentsOf userId, tenants c.tenant

/-- They belong to the user's own tenant. -/
def OwnTenant (t : Tables) (u : Db.User) : Prop := RowsWithin t u.id (· = u.tenant)

instance (t : Tables) (u : Db.User) : Decidable (OwnTenant t u) :=
  decidable_of_iff ((∀ m ∈ t.membershipsOf u.id, m.department.tenant = u.tenant) ∧
      ∀ c ∈ t.compartmentsOf u.id, c.tenant = u.tenant)
    ⟨fun ⟨memberships, compartments⟩ => ⟨memberships, compartments⟩,
      fun own => ⟨own.memberships, own.compartments⟩⟩

/-- Every slug and key of the identity names a row of such a tenant. -/
structure ClaimsWithin (t : Tables) (identity : AbacIdentity) (tenants : String → Prop) : Prop where
  departments : ∀ slug ∈ identity.departments, ∃ d ∈ t.departments, d.slug = slug ∧ tenants d.tenant
  compartments : ∀ key ∈ identity.compartments, ∃ c ∈ t.compartments, c.key = key ∧ tenants c.tenant

/-- No department of the org tenant is placed below a department of another one. -/
def NoForeignParent (t : Tables) : Prop :=
  ∀ child ∈ t.departments, child.tenant = TENANT → ∀ parent ∈ t.departments,
    child.parentId = some parent.id → parent.tenant = TENANT

instance (t : Tables) : Decidable (NoForeignParent t) := by
  unfold NoForeignParent
  infer_instance

/-- The operation leaves the user in the tenant of the rows it leaves the user with: it
moves the user to another tenant only where the user has no rows, and gives rows only
to a user of the org tenant. -/
def KeepsTenancy {σ : Type} (w : World σ) (userId : String) : Operation → Prop
  | .grantAttributes _ targetId input => targetId = userId →
      (∀ u ∈ w.db.users, u.id = userId → input.tenant.getD u.tenant = u.tenant) ∨
        (w.db.membershipsOf userId = [] ∧ w.db.compartmentsOf userId = [])
  | .setUserMemberships _ targetId memberships => targetId = userId →
      memberships = [] ∨ ∀ u ∈ w.db.users, u.id = userId → u.tenant = TENANT
  | .setUserCompartments _ targetId keys => targetId = userId →
      keys = [] ∨ ∀ u ∈ w.db.users, u.id = userId → u.tenant = TENANT
  | _ => True

/-! ## What an operation does to rows and tenants -/

theorem membershipsOf_congr {t t' : Tables} (rows : t'.userDepartments = t.userDepartments)
    (departments : t'.departments = t.departments) (userId : String) :
    t'.membershipsOf userId = t.membershipsOf userId := by
  simp only [Tables.membershipsOf, Tables.departmentById, rows, departments]

theorem compartmentsOf_congr {t t' : Tables} (rows : t'.userCompartments = t.userCompartments)
    (compartments : t'.compartments = t.compartments) (userId : String) :
    t'.compartmentsOf userId = t.compartmentsOf userId := by
  simp only [Tables.compartmentsOf, Tables.compartmentById, rows, compartments]

section

variable {σ : Type} {S : SessionStore σ} {env : Env} {draws : Draws} {w w' : World σ}
  {result : Except ServiceError Unit} {op : Operation}

/-- Memberships change in one way: to departments of the org tenant. -/
theorem memberships_after (run : (op.service S env draws).run w = (result, w')) (userId : String) :
    w'.db.membershipsOf userId = w.db.membershipsOf userId ∨
      ∃ accessToken memberships, op = .setUserMemberships accessToken userId memberships ∧
        result = .ok () ∧ w'.db.users = w.db.users ∧
        ∀ m ∈ w'.db.membershipsOf userId, memberships ≠ [] ∧ m.department.tenant = TENANT := by
  cases op with
  | createDepartment accessToken input =>
      obtain ⟨answer, run, -⟩ := Prog.run_void run
      rcases createDepartment_cases run with ⟨e, -, rfl⟩ | ⟨_, _, db, _, _, _, _, ok, _, rfl⟩
      · exact Or.inl rfl
      · exact Or.inl (extends_of_departmentCreate ok).membershipsOf
  | grantAttributes accessToken targetId input =>
      obtain ⟨answer, run, -⟩ := Prog.run_void run
      rcases grantAttributes_cases run with ⟨e, -, rfl⟩ | ⟨_, _, db, _, _, _, _, _, _, ok, _, rfl⟩
      · exact Or.inl rfl
      · exact Or.inl (membershipsOf_congr (by rw [Database.userUpdate_ok ok]) (by rw [Database.userUpdate_ok ok]) userId)
  | setUserMemberships accessToken targetId memberships =>
      by_cases target : targetId = userId
      · subst target
        simp only [Operation.service, setUserMemberships_eq] at run
        rcases replacement_cases quiet_readRows run with ⟨e, -, rfl⟩ | ⟨rows, db, read, ok, rfl, rfl⟩
        · exact Or.inl rfl
        · obtain ⟨-, looked⟩ := run_readRows_ok (congrArg Prod.fst read)
          obtain ⟨described, -⟩ := stored_memberships looked ok
          refine Or.inr ⟨accessToken, memberships, rfl, rfl, by rw [Database.setUserDepartments_ok ok], ?_⟩
          intro m listed
          obtain ⟨d_row, member⟩ := Database.mem_membershipsOf.mp listed
          obtain ⟨-, x, x_listed, -, d, row, tenant, -, same⟩ := described _ member rfl
          refine ⟨List.ne_nil_of_mem x_listed, ?_⟩
          rw [Database.department_eq d_row row same.symm]
          exact tenant
      · exact Or.inl ((operation_frame run (by simp)).memberships userId target)
  | setUserCompartments accessToken targetId keys =>
      simp only [Operation.service, setUserCompartments_eq] at run
      rcases replacement_cases quiet_readRows run with ⟨e, -, rfl⟩ | ⟨ids, db, -, ok, -, rfl⟩
      · exact Or.inl rfl
      · exact Or.inl (membershipsOf_congr (by rw [Database.setUserCompartments_ok ok]) (by rw [Database.setUserCompartments_ok ok]) userId)
  | _ => exact Or.inl ((operation_frame run (by simp)).memberships userId not_false)

theorem compartments_after (run : (op.service S env draws).run w = (result, w')) (userId : String) :
    w'.db.compartmentsOf userId = w.db.compartmentsOf userId ∨
      ∃ accessToken keys, op = .setUserCompartments accessToken userId keys ∧
        result = .ok () ∧ w'.db.users = w.db.users ∧ ∀ c ∈ w'.db.compartmentsOf userId, keys ≠ [] ∧ c.tenant = TENANT := by
  cases op with
  | createDepartment accessToken input =>
      obtain ⟨answer, run, -⟩ := Prog.run_void run
      rcases createDepartment_cases run with ⟨e, -, rfl⟩ | ⟨_, _, db, _, _, _, _, ok, _, rfl⟩
      · exact Or.inl rfl
      · exact Or.inl (compartmentsOf_congr (by rw [(Database.departmentCreate_ok ok).1]) (by rw [(Database.departmentCreate_ok ok).1]) userId)
  | grantAttributes accessToken targetId input =>
      obtain ⟨answer, run, -⟩ := Prog.run_void run
      rcases grantAttributes_cases run with ⟨e, -, rfl⟩ | ⟨_, _, db, _, _, _, _, _, _, ok, _, rfl⟩
      · exact Or.inl rfl
      · exact Or.inl (compartmentsOf_congr (by rw [Database.userUpdate_ok ok]) (by rw [Database.userUpdate_ok ok]) userId)
  | setUserCompartments accessToken targetId keys =>
      by_cases target : targetId = userId
      · subst target
        simp only [Operation.service, setUserCompartments_eq] at run
        rcases replacement_cases quiet_readRows run with ⟨e, -, rfl⟩ | ⟨ids, db, read, ok, rfl, rfl⟩
        · exact Or.inl rfl
        · obtain ⟨-, looked⟩ := run_readRows_ok (congrArg Prod.fst read)
          obtain ⟨described, -⟩ := stored_compartments looked ok
          refine Or.inr ⟨accessToken, keys, rfl, rfl, by rw [Database.setUserCompartments_ok ok], ?_⟩
          intro c listed
          obtain ⟨c_row, member⟩ := Database.mem_compartmentsOf.mp listed
          obtain ⟨-, other, row, tenant, key_listed, same⟩ := described _ member rfl
          refine ⟨List.ne_nil_of_mem key_listed, ?_⟩
          rw [List.inj_on_of_nodup_map db.valid.compartment_id c_row row same.symm]
          exact tenant
      · exact Or.inl ((operation_frame run (by simp)).compartments userId target)
  | setUserMemberships accessToken targetId memberships =>
      simp only [Operation.service, setUserMemberships_eq] at run
      rcases replacement_cases quiet_readRows run with ⟨e, -, rfl⟩ | ⟨rows, db, -, ok, -, rfl⟩
      · exact Or.inl rfl
      · exact Or.inl (compartmentsOf_congr (by rw [Database.setUserDepartments_ok ok]) (by rw [Database.setUserDepartments_ok ok]) userId)
  | _ => exact Or.inl ((operation_frame run (by simp)).compartments userId not_false)

/-- A user's tenant changes through a grant only. -/
theorem tenant_after (run : (op.service S env draws).run w = (result, w')) {u u' : Db.User}
    (u_row : u ∈ w.db.users) (u'_row : u' ∈ w'.db.users) (same : u'.id = u.id) :
    u'.tenant = u.tenant ∨ ∃ accessToken input, op = .grantAttributes accessToken u.id input ∧
      result = .ok () ∧ u'.tenant = input.tenant.getD u.tenant := by
  have framed : Frame op.Targets w.db.toTables w'.db.toTables → ¬ op.Targets u.id →
      u'.tenant = u.tenant := by
    intro frame apart
    obtain ⟨v, v_row, id, tenant, -⟩ := frame.row u u_row apart
    rw [Database.user_eq u'_row v_row (same.trans id.symm)]
    exact tenant
  have unchanged : w'.db.users = w.db.users → u'.tenant = u.tenant := by
    intro users
    rw [Database.user_eq (users ▸ u'_row) u_row same]
  cases op with
  | createDepartment accessToken input =>
      obtain ⟨answer, run, -⟩ := Prog.run_void run
      rcases createDepartment_cases run with ⟨e, -, rfl⟩ | ⟨_, _, db, _, _, _, _, ok, _, rfl⟩
      · exact Or.inl (unchanged rfl)
      · exact Or.inl (unchanged (by rw [(Database.departmentCreate_ok ok).1]))
  | grantAttributes accessToken targetId input =>
      by_cases target : targetId = u.id
      · subst target
        obtain ⟨answer, granting, rfl⟩ := Prog.run_void run
        rcases grantAttributes_cases granting with
          ⟨e, -, rfl⟩ | ⟨_, x, db, _, _, x_row, at_x, _, _, ok, rfl, rfl⟩
        · exact Or.inl (unchanged rfl)
        · obtain rfl := Database.user_eq x_row u_row at_x
          have found := Database.userById_userUpdate (Database.userById_eq_some.mpr ⟨x_row, rfl⟩) ok
          obtain ⟨row, id⟩ := Database.userById_eq_some.mp found
          refine Or.inr ⟨accessToken, input, rfl, rfl, ?_⟩
          have is_row : u' = _ := Database.user_eq u'_row row (same.trans id.symm)
          rw [is_row]
          rfl
      · exact Or.inl (framed (operation_frame run (by simp)) target)
  | setUserMemberships accessToken targetId memberships =>
      simp only [Operation.service, setUserMemberships_eq] at run
      rcases replacement_cases quiet_readRows run with ⟨e, -, rfl⟩ | ⟨rows, db, -, ok, -, rfl⟩
      · exact Or.inl (unchanged rfl)
      · exact Or.inl (unchanged (by rw [Database.setUserDepartments_ok ok]))
  | setUserCompartments accessToken targetId keys =>
      simp only [Operation.service, setUserCompartments_eq] at run
      rcases replacement_cases quiet_readRows run with ⟨e, -, rfl⟩ | ⟨ids, db, -, ok, -, rfl⟩
      · exact Or.inl (unchanged rfl)
      · exact Or.inl (unchanged (by rw [Database.setUserCompartments_ok ok]))
  | _ => exact Or.inl (framed (operation_frame run (by simp)) not_false)

/-! ## Steps -/

/-- Nobody has rows before having an account. -/
theorem RowsWithin.of_absent {db : Database} {userId : String} (absent : userId ∉ db.userIds)
    (tenants : String → Prop) : RowsWithin db.toTables userId tenants := by
  constructor
  · intro m listed
    have member := (Database.mem_membershipsOf.mp listed).2
    exact absurd (db.valid.userDepartment_user _ member) absent
  · intro c listed
    have member := (Database.mem_compartmentsOf.mp listed).2
    exact absurd (db.valid.userCompartment_user _ member) absent

/-- Rows stay within tenants that include the org tenant. -/
theorem RowsWithin.step {userId : String} {tenants : String → Prop}
    (within : RowsWithin w.db.toTables userId tenants) (org : tenants TENANT)
    (run : (op.service S env draws).run w = (result, w')) :
    RowsWithin w'.db.toTables userId tenants := by
  constructor
  · intro m listed
    rcases memberships_after run userId with same | ⟨_, _, -, -, -, replaced⟩
    · exact within.memberships m (same ▸ listed)
    · rw [(replaced m listed).2]
      exact org
  · intro c listed
    rcases compartments_after run userId with same | ⟨_, _, -, -, -, replaced⟩
    · exact within.compartments c (same ▸ listed)
    · rw [(replaced c listed).2]
      exact org

/-- An operation that keeps the tenancy of a user, or fails, leaves the rows in the user's
tenant. -/
theorem ownTenant_step {userId : String}
    (own : ∀ u ∈ w.db.users, u.id = userId → OwnTenant w.db.toTables u)
    (keeps : result = .ok () → KeepsTenancy w userId op)
    (run : (op.service S env draws).run w = (result, w')) :
    ∀ u ∈ w'.db.users, u.id = userId → OwnTenant w'.db.toTables u := by
  rintro u' u'_row rfl
  -- the rows of before lie in the tenant of after
  have before : RowsWithin w.db.toTables u'.id (· = u'.tenant) := by
    by_cases known : ∃ u ∈ w.db.users, u.id = u'.id
    · obtain ⟨u, u_row, same⟩ := known
      have mine := own u u_row same
      rw [OwnTenant, same] at mine
      rcases tenant_after run u_row u'_row same.symm with tenant | ⟨accessToken, input, rfl, done, tenant⟩
      · rwa [tenant]
      · rcases keeps done same with stays | ⟨memberships, compartments⟩
        · rwa [tenant, stays u u_row same]
        · exact ⟨by simp [memberships], by simp [compartments]⟩
    · refine .of_absent (fun listed => known ?_) _
      exact List.mem_map.mp listed
  constructor
  · intro m listed
    rcases memberships_after run u'.id with same | ⟨_, memberships, rfl, done, users, replaced⟩
    · exact before.memberships m (same ▸ listed)
    · obtain ⟨nonempty, tenant⟩ := replaced m listed
      rcases keeps done rfl with empty | org
      · exact absurd empty nonempty
      · exact tenant.trans (org u' (users ▸ u'_row) rfl).symm
  · intro c listed
    rcases compartments_after run u'.id with same | ⟨_, keys, rfl, done, users, replaced⟩
    · exact before.compartments c (same ▸ listed)
    · obtain ⟨nonempty, tenant⟩ := replaced c listed
      rcases keeps done rfl with empty | org
      · exact absurd empty nonempty
      · exact tenant.trans (org u' (users ▸ u'_row) rfl).symm

/-- A new department has its parent in the org tenant. -/
theorem NoForeignParent.step (apart : NoForeignParent w.db.toTables)
    (run : (op.service S env draws).run w = (result, w')) : NoForeignParent w'.db.toTables := by
  by_cases grows : ∃ accessToken input, op = .createDepartment accessToken input
  · obtain ⟨accessToken, input, rfl⟩ := grows
    obtain ⟨answer, run, -⟩ := Prog.run_void run
    rcases createDepartment_cases run with
      ⟨e, -, rfl⟩ | ⟨_, parentId, db, _, _, _, resolved, ok, _, rfl⟩
    · exact apart
    have grown := extends_of_departmentCreate ok
    intro child child_row tenant parent parent_row link
    rcases grown.mem_departments.mp child_row with child_row | rfl
    · rcases grown.mem_departments.mp parent_row with parent_row | rfl
      · exact apart child child_row tenant parent parent_row link
      · exact grown.tenant
    · obtain ⟨d, d_row, d_tenant, same, -⟩ := resolved _ link
      have d_row' : d ∈ db.departments := grown.mem_departments.mpr (Or.inl d_row)
      rw [← Database.department_eq d_row' parent_row same]
      exact d_tenant
  · have frame := operation_frame run fun accessToken input same => grows ⟨accessToken, input, same⟩
    rw [NoForeignParent, frame.departments]
    exact apart

end

/-! ## The claims -/

section

variable {σ : Type} {S : SessionStore σ} {env : Env} {w₀ w : World σ} {userId : String}
  {identity : AbacIdentity}

/-- A minted identity is that of a row with its claims. -/
theorem mints_ok (minted : mints w userId = some (.ok identity)) :
    ∃ row ∈ w.db.users, row.id = userId ∧ ∃ claims,
      claimsIn w.db.toTables userId = .ok claims ∧ identity = identityOf row claims := by
  cases found : w.db.userById userId with
  | none =>
      rw [mints, found] at minted
      cases minted
  | some row =>
      obtain ⟨row_row, rfl⟩ := Database.userById_eq_some.mp found
      rw [mints_eq row_row] at minted
      cases answer : claimsIn w.db.toTables row.id with
      | error e =>
          rw [answer] at minted
          cases minted
      | ok claims =>
          rw [answer] at minted
          cases minted
          exact ⟨row, row_row, rfl, claims, rfl, rfl⟩

/-- Claims lie where the rows do, if what is inherited does. -/
theorem claimsWithin_of_rows {tenants : String → Prop}
    (within : RowsWithin w.db.toTables userId tenants)
    (inherits : ∀ m ∈ w.db.membershipsOf userId, (∃ d, Below w.db.toTables d m.department.id) →
      tenants TENANT)
    (minted : mints w userId = some (.ok identity)) :
    ClaimsWithin w.db.toTables identity tenants := by
  obtain ⟨row, -, -, claims, ok, rfl⟩ := mints_ok minted
  obtain ⟨-, departments, compartments⟩ := claimsIn_ok ok
  constructor
  · intro slug claimed
    obtain ⟨m, listed, rfl | ⟨-, -, d, d_row, rfl, below⟩⟩ := (departments slug).mp claimed
    · exact ⟨m.department, (Database.mem_membershipsOf.mp listed).1, rfl, within.memberships m listed⟩
    · obtain ⟨_, ⟨e, e_row, tenant, same, -⟩, -⟩ := Relation.TransGen.head'_iff.mp below
      refine ⟨d, d_row, rfl, ?_⟩
      rw [← Database.department_eq e_row d_row same, tenant]
      exact inherits m listed ⟨d.id, below⟩
  · intro key claimed
    simp only [identityOf, compartments] at claimed
    obtain ⟨c, listed, rfl⟩ := List.mem_map.mp claimed
    exact ⟨c, (Database.mem_compartmentsOf.mp listed).1, rfl, within.compartments c listed⟩

/-- The org tenant, and the tenant of the user in this state. -/
def OrgOrHome (t : Tables) (userId tenant : String) : Prop :=
  tenant = TENANT ∨ ∃ u ∈ t.users, u.id = userId ∧ u.tenant = tenant

theorem rowsWithin_run (start : ∀ u ∈ w₀.db.users, OwnTenant w₀.db.toTables u)
    (run : Relation.ReflTransGen (Step S env fun _ _ => True) w₀ w) (userId : String) :
    RowsWithin w.db.toTables userId (OrgOrHome w₀.db.toTables userId) := by
  induction run with
  | refl =>
      by_cases known : userId ∈ w₀.db.userIds
      · obtain ⟨u, u_row, rfl⟩ := List.mem_map.mp known
        have own := start u u_row
        exact ⟨fun m listed => Or.inr ⟨u, u_row, rfl, (own.memberships m listed).symm⟩,
          fun c listed => Or.inr ⟨u, u_row, rfl, (own.compartments c listed).symm⟩⟩
      · exact .of_absent known _
  | tail _ step ih =>
      cases step with
      | elapse => exact ih
      | operation draws op exec _ => exact ih.step (Or.inl rfl) exec

/-- A step that keeps the tenancy of a user, if it succeeds. -/
abbrev KeepingStep (S : SessionStore σ) (env : Env) (userId : String) (w w' : World σ) : Prop :=
  Step S env (fun op result => result = .ok () → KeepsTenancy w userId op) w w'

theorem ownTenant_run (start : ∀ u ∈ w₀.db.users, OwnTenant w₀.db.toTables u)
    (apart : NoForeignParent w₀.db.toTables)
    (run : Relation.ReflTransGen (KeepingStep S env userId) w₀ w) :
    NoForeignParent w.db.toTables ∧ ∀ u ∈ w.db.users, u.id = userId → OwnTenant w.db.toTables u := by
  induction run with
  | refl => exact ⟨apart, fun u u_row _ => start u u_row⟩
  | tail _ step ih =>
      cases step with
      | elapse => exact ih
      | operation draws op exec keeps => exact ⟨ih.1.step exec, ownTenant_step ih.2 keeps exec⟩

/-- In every run the claims of a token name rows of the org tenant, or of the tenant the
user had at the start.  They name rows of the tenant that the token claims, if no
department of the org tenant lay below one of another tenant and every operation that
succeeded kept the user's tenancy. -/
theorem claims_of_org_tenant (start : ∀ u ∈ w₀.db.users, OwnTenant w₀.db.toTables u)
    (run : Relation.ReflTransGen (Step S env fun _ _ => True) w₀ w)
    (minted : mints w userId = some (.ok identity)) :
    ClaimsWithin w.db.toTables identity (OrgOrHome w₀.db.toTables userId) ∧
      (NoForeignParent w₀.db.toTables →
        Relation.ReflTransGen (KeepingStep S env userId) w₀ w →
        ClaimsWithin w.db.toTables identity (· = identity.tenant)) := by
  constructor
  · exact claimsWithin_of_rows (rowsWithin_run start run userId) (fun _ _ _ => Or.inl rfl) minted
  · intro apart keeping
    obtain ⟨apart, own⟩ := ownTenant_run start apart keeping
    obtain ⟨row, row_row, rfl, claims, -, rfl⟩ := mints_ok minted
    refine claimsWithin_of_rows (own row row_row rfl) ?_ minted
    -- what lies below a membership is in the org tenant, so the membership is too
    rintro m listed ⟨d, below⟩
    obtain ⟨_, -, ⟨child, child_row, tenant, -, link⟩⟩ := Relation.TransGen.tail'_iff.mp below
    have d_row := (Database.mem_membershipsOf.mp listed).1
    rw [← apart child child_row tenant m.department d_row link]
    exact (own row row_row rfl).memberships m listed

end

/-! ## Moved to another tenant -/

/-- The staffed deployment after an administrator's request. -/
def requested (op : Operation) : World RedisSessions :=
  ((op.service sampleStore sampleEnv sampleDraws).run (World.fresh .empty 0 staffed)).2

theorem staffed_ownTenant : ∀ u ∈ staffed.users, OwnTenant staffed.toTables u := by decide

/-- A member of human resources is moved to another department of the tenant. -/
theorem claims_of_org_tenant_transferred : ∃ identity,
    mints (requested (.setUserMemberships "admin@acme.test" "hr@acme.test" [⟨"it", none⟩]))
        "hr@acme.test" = some (.ok identity) ∧
      identity.departments = ["it"] ∧
      ClaimsWithin (requested (.setUserMemberships "admin@acme.test" "hr@acme.test"
        [⟨"it", none⟩])).db.toTables identity (· = identity.tenant) := by
  have minted : mints (requested (.setUserMemberships "admin@acme.test" "hr@acme.test"
      [⟨"it", none⟩])) "hr@acme.test" = some (.ok ⟨"hr@acme.test", "acme", ["it"], 2, 4, []⟩) := by
    decide
  refine ⟨_, minted, rfl, ?_⟩
  have keeps : KeepsTenancy (World.fresh RedisSessions.empty 0 staffed) "hr@acme.test"
      (.setUserMemberships "admin@acme.test" "hr@acme.test" [⟨"it", none⟩]) := by
    intro _
    right
    decide
  have step : Step sampleStore sampleEnv (fun _ _ => True) (World.fresh .empty 0 staffed)
      (requested (.setUserMemberships "admin@acme.test" "hr@acme.test" [⟨"it", none⟩])) :=
    .operation sampleDraws _ rfl trivial
  have keeping : KeepingStep sampleStore sampleEnv "hr@acme.test" (World.fresh .empty 0 staffed)
      (requested (.setUserMemberships "admin@acme.test" "hr@acme.test" [⟨"it", none⟩])) :=
    .operation sampleDraws _ rfl fun _ => keeps
  have start : ∀ u ∈ (World.fresh RedisSessions.empty 0 staffed).db.users,
      OwnTenant (World.fresh RedisSessions.empty 0 staffed).db.toTables u := staffed_ownTenant
  have apart : NoForeignParent staffed.toTables := by decide
  exact (claims_of_org_tenant start (.single step) minted).2 apart (.single keeping)

/-- The calls that move users, rows and structure. -/
def Reorganises : Operation → Prop
  | .signup _ _ _ | .grantAttributes _ _ _ | .setUserMemberships _ _ _
  | .setUserCompartments _ _ _ | .createDepartment _ _ | .createCompartment _ _ => True
  | _ => False

/-- A member of human resources is moved to another tenant, and takes the membership
along. -/
theorem not_always_claims_of_own_tenant : ¬ ∀ {σ : Type} (S : SessionStore σ) (env : Env)
    (w₀ w : World σ) (userId : String) (identity : AbacIdentity),
    (∀ u ∈ w₀.db.users, OwnTenant w₀.db.toTables u) →
    Relation.ReflTransGen (Step S env fun op result => Reorganises op ∧ result = .ok ()) w₀ w →
    mints w userId = some (.ok identity) →
    ClaimsWithin w.db.toTables identity (· = identity.tenant) := by
  intro always
  have step : Step sampleStore sampleEnv (fun op result => Reorganises op ∧ result = .ok ())
      (World.fresh .empty 0 staffed) (requested (.grantAttributes "admin@acme.test" "hr@acme.test"
        ⟨some "globex", none, none, none⟩)) :=
    .operation sampleDraws (.grantAttributes "admin@acme.test" "hr@acme.test"
      ⟨some "globex", none, none, none⟩) (Prod.ext (by decide) rfl) ⟨trivial, rfl⟩
  have minted : mints (requested (.grantAttributes "admin@acme.test" "hr@acme.test"
      ⟨some "globex", none, none, none⟩)) "hr@acme.test" =
        some (.ok ⟨"hr@acme.test", "globex", ["hr"], 2, 4, []⟩) := by decide
  have within := always _ _ _ _ _ _ staffed_ownTenant (.single step) minted
  obtain ⟨d, d_row, -, tenant⟩ := within.departments "hr" (by decide)
  have none_there : ∀ d ∈ (requested (.grantAttributes "admin@acme.test" "hr@acme.test"
      ⟨some "globex", none, none, none⟩)).db.departments, d.tenant ≠ "globex" := by decide
  exact none_there d d_row tenant

end Arac.Mediation
