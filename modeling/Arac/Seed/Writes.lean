/-
# Arac.Seed.Writes -- what one call of the seed script writes

Each call of `main` that writes changes one table.  `SeedUpsert` lists the calls that leave
rows of the seed lists, `SeedWiring` the three of a round of the wiring loop: the parent of a
role is set, its permissions are deleted and created again.

The calls are in no transaction, so the script can stop after any of them.  Whichever call
fails, and whether or not it has taken effect, what the script has done until then is a
sequence of such writes (`main_writes`), and a property of the database that each of them
keeps holds wherever it stops.  A round that nothing interrupts does nothing or all of its
writes (`run_wireRole`).
-/
import Arac.Seed.Idempotent
import Arac.Theory.Faults

namespace Arac.Seed

open Arac.Theory Arac.Db Arac.Service Arac.Config Arac.Org

set_option autoImplicit false

/-- A call that leaves a row of the seed lists. -/
inductive SeedUpsert (db db' : Database) : Prop
  | user {seed : SeedUser} (listed : seed ∈ SEED_USERS) (id email passwordHash : String)
      (createdAt : Nat) (written : db'.toTables = { db.toTables with
        users := upsert User.email email (User.reseed seed passwordHash)
          (seed.row id email passwordHash createdAt) db.users })
  | permission {p : String × String × Int} (listed : p ∈ PERMISSIONS) (id : String)
      (written : db'.toTables = { db.toTables with
        permissions := upsert Permission.key p.1
          (fun row => { row with description := p.2.1, minLevel := p.2.2 })
          { id, key := p.1, description := p.2.1, minLevel := p.2.2 } db.permissions })
  | role {r : SeedRole} (listed : r ∈ ROLES) (id : String)
      (written : db'.toTables = { db.toTables with
        roles := upsert Role.name r.name (fun row => { row with description := r.description })
          { id, name := r.name, description := r.description, parentId := none } db.roles })
  | assignment (row : UserRole)
      (written : db'.toTables = { db.toTables with userRoles := db.userRoles ++ [row] })
  | department {d : String × String × Option String} (listed : d ∈ DEPARTMENTS) (id : String)
      (written : db'.toTables = { db.toTables with
        departments := upsert (fun row : Department => (row.tenant, row.slug)) (TENANT, d.1)
          (fun row => { row with name := d.2.1 })
          { id, tenant := TENANT, slug := d.1, name := d.2.1, parentId := none } db.departments })
  | place (id parentId : String)
      (written : db'.toTables = { db.toTables with
        departments := db.departments.map (Department.place id parentId) })
  | compartment {c : String × String} (listed : c ∈ COMPARTMENTS) (id : String)
      (written : db'.toTables = { db.toTables with
        compartments := upsert (fun row : Compartment => (row.tenant, row.key)) (TENANT, c.1)
          (fun row => { row with name := c.2 })
          { id, tenant := TENANT, key := c.1, name := c.2 } db.compartments })
  | membership (userId departmentId : String) (rank : DeptRank)
      (written : db'.toTables = { db.toTables with
        userDepartments :=
          upsert (fun row : UserDepartment => (row.userId, row.departmentId)) (userId, departmentId)
            (fun row => { row with rank }) { userId, departmentId, rank } db.userDepartments })

/-- A call of a round of the wiring loop. -/
inductive SeedWiring (db db' : Database) : Prop
  | parent {r : SeedRole} (listed : r ∈ ROLES) {role : Role} (role_row : role ∈ db.roles)
      (name : role.name = r.name) {parentId : Option String}
      (names : NamesParent db.roles r parentId)
      (written : db'.toTables = { db.toTables with
        roles := db.roles.map fun row => if row.id = role.id then { row with parentId } else row })
  | reset (roleId : String)
      (written : db'.toTables = { db.toTables with
        rolePermissions := db.rolePermissions.filter fun rp => rp.roleId ≠ roleId })
  | confer {r : SeedRole} (listed : r ∈ ROLES) {role : Role} (role_row : role ∈ db.roles)
      (name : role.name = r.name)
      (written : db'.toTables = { db.toTables with
        rolePermissions := db.rolePermissions ++ (permissionsIn r.perms db.toTables).map fun p =>
          { roleId := role.id, permissionId := p.id } })

/-- One write of the script. -/
def SeedWrite (db db' : Database) : Prop := SeedUpsert db db' ∨ SeedWiring db db'

section

variable {σ α : Type}

/-- Wherever the procedure stops, it has done a sequence of these writes. -/
def Writes (R : Database → Database → Prop) (p : Service σ α) : Prop :=
  ∀ w, p.StopsIn (fun w' => Relation.ReflTransGen R w.db w'.db) w

namespace Writes

variable {β : Type} {R R' : Database → Database → Prop}

theorem pure (a : α) : Writes R (Pure.pure a : Service σ α) := fun _ => .pure a .refl

theorem mono {p : Service σ α} (writes : Writes R p) (wider : ∀ db db', R db db' → R' db db') :
    Writes R' p :=
  fun w => (writes w).mono fun _ sequence => Relation.ReflTransGen.mono wider _ _ sequence

theorem bind {p : Service σ α} {f : α → Service σ β} (first : Writes R p)
    (rest : ∀ a, Writes R (f a)) : Writes R (p >>= f) := by
  intro w
  refine (first w).bind fun a w' ran => ?_
  have before := (first w).run
  rw [ran] at before
  exact (rest a w').mono fun _ after => before.trans after

theorem forM {l : List β} {f : β → Service σ PUnit} (each : ∀ x ∈ l, Writes R (f x)) :
    Writes R (l.forM f) := by
  induction l with
  | nil => exact .pure _
  | cons x l ih =>
      exact .bind (each x List.mem_cons_self) fun _ =>
        ih fun y member => each y (List.mem_cons_of_mem x member)

/-- What every write keeps holds wherever the procedure stops. -/
theorem stopsIn {J : Database → Prop} (step : ∀ db db', R db db' → J db → J db')
    {p : Service σ α} (writes : Writes R p) {w : World σ} (holds : J w.db) :
    p.StopsIn (fun w' => J w'.db) w := by
  have along : ∀ db, Relation.ReflTransGen R w.db db → J db := by
    intro db sequence
    induction sequence with
    | refl => exact holds
    | tail _ write ih => exact step _ _ write ih
  exact (writes w).mono fun w' => along w'.db

theorem keeps {J : Database → Prop} (step : ∀ db db', R db db' → J db → J db')
    {p : Service σ α} (writes : Writes R p) : p.Keeps fun w => J w.db :=
  fun _ holds => (writes.stopsIn step holds).run

theorem of_quiet {p : Service σ α} (quiet : Quiet p) : Writes R p := by
  intro w
  refine .of_guarantees .refl (quiet.mono ?_)
  rintro v _ rfl
  exact id

theorem commit {update : Database → Except PrismaError Database}
    (commits : ∀ db db', update db = .ok db' → R db db') :
    Writes R (commit update : Service σ Unit) := by
  intro w
  refine .of_guarantees .refl (commit_guarantees (fun _ => id) fun v db ok sequence => ?_)
  exact sequence.tail (commits v.db db ok)

end Writes

theorem writes_seedUser (env : Env) (processEnv : ProcessEnv) (draws : SeedDraws) (isProd : Bool)
    {seed : SeedUser} (listed : seed ∈ SEED_USERS) :
    Writes SeedUpsert (seedUser env processEnv draws isProd seed : Service σ Unit) := by
  simp only [seedUser]
  split
  · exact .of_quiet (.fail _)
  · refine .bind (.of_quiet .clock) fun createdAt => .commit fun db db' ok => ?_
    exact .user listed _ _ _ _ ((Database.userUpsert_upserts _ _ _ _ _).ok ok)

theorem quiet_roleOrThrow (name : String) : Quiet (roleOrThrow name : Service σ Role) := by
  refine .bind (.query _) ?_
  intro found
  cases found with
  | none => exact .fail _
  | some role => exact .pure _

theorem quiet_parentIdOf (r : SeedRole) : Quiet (parentIdOf r : Service σ (Option String)) := by
  unfold parentIdOf
  split
  · exact .pure _
  · exact .bind (quiet_roleOrThrow _) fun _ => .pure _

theorem NamesParent.known {roles : List Role} {r : SeedRole} {parentId : Option String}
    (names : NamesParent roles r parentId) : ∀ p ∈ parentId, p ∈ roles.map Role.id := by
  unfold NamesParent at names
  intro p at_p
  split at names
  · rw [names] at at_p
    cases at_p
  · obtain ⟨parent, parent_row, -, rfl⟩ := names
    obtain rfl := Option.some.inj at_p
    exact List.mem_map_of_mem parent_row

/-- A round of the wiring loop does nothing or all of its writes. -/
theorem run_wireRole (r : SeedRole) (w : World σ) :
    ((wireRole r).run w).2 = w ∨
      ∃ role ∈ w.db.roles, role.name = r.name ∧ ∃ parentId, NamesParent w.db.roles r parentId ∧
        ((wireRole r).run w).2.db.toTables = rewire role.id parentId r.perms w.db.toTables := by
  have found := (quiet_roleOrThrow (σ := σ) r.name).run w
  cases sought : (roleOrThrow r.name).run w with
  | mk result v =>
      rw [sought] at found
      obtain rfl := found
      cases result with
      | error e =>
          exact Or.inl (congrArg Prod.snd (Prog.run_bind_error sought _))
      | ok role =>
          obtain ⟨⟨role_row, name⟩, -⟩ := roleOrThrow_ok.mp sought
          have climbed := (quiet_parentIdOf (σ := σ) r).run v
          cases above : (parentIdOf r).run v with
          | mk result' u =>
              rw [above] at climbed
              obtain rfl := climbed
              cases result' with
              | error e =>
                  refine Or.inl ?_
                  unfold wireRole
                  rw [Prog.run_bind_ok sought, Prog.run_bind_error above]
              | ok parentId =>
                  obtain ⟨names, -⟩ := parentIdOf_ok.mp above
                  obtain ⟨db, run⟩ := wireRole_commits role_row name names names.known
                  obtain ⟨role', role'_row, name', parentId', names', written⟩ := wireRole_ok run
                  rw [run]
                  exact Or.inr ⟨role', role'_row, name', parentId', names', written⟩

/-- One write at a state that is known. -/
theorem commit_stopsIn {Q : World σ → Prop} {update : Database → Except PrismaError Database}
    {w : World σ} (here : Q w) (commits : ∀ db, update w.db = .ok db → Q { w with db }) :
    (commit update : Service σ Unit).StopsIn Q w := by
  have wrote : (write update : Service σ (Except PrismaError Unit)).StopsIn Q w := by
    refine .call here ?_
    cases written : update w.db with
    | ok db => exact commits db written
    | error e => exact here
  refine .bind wrote fun result v ran => ?_
  have there := wrote.run
  rw [ran] at there
  cases result with
  | ok _ => exact .pure _ there
  | error e => exact .fail _ there

/-- A round may stop after any of its calls. -/
theorem writes_wireRole {r : SeedRole} (listed : r ∈ ROLES) :
    Writes SeedWiring (wireRole r : Service σ Unit) := by
  intro w
  refine .bind (Writes.of_quiet (quiet_roleOrThrow _) w) fun role w₁ found => ?_
  obtain ⟨⟨role_row, name⟩, rfl⟩ := roleOrThrow_ok.mp found
  refine .bind (Writes.of_quiet (quiet_parentIdOf _) w₁) fun parentId w₂ above => ?_
  obtain ⟨names, rfl⟩ := parentIdOf_ok.mp above
  refine .bind (Writes.of_quiet (.query _) w₂) fun perms w₃ read => ?_
  obtain ⟨rfl, rfl⟩ : permissionsIn r.perms w₂.db.toTables = perms ∧ w₂ = w₃ := by
    rw [run_query] at read
    exact ⟨Except.ok.inj (Prod.mk.inj read).1, (Prod.mk.inj read).2⟩
  -- the parent is set
  have sets : ∀ db, w₂.db.roleUpdate role.id parentId = .ok db →
      SeedWiring w₂.db db := fun db ok => .parent listed role_row name names (Database.roleUpdate_ok ok)
  refine .bind (commit_stopsIn .refl fun db ok => .single (sets db ok)) fun _ w₃ ran => ?_
  obtain ⟨set, ok, rfl⟩ := run_commit_eq_ok.mp ran
  have tables := Database.roleUpdate_ok ok
  have first := Relation.ReflTransGen.single (sets set ok)
  -- the permissions are deleted
  have deletes : SeedWiring set (set.rolePermissionDeleteMany role.id) := .reset role.id rfl
  refine .bind (commit_stopsIn first fun db ok => ?_) fun _ w₄ ran => ?_
  · cases ok
    exact first.tail deletes
  obtain ⟨_, ⟨⟩, rfl⟩ := run_commit_eq_ok.mp ran
  have second := first.tail deletes
  -- and created again
  split
  · refine commit_stopsIn second fun db ok => second.tail ?_
    have row : { role with parentId } ∈ (set.rolePermissionDeleteMany role.id).roles := by
      show _ ∈ set.roles
      rw [tables]
      exact List.mem_map.mpr ⟨role, role_row, if_pos rfl⟩
    refine .confer listed row name ((Database.rolePermissionCreateMany_ok ok).trans ?_)
    have same : permissionsIn r.perms (set.rolePermissionDeleteMany role.id).toTables =
        permissionsIn r.perms w₂.db.toTables := by
      show (set.permissions.filter _) = _
      rw [tables]
      rfl
    rw [same]
  · exact .pure _ second

theorem writes_grantSuperAdmin (draws : SeedDraws) : Writes SeedUpsert (grantSuperAdmin draws : Service σ Unit) := by
  refine .bind (.of_quiet (.query _)) fun admin => .bind (.of_quiet (.query _)) fun superAdmin => ?_
  split
  · refine .bind (.of_quiet (.query _)) fun existing => ?_
    cases existing with
    | some _ => exact .pure _
    | none => exact .commit fun db db' ok => .assignment _ (Database.userRoleCreate_ok ok)
  · exact .pure _

theorem writes_permissions (draws : SeedDraws) :
    Writes SeedUpsert (PERMISSIONS.forM fun p =>
      commit (·.permissionUpsert (draws.permissionIds p.1) p.1 p.2.1 p.2.2) : Service σ PUnit) :=
  .forM fun _ listed => .commit fun _ _ ok =>
    .permission listed _ ((Database.permissionUpsert_upserts _ _ _ _).ok ok)

theorem writes_roles (draws : SeedDraws) :
    Writes SeedUpsert (ROLES.forM fun r =>
      commit (·.roleUpsert (draws.roleIds r.name) r.name r.description) : Service σ PUnit) :=
  .forM fun _ listed => .commit fun _ _ ok =>
    .role listed _ ((Database.roleUpsert_upserts _ _ _).ok ok)

theorem writes_seedRbac (draws : SeedDraws) : Writes SeedWrite (seedRbac draws : Service σ Unit) :=
  .bind ((writes_permissions draws).mono fun _ _ => Or.inl) fun _ =>
    .bind ((writes_roles draws).mono fun _ _ => Or.inl) fun _ =>
      .bind (.forM fun _ listed => (writes_wireRole listed).mono fun _ _ => Or.inr) fun _ =>
        (writes_grantSuperAdmin draws).mono fun _ _ => Or.inl

theorem quiet_departmentOrThrow (slug : String) :
    Quiet (departmentOrThrow slug : Service σ Department) := by
  refine .bind (.query _) ?_
  intro found
  cases found with
  | none => exact .fail _
  | some _ => exact .pure _

theorem writes_wireParent (seed : String × String × Option String) :
    Writes SeedUpsert (wireParent seed : Service σ Unit) := by
  unfold wireParent
  split
  · exact .pure _
  · exact .bind (.of_quiet (quiet_departmentOrThrow _)) fun dept =>
      .bind (.of_quiet (quiet_departmentOrThrow _)) fun parent =>
        .commit fun db db' ok => .place _ _ (Database.departmentUpdate_ok ok)

theorem writes_seedMembership (env : Env) (seed : SeedUser) :
    Writes SeedUpsert (seedMembership env seed : Service σ Unit) := by
  refine .bind (.of_quiet (.query _)) fun user => .bind (.of_quiet (.query _)) fun dept => ?_
  split
  · exact .commit fun db db' ok =>
      .membership _ _ _ ((Database.userDepartmentUpsert_upserts _ _ _).ok ok)
  · exact .pure _

theorem writes_seedOrg (env : Env) (ids : String → Cuid) : Writes SeedUpsert (seedOrg env ids : Service σ Unit) := by
  refine .bind (.forM fun d listed => .commit fun db db' ok => ?_) fun _ =>
    .bind (.forM fun d _ => writes_wireParent d) fun _ =>
      .bind (.forM fun c listed => .commit fun db db' ok => ?_) fun _ =>
        .forM fun seed _ => writes_seedMembership env seed
  · exact .department listed _ ((Database.departmentUpsert_upserts _ _ _ _).ok ok)
  · exact .compartment listed _ ((Database.compartmentUpsert_upserts _ _ _ _).ok ok)

/-- Wherever a run of the script stops, it has done a sequence of its writes. -/
theorem main_writes (env : Env) (processEnv : ProcessEnv) (draws : SeedDraws) :
    Writes SeedWrite (main env processEnv draws : Service σ Unit) :=
  .bind (.forM fun _ listed =>
      (writes_seedUser env processEnv draws _ listed).mono fun _ _ => Or.inl) fun _ =>
    .bind (writes_seedRbac draws) fun _ =>
      (writes_seedOrg env draws.orgIds).mono fun _ _ => Or.inl

end

end Arac.Seed
