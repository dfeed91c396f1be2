/-
# Arac.Seed.Settled -- what a run of the seed brings about

`Settled` says of the tables what the seed wants of them, one field for each loop of the
script: the rows of its lists are there, with the columns that the seed writes, and the
roles and departments hang below their parents.  Nothing is said of other rows.

* `main_settles`: a run that completes leaves the tables settled, whatever they held.
  Each loop brings its field about and keeps those of the loops before it.
-/
import Arac.Seed.Script

namespace Arac.Seed

open Arac.Theory Arac.Db Arac.Service Arac.Config Arac.Org

set_option autoImplicit false

/-! ## Settled tables -/

/-- The row is as the seed writes it, under some salt. -/
def Reseeded (env : Env) (processEnv : ProcessEnv) (seed : SeedUser) (u : User) : Prop :=
  ∃ salt, u.reseed seed (env.argon2Hash (passwordOf processEnv seed) salt) = u

/-- The id of the role the seed names as parent, or null. -/
def NamesParent (roles : List Role) (r : SeedRole) (parentId : Option String) : Prop :=
  match truthy r.parent with
  | none => parentId = none
  | some name => ∃ p ∈ roles, p.name = name ∧ parentId = some p.id

/-- The role has the parent and exactly the permissions of the seed. -/
def Wired (t : Tables) (r : SeedRole) (role : Role) : Prop :=
  NamesParent t.roles r role.parentId ∧
    ∀ permissionId, (⟨role.id, permissionId⟩ : RolePermission) ∈ t.rolePermissions ↔
      ∃ p ∈ t.permissions, p.key ∈ r.perms ∧ p.id = permissionId

/-- The department hangs below the parent that the seed names, if it names one. -/
def Placed (departments : List Department) (seed : String × String × Option String)
    (d : Department) : Prop :=
  ∀ parentSlug ∈ truthy seed.2.2,
    ∃ p ∈ departments, p.tenant = TENANT ∧ p.slug = parentSlug ∧ d.parentId = some p.id

def UsersSeeded (env : Env) (processEnv : ProcessEnv) (t : Tables) : Prop :=
  ∀ seed ∈ SEED_USERS, Carries User.email seed.email (Reseeded env processEnv seed) t.users

def PermissionsDescribed (t : Tables) : Prop :=
  ∀ p ∈ PERMISSIONS, Carries Permission.key p.1
    (fun row => row.description = p.2.1 ∧ row.minLevel = p.2.2) t.permissions

def RolesDescribed (t : Tables) : Prop :=
  ∀ r ∈ ROLES, Carries Role.name r.name (fun row => row.description = r.description) t.roles

def RolesWired (t : Tables) : Prop :=
  ∀ r ∈ ROLES, Carries Role.name r.name (Wired t r) t.roles

/-- The administrator, if there is one, has the highest role everywhere. -/
def Granted (t : Tables) : Prop :=
  ∀ u ∈ t.users, u.email = "admin@acme.test" → ∀ role ∈ t.roles, role.name = "super-admin" →
    ∃ a, t.findAssignment u.id role.id none none = some a

def DepartmentsNamed (t : Tables) : Prop :=
  ∀ d ∈ DEPARTMENTS, Carries (fun row : Department => (row.tenant, row.slug)) (TENANT, d.1)
    (fun row => row.name = d.2.1) t.departments

def DepartmentsPlaced (t : Tables) : Prop :=
  ∀ d ∈ DEPARTMENTS, Carries (fun row : Department => (row.tenant, row.slug)) (TENANT, d.1)
    (Placed t.departments d) t.departments

def CompartmentsNamed (t : Tables) : Prop :=
  ∀ c ∈ COMPARTMENTS, Carries (fun row : Compartment => (row.tenant, row.key)) (TENANT, c.1)
    (fun row => row.name = c.2) t.compartments

/-- The seed user, if there, is a member of the department of the seed, if there. -/
def Member (t : Tables) (seed : SeedUser) : Prop :=
  ∀ u ∈ t.users, u.email = seed.email →
    ∀ d ∈ t.departments, d.tenant = TENANT ∧ d.slug = seed.department →
      Carries (fun m : UserDepartment => (m.userId, m.departmentId)) (u.id, d.id)
        (fun m => m.rank = if seed.department = "it" then .manager else .ic) t.userDepartments

structure Settled (env : Env) (processEnv : ProcessEnv) (t : Tables) : Prop where
  users : UsersSeeded env processEnv t
  permissions : PermissionsDescribed t
  roles : RolesDescribed t
  wired : RolesWired t
  granted : Granted t
  departments : DepartmentsNamed t
  placed : DepartmentsPlaced t
  compartments : CompartmentsNamed t
  members : ∀ seed ∈ SEED_USERS, Member t seed

/-! ## The users -/

section

variable {σ : Type} {env : Env} {processEnv : ProcessEnv} {draws : SeedDraws} {w w' : World σ}

/-- In production the seed refuses the default password. -/
def Refused (processEnv : ProcessEnv) (isProd : Bool) (seed : SeedUser) : Prop :=
  (isProd && passwordOf processEnv seed = DEV_DEFAULT_PASSWORD) = true

theorem run_seedUser {isProd : Bool} {seed : SeedUser} (accepted : ¬ Refused processEnv isProd seed) :
    (seedUser env processEnv draws isProd seed).run w =
      (commit (·.userUpsert (draws.userIds seed.email) (env.toLowerCase seed.email) seed
        (env.argon2Hash (passwordOf processEnv seed) (draws.salts seed.email)) w.now) :
          Service σ Unit).run w := by
  simp only [seedUser]
  split
  · rename_i refused
    exact absurd refused accepted
  · rfl

theorem seedUser_ok {isProd : Bool} {seed : SeedUser}
    (ok : (seedUser env processEnv draws isProd seed).run w = (.ok (), w')) :
    ¬ Refused processEnv isProd seed ∧
      ∃ db, w.db.userUpsert (draws.userIds seed.email) (env.toLowerCase seed.email) seed
        (env.argon2Hash (passwordOf processEnv seed) (draws.salts seed.email)) w.now = .ok db ∧
        w' = { w with db } := by
  have accepted : ¬ Refused processEnv isProd seed := by
    simp only [seedUser] at ok
    split at ok
    · cases ok
    · rename_i accepted
      exact accepted
  rw [run_seedUser accepted] at ok
  exact ⟨accepted, run_commit_eq_ok.mp ok⟩

/-- What the write leaves of the users, under whatever salt. -/
theorem reseeded {db db' : Database} {id : Cuid} {seed : SeedUser} {salt : String}
    {createdAt : Nat} (written : db.userUpsert id seed.email seed
      (env.argon2Hash (passwordOf processEnv seed) salt) createdAt = .ok db') :
    Upserts User.email seed.email (Reseeded env processEnv seed) db.users db'.users := by
  have upserts := Database.userUpsert_upserts id seed.email seed
    (env.argon2Hash (passwordOf processEnv seed) salt) createdAt
  exact .of_eq (congrArg Tables.users (upserts.ok written)) upserts.keys (fun _ => ⟨_, rfl⟩)
    upserts.new ⟨_, rfl⟩

theorem seedUsers_distinct : ∀ x ∈ SEED_USERS, ∀ y ∈ SEED_USERS, y.email = x.email → y = x :=
  fun _ listed _ listed' =>
    List.inj_on_of_nodup_map (by decide : (SEED_USERS.map SeedUser.email).Nodup) listed' listed

theorem seedUsers_accepted {isProd : Bool}
    (ok : (SEED_USERS.forM (seedUser env processEnv draws isProd)).run w = (.ok (), w')) :
    ∀ seed ∈ SEED_USERS, ¬ Refused processEnv isProd seed :=
  Prog.run_forM_ok (Q := fun seed _ => ¬ Refused processEnv isProd seed)
    (fun _ _ _ _ first => (seedUser_ok first).1) (fun _ _ _ _ accepted => accepted) ok

theorem seedUsers_settles {isProd : Bool}
    (lower : ∀ seed ∈ SEED_USERS, env.toLowerCase seed.email = seed.email)
    (ok : (SEED_USERS.forM (seedUser env processEnv draws isProd)).run w = (.ok (), w')) :
    UsersSeeded env processEnv w'.db.toTables := by
  refine (run_forM_upserts User.email (fun v : World σ => v.db.users) (k := SeedUser.email)
    (P := Reseeded env processEnv) (J := fun _ => True) seedUsers_distinct ?_ trivial ok).2
  intro seed listed v v' _ first
  obtain ⟨-, db, written, rfl⟩ := seedUser_ok first
  rw [lower seed listed] at written
  exact ⟨trivial, reseeded written⟩

/-! ## Permissions and roles -/

/-- A loop of upserts into one table. -/
theorem upserts_settle {β ρ κ : Type} [DecidableEq κ] {l : List β} {T : Table ρ} {key : ρ → κ}
    {k : β → κ} {f : β → ρ → ρ} {row : β → ρ}
    {write : β → Database → Except PrismaError Database} {P : β → ρ → Prop} {J : Tables → Prop}
    (upserts : ∀ x, UpsertsRow T key (k x) (f x) (row x) (write x)) (distinct : (l.map k).Nodup)
    (rewritten : ∀ x r, P x (f x r)) (added : ∀ x, P x (row x))
    (frame : ∀ t rows, J t → J (T.put t rows)) (start : J w.db.toTables)
    (ok : (l.forM fun x => (commit (write x) : Service σ Unit)).run w = (.ok (), w')) :
    J w'.db.toTables ∧ ∀ x ∈ l, Carries key (k x) (P x) (T.rows w'.db.toTables) := by
  refine run_forM_upserts key (fun v : World σ => T.rows v.db.toTables)
    (J := fun v : World σ => J v.db.toTables) ?_ ?_ start ok
  · exact fun x listed y listed' => List.inj_on_of_nodup_map distinct listed' listed
  · intro x _ v v' holds first
    obtain ⟨db, written, rfl⟩ := run_commit_eq_ok.mp first
    have tables := (upserts x).ok written
    refine ⟨?_, .of_eq ?_ (upserts x).keys (rewritten x) (upserts x).new (added x)⟩
    · rw [tables]
      exact frame _ _ holds
    · rw [tables, T.rows_put]

theorem permissions_settle {J : Tables → Prop}
    (frame : ∀ t permissions, J t → J { t with permissions }) (start : J w.db.toTables)
    (ok : (PERMISSIONS.forM fun p => (commit (·.permissionUpsert (draws.permissionIds p.1) p.1 p.2.1
      p.2.2) : Service σ Unit)).run w = (.ok (), w')) :
    J w'.db.toTables ∧ PermissionsDescribed w'.db.toTables :=
  upserts_settle (fun _ => Database.permissionUpsert_upserts _ _ _ _) (by decide)
    (fun _ _ => ⟨rfl, rfl⟩) (fun _ => ⟨rfl, rfl⟩) frame start ok

theorem roles_settle {J : Tables → Prop} (frame : ∀ t roles, J t → J { t with roles })
    (start : J w.db.toTables)
    (ok : (ROLES.forM fun r => (commit (·.roleUpsert (draws.roleIds r.name) r.name r.description) :
      Service σ Unit)).run w = (.ok (), w')) :
    J w'.db.toTables ∧ RolesDescribed w'.db.toTables :=
  upserts_settle (fun _ => Database.roleUpsert_upserts _ _ _) (by decide) (fun _ _ => rfl)
    (fun _ => rfl) frame start ok

/-! ## Wiring the roles -/

theorem roleOrThrow_ok {name : String} {role : Role} :
    (roleOrThrow name).run w = (.ok role, w') ↔ (role ∈ w.db.roles ∧ role.name = name) ∧ w' = w := by
  unfold roleOrThrow
  rw [Prog.run_bind_ok (run_query _ w), ← Database.roleByName_eq_some]
  cases w.db.roleByName name with
  | none => simp
  | some role' => simp [eq_comm]

theorem parentIdOf_ok {r : SeedRole} {parentId : Option String} :
    (parentIdOf r).run w = (.ok parentId, w') ↔ NamesParent w.db.roles r parentId ∧ w' = w := by
  unfold parentIdOf NamesParent
  cases truthy r.parent with
  | none => simp [eq_comm]
  | some name =>
      simp only [Prog.run_bind_eq_ok, roleOrThrow_ok, Prog.run_pure]
      constructor
      · rintro ⟨p, _, ⟨⟨p_row, same⟩, rfl⟩, ⟨⟩⟩
        exact ⟨⟨p, p_row, same, rfl⟩, rfl⟩
      · rintro ⟨⟨p, p_row, same, rfl⟩, rfl⟩
        exact ⟨p, _, ⟨⟨p_row, same⟩, rfl⟩, rfl⟩

/-- What one round of the loop makes of the tables. -/
def rewire (roleId : String) (parentId : Option String) (keys : List String) (t : Tables) : Tables :=
  { t with
    roles := t.roles.map fun role => if role.id = roleId then { role with parentId } else role
    rolePermissions := (t.rolePermissions.filter fun rp => rp.roleId ≠ roleId) ++
      (permissionsIn keys t).map fun p => { roleId, permissionId := p.id } }

theorem wireRole_ok {r : SeedRole} (ok : (wireRole r).run w = (.ok (), w')) :
    ∃ role ∈ w.db.roles, role.name = r.name ∧ ∃ parentId, NamesParent w.db.roles r parentId ∧
      w'.db.toTables = rewire role.id parentId r.perms w.db.toTables := by
  obtain ⟨role, _, found, rest⟩ := Prog.run_bind_eq_ok.mp ok
  obtain ⟨⟨role_row, name⟩, rfl⟩ := roleOrThrow_ok.mp found
  obtain ⟨parentId, _, parent, writes⟩ := Prog.run_bind_eq_ok.mp rest
  obtain ⟨names, rfl⟩ := parentIdOf_ok.mp parent
  rw [Prog.run_bind_ok (run_query _ _)] at writes
  obtain ⟨_, _, first, after⟩ := Prog.run_bind_eq_ok.mp writes
  obtain ⟨updated, update, rfl⟩ := run_commit_eq_ok.mp first
  obtain ⟨_, _, second, last⟩ := Prog.run_bind_eq_ok.mp after
  obtain ⟨deleted, ⟨⟩, rfl⟩ := run_commit_eq_ok.mp second
  refine ⟨role, role_row, name, parentId, names, ?_⟩
  have tables := Database.roleUpdate_ok update
  split at last
  · obtain ⟨created, create, rfl⟩ := run_commit_eq_ok.mp last
    rw [Database.rolePermissionCreateMany_ok create]
    simp only [Database.rolePermissionDeleteMany, tables, rewire]
  · rename_i none
    cases last
    have no_rows := List.length_eq_zero_iff.mp (Nat.eq_zero_of_not_pos none)
    simp only [Database.rolePermissionDeleteMany, tables, rewire, no_rows, List.map_nil,
      List.append_nil]

/-- Rewriting the roles moves none to another id or name. -/
theorem namesParent_rewire {t : Tables} {r : SeedRole} {parentId : Option String}
    (names : NamesParent t.roles r parentId) (roleId : String) (newParent : Option String)
    (keys : List String) : NamesParent (rewire roleId newParent keys t).roles r parentId := by
  unfold NamesParent at names ⊢
  cases named : truthy r.parent with
  | none => simpa only [named] using names
  | some name =>
      rw [named] at names
      obtain ⟨p, p_row, same, rfl⟩ := names
      refine ⟨_, List.mem_map_of_mem p_row, ?_, ?_⟩
      · split <;> exact same
      · split <;> rfl

/-- A round wires its role. -/
theorem wired_rewire {t : Tables} {r : SeedRole} {role : Role} {parentId : Option String}
    (role_row : role ∈ t.roles) (name : role.name = r.name)
    (names : NamesParent t.roles r parentId) :
    Carries Role.name r.name (Wired (rewire role.id parentId r.perms t) r)
      (rewire role.id parentId r.perms t).roles := by
  refine ⟨{ role with parentId }, List.mem_map.mpr ⟨role, role_row, if_pos rfl⟩, name, ?_, ?_⟩
  · exact namesParent_rewire names role.id parentId r.perms
  · intro permissionId
    simp [rewire, permissionsIn, and_assoc]

/-- A round leaves the other roles as they are. -/
theorem wired_rewire_other {db : Database} {r other : SeedRole} {role : Role} {parentId : Option String}
    (role_row : role ∈ db.roles) (name : role.name = r.name) (ne : other.name ≠ r.name)
    (wired : Carries Role.name other.name (Wired db.toTables other) db.roles) :
    Carries Role.name other.name (Wired (rewire role.id parentId r.perms db.toTables) other)
      (rewire role.id parentId r.perms db.toTables).roles := by
  obtain ⟨row, row_row, same, names, permissions⟩ := wired
  have apart : row.id ≠ role.id := by
    intro same_id
    have same_row := Database.role_eq row_row role_row same_id
    exact ne (by rw [← same, same_row, name])
  refine ⟨row, List.mem_map.mpr ⟨row, row_row, if_neg apart⟩, same,
    namesParent_rewire names _ _ _, fun permissionId => ?_⟩
  refine Iff.trans ?_ (permissions permissionId)
  simp [rewire, apart, apart.symm]

theorem wiring_settles {J : Tables → Prop}
    (frame : ∀ t roleId parentId keys, J t → J (rewire roleId parentId keys t))
    (start : J w.db.toTables) (ok : (ROLES.forM wireRole).run w = (.ok (), w')) :
    J w'.db.toTables ∧ RolesWired w'.db.toTables := by
  refine Prog.run_forM_settles (J := fun v : World σ => J v.db.toTables)
    (Q := fun r v => Carries Role.name r.name (Wired v.db.toTables r) v.db.roles) ?_ start ok
  intro r listed v v' holds round
  obtain ⟨role, role_row, name, parentId, names, tables⟩ := wireRole_ok round
  rw [tables]
  have mine := wired_rewire role_row name names
  refine ⟨frame _ _ _ _ holds, mine, fun other listed' wired => ?_⟩
  by_cases same : other.name = r.name
  · have distinct : (ROLES.map SeedRole.name).Nodup := by decide
    rw [List.inj_on_of_nodup_map distinct listed' listed same]
    exact mine
  · exact wired_rewire_other role_row name same wired

/-! ## The administrator -/

theorem grantSuperAdmin_ok (ok : (grantSuperAdmin draws).run w = (.ok (), w')) :
    (∃ userRoles, w'.db.toTables = { w.db.toTables with userRoles }) ∧ Granted w'.db.toTables := by
  unfold grantSuperAdmin at ok
  rw [Prog.run_bind_ok (run_query _ w), Prog.run_bind_ok (run_query _ w)] at ok
  split at ok
  · rename_i admin superAdmin at_email at_name
    have these : ∀ u ∈ w.db.users, u.email = "admin@acme.test" →
        ∀ role ∈ w.db.roles, role.name = "super-admin" → u = admin ∧ role = superAdmin := by
      intro u row email role role_row name
      have at_u := Database.userByEmail_eq_some.mpr ⟨row, email⟩
      have at_role := Database.roleByName_eq_some.mpr ⟨role_row, name⟩
      exact ⟨Option.some.inj (at_u.symm.trans at_email), Option.some.inj (at_role.symm.trans at_name)⟩
    rw [Prog.run_bind_ok (run_query _ w)] at ok
    split at ok
    · rename_i a there
      cases ok
      refine ⟨⟨_, rfl⟩, fun u row email role role_row name => ?_⟩
      obtain ⟨rfl, rfl⟩ := these u row email role role_row name
      exact ⟨a, there⟩
    · obtain ⟨db, written, rfl⟩ := run_commit_eq_ok.mp ok
      have tables : db.toTables = _ := Database.userRoleCreate_ok written
      refine ⟨⟨_, tables⟩, ?_⟩
      change Granted db.toTables
      rw [tables]
      intro u row email role role_row name
      obtain ⟨rfl, rfl⟩ := these u row email role role_row name
      have created := List.mem_append_right w.db.userRoles (List.mem_singleton.mpr
        (rfl : (⟨draws.grantId.value, u.id, role.id, none, none⟩ : UserRole) = _))
      exact Option.isSome_iff_exists.mp (List.find?_isSome.mpr ⟨_, created, by simp⟩)
  · rename_i missing
    cases ok
    refine ⟨⟨_, rfl⟩, fun u row email role role_row name => ?_⟩
    exact (missing u role (Database.userByEmail_eq_some.mpr ⟨row, email⟩)
      (Database.roleByName_eq_some.mpr ⟨role_row, name⟩)).elim

/-- The passes over permissions, roles and the administrator. -/
theorem seedRbac_settles {J : Tables → Prop}
    (frame : ∀ t permissions roles rolePermissions userRoles, J t →
      J { t with permissions, roles, rolePermissions, userRoles })
    (start : J w.db.toTables) (ok : (seedRbac draws).run w = (.ok (), w')) :
    J w'.db.toTables ∧ PermissionsDescribed w'.db.toTables ∧ RolesDescribed w'.db.toTables ∧
      RolesWired w'.db.toTables ∧ Granted w'.db.toTables := by
  obtain ⟨_, w₁, permissions, rest⟩ := Prog.run_bind_eq_ok.mp ok
  obtain ⟨_, w₂, roles, rest'⟩ := Prog.run_bind_eq_ok.mp rest
  obtain ⟨_, w₃, wiring, grant⟩ := Prog.run_bind_eq_ok.mp rest'
  have first := permissions_settle (fun t rows holds => frame t rows _ _ _ holds) start permissions
  have second := roles_settle (J := fun t => J t ∧ PermissionsDescribed t)
    (fun t rows holds => ⟨frame t _ rows _ _ holds.1, holds.2⟩) first roles
  have third := wiring_settles (J := fun t => (J t ∧ PermissionsDescribed t) ∧ RolesDescribed t)
    ?_ second wiring
  · obtain ⟨⟨userRoles, tables⟩, granted⟩ := grantSuperAdmin_ok grant
    obtain ⟨⟨⟨holds, permissions⟩, roles⟩, wired⟩ := third
    rw [tables] at granted ⊢
    exact ⟨frame _ _ _ _ userRoles holds, permissions, roles, wired, granted⟩
  · rintro t roleId parentId keys ⟨⟨holds, permissions⟩, roles⟩
    refine ⟨⟨frame _ _ _ _ _ holds, permissions⟩, fun r listed => ?_⟩
    refine (roles r listed).map (fun role => ?_) fun role _ described => ?_
    · split <;> rfl
    · split <;> exact described

/-! ## The org tree -/

theorem departments_settle {J : Tables → Prop}
    (frame : ∀ t departments, J t → J { t with departments }) (start : J w.db.toTables)
    (ok : (DEPARTMENTS.forM fun d => (commit (·.departmentUpsert (draws.orgIds d.1) TENANT d.1 d.2.1) :
      Service σ Unit)).run w = (.ok (), w')) :
    J w'.db.toTables ∧ DepartmentsNamed w'.db.toTables :=
  upserts_settle (fun _ => Database.departmentUpsert_upserts _ _ _ _) (by decide) (fun _ _ => rfl)
    (fun _ => rfl) frame start ok

theorem compartments_settle {J : Tables → Prop}
    (frame : ∀ t compartments, J t → J { t with compartments }) (start : J w.db.toTables)
    (ok : (COMPARTMENTS.forM fun c => (commit (·.compartmentUpsert (draws.orgIds c.1) TENANT c.1 c.2) :
      Service σ Unit)).run w = (.ok (), w')) :
    J w'.db.toTables ∧ CompartmentsNamed w'.db.toTables :=
  upserts_settle (fun _ => Database.compartmentUpsert_upserts _ _ _ _) (by decide) (fun _ _ => rfl)
    (fun _ => rfl) frame start ok

theorem departmentOrThrow_ok {slug : String} {d : Department} :
    (departmentOrThrow slug).run w = (.ok d, w') ↔
      (d ∈ w.db.departments ∧ d.tenant = TENANT ∧ d.slug = slug) ∧ w' = w := by
  unfold departmentOrThrow
  rw [Prog.run_bind_ok (run_query _ w), ← Database.departmentBySlug_eq_some]
  cases w.db.departmentBySlug TENANT slug with
  | none => simp
  | some d' => simp [eq_comm]

theorem wireParent_ok {seed : String × String × Option String}
    (ok : (wireParent seed).run w = (.ok (), w')) :
    (truthy seed.2.2 = none ∧ w' = w) ∨
      ∃ d ∈ w.db.departments, (d.tenant, d.slug) = (TENANT, seed.1) ∧
        ∃ p ∈ w.db.departments, p.tenant = TENANT ∧ truthy seed.2.2 = some p.slug ∧
          w'.db.toTables = { w.db.toTables with
            departments := w.db.departments.map (Department.place d.id p.id) } := by
  unfold wireParent at ok
  split at ok
  · rename_i root
    cases ok
    exact Or.inl ⟨root, rfl⟩
  · rename_i parentSlug named
    obtain ⟨d, _, found, rest⟩ := Prog.run_bind_eq_ok.mp ok
    obtain ⟨⟨d_row, d_tenant, d_slug⟩, rfl⟩ := departmentOrThrow_ok.mp found
    obtain ⟨p, _, found', update⟩ := Prog.run_bind_eq_ok.mp rest
    obtain ⟨⟨p_row, p_tenant, rfl⟩, rfl⟩ := departmentOrThrow_ok.mp found'
    obtain ⟨db, written, rfl⟩ := run_commit_eq_ok.mp update
    exact Or.inr ⟨d, d_row, by rw [d_tenant, d_slug], p, p_row, p_tenant, named,
      Database.departmentUpdate_ok written⟩

theorem slug_place (id parentId : String) (d : Department) :
    ((d.place id parentId).tenant, (d.place id parentId).slug) = (d.tenant, d.slug) := by
  unfold Department.place
  split <;> rfl

/-- Placing a department moves none to another id or slug. -/
theorem placed_place {departments : List Department} {seed : String × String × Option String}
    {row : Department} (placed : Placed departments seed row) (id parentId : String) :
    Placed (departments.map (Department.place id parentId)) seed row := by
  intro parentSlug named
  obtain ⟨p, p_row, tenant, slug, link⟩ := placed parentSlug named
  refine ⟨p.place id parentId, List.mem_map_of_mem p_row, ?_⟩
  unfold Department.place
  split <;> exact ⟨tenant, slug, link⟩

/-- A round leaves the other departments where they are. -/
theorem placed_place_other {db : Database} {seed other : String × String × Option String}
    {d : Department} {parentId : String} (d_row : d ∈ db.departments)
    (key : (d.tenant, d.slug) = (TENANT, seed.1)) (ne : other.1 ≠ seed.1)
    (carries : Carries (fun row : Department => (row.tenant, row.slug)) (TENANT, other.1)
      (Placed db.departments other) db.departments) :
    Carries (fun row : Department => (row.tenant, row.slug)) (TENANT, other.1)
      (Placed (db.departments.map (Department.place d.id parentId)) other)
      (db.departments.map (Department.place d.id parentId)) := by
  obtain ⟨row, row_row, same, placed⟩ := carries
  have apart : row.id ≠ d.id := by
    intro same_id
    rw [Database.department_eq row_row d_row same_id] at same
    exact ne (Prod.mk.inj (key.symm.trans same)).2.symm
  exact ⟨row, List.mem_map.mpr ⟨row, row_row, if_neg apart⟩, same, placed_place placed _ _⟩

theorem placing_settles {J : Tables → Prop}
    (frame : ∀ t departments, J t → J { t with departments })
    (start : J w.db.toTables ∧ DepartmentsNamed w.db.toTables)
    (ok : (DEPARTMENTS.forM wireParent).run w = (.ok (), w')) :
    (J w'.db.toTables ∧ DepartmentsNamed w'.db.toTables) ∧ DepartmentsPlaced w'.db.toTables := by
  refine Prog.run_forM_settles
    (J := fun v : World σ => J v.db.toTables ∧ DepartmentsNamed v.db.toTables)
    (Q := fun d v => Carries (fun row : Department => (row.tenant, row.slug)) (TENANT, d.1)
      (Placed v.db.departments d) v.db.departments) ?_ start ok
  rintro seed listed v v' ⟨holds, named⟩ round
  rcases wireParent_ok round with ⟨root, rfl⟩ | ⟨d, d_row, key, p, p_row, p_tenant, at_p, tables⟩
  · refine ⟨⟨holds, named⟩, (named seed listed).mono fun row _ parentSlug parent => ?_, ?_⟩
    · rw [root] at parent
      cases parent
    · exact fun _ _ carries => carries
  · have mine : Carries (fun row : Department => (row.tenant, row.slug)) (TENANT, seed.1)
        (Placed (v.db.departments.map (Department.place d.id p.id)) seed)
        (v.db.departments.map (Department.place d.id p.id)) := by
      refine ⟨d.place d.id p.id, List.mem_map_of_mem d_row, (slug_place _ _ _).trans key, ?_⟩
      intro parentSlug parent
      rw [at_p] at parent
      obtain rfl := Option.some.inj parent
      refine placed_place (fun parentSlug' same => ?_) d.id p.id p.slug at_p
      rw [at_p] at same
      obtain rfl := Option.some.inj same
      exact ⟨p, p_row, p_tenant, rfl, congrArg Department.parentId (if_pos rfl)⟩
    rw [tables]
    refine ⟨⟨frame _ _ holds, fun other listed' => ?_⟩, mine, fun other listed' carries => ?_⟩
    · refine (named other listed').map (slug_place d.id p.id) fun row _ name => ?_
      unfold Department.place
      split <;> exact name
    · by_cases same : other.1 = seed.1
      · have distinct : (DEPARTMENTS.map Prod.fst).Nodup := by decide
        rw [List.inj_on_of_nodup_map distinct listed' listed same]
        exact mine
      · exact placed_place_other d_row key same carries

/-! ## The memberships -/

/-- One upsert, where the user and the department are there. -/
theorem seedMembership_ok {seed : SeedUser} (lower : env.toLowerCase seed.email = seed.email)
    (ok : (seedMembership env seed).run w = (.ok (), w')) :
    w' = w ∧ Member w.db.toTables seed ∨
      ∃ u ∈ w.db.users, u.email = seed.email ∧
        ∃ d ∈ w.db.departments, (d.tenant = TENANT ∧ d.slug = seed.department) ∧
          w'.db.toTables = { w.db.toTables with
            userDepartments := upsert (fun m => (m.userId, m.departmentId)) (u.id, d.id)
              (fun m => { m with rank := if seed.department = "it" then .manager else .ic })
              ⟨u.id, d.id, if seed.department = "it" then .manager else .ic⟩
              w.db.userDepartments } := by
  unfold seedMembership at ok
  rw [Prog.run_bind_ok (run_query _ w), Prog.run_bind_ok (run_query _ w), lower] at ok
  split at ok
  · rename_i u d at_email at_slug
    obtain ⟨u_row, email⟩ := Database.userByEmail_eq_some.mp at_email
    obtain ⟨d_row, here⟩ := Database.departmentBySlug_eq_some.mp at_slug
    obtain ⟨db, written, rfl⟩ := run_commit_eq_ok.mp ok
    exact Or.inr ⟨u, u_row, email, d, d_row, here, (Database.userDepartmentUpsert_upserts _ _ _).ok written⟩
  · rename_i missing
    cases ok
    refine Or.inl ⟨rfl, fun u u_row email d d_row here => ?_⟩
    exact (missing u d (Database.userByEmail_eq_some.mpr ⟨u_row, email⟩)
      (Database.departmentBySlug_eq_some.mpr ⟨d_row, here⟩)).elim

theorem members_settle {J : Tables → Prop}
    (frame : ∀ t userDepartments, J t → J { t with userDepartments })
    (lower : ∀ seed ∈ SEED_USERS, env.toLowerCase seed.email = seed.email)
    (start : J w.db.toTables) (ok : (SEED_USERS.forM (seedMembership env)).run w = (.ok (), w')) :
    J w'.db.toTables ∧ ∀ seed ∈ SEED_USERS, Member w'.db.toTables seed := by
  refine Prog.run_forM_settles (J := fun v : World σ => J v.db.toTables)
    (Q := fun seed v => Member v.db.toTables seed) ?_ start ok
  intro seed listed v v' holds round
  rcases seedMembership_ok (lower seed listed) round with
    ⟨rfl, mine⟩ | ⟨u, u_row, email, d, d_row, here, tables⟩
  · exact ⟨holds, mine, fun _ _ member => member⟩
  · rw [tables]
    have mine : Member { v.db.toTables with
        userDepartments := upsert (fun m => (m.userId, m.departmentId)) (u.id, d.id)
          (fun m => { m with rank := if seed.department = "it" then .manager else .ic })
          ⟨u.id, d.id, if seed.department = "it" then .manager else .ic⟩
          v.db.userDepartments } seed := by
      intro u' u'_row email' d' d'_row here'
      obtain rfl := List.inj_on_of_nodup_map v.db.valid.user_email u'_row u_row
        (email'.trans email.symm)
      obtain rfl := List.inj_on_of_nodup_map v.db.valid.department_slug d'_row d_row
        (by rw [here.1, here.2, here'.1, here'.2])
      exact upsert_carries (fun _ => rfl) (fun _ => rfl) rfl rfl
    refine ⟨frame _ _ holds, mine, fun other listed' member => ?_⟩
    by_cases same : other.email = seed.email
    · rw [seedUsers_distinct seed listed other listed' same]
      exact mine
    · intro u' u'_row email' d' d'_row here'
      refine (member u' u'_row email' d' d'_row here').upsert (fun _ => rfl) fun same_key => ?_
      have same_user := Database.user_eq u'_row u_row (Prod.mk.inj same_key).1
      exact absurd (by rw [← email', same_user, email]) same

/-- The passes over the org tree. -/
theorem seedOrg_settles {J : Tables → Prop}
    (frame : ∀ t departments userDepartments compartments, J t →
      J { t with departments, userDepartments, compartments })
    (lower : ∀ seed ∈ SEED_USERS, env.toLowerCase seed.email = seed.email)
    (start : J w.db.toTables) (ok : (seedOrg env draws.orgIds).run w = (.ok (), w')) :
    J w'.db.toTables ∧ DepartmentsNamed w'.db.toTables ∧ DepartmentsPlaced w'.db.toTables ∧
      CompartmentsNamed w'.db.toTables ∧ ∀ seed ∈ SEED_USERS, Member w'.db.toTables seed := by
  obtain ⟨_, w₁, departments, rest⟩ := Prog.run_bind_eq_ok.mp ok
  obtain ⟨_, w₂, placing, rest'⟩ := Prog.run_bind_eq_ok.mp rest
  obtain ⟨_, w₃, compartments, members⟩ := Prog.run_bind_eq_ok.mp rest'
  have first := departments_settle (fun t rows holds => frame t rows _ _ holds) start departments
  have second := placing_settles (fun t rows holds => frame t rows _ _ holds) first placing
  have third := compartments_settle
    (J := fun t => (J t ∧ DepartmentsNamed t) ∧ DepartmentsPlaced t)
    (fun t rows holds => ⟨⟨frame t _ _ rows holds.1.1, holds.1.2⟩, holds.2⟩) second compartments
  obtain ⟨⟨⟨⟨holds, named⟩, placed⟩, compartments⟩, members⟩ := members_settle
    (J := fun t => ((J t ∧ DepartmentsNamed t) ∧ DepartmentsPlaced t) ∧ CompartmentsNamed t)
    (fun t rows holds => ⟨⟨⟨frame t _ rows _ holds.1.1.1, holds.1.1.2⟩, holds.1.2⟩, holds.2⟩)
    lower third members
  exact ⟨holds, named, placed, compartments, members⟩

/-- A run that completes leaves the tables settled. -/
theorem main_settles (lower : ∀ seed ∈ SEED_USERS, env.toLowerCase seed.email = seed.email)
    (ok : (main env processEnv draws).run w = (.ok (), w')) :
    Settled env processEnv w'.db.toTables := by
  obtain ⟨_, w₁, users, rest⟩ := Prog.run_bind_eq_ok.mp ok
  obtain ⟨_, w₂, rbac, org⟩ := Prog.run_bind_eq_ok.mp rest
  have first := seedRbac_settles (J := UsersSeeded env processEnv) (fun _ _ _ _ _ holds => holds)
    (seedUsers_settles lower users) rbac
  obtain ⟨⟨users, permissions, roles, wired, granted⟩, departments, placed, compartments, members⟩ :=
    seedOrg_settles
      (J := fun t => UsersSeeded env processEnv t ∧ PermissionsDescribed t ∧ RolesDescribed t ∧
        RolesWired t ∧ Granted t)
      (fun _ _ _ _ holds => holds) lower first org
  exact ⟨users, permissions, roles, wired, granted, departments, placed, compartments, members⟩

end

end Arac.Seed
