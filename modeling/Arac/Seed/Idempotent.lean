/-
# Arac.Seed.Idempotent -- the second run of the seed changes nothing

On settled tables every write of the seed finds its row as it would leave it.  Two rounds
still write: a seed user gets a hash under a new salt, and the permissions of a role are
deleted and created again.

* `Again`: the tables are settled and unchanged since the second run began.
* `main_idempotent`: every round of the second run succeeds and keeps this.
-/
import Arac.Seed.Settled

namespace Arac.Seed

open Arac.Theory Arac.Sessions Arac.Db Arac.Service Arac.Config Arac.Org

set_option autoImplicit false

/-- A seed user with another hash, which verifies the same passwords. -/
structure Resalted (env : Env) (u u' : User) : Prop where
  seeded : ∃ seed ∈ SEED_USERS, u.email = seed.email
  columns : u' = { u with passwordHash := u'.passwordHash }
  verifies : ∀ password,
    env.argon2Verify u'.passwordHash password = env.argon2Verify u.passwordHash password

/-- The same rows, but for the salts of the seed users and the order in which role
permissions were created. -/
structure Unchanged (env : Env) (t t' : Tables) : Prop where
  users : List.Forall₂ (fun u u' => u' = u ∨ Resalted env u u') t.users t'.users
  departments : t'.departments = t.departments
  userDepartments : t'.userDepartments = t.userDepartments
  compartments : t'.compartments = t.compartments
  userCompartments : t'.userCompartments = t.userCompartments
  permissions : t'.permissions = t.permissions
  roles : t'.roles = t.roles
  rolePermissions : t'.rolePermissions.Perm t.rolePermissions
  userRoles : t'.userRoles = t.userRoles

theorem Resalted.trans {env : Env} {u u' u'' : User} (first : Resalted env u u')
    (second : Resalted env u' u'') : Resalted env u u'' where
  seeded := first.seeded
  columns := by
    have columns := second.columns
    rw [first.columns] at columns
    exact columns
  verifies password := (second.verifies password).trans (first.verifies password)

theorem forall₂_trans {α : Type} {R : α → α → Prop} (trans : ∀ a b c, R a b → R b c → R a c)
    {xs ys zs : List α} (first : List.Forall₂ R xs ys) (second : List.Forall₂ R ys zs) :
    List.Forall₂ R xs zs := by
  induction first generalizing zs with
  | nil => exact second
  | cons head tail ih =>
      cases second with
      | cons head' tail' => exact .cons (trans _ _ _ head head') (ih tail')

namespace Unchanged

variable {env : Env} {t t' t'' : Tables}

theorem refl (t : Tables) : Unchanged env t t where
  users := List.forall₂_same.mpr fun _ _ => Or.inl rfl
  departments := rfl
  userDepartments := rfl
  compartments := rfl
  userCompartments := rfl
  permissions := rfl
  roles := rfl
  rolePermissions := .refl _
  userRoles := rfl

theorem trans (first : Unchanged env t t') (second : Unchanged env t' t'') : Unchanged env t t'' where
  users := by
    refine forall₂_trans (fun u u' u'' before after => ?_) first.users second.users
    rcases before with rfl | before
    · exact after
    · rcases after with rfl | after
      · exact Or.inr before
      · exact Or.inr (before.trans after)
  departments := second.departments.trans first.departments
  userDepartments := second.userDepartments.trans first.userDepartments
  compartments := second.compartments.trans first.compartments
  userCompartments := second.userCompartments.trans first.userCompartments
  permissions := second.permissions.trans first.permissions
  roles := second.roles.trans first.roles
  rolePermissions := second.rolePermissions.trans first.rolePermissions
  userRoles := second.userRoles.trans first.userRoles

end Unchanged

/-! ## Writes that change nothing -/

section

variable {σ : Type} {env : Env} {processEnv : ProcessEnv} {draws : SeedDraws} {w : World σ}

theorem run_commit_idle {update : Database → Except PrismaError Database} {db : Database}
    (ok : update w.db = .ok db) (same : db.toTables = w.db.toTables) :
    (commit update : Service σ Unit).run w = (.ok (), w) := by
  have unchanged : db = w.db := by
    cases db
    cases h : w.db
    rw [h] at same
    cases same
    rfl
  rw [run_commit_ok update ok, unchanged]

/-- An upsert that finds the row as it would leave it. -/
theorem run_upsert_idle {ρ κ : Type} [DecidableEq κ] {T : Table ρ} {key : ρ → κ} {k : κ} {f : ρ → ρ}
    {row : ρ} {write : Database → Except PrismaError Database} {P : ρ → Prop}
    (upserts : UpsertsRow T key k f row write) (there : Carries key k P (T.rows w.db.toTables))
    (unique : ((T.rows w.db.toTables).map key).Nodup) (fixed : ∀ r, key r = k → P r → f r = r) :
    (commit write : Service σ Unit).run w = (.ok (), w) := by
  obtain ⟨db, ok⟩ := upserts.commits there.mem
  refine run_commit_idle ok ?_
  rw [upserts.ok ok, upsert_idle there unique fixed, T.put_rows]

theorem permission_idle (settled : Settled env processEnv w.db.toTables)
    {p : String × String × Int} (listed : p ∈ PERMISSIONS) (id : Cuid) :
    (commit (·.permissionUpsert id p.1 p.2.1 p.2.2) : Service σ Unit).run w = (.ok (), w) := by
  refine run_upsert_idle (Database.permissionUpsert_upserts _ _ _ _) (settled.permissions p listed)
    w.db.valid.permission_key ?_
  rintro row - ⟨description, minLevel⟩
  rw [← description, ← minLevel]

theorem role_idle (settled : Settled env processEnv w.db.toTables) {r : SeedRole}
    (listed : r ∈ ROLES) (id : Cuid) :
    (commit (·.roleUpsert id r.name r.description) : Service σ Unit).run w = (.ok (), w) := by
  refine run_upsert_idle (Database.roleUpsert_upserts _ _ _) (settled.roles r listed)
    w.db.valid.role_name ?_
  rintro row - description
  rw [← description]

theorem department_idle (settled : Settled env processEnv w.db.toTables)
    {d : String × String × Option String} (listed : d ∈ DEPARTMENTS) (id : Cuid) :
    (commit (·.departmentUpsert id TENANT d.1 d.2.1) : Service σ Unit).run w = (.ok (), w) := by
  refine run_upsert_idle (Database.departmentUpsert_upserts _ _ _ _) (settled.departments d listed)
    w.db.valid.department_slug ?_
  rintro row - name
  rw [← name]

theorem compartment_idle (settled : Settled env processEnv w.db.toTables)
    {c : String × String} (listed : c ∈ COMPARTMENTS) (id : Cuid) :
    (commit (·.compartmentUpsert id TENANT c.1 c.2) : Service σ Unit).run w = (.ok (), w) := by
  refine run_upsert_idle (Database.compartmentUpsert_upserts _ _ _ _)
    (settled.compartments c listed) w.db.valid.compartment_key ?_
  rintro row - name
  rw [← name]

/-- The assignment of the administrator is found. -/
theorem grantSuperAdmin_idle (settled : Settled env processEnv w.db.toTables) :
    (grantSuperAdmin draws).run w = (.ok (), w) := by
  unfold grantSuperAdmin
  rw [Prog.run_bind_ok (run_query _ w), Prog.run_bind_ok (run_query _ w)]
  split
  · rename_i u role at_email at_name
    obtain ⟨u_row, email⟩ := Database.userByEmail_eq_some.mp at_email
    obtain ⟨role_row, name⟩ := Database.roleByName_eq_some.mp at_name
    obtain ⟨a, there⟩ := settled.granted u u_row email role role_row name
    rw [Prog.run_bind_ok (run_query _ w), there]
    rfl
  · rfl

/-- A department is put where it is. -/
theorem wireParent_idle (settled : Settled env processEnv w.db.toTables)
    {seed : String × String × Option String} (listed : seed ∈ DEPARTMENTS) :
    (wireParent seed).run w = (.ok (), w) := by
  obtain ⟨d, d_row, key, placed⟩ := settled.placed seed listed
  unfold wireParent
  split
  · rfl
  · rename_i parentSlug named
    obtain ⟨p, p_row, p_tenant, p_slug, link⟩ := placed parentSlug named
    rw [Prog.run_bind_ok (departmentOrThrow_ok.mpr ⟨⟨d_row, Prod.mk.inj key⟩, rfl⟩),
      Prog.run_bind_ok (departmentOrThrow_ok.mpr ⟨⟨p_row, p_tenant, p_slug⟩, rfl⟩)]
    obtain ⟨db, ok⟩ := Database.departmentUpdate_commits (List.mem_map_of_mem d_row)
      (List.mem_map_of_mem p_row)
    refine run_commit_idle ok ?_
    have same : w.db.departments.map (Department.place d.id p.id) = w.db.departments := by
      refine (List.map_congr_left fun row row_row => ?_).trans (List.map_id _)
      unfold Department.place
      split
      · rename_i same
        rw [Database.department_eq row_row d_row same, ← link]
        rfl
      · rfl
    rw [Database.departmentUpdate_ok ok, same]

theorem seedMembership_idle (settled : Settled env processEnv w.db.toTables)
    (lower : ∀ seed ∈ SEED_USERS, env.toLowerCase seed.email = seed.email)
    {seed : SeedUser} (listed : seed ∈ SEED_USERS) :
    (seedMembership env seed).run w = (.ok (), w) := by
  unfold seedMembership
  rw [Prog.run_bind_ok (run_query _ w), Prog.run_bind_ok (run_query _ w), lower seed listed]
  split
  · rename_i u d at_email at_slug
    obtain ⟨u_row, email⟩ := Database.userByEmail_eq_some.mp at_email
    obtain ⟨d_row, here⟩ := Database.departmentBySlug_eq_some.mp at_slug
    have there := settled.members seed listed u u_row email d d_row here
    refine run_upsert_idle (Database.userDepartmentUpsert_upserts _ _ _) there
      w.db.valid.userDepartment_id ?_
    rintro row - rank
    rw [← rank]
  · rfl

end

/-! ## Writes that change salts and recreate rows -/

section

variable {σ : Type} {env : Env} {processEnv : ProcessEnv} {draws : SeedDraws} {w : World σ}

/-- Where the parent and the permissions are those of the seed, a round recreates the
rows it has deleted. -/
theorem rewire_settled {db db' : Database} {r : SeedRole} {role : Role} {parentId : Option String}
    (role_row : role ∈ db.roles) (name : role.name = r.name)
    (names : NamesParent db.roles r parentId)
    (wired : Carries Role.name r.name (Wired db.toTables r) db.roles)
    (tables : db'.toTables = rewire role.id parentId r.perms db.toTables) :
    db'.toTables = { db.toTables with rolePermissions := db'.rolePermissions } ∧
      db'.rolePermissions.Perm db.rolePermissions := by
  obtain ⟨parent, permissions⟩ := wired.all db.valid.role_name role_row name
  have same_parent : parentId = role.parentId := by
    unfold NamesParent at names parent
    cases named : truthy r.parent with
    | none =>
        rw [named] at names parent
        exact names.trans parent.symm
    | some name =>
        rw [named] at names parent
        obtain ⟨p, p_row, at_p, rfl⟩ := names
        obtain ⟨q, q_row, at_q, link⟩ := parent
        rw [link, List.inj_on_of_nodup_map db.valid.role_name p_row q_row (at_p.trans at_q.symm)]
  have roles : (rewire role.id parentId r.perms db.toTables).roles = db.roles := by
    refine (List.map_congr_left fun row row_row => ?_).trans (List.map_id _)
    split
    · rename_i same
      rw [Database.role_eq row_row role_row same, same_parent]
      rfl
    · rfl
  constructor
  · rw [tables]
    exact congrArg (fun roles => { rewire role.id parentId r.perms db.toTables with roles }) roles
  · refine (List.perm_ext_iff_of_nodup db'.valid.rolePermission_id.of_map
      db.valid.rolePermission_id.of_map).mpr fun rp => ?_
    rw [tables]
    obtain ⟨roleId, permissionId⟩ := rp
    by_cases same : roleId = role.id
    · refine Iff.trans ?_ (same ▸ permissions permissionId).symm
      simp [rewire, permissionsIn, same, and_assoc]
    · simp [rewire, same, Ne.symm same]

/-- A round that finds its role and the parent succeeds. -/
theorem wireRole_commits {r : SeedRole} {role : Role} {parentId : Option String}
    (role_row : role ∈ w.db.roles) (name : role.name = r.name)
    (names : NamesParent w.db.roles r parentId) (known : ∀ p ∈ parentId, p ∈ w.db.roleIds) :
    ∃ db, (wireRole r).run w = (.ok (), { w with db }) := by
  obtain ⟨updated, update⟩ := Database.roleUpdate_commits (List.mem_map_of_mem role_row) known
  unfold wireRole
  rw [Prog.run_bind_ok (roleOrThrow_ok.mpr ⟨⟨role_row, name⟩, rfl⟩),
    Prog.run_bind_ok (parentIdOf_ok.mpr ⟨names, rfl⟩), Prog.run_bind_ok (run_query _ w),
    Prog.run_bind_ok (run_commit_ok _ update), Prog.run_bind_ok
      (run_commit_ok (fun db : Database => .ok (db.rolePermissionDeleteMany role.id)) rfl)]
  split
  · have tables := Database.roleUpdate_ok update
    have roles : updated.roleIds = w.db.roleIds := by
      rw [tables]
      exact map_map_keeps Role.id (fun row => by split <;> rfl) w.db.roles
    have perms : (permissionsIn r.perms w.db.toTables).Sublist updated.permissions := by
      rw [tables]
      exact List.filter_sublist
    obtain ⟨created, create⟩ := Database.rolePermissionCreateMany_commits
      (show role.id ∈ (updated.rolePermissionDeleteMany role.id).roleIds from
        roles ▸ List.mem_map_of_mem role_row)
      (fun rp member => by simpa using List.of_mem_filter member) perms
    exact ⟨created, run_commit_ok _ create⟩
  · exact ⟨_, rfl⟩

/-- A role is wired as it was. -/
theorem wireRole_again (settled : Settled env processEnv w.db.toTables) {r : SeedRole}
    (listed : r ∈ ROLES) :
    ∃ db, (wireRole r).run w = (.ok (), { w with db }) ∧ Settled env processEnv db.toTables ∧
      Unchanged env w.db.toTables db.toTables := by
  obtain ⟨role, role_row, name, names, -⟩ := settled.wired r listed
  obtain ⟨db, run⟩ := wireRole_commits role_row name names (w.db.valid.role_parent role role_row)
  obtain ⟨role', role'_row, name', parentId, names', rewired⟩ := wireRole_ok run
  obtain ⟨tables, perm⟩ :=
    rewire_settled role'_row name' names' (settled.wired r listed) rewired
  refine ⟨db, run, ?_, ?_⟩
  · rw [tables]
    refine ⟨settled.users, settled.permissions, settled.roles, fun other listed' => ?_,
      settled.granted, settled.departments, settled.placed, settled.compartments, settled.members⟩
    refine (settled.wired other listed').mono fun row ⟨parent, permissions⟩ => ⟨parent, ?_⟩
    exact fun permissionId => perm.mem_iff.trans (permissions permissionId)
  · rw [tables]
    exact { Unchanged.refl w.db.toTables with rolePermissions := perm }

/-- Rewriting users without moving any to another id or email. -/
theorem Settled.users_map {t : Tables} (settled : Settled env processEnv t) {f : User → User}
    (ids : ∀ u, (f u).id = u.id) (emails : ∀ u, (f u).email = u.email)
    (users : UsersSeeded env processEnv { t with users := t.users.map f }) :
    Settled env processEnv { t with users := t.users.map f } where
  users := users
  permissions := settled.permissions
  roles := settled.roles
  wired := settled.wired
  granted := by
    intro u' member email
    obtain ⟨u, u_row, rfl⟩ := List.mem_map.mp member
    rw [ids]
    exact settled.granted u u_row (emails u ▸ email)
  departments := settled.departments
  placed := settled.placed
  compartments := settled.compartments
  members := by
    intro seed listed u' member email
    obtain ⟨u, u_row, rfl⟩ := List.mem_map.mp member
    rw [ids]
    exact settled.members seed listed u u_row (emails u ▸ email)

/-- Seeding a seeded row again changes the hash only. -/
theorem Reseeded.again {seed : SeedUser} {u : User} (reseeded : Reseeded env processEnv seed u)
    (listed : seed ∈ SEED_USERS) (email : u.email = seed.email)
    (verifies : ∀ password salt other,
      env.argon2Verify (env.argon2Hash password salt) other = true ↔ other = password)
    (salt : String) :
    Resalted env u (u.reseed seed (env.argon2Hash (passwordOf processEnv seed) salt)) := by
  obtain ⟨salt', same⟩ := reseeded
  refine ⟨⟨seed, listed, email⟩, ?_, fun password => ?_⟩
  · rw [← same]
    rfl
  · rw [← same]
    exact Bool.eq_iff_iff.mpr ((verifies _ salt password).trans (verifies _ salt' password).symm)

/-- A seed user is given the columns that it has, and a hash of the same password. -/
theorem seedUser_again (settled : Settled env processEnv w.db.toTables)
    (lower : ∀ seed ∈ SEED_USERS, env.toLowerCase seed.email = seed.email)
    (verifies : ∀ password salt other,
      env.argon2Verify (env.argon2Hash password salt) other = true ↔ other = password)
    {isProd : Bool} {seed : SeedUser} (listed : seed ∈ SEED_USERS)
    (accepted : ¬ Refused processEnv isProd seed) :
    ∃ db, (seedUser env processEnv draws isProd seed).run w = (.ok (), { w with db }) ∧
      Settled env processEnv db.toTables ∧ Unchanged env w.db.toTables db.toTables := by
  have there := settled.users seed listed
  obtain ⟨db, f, written, tables, at_seed, elsewhere⟩ := Database.userUpsert_there there.mem
    (draws.userIds seed.email) seed
    (env.argon2Hash (passwordOf processEnv seed) (draws.salts seed.email)) w.now
  have keeps : ∀ u, (f u).id = u.id ∧ (f u).email = u.email := by
    intro u
    by_cases same : u.email = seed.email
    · rw [at_seed u same]
      exact ⟨rfl, rfl⟩
    · rw [elsewhere u same]
      exact ⟨rfl, rfl⟩
  refine ⟨db, ?_, ?_, ?_⟩
  · rw [run_seedUser accepted, lower seed listed]
    exact run_commit_ok _ written
  · have users : UsersSeeded env processEnv db.toTables := fun other listed' =>
      (reseeded written).stays (seedUsers_distinct seed listed) listed' (settled.users other listed')
    rw [tables] at users ⊢
    exact settled.users_map (fun u => (keeps u).1) (fun u => (keeps u).2) users
  · rw [tables]
    refine { (Unchanged.refl w.db.toTables : Unchanged env _ _) with
      users := List.forall₂_map_right_iff.mpr (List.forall₂_same.mpr fun u u_row => ?_) }
    by_cases same : u.email = seed.email
    · have row := there.all w.db.valid.user_email u_row same
      rw [at_seed u same]
      exact Or.inr (row.again listed same verifies _)
    · exact Or.inl (elsewhere u same)

/-! ## The second run -/

/-- Since the second run began nothing has changed, and the tables are settled. -/
structure Again (env : Env) (processEnv : ProcessEnv) (w v : World σ) : Prop where
  settled : Settled env processEnv v.db.toTables
  unchanged : Unchanged env w.db.toTables v.db.toTables
  rest : v = { w with db := v.db }

/-- A round that writes. -/
theorem Again.round {v : World σ} (again : Again env processEnv w v) {p : Service σ Unit}
    (round : ∃ db, p.run v = (.ok (), { v with db }) ∧ Settled env processEnv db.toTables ∧
      Unchanged env v.db.toTables db.toTables) :
    ∃ v', p.run v = (.ok (), v') ∧ Again env processEnv w v' := by
  obtain ⟨db, run, settled, unchanged⟩ := round
  refine ⟨_, run, settled, again.unchanged.trans unchanged, ?_⟩
  rw [again.rest]

theorem seedRbac_again (draws : SeedDraws) {v : World σ} (again : Again env processEnv w v) :
    ∃ v', (seedRbac draws).run v = (.ok (), v') ∧ Again env processEnv w v' := by
  have permissions := Prog.run_forM_idle fun p listed =>
    permission_idle again.settled listed (draws.permissionIds p.1)
  have roles := Prog.run_forM_idle fun r listed =>
    role_idle again.settled listed (draws.roleIds r.name)
  obtain ⟨v', wiring, again'⟩ := Prog.run_forM_through (l := ROLES) (f := wireRole)
    (J := Again env processEnv w)
    (fun r listed u again => again.round (wireRole_again again.settled listed)) again
  refine ⟨v', ?_, again'⟩
  unfold seedRbac
  rw [Prog.run_bind_ok permissions, Prog.run_bind_ok roles, Prog.run_bind_ok wiring]
  exact grantSuperAdmin_idle again'.settled

theorem seedOrg_idle (settled : Settled env processEnv w.db.toTables)
    (lower : ∀ seed ∈ SEED_USERS, env.toLowerCase seed.email = seed.email) :
    (seedOrg env draws.orgIds).run w = (.ok (), w) := by
  have departments := Prog.run_forM_idle fun d listed =>
    department_idle settled listed (draws.orgIds d.1)
  have parents := Prog.run_forM_idle fun d listed => wireParent_idle settled listed
  have compartments := Prog.run_forM_idle fun c listed =>
    compartment_idle settled listed (draws.orgIds c.1)
  unfold seedOrg
  rw [Prog.run_bind_ok departments, Prog.run_bind_ok parents, Prog.run_bind_ok compartments]
  exact Prog.run_forM_idle fun seed listed => seedMembership_idle settled lower listed

/-- Run again with the same environment, over the tables that a completed run has left,
the seed completes and changes nothing but the salts of the seed users. -/
theorem main_idempotent {draws' : SeedDraws} {w₀ w₁ : World σ}
    (lower : ∀ seed ∈ SEED_USERS, env.toLowerCase seed.email = seed.email)
    (verifies : ∀ password salt other,
      env.argon2Verify (env.argon2Hash password salt) other = true ↔ other = password)
    (first : (main env processEnv draws).run w₀ = (.ok (), w₁)) (left : w.db = w₁.db) :
    ∃ w₂, (main env processEnv draws').run w = (.ok (), w₂) ∧
      Unchanged env w.db.toTables w₂.db.toTables ∧ w₂ = { w with db := w₂.db } := by
  have start : Again env processEnv w w :=
    ⟨left ▸ main_settles lower first, .refl _, rfl⟩
  obtain ⟨_, _, users₁, -⟩ := Prog.run_bind_eq_ok.mp first
  have accepted := seedUsers_accepted users₁
  obtain ⟨v, users, again⟩ := Prog.run_forM_through (l := SEED_USERS)
    (f := seedUser env processEnv draws' _) (J := Again env processEnv w)
    (fun seed listed u again => again.round
      (seedUser_again again.settled lower verifies listed (accepted seed listed))) start
  obtain ⟨v', rbac, again'⟩ := seedRbac_again draws' again
  refine ⟨v', ?_, again'.unchanged, again'.rest⟩
  unfold main
  rw [Prog.run_bind_ok users, Prog.run_bind_ok rbac]
  exact seedOrg_idle again'.settled lower

end

/-! ## A deployment that is started twice -/

/-- The password, each character after a `$`, and then the salt. -/
def markedHash (password salt : String) : String :=
  String.ofList (password.toList.flatMap (fun c => ['$', c]) ++ '.' :: salt.toList)

def unmark : List Char → List Char
  | '$' :: c :: rest => c :: unmark rest
  | _ => []

theorem unmark_marked (password salt : List Char) :
    unmark (password.flatMap (fun c => ['$', c]) ++ '.' :: salt) = password := by
  induction password with
  | nil => rfl
  | cons c rest ih => exact congrArg (List.cons c) ih

/-- The sample environment with hashes that can be read. -/
def seedingEnv : Env :=
  { sampleEnv with
    argon2Hash := markedHash
    argon2Verify hash password := unmark hash.toList = password.toList }

theorem seedingEnv_verifies (password salt other : String) :
    seedingEnv.argon2Verify (seedingEnv.argon2Hash password salt) other = true ↔
      other = password := by
  simp only [seedingEnv, markedHash, String.toList_ofList, unmark_marked, decide_eq_true_eq]
  rw [String.toList_inj, eq_comm]

/-- The ids and salts of one start of the service. -/
def seedingDraws (salt : String) : SeedDraws where
  userIds := naturalIds
  salts _ := salt
  permissionIds := naturalIds
  roleIds := naturalIds
  grantId := naturalIds "grant"
  orgIds := naturalIds

/-- The first start, on a deployment whose administrators have raised a floor. -/
def firstStart : Except ServiceError Unit × World InMemorySessions :=
  (main seedingEnv (fun _ => none) (seedingDraws "s1")).run (World.fresh .empty 0 staffed)

theorem main_idempotent_firstStart :
    ∃ w₂, (main seedingEnv (fun _ => none) (seedingDraws "s2")).run firstStart.2 = (.ok (), w₂) ∧
      Unchanged seedingEnv firstStart.2.db.toTables w₂.db.toTables ∧
      w₂ = { firstStart.2 with db := w₂.db } := by
  have first : (main seedingEnv (fun _ => none) (seedingDraws "s1")).run
      (World.fresh (σ := InMemorySessions) .empty 0 staffed) = (.ok (), firstStart.2) :=
    Prod.ext (show firstStart.1 = .ok () by decide +kernel) rfl
  exact main_idempotent (by decide +kernel) seedingEnv_verifies first rfl

end Arac.Seed
