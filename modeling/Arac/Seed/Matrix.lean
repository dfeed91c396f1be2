/-
# Arac.Seed.Matrix -- the permission matrix

The lists of the seed define a matrix: a role confers its own permissions and those of its
parent (`Confers`), from a level on.  `Permitted` reads a check off the matrix and the
assignments.

* `Ruled` says that the tables give nothing beyond the matrix.  Each write of the seed keeps
  it so (`Ruled.seeded`), wherever the script stops, and then checks answer and allow nothing
  else (`Ruled.can`).
* `Enforced` says that they give all of it.  A run that completes brings it about
  (`main_enforces`), and with `Named` a check then answers what the matrix says
  (`Enforced.can`).  Later runs keep it where every call answers (`keeps_main`): one that stops
  between the deletion of a role's permissions and their creation leaves the role without.
-/
import Arac.Rbac.Service
import Arac.Seed.Writes

namespace Arac.Seed

open Arac.Theory Arac.Db Arac.Service Arac.Config Arac.Org
open Arac.Rbac (Scope scopeOf can Holds)

set_option autoImplicit false

/-- The seed gives the role the permission, directly or through its parent. -/
inductive Confers : String → String → Prop
  | own {r : SeedRole} {key : String} (listed : r ∈ ROLES) (held : key ∈ r.perms) :
      Confers r.name key
  | inherited {r : SeedRole} {name key : String} (listed : r ∈ ROLES)
      (parent : truthy r.parent = some name) (above : Confers name key) : Confers r.name key

/-- The user exists and is at the floor of the permission, and has been assigned a role that
confers it, in a scope that covers the target. -/
def Permitted (t : Tables) (userId permission : String) (target : Option Scope) : Prop :=
  (∃ u ∈ t.users, u.id = userId ∧ ∀ p ∈ PERMISSIONS, p.1 = permission → p.2.2 ≤ u.level) ∧
    ∃ a ∈ t.userRoles, a.userId = userId ∧ (scopeOf a).Covers target ∧
      ∃ role ∈ t.roles, role.id = a.roleId ∧ Confers role.name permission

/-- The role has no parent or that of the seed, and no permissions but those of the seed. -/
def Within (t : Tables) (r : SeedRole) (role : Role) : Prop :=
  (role.parentId = none ∨ NamesParent t.roles r role.parentId) ∧
    ∀ permissionId, (⟨role.id, permissionId⟩ : RolePermission) ∈ t.rolePermissions →
      ∃ p ∈ t.permissions, p.key ∈ r.perms ∧ p.id = permissionId

structure Ruled (t : Tables) : Prop where
  roles : ∀ role ∈ t.roles, ∃ r ∈ ROLES, r.name = role.name ∧ Within t r role
  floors : ∀ row ∈ t.permissions, ∀ p ∈ PERMISSIONS, p.1 = row.key → row.minLevel = p.2.2

structure Enforced (t : Tables) : Prop where
  permissions : PermissionsDescribed t
  roles : RolesDescribed t
  wired : RolesWired t

/-- Every role is one of the seed's. -/
def Named (t : Tables) : Prop := ∀ role ∈ t.roles, role.name ∈ ROLES.map SeedRole.name

/-- The tables that define what roles give are the same. -/
structure SameRules (t t' : Tables) : Prop where
  roles : t'.roles = t.roles
  rolePermissions : t'.rolePermissions = t.rolePermissions
  permissions : t'.permissions = t.permissions

theorem SameRules.refl (t : Tables) : SameRules t t := ⟨rfl, rfl, rfl⟩

theorem SameRules.trans {t t' t'' : Tables} (first : SameRules t t') (second : SameRules t' t'') :
    SameRules t t'' :=
  ⟨second.roles.trans first.roles, second.rolePermissions.trans first.rolePermissions,
    second.permissions.trans first.permissions⟩

theorem Named.congr {t t' : Tables} (named : Named t) (same : SameRules t t') : Named t' := by
  unfold Named
  rw [same.roles]
  exact named

theorem permissions_distinct {p p' : String × String × Int} (listed : p ∈ PERMISSIONS)
    (listed' : p' ∈ PERMISSIONS) (same : p.1 = p'.1) : p = p' :=
  List.inj_on_of_nodup_map (by decide : (PERMISSIONS.map Prod.fst).Nodup) listed listed' same

theorem roles_distinct {r r' : SeedRole} (listed : r ∈ ROLES) (listed' : r' ∈ ROLES)
    (same : r.name = r'.name) : r = r' :=
  List.inj_on_of_nodup_map (by decide : (ROLES.map SeedRole.name).Nodup) listed listed' same

/-- What is conferred is a permission of the seed. -/
theorem Confers.permission {name key : String} (confers : Confers name key) :
    ∃ p ∈ PERMISSIONS, p.1 = key := by
  have known : ∀ r ∈ ROLES, ∀ key ∈ r.perms, ∃ p ∈ PERMISSIONS, p.1 = key := by decide
  induction confers with
  | own listed held => exact known _ listed _ held
  | inherited _ _ _ ih => exact ih

/-- Parents are looked up by name and linked by id. -/
theorem NamesParent.mono {roles roles' : List Role} {r : SeedRole} {parentId : Option String}
    (names : NamesParent roles r parentId)
    (stays : ∀ name id, Carries Role.name name (fun p => some id = some p.id) roles →
      Carries Role.name name (fun p => some id = some p.id) roles') :
    NamesParent roles' r parentId := by
  unfold NamesParent at names ⊢
  split at names
  · exact names
  · obtain ⟨p, p_row, same, rfl⟩ := names
    exact stays _ p.id ⟨p, p_row, same, rfl⟩

/-! ## What the tables give -/

section

variable {db db' : Database}

namespace Ruled

theorem congr {t t' : Tables} (ruled : Ruled t) (same : SameRules t t') : Ruled t' := by
  obtain ⟨roles, rolePermissions, permissions⟩ := same
  constructor
  · unfold Within
    rw [roles, rolePermissions, permissions]
    exact ruled.roles
  · rw [permissions]
    exact ruled.floors

/-- No role carries what the seed does not confer. -/
theorem carries (ruled : Ruled db.toTables) {roleId key : String}
    (carries : Rbac.Carries db.toTables roleId key) :
    ∀ role ∈ db.roles, role.id = roleId → Confers role.name key := by
  induction carries with
  | own direct =>
      rintro role role_row rfl
      obtain ⟨p_row, held⟩ := Database.mem_permissionsOf.mp direct
      obtain ⟨r, listed, name, -, permissions⟩ := ruled.roles role role_row
      obtain ⟨p, row, key, same⟩ := permissions _ held
      rw [List.inj_on_of_nodup_map db.valid.permission_id row p_row same] at key
      exact name ▸ .own listed key
  | inherited link _ ih =>
      rintro role role_row rfl
      obtain ⟨role', role'_row, same, parent⟩ := link
      obtain rfl := Database.role_eq role'_row role_row same
      obtain ⟨r, listed, name, above, -⟩ := ruled.roles role' role_row
      rw [parent] at above
      rcases above with root | names
      · cases root
      · unfold NamesParent at names
        split at names
        · cases names
        · rename_i parentName named
          obtain ⟨p, p_row, rfl, id⟩ := names
          exact name ▸ .inherited listed named (ih p p_row (Option.some.inj id).symm)

/-- In the seed parents come before their children. -/
theorem acyclic (ruled : Ruled db.toTables) : Acyclic db.RoleParent := by
  refine .of_lt (fun id => (db.roleById id).elim 0 fun role =>
    (ROLES.map SeedRole.name).idxOf role.name) ?_
  rintro child parentId ⟨role, role_row, rfl, link⟩
  obtain ⟨r, listed, name, above, -⟩ := ruled.roles role role_row
  rw [link] at above
  rcases above with root | names
  · cases root
  · unfold NamesParent at names
    split at names
    · cases names
    · rename_i parentName named
      obtain ⟨p, p_row, rfl, id⟩ := names
      obtain rfl := Option.some.inj id
      have ordered : ∀ r ∈ ROLES, ∀ parent ∈ truthy r.parent,
          (ROLES.map SeedRole.name).idxOf parent < (ROLES.map SeedRole.name).idxOf r.name := by
        decide
      rw [Database.roleById_eq_some.mpr ⟨p_row, rfl⟩,
        Database.roleById_eq_some.mpr ⟨role_row, rfl⟩]
      simp only [Option.elim_some, ← name]
      exact ordered r listed p.name named

theorem holds_permitted (ruled : Ruled db.toTables) {userId permission : String}
    {target : Option Scope} (holds : Holds db.toTables userId permission target) :
    Permitted db.toTables userId permission target := by
  obtain ⟨⟨u, u_row, mine, clears⟩, a, a_row, owned, gives, covers⟩ := holds
  obtain ⟨minLevel, row, row_row, rfl, rfl⟩ := gives.floor
  obtain ⟨role, role_row, same⟩ := List.mem_map.mp (db.valid.userRole_role a a_row)
  refine ⟨⟨u, u_row, mine, fun p listed key => ?_⟩, a, a_row, owned, covers, role, role_row, same,
    ruled.carries gives role role_row same⟩
  rw [← ruled.floors row row_row p listed key]
  exact clears _ ⟨row, row_row, rfl, rfl⟩

end Ruled

namespace Enforced

theorem congr {t t' : Tables} (enforced : Enforced t) (same : SameRules t t') : Enforced t' := by
  obtain ⟨roles, rolePermissions, permissions⟩ := same
  obtain ⟨described, named, wired⟩ := enforced
  constructor
  · unfold PermissionsDescribed
    rwa [permissions]
  · unfold RolesDescribed
    rwa [roles]
  · unfold RolesWired Wired
    rwa [roles, rolePermissions, permissions]

/-- Every role carries what the seed confers. -/
theorem carries (enforced : Enforced db.toTables) {name key : String}
    (confers : Confers name key) :
    ∀ role ∈ db.roles, role.name = name → Rbac.Carries db.toTables role.id key := by
  induction confers with
  | own listed held =>
      intro role role_row name
      obtain ⟨-, permissions⟩ := (enforced.wired _ listed).all db.valid.role_name role_row name
      obtain ⟨p, p_listed, rfl⟩ := (Confers.own listed held).permission
      obtain ⟨row, row_row, key, -⟩ := enforced.permissions p p_listed
      have direct : row ∈ db.permissionsOf role.id := Database.mem_permissionsOf.mpr
        ⟨row_row, (permissions row.id).mpr ⟨row, row_row, key ▸ held, rfl⟩⟩
      exact key ▸ .own direct
  | inherited listed parent _ ih =>
      intro role role_row name
      obtain ⟨names, -⟩ := (enforced.wired _ listed).all db.valid.role_name role_row name
      rw [NamesParent, parent] at names
      obtain ⟨p, p_row, parentName, link⟩ := names
      exact .inherited ⟨role, role_row, rfl, link⟩ (ih p p_row parentName)

theorem permitted_holds (enforced : Enforced db.toTables) {userId permission : String}
    {target : Option Scope} (permitted : Permitted db.toTables userId permission target) :
    Holds db.toTables userId permission target := by
  obtain ⟨⟨u, u_row, mine, clears⟩, a, a_row, owned, covers, role, role_row, same, confers⟩ :=
    permitted
  refine ⟨⟨u, u_row, mine, ?_⟩, a, a_row, owned, same ▸ enforced.carries confers role role_row rfl,
    covers⟩
  rintro minLevel ⟨row, row_row, rfl, rfl⟩
  obtain ⟨p, listed, key⟩ := confers.permission
  obtain ⟨-, minLevel⟩ := (enforced.permissions p listed).all db.valid.permission_key row_row
    key.symm
  exact minLevel ▸ clears p listed key

/-- Where all roles are of the seed, nothing else is given. -/
theorem ruled (enforced : Enforced db.toTables) (named : Named db.toTables) :
    Ruled db.toTables := by
  constructor
  · intro role role_row
    obtain ⟨r, listed, name⟩ := List.mem_map.mp (named role role_row)
    obtain ⟨names, permissions⟩ :=
      (enforced.wired r listed).all db.valid.role_name role_row name.symm
    exact ⟨r, listed, name, Or.inr names, fun id held => (permissions id).mp held⟩
  · intro row row_row p listed key
    exact ((enforced.permissions p listed).all db.valid.permission_key row_row key.symm).2

end Enforced

/-! ## What the seed keeps -/

/-- Of the upserts of the seed, two change what roles give. -/
theorem SeedUpsert.rules (write : SeedUpsert db db') : SameRules db.toTables db'.toTables ∨
    (∃ p ∈ PERMISSIONS, ∃ id, db'.toTables = { db.toTables with
      permissions := upsert Permission.key p.1
        (fun row => { row with description := p.2.1, minLevel := p.2.2 })
        { id, key := p.1, description := p.2.1, minLevel := p.2.2 } db.permissions }) ∨
    ∃ r ∈ ROLES, ∃ id, db'.toTables = { db.toTables with
      roles := upsert Role.name r.name (fun row => { row with description := r.description })
        { id, name := r.name, description := r.description, parentId := none } db.roles } := by
  cases write with
  | permission listed id written => exact Or.inr (Or.inl ⟨_, listed, id, written⟩)
  | role listed id written => exact Or.inr (Or.inr ⟨_, listed, id, written⟩)
  | user _ _ _ _ _ written => exact Or.inl (by rw [written]; exact ⟨rfl, rfl, rfl⟩)
  | assignment _ written => exact Or.inl (by rw [written]; exact ⟨rfl, rfl, rfl⟩)
  | department _ _ written => exact Or.inl (by rw [written]; exact ⟨rfl, rfl, rfl⟩)
  | place _ _ written => exact Or.inl (by rw [written]; exact ⟨rfl, rfl, rfl⟩)
  | compartment _ _ written => exact Or.inl (by rw [written]; exact ⟨rfl, rfl, rfl⟩)
  | membership _ _ _ written => exact Or.inl (by rw [written]; exact ⟨rfl, rfl, rfl⟩)

namespace Ruled

/-- A permission that is there stays there under its id. -/
theorem permission (ruled : Ruled db.toTables) {p : String × String × Int} (listed : p ∈ PERMISSIONS)
    (id : String) : Ruled { db.toTables with
      permissions := upsert Permission.key p.1
        (fun row => { row with description := p.2.1, minLevel := p.2.2 })
        { id, key := p.1, description := p.2.1, minLevel := p.2.2 } db.permissions } := by
  constructor
  · intro role role_row
    obtain ⟨r, r_listed, name, parent, permissions⟩ := ruled.roles role role_row
    refine ⟨r, r_listed, name, parent, fun permissionId held => ?_⟩
    obtain ⟨row, row_row, key, same⟩ := permissions permissionId held
    have there : Carries Permission.key row.key (fun row => row.id = permissionId) db.permissions :=
      ⟨row, row_row, rfl, same⟩
    have stays : Carries Permission.key row.key (fun row => row.id = permissionId)
        (upsert Permission.key p.1 (fun row => { row with description := p.2.1, minLevel := p.2.2 })
          { id, key := p.1, description := p.2.1, minLevel := p.2.2 } db.permissions) :=
      there.upsert (fun _ => rfl) fun _ _ id => id
    obtain ⟨row', row'_row, key', same'⟩ := stays
    exact ⟨row', row'_row, key' ▸ key, same'⟩
  · refine upsert_forall (fun row here _ p' listed' key => ?_) (fun _ p' listed' key => ?_)
      ruled.floors
    · rw [permissions_distinct listed' listed (key.trans here)]
    · rw [permissions_distinct listed' listed key]

/-- A new role has no parent, and nothing refers to it yet. -/
theorem role (ruled : Ruled db.toTables) {r : SeedRole} (listed : r ∈ ROLES) {id : String}
    (written : db'.toTables = { db.toTables with
      roles := upsert Role.name r.name (fun row => { row with description := r.description })
        { id, name := r.name, description := r.description, parentId := none } db.roles }) :
    Ruled db'.toTables := by
  have roles : db'.roles = upsert Role.name r.name
      (fun row => { row with description := r.description })
      { id, name := r.name, description := r.description, parentId := none } db.roles :=
    congrArg Tables.roles written
  have rolePermissions : db'.rolePermissions = db.rolePermissions := by rw [written]
  have permissions : db'.permissions = db.permissions := by rw [written]
  have names : ∀ name id, Carries Role.name name (fun p => some id = some p.id) db.roles →
      Carries Role.name name (fun p => some id = some p.id) db'.roles := by
    intro name id carries
    rw [roles]
    exact carries.upsert (fun _ => rfl) fun _ _ same => same
  have unreferred : r.name ∉ db.roles.map Role.name → ∀ permissionId,
      (⟨id, permissionId⟩ : RolePermission) ∉ db.rolePermissions := by
    intro absent permissionId held
    have known := db.valid.rolePermission_role _ held
    have unique := db'.valid.role_id
    rw [Tables.roleIds, roles, upsert_of_not_mem absent, List.map_append] at unique
    exact List.disjoint_of_nodup_append unique known (List.mem_singleton.mpr rfl)
  have within : ∀ role ∈ db'.roles, ∃ r ∈ ROLES, r.name = role.name ∧
      (role.parentId = none ∨ NamesParent db'.roles r role.parentId) ∧
      ∀ permissionId, (⟨role.id, permissionId⟩ : RolePermission) ∈ db.rolePermissions →
        ∃ p ∈ db.permissions, p.key ∈ r.perms ∧ p.id = permissionId := by
    intro role role_row
    rw [roles] at role_row
    revert role
    refine upsert_forall (fun _ _ within => within) (fun absent => ?_) fun role role_row => ?_
    · exact ⟨r, listed, rfl, Or.inl rfl, fun permissionId held =>
        absurd held (unreferred absent permissionId)⟩
    · obtain ⟨r', listed', name, parent, held⟩ := ruled.roles role role_row
      exact ⟨r', listed', name, parent.imp_right fun above => above.mono names, held⟩
  constructor
  · unfold Within
    rwa [rolePermissions, permissions]
  · rw [permissions]
    exact ruled.floors

/-- A role gets the parent of the seed, and the others keep theirs. -/
theorem parent (ruled : Ruled db.toTables) {r : SeedRole} (listed : r ∈ ROLES) {role : Role}
    (role_row : role ∈ db.roles) (name : role.name = r.name) {parentId : Option String}
    (names : NamesParent db.roles r parentId) :
    Ruled { db.toTables with
      roles := db.roles.map fun row => if row.id = role.id then { row with parentId } else row } := by
  have stays : ∀ name id, Carries Role.name name (fun p => some id = some p.id) db.roles →
      Carries Role.name name (fun p => some id = some p.id)
        (db.roles.map fun row => if row.id = role.id then { row with parentId } else row) := by
    rintro name id ⟨p, p_row, same, found⟩
    refine ⟨_, List.mem_map_of_mem p_row, ?_, ?_⟩
    · split <;> exact same
    · split <;> exact found
  refine ⟨fun row' row'_row => ?_, ruled.floors⟩
  obtain ⟨row, row_row, rfl⟩ := List.mem_map.mp row'_row
  obtain ⟨r', listed', name', above, permissions⟩ := ruled.roles row row_row
  by_cases same : row.id = role.id
  · obtain rfl := Database.role_eq row_row role_row same
    obtain rfl := roles_distinct listed' listed (name'.trans name)
    rw [if_pos rfl]
    exact ⟨r', listed', name', Or.inr (names.mono stays), permissions⟩
  · rw [if_neg same]
    exact ⟨r', listed', name', above.imp_right fun names' => names'.mono stays, permissions⟩

/-- Without some of their permissions the roles give no more. -/
theorem reset (ruled : Ruled db.toTables) (roleId : String) :
    Ruled { db.toTables with
      rolePermissions := db.rolePermissions.filter fun rp => rp.roleId ≠ roleId } := by
  refine ⟨fun row row_row => ?_, ruled.floors⟩
  obtain ⟨r, listed, name, above, permissions⟩ := ruled.roles row row_row
  exact ⟨r, listed, name, above, fun permissionId held =>
    permissions permissionId (List.mem_of_mem_filter held)⟩

/-- A role gets permissions of the seed. -/
theorem confer (ruled : Ruled db.toTables) {r : SeedRole} (listed : r ∈ ROLES) {role : Role}
    (role_row : role ∈ db.roles) (name : role.name = r.name) :
    Ruled { db.toTables with
      rolePermissions := db.rolePermissions ++ (permissionsIn r.perms db.toTables).map fun p =>
        { roleId := role.id, permissionId := p.id } } := by
  refine ⟨fun row row_row => ?_, ruled.floors⟩
  obtain ⟨r', listed', name', above, permissions⟩ := ruled.roles row row_row
  refine ⟨r', listed', name', above, fun permissionId held => ?_⟩
  rcases List.mem_append.mp held with old | new
  · exact permissions permissionId old
  · obtain ⟨p, member, same⟩ := List.mem_map.mp new
    obtain ⟨same_id, rfl⟩ := RolePermission.mk.inj same
    obtain rfl := Database.role_eq row_row role_row same_id.symm
    obtain rfl := roles_distinct listed' listed (name'.trans name)
    obtain ⟨p_row, held⟩ := List.mem_filter.mp member
    exact ⟨p, p_row, of_decide_eq_true held, rfl⟩

/-- Every write of the seed, also of a run that stops. -/
theorem seeded (write : SeedWrite db db') (ruled : Ruled db.toTables) : Ruled db'.toTables := by
  rcases write with upsert | wiring
  · rcases upsert.rules with same | ⟨p, listed, id, written⟩ | ⟨r, listed, id, written⟩
    · exact ruled.congr same
    · exact written ▸ ruled.permission listed id
    · exact ruled.role listed written
  · cases wiring with
    | parent listed role_row name names written =>
        exact written ▸ ruled.parent listed role_row name names
    | reset roleId written => exact written ▸ ruled.reset roleId
    | confer listed role_row name written => exact written ▸ ruled.confer listed role_row name

end Ruled

theorem Named.seeded (write : SeedWrite db db') (named : Named db.toTables) :
    Named db'.toTables := by
  rcases write with upsert | wiring
  · rcases upsert.rules with same | ⟨p, listed, id, written⟩ | ⟨r, listed, id, written⟩
    · exact named.congr same
    · rw [written]
      exact named
    · rw [written]
      exact upsert_forall (fun _ _ known => known) (fun _ => List.mem_map_of_mem listed) named
  · cases wiring with
    | parent listed role_row name names written =>
        rw [written]
        intro row' row'_row
        obtain ⟨row, row_row, rfl⟩ := List.mem_map.mp row'_row
        split
        · exact named row row_row
        · exact named row row_row
    | reset roleId written => exact written ▸ named
    | confer listed role_row name written => exact written ▸ named

/-! ## What a script that nothing interrupts keeps -/

/-- Where the seed has been, its upserts find the rows as they would leave them. -/
theorem Enforced.upserted (write : SeedUpsert db db') (enforced : Enforced db.toTables) :
    Enforced db'.toTables := by
  rcases write.rules with same | ⟨p, listed, id, written⟩ | ⟨r, listed, id, written⟩
  · exact enforced.congr same
  · refine enforced.congr ?_
    rw [written, upsert_idle (enforced.permissions p listed) db.valid.permission_key]
    · exact ⟨rfl, rfl, rfl⟩
    · rintro row - ⟨description, minLevel⟩
      rw [← description, ← minLevel]
  · refine enforced.congr ?_
    rw [written, upsert_idle (enforced.roles r listed) db.valid.role_name]
    · exact ⟨rfl, rfl, rfl⟩
    · rintro row - description
      rw [← description]

section

variable {σ : Type}

/-- The permissions that a round deletes it creates again. -/
theorem keeps_wireRole {r : SeedRole} (listed : r ∈ ROLES) :
    (wireRole r : Service σ Unit).Keeps fun w => Enforced w.db.toTables := by
  intro w enforced
  rcases run_wireRole r w with same | ⟨role, role_row, name, parentId, names, written⟩
  · rwa [same]
  · obtain ⟨tables, perm⟩ := rewire_settled role_row name names (enforced.wired r listed) written
    rw [tables]
    refine ⟨enforced.permissions, enforced.roles, fun other listed' => ?_⟩
    refine (enforced.wired other listed').mono fun row ⟨parent, permissions⟩ => ⟨parent, ?_⟩
    exact fun permissionId => perm.mem_iff.trans (permissions permissionId)

/-- A run in which every call answers keeps what has been enforced, also where the script
refuses to go on. -/
theorem keeps_main (env : Env) (processEnv : ProcessEnv) (draws : SeedDraws) :
    (main env processEnv draws : Service σ Unit).Keeps fun w => Enforced w.db.toTables := by
  have upserts : ∀ {α : Type} {p : Service σ α}, Writes SeedUpsert p →
      p.Keeps fun w => Enforced w.db.toTables :=
    fun writes => writes.keeps (J := fun db => Enforced db.toTables) fun _ _ => Enforced.upserted
  refine .bind (.forM fun _ listed => upserts (writes_seedUser env processEnv draws _ listed)) fun _ => ?_
  refine .bind ?_ fun _ => upserts (writes_seedOrg env draws.orgIds)
  exact .bind (upserts (writes_permissions draws)) fun _ => .bind (upserts (writes_roles draws))
    fun _ => .bind (.forM fun _ listed => keeps_wireRole listed) fun _ =>
      upserts (writes_grantSuperAdmin draws)

end

/-- A run that completes enforces the matrix, whatever it has found. -/
theorem main_enforces {σ : Type} {env : Env} {processEnv : ProcessEnv} {draws : SeedDraws}
    {w w' : World σ} (ok : (main env processEnv draws).run w = (.ok (), w')) :
    Enforced w'.db.toTables := by
  obtain ⟨_, v, -, rest⟩ := Prog.run_bind_eq_ok.mp ok
  obtain ⟨_, u, rbac, org⟩ := Prog.run_bind_eq_ok.mp rest
  obtain ⟨-, permissions, roles, wired, -⟩ :=
    seedRbac_settles (J := fun _ => True) (fun _ _ _ _ _ _ => trivial) trivial rbac
  have kept := (writes_seedOrg (σ := σ) env draws.orgIds).keeps (J := fun db => Enforced db.toTables)
    (fun _ _ => Enforced.upserted) u ⟨permissions, roles, wired⟩
  rwa [org] at kept

/-! ## What checks answer -/

variable {σ : Type} {w : World σ}

/-- On ruled tables a check answers, and allows nothing beyond the matrix. -/
theorem Ruled.can (ruled : Ruled w.db.toTables) (userId permission : String)
    (target : Option Scope) :
    ∃ b, (can userId permission target).run w = (.ok b, w) ∧
      (b = true → Permitted w.db.toTables userId permission target) := by
  obtain ⟨b, run, meaning⟩ := Rbac.can_total ruled.acyclic userId permission target
  exact ⟨b, run, fun yes => ruled.holds_permitted (meaning.mp yes)⟩

/-- Where the matrix is enforced, a check answers what it says. -/
theorem Enforced.can (enforced : Enforced w.db.toTables) (named : Named w.db.toTables)
    (userId permission : String) (target : Option Scope) :
    ∃ b, (can userId permission target).run w = (.ok b, w) ∧
      (b = true ↔ Permitted w.db.toTables userId permission target) := by
  have ruled := enforced.ruled named
  obtain ⟨b, run, meaning⟩ := Rbac.can_total ruled.acyclic userId permission target
  exact ⟨b, run, meaning.trans ⟨ruled.holds_permitted, enforced.permitted_holds⟩⟩

end

end Arac.Seed
