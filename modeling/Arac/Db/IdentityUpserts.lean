/-
# Arac.Db.IdentityUpserts -- the writes of the seed to users, permissions and roles

As in `Arac.Db.Upserts`, a row that exists keeps its id and its key.  The `_ok` lemma of a
write that is not an upsert says which table has changed, and to what; the `_commits`
lemma says when the write cannot fail.
-/
import Arac.Db.Seed
import Arac.Db.Upserts
import Arac.Theory.Upsert

namespace Arac.Db

open Arac.Theory

set_option autoImplicit false

/-- The columns the seed gives a user. -/
def User.reseed (seed : SeedUser) (passwordHash : String) (u : User) : User :=
  { u with
    name := seed.name
    tenant := seed.tenant
    department := seed.department
    clearance := seed.clearance
    level := seed.level
    status := .active
    passwordHash }

/-- The row of a seed user that did not exist. -/
def SeedUser.row (seed : SeedUser) (id email passwordHash : String) (createdAt : Nat) : User :=
  { id, email, name := seed.name, passwordHash, tenant := seed.tenant, department := seed.department,
    clearance := seed.clearance, level := seed.level, status := .active, createdAt }

def Permission.describe (key description : String) (minLevel : Int) (p : Permission) : Permission :=
  if p.key = key then { p with description, minLevel } else p

namespace Database

/-! ## Users -/

/-- Rewrite the users without moving any to another id or email. -/
def usersMap (db : Database) (f : User → User) (ids : ∀ u, (f u).id = u.id)
    (emails : ∀ u, (f u).email = u.email) : Database where
  toTables := { db.toTables with users := db.users.map f }
  valid := by
    have same : (db.users.map f).map User.id = db.userIds := map_map_keeps _ ids _
    exact
      { db.valid with
        user_id := by simpa only [Tables.userIds, same] using db.valid.user_id
        user_email := by
          rw [map_map_keeps User.email emails]
          exact db.valid.user_email
        userDepartment_user := by
          simpa only [Tables.userIds, same] using db.valid.userDepartment_user
        userCompartment_user := by
          simpa only [Tables.userIds, same] using db.valid.userCompartment_user
        userRole_user := by simpa only [Tables.userIds, same] using db.valid.userRole_user }

/-- `user.upsert` by email. -/
def userUpsert (db : Database) (id : Cuid) (email : String) (seed : SeedUser)
    (passwordHash : String) (createdAt : Nat) : Except PrismaError Database :=
  if email ∈ db.users.map User.email then
    .ok (db.usersMap (fun u => if u.email = email then u.reseed seed passwordHash else u)
      (fun u => by split <;> rfl) (fun u => by split <;> rfl))
  else db.userCreate (seed.row id.value email passwordHash createdAt)

/-! ## Permissions -/

/-- `permission.upsert` by key. -/
def permissionUpsert (db : Database) (id : Cuid) (key description : String) (minLevel : Int) :
    Except PrismaError Database :=
  if there : key ∈ db.permissions.map Permission.key then
    .ok
      { toTables := { db.toTables with
          permissions := db.permissions.map (Permission.describe key description minLevel) }
        valid := by
          have same : (db.permissions.map (Permission.describe key description minLevel)).map
              Permission.id = db.permissions.map Permission.id :=
            map_map_keeps _ (fun p => by unfold Permission.describe; split <;> rfl) _
          exact
            { db.valid with
              permission_id := by simpa only [same] using db.valid.permission_id
              permission_key := by
                rw [map_map_keeps Permission.key fun p => by
                  unfold Permission.describe; split <;> rfl]
                exact db.valid.permission_key
              rolePermission_permission := by
                simpa only [same] using db.valid.rolePermission_permission } }
  else if fresh : id.value ∉ db.permissions.map Permission.id then
    .ok
      { toTables := { db.toTables with
          permissions := db.permissions ++ [{ id := id.value, key, description, minLevel }] }
        valid :=
          { db.valid with
            permission_id := nodup_map_append db.valid.permission_id fresh
            permission_key := nodup_map_append db.valid.permission_key there
            rolePermission_permission := fun rp member => by
              simpa using Or.inl (by simpa using db.valid.rolePermission_permission rp member) } }
  else .error .uniqueConstraint

/-! ## Roles -/

/-- Rewrite the roles without moving any to another id or name. -/
def rolesMap (db : Database) (f : Role → Role) (ids : ∀ r, (f r).id = r.id)
    (names : ∀ r, (f r).name = r.name)
    (parents : ∀ r ∈ db.roles, ∀ p ∈ (f r).parentId, p ∈ db.roleIds) : Database where
  toTables := { db.toTables with roles := db.roles.map f }
  valid := by
    have same : (db.roles.map f).map Role.id = db.roleIds := map_map_keeps _ ids _
    exact
      { db.valid with
        role_id := by simpa only [Tables.roleIds, same] using db.valid.role_id
        role_cuid := by simpa only [Tables.roleIds, same] using db.valid.role_cuid
        role_name := by
          rw [map_map_keeps Role.name names]
          exact db.valid.role_name
        role_parent := by
          intro r member p at_r
          obtain ⟨s, s_row, rfl⟩ := List.mem_map.mp member
          simpa only [Tables.roleIds, same] using parents s s_row p at_r
        rolePermission_role := by
          simpa only [Tables.roleIds, same] using db.valid.rolePermission_role
        userRole_role := by simpa only [Tables.roleIds, same] using db.valid.userRole_role }

/-- `role.upsert` by name. -/
def roleUpsert (db : Database) (id : Cuid) (name description : String) :
    Except PrismaError Database :=
  if there : name ∈ db.roles.map Role.name then
    .ok (db.rolesMap (fun r => if r.name = name then { r with description } else r)
      (fun r => by split <;> rfl) (fun r => by split <;> rfl)
      (fun r r_row p at_r => db.valid.role_parent r r_row p (by split at at_r <;> exact at_r)))
  else if fresh : id.value ∉ db.roleIds then
    .ok
      { toTables := { db.toTables with
          roles := db.roles ++ [{ id := id.value, name, description, parentId := none }] }
        valid :=
          { db.valid with
            role_id := nodup_map_append db.valid.role_id fresh
            role_cuid := by
              simpa [Tables.roleIds] using
                ⟨by simpa [Tables.roleIds] using db.valid.role_cuid, id.nonempty⟩
            role_name := nodup_map_append db.valid.role_name there
            role_parent := by
              intro r member p at_r
              rcases List.mem_append.mp member with old | new
              · simpa [Tables.roleIds] using Or.inl (db.valid.role_parent r old p at_r)
              · obtain rfl := List.mem_singleton.mp new
                cases at_r
            rolePermission_role := fun rp member => by
              simpa [Tables.roleIds] using Or.inl (db.valid.rolePermission_role rp member)
            userRole_role := fun a member => by
              simpa [Tables.roleIds] using Or.inl (db.valid.userRole_role a member) } }
  else .error .uniqueConstraint

/-- `role.update` of the parent. -/
def roleUpdate (db : Database) (id : String) (parentId : Option String) :
    Except PrismaError Database :=
  if id ∉ db.roleIds then .error .recordNotFound
  else if known : ∀ p ∈ parentId, p ∈ db.roleIds then
    .ok (db.rolesMap (fun r => if r.id = id then { r with parentId } else r)
      (fun r => by split <;> rfl) (fun r => by split <;> rfl)
      (fun r r_row p at_r => by
        split at at_r
        · exact known p at_r
        · exact db.valid.role_parent r r_row p at_r))
  else .error .foreignKey

/-- `rolePermission.deleteMany` by role. -/
def rolePermissionDeleteMany (db : Database) (roleId : String) : Database where
  toTables := { db.toTables with
    rolePermissions := db.rolePermissions.filter fun rp => rp.roleId ≠ roleId }
  valid :=
    { db.valid with
      rolePermission_id := (List.filter_sublist.map _).nodup db.valid.rolePermission_id
      rolePermission_role := fun rp member =>
        db.valid.rolePermission_role rp (List.mem_of_mem_filter member)
      rolePermission_permission := fun rp member =>
        db.valid.rolePermission_permission rp (List.mem_of_mem_filter member) }

/-- `rolePermission.createMany`. -/
def rolePermissionCreateMany (db : Database) (rows : List RolePermission) :
    Except PrismaError Database :=
  if distinct : ((db.rolePermissions ++ rows).map fun rp => (rp.roleId, rp.permissionId)).Nodup then
    if refers : ∀ rp ∈ rows, rp.roleId ∈ db.roleIds ∧
        rp.permissionId ∈ db.permissions.map Permission.id then
      .ok
        { toTables := { db.toTables with rolePermissions := db.rolePermissions ++ rows }
          valid :=
            { db.valid with
              rolePermission_id := distinct
              rolePermission_role := by
                intro rp member
                rcases List.mem_append.mp member with old | new
                · exact db.valid.rolePermission_role rp old
                · exact (refers rp new).1
              rolePermission_permission := by
                intro rp member
                rcases List.mem_append.mp member with old | new
                · exact db.valid.rolePermission_permission rp old
                · exact (refers rp new).2 } }
    else .error .foreignKey
  else .error .uniqueConstraint

/-! ## What the writes change -/

theorem userUpsert_upserts (id : Cuid) (email : String) (seed : SeedUser) (passwordHash : String)
    (createdAt : Nat) :
    UpsertsRow .users User.email email (User.reseed seed passwordHash)
      (seed.row id.value email passwordHash createdAt)
      (·.userUpsert id email seed passwordHash createdAt) := by
  refine .of_cases (fun _ => rfl) rfl (fun db there => ⟨_, if_pos there, rfl⟩)
    fun db db' absent ok => ?_
  rw [userUpsert, if_neg (show email ∉ db.users.map User.email from absent)] at ok
  exact (userCreate_ok ok).1

theorem permissionUpsert_upserts (id : Cuid) (key description : String) (minLevel : Int) :
    UpsertsRow .permissions Permission.key key (fun p => { p with description, minLevel })
      { id := id.value, key, description, minLevel }
      (·.permissionUpsert id key description minLevel) := by
  refine .of_cases (fun _ => rfl) rfl (fun db there => ⟨_, dif_pos there, rfl⟩)
    fun db db' absent ok => ?_
  rw [permissionUpsert, dif_neg (show key ∉ db.permissions.map Permission.key from absent)] at ok
  split at ok
  · cases ok
    rfl
  · cases ok

theorem roleUpsert_upserts (id : Cuid) (name description : String) :
    UpsertsRow .roles Role.name name (fun r => { r with description })
      { id := id.value, name, description, parentId := none }
      (·.roleUpsert id name description) := by
  refine .of_cases (fun _ => rfl) rfl (fun db there => ⟨_, dif_pos there, rfl⟩)
    fun db db' absent ok => ?_
  rw [roleUpsert, dif_neg (show name ∉ db.roles.map Role.name from absent)] at ok
  split at ok
  · cases ok
    rfl
  · cases ok

section

variable {db db' : Database}

/-- Of a user who is there, only the columns of the seed change. -/
theorem userUpsert_there {email : String} (there : email ∈ db.users.map User.email) (id : Cuid)
    (seed : SeedUser) (passwordHash : String) (createdAt : Nat) :
    ∃ db' f, db.userUpsert id email seed passwordHash createdAt = .ok db' ∧
      db'.toTables = { db.toTables with users := db.users.map f } ∧
      (∀ u, u.email = email → f u = u.reseed seed passwordHash) ∧ ∀ u, u.email ≠ email → f u = u :=
  ⟨_, _, if_pos there, rfl, fun _ same => if_pos same, fun _ other => if_neg other⟩

theorem roleUpdate_ok {id : String} {parentId : Option String}
    (ok : db.roleUpdate id parentId = .ok db') :
    db'.toTables = { db.toTables with
      roles := db.roles.map fun r => if r.id = id then { r with parentId } else r } := by
  unfold roleUpdate at ok
  split at ok
  · cases ok
  · split at ok
    · cases ok
      rfl
    · cases ok

theorem rolePermissionCreateMany_ok {rows : List RolePermission}
    (ok : db.rolePermissionCreateMany rows = .ok db') :
    db'.toTables = { db.toTables with rolePermissions := db.rolePermissions ++ rows } := by
  unfold rolePermissionCreateMany at ok
  split at ok
  · split at ok
    · cases ok
      rfl
    · cases ok
  · cases ok

/-- Permissions of a role that has none. -/
theorem rolePermissionCreateMany_commits {roleId : String} {perms : List Permission}
    (known : roleId ∈ db.roleIds) (none : ∀ rp ∈ db.rolePermissions, rp.roleId ≠ roleId)
    (rows : perms.Sublist db.permissions) :
    ∃ db', db.rolePermissionCreateMany
      (perms.map fun p => { roleId, permissionId := p.id }) = .ok db' := by
  have distinct : ((db.rolePermissions ++
      perms.map fun p => (⟨roleId, p.id⟩ : RolePermission)).map
        fun rp => (rp.roleId, rp.permissionId)).Nodup := by
    rw [List.map_append, List.map_map]
    refine List.nodup_append.mpr ⟨db.valid.rolePermission_id, ?_, ?_⟩
    · have ids : ((perms.map Permission.id).map (Prod.mk roleId)).Nodup :=
        ((rows.map _).nodup db.valid.permission_id).map (Prod.mk_right_injective roleId)
      rwa [List.map_map] at ids
    · intro pair old pair' new same
      obtain ⟨rp, member, rfl⟩ := List.mem_map.mp old
      obtain ⟨p, -, rfl⟩ := List.mem_map.mp new
      exact none rp member (Prod.mk.inj same).1
  have refers : ∀ rp ∈ perms.map fun p => (⟨roleId, p.id⟩ : RolePermission),
      rp.roleId ∈ db.roleIds ∧ rp.permissionId ∈ db.permissions.map Permission.id := by
    intro rp new
    obtain ⟨p, member, rfl⟩ := List.mem_map.mp new
    exact ⟨known, List.mem_map_of_mem (rows.subset member)⟩
  exact ⟨_, by rw [rolePermissionCreateMany, dif_pos distinct, dif_pos refers]⟩

theorem roleUpdate_commits {id : String} {parentId : Option String} (there : id ∈ db.roleIds)
    (known : ∀ p ∈ parentId, p ∈ db.roleIds) : ∃ db', db.roleUpdate id parentId = .ok db' :=
  ⟨_, by rw [roleUpdate, if_neg (not_not_intro there), dif_pos known]⟩

end

end Database

end Arac.Db
