/-
# Arac.Db.Updates -- the writes of the services

Each write either fails with the code the database client throws (`P2002` for a
unique key, `P2003` for a dangling reference, `P2025` for a missing row) and
leaves the database as it was, or commits.  The result carries the proof that the
schema still holds, so no caller has to re-establish it.  The lemma after each
write says which table has changed, and to what.
-/
import Arac.Db.Queries

namespace Arac.Db

open Arac.Theory

set_option autoImplicit false

inductive PrismaError where
  | uniqueConstraint
  | foreignKey
  | recordNotFound
  deriving DecidableEq

def PrismaError.code : PrismaError → String
  | .uniqueConstraint => "P2002"
  | .foreignKey => "P2003"
  | .recordNotFound => "P2025"

/-- The `data` of `user.update`: absent columns stay. -/
structure UserUpdate where
  tenant : Option String := none
  department : Option String := none
  clearance : Option Int := none
  level : Option Int := none
  passwordHash : Option String := none

def User.update (u : User) (data : UserUpdate) : User :=
  { u with
    tenant := data.tenant.getD u.tenant
    department := data.department.getD u.department
    clearance := data.clearance.getD u.clearance
    level := data.level.getD u.level
    passwordHash := data.passwordHash.getD u.passwordHash }

/-- A table with one more row keeps a key that the row does not repeat. -/
theorem nodup_map_append {ρ κ : Type} {key : ρ → κ} {rows : List ρ} {row : ρ}
    (nodup : (rows.map key).Nodup) (fresh : key row ∉ rows.map key) :
    ((rows ++ [row]).map key).Nodup := by
  rw [List.map_append, List.map_singleton]
  refine List.nodup_append.mpr ⟨nodup, List.nodup_singleton _, ?_⟩
  rintro k listed k' last rfl
  rw [List.mem_singleton.mp last] at listed
  exact fresh listed

namespace Database

/-! ## Users -/

/-- `user.create`. -/
def userCreate (db : Database) (row : User) : Except PrismaError Database :=
  if fresh : row.id ∉ db.userIds ∧ row.email ∉ db.users.map User.email then
    .ok
      { toTables := { db.toTables with users := db.users ++ [row] }
        valid :=
          { db.valid with
            user_id := nodup_map_append db.valid.user_id fresh.1
            user_email := nodup_map_append db.valid.user_email fresh.2
            userDepartment_user := fun m member => by
              simpa [Tables.userIds] using Or.inl (db.valid.userDepartment_user m member)
            userCompartment_user := fun c member => by
              simpa [Tables.userIds] using Or.inl (db.valid.userCompartment_user c member)
            userRole_user := fun a member => by
              simpa [Tables.userIds] using Or.inl (db.valid.userRole_user a member) } }
  else .error .uniqueConstraint

/-- `user.update` by id. -/
def userUpdate (db : Database) (id : String) (data : UserUpdate) : Except PrismaError Database :=
  if id ∈ db.userIds then
    .ok
      { toTables := { db.toTables with
          users := db.users.map fun u => if u.id = id then u.update data else u }
        valid := by
          have ids : (db.users.map fun u => if u.id = id then u.update data else u).map User.id =
              db.users.map User.id := by
            rw [List.map_map]
            apply List.map_congr_left
            intro u _
            simp only [Function.comp]
            split <;> rfl
          have emails : (db.users.map fun u => if u.id = id then u.update data else u).map
              User.email = db.users.map User.email := by
            rw [List.map_map]
            apply List.map_congr_left
            intro u _
            simp only [Function.comp]
            split <;> rfl
          exact
            { db.valid with
              user_id := by simpa only [Tables.userIds, ids] using db.valid.user_id
              user_email := by simpa only [emails] using db.valid.user_email
              userDepartment_user := by
                simpa only [Tables.userIds, ids] using db.valid.userDepartment_user
              userCompartment_user := by
                simpa only [Tables.userIds, ids] using db.valid.userCompartment_user
              userRole_user := by simpa only [Tables.userIds, ids] using db.valid.userRole_user } }
  else .error .recordNotFound

/-! ## Role assignments -/

/-- `userRole.create`. -/
def userRoleCreate (db : Database) (row : UserRole) : Except PrismaError Database :=
  if fresh : row.id ∉ db.userRoles.map UserRole.id ∧
      ∀ key ∈ row.uniqueKey.toList, key ∉ db.userRoles.filterMap UserRole.uniqueKey then
    if refers : row.userId ∈ db.userIds ∧ row.roleId ∈ db.roleIds then
      .ok
        { toTables := { db.toTables with userRoles := db.userRoles ++ [row] }
          valid :=
            { db.valid with
              userRole_id := nodup_map_append db.valid.userRole_id fresh.1
              userRole_unique := by
                rw [List.filterMap_append]
                refine List.nodup_append.mpr ⟨db.valid.userRole_unique, ?_, ?_⟩
                · cases at_row : row.uniqueKey <;> simp [at_row]
                · rintro key listed key' last rfl
                  exact fresh.2 key (by simpa using last) listed
              userRole_user := by
                intro a member
                rcases List.mem_append.mp member with old | new
                · exact db.valid.userRole_user a old
                · exact List.mem_singleton.mp new ▸ refers.1
              userRole_role := by
                intro a member
                rcases List.mem_append.mp member with old | new
                · exact db.valid.userRole_role a old
                · exact List.mem_singleton.mp new ▸ refers.2 } }
    else .error .foreignKey
  else .error .uniqueConstraint

/-- `userRole.deleteMany` by all columns but the id. -/
def userRoleDeleteMany (db : Database) (userId roleId : String)
    (scopeTenant scopeDepartment : Option String) : Database :=
  let kept := db.userRoles.filter fun a => ¬ (a.userId = userId ∧ a.roleId = roleId ∧
    a.scopeTenant = scopeTenant ∧ a.scopeDepartment = scopeDepartment)
  { toTables := { db.toTables with userRoles := kept }
    valid :=
      { db.valid with
        userRole_id := (List.filter_sublist.map UserRole.id).nodup db.valid.userRole_id
        userRole_unique :=
          (List.filter_sublist.filterMap UserRole.uniqueKey).nodup db.valid.userRole_unique
        userRole_user := fun a member =>
          db.valid.userRole_user a (List.mem_of_mem_filter member)
        userRole_role := fun a member =>
          db.valid.userRole_role a (List.mem_of_mem_filter member) } }

/-! ## The org tables -/

/-- `department.create`. -/
def departmentCreate (db : Database) (id : Cuid) (tenant slug name : String)
    (parentId : Option String) : Except PrismaError Database :=
  if fresh : id.value ∉ db.departmentIds ∧
      (tenant, slug) ∉ db.departments.map fun d => (d.tenant, d.slug) then
    if refers : ∀ p ∈ parentId.toList, p ∈ db.departmentIds then
      .ok
        { toTables := { db.toTables with
            departments := db.departments ++ [{ id := id.value, tenant, slug, name, parentId }] }
          valid :=
            { db.valid with
              department_id := nodup_map_append db.valid.department_id fresh.1
              department_cuid := by
                simpa [Tables.departmentIds] using
                  ⟨by simpa [Tables.departmentIds] using db.valid.department_cuid,
                    id.nonempty⟩
              department_slug := nodup_map_append db.valid.department_slug fresh.2
              department_parent := by
                intro d member p at_d
                have known : p ∈ db.departmentIds := by
                  rcases List.mem_append.mp member with old | new
                  · exact db.valid.department_parent d old p at_d
                  · rw [List.mem_singleton.mp new] at at_d
                    exact refers p (by simpa using at_d)
                simpa [Tables.departmentIds] using Or.inl known
              userDepartment_department := fun m member => by
                simpa [Tables.departmentIds] using
                  Or.inl (db.valid.userDepartment_department m member) } }
    else .error .foreignKey
  else .error .uniqueConstraint

/-- `compartment.create`. -/
def compartmentCreate (db : Database) (id : Cuid) (tenant key name : String) :
    Except PrismaError Database :=
  if fresh : id.value ∉ db.compartmentIds ∧
      (tenant, key) ∉ db.compartments.map fun c => (c.tenant, c.key) then
    .ok
      { toTables := { db.toTables with
          compartments := db.compartments ++ [{ id := id.value, tenant, key, name }] }
        valid :=
          { db.valid with
            compartment_id := nodup_map_append db.valid.compartment_id fresh.1
            compartment_key := nodup_map_append db.valid.compartment_key fresh.2
            userCompartment_compartment := fun c member => by
              simpa [Tables.compartmentIds] using
                Or.inl (db.valid.userCompartment_compartment c member) } }
  else .error .uniqueConstraint

/-- The transaction that replaces a user's memberships. -/
def setUserDepartments (db : Database) (userId : String) (rows : List (String × DeptRank)) :
    Except PrismaError Database :=
  let kept := db.userDepartments.filter fun m => m.userId ≠ userId
  let created := rows.map fun row => ({ userId, departmentId := row.1, rank := row.2 } : UserDepartment)
  if distinct : (rows.map Prod.fst).Nodup then
    if refers : (rows ≠ [] → userId ∈ db.userIds) ∧ ∀ row ∈ rows, row.1 ∈ db.departmentIds then
      .ok
        { toTables := { db.toTables with userDepartments := kept ++ created }
          valid :=
            { db.valid with
              userDepartment_id := by
                rw [List.map_append]
                refine List.nodup_append.mpr ⟨?_, ?_, ?_⟩
                · exact (List.filter_sublist.map _).nodup db.valid.userDepartment_id
                · rw [List.map_map]
                  apply List.Nodup.of_map Prod.snd
                  rwa [List.map_map]
                · -- the kept rows are other users'
                  rintro k listed k' new rfl
                  obtain ⟨m, member, rfl⟩ := List.mem_map.mp listed
                  simp only [created, List.map_map, List.mem_map] at new
                  obtain ⟨row, -, same⟩ := new
                  have other := (List.mem_filter.mp member).2
                  simp only [decide_eq_true_eq] at other
                  exact other (congrArg Prod.fst same).symm
              userDepartment_user := by
                intro m member
                rcases List.mem_append.mp member with old | new
                · exact db.valid.userDepartment_user m (List.mem_of_mem_filter old)
                · obtain ⟨row, listed, rfl⟩ := List.mem_map.mp new
                  exact refers.1 (List.ne_nil_of_mem listed)
              userDepartment_department := by
                intro m member
                rcases List.mem_append.mp member with old | new
                · exact db.valid.userDepartment_department m (List.mem_of_mem_filter old)
                · obtain ⟨row, listed, rfl⟩ := List.mem_map.mp new
                  exact refers.2 row listed } }
    else .error .foreignKey
  else .error .uniqueConstraint

/-- The transaction that replaces a user's compartments. -/
def setUserCompartments (db : Database) (userId : String) (compartmentIds : List String) :
    Except PrismaError Database :=
  let kept := db.userCompartments.filter fun c => c.userId ≠ userId
  let created := compartmentIds.map fun compartmentId =>
    ({ userId, compartmentId } : UserCompartment)
  if distinct : compartmentIds.Nodup then
    if refers : (compartmentIds ≠ [] → userId ∈ db.userIds) ∧
        ∀ id ∈ compartmentIds, id ∈ db.compartmentIds then
      .ok
        { toTables := { db.toTables with userCompartments := kept ++ created }
          valid :=
            { db.valid with
              userCompartment_id := by
                rw [List.map_append]
                refine List.nodup_append.mpr ⟨?_, ?_, ?_⟩
                · exact (List.filter_sublist.map _).nodup db.valid.userCompartment_id
                · rw [List.map_map]
                  apply List.Nodup.of_map Prod.snd
                  rw [List.map_map]
                  exact (List.map_id compartmentIds).symm ▸ distinct
                · -- the kept rows are other users'
                  rintro k listed k' new rfl
                  obtain ⟨c, member, rfl⟩ := List.mem_map.mp listed
                  simp only [created, List.map_map, List.mem_map] at new
                  obtain ⟨id, -, same⟩ := new
                  have other := (List.mem_filter.mp member).2
                  simp only [decide_eq_true_eq] at other
                  exact other (congrArg Prod.fst same).symm
              userCompartment_user := by
                intro c member
                rcases List.mem_append.mp member with old | new
                · exact db.valid.userCompartment_user c (List.mem_of_mem_filter old)
                · obtain ⟨id, listed, rfl⟩ := List.mem_map.mp new
                  exact refers.1 (List.ne_nil_of_mem listed)
              userCompartment_compartment := by
                intro c member
                rcases List.mem_append.mp member with old | new
                · exact db.valid.userCompartment_compartment c (List.mem_of_mem_filter old)
                · obtain ⟨id, listed, rfl⟩ := List.mem_map.mp new
                  exact refers.2 id listed } }
    else .error .foreignKey
  else .error .uniqueConstraint

/-! ## What a committed write has changed -/

section

variable {db db' : Database}

theorem userCreate_ok {row : User} (ok : db.userCreate row = .ok db') :
    db'.toTables = { db.toTables with users := db.users ++ [row] } ∧ row.id ∉ db.userIds := by
  unfold userCreate at ok
  split at ok
  · rename_i fresh
    cases ok
    exact ⟨rfl, fresh.1⟩
  · cases ok

theorem userCreate_email {row : User} (ok : db.userCreate row = .ok db') :
    row.email ∉ db.users.map User.email := by
  unfold userCreate at ok
  split at ok
  · rename_i fresh
    exact fresh.2
  · cases ok

theorem userCreate_error {row : User} {e : PrismaError} (failed : db.userCreate row = .error e) :
    e = .uniqueConstraint := by
  unfold userCreate at failed
  split at failed
  · cases failed
  · cases failed
    rfl

theorem userUpdate_ok {id : String} {data : UserUpdate} (ok : db.userUpdate id data = .ok db') :
    db'.toTables = { db.toTables with
      users := db.users.map fun u => if u.id = id then u.update data else u } := by
  unfold userUpdate at ok
  split at ok
  · cases ok
    rfl
  · cases ok

/-- The updated row is found where the old one was. -/
theorem userById_userUpdate {id : String} {data : UserUpdate} {u : User}
    (found : db.userById id = some u) (ok : db.userUpdate id data = .ok db') :
    db'.userById id = some (u.update data) := by
  obtain ⟨row, same⟩ := userById_eq_some.mp found
  refine userById_eq_some.mpr ⟨?_, same⟩
  rw [userUpdate_ok ok]
  exact List.mem_map.mpr ⟨u, row, if_pos same⟩

/-- Nobody else's row has changed. -/
theorem userById_userUpdate_ne {id other : String} {data : UserUpdate} (ne : other ≠ id)
    (ok : db.userUpdate id data = .ok db') : db'.userById other = db.userById other := by
  apply Option.ext
  intro u
  rw [userById_eq_some, userById_eq_some, userUpdate_ok ok]
  apply and_congr_left
  rintro rfl
  rw [List.mem_map]
  constructor
  · rintro ⟨v, row, rfl⟩
    by_cases same : v.id = id
    · rw [if_pos same] at ne
      exact absurd same ne
    · rwa [if_neg same]
  · intro row
    exact ⟨u, row, if_neg ne⟩

theorem userRoleCreate_ok {row : UserRole} (ok : db.userRoleCreate row = .ok db') :
    db'.toTables = { db.toTables with userRoles := db.userRoles ++ [row] } := by
  unfold userRoleCreate at ok
  split at ok
  · split at ok
    · cases ok
      rfl
    · cases ok
  · cases ok

theorem userRoleCreate_fresh {row : UserRole} (ok : db.userRoleCreate row = .ok db') :
    row.id ∉ db.userRoles.map UserRole.id := by
  unfold userRoleCreate at ok
  split at ok
  · rename_i fresh
    exact fresh.1
  · cases ok

theorem UserRole.uniqueKey_eq {a b : UserRole} {key : String × String × String × String}
    (a_key : a.uniqueKey = some key) (b_key : b.uniqueKey = some key) :
    a.userId = b.userId ∧ a.roleId = b.roleId ∧ a.scopeTenant = b.scopeTenant ∧
      a.scopeDepartment = b.scopeDepartment := by
  obtain ⟨_, _, _, tenant, department⟩ := a
  obtain ⟨_, _, _, tenant', department'⟩ := b
  cases tenant <;> cases department <;> simp [UserRole.uniqueKey] at a_key
  cases tenant' <;> cases department' <;> simp [UserRole.uniqueKey] at b_key
  rw [← a_key] at b_key
  simp only [Prod.mk.injEq] at b_key
  simp [b_key]

/-- Where no row has the same columns, the unique index has no such key. -/
theorem uniqueKey_absent {row : UserRole}
    (absent : db.findAssignment row.userId row.roleId row.scopeTenant row.scopeDepartment = none) :
    ∀ key ∈ row.uniqueKey.toList, key ∉ db.userRoles.filterMap UserRole.uniqueKey := by
  intro key at_row listed
  obtain ⟨a, member, at_a⟩ := List.mem_filterMap.mp listed
  have same := UserRole.uniqueKey_eq at_a (Option.mem_toList.mp at_row)
  have differs := List.find?_eq_none.mp absent a member
  simp [same] at differs

/-- A new assignment of an existing role to an existing user commits. -/
theorem userRoleCreate_commits {row : UserRole} (fresh : row.id ∉ db.userRoles.map UserRole.id)
    (absent : db.findAssignment row.userId row.roleId row.scopeTenant row.scopeDepartment = none)
    (user : row.userId ∈ db.userIds) (role : row.roleId ∈ db.roleIds) :
    ∃ db', db.userRoleCreate row = .ok db' :=
  ⟨_, by rw [userRoleCreate, dif_pos ⟨fresh, uniqueKey_absent absent⟩, dif_pos ⟨user, role⟩]⟩

/-- A new assignment does not run into a unique key. -/
theorem userRoleCreate_unclashed {row : UserRole} (fresh : row.id ∉ db.userRoles.map UserRole.id)
    (absent : db.findAssignment row.userId row.roleId row.scopeTenant row.scopeDepartment = none) :
    db.userRoleCreate row ≠ .error .uniqueConstraint := by
  rw [userRoleCreate, dif_pos ⟨fresh, uniqueKey_absent absent⟩]
  split <;> simp

theorem userUpdate_commits {id : String} (known : id ∈ db.userIds) (data : UserUpdate) :
    ∃ db', db.userUpdate id data = .ok db' := ⟨_, by rw [userUpdate, if_pos known]⟩

theorem departmentCreate_ok {id : Cuid} {tenant slug name : String} {parentId : Option String}
    (ok : db.departmentCreate id tenant slug name parentId = .ok db') :
    db'.toTables = { db.toTables with
        departments := db.departments ++ [{ id := id.value, tenant, slug, name, parentId }] } ∧
      id.value ∉ db.departmentIds ∧ ∀ p ∈ parentId, p ∈ db.departmentIds := by
  unfold departmentCreate at ok
  split at ok
  · rename_i fresh
    split at ok
    · rename_i refers
      cases ok
      exact ⟨rfl, fresh.1, fun p at_parent => refers p (Option.mem_toList.mpr at_parent)⟩
    · cases ok
  · cases ok

/-- A new department commits exactly when its id and slug are new and its parent exists. -/
theorem departmentCreate_commits_iff {id : Cuid} {tenant slug name : String}
    {parentId : Option String} :
    (∃ db', db.departmentCreate id tenant slug name parentId = .ok db') ↔
      id.value ∉ db.departmentIds ∧
      (∀ d ∈ db.departments, d.tenant = tenant → d.slug ≠ slug) ∧
      ∀ p ∈ parentId, p ∈ db.departmentIds := by
  have unused : (tenant, slug) ∉ db.departments.map (fun d => (d.tenant, d.slug)) ↔
      ∀ d ∈ db.departments, d.tenant = tenant → d.slug ≠ slug := by
    simp
  rw [← unused]
  constructor
  · rintro ⟨db', ok⟩
    unfold departmentCreate at ok
    split at ok
    · rename_i fresh
      split at ok
      · rename_i refers
        exact ⟨fresh.1, fresh.2, fun p at_parent => refers p (Option.mem_toList.mpr at_parent)⟩
      · cases ok
    · cases ok
  · rintro ⟨fresh, free, refers⟩
    have known : ∀ p ∈ parentId.toList, p ∈ db.departmentIds :=
      fun p listed => refers p (Option.mem_toList.mp listed)
    exact ⟨_, by rw [departmentCreate, dif_pos ⟨fresh, free⟩, dif_pos known]⟩

theorem compartmentCreate_commits_iff {id : Cuid} {tenant key name : String} :
    (∃ db', db.compartmentCreate id tenant key name = .ok db') ↔
      id.value ∉ db.compartmentIds ∧
      ∀ c ∈ db.compartments, c.tenant = tenant → c.key ≠ key := by
  have unused : (tenant, key) ∉ db.compartments.map (fun c => (c.tenant, c.key)) ↔
      ∀ c ∈ db.compartments, c.tenant = tenant → c.key ≠ key := by
    simp
  rw [← unused]
  constructor
  · rintro ⟨db', ok⟩
    unfold compartmentCreate at ok
    split at ok
    · rename_i fresh
      exact fresh
    · cases ok
  · intro fresh
    exact ⟨_, by rw [compartmentCreate, dif_pos fresh]⟩

theorem compartmentCreate_ok {id : Cuid} {tenant key name : String}
    (ok : db.compartmentCreate id tenant key name = .ok db') :
    db'.toTables = { db.toTables with
        compartments := db.compartments ++ [{ id := id.value, tenant, key, name }] } ∧
      id.value ∉ db.compartmentIds := by
  unfold compartmentCreate at ok
  split at ok
  · rename_i fresh
    cases ok
    exact ⟨rfl, fresh.1⟩
  · cases ok

theorem setUserDepartments_ok {userId : String} {rows : List (String × DeptRank)}
    (ok : db.setUserDepartments userId rows = .ok db') :
    db'.toTables = { db.toTables with
      userDepartments := (db.userDepartments.filter fun m => m.userId ≠ userId) ++
        rows.map fun row => { userId, departmentId := row.1, rank := row.2 } } := by
  unfold setUserDepartments at ok
  simp only at ok
  split at ok
  · split at ok
    · cases ok
      rfl
    · cases ok
  · cases ok

theorem setUserCompartments_ok {userId : String} {compartmentIds : List String}
    (ok : db.setUserCompartments userId compartmentIds = .ok db') :
    db'.toTables = { db.toTables with
      userCompartments := (db.userCompartments.filter fun c => c.userId ≠ userId) ++
        compartmentIds.map fun compartmentId => { userId, compartmentId } } := by
  unfold setUserCompartments at ok
  simp only at ok
  split at ok
  · split at ok
    · cases ok
      rfl
    · cases ok
  · cases ok

theorem setUserDepartments_commits {userId : String} {rows : List (String × DeptRank)}
    (distinct : (rows.map Prod.fst).Nodup) (user : userId ∈ db.userIds)
    (departments : ∀ row ∈ rows, row.1 ∈ db.departmentIds) :
    ∃ db', db.setUserDepartments userId rows = .ok db' :=
  ⟨_, by rw [setUserDepartments, dif_pos distinct, dif_pos ⟨fun _ => user, departments⟩]⟩

theorem setUserDepartments_duplicate {userId : String} {rows : List (String × DeptRank)}
    (repeats : ¬ (rows.map Prod.fst).Nodup) :
    db.setUserDepartments userId rows = .error .uniqueConstraint := by
  rw [setUserDepartments, dif_neg repeats]

theorem setUserCompartments_commits {userId : String} {compartmentIds : List String}
    (distinct : compartmentIds.Nodup) (user : userId ∈ db.userIds)
    (compartments : ∀ id ∈ compartmentIds, id ∈ db.compartmentIds) :
    ∃ db', db.setUserCompartments userId compartmentIds = .ok db' :=
  ⟨_, by rw [setUserCompartments, dif_pos distinct, dif_pos ⟨fun _ => user, compartments⟩]⟩

end

end Database

end Arac.Db
