/-
# Arac.Db.Upserts -- the writes of the seed

An upsert updates the row with the given key when there is one and creates it when
there is none.  No write here changes the id or the key of a row that exists.

* `UpsertsRow` says what such a write does to its table, for all tables alike.
-/
import Arac.Db.Updates
import Arac.Theory.Upsert

namespace Arac.Db

open Arac.Theory

set_option autoImplicit false

/-- Rewriting rows leaves a column alone that the rewriting keeps. -/
theorem map_map_keeps {ρ κ : Type} (key : ρ → κ) {f : ρ → ρ} (keeps : ∀ row, key (f row) = key row)
    (rows : List ρ) : (rows.map f).map key = rows.map key := by
  rw [List.map_map]
  exact List.map_congr_left fun row _ => keeps row

def Department.rename (tenant slug name : String) (d : Department) : Department :=
  if d.tenant = tenant ∧ d.slug = slug then { d with name } else d

def Department.place (id parentId : String) (d : Department) : Department :=
  if d.id = id then { d with parentId := some parentId } else d

def Compartment.rename (tenant key name : String) (c : Compartment) : Compartment :=
  if c.tenant = tenant ∧ c.key = key then { c with name } else c

def UserDepartment.rerank (userId departmentId : String) (rank : DeptRank) (m : UserDepartment) :
    UserDepartment :=
  if m.userId = userId ∧ m.departmentId = departmentId then { m with rank } else m

/-- One of the tables. -/
structure Table (ρ : Type) where
  rows : Tables → List ρ
  put : Tables → List ρ → Tables
  rows_put : ∀ t newRows, rows (put t newRows) = newRows
  put_rows : ∀ t, put t (rows t) = t

namespace Table

def users : Table User :=
  ⟨Tables.users, fun t users => { t with users }, fun _ _ => rfl, fun _ => rfl⟩

def permissions : Table Permission :=
  ⟨Tables.permissions, fun t permissions => { t with permissions }, fun _ _ => rfl, fun _ => rfl⟩

def roles : Table Role :=
  ⟨Tables.roles, fun t roles => { t with roles }, fun _ _ => rfl, fun _ => rfl⟩

def departments : Table Department :=
  ⟨Tables.departments, fun t departments => { t with departments }, fun _ _ => rfl, fun _ => rfl⟩

def compartments : Table Compartment :=
  ⟨Tables.compartments, fun t compartments => { t with compartments }, fun _ _ => rfl, fun _ => rfl⟩

def userDepartments : Table UserDepartment :=
  ⟨Tables.userDepartments, fun t userDepartments => { t with userDepartments }, fun _ _ => rfl,
    fun _ => rfl⟩

end Table

/-- The write upserts the row with the key `k`; where there is one it cannot fail. -/
structure UpsertsRow {ρ κ : Type} [DecidableEq κ] (T : Table ρ) (key : ρ → κ) (k : κ) (f : ρ → ρ)
    (row : ρ) (write : Database → Except PrismaError Database) : Prop where
  keys : ∀ r, key (f r) = key r
  new : key row = k
  ok : ∀ {db db'}, write db = .ok db' →
    db'.toTables = T.put db.toTables (upsert key k f row (T.rows db.toTables))
  commits : ∀ {db}, k ∈ (T.rows db.toTables).map key → ∃ db', write db = .ok db'

theorem UpsertsRow.of_cases {ρ κ : Type} [DecidableEq κ] {T : Table ρ} {key : ρ → κ} {k : κ}
    {f : ρ → ρ} {row : ρ} {write : Database → Except PrismaError Database}
    (keys : ∀ r, key (f r) = key r) (new : key row = k)
    (updates : ∀ db, k ∈ (T.rows db.toTables).map key → ∃ db', write db = .ok db' ∧
      db'.toTables = T.put db.toTables ((T.rows db.toTables).map fun r =>
        if key r = k then f r else r))
    (creates : ∀ db db', k ∉ (T.rows db.toTables).map key → write db = .ok db' →
      db'.toTables = T.put db.toTables (T.rows db.toTables ++ [row])) :
    UpsertsRow T key k f row write where
  keys := keys
  new := new
  ok := by
    intro db db' ok
    by_cases there : k ∈ (T.rows db.toTables).map key
    · obtain ⟨updated, ok', tables⟩ := updates db there
      rw [ok'] at ok
      cases ok
      rw [tables, upsert_of_mem there]
    · rw [creates db db' there ok, upsert_of_not_mem there]
  commits := by
    intro db there
    obtain ⟨db', ok, -⟩ := updates db there
    exact ⟨db', ok⟩

namespace Database

/-! ## Departments -/

/-- Rewrite the departments without moving any to another id or slug. -/
def departmentsMap (db : Database) (f : Department → Department) (ids : ∀ d, (f d).id = d.id)
    (slugs : ∀ d, ((f d).tenant, (f d).slug) = (d.tenant, d.slug))
    (parents : ∀ d ∈ db.departments, ∀ p ∈ (f d).parentId, p ∈ db.departmentIds) : Database where
  toTables := { db.toTables with departments := db.departments.map f }
  valid := by
    have same : (db.departments.map f).map Department.id = db.departmentIds := map_map_keeps _ ids _
    exact
      { db.valid with
        department_id := by simpa only [Tables.departmentIds, same] using db.valid.department_id
        department_cuid := by simpa only [Tables.departmentIds, same] using db.valid.department_cuid
        department_slug := by
          rw [map_map_keeps (fun d : Department => (d.tenant, d.slug)) slugs]
          exact db.valid.department_slug
        department_parent := by
          intro d member p at_d
          obtain ⟨e, e_row, rfl⟩ := List.mem_map.mp member
          simpa only [Tables.departmentIds, same] using parents e e_row p at_d
        userDepartment_department := by
          simpa only [Tables.departmentIds, same] using db.valid.userDepartment_department }

/-- `department.upsert` by tenant and slug. -/
def departmentUpsert (db : Database) (id : Cuid) (tenant slug name : String) :
    Except PrismaError Database :=
  if (db.departmentBySlug tenant slug).isSome then
    .ok (db.departmentsMap (Department.rename tenant slug name)
      (fun d => by unfold Department.rename; split <;> rfl)
      (fun d => by unfold Department.rename; split <;> rfl)
      (fun d d_row p at_d => by
        refine db.valid.department_parent d d_row p ?_
        unfold Department.rename at at_d
        split at at_d <;> exact at_d))
  else db.departmentCreate id tenant slug name none

/-- `department.update` of the parent. -/
def departmentUpdate (db : Database) (id parentId : String) : Except PrismaError Database :=
  if id ∉ db.departmentIds then .error .recordNotFound
  else if known : parentId ∈ db.departmentIds then
    .ok (db.departmentsMap (Department.place id parentId)
      (fun d => by unfold Department.place; split <;> rfl)
      (fun d => by unfold Department.place; split <;> rfl)
      (fun d d_row p at_d => by
        unfold Department.place at at_d
        split at at_d
        · obtain rfl := Option.some.inj at_d
          exact known
        · exact db.valid.department_parent d d_row p at_d))
  else .error .foreignKey

/-! ## Compartments and memberships -/

/-- `compartment.upsert` by tenant and key. -/
def compartmentUpsert (db : Database) (id : Cuid) (tenant key name : String) :
    Except PrismaError Database :=
  if ∃ c ∈ db.compartments, c.tenant = tenant ∧ c.key = key then
    .ok
      { toTables := { db.toTables with
          compartments := db.compartments.map (Compartment.rename tenant key name) }
        valid := by
          have same : (db.compartments.map (Compartment.rename tenant key name)).map Compartment.id =
              db.compartmentIds :=
            map_map_keeps _ (fun c => by unfold Compartment.rename; split <;> rfl) _
          exact
            { db.valid with
              compartment_id := by simpa only [Tables.compartmentIds, same] using db.valid.compartment_id
              compartment_key := by
                rw [map_map_keeps (fun c : Compartment => (c.tenant, c.key))
                  (fun c => by unfold Compartment.rename; split <;> rfl)]
                exact db.valid.compartment_key
              userCompartment_compartment := by
                simpa only [Tables.compartmentIds, same] using
                  db.valid.userCompartment_compartment } }
  else db.compartmentCreate id tenant key name

/-- `userDepartment.upsert` by user and department. -/
def userDepartmentUpsert (db : Database) (userId departmentId : String) (rank : DeptRank) :
    Except PrismaError Database :=
  if there : ∃ m ∈ db.userDepartments, m.userId = userId ∧ m.departmentId = departmentId then
    .ok
      { toTables := { db.toTables with
          userDepartments := db.userDepartments.map (UserDepartment.rerank userId departmentId rank) }
        valid :=
          { db.valid with
            userDepartment_id := by
              rw [map_map_keeps (fun m : UserDepartment => (m.userId, m.departmentId))
                (fun m => by unfold UserDepartment.rerank; split <;> rfl)]
              exact db.valid.userDepartment_id
            userDepartment_user := by
              intro m member
              obtain ⟨n, n_row, rfl⟩ := List.mem_map.mp member
              have known := db.valid.userDepartment_user n n_row
              unfold UserDepartment.rerank
              split <;> exact known
            userDepartment_department := by
              intro m member
              obtain ⟨n, n_row, rfl⟩ := List.mem_map.mp member
              have known := db.valid.userDepartment_department n n_row
              unfold UserDepartment.rerank
              split <;> exact known } }
  else if refers : userId ∈ db.userIds ∧ departmentId ∈ db.departmentIds then
    .ok
      { toTables := { db.toTables with
          userDepartments := db.userDepartments ++ [{ userId, departmentId, rank }] }
        valid :=
          { db.valid with
            userDepartment_id := nodup_map_append db.valid.userDepartment_id (by simpa using there)
            userDepartment_user := by
              intro m member
              rcases List.mem_append.mp member with old | new
              · exact db.valid.userDepartment_user m old
              · obtain rfl := List.mem_singleton.mp new
                exact refers.1
            userDepartment_department := by
              intro m member
              rcases List.mem_append.mp member with old | new
              · exact db.valid.userDepartment_department m old
              · obtain rfl := List.mem_singleton.mp new
                exact refers.2 } }
  else .error .foreignKey

/-! ## What the writes change -/

theorem departmentUpsert_upserts (id : Cuid) (tenant slug name : String) :
    UpsertsRow .departments (fun d => (d.tenant, d.slug)) (tenant, slug) (fun d => { d with name })
      { id := id.value, tenant, slug, name, parentId := none }
      (·.departmentUpsert id tenant slug name) := by
  refine .of_cases (fun _ => rfl) rfl (fun db there => ?_) fun db db' absent ok => ?_
  · obtain ⟨d, d_row, same⟩ := List.mem_map.mp there
    have found := departmentBySlug_eq_some.mpr ⟨d_row, Prod.mk.inj same⟩
    refine ⟨_, if_pos (by rw [found]; rfl), ?_⟩
    simp only [departmentsMap, Prod.mk.injEq]
    rfl
  · have missing : ¬ (db.departmentBySlug tenant slug).isSome := by
      intro there
      obtain ⟨d, found⟩ := Option.isSome_iff_exists.mp there
      obtain ⟨d_row, rfl, rfl⟩ := departmentBySlug_eq_some.mp found
      exact absent (List.mem_map.mpr ⟨d, d_row, rfl⟩)
    rw [departmentUpsert, if_neg missing] at ok
    exact (departmentCreate_ok ok).1

theorem compartmentUpsert_upserts (id : Cuid) (tenant key name : String) :
    UpsertsRow .compartments (fun c => (c.tenant, c.key)) (tenant, key) (fun c => { c with name })
      { id := id.value, tenant, key, name } (·.compartmentUpsert id tenant key name) := by
  refine .of_cases (fun _ => rfl) rfl (fun db there => ?_) fun db db' absent ok => ?_
  · obtain ⟨c, c_row, same⟩ := List.mem_map.mp there
    refine ⟨_, if_pos ⟨c, c_row, Prod.mk.inj same⟩, ?_⟩
    simp only [Prod.mk.injEq]
    rfl
  · have missing : ¬ ∃ c ∈ db.compartments, c.tenant = tenant ∧ c.key = key := by
      rintro ⟨c, c_row, rfl, rfl⟩
      exact absent (List.mem_map.mpr ⟨c, c_row, rfl⟩)
    rw [compartmentUpsert, if_neg missing] at ok
    exact (compartmentCreate_ok ok).1

theorem userDepartmentUpsert_upserts (userId departmentId : String) (rank : DeptRank) :
    UpsertsRow .userDepartments (fun m => (m.userId, m.departmentId)) (userId, departmentId)
      (fun m => { m with rank }) { userId, departmentId, rank }
      (·.userDepartmentUpsert userId departmentId rank) := by
  refine .of_cases (fun _ => rfl) rfl (fun db there => ?_) fun db db' absent ok => ?_
  · obtain ⟨m, m_row, same⟩ := List.mem_map.mp there
    refine ⟨_, dif_pos ⟨m, m_row, Prod.mk.inj same⟩, ?_⟩
    simp only [Prod.mk.injEq]
    rfl
  · have missing : ¬ ∃ m ∈ db.userDepartments, m.userId = userId ∧ m.departmentId = departmentId := by
      rintro ⟨m, m_row, rfl, rfl⟩
      exact absent (List.mem_map.mpr ⟨m, m_row, rfl⟩)
    rw [userDepartmentUpsert, dif_neg missing] at ok
    split at ok
    · cases ok
      rfl
    · cases ok

variable {db db' : Database}

/-- A department is renamed or created. -/
theorem departmentUpsert_cases {id : Cuid} {tenant slug name : String}
    (ok : db.departmentUpsert id tenant slug name = .ok db') :
    ((∃ d ∈ db.departments, d.tenant = tenant ∧ d.slug = slug) ∧
      db'.departments = db.departments.map (Department.rename tenant slug name)) ∨
    db.departmentCreate id tenant slug name none = .ok db' := by
  unfold departmentUpsert at ok
  split at ok
  · rename_i there
    cases ok
    obtain ⟨d, found⟩ := Option.isSome_iff_exists.mp there
    obtain ⟨d_row, same⟩ := departmentBySlug_eq_some.mp found
    exact Or.inl ⟨⟨d, d_row, same⟩, rfl⟩
  · exact Or.inr ok

theorem departmentUpdate_ok {id parentId : String} (ok : db.departmentUpdate id parentId = .ok db') :
    db'.toTables = { db.toTables with
      departments := db.departments.map (Department.place id parentId) } := by
  unfold departmentUpdate at ok
  split at ok
  · cases ok
  · split at ok
    · cases ok
      rfl
    · cases ok

theorem departmentUpdate_commits {id parentId : String} (there : id ∈ db.departmentIds)
    (known : parentId ∈ db.departmentIds) : ∃ db', db.departmentUpdate id parentId = .ok db' :=
  ⟨_, by rw [departmentUpdate, if_neg (not_not_intro there), dif_pos known]⟩

end Database

end Arac.Db
