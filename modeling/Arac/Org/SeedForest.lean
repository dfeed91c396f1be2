/-
# Arac.Org.SeedForest -- the departments stay a forest when the seed is run again

`seedOrg` creates the departments of its list without parents and then wires the
parents, each time it is run.  Wiring could close a cycle on a table that has grown in
the meantime.  It does not, because the wired parents are roots and stay roots
(`Planted`): their slugs are taken from the first run on, so `createDepartment` cannot
give them a parent.

* `Planted`: the invariant, kept by every write of the seed and by every department
  created under a slug that the seed does not use.
* `departments_forest`: what follows for every state reached, and for the walk of
  `effectiveClaims`.
-/
import Arac.Db.Upserts
import Arac.Org.Effects
import Arac.Org.Growth
import Arac.Sessions.InMemory

namespace Arac.Org

open Arac.Theory Arac.Sessions Arac.Db Arac.Service

set_option autoImplicit false

/-! ## The seed -/

section

variable {σ : Type} (env : Env) (ids : String → Cuid)

/-- `department.findUniqueOrThrow`. -/
def departmentOrThrow (slug : String) : Service σ Department := do
  match ← query (·.departmentBySlug TENANT slug) with
  | none => Prog.fail (.prisma .recordNotFound)
  | some department => return department

/-- One round of the loop that wires the parents. -/
def wireParent (seed : String × String × Option String) : Service σ Unit :=
  match truthy seed.2.2 with
  | none => pure ()
  | some parentSlug => do
      let dept ← departmentOrThrow seed.1
      let parent ← departmentOrThrow parentSlug
      commit (·.departmentUpdate dept.id parent.id)

/-- The membership of a seeded user. -/
def seedMembership (seed : SeedUser) : Service σ Unit := do
  let user ← query (·.userByEmail (env.toLowerCase seed.email))
  let dept ← query (·.departmentBySlug TENANT seed.department)
  match user, dept with
  | some user, some dept =>
      commit (·.userDepartmentUpsert user.id dept.id (if seed.department = "it" then .manager else .ic))
  | _, _ => pure ()

/-- `seedOrg`; `ids` are the ids of the rows it creates. -/
def seedOrg : Service σ Unit := do
  DEPARTMENTS.forM fun d => commit (·.departmentUpsert (ids d.1) TENANT d.1 d.2.1)
  -- all departments exist now
  DEPARTMENTS.forM wireParent
  COMPARTMENTS.forM fun c => commit (·.compartmentUpsert (ids c.1) TENANT c.1 c.2)
  SEED_USERS.forM (seedMembership env)

/-- A department is created, the seed is run again, or time passes. -/
inductive OrgStep (S : SessionStore σ) : World σ → World σ → Prop
  | createDepartment (w : World σ) (draws : Draws) (accessToken : String)
      (input : CreateDepartmentInput) :
      OrgStep S w ((createDepartment env draws accessToken input).run w).2
  | seedOrg (w : World σ) (ids : String → Cuid) : OrgStep S w ((seedOrg env ids).run w).2
  | elapse (w : World σ) (ms : Nat) : OrgStep S w (w.elapse S ms)

def OrgRun (S : SessionStore σ) : World σ → World σ → Prop := Relation.ReflTransGen (OrgStep env S)

end

/-- The department `child` names `parent` as its parent, in whatever tenant. -/
def ParentOf (t : Tables) (child parent : String) : Prop :=
  ∃ d ∈ t.departments, d.id = child ∧ d.parentId = some parent

structure DepartmentForest (t : Tables) : Prop where
  slugs : (t.departments.map fun d => (d.tenant, d.slug)).Nodup
  parents : ∀ d ∈ t.departments, ∀ p ∈ d.parentId, ∃ e ∈ t.departments, e.id = p
  noCycle : ∀ d ∈ t.departments, ¬ Relation.TransGen (ParentOf t) d.id d.id

/-! ## The invariant -/

/-- The seed gives the department no parent. -/
def SeedRoot (slug : String) : Prop := ∃ d ∈ DEPARTMENTS, d.1 = slug ∧ d.2.2 = none

instance (slug : String) : Decidable (SeedRoot slug) := inferInstanceAs (Decidable (∃ d ∈ _, _))

/-- Departments are wired below roots of the seed, and roots are not wired. -/
theorem seed_wiring : ∀ d ∈ DEPARTMENTS, ∀ parentSlug ∈ truthy d.2.2,
    SeedRoot parentSlug ∧ ¬ SeedRoot d.1 := by decide

/-- The roots of the seed are roots, and there is no cycle. -/
structure Planted (t : Tables) : Prop where
  tenant : ∀ d ∈ t.departments, d.tenant = TENANT
  roots : ∀ d ∈ t.departments, SeedRoot d.slug → d.parentId = none
  forest : Acyclic (t.DepartmentParent TENANT)

/-- The slug is taken. -/
def Taken (t : Tables) (slug : String) : Prop :=
  ∃ d ∈ t.departments, d.tenant = TENANT ∧ d.slug = slug

namespace Planted

variable {db db' : Database}

theorem empty {t : Tables} (nothing : t.departments = []) : Planted t where
  tenant := by simp [nothing]
  roots := by simp [nothing]
  forest := by
    intro d cycle
    obtain ⟨_, ⟨e, row, -⟩, -⟩ := Relation.TransGen.head'_iff.mp cycle
    rw [nothing] at row
    cases row

/-- Only names have changed. -/
theorem renamed {t t' : Tables} (planted : Planted t) {tenant slug name : String}
    (departments : t'.departments = t.departments.map (Department.rename tenant slug name)) :
    Planted t' := by
  have rows : ∀ d ∈ t'.departments, ∃ e ∈ t.departments,
      d.id = e.id ∧ d.tenant = e.tenant ∧ d.slug = e.slug ∧ d.parentId = e.parentId := by
    intro d member
    rw [departments] at member
    obtain ⟨e, row, rfl⟩ := List.mem_map.mp member
    refine ⟨e, row, ?_⟩
    unfold Department.rename
    split <;> exact ⟨rfl, rfl, rfl, rfl⟩
  constructor
  · intro d member
    obtain ⟨e, row, -, tenant, -, -⟩ := rows d member
    exact tenant.trans (planted.tenant e row)
  · intro d member root
    obtain ⟨e, row, -, -, slug, parent⟩ := rows d member
    exact parent.trans (planted.roots e row (slug ▸ root))
  · refine planted.forest.of_subrelation ?_
    rintro child above ⟨d, member, tenant, rfl, link⟩
    obtain ⟨e, row, id, same_tenant, -, parent⟩ := rows d member
    exact ⟨e, row, same_tenant ▸ tenant, id.symm, parent ▸ link⟩

/-- A new department, with no parent if the seed gives it none. -/
theorem create (planted : Planted db.toTables) {id : Cuid} {slug name : String}
    {parentId : Option String} (root : SeedRoot slug → parentId = none)
    (ok : db.departmentCreate id TENANT slug name parentId = .ok db') : Planted db'.toTables := by
  obtain ⟨tables, fresh, parent⟩ := Database.departmentCreate_ok ok
  have grown : Extends db db' ⟨id.value, TENANT, slug, name, parentId⟩ := ⟨tables, fresh, parent, rfl⟩
  constructor
  · intro d member
    rcases grown.mem_departments.mp member with old | rfl
    · exact planted.tenant d old
    · rfl
  · intro d member seeded
    rcases grown.mem_departments.mp member with old | rfl
    · exact planted.roots d old seeded
    · exact root seeded
  · exact grown.forest planted.forest

theorem upsert (planted : Planted db.toTables) {id : Cuid} {slug name : String}
    (ok : db.departmentUpsert id TENANT slug name = .ok db') : Planted db'.toTables := by
  rcases Database.departmentUpsert_cases ok with ⟨-, departments⟩ | created
  · exact planted.renamed departments
  · exact planted.create (fun _ => rfl) created

/-- A department that is no root of the seed is wired below one that is. -/
theorem wire (planted : Planted db.toTables) {d parent : Department} (d_row : d ∈ db.departments)
    (parent_row : parent ∈ db.departments) (inner : ¬ SeedRoot d.slug) (root : SeedRoot parent.slug)
    (ok : db.departmentUpdate d.id parent.id = .ok db') : Planted db'.toTables := by
  have rows : ∀ e' ∈ db'.departments, ∃ e ∈ db.departments, e'.id = e.id ∧ e'.tenant = e.tenant ∧
      e'.slug = e.slug ∧ (e = d ∧ e'.parentId = some parent.id ∨ e'.parentId = e.parentId) := by
    intro e' member
    rw [congrArg Tables.departments (Database.departmentUpdate_ok ok)] at member
    obtain ⟨e, row, rfl⟩ := List.mem_map.mp member
    refine ⟨e, row, ?_⟩
    unfold Department.place
    split
    · rename_i same
      exact ⟨rfl, rfl, rfl, Or.inl ⟨Database.department_eq row d_row same, rfl⟩⟩
    · exact ⟨rfl, rfl, rfl, Or.inr rfl⟩
  have roots : ∀ e ∈ db'.departments, SeedRoot e.slug → e.parentId = none := by
    intro e' member seeded
    obtain ⟨e, row, -, -, slug, ⟨rfl, -⟩ | link⟩ := rows e' member
    · exact absurd (slug ▸ seeded) inner
    · exact link.trans (planted.roots e row (slug ▸ seeded))
  refine ⟨?_, roots, ?_⟩
  · intro e' member
    obtain ⟨e, row, -, tenant, -, -⟩ := rows e' member
    exact tenant.trans (planted.tenant e row)
  · -- the new parent has no parent itself, so no cycle leads through it
    refine Acyclic.insert_sink parent.id planted.forest ?_ ?_
    · rintro above ⟨e', member, -, id, link⟩
      obtain ⟨e, row, same, -, slug, -⟩ := rows e' member
      have is_parent : e = parent := Database.department_eq row parent_row (same.symm.trans id)
      rw [roots e' member (by rw [slug, is_parent]; exact root)] at link
      cases link
    · rintro child above ⟨e', member, tenant, rfl, link⟩ other
      obtain ⟨e, row, same, same_tenant, -, ⟨-, placed⟩ | old⟩ := rows e' member
      · exact absurd (Option.some.inj (link.symm.trans placed)) other
      · exact ⟨e, row, same_tenant ▸ tenant, same.symm, old ▸ link⟩

/-- A write that leaves the departments alone. -/
theorem congr {t t' : Tables} (planted : Planted t) (same : t'.departments = t.departments) :
    Planted t' where
  tenant := by rw [same]; exact planted.tenant
  roots := by rw [same]; exact planted.roots
  forest := planted.forest.of_subrelation fun _ _ link => by
    simpa only [Tables.DepartmentParent, same] using link

end Planted

/-! ## Slugs that are taken -/

section

variable {db db' : Database}

/-- Departments that are rewritten keep their slugs. -/
theorem Taken.map {t t' : Tables} {slug : String} (taken : Taken t slug) {f : Department → Department}
    (departments : t'.departments = t.departments.map f)
    (keeps : ∀ d, (f d).tenant = d.tenant ∧ (f d).slug = d.slug) : Taken t' slug := by
  obtain ⟨d, row, tenant, rfl⟩ := taken
  refine ⟨f d, ?_, (keeps d).1.trans tenant, (keeps d).2⟩
  rw [departments]
  exact List.mem_map_of_mem row

theorem Taken.create {slug other name : String} {id : Cuid} {parentId : Option String}
    (ok : db.departmentCreate id TENANT slug name parentId = .ok db')
    (taken : Taken db.toTables other ∨ other = slug) : Taken db'.toTables other := by
  rw [Taken, (Database.departmentCreate_ok ok).1]
  rcases taken with ⟨d, row, same⟩ | rfl
  · exact ⟨d, List.mem_append_left _ row, same⟩
  · exact ⟨_, List.mem_append_right _ (List.mem_singleton.mpr rfl), rfl, rfl⟩

theorem Taken.upsert {slug other name : String} {id : Cuid}
    (ok : db.departmentUpsert id TENANT slug name = .ok db')
    (taken : Taken db.toTables other ∨ other = slug) : Taken db'.toTables other := by
  rcases Database.departmentUpsert_cases ok with ⟨there, departments⟩ | created
  · have before : Taken db.toTables other := by
      rcases taken with before | rfl
      · exact before
      · exact there
    exact before.map departments fun d => by unfold Department.rename; split <;> exact ⟨rfl, rfl⟩
  · exact Taken.create created taken

end

/-! ## What the seed keeps -/

section

variable {σ : Type} {env : Env} {ids : String → Cuid}

theorem run_departmentOrThrow (slug : String) (w : World σ) :
    (∃ e, (departmentOrThrow slug).run w = (.error e, w)) ∨
      ∃ d ∈ w.db.departments, d.slug = slug ∧ (departmentOrThrow slug).run w = (.ok d, w) := by
  unfold departmentOrThrow
  rw [Prog.run_bind_ok (run_query _ w)]
  cases found : w.db.departmentBySlug TENANT slug with
  | none => exact Or.inl ⟨_, rfl⟩
  | some d =>
      obtain ⟨row, -, same⟩ := Database.departmentBySlug_eq_some.mp found
      exact Or.inr ⟨d, row, same, rfl⟩

theorem wireParent_planted {seed : String × String × Option String} (listed : seed ∈ DEPARTMENTS) :
    (wireParent seed).Keeps fun w : World σ => Planted w.db.toTables := by
  intro w planted
  unfold wireParent
  split
  · exact planted
  · rename_i parentSlug named
    obtain ⟨root, inner⟩ := seed_wiring seed listed parentSlug named
    rcases run_departmentOrThrow seed.1 w with ⟨e, missing⟩ | ⟨d, d_row, d_slug, found⟩
    · rw [Prog.run_bind_error missing]
      exact planted
    rw [Prog.run_bind_ok found]
    rcases run_departmentOrThrow parentSlug w with ⟨e, missing⟩ | ⟨parent, parent_row, slug, found⟩
    · rw [Prog.run_bind_error missing]
      exact planted
    rw [Prog.run_bind_ok found]
    cases written : w.db.departmentUpdate d.id parent.id with
    | error e =>
        rw [run_commit_error _ written]
        exact planted
    | ok db =>
        rw [run_commit_ok _ written]
        exact planted.wire d_row parent_row (d_slug ▸ inner) (slug ▸ root) written

theorem wireParent_taken (seed : String × String × Option String) (slug : String) :
    (wireParent seed).Keeps fun w : World σ => Taken w.db.toTables slug := by
  unfold wireParent
  split
  · exact .pure _
  · have found : ∀ slug', (departmentOrThrow slug').Keeps fun w : World σ => Taken w.db.toTables slug := by
      intro slug' w taken
      rcases run_departmentOrThrow slug' w with ⟨_, run⟩ | ⟨_, _, _, run⟩ <;> rwa [run]
    refine .bind (found _) fun d => .bind (found _) fun parent => commit_keeps ?_
    intro w db taken ok
    exact taken.map (congrArg Tables.departments (Database.departmentUpdate_ok ok))
      fun d => by unfold Department.place; split <;> exact ⟨rfl, rfl⟩

/-- The compartments and memberships. -/
theorem seedRest_departments (w : World σ) :
    ((do
      COMPARTMENTS.forM fun c => commit (·.compartmentUpsert (ids c.1) TENANT c.1 c.2)
      SEED_USERS.forM (seedMembership env) : Service σ Unit).run w).2.db.departments =
      w.db.departments := by
  refine Prog.Keeps.bind (J := fun w' : World σ => w'.db.departments = w.db.departments)
    (.forM fun c _ => commit_keeps ?_) (fun _ => .forM fun seed _ => ?_) w rfl
  · intro w' db same ok
    exact (congrArg Tables.departments ((Database.compartmentUpsert_upserts _ _ _ _).ok ok)).trans same
  · intro w' same
    unfold seedMembership
    rw [Prog.run_bind_ok (run_query _ w'), Prog.run_bind_ok (run_query _ w')]
    split
    · refine commit_keeps (J := fun w' : World σ => w'.db.departments = w.db.departments) ?_ w' same
      intro w' db same ok
      exact (congrArg Tables.departments ((Database.userDepartmentUpsert_upserts _ _ _).ok ok)).trans same
    · exact same

theorem seedOrg_planted : (seedOrg env ids).Keeps fun w : World σ => Planted w.db.toTables := by
  refine .bind (.forM fun d _ => commit_keeps fun w db planted ok => planted.upsert ok) fun _ => ?_
  refine .bind (.forM fun d listed => wireParent_planted listed) fun _ => ?_
  exact fun w planted => planted.congr (seedRest_departments w)

theorem seedOrg_taken (slug : String) :
    (seedOrg env ids).Keeps fun w : World σ => Taken w.db.toTables slug := by
  refine .bind (.forM fun d _ => commit_keeps fun w db taken ok => Taken.upsert ok (Or.inl taken))
    fun _ => ?_
  refine .bind (.forM fun d _ => wireParent_taken d slug) fun _ => ?_
  intro w taken
  rwa [Taken, seedRest_departments w]

/-- A run of the seed that succeeds has created every department of its list. -/
theorem seedOrg_ok {w w' : World σ} (ok : (seedOrg env ids).run w = (.ok (), w')) :
    ∀ d ∈ DEPARTMENTS, Taken w'.db.toTables d.1 := by
  obtain ⟨_, created, first, rest⟩ := Prog.run_bind_eq_ok.mp ok
  have taken : ∀ d ∈ DEPARTMENTS, Taken created.db.toTables d.1 := by
    refine Prog.run_forM_ok (Q := fun d w => Taken w.db.toTables d.1) ?_ ?_ first
    · intro d _ v v' committed
      cases written : v.db.departmentUpsert (ids d.1) TENANT d.1 d.2.1 with
      | error e =>
          rw [run_commit_error _ written] at committed
          cases committed
      | ok db =>
          rw [run_commit_ok _ written] at committed
          cases committed
          exact Taken.upsert written (Or.inr rfl)
    · exact fun d e _ => commit_keeps fun w db taken ok => Taken.upsert ok (Or.inl taken)
  intro d listed
  have kept : Prog.Keeps (fun w : World σ => Taken w.db.toTables d.1) (do
      DEPARTMENTS.forM wireParent
      COMPARTMENTS.forM fun c => commit (·.compartmentUpsert (ids c.1) TENANT c.1 c.2)
      SEED_USERS.forM (seedMembership env) : Service σ Unit) := by
    refine .bind (.forM fun e _ => wireParent_taken e d.1) fun _ => ?_
    intro w taken
    rwa [Taken, seedRest_departments w]
  have last := kept created (taken d listed)
  rwa [rest] at last

/-! ## Whole runs -/

variable {S : SessionStore σ} {w w' : World σ}

/-- A department that is created has a slug that the seed does not use. -/
theorem OrgStep.planted (step : OrgStep env S w w') (planted : Planted w.db.toTables)
    (taken : ∀ d ∈ DEPARTMENTS, Taken w.db.toTables d.1) :
    Planted w'.db.toTables ∧ ∀ d ∈ DEPARTMENTS, Taken w'.db.toTables d.1 := by
  cases step with
  | elapse ms => exact ⟨planted, taken⟩
  | seedOrg ids =>
      exact ⟨seedOrg_planted w planted, fun d listed => seedOrg_taken d.1 w (taken d listed)⟩
  | createDepartment draws accessToken input =>
      rcases createDepartment_cases (Prod.eta _).symm with
        ⟨_, -, same⟩ | ⟨caller, parentId, db, v, -, -, -, created, -, same⟩
      · rw [same]
        exact ⟨planted, taken⟩
      · rw [same]
        refine ⟨planted.create ?_ created, fun d listed => Taken.create created (Or.inl (taken d listed))⟩
        rintro ⟨d, listed, slug, -⟩
        obtain ⟨e, row, tenant, same_slug⟩ := taken d listed
        have free := (Database.departmentCreate_commits_iff.mp ⟨db, created⟩).2.1
        exact absurd (same_slug.trans slug) (free e row tenant)

theorem Planted.departmentForest {db : Database} (planted : Planted db.toTables) :
    DepartmentForest db.toTables where
  slugs := db.valid.department_slug
  parents := by
    intro d row p link
    obtain ⟨e, e_row, same⟩ := List.mem_map.mp (db.valid.department_parent d row p link)
    exact ⟨e, e_row, same⟩
  noCycle := by
    intro d _
    have acyclic : Acyclic (ParentOf db.toTables) := by
      refine planted.forest.of_subrelation ?_
      rintro child parent ⟨e, row, id, link⟩
      exact ⟨e, row, planted.tenant e row, id, link⟩
    exact acyclic d.id

/-- In every state reached from the seeded departments, by creating departments and
running the seed again, the departments are a forest, and the walk of
`effectiveClaims` ends. -/
theorem departments_forest {w₀ w₁ : World σ} (empty : w₀.db.departments = [])
    (seeded : (seedOrg env ids).run w₀ = (.ok (), w₁)) (run : OrgRun env S w₁ w) :
    DepartmentForest w.db.toTables ∧
      (∀ deptId out, ∃ out', addDescendants (slugIndex (w.db.departmentsOf TENANT))
        (childIndex (w.db.departmentsOf TENANT)) (w.db.departmentsOf TENANT).length deptId out =
          .ok out') ∧
      ∀ userId, ∃ claims, (effectiveClaims userId).run w = (.ok claims, w) := by
  have inv : Planted w.db.toTables ∧ ∀ d ∈ DEPARTMENTS, Taken w.db.toTables d.1 := by
    induction run with
    | refl =>
        have planted : Planted ((seedOrg env ids).run w₀).2.db.toTables :=
          seedOrg_planted w₀ (.empty empty)
        rw [seeded] at planted
        exact ⟨planted, seedOrg_ok seeded⟩
    | tail _ step ih => exact step.planted ih.1 ih.2
  obtain ⟨planted, -⟩ := inv
  refine ⟨planted.departmentForest, ?_, ?_⟩
  · exact fun deptId out => addDescendants_total planted.forest out (depth_le _ _)
  · intro userId
    obtain ⟨claims, ok⟩ := claimsIn_total planted.forest userId
    exact ⟨claims, by rw [run_effectiveClaims, ok]⟩

end

/-! ## A seed after the table has grown -/

/-- The seeded users and roles, before `seedOrg`. -/
def unplanted : Database where
  toTables := { seedTables with departments := [], userDepartments := [], compartments := [] }
  valid := by constructor <;> decide

/-- Rows under their natural keys. -/
def naturalIds (key : String) : Cuid :=
  if nonempty : key ≠ "" then ⟨key, nonempty⟩ else ⟨"c0", by decide⟩

def plantedWorld : Except ServiceError Unit × World InMemorySessions :=
  (seedOrg sampleEnv naturalIds).run (World.fresh .empty 0 unplanted)

/-- The first run leaves the tables of the seed. -/
example : plantedWorld.2.db.departments = seedTables.departments ∧
    plantedWorld.2.db.userDepartments = seedTables.userDepartments ∧
    plantedWorld.2.db.compartments = seedTables.compartments := by decide +kernel

/-- A department was created below a wired one, and the seed was run again. -/
def grownWorld : World InMemorySessions :=
  ((seedOrg sampleEnv naturalIds).run ((createDepartment sampleEnv sampleDraws "admin@acme.test"
    ⟨"legal", "Legal", some "finance.ap"⟩).run plantedWorld.2).2).2

theorem departments_forest_grown : DepartmentForest grownWorld.db.toTables ∧
    grownWorld.db.DepartmentParent TENANT "c1" "finance.ap" := by
  have seeded : (seedOrg sampleEnv naturalIds).run (World.fresh (σ := InMemorySessions) .empty 0
      unplanted) = (.ok (), plantedWorld.2) :=
    Prod.ext (show plantedWorld.1 = .ok () by decide +kernel) rfl
  have run : OrgRun sampleEnv (inMemorySessionStore sampleSha256 .default) plantedWorld.2 grownWorld :=
    .tail (.single (.createDepartment _ sampleDraws "admin@acme.test" _)) (.seedOrg _ naturalIds)
  refine ⟨(departments_forest rfl seeded run).1, ?_⟩
  unfold Tables.DepartmentParent
  decide +kernel

end Arac.Org
