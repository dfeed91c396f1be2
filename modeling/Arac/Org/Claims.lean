/-
# Arac.Org.Claims -- the ABAC claims of a user

`effectiveClaims` loads the user's memberships, compartments and the departments of
the tenant, builds a child index, and adds to the departments of the user every
descendant of those the user manages.  `addDescendants` recurses once per level;
its fuel is the number of department rows, and running out of it is the stack
overflow that a cycle causes.

`Sees` is the meaning: the slugs of the user's departments, and of all proper
descendants of the departments in which the user is a manager or above.

* `mem_addDescendants`: an answer adds exactly the slugs of the proper descendants.
* `addDescendants_total`: on a forest there is an answer.  The number of
  descendants of a department falls with every level.
* `effectiveClaims_iff_sees`: the claims are the meaning, whatever the order of rows.
-/
import Arac.Services.World
import Arac.Db.Seed
import Arac.Theory.Acyclic

namespace Arac.Org

open Arac.Theory Arac.Db Arac.Service

set_option autoImplicit false

def TENANT : String := "acme"

/-! ## The code -/

def RANK_ORDER : List DeptRank := [.ic, .lead, .manager, .seniorManager, .director, .vp]

def rankOrdinal (rank : DeptRank) : Nat := RANK_ORDER.idxOf rank

/-- A membership at this rank inherits the department's descendants. -/
def inheritsDescendants (rank : DeptRank) : Bool := rankOrdinal rank ≥ rankOrdinal .manager

def slugIndex (depts : List Department) : String → Option String :=
  lookupTable Department.id Department.slug depts

def childIndex (depts : List Department) : String → List String :=
  groupTable (fun d => truthy d.parentId) Department.id depts

/-- The first argument after the indexes bounds the depth of the recursion. -/
def addDescendants (slugOf : String → Option String) (childrenOf : String → List String) :
    Nat → String → OrderedSet String → Except ServiceError (OrderedSet String)
  | 0, deptId, out => if childrenOf deptId = [] then .ok out else .error .rangeError
  | fuel + 1, deptId, out =>
      (childrenOf deptId).foldlM (fun out childId =>
        let out := match slugOf childId with
          | some slug => if slug = "" then out else out.add slug
          | none => out
        addDescendants slugOf childrenOf fuel childId out) out

/-- The loop over the memberships. -/
def expandMemberships (depts : List Department) (memberships : List Membership) :
    Except ServiceError (OrderedSet String) :=
  memberships.foldlM (fun out m =>
    let out := out.add m.department.slug
    if inheritsDescendants m.rank then
      addDescendants (slugIndex depts) (childIndex depts) depts.length m.department.id out
    else .ok out) .empty

structure EffectiveClaims where
  departments : List String
  compartments : List String
  deriving DecidableEq

def effectiveClaims {σ : Type} (userId : String) : Service σ EffectiveClaims := do
  let memberships ← query (·.membershipsOf userId)
  let comps ← query (·.compartmentsOf userId)
  let allDepts ← query (·.departmentsOf TENANT)
  let departments ← Prog.ofExcept (expandMemberships allDepts memberships)
  return { departments := departments.toList, compartments := comps.map Compartment.key }

theorem quiet_effectiveClaims {σ : Type} (userId : String) :
    Quiet (effectiveClaims userId : Service σ EffectiveClaims) :=
  .bind (.query _) fun _ => .bind (.query _) fun _ => .bind (.query _) fun _ =>
    .bind (.ofExcept _) fun _ => .pure _

/-! ## The meaning -/

/-- `d` lies properly below `a` in the tenant's department tree. -/
def Below (t : Tables) (d a : String) : Prop := Relation.TransGen (t.DepartmentParent TENANT) d a

/-- The rank is `MANAGER` or above. -/
def Manages (rank : DeptRank) : Prop :=
  rank = .manager ∨ rank = .seniorManager ∨ rank = .director ∨ rank = .vp

/-- The user may see the department with this slug: as a member, or as a manager of
a department above it. -/
def Sees (t : Tables) (userId slug : String) : Prop :=
  ∃ m ∈ t.userDepartments, m.userId = userId ∧ ∃ d ∈ t.departments, d.slug = slug ∧
    (d.id = m.departmentId ∨ (Manages m.rank ∧ Below t d.id m.departmentId))

/-- The slug, not an empty one, of a department below. -/
def Inherits (t : Tables) (deptId slug : String) : Prop :=
  slug ≠ "" ∧ ∃ d ∈ t.departments, d.slug = slug ∧ Below t d.id deptId

/-- The user holds the compartment with this key. -/
def HoldsKey (t : Tables) (userId key : String) : Prop :=
  ∃ c ∈ t.userCompartments, c.userId = userId ∧
    ∃ comp ∈ t.compartments, comp.id = c.compartmentId ∧ comp.key = key

/-- Every department of the tenant has a slug. -/
def NamedDepartments (t : Tables) : Prop := ∀ d ∈ t.departments, d.tenant = TENANT → d.slug ≠ ""

instance (t : Tables) : Decidable (NamedDepartments t) := inferInstanceAs (Decidable (∀ _ ∈ _, _))

theorem inheritsDescendants_iff {rank : DeptRank} : inheritsDescendants rank = true ↔ Manages rank := by
  cases rank <;> simp [Manages] <;> decide

variable {db : Database}

/-- The child index of the tenant. -/
theorem mem_childIndex {parentId childId : String} :
    childId ∈ childIndex (db.departmentsOf TENANT) parentId ↔
      db.DepartmentParent TENANT childId parentId := by
  simp only [childIndex, groupTable_eq, List.mem_map, List.mem_filter, Tables.mem_departmentsOf,
    decide_eq_true_eq]
  constructor
  · rintro ⟨d, ⟨⟨d_row, tenant⟩, parent⟩, rfl⟩
    exact ⟨d, d_row, tenant, rfl, Database.truthy_department_parent d_row ▸ parent⟩
  · rintro ⟨d, d_row, tenant, rfl, parent⟩
    exact ⟨d, ⟨⟨d_row, tenant⟩, (Database.truthy_department_parent d_row).symm ▸ parent⟩, rfl⟩

theorem slugIndex_eq_some {id slug : String} :
    slugIndex (db.departmentsOf TENANT) id = some slug ↔
      ∃ d ∈ db.departments, d.tenant = TENANT ∧ d.id = id ∧ d.slug = slug := by
  have agree : ∀ a ∈ db.departmentsOf TENANT, ∀ b ∈ db.departmentsOf TENANT, a.id = b.id →
      a.slug = b.slug := fun a a_row b b_row same =>
    congrArg Department.slug (Database.department_eq (Tables.mem_departmentsOf.mp a_row).1
      (Tables.mem_departmentsOf.mp b_row).1 same)
  rw [slugIndex, lookupTable_eq_some agree]
  simp only [Tables.mem_departmentsOf, and_assoc]

/-- A descendant is a child or lies below one. -/
theorem below_iff {d a : String} : Below db.toTables d a ↔
    ∃ child, db.DepartmentParent TENANT child a ∧ (d = child ∨ Below db.toTables d child) := by
  rw [Below, Relation.TransGen.tail'_iff]
  constructor
  · rintro ⟨child, path, link⟩
    refine ⟨child, link, ?_⟩
    rcases Relation.reflTransGen_iff_eq_or_transGen.mp path with rfl | below
    · exact Or.inl rfl
    · exact Or.inr below
  · rintro ⟨child, link, rfl | below⟩
    · exact ⟨d, .refl, link⟩
    · exact ⟨child, below.to_reflTransGen, link⟩

/-- An answer adds exactly the slugs of the proper descendants. -/
theorem mem_addDescendants {fuel : Nat} {deptId : String} {out out' : OrderedSet String}
    (ok : addDescendants (slugIndex (db.departmentsOf TENANT)) (childIndex (db.departmentsOf TENANT))
      fuel deptId out = .ok out') :
    ∀ slug, slug ∈ out' ↔ slug ∈ out ∨ Inherits db.toTables deptId slug := by
  induction fuel generalizing deptId out out' with
  | zero =>
      unfold addDescendants at ok
      split at ok
      · rename_i leaf
        cases ok
        intro slug
        have nothing : ∀ d, ¬ Below db.toTables d deptId := by
          intro d below
          obtain ⟨child, link, -⟩ := below_iff.mp below
          rw [← mem_childIndex, leaf] at link
          cases link
        simp [Inherits, nothing]
      · cases ok
  | succ fuel ih =>
      intro slug
      unfold addDescendants at ok
      have each := OrderedSet.mem_foldlM
        (P := fun childId slug => slug ≠ "" ∧ ∃ d ∈ db.departments, d.slug = slug ∧
          (d.id = childId ∨ Below db.toTables d.id childId)) ?_ ok slug
      · rw [each]
        refine or_congr Iff.rfl ⟨?_, ?_⟩
        · rintro ⟨childId, member, nonempty, d, d_row, named, below⟩
          exact ⟨nonempty, d, d_row, named, below_iff.mpr ⟨childId, mem_childIndex.mp member, below⟩⟩
        · rintro ⟨nonempty, d, d_row, named, below⟩
          obtain ⟨childId, link, below⟩ := below_iff.mp below
          exact ⟨childId, mem_childIndex.mpr link, nonempty, d, d_row, named, below⟩
      · -- one child: its own slug and what lies below it
        intro childId member s s' added slug
        obtain ⟨child, child_row, tenant, rfl, -⟩ := mem_childIndex.mp member
        have found : slugIndex (db.departmentsOf TENANT) child.id = some child.slug :=
          slugIndex_eq_some.mpr ⟨child, child_row, tenant, rfl, rfl⟩
        have own : slug ∈ (if child.slug = "" then s else s.add child.slug) ↔
            slug ∈ s ∨ (slug ≠ "" ∧ slug = child.slug) := by
          split
          · rename_i unnamed
            simp [unnamed]
          · rename_i nonempty
            rw [OrderedSet.mem_add]
            exact or_congr_right ⟨fun same => ⟨same ▸ nonempty, same⟩, And.right⟩
        simp only [found] at added
        rw [ih added, own, or_assoc]
        refine or_congr Iff.rfl ⟨?_, ?_⟩
        · rintro (⟨nonempty, rfl⟩ | ⟨nonempty, d, d_row, same, below⟩)
          · exact ⟨nonempty, child, child_row, rfl, Or.inl rfl⟩
          · exact ⟨nonempty, d, d_row, same, Or.inr below⟩
        · rintro ⟨nonempty, d, d_row, rfl, same | below⟩
          · rw [Database.department_eq d_row child_row same] at nonempty ⊢
            exact Or.inl ⟨nonempty, rfl⟩
          · exact Or.inr ⟨nonempty, d, d_row, rfl, below⟩

/-- How many departments lie below one. -/
noncomputable def depth (t : Tables) (deptId : String) : Nat :=
  Acyclic.rank (t.DepartmentParent TENANT) ((t.departmentsOf TENANT).map Department.id).toFinset deptId

theorem depth_le (t : Tables) (deptId : String) : depth t deptId ≤ (t.departmentsOf TENANT).length := by
  have bound := Acyclic.rank_le_card (t.DepartmentParent TENANT)
    ((t.departmentsOf TENANT).map Department.id).toFinset deptId
  have card := List.toFinset_card_le ((t.departmentsOf TENANT).map Department.id)
  rw [List.length_map] at card
  exact Nat.le_trans bound card

theorem depth_lt {t : Tables} (forest : Acyclic (t.DepartmentParent TENANT)) {child parent : String}
    (link : t.DepartmentParent TENANT child parent) : depth t child < depth t parent := by
  refine Acyclic.rank_lt (forest _) ?_ link
  obtain ⟨d, d_row, tenant, rfl, -⟩ := link
  exact List.mem_toFinset.mpr (List.mem_map.mpr ⟨d, Tables.mem_departmentsOf.mpr ⟨d_row, tenant⟩, rfl⟩)

/-- The number of department rows is fuel enough for a forest. -/
theorem addDescendants_total (forest : Acyclic (db.DepartmentParent TENANT)) {fuel : Nat}
    {deptId : String} (out : OrderedSet String) (enough : depth db.toTables deptId ≤ fuel) :
    ∃ out', addDescendants (slugIndex (db.departmentsOf TENANT))
      (childIndex (db.departmentsOf TENANT)) fuel deptId out = .ok out' := by
  induction fuel generalizing deptId out with
  | zero =>
      have leaf : childIndex (db.departmentsOf TENANT) deptId = [] := by
        apply List.eq_nil_iff_forall_not_mem.mpr
        intro child member
        have := depth_lt forest (mem_childIndex.mp member)
        omega
      exact ⟨out, by rw [addDescendants, if_pos leaf]⟩
  | succ fuel ih =>
      unfold addDescendants
      refine OrderedSet.foldlM_total (fun childId member s => ?_) out
      have := depth_lt forest (mem_childIndex.mp member)
      exact ih _ (by omega)

theorem mem_expandMemberships {memberships : List Membership} {out : OrderedSet String}
    (ok : expandMemberships (db.departmentsOf TENANT) memberships = .ok out) (slug : String) :
    slug ∈ out ↔ ∃ m ∈ memberships, m.department.slug = slug ∨
      (Manages m.rank ∧ Inherits db.toTables m.department.id slug) := by
  rw [OrderedSet.mem_foldlM (P := fun (m : Membership) slug => m.department.slug = slug ∨
      (Manages m.rank ∧ Inherits db.toTables m.department.id slug)) ?_ ok slug]
  · simp
  · intro m _ s s' added slug
    simp only at added
    split at added
    · rename_i manager
      rw [mem_addDescendants added, OrderedSet.mem_add, or_assoc]
      simp only [inheritsDescendants_iff.mp manager, true_and, eq_comm]
    · rename_i junior
      cases added
      rw [OrderedSet.mem_add]
      have below : ¬ Manages m.rank := fun manager => junior (inheritsDescendants_iff.mpr manager)
      simp only [below, false_and, or_false, eq_comm]

theorem expandMemberships_total (forest : Acyclic (db.DepartmentParent TENANT))
    (memberships : List Membership) :
    ∃ out, expandMemberships (db.departmentsOf TENANT) memberships = .ok out := by
  refine OrderedSet.foldlM_total (fun m _ s => ?_) .empty
  simp only
  split
  · exact addDescendants_total forest _ (depth_le _ _)
  · exact ⟨_, rfl⟩

/-- Where every department has a slug, no descendant is passed over. -/
theorem inherits_iff (named : NamedDepartments db.toTables) {deptId slug : String} :
    Inherits db.toTables deptId slug ↔
      ∃ d ∈ db.departments, d.slug = slug ∧ Below db.toTables d.id deptId := by
  refine ⟨And.right, ?_⟩
  rintro ⟨d, d_row, rfl, below⟩
  obtain ⟨_, ⟨e, e_row, tenant, same, -⟩, -⟩ := Relation.TransGen.head'_iff.mp below
  obtain rfl := Database.department_eq e_row d_row same
  exact ⟨named e e_row tenant, e, e_row, rfl, below⟩

/-- What the service reads, in terms of the rows. -/
theorem sees_iff (named : NamedDepartments db.toTables) {userId slug : String} :
    Sees db.toTables userId slug ↔ ∃ m ∈ db.membershipsOf userId, m.department.slug = slug ∨
      (Manages m.rank ∧ Inherits db.toTables m.department.id slug) := by
  simp only [inherits_iff named]
  constructor
  · rintro ⟨m, member, rfl, d, d_row, rfl, reached⟩
    obtain ⟨own, own_row, same⟩ :=
      List.mem_map.mp (db.valid.userDepartment_department m member)
    refine ⟨⟨m.rank, own⟩, Database.mem_membershipsOf.mpr ⟨own_row, same ▸ member⟩, ?_⟩
    rcases reached with here | ⟨manager, below⟩
    · exact Or.inl (congrArg Department.slug (Database.department_eq own_row d_row (same.trans here.symm)))
    · exact Or.inr ⟨manager, d, d_row, rfl, same ▸ below⟩
  · rintro ⟨m, listed, reached⟩
    obtain ⟨own_row, member⟩ := Database.mem_membershipsOf.mp listed
    refine ⟨_, member, rfl, ?_⟩
    rcases reached with rfl | ⟨manager, d, d_row, rfl, below⟩
    · exact ⟨m.department, own_row, rfl, Or.inl rfl⟩
    · exact ⟨d, d_row, rfl, Or.inr ⟨manager, below⟩⟩

theorem holdsKey_iff {userId key : String} :
    HoldsKey db.toTables userId key ↔ key ∈ (db.compartmentsOf userId).map Compartment.key := by
  simp only [HoldsKey, List.mem_map, Database.mem_compartmentsOf]
  constructor
  · rintro ⟨c, member, rfl, comp, comp_row, same, rfl⟩
    exact ⟨comp, ⟨comp_row, same ▸ member⟩, rfl⟩
  · rintro ⟨comp, ⟨comp_row, member⟩, rfl⟩
    exact ⟨_, member, rfl, comp, comp_row, rfl, rfl⟩

/-- The claims of a user in a database. -/
def claimsIn (t : Tables) (userId : String) : Except ServiceError EffectiveClaims :=
  (expandMemberships (t.departmentsOf TENANT) (t.membershipsOf userId)).map fun departments =>
    { departments := departments.toList
      compartments := (t.compartmentsOf userId).map Compartment.key }

theorem run_effectiveClaims {σ : Type} (userId : String) (w : World σ) :
    (effectiveClaims userId).run w = (claimsIn w.db.toTables userId, w) := by
  unfold effectiveClaims claimsIn
  rw [Prog.run_bind_ok (run_query _ w), Prog.run_bind_ok (run_query _ w),
    Prog.run_bind_ok (run_query _ w), Prog.run_bind, Prog.run_ofExcept]
  cases expandMemberships (w.db.departmentsOf TENANT) (w.db.membershipsOf userId) <;> rfl

/-- An answer, in terms of what the service reads. -/
theorem claimsIn_ok {userId : String} {claims : EffectiveClaims}
    (ok : claimsIn db.toTables userId = .ok claims) :
    claims.departments.Nodup ∧
      (∀ slug, slug ∈ claims.departments ↔ ∃ m ∈ db.membershipsOf userId,
        m.department.slug = slug ∨ (Manages m.rank ∧ Inherits db.toTables m.department.id slug)) ∧
      claims.compartments = (db.compartmentsOf userId).map Compartment.key := by
  unfold claimsIn at ok
  cases expanded : expandMemberships (db.departmentsOf TENANT) (db.membershipsOf userId) with
  | error e =>
      rw [expanded] at ok
      cases ok
  | ok departments =>
      rw [expanded] at ok
      cases ok
      refine ⟨departments.nodup, ?_, rfl⟩
      intro slug
      rw [OrderedSet.mem_toList, mem_expandMemberships expanded]

/-- An answer, in terms of the rows. -/
theorem mem_claims_iff {userId : String} {claims : EffectiveClaims}
    (ok : claimsIn db.toTables userId = .ok claims) :
    (∀ slug, slug ∈ claims.departments ↔ ∃ m ∈ db.userDepartments, m.userId = userId ∧
      ((∃ d ∈ db.departments, d.id = m.departmentId ∧ d.slug = slug) ∨
        (Manages m.rank ∧ Inherits db.toTables m.departmentId slug))) ∧
    ∀ key, key ∈ claims.compartments ↔ HoldsKey db.toTables userId key := by
  obtain ⟨-, departments, compartments⟩ := claimsIn_ok ok
  constructor
  · intro slug
    rw [departments]
    constructor
    · rintro ⟨m, listed, reached⟩
      obtain ⟨d_row, member⟩ := Database.mem_membershipsOf.mp listed
      exact ⟨_, member, rfl, reached.imp_left fun named => ⟨m.department, d_row, rfl, named⟩⟩
    · rintro ⟨m, member, rfl, reached⟩
      obtain ⟨own, own_row, same⟩ :=
        List.mem_map.mp (db.valid.userDepartment_department m member)
      refine ⟨⟨m.rank, own⟩, Database.mem_membershipsOf.mpr ⟨own_row, same ▸ member⟩, ?_⟩
      rcases reached with ⟨d, d_row, id, named⟩ | ⟨manager, below⟩
      · exact Or.inl (Database.department_eq own_row d_row (same.trans id.symm) ▸ named)
      · exact Or.inr ⟨manager, same ▸ below⟩
  · intro key
    rw [compartments, holdsKey_iff]

/-- An answer is the meaning. -/
theorem claimsIn_spec (named : NamedDepartments db.toTables) {userId : String}
    {claims : EffectiveClaims} (ok : claimsIn db.toTables userId = .ok claims) :
    claims.departments.Nodup ∧
      (∀ slug, slug ∈ claims.departments ↔ Sees db.toTables userId slug) ∧
      ∀ key, key ∈ claims.compartments ↔ HoldsKey db.toTables userId key := by
  obtain ⟨nodup, departments, compartments⟩ := claimsIn_ok ok
  refine ⟨nodup, ?_, ?_⟩
  · intro slug
    rw [departments, sees_iff named]
  · intro key
    rw [compartments, holdsKey_iff]

theorem claimsIn_total (forest : Acyclic (db.DepartmentParent TENANT)) (userId : String) :
    ∃ claims, claimsIn db.toTables userId = .ok claims := by
  obtain ⟨departments, expanded⟩ := expandMemberships_total forest (db.membershipsOf userId)
  exact ⟨_, by rw [claimsIn, expanded]; rfl⟩

/-! ## The order of rows -/

theorem departmentParent_reordered {t t' : Tables} (same : t.Reordered t') {child parent : String} :
    t.DepartmentParent TENANT child parent ↔ t'.DepartmentParent TENANT child parent := by
  simp only [Tables.DepartmentParent, same.departments.mem_iff]

theorem sees_reordered {t t' : Tables} (same : t.Reordered t') (userId slug : String) :
    Sees t userId slug ↔ Sees t' userId slug := by
  have links : t.DepartmentParent TENANT = t'.DepartmentParent TENANT :=
    funext fun _ => funext fun _ => propext (departmentParent_reordered same)
  simp only [Sees, Below, links, same.departments.mem_iff, same.userDepartments.mem_iff]

theorem holdsKey_reordered {t t' : Tables} (same : t.Reordered t') (userId key : String) :
    HoldsKey t userId key ↔ HoldsKey t' userId key := by
  simp only [HoldsKey, same.compartments.mem_iff, same.userCompartments.mem_iff]

/-- On a forest of departments `effectiveClaims` answers.  The departments are a
duplicate-free list of exactly the slugs the user sees, the compartments are exactly
the keys held, and another order of rows gives the same sets. -/
theorem effectiveClaims_iff_sees {σ : Type} {w : World σ}
    (forest : Acyclic (w.db.DepartmentParent TENANT)) (named : NamedDepartments w.db.toTables)
    (userId : String) :
    ∃ claims, (effectiveClaims userId).run w = (.ok claims, w) ∧
      claims.departments.Nodup ∧
      (∀ slug, slug ∈ claims.departments ↔ Sees w.db.toTables userId slug) ∧
      (∀ key, key ∈ claims.compartments ↔ HoldsKey w.db.toTables userId key) ∧
      ∀ w' : World σ, w.db.Reordered w'.db.toTables →
        ∃ claims', (effectiveClaims userId).run w' = (.ok claims', w') ∧
          (∀ slug, slug ∈ claims'.departments ↔ slug ∈ claims.departments) ∧
          ∀ key, key ∈ claims'.compartments ↔ key ∈ claims.compartments := by
  obtain ⟨claims, ok⟩ := claimsIn_total forest userId
  obtain ⟨nodup, departments, compartments⟩ := claimsIn_spec named ok
  refine ⟨claims, by rw [run_effectiveClaims, ok], nodup, departments, compartments, ?_⟩
  intro w' same
  have forest' : Acyclic (w'.db.DepartmentParent TENANT) :=
    forest.of_subrelation fun _ _ link => (departmentParent_reordered same).mpr link
  have named' : NamedDepartments w'.db.toTables :=
    fun d d_row => named d (same.departments.mem_iff.mpr d_row)
  obtain ⟨claims', ok'⟩ := claimsIn_total forest' userId
  obtain ⟨-, departments', compartments'⟩ := claimsIn_spec named' ok'
  refine ⟨claims', by rw [run_effectiveClaims, ok'], ?_, ?_⟩
  · intro slug
    rw [departments', departments, sees_reordered same]
  · intro key
    rw [compartments', compartments, holdsKey_reordered same]

theorem effectiveClaims_iff_sees_staffed :
    Sees staffed.toTables "admin@acme.test" "it" ∧ ¬ Sees staffed.toTables "admin@acme.test" "hr" := by
  obtain ⟨claims, run, -, sees, -⟩ := effectiveClaims_iff_sees (w := World.fresh () 0 staffed)
    (staffed_seeded.departments_acyclic TENANT) (by decide) "admin@acme.test"
  have answer : ((effectiveClaims "admin@acme.test").run (World.fresh () 0 staffed)).1 =
      .ok ⟨["it"], []⟩ := by decide
  rw [run] at answer
  cases answer
  exact ⟨(sees "it").mp (by decide), fun seen => absurd ((sees "hr").mpr seen) (by decide)⟩

end Arac.Org
