/-
# Arac.Org.Growth -- what a new department does to claims

A new department has no children and nobody is a member of it.  The claims of a
user who manages no department above it stay as they are, to the order of the list
(`claimsIn_outside`); a user who does manage one gains the new slug and nothing
else (`claimsIn_onlyAdds`).

The first half is about the recursion itself: `addDescendants_congr` says that it
depends only on the part of the tree it walks, and that more fuel than it needs
changes nothing.
-/
import Arac.Org.Claims

namespace Arac.Org

open Arac.Theory Arac.Db

set_option autoImplicit false

/-! ## The recursion -/

section

variable {slugOf slugOf' : String → Option String} {childrenOf childrenOf' : String → List String}
  {T : String → Prop}

/-- Two indexes that agree on a part of the tree, closed under children, give the
same answer there. -/
theorem addDescendants_congr
    (agree : ∀ deptId, T deptId → childrenOf' deptId = childrenOf deptId ∧
      ∀ childId ∈ childrenOf deptId, T childId ∧ slugOf' childId = slugOf childId)
    {fuel fuel' : Nat} (enough : fuel ≤ fuel') {deptId : String} (inside : T deptId)
    {out out' : OrderedSet String}
    (ok : addDescendants slugOf childrenOf fuel deptId out = .ok out') :
    addDescendants slugOf' childrenOf' fuel' deptId out = .ok out' := by
  induction fuel generalizing fuel' deptId out out' with
  | zero =>
      unfold addDescendants at ok
      split at ok
      · rename_i leaf
        have leaf' : childrenOf' deptId = [] := (agree deptId inside).1.trans leaf
        cases fuel' with
        | zero => rwa [addDescendants, if_pos leaf']
        | succ fuel' =>
            rw [addDescendants, leaf']
            exact ok
      · cases ok
  | succ fuel ih =>
      obtain ⟨same, below⟩ := agree deptId inside
      cases fuel' with
      | zero => omega
      | succ fuel' =>
          rw [addDescendants] at ok ⊢
          rw [same]
          refine OrderedSet.foldlM_mono (fun childId member s s' added => ?_) ok
          obtain ⟨inside', slug⟩ := below childId member
          rw [slug]
          exact ih (by omega) inside' added

end

/-! ## A new department -/

section

variable {db db' : Database} {d : Department} {userId : String}

/-- The table after `department.create`. -/
structure Extends (db db' : Database) (d : Department) : Prop where
  tables : db'.toTables = { db.toTables with departments := db.departments ++ [d] }
  fresh : d.id ∉ db.departmentIds
  parent : ∀ p ∈ d.parentId, p ∈ db.departmentIds
  tenant : d.tenant = TENANT

namespace Extends

theorem mem_departments (grown : Extends db db' d) {e : Department} :
    e ∈ db'.departments ↔ e ∈ db.departments ∨ e = d := by
  rw [grown.tables]
  simp

/-- Nobody was a member of it. -/
theorem membershipsOf (grown : Extends db db' d) :
    db'.membershipsOf userId = db.membershipsOf userId := by
  simp only [Tables.membershipsOf, grown.tables]
  refine List.filterMap_congr fun m member => congrArg _ ?_
  obtain ⟨e, e_row, same⟩ := List.mem_map.mp
    (db.valid.userDepartment_department m (List.mem_of_mem_filter member))
  simp only [Tables.departmentById, List.find?_append]
  rw [← Tables.departmentById, Database.departmentById_eq_some.mpr ⟨e_row, same⟩]
  rfl

theorem departmentsOf (grown : Extends db db' d) :
    db'.departmentsOf TENANT = db.departmentsOf TENANT ++ [d] := by
  simp only [Tables.departmentsOf, grown.tables, List.filter_append]
  simp [grown.tenant]

/-- A link is an old one, or that of the new department. -/
theorem departmentParent_iff (grown : Extends db db' d) {child parent : String} :
    db'.DepartmentParent TENANT child parent ↔ db.DepartmentParent TENANT child parent ∨
      (child = d.id ∧ d.parentId = some parent) := by
  simp only [Tables.DepartmentParent, grown.mem_departments]
  constructor
  · rintro ⟨e, e_row | rfl, tenant, rfl, parent⟩
    · exact Or.inl ⟨e, e_row, tenant, rfl, parent⟩
    · exact Or.inr ⟨rfl, parent⟩
  · rintro (⟨e, e_row, tenant, rfl, parent⟩ | ⟨rfl, parent⟩)
    · exact ⟨e, Or.inl e_row, tenant, rfl, parent⟩
    · exact ⟨d, Or.inr rfl, grown.tenant, rfl, parent⟩

/-- No department has the new one as its parent. -/
theorem not_parent (grown : Extends db db' d) {child : String} :
    ¬ db.DepartmentParent TENANT child d.id := by
  rintro ⟨e, e_row, -, -, parent⟩
  exact grown.fresh (db.valid.department_parent e e_row _ parent)

theorem forest (grown : Extends db db' d) (forest : Acyclic (db.DepartmentParent TENANT)) :
    Acyclic (db'.DepartmentParent TENANT) := by
  -- the new department is a node without children
  have downwards : Acyclic (Function.swap (db'.DepartmentParent TENANT)) := by
    refine Acyclic.insert_sink d.id forest.swap ?_ ?_
    · intro child link
      rcases grown.departmentParent_iff.mp link with old | ⟨-, own⟩
      · exact grown.not_parent old
      · exact grown.fresh (grown.parent _ own)
    · intro parent child link ne
      rcases grown.departmentParent_iff.mp link with old | ⟨same, -⟩
      · exact old
      · exact absurd same ne
  exact downwards.swap

theorem below (grown : Extends db db' d) {e a : String} (below : Below db.toTables e a) :
    Below db'.toTables e a :=
  Relation.TransGen.mono (fun _ _ link => grown.departmentParent_iff.mpr (Or.inl link)) _ _ below

/-- Old departments lie where they lay. -/
theorem below_old (grown : Extends db db' d) {e a : String} (below : Below db'.toTables e a)
    (old : e ≠ d.id) : Below db.toTables e a := by
  induction below with
  | single link =>
      rcases grown.departmentParent_iff.mp link with link | ⟨same, -⟩
      · exact .single link
      · exact absurd same old
  | tail _ link ih =>
      rcases grown.departmentParent_iff.mp link with link | ⟨same, -⟩
      · exact ih.tail link
      · -- the new department is nobody's parent
        rw [same] at ih
        obtain ⟨b, -, last⟩ := Relation.TransGen.tail'_iff.mp ih
        exact absurd last grown.not_parent

end Extends

/-- The user is a manager of the department or of one above it. -/
def ManagesAbove (t : Tables) (userId deptId : String) : Prop :=
  ∃ m ∈ t.userDepartments, m.userId = userId ∧ Manages m.rank ∧
    (deptId = m.departmentId ∨ Below t deptId m.departmentId)

/-- The same claims, but for one slug that may have been added. -/
structure OnlyAdds (slug : String) (before after : EffectiveClaims) : Prop where
  compartments : after.compartments = before.compartments
  kept : ∀ s ∈ before.departments, s ∈ after.departments
  added : ∀ s ∈ after.departments, s ∈ before.departments ∨ s = slug

/-- The new department is not placed below `a`. -/
def Apart (t : Tables) (d : Department) (a : String) : Prop :=
  ∀ p ∈ d.parentId, ¬ (p = a ∨ Below t p a)

theorem Apart.child {a child : String} (apart : Apart db.toTables d a)
    (link : db.DepartmentParent TENANT child a) : Apart db.toTables d child := by
  rintro p parent (rfl | below)
  · exact apart p parent (Or.inr (below_iff.mpr ⟨p, link, Or.inl rfl⟩))
  · exact apart p parent (Or.inr (below_iff.mpr ⟨child, link, Or.inr below⟩))

/-- Outside the subtrees the user manages a new department changes no claim. -/
theorem claimsIn_outside (grown : Extends db db' d)
    (compartments : db'.compartmentsOf userId = db.compartmentsOf userId)
    (outside : ∀ p ∈ d.parentId, ¬ ManagesAbove db.toTables userId p) {claims : EffectiveClaims}
    (ok : claimsIn db.toTables userId = .ok claims) : claimsIn db'.toTables userId = .ok claims := by
  unfold claimsIn at ok ⊢
  rw [grown.membershipsOf, compartments, grown.departmentsOf]
  cases expanded : expandMemberships (db.departmentsOf TENANT) (db.membershipsOf userId) with
  | error e =>
      rw [expanded] at ok
      cases ok
  | ok out =>
      rw [expanded] at ok
      suffices same : expandMemberships (db.departmentsOf TENANT ++ [d]) (db.membershipsOf userId) =
          .ok out by
        rw [same]
        exact ok
      have agree : ∀ a, Apart db.toTables d a →
          childIndex (db.departmentsOf TENANT ++ [d]) a = childIndex (db.departmentsOf TENANT) a ∧
            ∀ child ∈ childIndex (db.departmentsOf TENANT) a, Apart db.toTables d child ∧
              slugIndex (db.departmentsOf TENANT ++ [d]) child =
                slugIndex (db.departmentsOf TENANT) child := by
        intro a apart
        have elsewhere : truthy d.parentId ≠ some a := by
          intro parent
          exact apart a (Option.filter_eq_some_iff.mp parent).1 (Or.inl rfl)
        refine ⟨by simp [childIndex, groupTable_eq, elsewhere], ?_⟩
        intro child listed
        have link := mem_childIndex.mp listed
        refine ⟨apart.child link, ?_⟩
        obtain ⟨e, e_row, tenant, rfl, -⟩ := link
        rw [← grown.departmentsOf, slugIndex_eq_some.mpr ⟨e, e_row, tenant, rfl, rfl⟩,
          slugIndex_eq_some.mpr ⟨e, grown.mem_departments.mpr (Or.inl e_row), tenant, rfl, rfl⟩]
      refine OrderedSet.foldlM_mono (fun m member s s' added => ?_) expanded
      simp only at added ⊢
      split
      · rename_i manager
        rw [if_pos manager] at added
        refine addDescendants_congr agree (by simp) ?_ added
        intro p parent here
        obtain ⟨-, row⟩ := Database.mem_membershipsOf.mp member
        exact outside p parent ⟨_, row, rfl, inheritsDescendants_iff.mp manager, here⟩
      · rename_i junior
        rwa [if_neg junior] at added

/-- A new department adds its own slug at most. -/
theorem claimsIn_onlyAdds (grown : Extends db db' d)
    (compartments : db'.compartmentsOf userId = db.compartmentsOf userId)
    {before after : EffectiveClaims} (ok : claimsIn db.toTables userId = .ok before)
    (ok' : claimsIn db'.toTables userId = .ok after) : OnlyAdds d.slug before after := by
  obtain ⟨-, departments, keys⟩ := claimsIn_ok ok
  obtain ⟨-, departments', keys'⟩ := claimsIn_ok ok'
  rw [grown.membershipsOf] at departments'
  refine ⟨by rw [keys, keys', compartments], ?_, ?_⟩
  · intro s seen
    obtain ⟨m, member, own | ⟨manager, nonempty, e, e_row, same, below⟩⟩ := (departments s).mp seen
    · exact (departments' s).mpr ⟨m, member, Or.inl own⟩
    · exact (departments' s).mpr ⟨m, member, Or.inr ⟨manager, nonempty, e,
        grown.mem_departments.mpr (Or.inl e_row), same, grown.below below⟩⟩
  · intro s seen
    obtain ⟨m, member, own | ⟨manager, nonempty, e, e_row, rfl, below⟩⟩ := (departments' s).mp seen
    · exact Or.inl ((departments s).mpr ⟨m, member, Or.inl own⟩)
    · rcases grown.mem_departments.mp e_row with e_row | rfl
      · have old : e.id ≠ d.id := fun same => grown.fresh (same ▸ List.mem_map_of_mem e_row)
        exact Or.inl ((departments _).mpr ⟨m, member, Or.inr ⟨manager, nonempty, e, e_row, rfl,
          grown.below_old below old⟩⟩)
      · exact Or.inr rfl

end

end Arac.Org
