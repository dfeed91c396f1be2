/-
# Arac.Rbac.Resolver -- expanding role assignments into grants

`permsForRole` walks up the role hierarchy and memoises the permission set of every
role it has finished.  It recurses once per parent link; its fuel is the number of
role rows, and running out of it is the stack overflow that a cyclic hierarchy
causes.  `expandGrants` threads one memo table through all assignments of a user.

`Carries` is the meaning: a role carries a permission itself or through its parent.

* `permsForRole_ok`: whatever the memo table held, as long as it was right, an
  answer is the set of carried permissions and the table is right again.
* `permsForRole_total`: for a role that reaches no cycle there is an answer.  The rank
  of a role, how many roles reach it, rises with every parent link.
* `mem_expandGrants`: the grants are the carried permissions of the assigned roles
  under the assignments' scopes, with the floor of the permission.
-/
import Arac.Services.World
import Arac.Theory.Acyclic

namespace Arac.Rbac

open Arac.Theory Arac.Db

set_option autoImplicit false

/-! ## The code -/

structure Scope where
  tenant : Option String
  department : Option String
  deriving DecidableEq

structure Grant extends Scope where
  permission : String
  minLevel : Int
  deriving DecidableEq

/-- The scope of an assignment. -/
def scopeOf (a : UserRole) : Scope := ⟨a.scopeTenant, a.scopeDepartment⟩

/-- The memo table of `effectiveGrants`. -/
abbrev PermCache := String → Option (OrderedSet String)

/-- The permission keys of a role and all its ancestors.  The first argument bounds
the depth of the recursion. -/
def permsForRole (byId : String → Option RoleRow) :
    Nat → String → PermCache → Except ServiceError (OrderedSet String × PermCache)
  | fuel, roleId, cache =>
      match cache roleId with
      | some cached => .ok (cached, cache)
      | none =>
          match byId roleId with
          | none => .ok (.empty, Function.update cache roleId (some .empty))
          | some role =>
              let set := OrderedSet.empty.addAll (role.permissions.map Permission.key)
              match truthy role.parentId with
              | none => .ok (set, Function.update cache roleId (some set))
              | some parentId =>
                  match fuel with
                  | 0 => .error .rangeError
                  | fuel + 1 =>
                      match permsForRole byId fuel parentId cache with
                      | .error e => .error e
                      | .ok (inherited, cache) =>
                          let set := set.addAll inherited.toList
                          .ok (set, Function.update cache roleId (some set))

/-- The loop over the assignments. -/
def grantsFrom (byId : String → Option RoleRow) (minLevelByKey : String → Option Int) (fuel : Nat) :
    List UserRole → PermCache → Except ServiceError (List Grant)
  | [], _ => .ok []
  | a :: assignments, cache =>
      match permsForRole byId fuel a.roleId cache with
      | .error e => .error e
      | .ok (permissions, cache) =>
          match grantsFrom byId minLevelByKey fuel assignments cache with
          | .error e => .error e
          | .ok grants =>
              .ok (permissions.toList.map (fun permission =>
                { permission
                  tenant := a.scopeTenant
                  department := a.scopeDepartment
                  minLevel := (minLevelByKey permission).getD 3 }) ++ grants)

/-- `effectiveGrants`, once the assignments and the roles are loaded. -/
def expandGrants (roles : List RoleRow) (assignments : List UserRole) :
    Except ServiceError (List Grant) :=
  let byId := lookupTable (fun r : RoleRow => r.id) id roles
  let minLevelByKey := lookupTable Permission.key Permission.minLevel
    (roles.flatMap RoleRow.permissions)
  grantsFrom byId minLevelByKey roles.length assignments fun _ => none

/-! ## The meaning -/

/-- A role carries a permission key itself or through its parent. -/
inductive Carries (t : Tables) : String → String → Prop
  | own {roleId : String} {p : Permission} (direct : p ∈ t.permissionsOf roleId) :
      Carries t roleId p.key
  | inherited {roleId parentId key : String} (parent : t.RoleParent roleId parentId)
      (carries : Carries t parentId key) : Carries t roleId key

/-- The floor of a permission key. -/
def Floor (t : Tables) (key : String) (minLevel : Int) : Prop :=
  ∃ p ∈ t.permissions, p.key = key ∧ p.minLevel = minLevel

variable {db : Database}

/-- The index of the role rows that `expandGrants` builds. -/
def roleIndex (db : Database) : String → Option RoleRow :=
  lookupTable (fun r : RoleRow => r.id) id db.rolesWithPermissions

theorem roleIndex_role {r : Role} (r_row : r ∈ db.roles) :
    roleIndex db r.id = some { r with permissions := db.permissionsOf r.id } :=
  Database.rolesWithPermissions_lookup.mpr ⟨r_row, rfl, rfl⟩

/-- The parent link of an indexed row. -/
theorem roleParent_iff {roleId parentId : String} {row : RoleRow}
    (found : roleIndex db roleId = some row) :
    db.RoleParent roleId parentId ↔ row.parentId = some parentId := by
  obtain ⟨role_row, same, -⟩ := Database.rolesWithPermissions_lookup.mp found
  constructor
  · rintro ⟨r, r_row, rfl, parent⟩
    rwa [Database.role_eq r_row role_row same.symm] at parent
  · exact fun parent => ⟨row.toRole, role_row, same, parent⟩

theorem not_roleParent_of_none {roleId parentId : String} (absent : roleIndex db roleId = none) :
    ¬ db.RoleParent roleId parentId := by
  rintro ⟨r, r_row, rfl, -⟩
  exact Option.some_ne_none _ ((roleIndex_role r_row).symm.trans absent)

/-- A role that is not there carries nothing. -/
theorem not_carries_of_none {roleId key : String} (absent : roleIndex db roleId = none) :
    ¬ Carries db.toTables roleId key := by
  intro carries
  cases carries with
  | own direct =>
      have listed := db.valid.rolePermission_role _ (Database.mem_permissionsOf.mp direct).2
      obtain ⟨r, r_row, same⟩ := List.mem_map.mp listed
      subst same
      exact Option.some_ne_none _ ((roleIndex_role r_row).symm.trans absent)
  | inherited parent => exact not_roleParent_of_none absent parent

/-- What a role carries, from its own row and its parent. -/
theorem carries_iff {roleId key : String} {row : RoleRow} (found : roleIndex db roleId = some row) :
    Carries db.toTables roleId key ↔ key ∈ row.permissions.map Permission.key ∨
      ∃ parentId, row.parentId = some parentId ∧ Carries db.toTables parentId key := by
  have permissions := (Database.rolesWithPermissions_lookup.mp found).2.2
  rw [permissions]
  constructor
  · intro carries
    cases carries with
    | own direct => exact Or.inl (List.mem_map.mpr ⟨_, direct, rfl⟩)
    | inherited parent carries => exact Or.inr ⟨_, (roleParent_iff found).mp parent, carries⟩
  · rintro (direct | ⟨parentId, parent, carries⟩)
    · obtain ⟨p, member, rfl⟩ := List.mem_map.mp direct
      exact .own member
    · exact .inherited ((roleParent_iff found).mpr parent) carries

/-! ## The memo table -/

/-- Every memoised set is the right one. -/
def CacheOk (db : Database) (cache : PermCache) : Prop :=
  ∀ roleId set, cache roleId = some set → ∀ key, key ∈ set ↔ Carries db.toTables roleId key

theorem cacheOk_empty (db : Database) : CacheOk db fun _ => none := by
  intro roleId set cached
  cases cached

theorem CacheOk.update {cache : PermCache} (right : CacheOk db cache) {roleId : String}
    {set : OrderedSet String} (exact_set : ∀ key, key ∈ set ↔ Carries db.toTables roleId key) :
    CacheOk db (Function.update cache roleId (some set)) := by
  intro other set' cached
  by_cases same : other = roleId
  · subst same
    rw [Function.update_self] at cached
    cases cached
    exact exact_set
  · rw [Function.update_of_ne same] at cached
    exact right other set' cached

/-- The four ways to an answer: memoised, no such role, a root, a child. -/
theorem permsForRole_cases {byId : String → Option RoleRow} {fuel : Nat} {roleId : String}
    {cache cache' : PermCache} {set : OrderedSet String}
    (ok : permsForRole byId fuel roleId cache = .ok (set, cache')) :
    (cache roleId = some set ∧ cache' = cache) ∨
    (byId roleId = none ∧ set = .empty ∧ cache' = Function.update cache roleId (some set)) ∨
    ∃ row, byId roleId = some row ∧
      ((truthy row.parentId = none ∧
          set = OrderedSet.empty.addAll (row.permissions.map Permission.key) ∧
          cache' = Function.update cache roleId (some set)) ∨
        ∃ parentId fuel' inherited between, truthy row.parentId = some parentId ∧
          fuel = fuel' + 1 ∧
          permsForRole byId fuel' parentId cache = .ok (inherited, between) ∧
          set = (OrderedSet.empty.addAll (row.permissions.map Permission.key)).addAll
            inherited.toList ∧
          cache' = Function.update between roleId (some set)) := by
  unfold permsForRole at ok
  split at ok
  · rename_i cached at_cache
    cases ok
    exact Or.inl ⟨at_cache, rfl⟩
  · split at ok
    · rename_i absent
      cases ok
      exact Or.inr (Or.inl ⟨absent, rfl, rfl⟩)
    · rename_i row found
      refine Or.inr (Or.inr ⟨row, found, ?_⟩)
      split at ok
      · rename_i root
        cases ok
        exact Or.inl ⟨root, rfl, rfl⟩
      · rename_i parentId parent
        split at ok
        · cases ok
        · split at ok
          · cases ok
          · rename_i fuel' inherited between climbed
            cases ok
            exact Or.inr ⟨parentId, _, inherited, between, parent, rfl, climbed, rfl, rfl⟩

/-- An answer is the set of carried permissions, and the table stays right. -/
theorem permsForRole_ok {fuel : Nat} {roleId : String} {cache cache' : PermCache}
    {set : OrderedSet String} (right : CacheOk db cache)
    (ok : permsForRole (roleIndex db) fuel roleId cache = .ok (set, cache')) :
    (∀ key, key ∈ set ↔ Carries db.toTables roleId key) ∧ CacheOk db cache' := by
  induction fuel using Nat.strongRecOn generalizing roleId cache' set with
  | ind fuel ih =>
      rcases permsForRole_cases ok with ⟨cached, rfl⟩ | ⟨absent, rfl, rfl⟩ | ⟨row, found, rest⟩
      · exact ⟨right roleId set cached, right⟩
      · have nothing : ∀ key, key ∈ OrderedSet.empty ↔ Carries db.toTables roleId key :=
          fun key => by simp [not_carries_of_none absent]
        exact ⟨nothing, right.update nothing⟩
      · rw [Database.truthy_role_parent (Database.rolesWithPermissions_lookup.mp found).1] at rest
        rcases rest with ⟨root, rfl, rfl⟩ | ⟨parentId, fuel', inherited, between, parent, rfl,
          climbed, rfl, rfl⟩
        · have own : ∀ key, key ∈ OrderedSet.empty.addAll (row.permissions.map Permission.key) ↔
              Carries db.toTables roleId key := fun key => by simp [carries_iff found, root]
          exact ⟨own, right.update own⟩
        · obtain ⟨above, right'⟩ := ih fuel' (Nat.lt_succ_self fuel') climbed
          have both : ∀ key, key ∈ (OrderedSet.empty.addAll
              (row.permissions.map Permission.key)).addAll inherited.toList ↔
              Carries db.toTables roleId key := fun key => by
            simp [carries_iff found, parent, above]
          exact ⟨both, right'.update both⟩

/-- A parent link out of a role that reaches no cycle raises the number of roles that reach
the node. -/
theorem rank_lt_parent {roleId parentId : String} {row : RoleRow}
    (clear : ¬ ReachesCycle db.RoleParent roleId) (found : roleIndex db roleId = some row) (parent : truthy row.parentId = some parentId) :
    Acyclic.rank db.RoleParent db.roleIds.toFinset roleId <
      Acyclic.rank db.RoleParent db.roleIds.toFinset parentId := by
  obtain ⟨role_row, same, -⟩ := Database.rolesWithPermissions_lookup.mp found
  rw [Database.truthy_role_parent role_row] at parent
  have listed : roleId ∈ db.roleIds.toFinset :=
    List.mem_toFinset.mpr (List.mem_map.mpr ⟨_, role_row, same⟩)
  exact Acyclic.rank_lt (fun cycle => clear (.of_cycle cycle)) listed ((roleParent_iff found).mpr parent)

/-- The number of role rows is fuel enough for a role that reaches no cycle. -/
theorem permsForRole_total {fuel : Nat} {roleId : String}
    (clear : ¬ ReachesCycle db.RoleParent roleId) (cache : PermCache)
    (enough : db.roleIds.length ≤ fuel + Acyclic.rank db.RoleParent db.roleIds.toFinset roleId) :
    ∃ set cache', permsForRole (roleIndex db) fuel roleId cache = .ok (set, cache') := by
  induction fuel generalizing roleId with
  | zero =>
      unfold permsForRole
      split
      · exact ⟨_, _, rfl⟩
      · split
        · exact ⟨_, _, rfl⟩
        · rename_i row found
          split
          · exact ⟨_, _, rfl⟩
          · -- the parent would be reached by more roles than there are
            rename_i parentId parent
            have up := rank_lt_parent clear found parent
            have bound := Acyclic.rank_le_card db.RoleParent db.roleIds.toFinset parentId
            have card := List.toFinset_card_le db.roleIds
            omega
  | succ fuel ih =>
      unfold permsForRole
      split
      · exact ⟨_, _, rfl⟩
      · split
        · exact ⟨_, _, rfl⟩
        · rename_i row found
          split
          · exact ⟨_, _, rfl⟩
          · rename_i parentId parent
            have up := rank_lt_parent clear found parent
            have link : db.RoleParent roleId parentId := by
              rw [roleParent_iff found, ← parent, Database.truthy_role_parent
                (Database.rolesWithPermissions_lookup.mp found).1]
            obtain ⟨inherited, between, climbed⟩ :=
              ih (fun above => clear (above.of_link link)) (by omega)
            simp only [climbed]
            exact ⟨_, _, rfl⟩

/-! ## The grants -/

/-- The table of floors that `expandGrants` builds. -/
def minLevelIndex (db : Database) : String → Option Int :=
  lookupTable Permission.key Permission.minLevel (db.rolesWithPermissions.flatMap RoleRow.permissions)

/-- A carried key is that of a permission some role holds itself. -/
theorem Carries.permission {roleId key : String} (carries : Carries db.toTables roleId key) :
    ∃ p ∈ db.rolesWithPermissions.flatMap RoleRow.permissions, p.key = key ∧ p ∈ db.permissions := by
  induction carries with
  | own direct =>
      rename_i roleId p
      obtain ⟨p_row, held⟩ := Database.mem_permissionsOf.mp direct
      obtain ⟨r, r_row, rfl⟩ := List.mem_map.mp (db.valid.rolePermission_role _ held)
      refine ⟨p, List.mem_flatMap.mpr ⟨_, List.mem_map.mpr ⟨r, r_row, rfl⟩, direct⟩, rfl, p_row⟩
  | inherited _ _ ih => exact ih

theorem mem_rolePermissions {p : Permission}
    (held : p ∈ db.rolesWithPermissions.flatMap RoleRow.permissions) : p ∈ db.permissions := by
  obtain ⟨row, row_mem, member⟩ := List.mem_flatMap.mp held
  obtain ⟨r, -, rfl⟩ := List.mem_map.mp row_mem
  exact (Database.mem_permissionsOf.mp member).1

/-- The floor that is looked up for a carried key is the permission's own. -/
theorem minLevelIndex_iff {roleId key : String} (carries : Carries db.toTables roleId key)
    {minLevel : Int} : (minLevelIndex db key).getD 3 = minLevel ↔ Floor db.toTables key minLevel := by
  have agree : ∀ p ∈ db.rolesWithPermissions.flatMap RoleRow.permissions,
      ∀ q ∈ db.rolesWithPermissions.flatMap RoleRow.permissions, p.key = q.key →
        p.minLevel = q.minLevel := fun p held q held' same =>
    congrArg Permission.minLevel
      (Database.permission_eq_of_key (mem_rolePermissions held) (mem_rolePermissions held') same)
  obtain ⟨p, held, same, p_row⟩ := carries.permission
  have found : minLevelIndex db key = some p.minLevel :=
    (lookupTable_eq_some agree).mpr ⟨p, held, same, rfl⟩
  rw [found, Option.getD_some]
  constructor
  · rintro rfl
    exact ⟨p, p_row, same, rfl⟩
  · rintro ⟨q, q_row, same', rfl⟩
    rw [Database.permission_eq_of_key p_row q_row (same.trans same'.symm)]

theorem mem_grantsFrom {fuel : Nat} {assignments : List UserRole} {cache : PermCache}
    {grants : List Grant} (right : CacheOk db cache)
    (ok : grantsFrom (roleIndex db) (minLevelIndex db) fuel assignments cache = .ok grants)
    (g : Grant) :
    g ∈ grants ↔ ∃ a ∈ assignments, g.toScope = scopeOf a ∧
      Carries db.toTables a.roleId g.permission ∧ Floor db.toTables g.permission g.minLevel := by
  induction assignments generalizing cache grants with
  | nil =>
      cases ok
      simp
  | cons a assignments ih =>
      unfold grantsFrom at ok
      split at ok
      · cases ok
      · rename_i permissions cache' climbed
        split at ok
        · cases ok
        · rename_i later rest
          cases ok
          obtain ⟨exact_set, right'⟩ := permsForRole_ok right climbed
          rw [List.mem_append, ih right' rest, List.exists_mem_cons_iff]
          refine or_congr ?_ Iff.rfl
          simp only [List.mem_map, OrderedSet.mem_toList, exact_set]
          constructor
          · rintro ⟨key, carries, rfl⟩
            exact ⟨rfl, carries, (minLevelIndex_iff carries).mp rfl⟩
          · rintro ⟨scope, carries, floor⟩
            refine ⟨g.permission, carries, ?_⟩
            rw [(minLevelIndex_iff carries).mpr floor]
            obtain ⟨⟨tenant, department⟩, permission, minLevel⟩ := g
            simp only [scopeOf, Scope.mk.injEq] at scope
            simp [scope]

theorem grantsFrom_total {assignments : List UserRole}
    (clear : ∀ a ∈ assignments, ¬ ReachesCycle db.RoleParent a.roleId) (cache : PermCache) :
    ∃ grants, grantsFrom (roleIndex db) (minLevelIndex db) db.rolesWithPermissions.length assignments
      cache = .ok grants := by
  induction assignments generalizing cache with
  | nil => exact ⟨[], rfl⟩
  | cons a assignments ih =>
      have length : db.rolesWithPermissions.length = db.roleIds.length := by
        simp [Tables.rolesWithPermissions, Tables.roleIds]
      obtain ⟨set, cache', climbed⟩ := permsForRole_total (clear a List.mem_cons_self) cache
        (by rw [← length]; exact Nat.le_add_right _ _)
      obtain ⟨grants, rest⟩ := ih (fun b member => clear b (List.mem_cons_of_mem a member)) cache'
      exact ⟨_, by simp only [grantsFrom, climbed, rest]; rfl⟩

/-- The grants are the carried permissions under the assignments' scopes. -/
theorem mem_expandGrants {assignments : List UserRole} {grants : List Grant}
    (ok : expandGrants db.rolesWithPermissions assignments = .ok grants) (g : Grant) :
    g ∈ grants ↔ ∃ a ∈ assignments, g.toScope = scopeOf a ∧
      Carries db.toTables a.roleId g.permission ∧ Floor db.toTables g.permission g.minLevel :=
  mem_grantsFrom (cacheOk_empty db) ok g

theorem expandGrants_total (acyclic : Acyclic db.RoleParent) (assignments : List UserRole) :
    ∃ grants, expandGrants db.rolesWithPermissions assignments = .ok grants :=
  grantsFrom_total (fun a _ => acyclic.clear a.roleId) fun _ => none

end Arac.Rbac
