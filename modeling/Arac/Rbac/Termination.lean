/-
# Arac.Rbac.Termination -- role tables on which grant resolution ends

The schema lets a role name any role as its parent, itself included, and
`permsForRole` memoises a role only when the call for its parent has returned.  So a
call for a role from which the parent links run into a cycle finds nothing memoised
and never returns (`permsForRole_clear`): no depth of recursion is enough.

`answers_iff`: the checks of a user answer exactly where none of the user's roles
reaches a cycle.
-/
import Arac.Rbac.Service

namespace Arac.Rbac

open Arac.Theory Arac.Db Arac.Service

set_option autoImplicit false

variable {db : Database}

/-- None of the user's roles reaches a cycle of parent links. -/
def ClearOfCycles (db : Database) (userId : String) : Prop :=
  ∀ a ∈ db.userRoles, a.userId = userId → ¬ ReachesCycle db.RoleParent a.roleId

/-- Some depth of recursion is enough to resolve the user's assignments. -/
def Terminates (db : Database) (userId : String) : Prop :=
  ∃ depth grants, grantsFrom (roleIndex db) (minLevelIndex db) depth (db.assignmentsOf userId)
    (fun _ => none) = .ok grants

/-- The service answers whatever is asked about the user's grants, and changes nothing. -/
structure Answers {σ : Type} (w : World σ) (userId : String) : Prop where
  effectiveGrants : ∃ grants, (effectiveGrants userId).run w = (.ok grants, w)
  can : ∀ permission target, ∃ b, (can userId permission target).run w = (.ok b, w)
  scopesFor : ∀ permission, ∃ scopes, (scopesFor userId permission).run w = (.ok scopes, w)

/-! ## Above a cycle -/

/-- A role with one parent reaches what the parent reaches. -/
theorem reachesCycle_parent {roleId parentId : String} {row : RoleRow}
    (found : roleIndex db roleId = some row) (parent : row.parentId = some parentId)
    (above : ReachesCycle db.RoleParent roleId) : ReachesCycle db.RoleParent parentId := by
  obtain ⟨next, link, rest⟩ := above.link
  have same := (roleParent_iff found).mp link
  rw [parent] at same
  rwa [Option.some.inj same]

/-- Only roles that reach no cycle are memoised. -/
def MemoClear (db : Database) (cache : PermCache) : Prop :=
  ∀ roleId set, cache roleId = some set → ¬ ReachesCycle db.RoleParent roleId

theorem MemoClear.update {cache : PermCache} (memo : MemoClear db cache) {roleId : String}
    (clear : ¬ ReachesCycle db.RoleParent roleId) (set : OrderedSet String) :
    MemoClear db (Function.update cache roleId (some set)) := by
  intro other set' cached
  by_cases same : other = roleId
  · rwa [same]
  · rw [Function.update_of_ne same] at cached
    exact memo other set' cached

/-- A call that returns was for a role that reaches no cycle, at any depth. -/
theorem permsForRole_clear {depth : Nat} {roleId : String} {cache cache' : PermCache}
    {set : OrderedSet String} (memo : MemoClear db cache)
    (ok : permsForRole (roleIndex db) depth roleId cache = .ok (set, cache')) :
    ¬ ReachesCycle db.RoleParent roleId ∧ MemoClear db cache' := by
  induction depth using Nat.strongRecOn generalizing roleId cache' set with
  | ind depth ih =>
      rcases permsForRole_cases ok with ⟨cached, rfl⟩ | ⟨absent, rfl, rfl⟩ | ⟨row, found, rest⟩
      · exact ⟨memo roleId set cached, memo⟩
      · have clear : ¬ ReachesCycle db.RoleParent roleId := by
          intro above
          obtain ⟨parentId, link, -⟩ := above.link
          exact not_roleParent_of_none absent link
        exact ⟨clear, memo.update clear _⟩
      · rw [Database.truthy_role_parent (Database.rolesWithPermissions_lookup.mp found).1] at rest
        rcases rest with ⟨root, -, rfl⟩ | ⟨parentId, depth', inherited, between, parent, rfl, climbed,
          -, rfl⟩
        · have clear : ¬ ReachesCycle db.RoleParent roleId := by
            intro above
            obtain ⟨parentId, link, -⟩ := above.link
            rw [roleParent_iff found, root] at link
            cases link
          exact ⟨clear, memo.update clear _⟩
        · obtain ⟨above_clear, memo'⟩ := ih depth' (Nat.lt_succ_self depth') climbed
          have clear : ¬ ReachesCycle db.RoleParent roleId :=
            fun above => above_clear (reachesCycle_parent found parent above)
          exact ⟨clear, memo'.update clear _⟩

theorem grantsFrom_clear {depth : Nat} {assignments : List UserRole} {cache : PermCache}
    {grants : List Grant} (memo : MemoClear db cache)
    (ok : grantsFrom (roleIndex db) (minLevelIndex db) depth assignments cache = .ok grants) :
    ∀ a ∈ assignments, ¬ ReachesCycle db.RoleParent a.roleId := by
  induction assignments generalizing cache grants with
  | nil =>
      intro a impossible
      cases impossible
  | cons a assignments ih =>
      unfold grantsFrom at ok
      split at ok
      · cases ok
      · rename_i permissions cache' climbed
        split at ok
        · cases ok
        · rename_i later rest
          obtain ⟨clear, memo'⟩ := permsForRole_clear memo climbed
          intro b member
          rcases List.mem_cons.mp member with rfl | later
          · exact clear
          · exact ih memo' rest b later

/-! ## Where resolution ends -/

variable {userId : String}

theorem Terminates.clear (ends : Terminates db userId) : ClearOfCycles db userId := by
  obtain ⟨depth, grants, ok⟩ := ends
  have memo : MemoClear db fun _ => none := by
    intro roleId set impossible
    cases impossible
  intro a row mine
  exact grantsFrom_clear memo ok a (Tables.mem_assignmentsOf.mpr ⟨row, mine⟩)

/-- The number of role rows is depth enough. -/
theorem grantsIn_clear (clear : ClearOfCycles db userId) :
    ∃ grants, grantsFrom (roleIndex db) (minLevelIndex db) db.rolesWithPermissions.length
      (db.assignmentsOf userId) (fun _ => none) = .ok grants ∧
      grantsIn db.toTables userId = .ok grants := by
  have own : ∀ a ∈ db.assignmentsOf userId, ¬ ReachesCycle db.RoleParent a.roleId := by
    intro a member
    obtain ⟨row, mine⟩ := Tables.mem_assignmentsOf.mp member
    exact clear a row mine
  obtain ⟨grants, ok⟩ := grantsFrom_total own fun _ => none
  refine ⟨grants, ok, ?_⟩
  unfold grantsIn
  split
  · rename_i nobody
    rw [List.length_eq_zero_iff.mp nobody] at ok
    exact ok
  · exact ok

theorem terminates_iff : Terminates db userId ↔ ClearOfCycles db userId := by
  refine ⟨Terminates.clear, fun clear => ?_⟩
  obtain ⟨grants, ok, -⟩ := grantsIn_clear clear
  exact ⟨_, grants, ok⟩

/-- An answer of the service is one at the depth of the number of role rows. -/
theorem terminates_of_grantsIn {grants : List Grant} (ok : grantsIn db.toTables userId = .ok grants) :
    Terminates db userId := by
  unfold grantsIn at ok
  split at ok
  · rename_i nobody
    rw [Terminates, List.length_eq_zero_iff.mp nobody]
    exact ⟨0, [], rfl⟩
  · exact ⟨_, grants, ok⟩

/-- Resolution ends, at whatever depth, and the checks answer, exactly where none of the
user's roles reaches a cycle. -/
theorem answers_iff {σ : Type} (w : World σ) (userId : String) :
    (Terminates w.db userId ↔ ClearOfCycles w.db userId) ∧
      (Answers w userId ↔ ClearOfCycles w.db userId) := by
  refine ⟨terminates_iff, ?_, ?_⟩
  · intro answers
    obtain ⟨grants, run⟩ := answers.effectiveGrants
    rw [run_effectiveGrants] at run
    exact (terminates_of_grantsIn (congrArg Prod.fst run)).clear
  · intro clear
    obtain ⟨grants, -, ok⟩ := grantsIn_clear clear
    constructor
    · exact ⟨grants, by rw [run_effectiveGrants, ok]⟩
    · intro permission target
      exact ⟨_, by rw [run_can, ok]; rfl⟩
    · intro permission
      exact ⟨_, by rw [run_scopesFor, ok]; rfl⟩

/-! ## A role that is its own parent -/

/-- The staffed deployment after `dept-admin` was made its own parent. -/
def looped : Database where
  toTables := { staffed.toTables with
    roles := staffed.roles.map fun r =>
      if r.id = "dept-admin" then { r with parentId := some r.id } else r }
  valid := by constructor <;> decide

theorem not_always_terminates : ¬ ∀ {σ : Type} (w : World σ) (userId : String),
    Terminates w.db userId ∧ Answers w userId := by
  intro always
  have ends := (always (World.fresh () 0 looped) "dept-admin@acme.test").1
  have loop : looped.RoleParent "dept-admin" "dept-admin" := by
    unfold Tables.RoleParent
    decide
  exact ends.clear (confined "dept-admin@acme.test" "dept-admin") (by decide) rfl
    (.of_cycle (.single loop))

end Arac.Rbac
