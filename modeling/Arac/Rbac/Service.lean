/-
# Arac.Rbac.Service -- permission checks

The queries of `RbacService` around the resolver.  `Holds` is the declarative
meaning of a check: the user exists, meets the permission's floor, and has an
assignment whose role carries the permission under a scope that covers the target.

* `can_spec`: in any database a check that answers, answers `Holds`, and it changes
  nothing.
* `can_total`: with an acyclic role hierarchy it answers.
* `holds_reordered`: the meaning does not see the order of rows, hence neither do
  answers.
-/
import Arac.Rbac.Resolver
import Arac.Db.Seed

namespace Arac.Rbac

open Arac.Theory Arac.Db Arac.Service

set_option autoImplicit false

/-! ## The code -/

def USERS_READ : String := "users:read"
def USERS_GRANT : String := "users:grant"
def USERS_ASSIGN_ROLE : String := "users:assign-role"
def ORG_MANAGE : String := "org:manage"

/-- A grant covers a target if each scope field is null or equals the target's. -/
def covers (grant : Scope) : Option Scope → Bool
  | none => true
  | some target =>
      let tenantOk := grant.tenant = none || grant.tenant = target.tenant
      let deptOk := grant.department = none || grant.department = target.department
      tenantOk && deptOk

section

variable {σ : Type}

def effectiveGrants (userId : String) : Service σ (List Grant) := do
  let assignments ← query (·.assignmentsOf userId)
  if assignments.length = 0 then return []
  let roles ← query Tables.rolesWithPermissions
  Prog.ofExcept (expandGrants roles assignments)

def can (userId permission : String) (target : Option Scope) : Service σ Bool := do
  let grants ← effectiveGrants userId
  let matching := grants.filter fun g => g.permission = permission && covers g.toScope target
  match (matching.map Grant.minLevel).max? with
  | none => return false -- there is no matching grant
  | some required =>
      let user ← query (·.userById userId)
      match user with
      | none => return false
      | some user => return decide (user.level ≥ required)

/-- Distinct names of the roles assigned to the user. -/
def rolesFor (userId : String) : Service σ (List String) := do
  let names ← query fun t =>
    (t.assignmentsOf userId).filterMap fun a => (t.roleById a.roleId).map Role.name
  return (OrderedSet.empty.addAll names).toList

/-- The scopes in which the user has been granted the permission. -/
def scopesFor (userId permission : String) : Service σ (List Scope) := do
  let grants ← effectiveGrants userId
  return (grants.filter fun g => g.permission = permission).map Grant.toScope

end

/-! ## The meaning -/

/-- The scope reaches the target; without a target any scope does. -/
def Scope.Covers (s : Scope) : Option Scope → Prop
  | none => True
  | some target => (s.tenant = none ∨ s.tenant = target.tenant) ∧
      (s.department = none ∨ s.department = target.department)

instance (s : Scope) (target : Option Scope) : Decidable (s.Covers target) :=
  match target with
  | none => .isTrue trivial
  | some _ => inferInstanceAs (Decidable (_ ∧ _))

/-- A scope that reaches another reaches what the other reaches.  A null field is
matched by a null field only. -/
theorem Scope.Covers.trans {s s' : Scope} {target : Option Scope} (outer : s.Covers (some s'))
    (inner : s'.Covers target) : s.Covers target := by
  cases target with
  | none => trivial
  | some target =>
      obtain ⟨tenants, departments⟩ := outer
      obtain ⟨tenants', departments'⟩ := inner
      constructor
      · rcases tenants with all | same
        · exact Or.inl all
        · rw [same]
          exact tenants'
      · rcases departments with all | same
        · exact Or.inl all
        · rw [same]
          exact departments'

/-- Only a global scope covers everything. -/
theorem Scope.Covers.everything {s : Scope} (covers : s.Covers (some ⟨none, none⟩)) :
    s = ⟨none, none⟩ := by
  obtain ⟨tenant, department⟩ := s
  obtain ⟨tenants, departments⟩ := covers
  simp only [or_self] at tenants departments
  rw [tenants, departments]

/-- Some assignment of the user carries the permission over the target. -/
def Granted (t : Tables) (userId permission : String) (target : Option Scope) : Prop :=
  ∃ a ∈ t.userRoles, a.userId = userId ∧ Carries t a.roleId permission ∧ (scopeOf a).Covers target

/-- The user exists and meets the floor of the permission. -/
def ClearsFloor (t : Tables) (userId permission : String) : Prop :=
  ∃ u ∈ t.users, u.id = userId ∧ ∀ minLevel, Floor t permission minLevel → minLevel ≤ u.level

/-- The user holds the permission over the target. -/
def Holds (t : Tables) (userId permission : String) (target : Option Scope) : Prop :=
  ClearsFloor t userId permission ∧ Granted t userId permission target

theorem covers_iff {s : Scope} {target : Option Scope} : covers s target = true ↔ s.Covers target := by
  cases target <;> simp [covers, Scope.Covers]

variable {σ : Type} {w : World σ} {userId permission : String} {target : Option Scope}

theorem quiet_effectiveGrants (userId : String) :
    Quiet (effectiveGrants userId : Service σ (List Grant)) := by
  refine .bind (.query _) ?_
  intro assignments
  split
  · exact .pure _
  · exact .bind (.query _) fun roles => .ofExcept _

theorem quiet_can (userId permission : String) (target : Option Scope) :
    Quiet (can userId permission target : Service σ Bool) := by
  refine .bind (quiet_effectiveGrants userId) ?_
  intro grants
  dsimp only
  split
  · exact .pure _
  · refine .bind (.query _) ?_
    intro user
    cases user <;> exact .pure _

/-- The answer of `effectiveGrants` in a world. -/
def grantsIn (t : Tables) (userId : String) : Except ServiceError (List Grant) :=
  if (t.assignmentsOf userId).length = 0 then .ok []
  else expandGrants t.rolesWithPermissions (t.assignmentsOf userId)

theorem run_effectiveGrants (userId : String) (w : World σ) :
    (effectiveGrants userId).run w = (grantsIn w.db.toTables userId, w) := by
  unfold effectiveGrants grantsIn
  rw [Prog.run_bind_ok (run_query _ w)]
  split
  · rfl
  · rw [Prog.run_bind_ok (run_query _ w), Prog.run_ofExcept]

theorem mem_grantsIn {db : Database} {grants : List Grant}
    (ok : grantsIn db.toTables userId = .ok grants) (g : Grant) :
    g ∈ grants ↔ ∃ a ∈ db.userRoles, a.userId = userId ∧ g.toScope = scopeOf a ∧
      Carries db.toTables a.roleId g.permission ∧ Floor db.toTables g.permission g.minLevel := by
  unfold grantsIn at ok
  split at ok
  · rename_i nobody
    cases ok
    have none_assigned : ∀ a ∈ db.userRoles, a.userId ≠ userId := by
      intro a member same
      have := Tables.mem_assignmentsOf.mpr ⟨member, same⟩
      rw [List.length_eq_zero_iff.mp nobody] at this
      cases this
    constructor
    · intro member
      cases member
    · rintro ⟨a, member, same, -⟩
      exact absurd same (none_assigned a member)
  · rw [mem_expandGrants ok]
    simp only [Tables.mem_assignmentsOf, and_assoc]

theorem grantsIn_total {db : Database} (acyclic : Acyclic db.RoleParent) (userId : String) :
    ∃ grants, grantsIn db.toTables userId = .ok grants := by
  unfold grantsIn
  split
  · exact ⟨[], rfl⟩
  · exact expandGrants_total acyclic _

/-- A permission that is granted has a floor, and only one. -/
theorem Floor.unique {db : Database} {key : String} {m n : Int} (one : Floor db.toTables key m)
    (two : Floor db.toTables key n) : m = n := by
  obtain ⟨p, p_row, rfl, rfl⟩ := one
  obtain ⟨q, q_row, same, rfl⟩ := two
  rw [Database.permission_eq_of_key p_row q_row same.symm]

theorem Carries.floor {db : Database} {roleId key : String}
    (carries : Carries db.toTables roleId key) : ∃ minLevel, Floor db.toTables key minLevel := by
  obtain ⟨p, -, same, p_row⟩ := carries.permission
  exact ⟨p.minLevel, p, p_row, same, rfl⟩

theorem run_scopesFor (userId permission : String) (w : World σ) :
    (scopesFor userId permission).run w =
      ((grantsIn w.db.toTables userId).map fun grants =>
        (grants.filter fun g => g.permission = permission).map Grant.toScope, w) := by
  unfold scopesFor
  rw [Prog.run_bind, run_effectiveGrants]
  cases grantsIn w.db.toTables userId <;> rfl

/-- The scopes of a permission are those of the assignments that carry it. -/
theorem mem_scopes {db : Database} {grants : List Grant}
    (ok : grantsIn db.toTables userId = .ok grants) {s : Scope} :
    s ∈ (grants.filter fun g => g.permission = permission).map Grant.toScope ↔
      ∃ a ∈ db.userRoles, a.userId = userId ∧ s = scopeOf a ∧
        Carries db.toTables a.roleId permission := by
  simp only [List.mem_map, List.mem_filter, decide_eq_true_eq, mem_grantsIn ok]
  constructor
  · rintro ⟨g, ⟨⟨a, member, mine, scope, carries, -⟩, rfl⟩, rfl⟩
    exact ⟨a, member, mine, scope, carries⟩
  · rintro ⟨a, member, mine, rfl, carries⟩
    obtain ⟨m, floor⟩ := Carries.floor carries
    exact ⟨⟨scopeOf a, permission, m⟩, ⟨⟨a, member, mine, rfl, carries, floor⟩, rfl⟩, rfl⟩

/-- The verdict of `can`, given the grants. -/
def verdict (t : Tables) (grants : List Grant) (userId permission : String)
    (target : Option Scope) : Bool :=
  match ((grants.filter fun g => g.permission = permission && covers g.toScope target).map
      Grant.minLevel).max? with
  | none => false
  | some required =>
      match t.userById userId with
      | none => false
      | some user => decide (user.level ≥ required)

theorem run_can (userId permission : String) (target : Option Scope) (w : World σ) :
    (can userId permission target).run w =
      ((grantsIn w.db.toTables userId).map fun grants =>
        verdict w.db.toTables grants userId permission target, w) := by
  unfold can
  rw [Prog.run_bind, run_effectiveGrants]
  cases grantsIn w.db.toTables userId with
  | error e => rfl
  | ok grants =>
      simp only [Except.map, verdict]
      cases ((grants.filter fun g => g.permission = permission && covers g.toScope target).map
          Grant.minLevel).max? with
      | none => rfl
      | some required =>
          simp only
          rw [Prog.run_bind_ok (run_query _ w)]
          cases w.db.userById userId <;> rfl

theorem verdict_iff {db : Database} {grants : List Grant}
    (ok : grantsIn db.toTables userId = .ok grants) :
    verdict db.toTables grants userId permission target = true ↔
      Holds db.toTables userId permission target := by
  have matching : ∀ m, m ∈ (grants.filter fun g => g.permission = permission &&
      covers g.toScope target).map Grant.minLevel ↔
      Granted db.toTables userId permission target ∧ Floor db.toTables permission m := by
    intro m
    simp only [List.mem_map, List.mem_filter, Bool.and_eq_true, decide_eq_true_eq, covers_iff,
      mem_grantsIn ok]
    constructor
    · rintro ⟨g, ⟨⟨a, member, mine, scope, carries, floor⟩, rfl, covered⟩, rfl⟩
      exact ⟨⟨a, member, mine, carries, scope ▸ covered⟩, floor⟩
    · rintro ⟨⟨a, member, mine, carries, covered⟩, floor⟩
      exact ⟨⟨scopeOf a, permission, m⟩, ⟨⟨a, member, mine, rfl, carries, floor⟩, rfl, covered⟩, rfl⟩
  unfold verdict
  split
  · rename_i nothing
    have nobody : ¬ Granted db.toTables userId permission target := by
      rintro ⟨a, member, mine, carries, covered⟩
      obtain ⟨m, floor⟩ := carries.floor
      have := (matching m).mpr ⟨⟨a, member, mine, carries, covered⟩, floor⟩
      rw [List.max?_eq_none_iff.mp nothing] at this
      cases this
    simp [Holds, nobody]
  · rename_i required largest
    obtain ⟨granted, floor⟩ := (matching required).mp (List.max?_mem largest)
    split
    · rename_i absent
      have noUser : ¬ ClearsFloor db.toTables userId permission := by
        rintro ⟨u, u_row, rfl, -⟩
        rw [Database.userById_eq_some.mpr ⟨u_row, rfl⟩] at absent
        cases absent
      simp [Holds, noUser]
    · rename_i user found
      obtain ⟨user_row, same⟩ := Database.userById_eq_some.mp found
      simp only [ge_iff_le, decide_eq_true_eq]
      constructor
      · intro high
        exact ⟨⟨user, user_row, same, fun m floor' => (floor'.unique floor).symm ▸ high⟩, granted⟩
      · rintro ⟨⟨u, u_row, mine, clears⟩, -⟩
        rw [Database.user_eq user_row u_row (same.trans mine.symm)]
        exact clears required floor

/-- A check changes nothing, and an answer is the meaning of the check. -/
theorem can_spec (userId permission : String) (target : Option Scope) (w : World σ) :
    ∃ answer, (can userId permission target).run w = (answer, w) ∧
      ∀ b, answer = .ok b → (b = true ↔ Holds w.db.toTables userId permission target) := by
  refine ⟨_, run_can userId permission target w, ?_⟩
  intro b ok
  cases grants : grantsIn w.db.toTables userId with
  | error e =>
      rw [grants] at ok
      cases ok
  | ok gs =>
      rw [grants] at ok
      cases ok
      exact verdict_iff grants

/-- With an acyclic role hierarchy a check answers. -/
theorem can_total (acyclic : Acyclic w.db.RoleParent) (userId permission : String)
    (target : Option Scope) :
    ∃ b, (can userId permission target).run w = (.ok b, w) ∧
      (b = true ↔ Holds w.db.toTables userId permission target) := by
  obtain ⟨answer, run, meaning⟩ := can_spec userId permission target w
  obtain ⟨grants, ok⟩ := grantsIn_total acyclic userId
  have answered : answer = .ok (verdict w.db.toTables grants userId permission target) := by
    have both := run.symm.trans (run_can userId permission target w)
    rw [ok] at both
    exact congrArg Prod.fst both
  exact ⟨_, by rw [run, answered], meaning _ answered⟩

/-! ## Verdicts -/

/-- Where a user is. -/
def placeOf (u : User) : Scope := ⟨some u.tenant, some u.department⟩

/-- `can` answers true. -/
def Allowed (w : World σ) (userId permission : String) (target : Option Scope) : Prop :=
  ((can userId permission target).run w).1 = .ok true

/-- `can` answers false. -/
def Denied (w : World σ) (userId permission : String) (target : Option Scope) : Prop :=
  ((can userId permission target).run w).1 = .ok false

instance : Decidable (Allowed w userId permission target) := inferInstanceAs (Decidable (_ = _))

instance : Decidable (Denied w userId permission target) := inferInstanceAs (Decidable (_ = _))

theorem Allowed.holds (allowed : Allowed w userId permission target) :
    Holds w.db.toTables userId permission target := by
  obtain ⟨answer, run, meaning⟩ := can_spec userId permission target w
  rw [Allowed, run] at allowed
  exact (meaning true allowed).mp rfl

theorem allowed_iff_holds (acyclic : Acyclic w.db.RoleParent) :
    Allowed w userId permission target ↔ Holds w.db.toTables userId permission target := by
  obtain ⟨b, run, meaning⟩ := can_total acyclic userId permission target
  rw [Allowed, run, ← meaning, Except.ok.injEq]

theorem denied_iff_not_holds (acyclic : Acyclic w.db.RoleParent) :
    Denied w userId permission target ↔ ¬ Holds w.db.toTables userId permission target := by
  obtain ⟨b, run, meaning⟩ := can_total acyclic userId permission target
  rw [Denied, run, ← meaning, Except.ok.injEq, Bool.not_eq_true]

theorem permsForRole_error {byId : String → Option RoleRow} {fuel : Nat} {roleId : String}
    {cache : PermCache} {e : ServiceError}
    (failed : permsForRole byId fuel roleId cache = .error e) : e = .rangeError := by
  induction fuel using Nat.strongRecOn generalizing roleId with
  | ind fuel ih =>
      unfold permsForRole at failed
      split at failed
      · cases failed
      · split at failed
        · cases failed
        · split at failed
          · cases failed
          · split at failed
            · cases failed
              rfl
            · split at failed
              · rename_i climbed
                cases failed
                exact ih _ (Nat.lt_succ_self _) climbed
              · cases failed

theorem grantsFrom_error {byId : String → Option RoleRow} {minLevelByKey : String → Option Int}
    {fuel : Nat} {assignments : List UserRole} {cache : PermCache} {e : ServiceError}
    (failed : grantsFrom byId minLevelByKey fuel assignments cache = .error e) : e = .rangeError := by
  induction assignments generalizing cache with
  | nil => cases failed
  | cons a assignments ih =>
      unfold grantsFrom at failed
      split at failed
      · rename_i climbed
        cases failed
        exact permsForRole_error climbed
      · split at failed
        · rename_i rest
          cases failed
          exact ih rest
        · cases failed

theorem expandGrants_error {roles : List RoleRow} {assignments : List UserRole} {e : ServiceError}
    (failed : expandGrants roles assignments = .error e) : e = .rangeError := grantsFrom_error failed

/-- A check fails only by exhausting the stack. -/
theorem can_error {e : ServiceError}
    (failed : ((can userId permission target).run w).1 = .error e) : e = .rangeError := by
  rw [run_can] at failed
  cases grants : grantsIn w.db.toTables userId with
  | ok gs =>
      rw [grants] at failed
      cases failed
  | error e' =>
      rw [grants] at failed
      cases failed
      unfold grantsIn at grants
      split at grants
      · cases grants
      · exact grantsFrom_error grants

/-! ## What a check depends on -/

/-- The tables that define the roles have the same rows. -/
structure SameRoles (t t' : Tables) : Prop where
  roles : ∀ r, r ∈ t.roles ↔ r ∈ t'.roles
  rolePermissions : ∀ rp, rp ∈ t.rolePermissions ↔ rp ∈ t'.rolePermissions
  permissions : ∀ p, p ∈ t.permissions ↔ p ∈ t'.permissions

namespace SameRoles

variable {db db' : Database}

theorem refl (t : Tables) : SameRoles t t := ⟨fun _ => .rfl, fun _ => .rfl, fun _ => .rfl⟩

theorem symm {t t' : Tables} (same : SameRoles t t') : SameRoles t' t :=
  ⟨fun r => (same.roles r).symm, fun rp => (same.rolePermissions rp).symm,
    fun p => (same.permissions p).symm⟩

theorem roleParent {t t' : Tables} (same : SameRoles t t') {child parent : String} :
    t.RoleParent child parent ↔ t'.RoleParent child parent := by
  simp only [Tables.RoleParent, same.roles]

theorem acyclic {t t' : Tables} (same : SameRoles t t') (acyclic : Acyclic t.RoleParent) :
    Acyclic t'.RoleParent :=
  acyclic.of_subrelation fun _ _ link => same.roleParent.mpr link

theorem carries (same : SameRoles db.toTables db'.toTables) {roleId key : String}
    (carries : Carries db.toTables roleId key) : Carries db'.toTables roleId key := by
  induction carries with
  | own direct =>
      obtain ⟨p_row, held⟩ := Database.mem_permissionsOf.mp direct
      exact .own (Database.mem_permissionsOf.mpr
        ⟨(same.permissions _).mp p_row, (same.rolePermissions _).mp held⟩)
  | inherited parent _ ih => exact .inherited (same.roleParent.mp parent) ih

theorem carries_iff (same : SameRoles db.toTables db'.toTables) {roleId key : String} :
    Carries db.toTables roleId key ↔ Carries db'.toTables roleId key :=
  ⟨same.carries, same.symm.carries⟩

theorem floor_iff {t t' : Tables} (same : SameRoles t t') {key : String} {minLevel : Int} :
    Floor t key minLevel ↔ Floor t' key minLevel := by
  simp only [Floor, same.permissions]

theorem of_reordered {t t' : Tables} (same : t.Reordered t') : SameRoles t t' :=
  ⟨fun _ => same.roles.mem_iff, fun _ => same.rolePermissions.mem_iff,
    fun _ => same.permissions.mem_iff⟩

end SameRoles

/-- The meaning of a check does not depend on the order of rows. -/
theorem holds_reordered {db db' : Database} (same : db.Reordered db'.toTables)
    (userId permission : String) (target : Option Scope) :
    Holds db.toTables userId permission target ↔ Holds db'.toTables userId permission target := by
  have roles := SameRoles.of_reordered same
  simp only [Holds, ClearsFloor, Granted, roles.floor_iff, roles.carries_iff, same.users.mem_iff,
    same.userRoles.mem_iff]

/-- With an acyclic hierarchy `can` always answers, its answer is `Holds`, and the
same rows in any other order give the same answer. -/
theorem can_iff_holds {σ : Type} {w : World σ} (acyclic : Acyclic w.db.RoleParent)
    (userId permission : String) (target : Option Scope) :
    (∃ b, (can userId permission target).run w = (.ok b, w) ∧
      (b = true ↔ Holds w.db.toTables userId permission target)) ∧
    ∀ w' : World σ, w.db.Reordered w'.db.toTables →
      ((can userId permission target).run w').1 = ((can userId permission target).run w).1 := by
  have answers := can_total acyclic userId permission target
  refine ⟨answers, ?_⟩
  intro w' same
  have acyclic' : Acyclic w'.db.RoleParent := (SameRoles.of_reordered same).acyclic acyclic
  obtain ⟨b, run, meaning⟩ := answers
  obtain ⟨b', run', meaning'⟩ := can_total acyclic' userId permission target
  rw [run, run']
  have agree : b' = true ↔ b = true :=
    meaning'.trans ((holds_reordered same userId permission target).symm.trans meaning.symm)
  rw [Bool.eq_iff_iff.mpr agree]

/-- A user administrator inherits `users:grant` from the parent role, in the scope of
the assignment. -/
theorem can_iff_holds_inherited :
    Holds staffed.toTables "user-admin@acme.test" USERS_GRANT (some ⟨some "acme", some "finance"⟩) := by
  obtain ⟨⟨b, run, meaning⟩, -⟩ := can_iff_holds (w := World.fresh () 0 staffed)
    staffed_seeded.roles_acyclic "user-admin@acme.test" USERS_GRANT
    (some ⟨some "acme", some "finance"⟩)
  have answered : Allowed (World.fresh () 0 staffed) "user-admin@acme.test" USERS_GRANT
      (some ⟨some "acme", some "finance"⟩) := by decide
  rw [Allowed, run] at answered
  exact meaning.mp (Except.ok.inj answered)

/-- The level of the seeded administrator clears every seeded floor. -/
theorem seed_admin_allowed : ∀ p ∈ seed.permissions,
    Allowed (World.fresh () 0 seed) "admin@acme.test" p.key none := by decide

end Arac.Rbac
