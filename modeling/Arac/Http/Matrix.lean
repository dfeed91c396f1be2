/-
# Arac.Http.Matrix -- a deployment enforces the permission matrix

No request writes the tables of roles and permissions; only the seed script does, at every
start of the service.  So in every run of a deployment, through restarts whose script stops at
any of its calls, checks answer and allow nothing beyond the matrix (`ruled_run`).  From a
script that has completed they answer exactly what it says, until another one is cut short
(`matrix_run`).
-/
import Arac.Http.Bounds
import Arac.Seed.Matrix

namespace Arac.Http

open Arac.Theory Arac.Sessions Arac.Db Arac.Service Arac.Admin Arac.Org Arac.Auth Arac.Mediation
  Arac.Config Arac.Seed
open Arac.Rbac (Scope can)

set_option autoImplicit false

section

variable {σ : Type} {app : App σ} {validator : Validator} {w₀ w₁ w₂ w w' : World σ}

/-- No operation writes the tables that define what roles give. -/
theorem change_rules {known : Db.User → Prop} {op : Operation} {db db' : Database}
    (change : Change known op db db') : SameRules db.toTables db'.toTables := by
  cases change with
  | account _ _ _ _ _ ok =>
      rw [(Database.userCreate_ok ok).1]
      exact ⟨rfl, rfl, rfl⟩
  | password _ _ ok =>
      rw [Database.userUpdate_ok ok]
      exact ⟨rfl, rfl, rfl⟩
  | attributes _ _ ok =>
      rw [Database.userUpdate_ok ok]
      exact ⟨rfl, rfl, rfl⟩
  | assignment _ ok =>
      rw [Database.userRoleCreate_ok ok]
      exact ⟨rfl, rfl, rfl⟩
  | removal _ _ _ _ done =>
      rw [done]
      exact ⟨rfl, rfl, rfl⟩
  | department _ _ _ ok =>
      rw [(Database.departmentCreate_ok ok).1]
      exact ⟨rfl, rfl, rfl⟩
  | compartment _ _ _ ok =>
      rw [(Database.compartmentCreate_ok ok).1]
      exact ⟨rfl, rfl, rfl⟩
  | memberships _ _ ok =>
      rw [Database.setUserDepartments_ok ok]
      exact ⟨rfl, rfl, rfl⟩
  | compartments _ _ ok =>
      rw [Database.setUserCompartments_ok ok]
      exact ⟨rfl, rfl, rfl⟩

theorem served_rules (step : Served app validator w w') :
    SameRules w.db.toTables w'.db.toTables := by
  cases step with
  | elapse => exact .refl _
  | request draws r =>
      rcases gateway_cases app validator draws r w with same | ⟨op, result, carries, -, ran⟩
      · rw [same]
        exact .refl _
      · rcases operation_writes ran with same | wrote
        · rw [same]
          exact .refl _
        · exact change_rules wrote.change

/-- Of what depends on the roles and permissions only, a deployment keeps what the seed keeps. -/
theorem deployed_keeps {J : Tables → Prop} (congr : ∀ t t', J t → SameRules t t' → J t')
    (seeded : ∀ db db', SeedWrite db db' → J db.toTables → J db'.toTables)
    (run : Relation.ReflTransGen (Deployed app validator) w₀ w) (start : J w₀.db.toTables) :
    J w.db.toTables := by
  induction run with
  | refl => exact start
  | tail _ last ih =>
      cases last with
      | served step => exact congr _ _ ih (served_rules step)
      | seeded processEnv draws fates =>
          exact (main_writes app.env processEnv draws).stopsIn (J := fun db => J db.toTables) seeded ih
            fates 0

/-- In every run of a deployment from tables that give nothing beyond the permission matrix,
every check answers, and allows nothing beyond it. -/
theorem ruled_run (start : Ruled w₀.db.toTables)
    (run : Relation.ReflTransGen (Deployed app validator) w₀ w) (userId permission : String)
    (target : Option Scope) :
    ∃ b, (can userId permission target).run w = (.ok b, w) ∧
      (b = true → Permitted w.db.toTables userId permission target) :=
  have ruled := deployed_keeps (fun _ _ => Ruled.congr) (fun _ _ => Ruled.seeded) run start
  ruled.can userId permission target

/-- Somebody sends a request, time passes, or the service restarts and every call of its seed
script answers. -/
inductive Maintained (app : App σ) (validator : Validator) : World σ → World σ → Prop
  | served {w w' : World σ} (step : Served app validator w w') : Maintained app validator w w'
  | seeded (processEnv : ProcessEnv) (draws : SeedDraws) (w : World σ) :
      Maintained app validator w ((main app.env processEnv draws).run w).2

theorem Maintained.enforced (step : Maintained app validator w w')
    (enforced : Enforced w.db.toTables) : Enforced w'.db.toTables := by
  cases step with
  | served step => exact enforced.congr (served_rules step)
  | seeded processEnv draws => exact keeps_main app.env processEnv draws w enforced

theorem Maintained.deployed (step : Maintained app validator w w') : Deployed app validator w w' := by
  cases step with
  | served step => exact .served step
  | seeded processEnv draws =>
      have whole : Deployed app validator w
          ((main app.env processEnv draws).runUnder (fun _ => .answers) 0 w).2.2 :=
        .seeded processEnv draws (fun _ => .answers) w
      rwa [Prog.runUnder_answers] at whole

/-- After any run of a deployment, once a script of the seed has completed, and for as long as
the scripts of later restarts are not cut short, every check answers what the permission matrix
says. -/
theorem matrix_run {processEnv : ProcessEnv} {draws : SeedDraws} (named : Named w₀.db.toTables)
    (before : Relation.ReflTransGen (Deployed app validator) w₀ w₁)
    (seeded : (main app.env processEnv draws).run w₁ = (.ok (), w₂))
    (run : Relation.ReflTransGen (Maintained app validator) w₂ w) (userId permission : String)
    (target : Option Scope) :
    ∃ b, (can userId permission target).run w = (.ok b, w) ∧
      (b = true ↔ Permitted w.db.toTables userId permission target) := by
  have completed : Deployed app validator w₁ w₂ := by
    have step : Maintained app validator w₁ ((main app.env processEnv draws).run w₁).2 :=
      .seeded processEnv draws w₁
    rw [seeded] at step
    exact step.deployed
  have whole : Relation.ReflTransGen (Deployed app validator) w₀ w :=
    (before.tail completed).trans (Relation.ReflTransGen.mono (fun _ _ => Maintained.deployed) _ _ run)
  have named' := deployed_keeps (fun _ _ => Named.congr) (fun _ _ => Named.seeded) whole named
  have enforced : Enforced w.db.toTables := by
    clear whole named'
    induction run with
    | refl => exact main_enforces seeded
    | tail _ last ih => exact last.enforced ih
  exact enforced.can named' userId permission target

end

/-! ## The first start of a deployment -/

def blank : Database where
  toTables := ⟨[], [], [], [], [], [], [], [], []⟩
  valid := by constructor <;> decide

def installed : World RedisSessions := .fresh .empty 0 blank

def firstSeed : Except ServiceError Unit × World RedisSessions :=
  (main sampleApp.env (fun _ => none) (seedingDraws "s1")).run installed

/-- A check of the administrator over the finance department. -/
def adminCheck (w : World RedisSessions) : Except ServiceError Bool :=
  ((can "admin@acme.test" Rbac.USERS_GRANT (some ⟨some "acme", some "finance"⟩)).run w).1

theorem ruled_run_firstSeed : ∃ b, adminCheck firstSeed.2 = .ok b := by
  have start : Ruled installed.db.toTables :=
    ⟨fun _ member => (List.not_mem_nil member).elim, fun _ member => (List.not_mem_nil member).elim⟩
  have step : Deployed sampleApp sampleValidator installed firstSeed.2 :=
    (Maintained.seeded (fun _ => none) (seedingDraws "s1") _).deployed
  obtain ⟨b, run, -⟩ := ruled_run start (.single step)
    "admin@acme.test" Rbac.USERS_GRANT (some ⟨some "acme", some "finance"⟩)
  exact ⟨b, congrArg Prod.fst run⟩

/-- The administrator is `super-admin` everywhere, two roles below the one that grants. -/
theorem matrix_run_firstSeed : adminCheck firstSeed.2 = .ok true := by
  have named : Named installed.db.toTables := fun _ member => (List.not_mem_nil member).elim
  have seeded : (main sampleApp.env (fun _ => none) (seedingDraws "s1")).run installed =
      (.ok (), firstSeed.2) :=
    Prod.ext (show firstSeed.1 = .ok () by decide +kernel) rfl
  obtain ⟨b, run, meaning⟩ := @matrix_run _ sampleApp sampleValidator _ _ _ _ _ _ named .refl seeded .refl
    "admin@acme.test" Rbac.USERS_GRANT (some ⟨some "acme", some "finance"⟩)
  have confers : Confers "super-admin" Rbac.USERS_GRANT :=
    .inherited (r := ROLES[3]) (List.getElem_mem _) rfl
      (.inherited (r := ROLES[2]) (List.getElem_mem _) rfl
        (.own (r := ROLES[1]) (List.getElem_mem _) (by decide)))
  have assigned : ∃ a ∈ firstSeed.2.db.userRoles, a.userId = "admin@acme.test" ∧
      (Rbac.scopeOf a).Covers (some ⟨some "acme", some "finance"⟩) ∧
      ∃ role ∈ firstSeed.2.db.roles, role.id = a.roleId ∧ role.name = "super-admin" := by
    decide +kernel
  obtain ⟨a, a_row, mine, covers, role, role_row, same, name⟩ := assigned
  have allowed : b = true := meaning.mpr
    ⟨by decide +kernel, a, a_row, mine, covers, role, role_row, same, name ▸ confers⟩
  exact (congrArg Prod.fst run).trans (congrArg Except.ok allowed)

/-- A restart whose script stops when it has deleted the permissions of `dept-admin`. -/
def cutSeed : World RedisSessions :=
  ((main sampleApp.env (fun _ => none) (seedingDraws "s2")).runUnder
    (fun n => if n = 23 then .throws true (.error "connection lost") else .answers) 0 firstSeed.2).2.2

-- the administrator is refused what the matrix gives
example : adminCheck cutSeed = .ok false := by decide +kernel

end Arac.Http
