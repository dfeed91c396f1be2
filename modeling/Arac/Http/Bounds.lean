/-
# Arac.Http.Bounds -- attributes stay within what requests may set

The columns `clearance` and `level` and the slug of a department are unconstrained in the
schema; only the DTOs check them.  So whether they stay in range depends on every way to
write them: a grant, a signup, a new department and the seed script.  `bounded_run` says
that all of them together keep the ranges, and with them every identity that is minted.
-/
import Arac.Http.Failures
import Arac.Seed.Writes

namespace Arac.Http

open Arac.Theory Arac.Sessions Arac.Db Arac.Service Arac.Admin Arac.Org Arac.Auth Arac.Mediation
  Arac.Config Arac.Seed

set_option autoImplicit false

/-- A clearance from 0 to 10 and a level from 3 to 12. -/
def InRange (clearance level : Int) : Prop := (0 ≤ clearance ∧ clearance ≤ 10) ∧ 3 ≤ level ∧ level ≤ 12

instance (clearance level : Int) : Decidable (InRange clearance level) :=
  inferInstanceAs (Decidable (_ ∧ _))

structure Bounded (t : Tables) : Prop where
  users : ∀ u ∈ t.users, InRange u.clearance u.level
  slugs : ∀ d ∈ t.departments, SLUG d.slug = true

namespace Bounded

variable {t t' : Tables}

/-- Other tables do not matter. -/
theorem congr (bounded : Bounded t) (users : t'.users = t.users)
    (departments : t'.departments = t.departments) : Bounded t' :=
  ⟨users ▸ bounded.users, departments ▸ bounded.slugs⟩

/-- Rewritten users that stay in range. -/
theorem map_users (bounded : Bounded t) {f : Db.User → Db.User} (departments : t'.departments = t.departments)
    (users : t'.users = t.users.map f)
    (kept : ∀ u ∈ t.users, InRange (f u).clearance (f u).level) : Bounded t' := by
  refine ⟨fun u member => ?_, departments ▸ bounded.slugs⟩
  rw [users] at member
  obtain ⟨u', u'_row, rfl⟩ := List.mem_map.mp member
  exact kept u' u'_row

/-! ## The writes of the operations -/

variable {σ : Type} {known : Db.User → Prop} {db db' : Database} {op : Operation}

theorem change (bounded : Bounded db.toTables) (within : ∀ x, known x → InRange x.clearance x.level)
    (admissible : Admissible op) (change : Change known op db db') : Bounded db'.toTables := by
  cases change with
  | account id email name passwordHash now ok =>
      rw [(Database.userCreate_ok ok).1]
      refine ⟨fun u member => ?_, bounded.slugs⟩
      rcases List.mem_append.mp member with old | new
      · exact bounded.users u old
      · obtain rfl := List.mem_singleton.mp new
        show InRange 0 3
        decide
  | password userId passwordHash ok =>
      rw [Database.userUpdate_ok ok]
      refine bounded.map_users rfl rfl fun u member => ?_
      split <;> exact bounded.users u member
  | @attributes accessToken input x found grants ok =>
      rw [Database.userUpdate_ok ok]
      refine bounded.map_users rfl rfl fun u member => ?_
      split
      · -- what the input does not set is that of the row that was read
        subst grants
        obtain ⟨clearances, levels⟩ := admissible
        have present := within x found
        constructor
        · show 0 ≤ input.clearance.getD x.clearance ∧ input.clearance.getD x.clearance ≤ 10
          cases given : input.clearance with
          | none => exact present.1
          | some n => exact clearances n given
        · show 3 ≤ input.level.getD x.level ∧ input.level.getD x.level ≤ 12
          cases given : input.level with
          | none => exact present.2
          | some n => exact levels n given
      · exact bounded.users u member
  | assignment row ok =>
      rw [Database.userRoleCreate_ok ok]
      exact bounded.congr rfl rfl
  | removal userId roleId scopeTenant scopeDepartment done =>
      rw [done]
      exact bounded.congr rfl rfl
  | @department accessToken input id parentId creates ok =>
      rw [(Database.departmentCreate_ok ok).1]
      refine ⟨bounded.users, fun d member => ?_⟩
      rcases List.mem_append.mp member with old | new
      · exact bounded.slugs d old
      · obtain rfl := List.mem_singleton.mp new
        subst creates
        show SLUG (trim input.slug) = true
        rw [trim_of_slug admissible]
        exact admissible
  | compartment id key name ok =>
      rw [(Database.compartmentCreate_ok ok).1]
      exact bounded.congr rfl rfl
  | memberships userId rows ok =>
      rw [Database.setUserDepartments_ok ok]
      exact bounded.congr rfl rfl
  | compartments userId ids ok =>
      rw [Database.setUserCompartments_ok ok]
      exact bounded.congr rfl rfl

/-! ## The writes of the seed -/

theorem seedUsers_inRange : ∀ seed ∈ Db.SEED_USERS, InRange seed.clearance seed.level := by decide

theorem departments_slugs : ∀ d ∈ DEPARTMENTS, SLUG d.1 = true := by decide

theorem upserted (write : SeedUpsert db db') (bounded : Bounded db.toTables) :
    Bounded db'.toTables := by
  cases write with
  | user listed id email passwordHash createdAt written =>
      rw [written]
      refine ⟨upsert_forall (fun _ _ _ => ?_) (fun _ => ?_) bounded.users, bounded.slugs⟩
      · exact seedUsers_inRange _ listed
      · exact seedUsers_inRange _ listed
  | department listed id written =>
      rw [written]
      exact ⟨bounded.users,
        upsert_forall (fun _ _ slug => slug) (fun _ => departments_slugs _ listed) bounded.slugs⟩
  | place id parentId written =>
      rw [written]
      refine ⟨bounded.users, fun d member => ?_⟩
      obtain ⟨d', d'_row, rfl⟩ := List.mem_map.mp member
      have same : (Department.place id parentId d').slug = d'.slug := by
        unfold Department.place
        split <;> rfl
      rw [same]
      exact bounded.slugs d' d'_row
  | permission _ _ written => exact written ▸ bounded.congr rfl rfl
  | role _ _ written => exact written ▸ bounded.congr rfl rfl
  | assignment _ written => exact written ▸ bounded.congr rfl rfl
  | compartment _ _ written => exact written ▸ bounded.congr rfl rfl
  | membership _ _ _ written => exact written ▸ bounded.congr rfl rfl

theorem seeded (write : SeedWrite db db') (bounded : Bounded db.toTables) :
    Bounded db'.toTables := by
  rcases write with upsert | wiring
  · exact bounded.upserted upsert
  · cases wiring with
    | parent _ _ _ _ written => exact written ▸ bounded.congr rfl rfl
    | reset _ written => exact written ▸ bounded.congr rfl rfl
    | confer _ _ _ written => exact written ▸ bounded.congr rfl rfl

end Bounded

/-! ## Runs of a deployment -/

section

variable {σ : Type}

/-- Somebody sends a request, time passes, or the service restarts and its seed script runs,
to its end or to where one of its calls fails. -/
inductive Deployed (app : App σ) (validator : Validator) : World σ → World σ → Prop
  | served {w w' : World σ} (step : Served app validator w w') : Deployed app validator w w'
  | seeded (processEnv : ProcessEnv) (draws : SeedDraws) (fates : Nat → Fate ServiceError)
      (w : World σ) :
      Deployed app validator w ((main app.env processEnv draws).runUnder fates 0 w).2.2

variable {app : App σ} {validator : Validator} {w₀ w w' : World σ}

theorem Bounded.served (step : Served app validator w w') (bounded : Bounded w.db.toTables) :
    Bounded w'.db.toTables := by
  cases step with
  | elapse => exact bounded
  | request draws r =>
      rcases gateway_cases app validator draws r w with same | ⟨op, result, carries, -, ran⟩
      · rwa [same]
      · rcases operation_writes ran with same | wrote
        · exact same ▸ bounded
        · exact bounded.change bounded.users (carried_admissible carries) wrote.change

/-- The identity that is minted is in the ranges of the tables. -/
theorem Bounded.minted (bounded : Bounded w.db.toTables) {userId : String} {identity : AbacIdentity}
    (minted : mints w userId = some (.ok identity)) :
    InRange identity.clearance identity.level ∧ ∀ slug ∈ identity.departments, SLUG slug = true := by
  obtain ⟨row, found, answer⟩ := Option.map_eq_some_iff.mp minted
  obtain ⟨row_row, rfl⟩ := Database.userById_eq_some.mp found
  rw [run_toIdentity] at answer
  cases claimed : claimsIn w.db.toTables row.id with
  | error e =>
      rw [claimed] at answer
      cases answer
  | ok claims =>
      rw [claimed] at answer
      obtain rfl := Except.ok.inj answer
      refine ⟨bounded.users row row_row, fun slug listed => ?_⟩
      obtain ⟨m, -, -, reached⟩ := ((mem_claims_iff claimed).1 slug).mp listed
      rcases reached with ⟨d, d_row, -, rfl⟩ | ⟨-, -, d, d_row, rfl, -⟩
      · exact bounded.slugs d d_row
      · exact bounded.slugs d d_row

/-- In every run of a deployment that starts within the ranges, the stored attributes and every
identity that is minted stay within them. -/
theorem bounded_run (start : Bounded w₀.db.toTables)
    (run : Relation.ReflTransGen (Deployed app validator) w₀ w) :
    Bounded w.db.toTables ∧ ∀ userId identity, mints w userId = some (.ok identity) →
      InRange identity.clearance identity.level ∧ ∀ slug ∈ identity.departments, SLUG slug = true := by
  have bounded : Bounded w.db.toTables := by
    induction run with
    | refl => exact start
    | tail _ last ih =>
        cases last with
        | served step => exact .served step ih
        | seeded processEnv draws fates =>
            exact (main_writes app.env processEnv draws).stopsIn (J := fun db => Bounded db.toTables)
              (fun _ _ => Bounded.seeded) ih fates 0
  exact ⟨bounded, fun userId identity minted => bounded.minted minted⟩

end

/-- The staffed deployment after the sample grant. -/
theorem bounded_run_sampleGrant :
    Bounded (Gateway.serve sampleApp sampleValidator sampleDraws (sampleGrant "hr@acme.test")
      (World.fresh .empty 0 staffed)).2.db.toTables := by
  have start : Bounded staffed.toTables := ⟨by decide, by decide⟩
  have step : Deployed sampleApp sampleValidator (World.fresh .empty 0 staffed)
      (Gateway.serve sampleApp sampleValidator sampleDraws (sampleGrant "hr@acme.test")
        (World.fresh .empty 0 staffed)).2 := .served (.request _ _ _)
  exact (@bounded_run _ _ _ (World.fresh .empty 0 staffed) _ start (.single step)).1

end Arac.Http
