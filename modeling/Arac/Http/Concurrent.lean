/-
# Arac.Http.Concurrent -- the ranges and the matrix, whatever runs at the same time

The runs of the other modules take one request after the other.  Here any number of operations
with validated inputs go on at once, call by call.  What a grant fills in may have been read
long before it is written, and a permission may be lost between its check and the write.
Even so the attributes stay in range and the departments a forest (`interleaved_bounded`), and
whoever changes anything that is guarded has held a role that the permission matrix gives the
permission, at its level, in the course of the request (`interleaved_permitted`).
-/
import Arac.Http.Matrix
import Arac.Mediation.Interleaved

namespace Arac.Http

open Arac.Theory Arac.Sessions Arac.Db Arac.Service Arac.Admin Arac.Org Arac.Auth Arac.Mediation
  Arac.Seed
open Arac.Rbac (Scope scopeOf)

set_option autoImplicit false

section

variable {σ ι : Type} [DecidableEq ι] {S : SessionStore σ} {env : Env} {draws : ι → Draws}
  {ops : ι → Operation} {ready : ι → World σ → Prop} {w₀ : World σ}
  {P : Pool ι (World σ) ServiceError Unit}

/-- With a forest of departments every user mints an identity. -/
theorem mints_of_forest {w : World σ} (forest : Acyclic (w.db.DepartmentParent TENANT))
    {userId : String} (known : userId ∈ w.db.userIds) :
    ∃ identity, mints w userId = some (.ok identity) := by
  obtain ⟨u, u_row, rfl⟩ := List.mem_map.mp known
  obtain ⟨claims, ok⟩ := claimsIn_total forest u.id
  refine ⟨⟨u.id, u.tenant, claims.departments, u.clearance, u.level, claims.compartments⟩, ?_⟩
  rw [mints, Database.userById_eq_some.mpr ⟨u_row, rfl⟩, Option.map_some, run_toIdentity, ok]
  rfl

/-- Whatever operations with validated inputs run at the same time: attributes and slugs stay
in range, the departments stay a forest, and at every moment every user mints an identity
within the ranges. -/
theorem interleaved_bounded (start : Bounded w₀.db.toTables)
    (forest : Acyclic (w₀.db.DepartmentParent TENANT)) (admissible : ∀ i, Admissible (ops i))
    (run : Pool.Run (TimePasses S) ready
      (.start (fun i => (ops i).service S env (draws i)) w₀) P) :
    Bounded P.state.db.toTables ∧ Acyclic (P.state.db.DepartmentParent TENANT) ∧
      ∀ userId ∈ P.state.db.userIds, ∃ identity, mints P.state userId = some (.ok identity) ∧
        InRange identity.clearance identity.level ∧
        ∀ slug ∈ identity.departments, SLUG slug = true := by
  have recalls : ∀ i, ((ops i).service S env (draws i)).Recalls
      (WritesAfter env (draws i) (ops i)) [] fun _ _ => True := fun i => operation_recalls (ops i)
  have kept := run.recalled (W := fun i => WritesAfter env (draws i) (ops i))
    (J := fun w => Bounded w.db.toTables ∧ Acyclic (w.db.DepartmentParent TENANT)) recalls
    ⟨start, forest⟩ ?_ ?_
  · obtain ⟨⟨bounded, forest⟩, -⟩ := kept
    refine ⟨bounded, forest, fun userId known => ?_⟩
    obtain ⟨identity, minted⟩ := mints_of_forest forest known
    exact ⟨identity, minted, bounded.minted minted⟩
  · rintro i past w w' met ⟨bounded, forest⟩ (same | wrote)
    · rw [same]
      exact ⟨bounded, forest⟩
    · have within : ∀ x, (∃ v ∈ past, x ∈ v.db.users) → InRange x.clearance x.level := by
        rintro x ⟨v, member, x_row⟩
        exact (met v member).1.users x x_row
      exact ⟨bounded.change within (admissible i) wrote.change, wrote.change.forest forest⟩
  · rintro w w' holds ⟨ms, rfl⟩
    exact holds

/-- No operation writes the tables that define what roles give, at any moment. -/
theorem interleaved_rules
    (run : Pool.Run (TimePasses S) ready
      (.start (fun i => (ops i).service S env (draws i)) w₀) P) :
    ∀ e ∈ P.trace, SameRules w₀.db.toTables e.met.db.toTables := by
  have recalls : ∀ i, ((ops i).service S env (draws i)).Recalls
      (WritesAfter env (draws i) (ops i)) [] fun _ _ => True := fun i => operation_recalls (ops i)
  refine (run.recalled (W := fun i => WritesAfter env (draws i) (ops i))
    (J := fun w => SameRules w₀.db.toTables w.db.toTables) recalls (.refl _) ?_ ?_).2
  · rintro i past w w' - same (unchanged | wrote)
    · rwa [unchanged]
    · exact same.trans (change_rules wrote.change)
  · rintro w w' same ⟨ms, rfl⟩
    exact same

/-- What carries a permission is a role. -/
theorem role_of_carries {db : Database} {roleId key : String}
    (carries : Rbac.Carries db.toTables roleId key) : ∃ role ∈ db.roles, role.id = roleId := by
  cases carries with
  | own direct =>
      obtain ⟨-, held⟩ := Database.mem_permissionsOf.mp direct
      exact List.mem_map.mp (db.valid.rolePermission_role _ held)
  | inherited parent _ =>
      obtain ⟨role, role_row, same, -⟩ := parent
      exact ⟨role, role_row, same⟩

/-- Whatever operations run at the same time, from tables that give nothing beyond the
permission matrix: a call that changes a table for an operation that asks for a permission
comes after calls of the same request that met a valid token, an assignment to its subject of
a role that has the permission in the matrix, and a level at which the matrix gives it. -/
theorem interleaved_permitted (ruled : Ruled w₀.db.toTables)
    (run : Pool.Run (TimePasses S) ready
      (.start (fun i => (ops i).service S env (draws i)) w₀) P)
    {later earlier : List (Made ι (World σ))} {e : Made ι (World σ)}
    (made : P.trace = later ++ e :: earlier) (changes : e.left.db ≠ e.met.db)
    {accessToken permission : String}
    (guarded : (ops e.who).guard = some (accessToken, permission)) :
    ∃ caller, TokenMet env (Pool.metBy earlier e.who) accessToken caller ∧
      (∃ w ∈ Pool.metBy earlier e.who, ∃ a ∈ w.db.userRoles, a.userId = caller ∧
        ∃ role ∈ w₀.db.roles, role.id = a.roleId ∧ Confers role.name permission) ∧
      ∃ w ∈ Pool.metBy earlier e.who, ∃ u ∈ w.db.users, u.id = caller ∧
        ∀ p ∈ PERMISSIONS, p.1 = permission → p.2.2 ≤ u.level := by
  have wrote : WroteAfter env (draws e.who) (Pool.metBy earlier e.who) e.met.db e.left.db
      (ops e.who) := by
    have justified := run.recalls (W := fun i => WritesAfter env (draws i) (ops i))
      (fun i => operation_recalls (ops i)) made
    exact justified.resolve_left changes
  obtain ⟨caller, target, valid, w₁, met₁, w₂, met₂, w₃, met₃, ⟨a, a_row, mine, carries, -⟩, u, u_row,
    same, floor⟩ := wrote.cleared guarded
  have rules : SameRules w₀.db.toTables w₂.db.toTables := by
    obtain ⟨e', e'_made, rfl⟩ := Pool.exists_met met₂
    refine interleaved_rules run e' ?_
    rw [made]
    exact List.mem_append_right _ (List.mem_cons_of_mem _ e'_made)
  have ruled₂ := ruled.congr rules
  obtain ⟨role, role_row, id⟩ := role_of_carries carries
  obtain ⟨minLevel, row, row_row, key, level⟩ := carries.floor
  refine ⟨caller, valid, ⟨w₁, met₁, a, a_row, mine, role, rules.roles ▸ role_row, id,
    ruled₂.carries carries role role_row id⟩, w₃, met₃, u, u_row, same, fun p listed named => ?_⟩
  rw [← ruled₂.floors row row_row p listed (named.trans key.symm)]
  exact floor _ ⟨row, row_row, key, rfl⟩

end

/-! ## Two requests of an administrator -/

theorem interleaved_bounded_lateGrant : Bounded grantingLate.state.db.toTables := by
  have start : Bounded staffed.toTables := ⟨by decide, by decide⟩
  have admissible : ∀ i, Admissible (lateGrant i) := by
    intro i
    cases i with
    | false => exact ⟨fun n given => (by cases given; decide), fun n given => (by cases given)⟩
    | true => trivial
  have run : Pool.Run (TimePasses (inMemorySessionStore sampleSha256 .default)) Always _ grantingLate :=
    Pool.run_play _ _
  exact (interleaved_bounded start (staffed_seeded.departments_acyclic TENANT) admissible run).1

/-- A grant and a new compartment. -/
def twoRequests : Bool → Operation
  | false => .grantAttributes "admin@acme.test" "hr@acme.test" ⟨none, none, some 5, none⟩
  | true => .createCompartment "admin@acme.test" ⟨"SOX", "Sarbanes-Oxley"⟩

/-- Call by call, after the first start of the deployment. -/
def atOnce : Pool Bool (World RedisSessions) ServiceError Unit :=
  Pool.play Always (.start (fun i => (twoRequests i).service sampleStore sampleEnv sampleDraws)
    firstSeed.2) (List.replicate 20 [false, true]).flatten

theorem interleaved_permitted_atOnce : ∃ later earlier e, atOnce.trace = later ++ e :: earlier ∧
    e.left.db.users ≠ e.met.db.users ∧
      ∃ w ∈ Pool.metBy earlier e.who, ∃ a ∈ w.db.userRoles, a.userId = "admin@acme.test" ∧
        ∃ role ∈ firstSeed.2.db.roles, role.id = a.roleId ∧ Confers role.name Rbac.USERS_GRANT := by
  have ruled : Ruled firstSeed.2.db.toTables := by
    have start : Ruled installed.db.toTables :=
      ⟨fun _ member => (List.not_mem_nil member).elim, fun _ member => (List.not_mem_nil member).elim⟩
    exact (main_writes sampleApp.env (fun _ => none) (seedingDraws "s1")).keeps
      (J := fun db => Ruled db.toTables) (fun _ _ => Ruled.seeded) installed start
  have granted : (atOnce.trace.find? fun e =>
      decide (e.who = false ∧ e.left.db.users ≠ e.met.db.users)).isSome = true := by decide +kernel
  obtain ⟨e, found⟩ := Option.isSome_iff_exists.mp granted
  have fits := List.find?_some found
  obtain ⟨mine, changed⟩ := of_decide_eq_true fits
  obtain ⟨later, earlier, made⟩ := List.append_of_mem (List.mem_of_find?_eq_some found)
  have run : Pool.Run (TimePasses sampleStore) Always _ atOnce := Pool.run_play _ _
  obtain ⟨caller, ⟨w, -, valid⟩, holds, -⟩ := interleaved_permitted ruled run made
    (fun same => changed (congrArg (fun db : Database => db.users) same))
    (show (twoRequests e.who).guard = some ("admin@acme.test", Rbac.USERS_GRANT) by rw [mine]; rfl)
  obtain rfl := valid.unique (sampleEnv_tokenOf w.now "admin@acme.test")
  exact ⟨later, earlier, e, made, changed, holds⟩

end Arac.Http
