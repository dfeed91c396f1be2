/-
# Arac.Org.Effects -- what an org operation does

One inversion for each operation that writes: either it throws and nothing has
changed, or the caller is the subject of a valid token who holds `org:manage`
somewhere, and the listed write was made.
-/
import Arac.Org.Service

namespace Arac.Org

open Arac.Theory Arac.Sessions Arac.Db Arac.Service Arac.Rbac

set_option autoImplicit false

variable {σ : Type} {S : SessionStore σ} {env : Env} {draws : Draws} {w w' : World σ}
  {accessToken caller permission : String}

theorem run_require_allowed (valid : env.TokenOf w.now accessToken caller)
    (allowed : Allowed w caller permission none) :
    (require env accessToken permission).run w = (.ok caller, w) := by
  obtain ⟨verified, run, rfl⟩ := run_authenticate_ok valid
  obtain ⟨answer, checked, -⟩ := can_spec verified.sub permission none w
  rw [Allowed, checked] at allowed
  simp only at allowed
  rw [allowed] at checked
  rw [require, Prog.run_bind_ok run, Prog.run_bind_ok checked]
  rfl

theorem run_require_denied (valid : env.TokenOf w.now accessToken caller)
    (denied : Denied w caller permission none) :
    (require env accessToken permission).run w = (.error (.forbidden "Not permitted"), w) := by
  obtain ⟨verified, run, rfl⟩ := run_authenticate_ok valid
  obtain ⟨answer, checked, -⟩ := can_spec verified.sub permission none w
  rw [Denied, checked] at denied
  simp only at denied
  rw [denied] at checked
  rw [require, Prog.run_bind_ok run, Prog.run_bind_ok checked]
  rfl

theorem run_require_error (valid : env.TokenOf w.now accessToken caller) {e : ServiceError}
    (failed : ((can caller permission none).run w).1 = .error e) :
    (require env accessToken permission).run w = (.error e, w) := by
  obtain ⟨verified, run, rfl⟩ := run_authenticate_ok valid
  obtain ⟨answer, checked, -⟩ := can_spec verified.sub permission none w
  rw [checked] at failed
  simp only at failed
  rw [failed] at checked
  rw [require, Prog.run_bind_ok run, Prog.run_bind_error checked]

theorem run_require_cases (env : Env) (accessToken permission : String) (w : World σ) :
    (∃ e, (require env accessToken permission).run w = (.error e, w)) ∨
      ∃ caller, env.TokenOf w.now accessToken caller ∧ Allowed w caller permission none ∧
        (require env accessToken permission).run w = (.ok caller, w) := by
  rcases run_authenticate_cases env accessToken w with ⟨e, refused⟩ | ⟨caller, valid⟩
  · exact Or.inl ⟨e, Prog.run_bind_error refused _⟩
  · match answer : ((can caller permission none).run w).1 with
    | .error e => exact Or.inl ⟨_, run_require_error valid answer⟩
    | .ok false => exact Or.inl ⟨_, run_require_denied valid answer⟩
    | .ok true => exact Or.inr ⟨caller, valid, answer, run_require_allowed valid answer⟩

theorem run_require_refused (valid : env.TokenOf w.now accessToken caller)
    (refused : ¬ Allowed w caller permission none) :
    ∃ e, (require env accessToken permission).run w = (.error e, w) := by
  rcases run_require_cases env accessToken permission w with thrown | ⟨caller', valid', allowed, -⟩
  · exact thrown
  · obtain rfl := valid.unique valid'
    exact absurd allowed refused

/-- The parent is the department with the slug. -/
theorem run_resolveParent_cases (parentSlug : Option String) (w : World σ) :
    (∃ e, (resolveParent parentSlug).run w = (.error e, w)) ∨
      ∃ parentId, (resolveParent parentSlug).run w = (.ok parentId, w) ∧
        ∀ p ∈ parentId, ∃ d ∈ w.db.departments, d.tenant = TENANT ∧ d.id = p ∧
          some d.slug = parentSlug := by
  unfold resolveParent
  split
  · exact Or.inr ⟨none, rfl, fun p at_none => by cases at_none⟩
  · rename_i slug nonempty
    rw [Prog.run_bind_ok (run_query _ w)]
    cases found : w.db.departmentBySlug TENANT slug with
    | none => exact Or.inl ⟨_, rfl⟩
    | some d =>
        obtain ⟨d_row, tenant, rfl⟩ := Database.departmentBySlug_eq_some.mp found
        refine Or.inr ⟨some d.id, rfl, ?_⟩
        rintro p ⟨⟩
        exact ⟨d, d_row, tenant, rfl, (Option.filter_eq_some_iff.mp nonempty).1.symm⟩

theorem run_resolveParent_known {parentSlug : Option String}
    (known : ∀ slug ∈ truthy parentSlug, ∃ d, w.db.departmentBySlug TENANT slug = some d) :
    ∃ parentId, (resolveParent parentSlug).run w = (.ok parentId, w) ∧
      ∀ p ∈ parentId, p ∈ w.db.departmentIds := by
  unfold resolveParent
  split
  · exact ⟨none, rfl, by simp⟩
  · rename_i slug named
    obtain ⟨d, found⟩ := known slug named
    have d_row := (Database.departmentBySlug_eq_some.mp found).1
    rw [Prog.run_bind_ok (run_query _ w), found]
    refine ⟨some d.id, rfl, ?_⟩
    rintro p ⟨⟩
    exact List.mem_map_of_mem d_row

theorem run_resolveParent_unknown {parentSlug : Option String}
    (unknown : ¬ ∀ slug ∈ truthy parentSlug, ∃ d, w.db.departmentBySlug TENANT slug = some d) :
    ∃ e, (resolveParent parentSlug).run w = (.error e, w) := by
  unfold resolveParent
  split
  · rename_i unnamed
    exact absurd (by simp [unnamed]) unknown
  · rename_i slug named
    rw [Prog.run_bind_ok (run_query _ w)]
    cases found : w.db.departmentBySlug TENANT slug with
    | none => exact ⟨_, rfl⟩
    | some d =>
        refine absurd ?_ unknown
        intro slug' named'
        cases named.symm.trans named'
        exact ⟨d, found⟩

theorem createDepartment_cases {input : CreateDepartmentInput}
    {result : Except ServiceError DepartmentView}
    (run : (createDepartment env draws accessToken input).run w = (result, w')) :
    (∃ e, result = .error e ∧ w' = w) ∨
    ∃ caller parentId db v, env.TokenOf w.now accessToken caller ∧
      Allowed w caller ORG_MANAGE none ∧
      (∀ p ∈ parentId, ∃ d ∈ w.db.departments, d.tenant = TENANT ∧ d.id = p ∧
        some d.slug = input.parentSlug) ∧
      w.db.departmentCreate draws.id TENANT (trim input.slug) (trim input.name) parentId = .ok db ∧
      result = .ok v ∧ w' = { w with db } := by
  rw [createDepartment] at run
  rcases run_require_cases env accessToken ORG_MANAGE w with
    ⟨e, refused⟩ | ⟨caller, valid, allowed, passed⟩
  · exact Or.inl ⟨e, Prog.stops refused run⟩
  rw [Prog.run_bind_ok passed] at run
  rcases run_resolveParent_cases input.parentSlug w with
    ⟨e, missing⟩ | ⟨parentId, resolved, parent⟩
  · exact Or.inl ⟨e, Prog.stops missing run⟩
  rw [Prog.run_bind_ok resolved, Prog.run_bind, writeSelect, Prog.run_call] at run
  cases written : w.db.departmentCreate draws.id TENANT (trim input.slug) (trim input.name)
      parentId with
  | error e =>
      simp only [written] at run
      split at run <;> cases run <;> exact Or.inl ⟨_, rfl, rfl⟩
  | ok db =>
      simp only [written] at run
      cases run
      exact Or.inr ⟨caller, parentId, db, _, valid, allowed, parent, written, rfl, rfl⟩

theorem createCompartment_cases {input : CreateCompartmentInput}
    {result : Except ServiceError CompartmentView}
    (run : (createCompartment env draws accessToken input).run w = (result, w')) :
    w' = w ∨ ∃ db, w.db.compartmentCreate draws.id TENANT (trim input.key) (trim input.name) = .ok db ∧
      w' = { w with db } := by
  rw [createCompartment] at run
  rcases run_require_cases env accessToken ORG_MANAGE w with
    ⟨e, refused⟩ | ⟨caller, valid, allowed, passed⟩
  · rw [Prog.run_bind_error refused] at run
    cases run
    exact Or.inl rfl
  rw [Prog.run_bind_ok passed, Prog.run_bind, write, writeSelect, Prog.run_call] at run
  cases written : w.db.compartmentCreate draws.id TENANT (trim input.key) (trim input.name) with
  | error e =>
      simp only [written] at run
      split at run <;> cases run <;> exact Or.inl rfl
  | ok db =>
      simp only [written] at run
      cases run
      exact Or.inr ⟨db, rfl, rfl⟩

/-- The end of a replacement: it fails, or the user's sessions end with it. -/
theorem replace_cases {update : Database → Except PrismaError Database} {userId : String}
    {result : Except ServiceError Unit}
    (run : (commit update >>= fun _ => revokeUser S userId).run w = (result, w')) :
    (∃ e, result = .error e ∧ w' = w) ∨ ∃ db, update w.db = .ok db ∧ result = .ok () ∧
      w' = { w with db, sessions := S.machine.perform w.sessions (.revokeUser userId) } := by
  cases written : update w.db with
  | error e =>
      rw [Prog.run_bind_error (run_commit_error _ written)] at run
      cases run
      exact Or.inl ⟨_, rfl, rfl⟩
  | ok db =>
      rw [Prog.run_bind_ok (run_commit_ok _ written), run_revokeUser] at run
      cases run
      exact Or.inr ⟨db, rfl, rfl, rfl⟩

theorem setUserMemberships_cases {userId : String} {memberships : List MembershipInput}
    {result : Except ServiceError Unit}
    (run : (setUserMemberships S env accessToken userId memberships).run w = (result, w')) :
    (∃ e, result = .error e ∧ w' = w) ∨
    ∃ caller rows db, env.TokenOf w.now accessToken caller ∧ Allowed w caller ORG_MANAGE none ∧
      w.db.setUserDepartments userId rows = .ok db ∧ result = .ok () ∧
      w' = { w with db, sessions := S.machine.perform w.sessions (.revokeUser userId) } := by
  rw [setUserMemberships] at run
  rcases run_require_cases env accessToken ORG_MANAGE w with
    ⟨e, refused⟩ | ⟨caller, valid, allowed, passed⟩
  · exact Or.inl ⟨e, Prog.stops refused run⟩
  rw [Prog.run_bind_ok passed, Prog.run_bind_ok (run_query _ w)] at run
  cases found : w.db.userById userId with
  | none =>
      rw [found] at run
      cases run
      exact Or.inl ⟨_, rfl, rfl⟩
  | some x =>
      rw [found] at run
      simp only at run
      rw [Prog.run_bind_ok (run_query _ w)] at run
      split at run
      · cases run
        exact Or.inl ⟨_, rfl, rfl⟩
      split at run
      · cases run
        exact Or.inl ⟨_, rfl, rfl⟩
      rename_i rows _
      refine (replace_cases run).imp_right ?_
      rintro ⟨db, written, returned⟩
      exact ⟨caller, rows, db, valid, allowed, written, returned⟩

theorem setUserCompartments_cases {userId : String} {keys : List String}
    {result : Except ServiceError Unit}
    (run : (setUserCompartments S env accessToken userId keys).run w = (result, w')) :
    (∃ e, result = .error e ∧ w' = w) ∨
    ∃ caller ids db, env.TokenOf w.now accessToken caller ∧ Allowed w caller ORG_MANAGE none ∧
      w.db.setUserCompartments userId ids = .ok db ∧ result = .ok () ∧
      w' = { w with db, sessions := S.machine.perform w.sessions (.revokeUser userId) } := by
  rw [setUserCompartments] at run
  rcases run_require_cases env accessToken ORG_MANAGE w with
    ⟨e, refused⟩ | ⟨caller, valid, allowed, passed⟩
  · exact Or.inl ⟨e, Prog.stops refused run⟩
  rw [Prog.run_bind_ok passed, Prog.run_bind_ok (run_query _ w)] at run
  cases found : w.db.userById userId with
  | none =>
      rw [found] at run
      cases run
      exact Or.inl ⟨_, rfl, rfl⟩
  | some x =>
      rw [found] at run
      simp only at run
      rw [Prog.run_bind_ok (run_query _ w)] at run
      split at run
      · cases run
        exact Or.inl ⟨_, rfl, rfl⟩
      refine (replace_cases run).imp_right ?_
      rintro ⟨db, written, returned⟩
      exact ⟨caller, _, db, valid, allowed, written, returned⟩

/-! ## What a replacement looks up -/

variable {db : Database}

/-- As many departments as there are distinct slugs: every slug was found. -/
theorem departments_found_iff {slugs : List String} :
    (db.departmentsIn TENANT slugs).length = (OrderedSet.empty.addAll slugs).toList.length ↔
      ∀ slug ∈ slugs, ∃ d ∈ db.departments, d.tenant = TENANT ∧ d.slug = slug := by
  rw [OrderedSet.length_eq_addAll_iff (db.departmentsIn_slugs TENANT slugs)
    fun d member => (Database.mem_departmentsIn.mp member).2.2]
  refine forall₂_congr fun slug listed => exists_congr fun d => ?_
  rw [Database.mem_departmentsIn]
  constructor
  · rintro ⟨⟨d_row, tenant, -⟩, same⟩
    exact ⟨d_row, tenant, same⟩
  · rintro ⟨d_row, tenant, rfl⟩
    exact ⟨⟨d_row, tenant, listed⟩, rfl⟩

theorem compartments_found_iff {keys : List String} :
    (db.compartmentsIn TENANT keys).length = (OrderedSet.empty.addAll keys).toList.length ↔
      ∀ key ∈ keys, ∃ c ∈ db.compartments, c.tenant = TENANT ∧ c.key = key := by
  rw [OrderedSet.length_eq_addAll_iff (db.compartmentsIn_keys TENANT keys)
    fun c member => (Database.mem_compartmentsIn.mp member).2.2]
  refine forall₂_congr fun key listed => exists_congr fun c => ?_
  rw [Database.mem_compartmentsIn]
  constructor
  · rintro ⟨⟨c_row, tenant, -⟩, same⟩
    exact ⟨c_row, tenant, same⟩
  · rintro ⟨c_row, tenant, rfl⟩
    exact ⟨⟨c_row, tenant, listed⟩, rfl⟩

/-- When every slug was found, each membership gets the id of its department, and the
ids are distinct when the slugs are. -/
theorem memberships_looked_up {memberships : List MembershipInput}
    (known : ∀ slug ∈ memberships.map MembershipInput.slug,
      ∃ d ∈ db.departments, d.tenant = TENANT ∧ d.slug = slug) :
    ∃ rows, (memberships.mapM fun m => (lookupTable Department.slug Department.id
        (db.departmentsIn TENANT (memberships.map MembershipInput.slug)) m.slug).map
          fun id => (id, m.rank.getD .ic)) = some rows ∧
      (∀ row ∈ rows, row.1 ∈ db.departmentIds) ∧
      ((rows.map Prod.fst).Nodup ↔ (memberships.map MembershipInput.slug).Nodup) := by
  generalize looked : lookupTable Department.slug Department.id
    (db.departmentsIn TENANT (memberships.map MembershipInput.slug)) = bySlug
  have found : ∀ slug ∈ memberships.map MembershipInput.slug,
      ∃ d ∈ db.departments, d.slug = slug ∧ bySlug slug = some d.id := by
    intro slug listed
    obtain ⟨d, d_row, tenant, rfl⟩ := known slug listed
    refine ⟨d, d_row, rfl, ?_⟩
    rw [← looked]
    exact Database.departmentsIn_lookup.mpr ⟨listed, d, d_row, tenant, rfl, rfl⟩
  have slug_of : ∀ m ∈ memberships, m.slug ∈ memberships.map MembershipInput.slug :=
    fun m listed => List.mem_map_of_mem listed
  refine ⟨memberships.map fun m => ((bySlug m.slug).getD "", m.rank.getD .ic), ?_, ?_, ?_⟩
  · refine mapM_eq_map fun m listed => ?_
    obtain ⟨d, -, -, id⟩ := found m.slug (slug_of m listed)
    simp only [id, Option.map_some, Option.getD_some]
  · intro row listed
    obtain ⟨m, m_listed, rfl⟩ := List.mem_map.mp listed
    obtain ⟨d, d_row, -, id⟩ := found m.slug (slug_of m m_listed)
    simp only [id, Option.getD_some]
    exact List.mem_map_of_mem d_row
  · have ids : (memberships.map fun m => ((bySlug m.slug).getD "", m.rank.getD .ic)).map Prod.fst =
        (memberships.map MembershipInput.slug).map fun slug => (bySlug slug).getD "" := by
      simp only [List.map_map, Function.comp_def]
    rw [ids]
    constructor
    · exact List.Nodup.of_map _
    · refine List.Nodup.map_on fun slug listed slug' listed' same => ?_
      obtain ⟨d, d_row, rfl, id⟩ := found slug listed
      obtain ⟨d', d'_row, rfl, id'⟩ := found slug' listed'
      rw [id, id'] at same
      exact congrArg Department.slug (List.inj_on_of_nodup_map db.valid.department_id d_row d'_row same)

end Arac.Org
