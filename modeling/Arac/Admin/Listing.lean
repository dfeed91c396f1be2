/-
# Arac.Admin.Listing -- listing against the permission check

The wildcards of a scope are written twice: as the predicate `covers` and as the filter
`scopeWhere` generates, which leaves out the fields that are null.  The two agree on
every row (`filter_means_coverage`).

`listUsers` asks `scopesFor`, which knows nothing of permission floors; every other
operation asks `can`, which does.  As the filter is exact, listing and checking agree
unless the caller has been granted `users:read` without meeting its floor, in which
case listing answers and the check denies.
-/
import Arac.Admin.Effects

namespace Arac.Admin

open Arac.Theory Arac.Sessions Arac.Db Arac.Service Arac.Rbac

set_option autoImplicit false

/-! ## The filter -/

/-- A row satisfies the filter: no filter, or some arm whose present fields all agree. -/
def Satisfies (where_ : Option (List UserFilter)) (u : User) : Bool :=
  where_.all fun arms => arms.any fun f => f.admits u

/-- An arm of the filter admits the users its scope covers; an arm without fields is an
empty conjunction. -/
theorem admits_iff {s : Scope} {u : User} :
    UserFilter.admits { tenant := s.tenant, department := s.department } u = true ↔
      s.Covers (some (placeOf u)) := by
  obtain ⟨tenant, department⟩ := s
  cases tenant <;> cases department <;> simp [UserFilter.admits, Scope.Covers, placeOf]

/-- The disjunction of the arms is coverage by some scope of the list. -/
theorem any_admits_iff (scopes : List Scope) (u : User) :
    ((scopes.map fun s => ({ tenant := s.tenant, department := s.department } : UserFilter)).any
        fun f => f.admits u) = true ↔ ∃ s ∈ scopes, s.Covers (some (placeOf u)) := by
  induction scopes with
  | nil => simp
  | cons s scopes ih =>
      rw [List.map_cons, List.any_cons, Bool.or_eq_true, admits_iff, ih, List.exists_mem_cons_iff]

/-- The query is unfiltered for a list with a global scope, and for no other. -/
theorem scopeWhere_none {scopes : List Scope} : scopeWhere scopes = none ↔ ⟨none, none⟩ ∈ scopes := by
  unfold scopeWhere
  constructor
  · intro unfiltered
    split at unfiltered
    · rename_i anywhere
      obtain ⟨s, member, isGlobal⟩ := List.any_eq_true.mp anywhere
      obtain ⟨tenant, department⟩ := s
      simp only [Bool.and_eq_true, decide_eq_true_eq] at isGlobal
      obtain ⟨rfl, rfl⟩ := isGlobal
      exact member
    · exact absurd unfiltered (Option.some_ne_none _)
  · intro member
    exact if_pos (List.any_eq_true.mpr ⟨_, member, by simp⟩)

/-- The filter of a list of scopes keeps the users some scope covers. -/
theorem satisfies_scopeWhere_iff (scopes : List Scope) (u : User) :
    Satisfies (scopeWhere scopes) u = true ↔ ∃ s ∈ scopes, s.Covers (some (placeOf u)) := by
  cases unfiltered : scopeWhere scopes with
  | none =>
      -- a global scope: no filter, and it covers everybody
      exact iff_of_true rfl ⟨_, scopeWhere_none.mp unfiltered, Or.inl rfl, Or.inl rfl⟩
  | some arms =>
      have written : scopes.map (fun s => { tenant := s.tenant, department := s.department }) =
          arms := by
        unfold scopeWhere at unfiltered
        split at unfiltered
        · exact absurd unfiltered.symm (Option.some_ne_none _)
        · exact Option.some.inj unfiltered
      rw [← written]
      exact any_admits_iff scopes u

/-- The filtered query returns the users some scope covers. -/
theorem mem_findUsers {t : Tables} {scopes : List Scope} {u : User} :
    u ∈ findUsers t (scopeWhere scopes) ↔
      u ∈ t.users ∧ ∃ s ∈ scopes, s.Covers (some (placeOf u)) := by
  simp only [findUsers, List.mem_mergeSort, List.mem_filter]
  exact and_congr_right fun _ => satisfies_scopeWhere_iff scopes u

/-- The generated filter and the predicate `covers` agree on every row, the query asks
for the rows of the table they agree on, and it is unfiltered only under a global
scope. -/
theorem filter_means_coverage (scopes : List Scope) :
    (∀ u, Satisfies (scopeWhere scopes) u = true ↔
      ∃ s ∈ scopes, covers s (some ⟨some u.tenant, some u.department⟩) = true) ∧
    (∀ t u, u ∈ findUsers t (scopeWhere scopes) ↔
      u ∈ t.users ∧ Satisfies (scopeWhere scopes) u = true) ∧
    (scopeWhere scopes = none → ⟨none, none⟩ ∈ scopes) := by
  refine ⟨fun u => ?_, fun t u => ?_, scopeWhere_none.mp⟩
  · simp only [covers_iff]
    exact satisfies_scopeWhere_iff scopes u
  · rw [mem_findUsers, satisfies_scopeWhere_iff]

/-! ## Listing and checking -/

variable {σ : Type}

/-- Listing throws `ForbiddenException` exactly when the check is false, and
otherwise returns the views of the users whom the check allows the caller to read. -/
def ListingAgrees (env : Env) (w : World σ) (accessToken callerId : String) : Prop :=
  (((listUsers env accessToken).run w).1 = .error (.forbidden "Not permitted") ↔
    Denied w callerId USERS_READ none) ∧
  ∀ views, ((listUsers env accessToken).run w).1 = .ok views →
    ∀ v, v ∈ views ↔ ∃ x ∈ w.db.users, v = toView w.db.toTables x ∧
      Allowed w callerId USERS_READ (some (placeOf x))

/-- The result of `listUsers`, given the caller's grants. -/
theorem run_listUsers {env : Env} {w : World σ} {accessToken caller : String}
    (valid : env.TokenOf w.now accessToken caller) {grants : List Grant}
    (ok : grantsIn w.db.toTables caller = .ok grants) :
    (listUsers env accessToken).run w =
      (let scopes := (grants.filter fun g => g.permission = USERS_READ).map Grant.toScope
      if scopes.length = 0 then .error (.forbidden "Not permitted")
      else .ok ((findUsers w.db.toTables (scopeWhere scopes)).map (toView w.db.toTables)), w) := by
  have loaded := run_scopesFor caller USERS_READ w
  rw [ok] at loaded
  rw [listUsers, Prog.run_bind_ok (run_callerId valid), Prog.run_bind_ok loaded]
  simp only
  split
  · rfl
  · rfl

/-- Listing agrees with the check exactly when the caller meets the floor of
`users:read` or has not been granted it. -/
theorem listingAgrees_iff {env : Env} {w : World σ} {accessToken caller : String}
    (acyclic : Acyclic w.db.RoleParent) (valid : env.TokenOf w.now accessToken caller) :
    ListingAgrees env w accessToken caller ↔
      (¬ Granted w.db.toTables caller USERS_READ none ∨
        ClearsFloor w.db.toTables caller USERS_READ) := by
  obtain ⟨grants, ok⟩ := grantsIn_total acyclic caller
  have byScope : ∀ target, Granted w.db.toTables caller USERS_READ target ↔
      ∃ s ∈ (grants.filter fun g => g.permission = USERS_READ).map Grant.toScope,
        s.Covers target := by
    intro target
    constructor
    · rintro ⟨a, member, mine, carries, covered⟩
      exact ⟨scopeOf a, (mem_scopes ok).mpr ⟨a, member, mine, rfl, carries⟩, covered⟩
    · rintro ⟨s, member, covered⟩
      obtain ⟨a, a_row, mine, rfl, carries⟩ := (mem_scopes ok).mp member
      exact ⟨a, a_row, mine, carries, covered⟩
  simp only [ListingAgrees, run_listUsers valid ok, denied_iff_not_holds acyclic,
    allowed_iff_holds acyclic, Holds, byScope]
  generalize (grants.filter fun g => g.permission = USERS_READ).map Grant.toScope = scopes
  cases scopes with
  | nil => simp
  | cons s scopes =>
      have some_scope : ∃ s' ∈ s :: scopes, s'.Covers none := ⟨s, List.mem_cons_self, trivial⟩
      simp only [List.length_cons, Nat.add_one_ne_zero, if_false, some_scope, not_true, false_or,
        and_true, reduceCtorEq, false_iff, not_not, Except.ok.injEq]
      constructor
      · exact And.left
      · intro clears
        refine ⟨clears, ?_⟩
        rintro views rfl v
        simp only [List.mem_map, mem_findUsers, clears, true_and]
        constructor
        · rintro ⟨x, ⟨x_row, covered⟩, rfl⟩
          exact ⟨x, x_row, rfl, covered⟩
        · rintro ⟨x, x_row, rfl, covered⟩
          exact ⟨x, ⟨x_row, covered⟩, rfl⟩

theorem listingAgrees_user_admin : ListingAgrees sampleEnv (World.fresh () 0 staffed)
    "user-admin@acme.test" "user-admin@acme.test" := by
  have allowed : Allowed (World.fresh () 0 staffed) "user-admin@acme.test" USERS_READ none := by
    decide
  exact (listingAgrees_iff staffed_seeded.roles_acyclic (sampleEnv_tokenOf 0 _)).mpr
    (Or.inr allowed.holds.1)

/-- A department administrator below the floor of `users:read` gets the list all the
same. -/
theorem not_always_listingAgrees :
    ¬ ∀ (σ : Type) (env : Env) (w : World σ) (accessToken caller : String),
      Acyclic w.db.RoleParent → env.TokenOf w.now accessToken caller →
        ListingAgrees env w accessToken caller := by
  intro always
  have agrees := always Unit sampleEnv (World.fresh () 0 staffed) "dept-admin@acme.test"
    "dept-admin@acme.test" staffed_seeded.roles_acyclic (sampleEnv_tokenOf 0 _)
  have denied : Denied (World.fresh () 0 staffed) "dept-admin@acme.test" USERS_READ none := by decide
  have granted : ∃ grants, grantsIn staffed.toTables "dept-admin@acme.test" = .ok grants ∧
      (grants.filter fun g => g.permission = USERS_READ).map Grant.toScope =
        [⟨some "acme", some "finance"⟩] := ⟨_, rfl, by decide⟩
  obtain ⟨grants, ok, scopes⟩ := granted
  have listed := congrArg Prod.fst (run_listUsers (w := World.fresh () 0 staffed)
    (sampleEnv_tokenOf 0 "dept-admin@acme.test") ok)
  rw [scopes] at listed
  exact absurd (listed.symm.trans (agrees.1.mpr denied)) (by simp)

end Arac.Admin
