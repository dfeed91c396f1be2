/-
# Arac.Admin.Escalation -- what a caller can gain with one token

A run in which only one caller's tokens are used.  Two operations can raise what
the caller may do.  `assignRole` checks the scope of the assignment but neither the
role nor the target, so whoever holds `users:assign-role` over a scope can take any
role that exists there.  `grantAttributes` does not look at the level it writes, so
whoever holds `users:grant` over their own place can clear every floor.
`gains_only_through` says what the two come to together: a permission is gained
through a role that carries it, over a scope in which the caller could come to
assign roles, and its floor is met by the level the caller had, or the caller could
come to write their own level.

The invariant is `Confined`: every assignment the caller has now was there at the
start or lies in a scope in which they could come to assign, and until they can
write their own row it does not change.
-/
import Arac.Admin.TargetScope
import Mathlib.Logic.Relation

namespace Arac.Admin

open Arac.Theory Arac.Sessions Arac.Db Arac.Service Arac.Rbac

set_option autoImplicit false

variable {σ : Type}

/-- One request with a token of the caller, whatever comes of it, or time passes. -/
inductive CallerStep (S : SessionStore σ) (env : Env) (caller : String) : World σ → World σ → Prop
  | request {w w' : World σ} {draws : Draws} {accessToken targetId : String}
      {result : Except ServiceError AdminUserView} (request : AdminRequest)
      (valid : env.TokenOf w.now accessToken caller)
      (run : (request.service S env draws accessToken targetId).run w = (result, w')) :
      CallerStep S env caller w w'
  | elapse (w : World σ) (ms : Nat) : CallerStep S env caller w (w.elapse S ms)

section

variable (w : World σ) (caller : String)

/-- Some role carries the permission. -/
def CarriedByRole (t : Tables) (permission : String) : Prop :=
  ∃ role ∈ t.roles, Carries t role.id permission

/-- The caller can come to grant attributes over their own place: they clear the
floor of `users:grant`, and hold it there already or can assign themselves a role
that carries it there. -/
def ComesToGrantSelf : Prop :=
  ClearsFloor w.db.toTables caller USERS_GRANT ∧
    ∃ u ∈ w.db.users, u.id = caller ∧
      (Granted w.db.toTables caller USERS_GRANT (some (placeOf u)) ∨
        (Holds w.db.toTables caller USERS_ASSIGN_ROLE (some (placeOf u)) ∧
          CarriedByRole w.db.toTables USERS_GRANT))

/-- The caller clears the floor of the permission, or can come to write a level
that does. -/
def ComesToClear (permission : String) : Prop :=
  ClearsFloor w.db.toTables caller permission ∨ ComesToGrantSelf w caller

/-- The caller can come to assign roles over the target: an assignment of theirs
carries `users:assign-role` over it, and the floor is or can be cleared. -/
def ComesToAssign (target : Option Scope) : Prop :=
  Granted w.db.toTables caller USERS_ASSIGN_ROLE target ∧ ComesToClear w caller USERS_ASSIGN_ROLE

end

/-- What the caller's own requests can have changed. -/
structure Confined (w₀ w : World σ) (caller : String) : Prop where
  roles : SameRoles w.db.toTables w₀.db.toTables
  assignments : ∀ a ∈ w.db.userRoles, a.userId = caller → a ∈ w₀.db.userRoles ∨
    (ComesToAssign w₀ caller (some (scopeOf a)) ∧ ∃ role ∈ w₀.db.roles, role.id = a.roleId)
  row : ComesToGrantSelf w₀ caller ∨ ∀ u ∈ w.db.users, u.id = caller → u ∈ w₀.db.users

namespace Confined

variable {w₀ w w' : World σ} {caller permission : String} {target : Option Scope}

theorem start (w : World σ) (caller : String) : Confined w w caller :=
  ⟨.refl _, fun _ member _ => Or.inl member, Or.inr fun _ member _ => member⟩

/-- What an assignment of the caller carries now, an assignment carried at the
start, or a role does that the caller could come to assign. -/
theorem granted (confined : Confined w₀ w caller)
    (granted : Granted w.db.toTables caller permission target) :
    Granted w₀.db.toTables caller permission target ∨
      (ComesToAssign w₀ caller target ∧ CarriedByRole w₀.db.toTables permission) := by
  obtain ⟨a, member, mine, carries, covered⟩ := granted
  have carries₀ := confined.roles.carries carries
  rcases confined.assignments a member mine with
    old | ⟨⟨⟨b, b_member, b_mine, b_carries, reaches⟩, clears⟩, role, role_row, same⟩
  · exact Or.inl ⟨a, old, mine, carries₀, covered⟩
  · refine Or.inr ⟨⟨⟨b, b_member, b_mine, b_carries, reaches.trans covered⟩, clears⟩, ?_⟩
    exact ⟨role, role_row, by rw [same]; exact carries₀⟩

theorem clears (confined : Confined w₀ w caller)
    (clears : ClearsFloor w.db.toTables caller permission) : ComesToClear w₀ caller permission := by
  rcases confined.row with self | unchanged
  · exact Or.inr self
  · obtain ⟨u, u_row, mine, meets⟩ := clears
    exact Or.inl ⟨u, unchanged u u_row mine, mine,
      fun m floor => meets m (confined.roles.floor_iff.mpr floor)⟩

/-- Where a role can be assigned now, roles could come to be assigned from the start. -/
theorem comesToAssign (confined : Confined w₀ w caller)
    (allowed : Allowed w caller USERS_ASSIGN_ROLE target) : ComesToAssign w₀ caller target := by
  obtain ⟨clears, granted⟩ := allowed.holds
  rcases confined.granted granted with before | ⟨assigns, -⟩
  · exact ⟨before, confined.clears clears⟩
  · exact assigns

/-- Who can grant to themselves now could come to do so from the start. -/
theorem comesToGrantSelf (confined : Confined w₀ w caller) {u : User} (u_row : u ∈ w.db.users)
    (mine : u.id = caller) (allowed : Allowed w caller USERS_GRANT (some (placeOf u))) :
    ComesToGrantSelf w₀ caller := by
  obtain ⟨clears, granted⟩ := allowed.holds
  rcases confined.row with self | unchanged
  · exact self
  rcases confined.clears clears with clears₀ | self
  swap
  · exact self
  refine ⟨clears₀, u, unchanged u u_row mine, mine, ?_⟩
  rcases confined.granted granted with before | ⟨⟨assigns, floor | self⟩, role⟩
  · exact Or.inl before
  · exact Or.inr ⟨⟨floor, assigns⟩, role⟩
  · -- the floor of `users:assign-role` would itself take a grant to oneself
    obtain ⟨-, v, v_row, same, holds⟩ := self
    obtain rfl := Database.user_eq v_row (unchanged u u_row mine) (same.trans mine.symm)
    exact holds

section

variable {S : SessionStore σ} {env : Env} {draws : Draws} {accessToken targetId : String}
  {result : Except ServiceError AdminUserView}

/-- The caller's own row changes only by a grant over the caller's own place. -/
theorem grantAttributes (confined : Confined w₀ w caller)
    (valid : env.TokenOf w.now accessToken caller) {input : GrantInput}
    (run : (Admin.grantAttributes S env accessToken targetId input).run w = (result, w')) :
    Confined w₀ w' caller := by
  rcases grantAttributes_cases run with ⟨e, -, rfl⟩ |
    ⟨caller', x, db, v, valid', x_row, same, present, -, ok, -, rfl⟩
  · exact confined
  obtain rfl := valid.unique valid'
  have tables := Database.userUpdate_ok ok
  refine ⟨?_, ?_, ?_⟩
  · rw [tables]
    exact ⟨confined.roles.1, confined.roles.2, confined.roles.3⟩
  · rw [tables]
    exact confined.assignments
  · by_cases own : x.id = caller
    · -- the caller wrote their own attributes
      exact Or.inl (confined.comesToGrantSelf x_row own present)
    · refine confined.row.imp_right ?_
      intro unchanged u u_row mine
      rw [tables] at u_row
      obtain ⟨v, v_row, rfl⟩ := List.mem_map.mp u_row
      split at mine
      · rename_i moved
        exact absurd (same.trans (moved.symm.trans mine)) own
      · rename_i kept
        rw [if_neg kept]
        exact unchanged v v_row mine

/-- A new assignment is of a role that exists, in a scope in which the caller could
come to assign. -/
theorem assignRole (confined : Confined w₀ w caller)
    (valid : env.TokenOf w.now accessToken caller) {input : RoleAssignmentInput}
    (run : (Admin.assignRole S env draws accessToken targetId input).run w = (result, w')) :
    Confined w₀ w' caller := by
  rcases assignRole_cases run with ⟨e, -, rfl⟩ |
    ⟨caller', role, db, v, valid', allowed, found, created, -, rfl⟩
  · exact confined
  obtain rfl := valid.unique valid'
  have assigns := confined.comesToAssign allowed
  have role_row : role ∈ w₀.db.roles :=
    (confined.roles.roles role).mp (Database.roleByName_eq_some.mp found).1
  rcases created with rfl | created
  · exact ⟨confined.roles, confined.assignments, confined.row⟩
  · have tables := Database.userRoleCreate_ok created
    refine ⟨?_, ?_, ?_⟩
    · rw [tables]
      exact ⟨confined.roles.1, confined.roles.2, confined.roles.3⟩
    · rw [tables]
      intro a member mine
      rcases List.mem_append.mp member with old | new
      · exact confined.assignments a old mine
      · obtain rfl := List.mem_singleton.mp new
        exact Or.inr ⟨assigns, role, role_row, rfl⟩
    · rw [tables]
      exact confined.row

theorem removeRole (confined : Confined w₀ w caller) {input : RoleAssignmentInput}
    (run : (Admin.removeRole S env accessToken targetId input).run w = (result, w')) :
    Confined w₀ w' caller := by
  rcases removeRole_cases run with ⟨e, -, rfl⟩ | ⟨caller', role, -, -, -, -, rfl⟩
  · exact confined
  refine ⟨⟨confined.roles.1, confined.roles.2, confined.roles.3⟩, ?_, confined.row⟩
  intro a member mine
  exact confined.assignments a (List.mem_of_mem_filter member) mine

/-- One step of the caller. -/
theorem step (confined : Confined w₀ w caller) (step : CallerStep S env caller w w') :
    Confined w₀ w' caller := by
  cases step with
  | elapse => exact ⟨confined.roles, confined.assignments, confined.row⟩
  | request request valid run =>
      cases request with
      | grantAttributes input => exact confined.grantAttributes valid run
      | assignRole input => exact confined.assignRole valid run
      | removeRole input => exact confined.removeRole run

end

end Confined

/-- What the caller is allowed after a run of their own requests, they were allowed
before it; or an assignment of theirs carried it over the target already, and they
could come to write their own level; or some role carries it, they could come to
assign roles over the target, and its floor is met in one of the two ways. -/
theorem gains_only_through {S : SessionStore σ} {env : Env} {w₀ w : World σ} {caller : String}
    (acyclic : Acyclic w₀.db.RoleParent)
    (run : Relation.ReflTransGen (CallerStep S env caller) w₀ w) (permission : String)
    (target : Option Scope) (allowed : Allowed w caller permission target) :
    Allowed w₀ caller permission target ∨
      (ComesToGrantSelf w₀ caller ∧ Granted w₀.db.toTables caller permission target) ∨
      (ComesToClear w₀ caller permission ∧ ComesToAssign w₀ caller target ∧
        CarriedByRole w₀.db.toTables permission) := by
  have confined : Confined w₀ w caller := by
    clear allowed
    induction run with
    | refl => exact .start w₀ caller
    | tail _ step ih => exact ih.step step
  obtain ⟨clears, granted⟩ := allowed.holds
  rcases confined.granted granted with before | ⟨assigns, role⟩
  · rcases confined.clears clears with floor | self
    · exact Or.inl ((allowed_iff_holds acyclic).mpr ⟨floor, before⟩)
    · exact Or.inr (Or.inl ⟨self, before⟩)
  · exact Or.inr (Or.inr ⟨confined.clears clears, assigns, role⟩)

/-! ## A user administrator takes over -/

/-- The user administrator of the finance department has assigned themselves
`super-admin` there. -/
def takenOver : World RedisSessions :=
  ((assignRole sampleStore sampleEnv sampleDraws "user-admin@acme.test" "user-admin@acme.test"
    ⟨"super-admin", some "acme", some "finance"⟩).run (World.fresh .empty 0 staffed)).2

theorem takenOver_reached :
    Relation.ReflTransGen (CallerStep sampleStore sampleEnv "user-admin@acme.test")
      (World.fresh .empty 0 staffed) takenOver :=
  .single (.request (.assignRole ⟨"super-admin", some "acme", some "finance"⟩)
    (sampleEnv_tokenOf 0 _) rfl)

/-- None of the user administrator's roles carries `org:manage`. -/
theorem staffed_not_granted (target : Option Scope) :
    ¬ Granted (World.fresh RedisSessions.empty 0 staffed).db.toTables "user-admin@acme.test"
      ORG_MANAGE target := by
  rintro ⟨a, member, mine, carries, -⟩
  obtain ⟨grants, ok⟩ := grantsIn_total staffed_seeded.roles_acyclic "user-admin@acme.test"
  obtain ⟨minLevel, floor⟩ := carries.floor
  have listed := (mem_grantsIn ok ⟨scopeOf a, ORG_MANAGE, minLevel⟩).mpr
    ⟨a, member, mine, rfl, carries, floor⟩
  have unlisted : ∀ g ∈ (grantsIn staffed.toTables "user-admin@acme.test").toOption.getD [],
      g.permission ≠ ORG_MANAGE := by decide +kernel
  exact unlisted _ (by rw [ok]; exact listed) rfl

/-- What was gained was gained by assigning a role in the finance department. -/
theorem gains_only_through_takenOver :
    ComesToClear (World.fresh RedisSessions.empty 0 staffed) "user-admin@acme.test" ORG_MANAGE ∧
      ComesToAssign (World.fresh RedisSessions.empty 0 staffed) "user-admin@acme.test"
        (some ⟨some "acme", some "finance"⟩) ∧
      CarriedByRole (World.fresh RedisSessions.empty 0 staffed).db.toTables ORG_MANAGE := by
  have gained : Allowed takenOver "user-admin@acme.test" ORG_MANAGE
      (some ⟨some "acme", some "finance"⟩) := by decide
  rcases gains_only_through staffed_seeded.roles_acyclic takenOver_reached ORG_MANAGE _ gained with
    before | ⟨-, granted⟩ | through
  · exact absurd before.holds.2 (staffed_not_granted _)
  · exact absurd granted (staffed_not_granted _)
  · exact through

theorem not_always_held_before :
    ¬ ∀ (σ : Type) (S : SessionStore σ) (env : Env) (w₀ w : World σ) (caller : String),
      Acyclic w₀.db.RoleParent → Relation.ReflTransGen (CallerStep S env caller) w₀ w →
        ∀ permission, Allowed w caller permission none → Allowed w₀ caller permission none := by
  intro always
  have gained : Allowed takenOver "user-admin@acme.test" ORG_MANAGE none := by decide
  have denied : ¬ Allowed (World.fresh RedisSessions.empty 0 staffed) "user-admin@acme.test"
      ORG_MANAGE none := by decide
  exact denied (always _ _ _ _ _ _ staffed_seeded.roles_acyclic takenOver_reached _ gained)

end Arac.Admin
