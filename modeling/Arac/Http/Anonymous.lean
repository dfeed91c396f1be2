/-
# Arac.Http.Anonymous -- requests without a valid access token

Without a token that verifies, a request writes at most one of two things: the row of a new
account, with the minimal scope, or the password of the user of a reset token that is still
live (`anonymous_write`).  So in any run of such requests everything but passwords stays, of
the accounts that were there, and what is new holds nothing (`anonymous_run`).
-/
import Arac.Http.Bounds

namespace Arac.Http

open Arac.Theory Arac.Sessions Arac.Db Arac.Service Arac.Admin Arac.Org Arac.Auth Arac.Mediation

set_option autoImplicit false

section

variable {σ : Type}

/-- No access token in the headers verifies. -/
def Unauthenticated (env : Env) (now : Nat) (headers : Headers) : Prop :=
  ∀ accessToken caller, requireAccessToken headers = .ok accessToken →
    ¬ env.TokenOf now accessToken caller

theorem Unauthenticated.of_absent {headers : Headers} (bearer : headers "authorization" = none)
    (cookie : headers "cookie" = none) (env : Env) (now : Nat) : Unauthenticated env now headers := by
  intro accessToken caller taken
  unfold requireAccessToken takeToken at taken
  rw [bearer, cookie] at taken
  cases taken

/-- A request without a valid access token, or time passes. -/
inductive Anonymous (app : App σ) (validator : Validator) : World σ → World σ → Prop
  | request (draws : Draws) (r : Request) (w : World σ)
      (anonymous : Unauthenticated app.env w.now r.headers) :
      Anonymous app validator w (Gateway.serve app validator draws r w).2
  | elapse (w : World σ) (ms : Nat) : Anonymous app validator w (w.elapse app.store ms)

variable {app : App σ} {validator : Validator} {w₀ w w' : World σ} {draws : Draws}

/-- The tables after a request without a valid token: the same, or with a new account of the
minimal scope, or with a new password for the user of a live reset token. -/
theorem anonymous_write {r : Request} (anonymous : Unauthenticated app.env w.now r.headers) :
    let w' := (Gateway.serve app validator draws r w).2
    w'.db = w.db ∨
      (∃ email name passwordHash, w.db.userCreate
        (selfSignupRow draws.id.value email name passwordHash w.now) = .ok w'.db) ∨
      ∃ token userId passwordHash, w.resets.get (app.env.sha256 token) = some userId ∧
        w.db.userUpdate userId { passwordHash := some passwordHash } = .ok w'.db := by
  intro w'
  rcases gateway_cases app validator draws r w with same | ⟨op, result, carries, -, ran⟩
  · exact Or.inl (congrArg World.db same)
  rcases operation_writes ran with same | wrote
  · exact Or.inl same
  have presented := carried_presented carries
  -- every other write needs a valid token
  cases op with
  | signup email name password => exact Or.inr (Or.inl ⟨_, _, _, wrote⟩)
  | reset token new =>
      obtain ⟨userId, live, ok⟩ := wrote
      exact Or.inr (Or.inr ⟨token, userId, _, live, ok⟩)
  | changePassword _ _ _ =>
      obtain ⟨caller, valid, -⟩ := wrote
      exact absurd valid (anonymous _ _ presented)
  | grantAttributes _ _ _ =>
      obtain ⟨caller, x, valid, -⟩ := wrote
      exact absurd valid (anonymous _ _ presented.1)
  | assignRole _ _ _ =>
      obtain ⟨caller, role, valid, -⟩ := wrote
      exact absurd valid (anonymous _ _ presented.1)
  | removeRole _ _ _ =>
      obtain ⟨caller, role, valid, -⟩ := wrote
      exact absurd valid (anonymous _ _ presented.1)
  | createDepartment _ _ =>
      obtain ⟨caller, parentId, valid, -⟩ := wrote
      exact absurd valid (anonymous _ _ presented)
  | createCompartment _ _ =>
      obtain ⟨caller, valid, -⟩ := wrote
      exact absurd valid (anonymous _ _ presented)
  | setUserMemberships _ _ _ =>
      obtain ⟨caller, rows, valid, -⟩ := wrote
      exact absurd valid (anonymous _ _ presented.1)
  | setUserCompartments _ _ _ =>
      obtain ⟨caller, ids, valid, -⟩ := wrote
      exact absurd valid (anonymous _ _ presented.1)
  | login _ _ => exact wrote.elim
  | refresh _ => exact wrote.elim
  | logout _ => exact wrote.elim
  | logoutAll _ => exact wrote.elim
  | requestReset _ => exact wrote.elim

/-! ## Runs -/

/-- The same account with perhaps another password. -/
def SameButPassword (u u' : Db.User) : Prop := ∃ passwordHash, u' = { u with passwordHash }

/-- The scope of self-registration. -/
def Minimal (u : Db.User) : Prop :=
  u.tenant = "unassigned" ∧ u.department = "unassigned" ∧ u.clearance = 0 ∧ u.level = 3

theorem Minimal.password {u u' : Db.User} (minimal : Minimal u) (same : SameButPassword u u') :
    Minimal u' := by
  obtain ⟨passwordHash, rfl⟩ := same
  exact minimal

theorem SameButPassword.trans {u u' u'' : Db.User} (first : SameButPassword u u')
    (second : SameButPassword u' u'') : SameButPassword u u'' := by
  obtain ⟨_, rfl⟩ := first
  obtain ⟨passwordHash, rfl⟩ := second
  exact ⟨passwordHash, rfl⟩

/-- Every account that was there is there, and every other one is minimal; all tables but that
of the users are the same. -/
structure OnlyAccounts (t t' : Tables) : Prop where
  rest : ∃ users, t' = { t with users }
  kept : ∀ u ∈ t.users, ∃ u' ∈ t'.users, SameButPassword u u'
  from_before : ∀ u' ∈ t'.users, (∃ u ∈ t.users, SameButPassword u u') ∨ Minimal u'

namespace OnlyAccounts

theorem refl (t : Tables) : OnlyAccounts t t :=
  ⟨⟨t.users, rfl⟩, fun u u_row => ⟨u, u_row, _, rfl⟩, fun u u_row => Or.inl ⟨u, u_row, _, rfl⟩⟩

theorem trans {t t' t'' : Tables} (first : OnlyAccounts t t') (second : OnlyAccounts t' t'') :
    OnlyAccounts t t'' := by
  refine ⟨?_, ?_, ?_⟩
  · obtain ⟨users, rfl⟩ := first.rest
    obtain ⟨users', rfl⟩ := second.rest
    exact ⟨users', rfl⟩
  · intro u u_row
    obtain ⟨u', u'_row, same⟩ := first.kept u u_row
    obtain ⟨u'', u''_row, same'⟩ := second.kept u' u'_row
    exact ⟨u'', u''_row, same.trans same'⟩
  · intro u'' u''_row
    rcases second.from_before u'' u''_row with ⟨u', u'_row, same'⟩ | minimal
    · rcases first.from_before u' u'_row with ⟨u, u_row, same⟩ | minimal
      · exact Or.inl ⟨u, u_row, same.trans same'⟩
      · exact Or.inr (minimal.password same')
    · exact Or.inr minimal

theorem userCreate {db db' : Database} {id email name passwordHash : String} {now : Nat}
    (ok : db.userCreate (selfSignupRow id email name passwordHash now) = .ok db') :
    OnlyAccounts db.toTables db'.toTables := by
  rw [(Database.userCreate_ok ok).1]
  refine ⟨⟨_, rfl⟩, fun u u_row => ⟨u, List.mem_append_left _ u_row, _, rfl⟩, fun u member => ?_⟩
  rcases List.mem_append.mp member with old | new
  · exact Or.inl ⟨u, old, _, rfl⟩
  · obtain rfl := List.mem_singleton.mp new
    exact Or.inr ⟨rfl, rfl, rfl, rfl⟩

theorem passwordUpdate {db db' : Database} {id passwordHash : String}
    (ok : db.userUpdate id { passwordHash := some passwordHash } = .ok db') :
    OnlyAccounts db.toTables db'.toTables := by
  have same : ∀ u : Db.User, SameButPassword u
      (if u.id = id then u.update { passwordHash := some passwordHash } else u) := by
    intro u
    split
    · exact ⟨passwordHash, rfl⟩
    · exact ⟨u.passwordHash, rfl⟩
  rw [Database.userUpdate_ok ok]
  refine ⟨⟨_, rfl⟩, fun u u_row => ⟨_, List.mem_map_of_mem u_row, same u⟩, fun u member => ?_⟩
  obtain ⟨u', u'_row, rfl⟩ := List.mem_map.mp member
  exact Or.inl ⟨u', u'_row, same u'⟩

end OnlyAccounts

theorem Anonymous.onlyAccounts (step : Anonymous app validator w w') :
    OnlyAccounts w.db.toTables w'.db.toTables := by
  cases step with
  | elapse => exact .refl _
  | request draws r _ anonymous =>
      rcases anonymous_write anonymous with same | ⟨email, name, passwordHash, ok⟩ |
        ⟨token, userId, passwordHash, -, ok⟩
      · rw [same]
        exact .refl _
      · exact .userCreate ok
      · exact .passwordUpdate ok

/-- A user of whom nothing was there before mints the minimal identity. -/
theorem minted_of_new {t : Tables} (accounts : OnlyAccounts t w.db.toTables) (valid : t.Valid)
    {u : Db.User} (u_row : u ∈ w.db.users) (fresh : u.id ∉ t.users.map Db.User.id) :
    Unprivileged w.db.toTables u.id := by
  obtain ⟨users, same⟩ := accounts.rest
  rcases accounts.from_before u u_row with ⟨u', u'_row, _, rfl⟩ | ⟨tenant, -, clearance, level⟩
  · exact absurd (List.mem_map_of_mem u'_row) fresh
  refine ⟨⟨u, u_row, rfl, tenant, clearance, level⟩, ?_, ?_⟩
  · apply List.filterMap_eq_nil_iff.mpr
    intro m member
    obtain ⟨m_row, mine⟩ := List.mem_filter.mp member
    rw [same] at m_row
    have referred := valid.userDepartment_user m m_row
    rw [of_decide_eq_true mine] at referred
    exact absurd referred fresh
  · apply List.filterMap_eq_nil_iff.mpr
    intro c member
    obtain ⟨c_row, mine⟩ := List.mem_filter.mp member
    rw [same] at c_row
    have referred := valid.userCompartment_user c c_row
    rw [of_decide_eq_true mine] at referred
    exact absurd referred fresh

/-- In every run of requests without a valid access token, of the accounts that were there only
passwords have changed, all other tables are as they were, and whoever is new holds no role
and mints the minimal identity. -/
theorem anonymous_run (run : Relation.ReflTransGen (Anonymous app validator) w₀ w) :
    OnlyAccounts w₀.db.toTables w.db.toTables ∧
      ∀ u ∈ w.db.users, u.id ∉ w₀.db.userIds →
        mints w u.id = some (.ok (minimalIdentity u.id)) ∧ w.db.assignmentsOf u.id = [] := by
  have accounts : OnlyAccounts w₀.db.toTables w.db.toTables := by
    induction run with
    | refl => exact .refl _
    | tail _ last ih => exact ih.trans last.onlyAccounts
  refine ⟨accounts, fun u u_row fresh => ?_⟩
  refine ⟨(minted_of_new accounts w₀.db.valid u_row fresh).mints, ?_⟩
  obtain ⟨users, same⟩ := accounts.rest
  apply List.eq_nil_iff_forall_not_mem.mpr
  intro a member
  obtain ⟨a_row, mine⟩ := Tables.mem_assignmentsOf.mp member
  rw [same] at a_row
  have referred := w₀.db.valid.userRole_user a a_row
  rw [mine] at referred
  exact fresh referred

end

/-! ## A signup at a staffed deployment -/

def sampleSignup : Request where
  method := .post
  path := ["api", "auth", "signup"]
  headers _ := none
  body := sampleSignupBody

/-- The staffed deployment after the signup. -/
def afterSignup : World RedisSessions :=
  (Gateway.serve sampleApp sampleValidator sampleDraws sampleSignup (World.fresh .empty 0 staffed)).2

theorem anonymous_run_sampleSignup : mints afterSignup "c1" = some (.ok (minimalIdentity "c1")) := by
  have anonymous : Unauthenticated sampleEnv 0 sampleSignup.headers := .of_absent rfl rfl _ _
  have step : Anonymous sampleApp sampleValidator (World.fresh .empty 0 staffed) afterSignup :=
    .request sampleDraws sampleSignup _ anonymous
  have minted := (anonymous_run (.single step)).2
  obtain ⟨u, u_row, same⟩ := List.mem_map.mp
    (by decide +kernel : "c1" ∈ afterSignup.db.userIds)
  have answer := (minted u u_row (by rw [same]; decide)).1
  rwa [same] at answer

end Arac.Http
