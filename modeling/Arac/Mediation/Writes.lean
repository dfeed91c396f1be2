/-
# Arac.Mediation.Writes -- what each operation writes

`Wrote` lists the writes: an account with the minimal scope, a password, attributes, an
assignment or its removal, a department, a compartment, the memberships or the compartments
of a user, each with the check that has let it through.  An operation that answers has done
its one write or none (`operation_cases`); the invariants of the tables follow write by
write.

No service undoes what it has written when a later step throws.  Every operation checks
before it writes, and what comes after its write answers as long as the departments are a
forest, so an operation that fails has changed no table and has sent no mail
(`operation_failed`); sessions may be gone.
-/
import Arac.Mediation.Claims
import Arac.Auth.FailedReplacement

namespace Arac.Mediation

open Arac.Theory Arac.Sessions Arac.Db Arac.Service Arac.Rbac Arac.Admin Arac.Org Arac.Auth

set_option autoImplicit false

section

variable {σ α : Type}

/-- The write of an operation, and the check before it. -/
def Wrote (env : Env) (draws : Draws) (w : World σ) (db : Database) : Operation → Prop
  | .signup email name password =>
      w.db.userCreate (selfSignupRow draws.id.value (IdentityProvider.normalizeEmail env email) (trim name)
        (env.argon2Hash password draws.salt) w.now) = .ok db
  | .changePassword accessToken _ new => ∃ caller, env.TokenOf w.now accessToken caller ∧
      w.db.userUpdate caller { passwordHash := some (env.argon2Hash new draws.salt) } = .ok db
  | .reset token new => ∃ userId, w.resets.get (env.sha256 token) = some userId ∧
      w.db.userUpdate userId { passwordHash := some (env.argon2Hash new draws.salt) } = .ok db
  | .grantAttributes accessToken targetId input => ∃ caller x, env.TokenOf w.now accessToken caller ∧
      x ∈ w.db.users ∧ x.id = targetId ∧ Allowed w caller USERS_GRANT (some (placeOf x)) ∧
      Allowed w caller USERS_GRANT (some (grantedPlace x input)) ∧
      w.db.userUpdate targetId (granted x input) = .ok db
  | .assignRole accessToken targetId input => ∃ caller role, env.TokenOf w.now accessToken caller ∧
      Allowed w caller USERS_ASSIGN_ROLE (some ⟨input.scopeTenant, input.scopeDepartment⟩) ∧
      w.db.roleByName input.roleName = some role ∧
      w.db.userRoleCreate (assigned draws targetId role input) = .ok db
  | .removeRole accessToken targetId input => ∃ caller role, env.TokenOf w.now accessToken caller ∧
      Allowed w caller USERS_ASSIGN_ROLE (some ⟨input.scopeTenant, input.scopeDepartment⟩) ∧
      w.db.roleByName input.roleName = some role ∧
      db = w.db.userRoleDeleteMany targetId role.id input.scopeTenant input.scopeDepartment
  | .createDepartment accessToken input => ∃ caller parentId, env.TokenOf w.now accessToken caller ∧
      Allowed w caller ORG_MANAGE none ∧
      (∀ p ∈ parentId, ∃ d ∈ w.db.departments, d.tenant = TENANT ∧ d.id = p ∧
        some d.slug = input.parentSlug) ∧
      w.db.departmentCreate draws.id TENANT (trim input.slug) (trim input.name) parentId = .ok db
  | .createCompartment accessToken input => ∃ caller, env.TokenOf w.now accessToken caller ∧
      Allowed w caller ORG_MANAGE none ∧
      w.db.compartmentCreate draws.id TENANT (trim input.key) (trim input.name) = .ok db
  | .setUserMemberships accessToken userId _ => ∃ caller rows, env.TokenOf w.now accessToken caller ∧
      Allowed w caller ORG_MANAGE none ∧ w.db.setUserDepartments userId rows = .ok db
  | .setUserCompartments accessToken userId _ => ∃ caller ids, env.TokenOf w.now accessToken caller ∧
      Allowed w caller ORG_MANAGE none ∧ w.db.setUserCompartments userId ids = .ok db
  | .login _ _ => False
  | .refresh _ => False
  | .logout _ => False
  | .logoutAll _ => False
  | .requestReset _ => False

/-- What a write does to the tables, whoever makes it; a grant fills in from a row that was
`known`. -/
inductive Change (known : Db.User → Prop) (op : Operation) (db db' : Database) : Prop
  | account (id email name passwordHash : String) (now : Nat)
      (ok : db.userCreate (selfSignupRow id email name passwordHash now) = .ok db')
  | password (userId passwordHash : String)
      (ok : db.userUpdate userId { passwordHash := some passwordHash } = .ok db')
  | attributes {accessToken : String} {input : GrantInput} {x : Db.User} (found : known x)
      (grants : op = .grantAttributes accessToken x.id input)
      (ok : db.userUpdate x.id (granted x input) = .ok db')
  | assignment (row : UserRole) (ok : db.userRoleCreate row = .ok db')
  | removal (userId roleId : String) (scopeTenant scopeDepartment : Option String)
      (done : db' = db.userRoleDeleteMany userId roleId scopeTenant scopeDepartment)
  | department {accessToken : String} {input : CreateDepartmentInput} (id : Cuid)
      (parentId : Option String) (creates : op = .createDepartment accessToken input)
      (ok : db.departmentCreate id TENANT (trim input.slug) (trim input.name) parentId = .ok db')
  | compartment (id : Cuid) (key name : String) (ok : db.compartmentCreate id TENANT key name = .ok db')
  | memberships (userId : String) (rows : List (String × DeptRank))
      (ok : db.setUserDepartments userId rows = .ok db')
  | compartments (userId : String) (ids : List String) (ok : db.setUserCompartments userId ids = .ok db')

/-- Tables and mails are the same. -/
structure Retained (w w' : World σ) : Prop where
  db : w'.db = w.db
  outbox : w'.outbox = w.outbox

theorem Retained.refl (w : World σ) : Retained w w := ⟨rfl, rfl⟩

theorem Retained.trans {w w' w'' : World σ} (first : Retained w w') (second : Retained w' w'') :
    Retained w w'' :=
  ⟨second.db.trans first.db, second.outbox.trans first.outbox⟩

/-- What a user mints is read off the tables. -/
theorem Retained.mints {w w' : World σ} (retained : Retained w w') (userId : String) :
    mints w' userId = mints w userId := by
  unfold Mediation.mints
  rw [retained.db]
  congr 1
  funext row
  rw [run_toIdentity, run_toIdentity, retained.db]

variable {S : SessionStore σ} {env : Env} {draws : Draws} {w w' : World σ}

theorem Wrote.change {op : Operation} {db : Database} (wrote : Wrote env draws w db op) :
    Change (· ∈ w.db.users) op w.db db := by
  cases op with
  | signup email name password => exact .account _ _ _ _ _ wrote
  | changePassword accessToken current new =>
      obtain ⟨caller, -, ok⟩ := wrote
      exact .password _ _ ok
  | reset token new =>
      obtain ⟨userId, -, ok⟩ := wrote
      exact .password _ _ ok
  | grantAttributes accessToken targetId input =>
      obtain ⟨caller, x, -, x_row, rfl, -, -, ok⟩ := wrote
      exact .attributes x_row rfl ok
  | assignRole accessToken targetId input =>
      obtain ⟨caller, role, -, -, -, ok⟩ := wrote
      exact .assignment _ ok
  | removeRole accessToken targetId input =>
      obtain ⟨caller, role, -, -, -, done⟩ := wrote
      exact .removal _ _ _ _ done
  | createDepartment accessToken input =>
      obtain ⟨caller, parentId, -, -, -, ok⟩ := wrote
      exact .department _ _ rfl ok
  | createCompartment accessToken input =>
      obtain ⟨caller, -, -, ok⟩ := wrote
      exact .compartment _ _ _ ok
  | setUserMemberships accessToken userId memberships =>
      obtain ⟨caller, rows, -, -, ok⟩ := wrote
      exact .memberships _ _ ok
  | setUserCompartments accessToken userId keys =>
      obtain ⟨caller, ids, -, -, ok⟩ := wrote
      exact .compartments _ _ ok
  | _ => exact wrote.elim

theorem retained_of_guarantees {p : Service σ α} (guarantees : p.Guarantees Retained)
    {result : Except ServiceError α} (run : p.run w = (result, w')) : Retained w w' := by
  have retained := guarantees.run (fun _ => .refl _) (fun _ _ _ => .trans) w
  rwa [run] at retained

theorem retained_of_quiet {p : Service σ α} (quiet : Quiet p) : p.Guarantees Retained :=
  quiet.mono fun w _ same => same ▸ .refl w

/-- Nothing is written, and nothing mailed by an operation that fails, or the write is done,
and with a forest of departments the operation succeeds. -/
def WritesOnce (w : World σ) (result : Except ServiceError Unit) (w' : World σ)
    (wrote : Database → Prop) : Prop :=
  (w'.db = w.db ∧ ((∃ e, result = .error e) → w'.outbox = w.outbox)) ∨
    (wrote w'.db ∧ (Acyclic (w.db.DepartmentParent TENANT) → result = .ok ()))

theorem WritesOnce.of_retained {result : Except ServiceError Unit} {wrote : Database → Prop}
    (retained : Retained w w') : WritesOnce w result w' wrote :=
  Or.inl ⟨retained.db, fun _ => retained.outbox⟩

/-! ## Issuing tokens -/

theorem retained_issueFor (user : Auth.User) :
    (AuthService.issueFor S env draws user).Guarantees Retained :=
  .bind (retained_of_quiet (quiet_toIdentity user)) fun _ =>
    .bind (retained_of_quiet (quiet_signAccessToken _ _ _)) fun _ =>
      .bind (.call fun _ => ⟨rfl, rfl⟩) fun _ => .pure _

/-- With a forest of departments there is always an answer. -/
theorem run_issueFor_ok (S : SessionStore σ) (env : Env) (draws : Draws)
    (forest : Acyclic (w.db.DepartmentParent TENANT)) (user : Auth.User) :
    ∃ r w', (AuthService.issueFor S env draws user).run w = (.ok r, w') := by
  obtain ⟨claims, ok⟩ := claimsIn_total forest user.id
  have found := run_effectiveClaims user.id w
  rw [ok] at found
  unfold AuthService.issueFor AuthService.toIdentity
  rw [Prog.bind_assoc, Prog.run_bind_ok found]
  exact ⟨_, _, rfl⟩

/-! ## Operations that write no table -/

theorem retained_verifyCredentials (email password : String) :
    (IdentityProvider.verifyCredentials env email password : Service σ _).Guarantees Retained :=
  retained_of_quiet (.bind (.query _) fun _ => .pure _)

theorem retained_login (email password : String) :
    (AuthService.login S env draws email password).Guarantees Retained := by
  refine .bind (retained_verifyCredentials _ _) ?_
  intro user
  cases user with
  | none => exact .fail _
  | some user => exact retained_issueFor user

theorem retained_refresh (presented : String) :
    (AuthService.refresh S env draws presented).Guarantees Retained := by
  refine .bind (.call fun _ => ⟨rfl, rfl⟩) ?_
  intro rotated
  cases rotated with
  | reuseDetected _ _ => exact .fail _
  | invalid => exact .fail _
  | expired => exact .fail _
  | rotated userId _ issued =>
      refine .bind (retained_of_quiet (IdentityProvider.quiet_findById _)) ?_
      intro user
      cases user with
      | none => exact .bind (.call fun _ => ⟨rfl, rfl⟩) fun _ => .fail _
      | some user =>
          exact .bind (retained_of_quiet (quiet_toIdentity user)) fun _ =>
            .bind (retained_of_quiet (quiet_signAccessToken _ _ _)) fun _ => .pure _

theorem retained_logoutAll (accessToken : String) :
    (AuthService.logoutAll S env accessToken).Guarantees Retained :=
  .bind (retained_of_quiet (quiet_authenticate _ _)) fun _ => .call fun _ => ⟨rfl, rfl⟩

theorem requestReset_answers (email : String) :
    (PasswordResetService.requestReset env draws email : Service σ Unit).Raises fun _ => False := by
  refine .bind (.call _) ?_
  intro user
  cases user with
  | none => exact .pure _
  | some user =>
      dsimp only
      split
      · exact .pure _
      · exact .bind (.call _) fun _ => .call _

theorem requestReset_db (env : Env) (draws : Draws) (email : String) :
    (PasswordResetService.requestReset env draws email : Service σ Unit).Guarantees
      fun w w' => w'.db = w.db := by
  refine .bind (.call fun _ => rfl) ?_
  intro user
  cases user with
  | none => exact .pure _
  | some user =>
      dsimp only
      split
      · exact .pure _
      · exact .bind (.call fun _ => rfl) fun _ => .call fun _ => rfl

/-! ## Accounts and passwords -/

/-- An account is created, or the world is as it was. -/
theorem createUser_cases {input : CreateUserInput} {result : Except ServiceError (Option Auth.User)}
    (run : (IdentityProvider.createUser env draws input).run w = (result, w')) :
    ((∀ user, result ≠ .ok (some user)) ∧ w' = w) ∨
      ∃ user db, result = .ok (some user) ∧
        w.db.userCreate (selfSignupRow draws.id.value (IdentityProvider.normalizeEmail env input.email)
          (trim input.name) (env.argon2Hash input.password draws.salt) w.now) = .ok db ∧
        w' = { w with db } := by
  rw [IdentityProvider.createUser, Prog.run_bind_ok (run_clock w), Prog.run_bind, write, writeSelect,
    Prog.run_call] at run
  cases created : w.db.userCreate (selfSignupRow draws.id.value
      (IdentityProvider.normalizeEmail env input.email) (trim input.name)
      (env.argon2Hash input.password draws.salt) w.now) with
  | error e =>
      simp only [created] at run
      left
      split at run <;> cases run <;> exact ⟨fun _ same => (by cases same), rfl⟩
  | ok db =>
      simp only [created] at run
      cases run
      exact Or.inr ⟨_, db, rfl, rfl, rfl⟩

/-- After a write that keeps the departments, tokens are issued. -/
theorem issues_after {db : Database} {sessions : Machine.Config (Clocked σ) Logged} {user : Auth.User}
    {result : Except ServiceError AuthResult} (same : db.departments = w.db.departments)
    (run : (AuthService.issueFor S env draws user).run { w with db, sessions } = (result, w')) :
    w'.db = db ∧ (Acyclic (w.db.DepartmentParent TENANT) → ∃ r, result = .ok r) := by
  refine ⟨(retained_of_guarantees (retained_issueFor user) run).db, fun forest => ?_⟩
  have forest' : Acyclic (db.DepartmentParent TENANT) := by
    apply forest.of_subrelation
    intro child parent link
    simpa only [Tables.DepartmentParent, same] using link
  obtain ⟨r, after, issued⟩ :=
    run_issueFor_ok (w := { w with db, sessions }) S env draws forest' user
  exact ⟨r, congrArg Prod.fst (run.symm.trans issued)⟩

theorem signup_cases {email name password : String} {result : Except ServiceError AuthResult}
    (run : (AuthService.signup S env draws email name password).run w = (result, w')) :
    WritesOnce w (result.map fun _ => ()) w'
      (fun db => Wrote env draws w db (.signup email name password)) := by
  rw [AuthService.signup, Prog.run_bind] at run
  rcases created : (IdentityProvider.createUser env draws { email, name, password }).run w with
    ⟨made, between⟩
  rw [created] at run
  rcases createUser_cases created with ⟨nobody, rfl⟩ | ⟨user, db, rfl, ok, rfl⟩
  · cases made with
    | error e =>
        cases run
        exact .of_retained (.refl _)
    | ok user =>
        cases user with
        | none =>
            cases run
            exact .of_retained (.refl _)
        | some user => exact absurd rfl (nobody user)
  · have same : db.departments = w.db.departments := by
      rw [(Database.userCreate_ok ok).1]
    obtain ⟨wrote, answers⟩ := issues_after same run
    refine Or.inr ⟨wrote.symm ▸ ok, fun forest => ?_⟩
    obtain ⟨r, rfl⟩ := answers forest
    rfl

/-- A read, and what comes after it. -/
theorem after_quiet {β : Type} {p : Service σ α} {f : α → Service σ β} (quiet : Quiet p)
    {result : Except ServiceError β} (run : (p >>= f).run w = (result, w')) :
    w' = w ∨ ∃ a, p.run w = (.ok a, w) ∧ (f a).run w = (result, w') := by
  have same := quiet.run w
  rw [Prog.run_bind] at run
  rcases ran : p.run w with ⟨first, between⟩
  rw [ran] at run same
  obtain rfl : between = w := same
  cases first with
  | error e =>
      cases run
      exact Or.inl rfl
  | ok a => exact Or.inr ⟨a, rfl, run⟩

theorem changePassword_cases {accessToken current new : String}
    {result : Except ServiceError AuthResult}
    (run : (AuthService.changePassword S env draws accessToken current new).run w = (result, w')) :
    WritesOnce w (result.map fun _ => ()) w'
      (fun db => Wrote env draws w db (.changePassword accessToken current new)) := by
  have unchanged : w' = w → WritesOnce w (result.map fun _ => ()) w'
      (fun db => Wrote env draws w db (.changePassword accessToken current new)) :=
    fun same => .of_retained (same ▸ .refl w)
  rw [AuthService.changePassword] at run
  rcases after_quiet (quiet_authenticate _ _) run with same | ⟨verified, valid, run⟩
  · exact unchanged same
  have caller : env.TokenOf w.now accessToken verified.sub := by
    rw [run_authenticate] at valid
    cases checked : env.verifyAccessToken w.now accessToken with
    | error e =>
        rw [checked] at valid
        cases valid
    | ok v =>
        rw [checked] at valid
        cases valid
        exact ⟨_, checked, rfl⟩
  rcases after_quiet (IdentityProvider.quiet_findById _) run with same | ⟨found, known, run⟩
  · exact unchanged same
  cases found with
  | none =>
      cases run
      exact unchanged rfl
  | some user =>
      have theirs : user.id = verified.sub := by
        have answer := congrArg Prod.fst known
        change Except.ok ((w.db.activeUserById verified.sub).map toUser) = _ at answer
        obtain ⟨row, active, rfl⟩ := Option.map_eq_some_iff.mp (Except.ok.inj answer)
        have fits := List.find?_some active
        simp only [decide_eq_true_eq] at fits
        exact fits.1
      rcases after_quiet (p := IdentityProvider.verifyCredentials env user.email current)
        (.bind (.query _) fun _ => .pure _) run with same | ⟨matched, -, run⟩
      · exact unchanged same
      cases matched with
      | none =>
          cases run
          exact unchanged rfl
      | some _ =>
          dsimp only at run
          rw [Prog.run_bind] at run
          cases written : w.db.userUpdate user.id
              { passwordHash := some (env.argon2Hash new draws.salt) } with
          | error e' =>
              rw [IdentityProvider.changePassword, run_commit_error _ written] at run
              cases run
              exact unchanged rfl
          | ok db =>
              rw [IdentityProvider.changePassword, run_commit_ok _ written] at run
              dsimp only at run
              rw [Prog.run_bind_ok (run_revokeUser S user.id _)] at run
              have same : db.departments = w.db.departments := by
                rw [Database.userUpdate_ok written]
              obtain ⟨wrote, answers⟩ := issues_after same run
              refine Or.inr ⟨⟨verified.sub, caller, ?_⟩, fun forest => ?_⟩
              · rw [wrote, ← theirs]
                exact written
              · obtain ⟨r, rfl⟩ := answers forest
                rfl

theorem reset_cases {token new : String} {result : Except ServiceError Bool}
    (run : (PasswordResetService.reset S env draws token new).run w = (result, w')) :
    WritesOnce w (result.map fun _ => ()) w'
      (fun db => Wrote env draws w db (.reset token new)) := by
  unfold PasswordResetService.reset PasswordResetService.takeReset at run
  rw [Prog.run_bind_ok (Prog.run_call _ w)] at run
  dsimp only at run
  split at run
  · cases run
    exact .of_retained ⟨rfl, rfl⟩
  · rename_i userId present
    have live := (Option.filter_eq_some_iff.mp present).1
    rw [Prog.run_bind] at run
    cases written : w.db.userUpdate userId { passwordHash := some (env.argon2Hash new draws.salt) } with
    | error e' =>
        rw [IdentityProvider.changePassword, run_commit_error _ written] at run
        cases run
        exact .of_retained ⟨rfl, rfl⟩
    | ok db =>
        rw [IdentityProvider.changePassword, run_commit_ok _ written] at run
        dsimp only at run
        rw [Prog.run_bind_ok (run_revokeUser S userId _)] at run
        cases run
        exact Or.inr ⟨⟨userId, live, written⟩, fun _ => rfl⟩

/-! ## All operations -/

/-- Nobody who is not there has a role to remove. -/
theorem userRoleDeleteMany_unknown {db : Database} {userId roleId : String}
    {scopeTenant scopeDepartment : Option String} (unknown : db.userById userId = none) :
    db.userRoleDeleteMany userId roleId scopeTenant scopeDepartment = db := by
  have kept : (db.userRoles.filter fun a => ¬ (a.userId = userId ∧ a.roleId = roleId ∧
      a.scopeTenant = scopeTenant ∧ a.scopeDepartment = scopeDepartment)) = db.userRoles := by
    apply List.filter_eq_self.mpr
    intro a member
    have known := db.valid.userRole_user a member
    have other : a.userId ≠ userId := by
      intro same
      obtain ⟨u, u_row, here⟩ := List.mem_map.mp known
      have missing := List.find?_eq_none.mp unknown u u_row
      exact missing (by simp [here, same])
    simp [other]
  unfold Database.userRoleDeleteMany
  simp only [kept]

theorem compartment_cases {accessToken : String} {input : CreateCompartmentInput}
    {result : Except ServiceError CompartmentView}
    (run : (Org.createCompartment env draws accessToken input).run w = (result, w')) :
    WritesOnce w (result.map fun _ => ()) w'
      (fun db => Wrote env draws w db (.createCompartment accessToken input)) := by
  rw [Org.createCompartment] at run
  rcases run_require_cases env accessToken ORG_MANAGE w with
    ⟨_, refused⟩ | ⟨caller, valid, allowed, passed⟩
  · rw [Prog.run_bind_error refused] at run
    cases run
    exact .of_retained (.refl _)
  rw [Prog.run_bind_ok passed, Prog.run_bind, write, writeSelect, Prog.run_call] at run
  cases written : w.db.compartmentCreate draws.id TENANT (trim input.key) (trim input.name) with
  | error _ =>
      simp only [written] at run
      split at run <;> cases run <;> exact .of_retained (.refl _)
  | ok db =>
      simp only [written] at run
      cases run
      exact Or.inr ⟨⟨caller, valid, allowed, written⟩, fun _ => rfl⟩

/-- An operation does its write or none; if it fails it has done none. -/
theorem operation_cases {op : Operation} {result : Except ServiceError Unit}
    (run : (op.service S env draws).run w = (result, w')) :
    WritesOnce w result w' fun db => Wrote env draws w db op := by
  cases op with
  | signup email name password =>
      obtain ⟨_, ran, rfl⟩ := Prog.run_void run
      exact signup_cases ran
  | login email password =>
      obtain ⟨_, ran, rfl⟩ := Prog.run_void run
      exact .of_retained (retained_of_guarantees (retained_login _ _) ran)
  | refresh presented =>
      obtain ⟨_, ran, rfl⟩ := Prog.run_void run
      exact .of_retained (retained_of_guarantees (retained_refresh _) ran)
  | logout presented =>
      cases run
      exact .of_retained ⟨rfl, rfl⟩
  | logoutAll accessToken =>
      exact .of_retained (retained_of_guarantees (retained_logoutAll _) run)
  | changePassword accessToken current new =>
      obtain ⟨_, ran, rfl⟩ := Prog.run_void run
      exact changePassword_cases ran
  | requestReset email =>
      have kept := Prog.Guarantees.run (G := fun w w' : World σ => w'.db = w.db) (fun _ => rfl)
        (fun _ _ _ first second => second.trans first)
        (requestReset_db env draws email) w
      rw [show (PasswordResetService.requestReset env draws email).run w = (result, w') from run] at kept
      refine Or.inl ⟨kept, ?_⟩
      rintro ⟨e, rfl⟩
      exact ((requestReset_answers email).run (congrArg Prod.fst run)).elim
  | reset token new =>
      obtain ⟨_, ran, rfl⟩ := Prog.run_void run
      exact reset_cases ran
  | grantAttributes accessToken targetId input =>
      obtain ⟨_, ran, rfl⟩ := Prog.run_void run
      rcases grantAttributes_cases ran with
        ⟨_, -, rfl⟩ | ⟨caller, x, db, v, valid, x_row, same, present, next, ok, rfl, rfl⟩
      · exact .of_retained (.refl _)
      · exact Or.inr ⟨⟨caller, x, valid, x_row, same, present, next, ok⟩, fun _ => rfl⟩
  | assignRole accessToken targetId input =>
      obtain ⟨_, ran, rfl⟩ := Prog.run_void run
      rcases assignRole_cases ran with
        ⟨_, -, rfl⟩ | ⟨caller, role, db, v, valid, allowed, named, rfl | ok, rfl, rfl⟩
      · exact .of_retained (.refl _)
      · exact .of_retained ⟨rfl, rfl⟩
      · exact Or.inr ⟨⟨caller, role, valid, allowed, named, ok⟩, fun _ => rfl⟩
  | removeRole accessToken targetId input =>
      obtain ⟨_, ran, rfl⟩ := Prog.run_void run
      rcases removeRole_cases ran with ⟨_, -, rfl⟩ | ⟨caller, role, valid, allowed, named, answers, rfl⟩
      · exact .of_retained (.refl _)
      · cases found : w.db.userById targetId with
        | none => exact .of_retained ⟨userRoleDeleteMany_unknown found, rfl⟩
        | some u =>
            obtain ⟨v, rfl⟩ := answers u found
            exact Or.inr ⟨⟨caller, role, valid, allowed, named, rfl⟩, fun _ => rfl⟩
  | createDepartment accessToken input =>
      obtain ⟨_, ran, rfl⟩ := Prog.run_void run
      rcases createDepartment_cases ran with
        ⟨_, -, rfl⟩ | ⟨caller, parentId, db, v, valid, allowed, parent, ok, rfl, rfl⟩
      · exact .of_retained (.refl _)
      · exact Or.inr ⟨⟨caller, parentId, valid, allowed, parent, ok⟩, fun _ => rfl⟩
  | createCompartment accessToken input =>
      obtain ⟨_, ran, rfl⟩ := Prog.run_void run
      exact compartment_cases ran
  | setUserMemberships accessToken userId memberships =>
      rcases setUserMemberships_cases run with
        ⟨_, -, rfl⟩ | ⟨caller, rows, db, valid, allowed, ok, rfl, rfl⟩
      · exact .of_retained (.refl _)
      · exact Or.inr ⟨⟨caller, rows, valid, allowed, ok⟩, fun _ => rfl⟩
  | setUserCompartments accessToken userId keys =>
      rcases setUserCompartments_cases run with
        ⟨_, -, rfl⟩ | ⟨caller, ids, db, valid, allowed, ok, rfl, rfl⟩
      · exact .of_retained (.refl _)
      · exact Or.inr ⟨⟨caller, ids, valid, allowed, ok⟩, fun _ => rfl⟩

/-- An operation that fails has changed no table and has sent no mail. -/
theorem operation_failed {op : Operation} {e : ServiceError}
    (forest : Acyclic (w.db.DepartmentParent TENANT))
    (run : (op.service S env draws).run w = (.error e, w')) : Retained w w' := by
  rcases operation_cases run with ⟨kept, mailed⟩ | ⟨-, succeeds⟩
  · exact ⟨kept, mailed ⟨e, rfl⟩⟩
  · cases succeeds forest

/-- The tables are as before, or the write of the operation is done. -/
theorem operation_writes {op : Operation} {result : Except ServiceError Unit}
    (run : (op.service S env draws).run w = (result, w')) :
    w'.db = w.db ∨ Wrote env draws w w'.db op := by
  rcases operation_cases run with ⟨kept, -⟩ | ⟨wrote, -⟩
  · exact Or.inl kept
  · exact Or.inr wrote

end

end Arac.Mediation
