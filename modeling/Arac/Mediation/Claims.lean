/-
# Arac.Mediation.Claims -- what changes the claims of a user

`mints` is the identity a token minted now would carry.  `complete_mediation` says
which operations can change it, and under which checks: a grant to the user over
the old and the new place, a change of the user's memberships or compartments by an
org manager, or a department placed by an org manager where the user manages.  A
self-registered account that none of these has reached mints the minimal identity.
-/
import Arac.Mediation.Frame
import Arac.Org.Growth
import Arac.Sessions.Redis

namespace Arac.Mediation

open Arac.Theory Arac.Sessions Arac.Db Arac.Service Arac.Rbac Arac.Admin Arac.Org Arac.Auth

set_option autoImplicit false

variable {σ : Type}

/-- What `toIdentity` answers for the stored user. -/
def mints (w : World σ) (userId : String) : Option (Except ServiceError AbacIdentity) :=
  (w.db.userById userId).map fun row => ((AuthService.toIdentity (toUser row)).run w).1

/-- The operation passed the check that a change of the user's claims needs. -/
def Mediated (env : Env) (w w' : World σ) (userId : String) : Operation → Prop
  | .grantAttributes accessToken targetId input => targetId = userId ∧
      ∃ caller, env.TokenOf w.now accessToken caller ∧ ∃ x ∈ w.db.users, x.id = userId ∧
        Allowed w caller USERS_GRANT (some (placeOf x)) ∧
        Allowed w caller USERS_GRANT (some (grantedPlace x input))
  | .setUserMemberships accessToken targetId _ => targetId = userId ∧
      ∃ caller, env.TokenOf w.now accessToken caller ∧ Allowed w caller ORG_MANAGE none
  | .setUserCompartments accessToken targetId _ => targetId = userId ∧
      ∃ caller, env.TokenOf w.now accessToken caller ∧ Allowed w caller ORG_MANAGE none
  | .createDepartment accessToken input =>
      (∃ caller, env.TokenOf w.now accessToken caller ∧ Allowed w caller ORG_MANAGE none) ∧
      (∃ p ∈ w.db.departments, p.tenant = TENANT ∧ some p.slug = input.parentSlug ∧
        ManagesAbove w.db.toTables userId p.id) ∧
      ∃ before after, mints w userId = some (.ok before) ∧ mints w' userId = some (.ok after) ∧
        after = { before with departments := after.departments } ∧
        OnlyAdds (trim input.slug) ⟨before.departments, before.compartments⟩
          ⟨after.departments, after.compartments⟩
  | _ => False

/-! ## Minting -/

/-- The identity of a user row with the given claims. -/
def identityOf (row : Db.User) (claims : EffectiveClaims) : AbacIdentity :=
  { sub := row.id
    tenant := row.tenant
    departments := claims.departments
    clearance := row.clearance
    level := row.level
    compartments := claims.compartments }

theorem run_toIdentity (row : Db.User) (w : World σ) :
    (AuthService.toIdentity (toUser row)).run w =
      ((claimsIn w.db.toTables row.id).map (identityOf row), w) := by
  unfold AuthService.toIdentity
  rw [Prog.run_bind, run_effectiveClaims]
  simp only [toUser]
  cases claimsIn w.db.toTables row.id <;> rfl

theorem mints_eq {w : World σ} {row : Db.User} (row_row : row ∈ w.db.users) :
    mints w row.id = some ((claimsIn w.db.toTables row.id).map (identityOf row)) := by
  rw [mints, Database.userById_eq_some.mpr ⟨row_row, rfl⟩, Option.map_some, run_toIdentity]

/-- Within a frame the untouched mint what they minted. -/
theorem Frame.mints {touched : String → Prop} {w w' : World σ}
    (frame : Frame touched w.db.toTables w'.db.toTables) {userId : String}
    (known : userId ∈ w.db.userIds) (apart : ¬ touched userId) : mints w' userId = mints w userId := by
  obtain ⟨u, u_row, rfl⟩ := List.mem_map.mp known
  obtain ⟨u', u'_row, same, tenant, clearance, level⟩ := frame.row u u_row apart
  have claims : claimsIn w'.db.toTables u.id = claimsIn w.db.toTables u.id := by
    have departments : w'.db.departmentsOf TENANT = w.db.departmentsOf TENANT := by
      simp only [Tables.departmentsOf, frame.departments]
    rw [claimsIn, claimsIn, departments, frame.memberships u.id apart,
      frame.compartments u.id apart]
  have identity : identityOf u' = identityOf u := by
    funext claims
    simp only [identityOf, same, tenant, clearance, level]
  have minted := mints_eq u'_row
  rw [same] at minted
  rw [minted, mints_eq u_row, claims, identity]

/-! ## A new department -/

section

variable {S : SessionStore σ} {env : Env} {draws : Draws} {w w' : World σ}

theorem extends_of_departmentCreate {db db' : Database} {id : Cuid} {slug name : String}
    {parentId : Option String} (ok : db.departmentCreate id TENANT slug name parentId = .ok db') :
    Extends db db' ⟨id.value, TENANT, slug, name, parentId⟩ := by
  obtain ⟨tables, fresh, parent⟩ := Database.departmentCreate_ok ok
  exact ⟨tables, fresh, parent, rfl⟩

/-- A new department changes the claims of those who manage above it, and adds its
own slug only. -/
theorem createDepartment_mediated {accessToken : String} {input : CreateDepartmentInput}
    {result : Except ServiceError DepartmentView} (forest : Acyclic (w.db.DepartmentParent TENANT))
    (run : (Org.createDepartment env draws accessToken input).run w = (result, w'))
    {userId : String} (known : userId ∈ w.db.userIds) (differs : mints w' userId ≠ mints w userId) :
    (∃ v, result = .ok v) ∧ Mediated env w w' userId (.createDepartment accessToken input) := by
  rcases createDepartment_cases run with
    ⟨e, -, rfl⟩ | ⟨caller, parentId, db, v, valid, allowed, parent, ok, rfl, rfl⟩
  · exact absurd rfl differs
  have grown := extends_of_departmentCreate ok
  obtain ⟨u, u_row, rfl⟩ := List.mem_map.mp known
  have u_row' : u ∈ db.users := by
    rw [grown.tables]
    exact u_row
  have compartments : db.compartmentsOf u.id = w.db.compartmentsOf u.id := by
    simp only [Tables.compartmentsOf, grown.tables]
    rfl
  obtain ⟨before, claims⟩ := claimsIn_total forest u.id
  obtain ⟨after, claims'⟩ := claimsIn_total (grown.forest forest) u.id
  have minted : mints w u.id = some (.ok (identityOf u before)) := by
    rw [mints_eq u_row, claims]
    rfl
  have minted' : mints { w with db } u.id = some (.ok (identityOf u after)) := by
    rw [mints_eq (w := { w with db }) u_row', claims']
    rfl
  have only := claimsIn_onlyAdds grown compartments claims claims'
  refine ⟨⟨v, rfl⟩, ⟨caller, valid, allowed⟩, ?_, identityOf u before, identityOf u after, minted,
    minted', by simp only [identityOf, only.compartments], only⟩
  by_contra nowhere
  -- then the list of departments would not even have been reordered
  have outside : ∀ p ∈ parentId, ¬ ManagesAbove w.db.toTables u.id p := by
    intro p at_parent manages
    obtain ⟨d, d_row, tenant, rfl, slug⟩ := parent p at_parent
    exact nowhere ⟨d, d_row, tenant, slug, manages⟩
  have unchanged := claimsIn_outside grown compartments outside claims
  rw [claims'] at unchanged
  cases unchanged
  exact differs (minted'.trans minted.symm)

end

/-! ## Targeted operations -/

/-- An operation on the user throws and changes nothing, or has passed its check. -/
theorem targeted_cases {S : SessionStore σ} {env : Env} {draws : Draws} {w w' : World σ}
    {result : Except ServiceError Unit} {op : Operation}
    (run : (op.service S env draws).run w = (result, w')) {userId : String}
    (targeted : op.Targets userId) :
    w' = w ∨ (result = .ok () ∧ Mediated env w w' userId op) := by
  cases op with
  | grantAttributes accessToken targetId input =>
      obtain rfl := targeted
      obtain ⟨answer, granting, rfl⟩ := Prog.run_void run
      rcases grantAttributes_cases granting with
        ⟨e, -, same⟩ | ⟨caller, x, db, v, valid, x_row, same, present, next, -, rfl, -⟩
      · exact Or.inl same
      · exact Or.inr ⟨rfl, rfl, caller, valid, x, x_row, same, present, next⟩
  | setUserMemberships accessToken targetId memberships =>
      obtain rfl := targeted
      rcases setUserMemberships_cases run with
        ⟨e, -, same⟩ | ⟨caller, rows, db, valid, allowed, -, rfl, -⟩
      · exact Or.inl same
      · exact Or.inr ⟨rfl, rfl, caller, valid, allowed⟩
  | setUserCompartments accessToken targetId keys =>
      obtain rfl := targeted
      rcases setUserCompartments_cases run with
        ⟨e, -, same⟩ | ⟨caller, ids, db, valid, allowed, -, rfl, -⟩
      · exact Or.inl same
      · exact Or.inr ⟨rfl, rfl, caller, valid, allowed⟩
  | _ => exact targeted.elim

/-! ## The forest -/

/-- Every step keeps the departments a forest. -/
theorem Step.forest {S : SessionStore σ} {env : Env}
    {may : Operation → Except ServiceError Unit → Prop} {w w' : World σ}
    (step : Step S env may w w') (forest : Acyclic (w.db.DepartmentParent TENANT)) :
    Acyclic (w'.db.DepartmentParent TENANT) := by
  cases step with
  | elapse => exact forest
  | operation draws op run =>
      by_cases grows : ∃ accessToken input, op = .createDepartment accessToken input
      · obtain ⟨accessToken, input, rfl⟩ := grows
        obtain ⟨answer, run, -⟩ := Prog.run_void run
        rcases createDepartment_cases run with ⟨e, -, rfl⟩ | ⟨_, _, db, _, _, _, _, ok, _, rfl⟩
        · exact forest
        · exact (extends_of_departmentCreate ok).forest forest
      · have frame := operation_frame run fun accessToken input same =>
          grows ⟨accessToken, input, same⟩
        apply forest.of_subrelation
        intro child parent link
        simpa only [Tables.DepartmentParent, frame.departments] using link

/-! ## Self-registered accounts -/

/-- The minimal scope, no membership and no compartment. -/
structure Unprivileged (t : Tables) (userId : String) : Prop where
  row : ∃ u ∈ t.users, u.id = userId ∧ u.tenant = "unassigned" ∧ u.clearance = 0 ∧ u.level = 3
  memberships : t.membershipsOf userId = []
  compartments : t.compartmentsOf userId = []

/-- The identity of an account that has been given nothing. -/
def minimalIdentity (userId : String) : AbacIdentity :=
  { sub := userId, tenant := "unassigned", departments := [], clearance := 0, level := 3,
    compartments := [] }

namespace Unprivileged

variable {S : SessionStore σ} {env : Env} {draws : Draws} {w w' : World σ} {userId : String}

theorem mints (unprivileged : Unprivileged w.db.toTables userId) :
    mints w userId = some (.ok (minimalIdentity userId)) := by
  obtain ⟨⟨u, u_row, rfl, tenant, clearance, level⟩, memberships, compartments⟩ := unprivileged
  rw [mints_eq u_row, claimsIn, memberships, compartments]
  simp only [expandMemberships, List.foldlM_nil, Except.map, Pure.pure, Except.pure, identityOf,
    tenant, clearance, level]
  rfl

theorem frame {touched : String → Prop} {t t' : Tables} (unprivileged : Unprivileged t userId)
    (frame : Frame touched t t') (apart : ¬ touched userId) : Unprivileged t' userId := by
  obtain ⟨⟨u, u_row, rfl, tenant, clearance, level⟩, memberships, compartments⟩ := unprivileged
  obtain ⟨u', u'_row, same, tenant', clearance', level'⟩ := frame.row u u_row apart
  exact ⟨⟨u', u'_row, same, tenant'.trans tenant, clearance'.trans clearance, level'.trans level⟩,
    (frame.memberships _ apart).trans memberships, (frame.compartments _ apart).trans compartments⟩

/-- No row can have referred to a user who was not there. -/
theorem of_userCreate {db db' : Database} {id email name passwordHash : String} {now : Nat}
    (created : db.userCreate (selfSignupRow id email name passwordHash now) = .ok db') :
    Unprivileged db'.toTables id := by
  obtain ⟨tables, fresh⟩ := Database.userCreate_ok created
  rw [tables]
  refine ⟨⟨_, List.mem_append_right _ List.mem_cons_self, rfl, rfl, rfl, rfl⟩, ?_, ?_⟩
  · apply List.filterMap_eq_nil_iff.mpr
    intro m member
    obtain ⟨m_row, mine⟩ := List.mem_filter.mp member
    have referred := db.valid.userDepartment_user m m_row
    rw [of_decide_eq_true mine] at referred
    exact absurd referred fresh
  · apply List.filterMap_eq_nil_iff.mpr
    intro c member
    obtain ⟨c_row, mine⟩ := List.mem_filter.mp member
    have referred := db.valid.userCompartment_user c c_row
    rw [of_decide_eq_true mine] at referred
    exact absurd referred fresh

/-- Signing up leaves an unprivileged account, whatever the client sent. -/
theorem of_signup {email name password : String} {r : AuthResult}
    (run : (AuthService.signup S env draws email name password).run w = (.ok r, w')) :
    Unprivileged w'.db.toTables r.user.id := by
  obtain ⟨found, w₁, first, rest⟩ := Prog.run_bind_eq_ok.mp run
  cases found with
  | none => cases rest
  | some user =>
      obtain ⟨email, name, hash, now, db, created, rfl, rfl⟩ := IdentityProvider.run_createUser first
      have issuing : Framed (fun _ => False)
          (AuthService.issueFor S env draws (toUser (selfSignupRow draws.id.value email name hash now))) :=
        .issueFor _
      have framed := issuing.run { w with db }
      rw [rest] at framed
      have owner : r.user.id = draws.id.value := by
        refine Prog.Ensures.run (Q := fun r : AuthResult => r.user.id = draws.id.value) ?_ rest
        refine .bind (.true _) fun _ _ => .bind (.true _) fun _ _ => .bind (.true _) fun _ _ => ?_
        exact .pure rfl
      rw [owner]
      exact (of_userCreate created).frame framed not_false

/-- A step that does not change the user's attributes, memberships or compartments
leaves the account unprivileged. -/
theorem step (unprivileged : Unprivileged w.db.toTables userId)
    (step : Step S env (fun op result => ¬ (op.Targets userId ∧ result = .ok ())) w w') :
    Unprivileged w'.db.toTables userId := by
  cases step with
  | elapse => exact unprivileged
  | operation draws op run spared =>
      by_cases grows : ∃ accessToken input, op = .createDepartment accessToken input
      · obtain ⟨accessToken, input, rfl⟩ := grows
        obtain ⟨answer, run, -⟩ := Prog.run_void run
        rcases createDepartment_cases run with ⟨e, -, rfl⟩ | ⟨_, _, db, _, _, _, _, ok, _, rfl⟩
        · exact unprivileged
        · have grown := extends_of_departmentCreate ok
          refine ⟨?_, grown.membershipsOf.trans unprivileged.memberships, ?_⟩
          · rw [grown.tables]
            exact unprivileged.row
          · simp only [Tables.compartmentsOf, grown.tables]
            exact unprivileged.compartments
      · have other : ∀ accessToken input, op ≠ .createDepartment accessToken input :=
          fun accessToken input same => grows ⟨accessToken, input, same⟩
        by_cases targeted : op.Targets userId
        · rcases targeted_cases run targeted with rfl | ⟨ok, -⟩
          · exact unprivileged
          · exact absurd ⟨targeted, ok⟩ spared
        · exact unprivileged.frame (operation_frame run other) targeted

end Unprivileged

/-! ## Runs -/

/-- In every run from a forest of departments, the claims of an existing user change
only through an operation that succeeded and passed its check, and an account that
signed itself up mints the minimal identity until one of them reaches it. -/
theorem complete_mediation {S : SessionStore σ} {env : Env} {w₀ w : World σ}
    (forest : Acyclic (w₀.db.DepartmentParent TENANT))
    (run : Relation.ReflTransGen (Step S env fun _ _ => True) w₀ w) :
    (∀ draws (op : Operation) result w', (op.service S env draws).run w = (result, w') →
      ∀ userId ∈ w.db.userIds, mints w' userId ≠ mints w userId →
        result = .ok () ∧ Mediated env w w' userId op) ∧
    ∀ draws email name password r w₁ w₂,
      (AuthService.signup S env draws email name password).run w = (.ok r, w₁) →
      Relation.ReflTransGen
        (Step S env fun op result => ¬ (op.Targets r.user.id ∧ result = .ok ())) w₁ w₂ →
      mints w₂ r.user.id = some (.ok (minimalIdentity r.user.id)) := by
  have forest : Acyclic (w.db.DepartmentParent TENANT) := by
    induction run with
    | refl => exact forest
    | tail _ step ih => exact step.forest ih
  constructor
  · intro draws op result w' exec userId known differs
    by_cases grows : ∃ accessToken input, op = .createDepartment accessToken input
    · obtain ⟨accessToken, input, rfl⟩ := grows
      obtain ⟨answer, creating, rfl⟩ := Prog.run_void exec
      obtain ⟨⟨v, rfl⟩, mediated⟩ := createDepartment_mediated forest creating known differs
      exact ⟨rfl, mediated⟩
    by_cases targeted : op.Targets userId
    · rcases targeted_cases exec targeted with rfl | passed
      · exact absurd rfl differs
      · exact passed
    · have frame := operation_frame exec fun accessToken input same =>
        grows ⟨accessToken, input, same⟩
      exact absurd (frame.mints known targeted) differs
  · intro draws email name password r w₁ w₂ signed later
    have account : Unprivileged w₂.db.toTables r.user.id := by
      induction later with
      | refl => exact .of_signup signed
      | tail _ step ih => exact ih.step step
    exact account.mints

/-- Somebody signs up at a staffed deployment. -/
def signedUp : Except ServiceError AuthResult × World RedisSessions :=
  (AuthService.signup sampleStore sampleEnv sampleDraws "new@acme.test" "New" "correct horse").run
    (World.fresh .empty 0 staffed)

/-- An administrator then raises the clearance of somebody else. -/
def raising : Operation := .grantAttributes "admin@acme.test" "hr@acme.test" ⟨none, none, some 5, none⟩

def raised : Except ServiceError Unit × World RedisSessions :=
  (raising.service sampleStore sampleEnv sampleDraws).run signedUp.2

/-- The grant has changed the claims of the one user, and has passed both checks; the account
that signed itself up mints the minimal identity before and after. -/
theorem complete_mediation_signedUp :
    mints signedUp.2 "c1" = some (.ok (minimalIdentity "c1")) ∧
      mints raised.2 "c1" = some (.ok (minimalIdentity "c1")) ∧
      mints raised.2 "hr@acme.test" ≠ mints signedUp.2 "hr@acme.test" ∧
      raised.1 = .ok () ∧ Mediated sampleEnv signedUp.2 raised.2 "hr@acme.test" raising := by
  have account : signedUp.1.toOption.map (fun r => r.user.id) = some "c1" := by decide
  obtain ⟨r, ok, owner⟩ := Option.map_eq_some_iff.mp account
  have signed : signedUp = (.ok r, signedUp.2) := by
    refine Prod.ext ?_ rfl
    cases first : signedUp.1 with
    | error e =>
        rw [first] at ok
        cases ok
    | ok r' =>
        rw [first] at ok
        cases ok
        rfl
  have here : Relation.ReflTransGen (Step sampleStore sampleEnv fun _ _ => True)
      (World.fresh .empty 0 staffed) (World.fresh .empty 0 staffed) := .refl
  have minted : ∀ w₂, Relation.ReflTransGen (Step sampleStore sampleEnv fun op result =>
      ¬ (op.Targets "c1" ∧ result = .ok ())) signedUp.2 w₂ →
      mints w₂ "c1" = some (.ok (minimalIdentity "c1")) := by
    intro w₂ later
    rw [← owner] at later ⊢
    exact (complete_mediation (staffed_seeded.departments_acyclic TENANT) here).2 _ _ _ _ r _ _
      signed later
  have signing : Step sampleStore sampleEnv (fun _ _ => True) (World.fresh .empty 0 staffed)
      signedUp.2 :=
    .operation sampleDraws (.signup "new@acme.test" "New" "correct horse")
      (Prod.ext rfl (Prog.run_void_snd _ _)) trivial
  have elsewhere : Step sampleStore sampleEnv
      (fun op result => ¬ (op.Targets "c1" ∧ result = .ok ())) signedUp.2 raised.2 :=
    .operation sampleDraws raising rfl fun targeted =>
      absurd targeted.1 (by decide : "hr@acme.test" ≠ "c1")
  have differs : mints raised.2 "hr@acme.test" ≠ mints signedUp.2 "hr@acme.test" := by decide
  obtain ⟨success, mediated⟩ :=
    (complete_mediation (staffed_seeded.departments_acyclic TENANT) (.single signing)).1
      sampleDraws raising _ _ rfl "hr@acme.test" (by decide) differs
  exact ⟨minted _ .refl, minted _ (.single elsewhere), differs, success, mediated⟩

end Arac.Mediation
