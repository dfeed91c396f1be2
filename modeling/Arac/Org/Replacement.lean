/-
# Arac.Org.Replacement -- what a replacement of a user's rows stores

`setUserCompartments` builds its insert from the rows it has found, so a key that is
listed twice is stored once.  `setUserMemberships` builds it from the list: the count
of distinct slugs lets a repeated slug through, and the primary key then refuses the
transaction.  `replacesExactly_iff` says that a replacement stores exactly the set that
was asked for, or nothing, unless it repeats a slug of which all are known.
-/
import Arac.Org.TargetScope
import Arac.Org.Transactions

namespace Arac.Org

open Arac.Theory Arac.Sessions Arac.Db Arac.Service Arac.Rbac

set_option autoImplicit false

/-! ## Reading, then writing -/

section

variable {σ α : Type} {S : SessionStore σ} {env : Env} {w w' : World σ}
  {accessToken caller userId : String}

/-- A replacement throws and changes nothing, or writes the rows it has read and revokes
the user's sessions. -/
theorem replacement_cases {read : Service σ α} {update : α → Database → Except PrismaError Database}
    {result : Except ServiceError Unit} (quiet : Quiet read)
    (run : (read >>= fun rows => commit (update rows) >>= fun _ => revokeUser S userId).run w =
      (result, w')) :
    (∃ e, result = .error e ∧ w' = w) ∨
    ∃ rows db, read.run w = (.ok rows, w) ∧ update rows w.db = .ok db ∧ result = .ok () ∧
      w' = { w with db, sessions := S.machine.perform w.sessions (.revokeUser userId) } := by
  have same : (read.run w).2 = w := quiet.run w
  cases answer : (read.run w).1 with
  | error e =>
      have failed : read.run w = (.error e, w) := Prod.ext answer same
      exact Or.inl ⟨e, Prog.stops failed run⟩
  | ok rows =>
      have ok : read.run w = (.ok rows, w) := Prod.ext answer same
      rw [Prog.run_bind_ok ok] at run
      cases written : update rows w.db with
      | error e => exact Or.inl ⟨_, Prog.stops (run_commit_error _ written) run⟩
      | ok db =>
          rw [Prog.run_bind_ok (run_commit_ok _ written), run_revokeUser] at run
          cases run
          exact Or.inr ⟨rows, db, ok, written, rfl, rfl⟩

/-- The two reads of a permitted caller, of an existing user. -/
theorem run_readRows {β : Type} {find : Tables → β} {rows : β → Except ServiceError (List α)}
    {x : User} (valid : env.TokenOf w.now accessToken caller)
    (allowed : Allowed w caller ORG_MANAGE none) (x_row : x ∈ w.db.users) :
    (readRows env accessToken x.id find rows).run w = (rows (find w.db.toTables), w) := by
  rw [readRows, Prog.run_bind_ok (run_require_allowed valid allowed),
    Prog.run_bind_ok (run_query _ w), Database.userById_eq_some.mpr ⟨x_row, rfl⟩]
  exact (Prog.run_bind_ok (run_query _ w) _).trans (Prog.run_ofExcept _ w)

end

/-! ## The requested set -/

namespace OrgRequest

/-- The tenant has every department or compartment that the request names. -/
def Known (t : Tables) : OrgRequest → Prop
  | .setUserMemberships memberships =>
      ∀ slug ∈ memberships.map MembershipInput.slug,
        ∃ d ∈ t.departments, d.tenant = TENANT ∧ d.slug = slug
  | .setUserCompartments keys => ∀ key ∈ keys, ∃ c ∈ t.compartments, c.tenant = TENANT ∧ c.key = key

/-- The list of memberships names no department twice. -/
def Distinct : OrgRequest → Prop
  | .setUserMemberships memberships => (memberships.map MembershipInput.slug).Nodup
  | .setUserCompartments _ => True

instance (request : OrgRequest) : Decidable request.Distinct := by
  cases request <;> unfold Distinct <;> infer_instance

/-- What is thrown where something is not known. -/
def notFound : OrgRequest → ServiceError
  | .setUserMemberships _ => .notFound "One or more departments not found"
  | .setUserCompartments _ => .notFound "One or more compartments not found"

/-- The user has one row for each distinct slug or key of the request, and no other;
a membership has a rank that the list gives for its slug. -/
def Stored (t : Tables) (userId : String) : OrgRequest → Prop
  | .setUserMemberships memberships =>
      (∀ m ∈ t.userDepartments, m.userId = userId → AssignsMembership t userId memberships m) ∧
        ∀ slug ∈ memberships.map MembershipInput.slug, ∃! m, m ∈ t.userDepartments ∧
          m.userId = userId ∧ ∃ d ∈ t.departments, d.tenant = TENANT ∧ d.slug = slug ∧
            d.id = m.departmentId
  | .setUserCompartments keys =>
      (∀ c ∈ t.userCompartments, c.userId = userId → AssignsCompartment t userId keys c) ∧
        ∀ key ∈ keys, ∃! c, c ∈ t.userCompartments ∧ c.userId = userId ∧
          ∃ comp ∈ t.compartments, comp.tenant = TENANT ∧ comp.key = key ∧ comp.id = c.compartmentId

/-- The claims are those of the requested set: its slugs with what a manager's rank
adds below them, or its keys. -/
def Reflected (t : Tables) (userId : String) (claims : EffectiveClaims) : OrgRequest → Prop
  | .setUserMemberships memberships =>
      ∀ slug, slug ∈ claims.departments ↔ slug ∈ memberships.map MembershipInput.slug ∨
        ∃ m ∈ t.userDepartments, m.userId = userId ∧ Manages m.rank ∧
          Inherits t m.departmentId slug
  | .setUserCompartments keys => ∀ key, key ∈ claims.compartments ↔ key ∈ keys

end OrgRequest

section

variable {σ : Type} (S : SessionStore σ) (env : Env) (w : World σ) (accessToken userId : String)

/-- The request stores exactly what it asks for and the claims follow, or it throws
`NotFoundException` and changes nothing; the rows of others stay. -/
structure ReplacesExactly (request : OrgRequest) : Prop where
  stores : request.Known w.db.toTables → ∃ w',
    (request.service S env accessToken userId).run w = (.ok (), w') ∧
      request.Stored w'.db.toTables userId ∧
      (∀ claims, ((effectiveClaims userId).run w').1 = .ok claims →
        request.Reflected w'.db.toTables userId claims) ∧
      (Acyclic (w'.db.DepartmentParent TENANT) →
        ∃ claims, (effectiveClaims userId).run w' = (.ok claims, w'))
  refuses : ¬ request.Known w.db.toTables →
    (request.service S env accessToken userId).run w = (.error request.notFound, w)
  others : ∀ result w', (request.service S env accessToken userId).run w = (result, w') →
    (∀ m : UserDepartment, m.userId ≠ userId →
      (m ∈ w'.db.userDepartments ↔ m ∈ w.db.userDepartments)) ∧
    ∀ c : UserCompartment, c.userId ≠ userId →
      (c ∈ w'.db.userCompartments ↔ c ∈ w.db.userCompartments)

end

/-! ## What is stored -/

section

variable {db db' : Database} {userId : String}

/-- Two rows of one user for one department are one row. -/
theorem membership_eq {m m' : UserDepartment} (m_row : m ∈ db.userDepartments)
    (m'_row : m' ∈ db.userDepartments) (user : m.userId = m'.userId)
    (department : m.departmentId = m'.departmentId) : m = m' :=
  List.inj_on_of_nodup_map db.valid.userDepartment_id m_row m'_row (Prod.ext user department)

theorem holding_eq {c c' : UserCompartment} (c_row : c ∈ db.userCompartments)
    (c'_row : c' ∈ db.userCompartments) (user : c.userId = c'.userId)
    (compartment : c.compartmentId = c'.compartmentId) : c = c' :=
  List.inj_on_of_nodup_map db.valid.userCompartment_id c_row c'_row (Prod.ext user compartment)

/-- One slug of the tenant names one department. -/
theorem department_of_slug {d e : Department} (d_row : d ∈ db.departments)
    (e_row : e ∈ db.departments) (tenant : d.tenant = e.tenant) (slug : d.slug = e.slug) : d = e :=
  List.inj_on_of_nodup_map db.valid.department_slug d_row e_row (Prod.ext tenant slug)

theorem compartment_of_key {c d : Compartment} (c_row : c ∈ db.compartments)
    (d_row : d ∈ db.compartments) (tenant : c.tenant = d.tenant) (key : c.key = d.key) : c = d :=
  List.inj_on_of_nodup_map db.valid.compartment_key c_row d_row (Prod.ext tenant key)

/-- The rows of the user are those written, and the rows of others are as before. -/
theorem mem_replaced {ρ : Type} (owner : ρ → String) (userId : String) {old new : List ρ} {r : ρ}
    (theirs : ∀ r ∈ new, owner r = userId) :
    (owner r = userId → (r ∈ (old.filter fun r => owner r ≠ userId) ++ new ↔ r ∈ new)) ∧
      (owner r ≠ userId → (r ∈ (old.filter fun r => owner r ≠ userId) ++ new ↔ r ∈ old)) := by
  constructor
  · intro mine
    simp [mine]
  · intro other
    have absent : r ∉ new := fun member => other (theirs r member)
    simp [other, absent]

theorem owner_of_mem_map {α ρ : Type} {owner : ρ → String} {row : α → ρ} {xs : List α}
    (owned : ∀ x, owner (row x) = userId) : ∀ r ∈ xs.map row, owner r = userId := by
  intro r member
  obtain ⟨x, -, rfl⟩ := List.mem_map.mp member
  exact owned x

/-- When every slug is known there is a row for each membership. -/
theorem rowsOf_known {memberships : List MembershipInput}
    (known : (OrgRequest.setUserMemberships memberships).Known db.toTables) :
    ∃ rows, rowsOf memberships (db.departmentsIn TENANT (memberships.map MembershipInput.slug)) =
        .ok rows ∧
      (∀ row ∈ rows, row.1 ∈ db.departmentIds) ∧
      ((rows.map Prod.fst).Nodup ↔ (memberships.map MembershipInput.slug).Nodup) := by
  obtain ⟨rows, found, departments, same⟩ := memberships_looked_up known
  refine ⟨rows, ?_, departments, same⟩
  rw [rowsOf, if_neg (not_ne_iff.mpr (departments_found_iff.mpr known))]
  simp only [found]

theorem known_of_rowsOf {memberships : List MembershipInput} {rows : List (String × DeptRank)}
    (ok : rowsOf memberships (db.departmentsIn TENANT (memberships.map MembershipInput.slug)) =
      .ok rows) : (OrgRequest.setUserMemberships memberships).Known db.toTables := by
  unfold rowsOf at ok
  split at ok
  · cases ok
  · rename_i counted
    exact departments_found_iff.mp (not_ne_iff.mp counted)

theorem known_of_idsOf {keys ids : List String}
    (ok : idsOf keys (db.compartmentsIn TENANT keys) = .ok ids) :
    (OrgRequest.setUserCompartments keys).Known db.toTables := by
  unfold idsOf at ok
  split at ok
  · cases ok
  · rename_i counted
    exact compartments_found_iff.mp (not_ne_iff.mp counted)

theorem stored_memberships {memberships : List MembershipInput} {rows : List (String × DeptRank)}
    (looked : rowsOf memberships (db.departmentsIn TENANT (memberships.map MembershipInput.slug)) =
      .ok rows) (ok : db.setUserDepartments userId rows = .ok db') :
    (OrgRequest.setUserMemberships memberships).Stored db'.toTables userId := by
  have tables := Database.setUserDepartments_ok ok
  have departments : db'.departments = db.departments := by rw [tables]
  have described : ∀ m, m.userId = userId →
      (m ∈ db'.userDepartments ↔ AssignsMembership db.toTables userId memberships m) := by
    intro m mine
    rw [← mem_memberships_iff userId looked, tables]
    exact (mem_replaced UserDepartment.userId userId (owner_of_mem_map fun _ => rfl)).1 mine
  constructor
  · intro m member mine
    obtain ⟨-, x, listed, rank, d, d_row, named⟩ := (described m mine).mp member
    exact ⟨mine, x, listed, rank, d, departments ▸ d_row, named⟩
  · intro slug listed
    obtain ⟨d, d_row, tenant, named⟩ := known_of_rowsOf looked slug listed
    obtain ⟨x, x_listed, rfl⟩ := List.mem_map.mp listed
    have there : (⟨userId, d.id, x.rank.getD .ic⟩ : UserDepartment) ∈ db'.userDepartments :=
      (described _ rfl).mpr ⟨rfl, x, x_listed, rfl, d, d_row, tenant, named, rfl⟩
    refine ⟨_, ⟨there, rfl, d, departments ▸ d_row, tenant, named, rfl⟩, ?_⟩
    rintro m ⟨member, mine, e, e_row, e_tenant, e_named, id⟩
    have same := department_of_slug (departments ▸ e_row) d_row (e_tenant.trans tenant.symm)
      (e_named.trans named.symm)
    exact membership_eq member there mine (by rw [← id, same])

theorem stored_compartments {keys ids : List String}
    (looked : idsOf keys (db.compartmentsIn TENANT keys) = .ok ids)
    (ok : db.setUserCompartments userId ids = .ok db') :
    (OrgRequest.setUserCompartments keys).Stored db'.toTables userId := by
  have tables := Database.setUserCompartments_ok ok
  have compartments : db'.compartments = db.compartments := by rw [tables]
  have described : ∀ c, c.userId = userId →
      (c ∈ db'.userCompartments ↔ AssignsCompartment db.toTables userId keys c) := by
    intro c mine
    rw [← mem_compartments_iff userId looked, tables]
    exact (mem_replaced UserCompartment.userId userId (owner_of_mem_map fun _ => rfl)).1 mine
  constructor
  · intro c member mine
    obtain ⟨-, comp, comp_row, named⟩ := (described c mine).mp member
    exact ⟨mine, comp, compartments ▸ comp_row, named⟩
  · intro key listed
    obtain ⟨comp, comp_row, tenant, named⟩ := known_of_idsOf looked key listed
    have there : (⟨userId, comp.id⟩ : UserCompartment) ∈ db'.userCompartments :=
      (described _ rfl).mpr ⟨rfl, comp, comp_row, tenant, named ▸ listed, rfl⟩
    refine ⟨_, ⟨there, rfl, comp, compartments ▸ comp_row, tenant, named, rfl⟩, ?_⟩
    rintro c ⟨member, mine, other, other_row, other_tenant, other_named, id⟩
    have same := compartment_of_key (compartments ▸ other_row) comp_row
      (other_tenant.trans tenant.symm) (other_named.trans named.symm)
    exact holding_eq member there mine (by rw [← id, same])

/-- Where the requested set is stored the claims follow. -/
theorem reflected_of_stored {request : OrgRequest} {claims : EffectiveClaims}
    (stored : request.Stored db.toTables userId)
    (ok : claimsIn db.toTables userId = .ok claims) :
    request.Reflected db.toTables userId claims := by
  obtain ⟨departments, compartments⟩ := mem_claims_iff ok
  cases request with
  | setUserMemberships memberships =>
      obtain ⟨described, one⟩ := stored
      intro slug
      rw [departments]
      constructor
      · rintro ⟨m, member, mine, ⟨d, d_row, id, rfl⟩ | inherited⟩
        · obtain ⟨-, x, listed, -, e, e_row, -, named, same⟩ := described m member mine
          have one_row := Database.department_eq e_row d_row (same.trans id.symm)
          exact Or.inl (List.mem_map.mpr ⟨x, listed, by rw [← named, one_row]⟩)
        · exact Or.inr ⟨m, member, mine, inherited⟩
      · rintro (listed | ⟨m, member, mine, inherited⟩)
        · obtain ⟨m, ⟨member, mine, d, d_row, -, named, id⟩, -⟩ := one slug listed
          exact ⟨m, member, mine, Or.inl ⟨d, d_row, id, named⟩⟩
        · exact ⟨m, member, mine, Or.inr inherited⟩
  | setUserCompartments keys =>
      obtain ⟨described, one⟩ := stored
      intro key
      rw [compartments]
      constructor
      · rintro ⟨c, member, mine, comp, comp_row, id, rfl⟩
        obtain ⟨-, other, other_row, -, listed, same⟩ := described c member mine
        have one_row : other.id = comp.id := same.trans id.symm
        rwa [List.inj_on_of_nodup_map db.valid.compartment_id other_row comp_row one_row] at listed
      · intro listed
        obtain ⟨c, ⟨member, mine, comp, comp_row, -, named, id⟩, -⟩ := one key listed
        exact ⟨c, member, mine, comp, comp_row, id, named⟩

end

/-! ## Whole requests -/

section

variable {σ : Type} {S : SessionStore σ} {env : Env} {w w' : World σ}
  {accessToken caller userId : String}

/-- Whatever a request answers, the rows of other users stay. -/
theorem others_kept {request : OrgRequest} {result : Except ServiceError Unit}
    (run : (request.service S env accessToken userId).run w = (result, w')) :
    (∀ m : UserDepartment, m.userId ≠ userId →
      (m ∈ w'.db.userDepartments ↔ m ∈ w.db.userDepartments)) ∧
    ∀ c : UserCompartment, c.userId ≠ userId →
      (c ∈ w'.db.userCompartments ↔ c ∈ w.db.userCompartments) := by
  cases request with
  | setUserMemberships memberships =>
      simp only [OrgRequest.service, setUserMemberships_eq] at run
      rcases replacement_cases quiet_readRows run with ⟨e, -, rfl⟩ | ⟨rows, db, -, ok, -, rfl⟩
      · exact ⟨fun _ _ => Iff.rfl, fun _ _ => Iff.rfl⟩
      · have tables := Database.setUserDepartments_ok ok
        constructor
        · intro m other
          simp only [tables]
          exact (mem_replaced UserDepartment.userId userId (owner_of_mem_map fun _ => rfl)).2 other
        · intro c _
          simp only [tables]
  | setUserCompartments keys =>
      simp only [OrgRequest.service, setUserCompartments_eq] at run
      rcases replacement_cases quiet_readRows run with ⟨e, -, rfl⟩ | ⟨ids, db, -, ok, -, rfl⟩
      · exact ⟨fun _ _ => Iff.rfl, fun _ _ => Iff.rfl⟩
      · have tables := Database.setUserCompartments_ok ok
        constructor
        · intro m _
          simp only [tables]
        · intro c other
          simp only [tables]
          exact (mem_replaced UserCompartment.userId userId (owner_of_mem_map fun _ => rfl)).2 other

variable {x : User}

/-- A request that names something unknown is refused. -/
theorem run_request_unknown (valid : env.TokenOf w.now accessToken caller)
    (allowed : Allowed w caller ORG_MANAGE none) (x_row : x ∈ w.db.users) {request : OrgRequest}
    (unknown : ¬ request.Known w.db.toTables) :
    (request.service S env accessToken x.id).run w = (.error request.notFound, w) := by
  cases request with
  | setUserMemberships memberships =>
      have missing : rowsOf memberships
          (w.db.departmentsIn TENANT (memberships.map MembershipInput.slug)) =
            .error (.notFound "One or more departments not found") := by
        rw [rowsOf, if_pos fun counted => unknown (departments_found_iff.mp counted)]
      simp only [OrgRequest.service, setUserMemberships_eq]
      refine Prog.run_bind_error ?_ _
      rw [readMemberships, run_readRows valid allowed x_row, missing]
      rfl
  | setUserCompartments keys =>
      have missing : idsOf keys (w.db.compartmentsIn TENANT keys) =
          .error (.notFound "One or more compartments not found") := by
        rw [idsOf, if_pos fun counted => unknown (compartments_found_iff.mp counted)]
      simp only [OrgRequest.service, setUserCompartments_eq]
      refine Prog.run_bind_error ?_ _
      rw [readCompartments, run_readRows valid allowed x_row, missing]
      rfl

/-- A request of which everything is known stores what it asks for, if it can be stored. -/
theorem run_request_known (valid : env.TokenOf w.now accessToken caller)
    (allowed : Allowed w caller ORG_MANAGE none) (x_row : x ∈ w.db.users) {request : OrgRequest}
    (known : request.Known w.db.toTables) (distinct : request.Distinct) :
    ∃ db, (request.service S env accessToken x.id).run w =
        (.ok (), { w with db, sessions := S.machine.perform w.sessions (.revokeUser x.id) }) ∧
      request.Stored db.toTables x.id := by
  have user : x.id ∈ w.db.userIds := List.mem_map_of_mem x_row
  cases request with
  | setUserMemberships memberships =>
      obtain ⟨rows, looked, departments, same⟩ := rowsOf_known known
      obtain ⟨db, written⟩ :=
        Database.setUserDepartments_commits (same.mpr distinct) user departments
      refine ⟨db, ?_, stored_memberships looked written⟩
      have read : (readMemberships env accessToken x.id memberships).run w = (.ok rows, w) := by
        rw [readMemberships, run_readRows valid allowed x_row, looked]
      simp only [OrgRequest.service, setUserMemberships_eq]
      rw [Prog.run_bind_ok read, Prog.run_bind_ok (run_commit_ok _ written), run_revokeUser]
  | setUserCompartments keys =>
      have looked : idsOf keys (w.db.compartmentsIn TENANT keys) =
          .ok ((w.db.compartmentsIn TENANT keys).map Compartment.id) := by
        rw [idsOf, if_neg (not_ne_iff.mpr (compartments_found_iff.mpr known))]
      obtain ⟨members, nodup, -⟩ := idsOf_spec looked
      have compartments : ∀ id ∈ (w.db.compartmentsIn TENANT keys).map Compartment.id,
          id ∈ w.db.compartmentIds := by
        intro id listed
        obtain ⟨comp, comp_row, -, -, rfl⟩ := (members id).mp listed
        exact List.mem_map_of_mem comp_row
      obtain ⟨db, written⟩ := Database.setUserCompartments_commits nodup user compartments
      refine ⟨db, ?_, stored_compartments looked written⟩
      have read : (readCompartments env accessToken x.id keys).run w =
          (.ok ((w.db.compartmentsIn TENANT keys).map Compartment.id), w) := by
        rw [readCompartments, run_readRows valid allowed x_row, looked]
      simp only [OrgRequest.service, setUserCompartments_eq]
      rw [Prog.run_bind_ok read, Prog.run_bind_ok (run_commit_ok _ written), run_revokeUser]

/-- The database refuses a list that repeats a slug. -/
theorem run_request_repeated (valid : env.TokenOf w.now accessToken caller)
    (allowed : Allowed w caller ORG_MANAGE none) (x_row : x ∈ w.db.users) {request : OrgRequest}
    (known : request.Known w.db.toTables) (repeats : ¬ request.Distinct) :
    (request.service S env accessToken x.id).run w = (.error (.prisma .uniqueConstraint), w) := by
  cases request with
  | setUserMemberships memberships =>
      obtain ⟨rows, looked, -, same⟩ := rowsOf_known known
      have refused : w.db.setUserDepartments x.id rows = .error .uniqueConstraint :=
        Database.setUserDepartments_duplicate fun nodup => repeats (same.mp nodup)
      have read : (readMemberships env accessToken x.id memberships).run w = (.ok rows, w) := by
        rw [readMemberships, run_readRows valid allowed x_row, looked]
      simp only [OrgRequest.service, setUserMemberships_eq]
      rw [Prog.run_bind_ok read, Prog.run_bind_error (run_commit_error _ refused)]
  | setUserCompartments keys => exact absurd trivial repeats

/-- A replacement stores exactly what it asks for, or nothing, unless all its slugs are
known and one is repeated. -/
theorem replacesExactly_iff (valid : env.TokenOf w.now accessToken caller)
    (allowed : Allowed w caller ORG_MANAGE none) (x_row : x ∈ w.db.users) (request : OrgRequest) :
    ReplacesExactly S env w accessToken x.id request ↔
      (request.Known w.db.toTables → request.Distinct) := by
  constructor
  · intro exact_ known
    by_contra repeats
    obtain ⟨w', stored, -⟩ := exact_.stores known
    rw [run_request_repeated valid allowed x_row known repeats] at stored
    cases stored
  · intro distinct
    refine ⟨?_, run_request_unknown valid allowed x_row, fun _ _ => others_kept⟩
    intro known
    obtain ⟨db, run, stored⟩ := run_request_known (S := S) valid allowed x_row known (distinct known)
    refine ⟨_, run, stored, ?_, ?_⟩
    · intro claims answer
      rw [run_effectiveClaims] at answer
      exact reflected_of_stored stored answer
    · intro forest
      obtain ⟨claims, ok⟩ := claimsIn_total forest x.id
      exact ⟨claims, by rw [run_effectiveClaims, ok]⟩

end

/-! ## A department named twice -/

/-- A key that is listed twice does no harm. -/
theorem replacesExactly_compartments :
    ReplacesExactly sampleStore sampleEnv (World.fresh .empty 0 staffed) "admin@acme.test"
      "dept-admin@acme.test" (.setUserCompartments ["PII", "PII"]) :=
  (replacesExactly_iff (x := staff "dept-admin@acme.test" 4) (sampleEnv_tokenOf 0 _) (by decide)
    (by decide) _).mpr fun _ => trivial

/-- A slug that is listed twice, with two ranks, is refused by the primary key. -/
theorem not_always_replacesExactly :
    ¬ ∀ (σ : Type) (S : SessionStore σ) (env : Env) (w : World σ) (accessToken caller : String)
      (x : User), env.TokenOf w.now accessToken caller → Allowed w caller ORG_MANAGE none →
        x ∈ w.db.users → ∀ request, ReplacesExactly S env w accessToken x.id request := by
  intro always
  have replaced := always RedisSessions sampleStore sampleEnv (World.fresh .empty 0 staffed)
    "admin@acme.test" "admin@acme.test" (staff "dept-admin@acme.test" 4) (sampleEnv_tokenOf 0 _)
    (by decide) (by decide) (.setUserMemberships [⟨"hr", none⟩, ⟨"hr", some .lead⟩])
  have known : (OrgRequest.setUserMemberships [⟨"hr", none⟩, ⟨"hr", some .lead⟩]).Known
      staffed.toTables := by
    unfold OrgRequest.Known
    decide
  obtain ⟨w', stored, -⟩ := replaced.stores known
  have failed : ((OrgRequest.setUserMemberships [⟨"hr", none⟩, ⟨"hr", some .lead⟩]).service
      sampleStore sampleEnv "admin@acme.test" "dept-admin@acme.test").run
        (World.fresh .empty 0 staffed) =
      (.error (.prisma .uniqueConstraint), World.fresh .empty 0 staffed) :=
    run_request_repeated (x := staff "dept-admin@acme.test" 4)
      (sampleEnv_tokenOf 0 "admin@acme.test") (by decide) (by decide) known (by decide)
  exact absurd (failed.symm.trans stored) (by simp)

end Arac.Org
