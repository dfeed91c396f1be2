/-
# Arac.Org.Transactions -- two replacements of one user's memberships

`setUserMemberships` and `setUserCompartments` again, with the transaction taken apart
into its statements, over a table under READ COMMITTED.  Alone, they do what the calls
of `Org.Service` do (`setUserMembershipsTx_alone`, `setUserCompartmentsTx_alone`).  Two
at the same time, both of which succeed, leave the rows of one of them exactly where
the `DELETE` of one begins after the other has committed, or one writes no rows
(`replacement_iff`).

What a call reads before its transaction does not depend on the table.
-/
import Arac.Org.Effects
import Arac.Services.Concurrent
import Arac.Sessions.InMemory
import Arac.Theory.ReadCommitted

namespace Arac.Org

open Arac.Theory Arac.Sessions Arac.Db Arac.Service Arac.Rbac

set_option autoImplicit false

/-! ## The statements of a call -/

/-- The world, and the table that is replaced in. -/
structure Clustered (σ ρ : Type) where
  world : World σ
  table : Table Bool ρ

namespace Clustered

variable {σ ρ α : Type}

def start (w : World σ) (rows : List ρ) : Clustered σ ρ := ⟨w, .ofRows rows⟩

def setWorld (s : Clustered σ ρ) (world : World σ) : Clustered σ ρ := { s with world }

def setTable (s : Clustered σ ρ) (table : Table Bool ρ) : Clustered σ ρ := { s with table }

/-- A procedure that leaves the table alone. -/
def outside (p : Service σ α) : Prog (Clustered σ ρ) ServiceError α := p.zoom world setWorld

/-- A procedure on the table. -/
def inside (p : Prog (Table Bool ρ) ServiceError α) : Prog (Clustered σ ρ) ServiceError α :=
  p.zoom table setTable

theorem run_outside (p : Service σ α) (s : Clustered σ ρ) :
    (outside p).run s = ((p.run s.world).1, s.setWorld (p.run s.world).2) :=
  Prog.run_zoom world setWorld (fun _ _ => rfl) (fun _ => rfl) (fun _ _ _ => rfl) p s

theorem run_inside (p : Prog (Table Bool ρ) ServiceError α) (s : Clustered σ ρ) :
    (inside p).run s = ((p.run s.table).1, s.setTable (p.run s.table).2) :=
  Prog.run_zoom table setTable (fun _ _ => rfl) (fun _ => rfl) (fun _ _ _ => rfl) p s

end Clustered

section

variable {σ α ρ κ : Type} [DecidableEq κ] (S : SessionStore σ) (env : Env)

/-- Read what to write, replace the user's rows in one transaction, revoke the sessions. -/
def replaceRows (userId : String) (key : ρ → κ) (owner : ρ → String) (row : α → ρ) (i : Bool)
    (read : Service σ (List α)) : Prog (Clustered σ ρ) ServiceError Unit := do
  let created ← Clustered.outside read
  Clustered.inside (Table.replaceAll key (.prisma .uniqueConstraint) i
    (fun r => owner r = userId) (created.map row))
  Clustered.outside (revokeUser S userId)

/-- The departments and ranks to write, from the departments that were found. -/
def rowsOf (memberships : List MembershipInput) (depts : List Department) :
    Except ServiceError (List (String × DeptRank)) :=
  if depts.length ≠ (OrderedSet.empty.addAll (memberships.map MembershipInput.slug)).toList.length then
    .error (.notFound "One or more departments not found")
  else
    let bySlug := lookupTable Department.slug Department.id depts
    match memberships.mapM fun m => (bySlug m.slug).map fun id => (id, m.rank.getD .ic) with
    | none => .error .prismaValidation
    | some rows => .ok rows

/-- The compartments to write, from those that were found. -/
def idsOf (keys : List String) (comps : List Compartment) : Except ServiceError (List String) :=
  if comps.length ≠ (OrderedSet.empty.addAll keys).toList.length then
    .error (.notFound "One or more compartments not found")
  else .ok (comps.map Compartment.id)

/-- What both calls do before their transaction. -/
def readRows {β : Type} (accessToken userId : String) (find : Tables → β)
    (rows : β → Except ServiceError (List α)) : Service σ (List α) := do
  let _ ← require env accessToken ORG_MANAGE
  match ← query (·.userById userId) with
  | none => Prog.fail (.notFound "User not found")
  | some _ => do
      let found ← query find
      Prog.ofExcept (rows found)

def readMemberships (accessToken userId : String) (memberships : List MembershipInput) :
    Service σ (List (String × DeptRank)) :=
  readRows env accessToken userId (·.departmentsIn TENANT (memberships.map MembershipInput.slug))
    (rowsOf memberships)

def readCompartments (accessToken userId : String) (keys : List String) : Service σ (List String) :=
  readRows env accessToken userId (·.compartmentsIn TENANT keys) (idsOf keys)

def setUserMembershipsTx (accessToken userId : String) (i : Bool)
    (memberships : List MembershipInput) : Prog (Clustered σ UserDepartment) ServiceError Unit :=
  replaceRows S userId (fun m : UserDepartment => (m.userId, m.departmentId)) UserDepartment.userId
    (fun row : String × DeptRank => { userId, departmentId := row.1, rank := row.2 }) i
    (readMemberships env accessToken userId memberships)

def setUserCompartmentsTx (accessToken userId : String) (i : Bool) (keys : List String) :
    Prog (Clustered σ UserCompartment) ServiceError Unit :=
  replaceRows S userId (fun c : UserCompartment => (c.userId, c.compartmentId))
    UserCompartment.userId (fun compartmentId => { userId, compartmentId }) i
    (readCompartments env accessToken userId keys)

variable {S env}

/-- `setUserMemberships` is what it reads, then the transaction. -/
theorem setUserMemberships_eq (accessToken userId : String) (memberships : List MembershipInput) :
    setUserMemberships S env accessToken userId memberships =
      readMemberships env accessToken userId memberships >>= fun rows =>
        commit (·.setUserDepartments userId rows) >>= fun _ => revokeUser S userId := by
  rw [setUserMemberships, readMemberships, readRows, Prog.bind_assoc]
  refine congrArg _ (funext fun _ => congrArg (Prog.await _) (funext fun found => ?_))
  cases found with
  | none => rfl
  | some user =>
      refine congrArg (Prog.await _) (funext fun depts => ?_)
      simp only [Prog.bind, rowsOf]
      split
      · rfl
      · generalize memberships.mapM (fun m => (lookupTable Department.slug Department.id depts
          m.slug).map fun id => (id, m.rank.getD .ic)) = looked
        cases looked with
        | none => rfl
        | some rows => rfl

theorem setUserCompartments_eq (accessToken userId : String) (keys : List String) :
    setUserCompartments S env accessToken userId keys =
      readCompartments env accessToken userId keys >>= fun ids =>
        commit (·.setUserCompartments userId ids) >>= fun _ => revokeUser S userId := by
  rw [setUserCompartments, readCompartments, readRows, Prog.bind_assoc]
  refine congrArg _ (funext fun _ => congrArg (Prog.await _) (funext fun found => ?_))
  cases found with
  | none => rfl
  | some user =>
      refine congrArg (Prog.await _) (funext fun comps => ?_)
      simp only [Prog.bind, idsOf]
      split <;> rfl

/-! ## What is written -/

/-- The membership that a call describes. -/
structure AssignsMembership (t : Tables) (userId : String) (memberships : List MembershipInput)
    (m : UserDepartment) : Prop where
  user : m.userId = userId
  listed : ∃ x ∈ memberships, m.rank = x.rank.getD .ic ∧
    ∃ d ∈ t.departments, d.tenant = TENANT ∧ d.slug = x.slug ∧ d.id = m.departmentId

structure AssignsCompartment (t : Tables) (userId : String) (keys : List String)
    (c : UserCompartment) : Prop where
  user : c.userId = userId
  listed : ∃ comp ∈ t.compartments, comp.tenant = TENANT ∧ comp.key ∈ keys ∧ comp.id = c.compartmentId

variable {db : Database} {userId : String}

theorem rowsOf_spec {memberships : List MembershipInput} {rows : List (String × DeptRank)}
    (ok : rowsOf memberships (db.departmentsIn TENANT (memberships.map MembershipInput.slug)) =
      .ok rows) :
    (∀ row, row ∈ rows ↔ ∃ x ∈ memberships, row.2 = x.rank.getD .ic ∧
      ∃ d ∈ db.departments, d.tenant = TENANT ∧ d.slug = x.slug ∧ d.id = row.1) ∧
    (rows = [] ↔ memberships = []) := by
  unfold rowsOf at ok
  split at ok
  · cases ok
  simp only at ok
  split at ok
  · cases ok
  rename_i found
  cases ok
  obtain ⟨members, empty⟩ := mem_of_mapM found
  refine ⟨?_, empty⟩
  intro row
  rw [members]
  refine exists_congr fun x => and_congr_right fun listed => ?_
  simp only [Option.map_eq_some_iff, Database.departmentsIn_lookup]
  constructor
  · rintro ⟨id, ⟨-, d, d_row, tenant, slug, rfl⟩, rfl⟩
    exact ⟨rfl, d, d_row, tenant, slug, rfl⟩
  · rintro ⟨rank, d, d_row, tenant, slug, id⟩
    exact ⟨d.id, ⟨List.mem_map_of_mem listed, d, d_row, tenant, slug, rfl⟩, Prod.ext id rank.symm⟩

theorem idsOf_spec {keys : List String} {ids : List String}
    (ok : idsOf keys (db.compartmentsIn TENANT keys) = .ok ids) :
    (∀ id, id ∈ ids ↔ ∃ comp ∈ db.compartments, comp.tenant = TENANT ∧ comp.key ∈ keys ∧
      comp.id = id) ∧ ids.Nodup ∧ (ids = [] ↔ keys = []) := by
  unfold idsOf at ok
  split at ok
  · cases ok
  rename_i counted
  cases ok
  refine ⟨?_, ?_, ?_⟩
  · intro id
    simp [Tables.compartmentsIn, and_assoc]
  · exact (List.filter_sublist.map _).nodup db.valid.compartment_id
  · constructor
    · intro nothing
      apply List.eq_nil_iff_forall_not_mem.mpr
      intro key listed
      obtain ⟨c, c_row, tenant, rfl⟩ := compartments_found_iff.mp (not_ne_iff.mp counted) key listed
      have there : c.id ∈ (db.compartmentsIn TENANT keys).map Compartment.id :=
        List.mem_map_of_mem (Database.mem_compartmentsIn.mpr ⟨c_row, tenant, listed⟩)
      rw [nothing] at there
      cases there
    · rintro rfl
      simp [Tables.compartmentsIn]

/-- The rows written are those that the call describes. -/
theorem mem_memberships_iff (userId : String) {memberships : List MembershipInput} {rows : List (String × DeptRank)}
    (ok : rowsOf memberships (db.departmentsIn TENANT (memberships.map MembershipInput.slug)) =
      .ok rows) (m : UserDepartment) :
    m ∈ rows.map (fun row => ⟨userId, row.1, row.2⟩) ↔
      AssignsMembership db.toTables userId memberships m := by
  obtain ⟨members, -⟩ := rowsOf_spec ok
  constructor
  · intro member
    obtain ⟨row, listed, rfl⟩ := List.mem_map.mp member
    exact ⟨rfl, (members row).mp listed⟩
  · rintro ⟨rfl, described⟩
    exact List.mem_map.mpr ⟨(m.departmentId, m.rank), (members _).mpr described, rfl⟩

theorem mem_compartments_iff (userId : String) {keys : List String} {ids : List String}
    (ok : idsOf keys (db.compartmentsIn TENANT keys) = .ok ids) (c : UserCompartment) :
    c ∈ ids.map (fun id => ⟨userId, id⟩) ↔ AssignsCompartment db.toTables userId keys c := by
  obtain ⟨members, -⟩ := idsOf_spec ok
  constructor
  · intro member
    obtain ⟨id, listed, rfl⟩ := List.mem_map.mp member
    exact ⟨rfl, (members id).mp listed⟩
  · rintro ⟨rfl, described⟩
    exact List.mem_map.mpr ⟨c.compartmentId, (members _).mpr described, rfl⟩

/-! ## Alone -/

section

variable {read : Service σ (List α)} {key : ρ → κ} {owner : ρ → String} {row : α → ρ}
  {update : List α → Database → Except PrismaError Database} {w : World σ}

/-- What the transaction is to do to the database. -/
structure Replaces (userId : String) (key : ρ → κ) (owner : ρ → String) (row : α → ρ)
    (update : Database → Except PrismaError Database) (select : Tables → List ρ) (created : List α)
    (db : Database) : Prop where
  distinct : ((created.map row).map key).Nodup → ∃ db', update db = .ok db' ∧
    select db'.toTables =
      ((select db.toTables).filter fun r => owner r ≠ userId) ++ created.map row
  duplicate : ¬ ((created.map row).map key).Nodup → update db = .error .uniqueConstraint

/-- Alone, the statements do what the write of the whole transaction does. -/
theorem replaceRows_alone (select : Tables → List ρ) (i : Bool) (quiet : Quiet read)
    (owned : ∀ x, owner (row x) = userId) (keyed : ∀ r r', key r = key r' → owner r = owner r')
    (replaces : ∀ created, (read.run w).1 = .ok created →
      Replaces userId key owner row (update created) select created w.db) :
    ∃ s, (replaceRows S userId key owner row i read).run (.start w (select w.db.toTables)) =
        (((read >>= fun created => commit (update created) >>= fun _ => revokeUser S userId).run w).1, s) ∧
      s.table.live = select ((read >>= fun created =>
        commit (update created) >>= fun _ => revokeUser S userId).run w).2.db.toTables ∧
      s.world.sessions = ((read >>= fun created =>
        commit (update created) >>= fun _ => revokeUser S userId).run w).2.sessions := by
  have unchanged := quiet.run w
  rcases reading : read.run w with ⟨r, w'⟩
  rw [reading] at unchanged
  obtain rfl : w' = w := unchanged
  rw [replaceRows]
  have first : (Clustered.outside read).run (Clustered.start w' (select w'.db.toTables)) =
      (r, Clustered.start w' (select w'.db.toTables)) := by
    rw [Clustered.run_outside]
    simp only [Clustered.start, reading]
    rfl
  cases r with
  | error e =>
      rw [Prog.run_bind_error first, Prog.run_bind_error reading]
      exact ⟨_, rfl, Table.live_ofRows, rfl⟩
  | ok created =>
      have replaces := replaces created (by rw [reading])
      have apart : ∀ o ∈ select w'.db.toTables, ∀ r ∈ created.map row, key o = key r →
          decide (owner o = userId) = true := by
        intro o _ r listed same
        obtain ⟨x, -, rfl⟩ := List.mem_map.mp listed
        exact decide_eq_true ((keyed o (row x) same).trans (owned x))
      obtain ⟨t, replaced, live⟩ := Table.replaceAll_ofRows (i := i)
        (ServiceError.prisma .uniqueConstraint) apart
      have second : (Clustered.inside (Table.replaceAll key (.prisma .uniqueConstraint) i
          (fun r => owner r = userId) (created.map row))).run
            (Clustered.start w' (select w'.db.toTables)) =
          (if ((created.map row).map key).Nodup then .ok () else .error (.prisma .uniqueConstraint),
            (⟨w', t⟩ : Clustered σ ρ)) := by
        rw [Clustered.run_inside]
        simp only [Clustered.start, replaced]
        rfl
      rw [Prog.run_bind_ok first, Prog.run_bind_ok reading]
      by_cases nodup : ((created.map row).map key).Nodup
      · obtain ⟨db', written, rows⟩ := replaces.distinct nodup
        rw [if_pos nodup] at second live
        rw [Prog.run_bind_ok second, Prog.run_bind_ok (run_commit_ok _ written), run_revokeUser,
          Clustered.run_outside]
        refine ⟨_, rfl, ?_, rfl⟩
        rw [rows]
        simpa [Clustered.setWorld] using live
      · have failed := replaces.duplicate nodup
        rw [if_neg nodup] at second live
        rw [Prog.run_bind_error second, Prog.run_bind_error (run_commit_error _ failed)]
        exact ⟨_, rfl, live, rfl⟩

end

section

variable {β : Type} {find : Tables → β} {rows : β → Except ServiceError (List α)}
  {accessToken : String}

theorem quiet_require (env : Env) (accessToken permission : String) :
    Quiet (require env accessToken permission : Service σ String) := by
  refine .bind (quiet_authenticate env accessToken) fun verified => ?_
  refine .bind (quiet_can verified.sub permission none) fun allowed => ?_
  cases allowed with
  | false => exact .fail _
  | true => exact .pure _

/-- On one database the reads answer what it holds, and only if the user is there. -/
theorem readRows_follows (db : Database) {Φ : Type} {T : Φ → World σ → World σ → Φ → Prop} {φ : Φ}
    (stays : ∀ w, w.db = db → T φ w w φ) :
    (readRows env accessToken userId find rows).Follows (fun w => w.db = db) T
      (fun r φ' => φ' = φ ∧ ∀ created, r = .ok created →
        userId ∈ db.userIds ∧ rows (find db.toTables) = .ok created) φ := by
  have failed : ∀ (e : ServiceError), φ = φ ∧ ∀ created,
      (.error e : Except ServiceError (List α)) = .ok created →
        userId ∈ db.userIds ∧ rows (find db.toTables) = .ok created := by
    intro e
    refine ⟨rfl, ?_⟩
    intro created impossible
    cases impossible
  refine .bind ((quiet_require env accessToken ORG_MANAGE).follows stays) ?_ ?_
  · intro caller φ' same
    obtain rfl := same.symm
    refine .bind (D := fun r φ' => φ' = φ ∧ ∃ found, r = .ok found ∧ found = db.userById userId)
      (.call ?_) ?_ ?_
    · rintro w rfl
      exact ⟨φ, stays w rfl, rfl, _, rfl, rfl⟩
    · rintro found φ' ⟨same, _, answer, here⟩
      obtain rfl := same.symm
      cases answer
      cases found with
      | none => exact .fail (failed _)
      | some user =>
          obtain ⟨row, rfl⟩ := Database.userById_eq_some.mp here.symm
          refine .bind (D := fun r φ' => φ' = φ ∧ r = .ok (find db.toTables)) (.call ?_) ?_ ?_
          · rintro w rfl
            exact ⟨φ, stays w rfl, rfl, rfl⟩
          · rintro found φ' ⟨same, answer⟩
            obtain rfl := same.symm
            cases answer
            refine .ofExcept ⟨rfl, ?_⟩
            intro created answer
            exact ⟨List.mem_map_of_mem row, answer⟩
          · rintro e _ ⟨-, impossible⟩
            cases impossible
    · rintro e _ ⟨-, _, impossible, -⟩
      cases impossible
  · intro e φ' same
    obtain rfl := same.symm
    exact failed e

theorem run_readRows_ok {w : World σ} {created : List α}
    (ok : ((readRows env accessToken userId find rows).run w).1 = .ok created) :
    userId ∈ w.db.userIds ∧ rows (find w.db.toTables) = .ok created := by
  obtain ⟨_, -, answer⟩ := (readRows_follows w.db (T := fun (_ : Unit) w w' _ => w' = w) (φ := ())
    fun _ _ => rfl).run (fun _ _ _ _ here moved => moved ▸ here) rfl
  exact answer created ok

theorem quiet_readRows : Quiet (readRows env accessToken userId find rows : Service σ (List α)) := by
  refine .bind (quiet_require env accessToken ORG_MANAGE) fun _ => .bind (.query _) fun found => ?_
  cases found with
  | none => exact .fail _
  | some user => exact .bind (.query _) fun _ => .ofExcept _

end

theorem setUserMembershipsTx_alone (S : SessionStore σ) (env : Env) (accessToken userId : String)
    (i : Bool) (memberships : List MembershipInput) (w : World σ) :
    ∃ s, (setUserMembershipsTx S env accessToken userId i memberships).run
        (.start w w.db.userDepartments) =
          (((setUserMemberships S env accessToken userId memberships).run w).1, s) ∧
      s.table.live =
        ((setUserMemberships S env accessToken userId memberships).run w).2.db.userDepartments ∧
      s.world.sessions =
        ((setUserMemberships S env accessToken userId memberships).run w).2.sessions := by
  rw [setUserMemberships_eq]
  refine replaceRows_alone Tables.userDepartments i quiet_readRows (fun _ => rfl)
    (fun _ _ same => congrArg Prod.fst same) ?_
  intro created ok
  obtain ⟨user, found⟩ := run_readRows_ok ok
  have known : ∀ row ∈ created, row.1 ∈ w.db.departmentIds := by
    intro row listed
    obtain ⟨-, -, -, d, d_row, -, -, same⟩ := ((rowsOf_spec found).1 row).mp listed
    exact same ▸ List.mem_map_of_mem d_row
  have keys : ((created.map fun row => (⟨userId, row.1, row.2⟩ : UserDepartment)).map
      fun m => (m.userId, m.departmentId)).Nodup ↔ (created.map Prod.fst).Nodup := by
    have pairs : (created.map fun row => (⟨userId, row.1, row.2⟩ : UserDepartment)).map
        (fun m => (m.userId, m.departmentId)) = (created.map Prod.fst).map (Prod.mk userId) := by
      simp
    rw [pairs]
    exact List.nodup_map_iff (Prod.mk_right_injective userId)
  constructor
  · intro nodup
    obtain ⟨db', written⟩ := Database.setUserDepartments_commits (keys.mp nodup) user known
    exact ⟨db', written, by rw [Database.setUserDepartments_ok written]⟩
  · intro repeats
    exact Database.setUserDepartments_duplicate fun nodup => repeats (keys.mpr nodup)

theorem setUserCompartmentsTx_alone (S : SessionStore σ) (env : Env) (accessToken userId : String)
    (i : Bool) (keys : List String) (w : World σ) :
    ∃ s, (setUserCompartmentsTx S env accessToken userId i keys).run
        (.start w w.db.userCompartments) =
          (((setUserCompartments S env accessToken userId keys).run w).1, s) ∧
      s.table.live =
        ((setUserCompartments S env accessToken userId keys).run w).2.db.userCompartments ∧
      s.world.sessions = ((setUserCompartments S env accessToken userId keys).run w).2.sessions := by
  rw [setUserCompartments_eq]
  refine replaceRows_alone Tables.userCompartments i quiet_readRows (fun _ => rfl)
    (fun _ _ same => congrArg Prod.fst same) ?_
  intro created ok
  obtain ⟨user, found⟩ := run_readRows_ok ok
  obtain ⟨members, nodup, -⟩ := idsOf_spec found
  have known : ∀ id ∈ created, id ∈ w.db.compartmentIds := by
    intro id listed
    obtain ⟨comp, comp_row, -, -, same⟩ := (members id).mp listed
    exact same ▸ List.mem_map_of_mem comp_row
  constructor
  · intro _
    obtain ⟨db', written⟩ := Database.setUserCompartments_commits nodup user known
    exact ⟨db', written, by rw [Database.setUserCompartments_ok written]⟩
  · intro repeats
    refine absurd ?_ repeats
    have pairs : (created.map fun id => (⟨userId, id⟩ : UserCompartment)).map
        (fun c => (c.userId, c.compartmentId)) = created.map (Prod.mk userId) := by
      simp
    rw [pairs]
    exact nodup.map (Prod.mk_right_injective userId)

end

/-! ## Two at the same time -/

section

variable {σ α ρ κ : Type} [DecidableEq κ] {S : SessionStore σ} {env : Env}

/-- The transaction of one call began after the other's had committed. -/
def StartsAfter (trace : List (Made Bool (Clustered σ ρ))) (k : Bool) : Prop :=
  ∃ e ∈ trace, e.who = k ∧ e.met.table.status k = .idle ∧ e.left.table.status k = .running ∧
    e.met.table.status (!k) = .committed

/-- Between two calls only time passes. -/
def ClockMoves (S : SessionStore σ) (s s' : Clustered σ ρ) : Prop :=
  ∃ world, TimePasses S s.world world ∧ s' = s.setWorld world

/-- A call waits while its statement is blocked. -/
def Unblocked (key : ρ → κ) (i : Bool) (s : Clustered σ ρ) : Prop := s.table.blocked key i = false

instance (key : ρ → κ) (i : Bool) (s : Clustered σ ρ) : Decidable (Unblocked key i s) :=
  inferInstanceAs (Decidable (_ = _))

/-- A step of a call: of its transaction, or of what comes before and after it. -/
inductive CallMove (key : ρ → κ) (p : ρ → Bool) (i : Bool) (rows : List ρ) :
    TxPhase → Clustered σ ρ → Clustered σ ρ → TxPhase → Prop
  | outside {s : Clustered σ ρ} {world : World σ} (φ : TxPhase) (db : world.db = s.world.db) :
      CallMove key p i rows φ s (s.setWorld world) φ
  | inside {s : Clustered σ ρ} {table : Table Bool ρ} {φ φ' : TxPhase}
      (moved : TxMove key p i rows φ s.table table φ') :
      CallMove key p i rows φ s (s.setTable table) φ'

/-- The rows to write, where the reads answer some. -/
def rowsFrom (row : α → ρ) : Except ServiceError (List α) → List ρ
  | .ok created => created.map row
  | .error _ => []

/-- A call that returned has read what to write, and has committed. -/
def Committed (given : Except ServiceError (List α)) (r : Except ServiceError Unit) (φ : TxPhase) :
    Prop :=
  r = .ok () → (∃ created, given = .ok created) ∧ ∃ l, φ = .committed l

variable {key : ρ → κ} {owner : ρ → String} {row : α → ρ} {userId : String} {db : Database}

/-- A call whose reads answer one list goes through the phases of its transaction. -/
theorem replaceRows_follows {i : Bool} {read : Service σ (List α)}
    {given : Except ServiceError (List α)}
    (reads : read.Follows (fun w => w.db = db) (fun (φ : TxPhase) w w' φ' => w' = w ∧ φ' = φ)
      (fun r φ' => φ' = .before ∧ ∀ created, r = .ok created → given = .ok created) .before) :
    (replaceRows S userId key owner row i read).Follows (fun s => s.world.db = db)
      (CallMove key (fun r => owner r = userId) i (rowsFrom row given)) (Committed given) .before := by
  refine .bind (Prog.Follows.zoom reads (fun s here => here) ?_) ?_ ?_
  · rintro φ s w _ - ⟨rfl, rfl⟩
    exact .outside _ rfl
  · rintro created _ ⟨rfl, same⟩
    have same := same created rfl
    subst same
    refine .bind (Prog.Follows.zoom (replaceAll_follows key (fun r => decide (owner r = userId))
      (ServiceError.prisma .uniqueConstraint) i (created.map row)) (fun _ _ => trivial) ?_) ?_ ?_
    · rintro φ s t φ' - moved
      exact .inside moved
    · rintro _ φ (⟨-, l, rfl⟩ | ⟨e, impossible, -⟩)
      · refine Prog.Follows.zoom (T := fun φ w w' φ' => w'.db = w.db ∧ φ' = φ)
          (I := fun _ => True) (.call ?_) (fun _ _ => trivial) ?_
        · intro w _
          exact ⟨_, ⟨rfl, rfl⟩, fun _ => ⟨⟨created, rfl⟩, l, rfl⟩⟩
        · rintro φ s w _ - ⟨same, rfl⟩
          exact .outside _ same
      · cases impossible
    · rintro e φ - impossible
      cases impossible
  · rintro e φ - impossible
    cases impossible

/-- Two replacements, and what the trace says of them, as long as neither has failed. -/
structure Underway (key : ρ → κ) (p : ρ → Bool) (rows : Bool → List ρ) (φ : Bool → TxPhase)
    (table : Table Bool ρ) (trace : List (Made Bool (Clustered σ ρ))) : Prop where
  replacing : Replacing key p rows φ table
  late : ∀ k, (φ k).late = true ↔ StartsAfter trace k

theorem startsAfter_cons {e : Made Bool (Clustered σ ρ)} {trace : List (Made Bool (Clustered σ ρ))}
    {k : Bool} : StartsAfter (e :: trace) k ↔ (e.who = k ∧ e.met.table.status k = .idle ∧
      e.left.table.status k = .running ∧ e.met.table.status (!k) = .committed) ∨
        StartsAfter trace k := List.exists_mem_cons_iff _ _ _

variable {p : ρ → Bool} {rows : Bool → List ρ} {φ : Bool → TxPhase}
  {s s' : Clustered σ ρ} {trace : List (Made Bool (Clustered σ ρ))} {i : Bool} {φ' : TxPhase}

theorem Underway.call (underway : Underway key p rows φ s.table trace)
    (ours : ∀ k, ∀ r ∈ rows k, p r = true) (free : Unblocked key i s)
    (moved : CallMove key p i (rows i) (φ i) s s' φ') (ok : φ' ≠ .failed) :
    Underway key p rows (Function.update φ i φ') s'.table (⟨i, s, s'⟩ :: trace) := by
  generalize here : φ i = ψ at moved
  cases moved with
  | outside _ same =>
      rw [← here, Function.update_eq_self]
      refine ⟨underway.replacing, ?_⟩
      intro k
      rw [startsAfter_cons, underway.late]
      refine (or_iff_right ?_).symm
      rintro ⟨-, idle, running, -⟩
      exact absurd (idle.symm.trans running) (by decide)
  | inside moved =>
      rw [← here] at moved
      refine ⟨underway.replacing.step ours moved free ok, ?_⟩
      intro k
      rw [startsAfter_cons]
      rcases self_or_other i k with rfl | rfl
      · rw [Function.update_self, underway.replacing.late_iff moved ok, underway.late, or_comm]
        simp [Clustered.setTable]
      · rw [Function.update_of_ne (by simp), underway.late]
        refine (or_iff_right ?_).symm
        rintro ⟨mine, -⟩
        simp at mine

/-- Where two replacements stand: one of them has failed, or both are under way. -/
structure Standing (key : ρ → κ) (p : ρ → Bool) (rows : Bool → List ρ) (db : Database)
    (φ : Bool → TxPhase) (s : Clustered σ ρ) (trace : List (Made Bool (Clustered σ ρ))) : Prop where
  db : s.world.db = db
  underway : (∀ k, φ k ≠ .failed) → Underway key p rows φ s.table trace

theorem Standing.call (standing : Standing key p rows db φ s trace)
    (ours : ∀ k, ∀ r ∈ rows k, p r = true) (free : Unblocked key i s)
    (moved : CallMove key p i (rows i) (φ i) s s' φ') :
    Standing key p rows db (Function.update φ i φ') s' (⟨i, s, s'⟩ :: trace) where
  db := by
    cases moved with
    | outside _ same => exact same.trans standing.db
    | inside => exact standing.db
  underway sound := by
    have ok : φ' ≠ .failed := by simpa using sound i
    refine (standing.underway ?_).call ours free moved ok
    intro k
    rcases self_or_other i k with rfl | rfl
    · -- no step leads out of a failure
      intro failed
      rw [failed] at moved
      cases moved with
      | outside => exact ok rfl
      | inside moved => cases moved
    · simpa [Function.update_of_ne] using sound (!i)

/-- Two calls that have both succeeded leave the rows of one of them exactly where one
began after the other had committed, or had no rows to write. -/
theorem replaceRows_iff (owner : ρ → String) (row : α → ρ) {read : Bool → Service σ (List α)}
    {given : Bool → Except ServiceError (List α)} {w₀ : World σ} {old : List ρ}
    (owned : ∀ x, owner (row x) = userId)
    (reads : ∀ k, (read k).Follows (fun w => w.db = w₀.db)
      (fun (φ : TxPhase) w w' φ' => w' = w ∧ φ' = φ)
      (fun r φ' => φ' = .before ∧ ∀ created, r = .ok created → given k = .ok created) .before)
    {P : Pool Bool (Clustered σ ρ) ServiceError Unit}
    (run : Pool.Run (ClockMoves S) (Unblocked key) (Pool.start (fun k =>
      replaceRows S userId key owner row k (read k)) (.start w₀ old)) P)
    (succeeded : ∀ k, P.Ended k (.ok ())) :
    ∃ created : Bool → List α, (∀ k, given k = .ok (created k)) ∧
      ((∃ k, ∀ r, owner r = userId → (r ∈ P.state.table.live ↔ r ∈ (created k).map row)) ↔
        (∃ k, StartsAfter P.trace k) ∨ ∃ k, created k = []) := by
  have ours : ∀ k, ∀ r ∈ rowsFrom row (given k), decide (owner r = userId) = true := by
    intro k r listed
    cases found : given k with
    | error e =>
        rw [found] at listed
        cases listed
    | ok created =>
        rw [found] at listed
        obtain ⟨x, -, rfl⟩ := List.mem_map.mp listed
        exact decide_eq_true (owned x)
  have reached := Pool.Run.invariant (Φ := TxPhase) (I := fun _ s => s.world.db = w₀.db)
    (T := fun k => CallMove key (fun r => owner r = userId) k (rowsFrom row (given k)))
    (D := fun k => Committed (given k))
    (J := fun φ s trace => Standing key (fun r => decide (owner r = userId))
      (fun k => rowsFrom row (given k)) w₀.db φ s trace)
    (fun _ _ _ _ standing _ => standing.db) ?_ ?_ (fun _ => .before) ?_ ?_ run
  · obtain ⟨φ, standing, follows⟩ := reached
    have ended : ∀ k, (∃ created, given k = .ok created) ∧ ∃ l, φ k = .committed l :=
      fun k => (follows k).ends (succeeded k) rfl
    have underway := standing.underway fun k failed => by
      obtain ⟨-, l, done⟩ := ended k
      rw [failed] at done
      cases done
    choose created found using fun k => (ended k).1
    have outcome := underway.replacing.replaced_iff (fun k => (ended k).2) ours
    refine ⟨created, found, ?_⟩
    simpa only [decide_eq_true_eq, underway.late, found, rowsFrom, List.map_eq_nil_iff] using outcome
  · intro φ s trace i s' φ' standing free moved
    exact standing.call ours free moved
  · rintro φ s trace _ standing ⟨_, ⟨ms, rfl⟩, rfl⟩
    exact ⟨standing.db, standing.underway⟩
  · intro k
    exact replaceRows_follows (reads k)
  · refine ⟨rfl, fun _ => ⟨.start old, ?_⟩⟩
    intro k
    constructor
    · intro impossible
      cases impossible
    · rintro ⟨e, impossible, -⟩
      cases impossible

end

/-! ## The two operations -/

section

variable {σ α : Type} {S : SessionStore σ} {env : Env}

/-- Two calls of `setUserMemberships`. -/
def settingMemberships (S : SessionStore σ) (env : Env) (tokens : Bool → String) (userId : String)
    (memberships : Bool → List MembershipInput) (k : Bool) :
    Prog (Clustered σ UserDepartment) ServiceError Unit :=
  setUserMembershipsTx S env (tokens k) userId k (memberships k)

/-- Two calls of `setUserCompartments`. -/
def settingCompartments (S : SessionStore σ) (env : Env) (tokens : Bool → String) (userId : String)
    (keys : Bool → List String) (k : Bool) : Prog (Clustered σ UserCompartment) ServiceError Unit :=
  setUserCompartmentsTx S env (tokens k) userId k (keys k)

variable {w₀ : World σ} {tokens : Bool → String} {userId : String}

theorem readRows_given {β : Type} {find : Tables → β} {rows : β → Except ServiceError (List α)}
    (db : Database) (accessToken userId : String) :
    (readRows env accessToken userId find rows : Service σ (List α)).Follows (fun w => w.db = db)
      (fun (φ : TxPhase) w w' φ' => w' = w ∧ φ' = φ)
      (fun r φ' => φ' = .before ∧ ∀ created, r = .ok created →
        rows (find db.toTables) = .ok created) .before := by
  refine (readRows_follows db fun w _ => ⟨rfl, rfl⟩).mono ?_
  rintro r φ' ⟨here, answer⟩
  exact ⟨here, fun created ok => (answer created ok).2⟩

theorem memberships_iff {memberships : Bool → List MembershipInput}
    {P : Pool Bool (Clustered σ UserDepartment) ServiceError Unit}
    (run : Pool.Run (ClockMoves S) (Unblocked fun m : UserDepartment => (m.userId, m.departmentId))
      (Pool.start (settingMemberships S env tokens userId memberships)
        (.start w₀ w₀.db.userDepartments)) P)
    (succeeded : ∀ k, P.Ended k (.ok ())) :
    (∃ k, ∀ m, m.userId = userId → (m ∈ P.state.table.live ↔
        AssignsMembership w₀.db.toTables userId (memberships k) m)) ↔
      (∃ k, StartsAfter P.trace k) ∨ ∃ k, memberships k = [] := by
  obtain ⟨created, given, outcome⟩ := replaceRows_iff UserDepartment.userId
    (fun row : String × DeptRank => ⟨userId, row.1, row.2⟩) (fun _ => rfl)
    (fun k => readRows_given w₀.db (tokens k) userId) run succeeded
  have members := fun k => mem_memberships_iff userId (given k)
  have empty := fun k => (rowsOf_spec (given k)).2
  simpa only [members, empty] using outcome

theorem compartments_iff {keys : Bool → List String}
    {P : Pool Bool (Clustered σ UserCompartment) ServiceError Unit}
    (run : Pool.Run (ClockMoves S) (Unblocked fun c : UserCompartment => (c.userId, c.compartmentId))
      (Pool.start (settingCompartments S env tokens userId keys)
        (.start w₀ w₀.db.userCompartments)) P)
    (succeeded : ∀ k, P.Ended k (.ok ())) :
    (∃ k, ∀ c, c.userId = userId → (c ∈ P.state.table.live ↔
        AssignsCompartment w₀.db.toTables userId (keys k) c)) ↔
      (∃ k, StartsAfter P.trace k) ∨ ∃ k, keys k = [] := by
  obtain ⟨created, given, outcome⟩ := replaceRows_iff UserCompartment.userId
    (fun id : String => ⟨userId, id⟩) (fun _ => rfl)
    (fun k => readRows_given w₀.db (tokens k) userId) run succeeded
  have members := fun k => mem_compartments_iff userId (given k)
  have empty := fun k => (idsOf_spec (given k)).2.2
  simpa only [members, empty] using outcome

/-- Two calls of `setUserMemberships` on one user, both of which succeed, leave exactly
the memberships of one of them where one's transaction began after the other's had
committed or one sets no memberships, and only there; so do two calls of
`setUserCompartments`. -/
theorem replacement_iff {memberships : Bool → List MembershipInput} {keys : Bool → List String}
    {P : Pool Bool (Clustered σ UserDepartment) ServiceError Unit}
    {Q : Pool Bool (Clustered σ UserCompartment) ServiceError Unit}
    (runP : Pool.Run (ClockMoves S) (Unblocked fun m : UserDepartment => (m.userId, m.departmentId))
      (Pool.start (settingMemberships S env tokens userId memberships)
        (.start w₀ w₀.db.userDepartments)) P)
    (succeededP : ∀ k, P.Ended k (.ok ()))
    (runQ : Pool.Run (ClockMoves S) (Unblocked fun c : UserCompartment => (c.userId, c.compartmentId))
      (Pool.start (settingCompartments S env tokens userId keys)
        (.start w₀ w₀.db.userCompartments)) Q)
    (succeededQ : ∀ k, Q.Ended k (.ok ())) :
    ((∃ k, ∀ m, m.userId = userId → (m ∈ P.state.table.live ↔
        AssignsMembership w₀.db.toTables userId (memberships k) m)) ↔
      (∃ k, StartsAfter P.trace k) ∨ ∃ k, memberships k = []) ∧
    ((∃ k, ∀ c, c.userId = userId → (c ∈ Q.state.table.live ↔
        AssignsCompartment w₀.db.toTables userId (keys k) c)) ↔
      (∃ k, StartsAfter Q.trace k) ∨ ∃ k, keys k = []) :=
  ⟨memberships_iff runP succeededP, compartments_iff runQ succeededQ⟩

end

/-! ## Two administrators -/

def sampleMemberships : Bool → List MembershipInput
  | false => [⟨"hr", none⟩]
  | true => [⟨"it", some .lead⟩]

def sampleKeys : Bool → List String
  | false => ["M&A"]
  | true => ["PII"]

/-- The calls at the same time, along a schedule. -/
def membershipsAlong (schedule : List Bool) :
    Pool Bool (Clustered InMemorySessions UserDepartment) ServiceError Unit :=
  Pool.play (Unblocked fun m : UserDepartment => (m.userId, m.departmentId))
    (Pool.start (settingMemberships (inMemorySessionStore sampleSha256 .default) sampleEnv
      (fun _ => "admin@acme.test") "finance@acme.test" sampleMemberships)
      (.start (World.fresh .empty 0 staffed) staffed.userDepartments)) schedule

def compartmentsAlong (schedule : List Bool) :
    Pool Bool (Clustered InMemorySessions UserCompartment) ServiceError Unit :=
  Pool.play (Unblocked fun c : UserCompartment => (c.userId, c.compartmentId))
    (Pool.start (settingCompartments (inMemorySessionStore sampleSha256 .default) sampleEnv
      (fun _ => "admin@acme.test") "finance@acme.test" sampleKeys)
      (.start (World.fresh .empty 0 staffed) staffed.userCompartments)) schedule

/-- One call after the other. -/
def inTurn : List Bool := List.replicate 20 false ++ List.replicate 20 true

/-- Call by call. -/
def alternating : List Bool := (List.replicate 40 [false, true]).flatten

/-- One after the other. -/
theorem replacement_iff_inTurn :
    ((∃ k, ∀ m, m.userId = "finance@acme.test" → (m ∈ (membershipsAlong inTurn).state.table.live ↔
        AssignsMembership staffed.toTables "finance@acme.test" (sampleMemberships k) m)) ↔
      (∃ k, StartsAfter (membershipsAlong inTurn).trace k) ∨ ∃ k, sampleMemberships k = []) ∧
    ((∃ k, ∀ c, c.userId = "finance@acme.test" → (c ∈ (compartmentsAlong inTurn).state.table.live ↔
        AssignsCompartment staffed.toTables "finance@acme.test" (sampleKeys k) c)) ↔
      (∃ k, StartsAfter (compartmentsAlong inTurn).trace k) ∨ ∃ k, sampleKeys k = []) := by
  refine replacement_iff (Pool.run_play _ _) ?_ (Pool.run_play _ _) ?_
  · intro k
    have ended : ∀ k, (((membershipsAlong inTurn).procs k).ended.bind Except.toOption).isSome = true := by
      decide +kernel
    obtain ⟨_, ended⟩ := Pool.exists_ended_ok (ended k)
    exact ended
  · intro k
    have ended : ∀ k, (((compartmentsAlong inTurn).procs k).ended.bind Except.toOption).isSome = true := by
      decide +kernel
    obtain ⟨_, ended⟩ := Pool.exists_ended_ok (ended k)
    exact ended

/-- Both transactions begin before either commits: the user ends up with the memberships
of both calls. -/
theorem not_always_replaced : ¬ ∀ {σ : Type} (S : SessionStore σ) (env : Env)
    (tokens : Bool → String) (userId : String) (memberships : Bool → List MembershipInput)
    (w₀ : World σ) (P : Pool Bool (Clustered σ UserDepartment) ServiceError Unit),
    Pool.Run (ClockMoves S) (Unblocked fun m : UserDepartment => (m.userId, m.departmentId))
      (Pool.start (settingMemberships S env tokens userId memberships)
        (.start w₀ w₀.db.userDepartments)) P →
    (∀ k, P.Ended k (.ok ())) →
    ∃ k, ∀ m, m.userId = userId → (m ∈ P.state.table.live ↔
      AssignsMembership w₀.db.toTables userId (memberships k) m) := by
  intro always
  have ended : ∀ k,
      (((membershipsAlong alternating).procs k).ended.bind Except.toOption).isSome = true := by
    decide +kernel
  have succeeded : ∀ k, (membershipsAlong alternating).Ended k (.ok ()) := by
    intro k
    obtain ⟨_, ended⟩ := Pool.exists_ended_ok (ended k)
    exact ended
  obtain ⟨k, alone⟩ := always (inMemorySessionStore sampleSha256 .default) sampleEnv
    (fun _ => "admin@acme.test") "finance@acme.test" sampleMemberships
    (World.fresh .empty 0 staffed) (membershipsAlong alternating) (Pool.run_play _ _) succeeded
  cases k with
  | false =>
      have there : (⟨"finance@acme.test", "it", .lead⟩ : UserDepartment) ∈
          (membershipsAlong alternating).state.table.live := by decide +kernel
      obtain ⟨x, listed, rank, -⟩ := ((alone _ rfl).mp there).listed
      rw [List.mem_singleton.mp listed] at rank
      cases rank
  | true =>
      have there : (⟨"finance@acme.test", "hr", .ic⟩ : UserDepartment) ∈
          (membershipsAlong alternating).state.table.live := by decide +kernel
      obtain ⟨x, listed, rank, -⟩ := ((alone _ rfl).mp there).listed
      rw [List.mem_singleton.mp listed] at rank
      cases rank

end Arac.Org
