/-
# Arac.Org.Saving -- departments and compartments, saved together

`setUserOrg` of the web app sends the replacement of a user's departments and that of the
compartments at the same time.  Each reads tables that neither writes, then writes its own
table and revokes the user's sessions (`SaveCall`), so the calls of one commute with those
of the other.

`saved`: in whatever order the calls come, and whatever time passes as long as the token stays
valid, each request answers what it would answer alone, stores its own list or leaves its own
table, and both have the effect of one after the other.
-/
import Arac.Org.Replacement
import Arac.Theory.Commuting

namespace Arac.Org

open Arac.Theory Arac.Sessions Arac.Db Arac.Service Arac.Rbac

set_option autoImplicit false

/-! ## Writes that depend on the tables -/

theorem eq_of_tables {db db' : Database} (same : db.toTables = db'.toTables) : db = db' := by
  cases db
  cases db'
  cases same
  rfl

/-- The update is refused on some tables and changes the others. -/
def WritesTables (update : Database → Except PrismaError Database)
    (refusal : Tables → Option PrismaError) (change : Tables → Tables) : Prop :=
  ∀ db : Database, match refusal db.toTables with
    | none => ∃ db', update db = .ok db' ∧ db'.toTables = change db.toTables
    | some e => update db = .error e

/-- What a replacement is refused for: rows under one key, or references to nothing. -/
def refusalOf (distinct refers : Prop) [Decidable distinct] [Decidable refers] : Option PrismaError :=
  if distinct then if refers then none else some .foreignKey else some .uniqueConstraint

def departmentsRefusal (userId : String) (rows : List (String × DeptRank)) (t : Tables) :
    Option PrismaError :=
  refusalOf (rows.map Prod.fst).Nodup
    ((rows ≠ [] → userId ∈ t.userIds) ∧ ∀ row ∈ rows, row.1 ∈ t.departmentIds)

def compartmentsRefusal (userId : String) (ids : List String) (t : Tables) : Option PrismaError :=
  refusalOf ids.Nodup ((ids ≠ [] → userId ∈ t.userIds) ∧ ∀ id ∈ ids, id ∈ t.compartmentIds)

def replaceDepartments (userId : String) (rows : List (String × DeptRank)) (t : Tables) : Tables :=
  { t with
    userDepartments := (t.userDepartments.filter fun m => m.userId ≠ userId) ++
      rows.map fun row => { userId, departmentId := row.1, rank := row.2 } }

def replaceCompartments (userId : String) (ids : List String) (t : Tables) : Tables :=
  { t with
    userCompartments := (t.userCompartments.filter fun c => c.userId ≠ userId) ++
      ids.map fun compartmentId => { userId, compartmentId } }

theorem setUserDepartments_writes (userId : String) (rows : List (String × DeptRank)) :
    WritesTables (·.setUserDepartments userId rows) (departmentsRefusal userId rows)
      (replaceDepartments userId rows) := by
  intro db
  unfold departmentsRefusal refusalOf
  by_cases distinct : (rows.map Prod.fst).Nodup
  · by_cases refers : (rows ≠ [] → userId ∈ db.userIds) ∧ ∀ row ∈ rows, row.1 ∈ db.departmentIds
    · rw [if_pos distinct, if_pos refers]
      have commits : ∃ db', db.setUserDepartments userId rows = .ok db' :=
        ⟨_, by rw [Database.setUserDepartments, dif_pos distinct, dif_pos refers]⟩
      obtain ⟨db', ok⟩ := commits
      exact ⟨db', ok, Database.setUserDepartments_ok ok⟩
    · rw [if_pos distinct, if_neg refers]
      show db.setUserDepartments userId rows = _
      rw [Database.setUserDepartments, dif_pos distinct, dif_neg refers]
  · rw [if_neg distinct]
    exact Database.setUserDepartments_duplicate distinct

theorem setUserCompartments_writes (userId : String) (ids : List String) :
    WritesTables (·.setUserCompartments userId ids) (compartmentsRefusal userId ids)
      (replaceCompartments userId ids) := by
  intro db
  unfold compartmentsRefusal refusalOf
  by_cases distinct : ids.Nodup
  · by_cases refers : (ids ≠ [] → userId ∈ db.userIds) ∧ ∀ id ∈ ids, id ∈ db.compartmentIds
    · rw [if_pos distinct, if_pos refers]
      have commits : ∃ db', db.setUserCompartments userId ids = .ok db' :=
        ⟨_, by rw [Database.setUserCompartments, dif_pos distinct, dif_pos refers]⟩
      obtain ⟨db', ok⟩ := commits
      exact ⟨db', ok, Database.setUserCompartments_ok ok⟩
    · rw [if_pos distinct, if_neg refers]
      show db.setUserCompartments userId ids = _
      rw [Database.setUserCompartments, dif_pos distinct, dif_neg refers]
  · rw [if_neg distinct]
    show db.setUserCompartments userId ids = _
    rw [Database.setUserCompartments, dif_neg distinct]

/-! ## The calls of a request -/

section

variable {σ α β : Type}

/-- Another world with the same clock, in which only memberships, compartments of users and
sessions may be different. -/
structure Beside (w w' : World σ) : Prop where
  now : w'.now = w.now
  tables : ∃ userDepartments userCompartments,
    w'.db.toTables = { w.db.toTables with userDepartments, userCompartments }

/-- A call that changes nothing, and reads nothing of what may be different. -/
structure ReadsBeside (c : World σ → α × World σ) : Prop where
  quiet : ∀ w, (c w).2 = w
  blind : ∀ w w', Beside w w' → (c w').1 = (c w).1

/-- A call of a request that writes one of the tables. -/
inductive SaveCall (S : SessionStore σ) (userId : String) (refusal : Tables → Option PrismaError)
    (change : Tables → Tables) : {β : Type} → (World σ → β × World σ) → Prop
  | read {β : Type} {c : World σ → β × World σ} (reads : ReadsBeside c) :
      SaveCall S userId refusal change c
  | write {c : World σ → Except PrismaError Unit × World σ}
      (refused : ∀ w e, refusal w.db.toTables = some e → c w = (.error e, w))
      (writes : ∀ w, refusal w.db.toTables = none → ∃ db,
        c w = (.ok (), { w with db }) ∧ db.toTables = change w.db.toTables) :
      SaveCall S userId refusal change c
  | revoke {c : World σ → Unit × World σ}
      (revokes : ∀ w, (c w).2 =
        { w with sessions := S.machine.perform w.sessions (.revokeUser userId) }) :
      SaveCall S userId refusal change c

namespace SaveCall

variable {S : SessionStore σ} {userId : String} {refusal refusal' : Tables → Option PrismaError}
  {change change' : Tables → Tables} {c : World σ → α × World σ} {d : World σ → β × World σ}

/-- A write of one of the two tables of memberships. -/
def Narrow (change : Tables → Tables) : Prop :=
  ∀ t, ∃ userDepartments userCompartments, change t = { t with userDepartments, userCompartments }

/-- Reads do not see the calls of the other request. -/
theorem beside (narrow : Narrow change) (call : SaveCall S userId refusal change c) (w : World σ) :
    Beside w (c w).2 := by
  cases call with
  | read reads =>
      rw [reads.quiet]
      exact ⟨rfl, _, _, rfl⟩
  | write refused writes =>
      cases verdict : refusal w.db.toTables with
      | some e =>
          rw [refused w e verdict]
          exact ⟨rfl, _, _, rfl⟩
      | none =>
          obtain ⟨db, answer, tables⟩ := writes w verdict
          obtain ⟨userDepartments, userCompartments, changed⟩ := narrow w.db.toTables
          rw [answer]
          exact ⟨rfl, userDepartments, userCompartments, tables.trans changed⟩
  | revoke revokes =>
      rw [revokes]
      exact ⟨rfl, _, _, rfl⟩

/-- Writes of different tables. -/
structure Apart (refusal refusal' : Tables → Option PrismaError) (change change' : Tables → Tables) :
    Prop where
  refusal : ∀ t, refusal (change' t) = refusal t
  refusal' : ∀ t, refusal' (change t) = refusal' t
  change : ∀ t, change (change' t) = change' (change t)

theorem write_write {c d : World σ → Except PrismaError Unit × World σ}
    (apart : Apart refusal refusal' change change')
    (refused : ∀ w e, refusal w.db.toTables = some e → c w = (.error e, w))
    (writes : ∀ w, refusal w.db.toTables = none → ∃ db,
      c w = (.ok (), { w with db }) ∧ db.toTables = change w.db.toTables)
    (refused' : ∀ w e, refusal' w.db.toTables = some e → d w = (.error e, w))
    (writes' : ∀ w, refusal' w.db.toTables = none → ∃ db,
      d w = (.ok (), { w with db }) ∧ db.toTables = change' w.db.toTables) : Commute c d := by
  -- four cases: each of the two writes is refused or not, before the other and after it alike
  have both : ∀ w, (c (d w).2).1 = (c w).1 ∧ (d (c w).2).1 = (d w).1 ∧
      (c (d w).2).2 = (d (c w).2).2 := by
    intro w
    cases verdict : refusal w.db.toTables with
    | some e =>
        rw [refused w e verdict]
        cases verdict' : refusal' w.db.toTables with
        | some e' =>
            rw [refused' w e' verdict', refused w e verdict]
            exact ⟨rfl, rfl, rfl⟩
        | none =>
            obtain ⟨db, answer, tables⟩ := writes' w verdict'
            rw [answer]
            have again : refusal db.toTables = some e := by rw [tables, apart.refusal, verdict]
            rw [refused { w with db } e again]
            exact ⟨rfl, rfl, rfl⟩
    | none =>
        obtain ⟨db, answer, tables⟩ := writes w verdict
        rw [answer]
        cases verdict' : refusal' w.db.toTables with
        | some e' =>
            have again : refusal' db.toTables = some e' := by rw [tables, apart.refusal', verdict']
            rw [refused' w e' verdict', refused' { w with db } e' again, answer]
            exact ⟨rfl, rfl, rfl⟩
        | none =>
            obtain ⟨db', answer', tables'⟩ := writes' w verdict'
            rw [answer']
            obtain ⟨after, first, changed⟩ := writes { w with db := db' }
              (show refusal db'.toTables = none by rw [tables', apart.refusal, verdict])
            obtain ⟨after', second, changed'⟩ := writes' { w with db }
              (show refusal' db.toTables = none by rw [tables, apart.refusal', verdict'])
            rw [first, second]
            have same : after = after' := by
              apply eq_of_tables
              rw [changed, changed']
              show change db'.toTables = change' db.toTables
              rw [tables, tables', apart.change]
            exact ⟨rfl, rfl, by rw [same]⟩
  exact ⟨fun w => (both w).1, fun w => (both w).2.1, fun w => (both w).2.2⟩

/-- A write does not see a revocation. -/
theorem write_revoke {c : World σ → Except PrismaError Unit × World σ} {d : World σ → Unit × World σ}
    (refused : ∀ w e, refusal w.db.toTables = some e → c w = (.error e, w))
    (writes : ∀ w, refusal w.db.toTables = none → ∃ db,
      c w = (.ok (), { w with db }) ∧ db.toTables = change w.db.toTables)
    (revokes : ∀ w, (d w).2 =
      { w with sessions := S.machine.perform w.sessions (.revokeUser userId) }) : Commute c d := by
  have both : ∀ w, (c (d w).2).1 = (c w).1 ∧ (c (d w).2).2 = (d (c w).2).2 := by
    intro w
    rw [revokes, revokes]
    cases verdict : refusal w.db.toTables with
    | some e =>
        have later := refused
          { w with sessions := S.machine.perform w.sessions (.revokeUser userId) } e verdict
        rw [refused w e verdict, later]
        exact ⟨rfl, rfl⟩
    | none =>
        obtain ⟨db, answer, tables⟩ := writes w verdict
        obtain ⟨db', answer', tables'⟩ := writes
          { w with sessions := S.machine.perform w.sessions (.revokeUser userId) } verdict
        obtain rfl : db' = db := eq_of_tables (tables'.trans tables.symm)
        rw [answer, answer']
        exact ⟨rfl, rfl⟩
  exact ⟨fun w => (both w).1, fun _ => rfl, fun w => (both w).2⟩

theorem commute (narrow : Narrow change) (narrow' : Narrow change')
    (apart : Apart refusal refusal' change change') (call : SaveCall S userId refusal change c)
    (call' : SaveCall S userId refusal' change' d) : Commute c d := by
  have seen := call.beside narrow
  have seen' := call'.beside narrow'
  cases call with
  | read reads => exact .of_quiet reads.quiet fun w => reads.blind w _ (seen' w)
  | write refused writes =>
      cases call' with
      | read reads => exact (Commute.of_quiet reads.quiet fun w => reads.blind w _ (seen w)).symm
      | write refused' writes' => exact write_write apart refused writes refused' writes'
      | revoke revokes => exact write_revoke refused writes revokes
  | revoke revokes =>
      cases call' with
      | read reads => exact (Commute.of_quiet reads.quiet fun w => reads.blind w _ (seen w)).symm
      | write refused' writes' => exact (write_revoke refused' writes' revokes).symm
      | revoke revokes' =>
          exact .of_silent fun w => by rw [revokes, revokes', revokes, revokes']

end SaveCall

/-! ## The requests -/

/-- What is read before the write has any property of its token check and its queries, none of
which is of a table that the requests write. -/
theorem readRows_parts {Q : {α : Type} → Service σ α → Prop} {env : Env}
    {accessToken userId : String} {find : Tables → β} {rows : β → Except ServiceError (List α)}
    (parts : Prog.Compositional Q) (authenticates : Q (authenticate env accessToken))
    (queries : ∀ {β : Type} (read : Tables → β), (∀ t userDepartments userCompartments,
      read { t with userDepartments, userCompartments } = read t) → Q (query read))
    (blind : ∀ t userDepartments userCompartments,
      find { t with userDepartments, userCompartments } = find t) :
    Q (readRows env accessToken userId find rows) := by
  have grants : ∀ caller, Q (effectiveGrants caller) := by
    intro caller
    refine parts.bind (queries _ fun _ _ _ => rfl) fun assignments => ?_
    split
    · exact parts.pure _
    · exact parts.bind (queries _ fun _ _ _ => rfl) fun roles => parts.ofExcept _
  have allowed : ∀ caller, Q (can caller ORG_MANAGE none) := by
    intro caller
    refine parts.bind (grants caller) fun grants => ?_
    dsimp only
    split
    · exact parts.pure _
    · refine parts.bind (queries _ fun _ _ _ => rfl) fun user => ?_
      cases user <;> exact parts.pure _
  refine parts.bind (parts.bind authenticates fun verified => parts.bind (allowed _) fun yes => ?_)
    fun _ => parts.bind (queries _ fun _ _ _ => rfl) fun found => ?_
  · split
    · exact parts.pure _
    · exact parts.fail _
  · cases found with
    | none => exact parts.fail _
    | some user => exact parts.bind (queries _ blind) fun _ => parts.ofExcept _

section

variable {S : SessionStore σ} {env : Env} {userId : String} {refusal : Tables → Option PrismaError}
  {change : Tables → Tables}

theorem query_saves {read : Tables → α} (blind : ∀ t userDepartments userCompartments,
    read { t with userDepartments, userCompartments } = read t) :
    (query read : Service σ α).Makes (SaveCall S userId refusal change) := by
  refine .call (.read ⟨fun _ => rfl, ?_⟩)
  rintro w w' ⟨-, userDepartments, userCompartments, tables⟩
  show read w'.db.toTables = read w.db.toTables
  rw [tables, blind]

theorem authenticate_saves (accessToken : String) :
    (authenticate env accessToken : Service σ VerifiedAccessToken).Makes
      (SaveCall S userId refusal change) := by
  refine .bind (.call (.read ⟨fun _ => rfl, fun _ _ beside => beside.now⟩)) fun now => ?_
  cases env.verifyAccessToken now accessToken with
  | ok verified => exact .pure _
  | error e => exact .fail _

/-- The write and the revocation. -/
theorem commit_saves {update : Database → Except PrismaError Database}
    (writes : WritesTables update refusal change) :
    (commit update >>= fun _ => revokeUser S userId : Service σ Unit).Makes
      (SaveCall S userId refusal change) := by
  refine .bind (.bind (.call (.write ?_ ?_)) ?_) fun _ => .call (.revoke fun _ => rfl)
  · intro w e refused
    have failed := writes w.db
    rw [refused] at failed
    simp only at failed
    rw [failed]
  · intro w accepted
    have committed := writes w.db
    rw [accepted] at committed
    obtain ⟨db, ok, tables⟩ := committed
    exact ⟨db, by rw [ok], tables⟩
  · intro result
    cases result with
    | ok _ => exact .pure _
    | error e => exact .fail _

end

end

/-! ## Saving both -/

inductive Half where
  | departments
  | compartments
  deriving DecidableEq

section

variable {σ : Type} (S : SessionStore σ) (env : Env) (accessToken userId : String)
  (memberships : List MembershipInput) (keys : List String)

/-- The requests that `setUserOrg` sends. -/
def setUserOrg : Half → Service σ Unit
  | .departments => (OrgRequest.setUserMemberships memberships).service S env accessToken userId
  | .compartments => (OrgRequest.setUserCompartments keys).service S env accessToken userId

/-- What a request asks for is stored. -/
def Half.Stored (t : Tables) : Half → Prop
  | .departments => (OrgRequest.setUserMemberships memberships).Stored t userId
  | .compartments => (OrgRequest.setUserCompartments keys).Stored t userId

/-- The table of a request has not changed. -/
def Half.Left (t t' : Tables) : Half → Prop
  | .departments => t'.userDepartments = t.userDepartments
  | .compartments => t'.userCompartments = t.userCompartments

/-- The calls of the session store, without the passing of time between them. -/
def sessionCalls (w : World σ) : List Call :=
  (w.sessions.log.map Logged.call).filter fun | .elapse _ => false | _ => true

/-- The same database, the same session calls, and the token is still as good as it was. -/
structure Alike (w w' : World σ) : Prop where
  db : w'.db = w.db
  calls : sessionCalls w' = sessionCalls w
  token : env.verifyAccessToken w'.now accessToken = env.verifyAccessToken w.now accessToken

/-- Between two calls time passes, but the token does not expire. -/
def TokenLasts (w w' : World σ) : Prop :=
  TimePasses S w w' ∧
    env.verifyAccessToken w'.now accessToken = env.verifyAccessToken w.now accessToken

end

section

variable {σ : Type} {S : SessionStore σ} {env : Env} {accessToken userId : String}
  {memberships : List MembershipInput} {keys : List String} {w w' : World σ}
  {result : Except ServiceError Unit}

/-- A call of the first request, for whatever rows it has read. -/
def DepartmentCall (S : SessionStore σ) (userId : String) {β : Type} (c : World σ → β × World σ) :
    Prop :=
  ∃ rows, SaveCall S userId (departmentsRefusal userId rows) (replaceDepartments userId rows) c

def CompartmentCall (S : SessionStore σ) (userId : String) {β : Type} (c : World σ → β × World σ) :
    Prop :=
  ∃ ids, SaveCall S userId (compartmentsRefusal userId ids) (replaceCompartments userId ids) c

/-- The calls of the two requests commute. -/
theorem calls_apart {β γ : Type} (c : World σ → β × World σ) (d : World σ → γ × World σ)
    (call : DepartmentCall S userId c) (call' : CompartmentCall S userId d) : Commute c d := by
  obtain ⟨rows, call⟩ := call
  obtain ⟨ids, call'⟩ := call'
  have narrow : SaveCall.Narrow (replaceDepartments userId rows) := fun _ => ⟨_, _, rfl⟩
  have narrow' : SaveCall.Narrow (replaceCompartments userId ids) := fun _ => ⟨_, _, rfl⟩
  have apart : SaveCall.Apart (departmentsRefusal userId rows) (compartmentsRefusal userId ids)
      (replaceDepartments userId rows) (replaceCompartments userId ids) :=
    ⟨fun _ => rfl, fun _ => rfl, fun _ => rfl⟩
  exact call.commute narrow narrow' apart call'

theorem departments_make :
    (setUserOrg S env accessToken userId memberships keys .departments).Makes
      (DepartmentCall S userId) := by
  simp only [setUserOrg, OrgRequest.service, setUserMemberships_eq]
  refine .bind (readRows_parts Prog.Makes.compositional ?_ ?_ fun _ _ _ => rfl) fun rows => ?_
  · exact (authenticate_saves accessToken).imp fun c call => ⟨[], call⟩
  · exact fun read blind => (query_saves blind).imp fun c call => ⟨[], call⟩
  · exact (commit_saves (setUserDepartments_writes userId rows)).imp fun c call => ⟨rows, call⟩

theorem compartments_make :
    (setUserOrg S env accessToken userId memberships keys .compartments).Makes
      (CompartmentCall S userId) := by
  simp only [setUserOrg, OrgRequest.service, setUserCompartments_eq]
  refine .bind (readRows_parts Prog.Makes.compositional ?_ ?_ fun _ _ _ => rfl) fun ids => ?_
  · exact (authenticate_saves accessToken).imp fun c call => ⟨[], call⟩
  · exact fun read blind => (query_saves blind).imp fun c call => ⟨[], call⟩
  · exact (commit_saves (setUserCompartments_writes userId ids)).imp fun c call => ⟨ids, call⟩

/-! ## The passing of time -/

theorem TokenLasts.alike (lasts : TokenLasts S env accessToken w w') : Alike env accessToken w w' := by
  obtain ⟨⟨ms, rfl⟩, token⟩ := lasts
  exact ⟨rfl, rfl, token⟩

theorem Alike.trans {w'' : World σ} (first : Alike env accessToken w w')
    (second : Alike env accessToken w' w'') : Alike env accessToken w w'' :=
  ⟨second.db.trans first.db, second.calls.trans first.calls, second.token.trans first.token⟩

theorem authenticate_steady :
    (authenticate env accessToken : Service σ VerifiedAccessToken).Steady
      (Alike env accessToken) := by
  refine ⟨fun w w' alike => ?_, fun now => ?_⟩
  · show ((authenticate env accessToken).run w').1 = ((authenticate env accessToken).run w).1 ∧
      Alike env accessToken ((authenticate env accessToken).run w).2
        ((authenticate env accessToken).run w').2
    rw [run_authenticate, run_authenticate, alike.token]
    exact ⟨rfl, alike⟩
  · simp only [Prog.bind]
    cases env.verifyAccessToken now accessToken with
    | ok verified => exact .pure _
    | error e => exact .fail _

theorem query_steady {α : Type} (read : Tables → α) :
    (query read : Service σ α).Steady (Alike env accessToken) := by
  refine .of_makes (.call fun w w' alike => ⟨?_, alike⟩)
  show read w'.db.toTables = read w.db.toTables
  rw [alike.db]

theorem commit_steady (update : Database → Except PrismaError Database) :
    (commit update >>= fun _ => revokeUser S userId : Service σ Unit).Steady
      (Alike env accessToken) := by
  refine .of_makes (.bind (.bind (.call fun w w' alike => ?_) ?_) fun _ => .call fun w w' alike => ?_)
  · dsimp only
    rw [alike.db]
    cases update w.db with
    | ok db => exact ⟨rfl, rfl, alike.calls, alike.token⟩
    | error e => exact ⟨rfl, alike⟩
  · intro answer
    cases answer with
    | ok _ => exact .pure _
    | error e => exact .fail _
  · exact ⟨rfl, alike.db, congrArg (Call.revokeUser userId :: ·) alike.calls, alike.token⟩

theorem setUserOrg_steady (half : Half) :
    (setUserOrg S env accessToken userId memberships keys half).Steady (Alike env accessToken) := by
  cases half with
  | departments =>
      simp only [setUserOrg, OrgRequest.service, setUserMemberships_eq]
      exact .bind (readRows_parts Prog.Steady.compositional authenticate_steady
        (fun read _ => query_steady read) fun _ _ _ => rfl) fun rows => commit_steady _
  | compartments =>
      simp only [setUserOrg, OrgRequest.service, setUserCompartments_eq]
      exact .bind (readRows_parts Prog.Steady.compositional authenticate_steady
        (fun read _ => query_steady read) fun _ _ _ => rfl) fun ids => commit_steady _

/-! ## What is stored -/

/-- The departments are stored, or left as they were; nothing else is written. -/
theorem run_departments
    (run : (setUserOrg S env accessToken userId memberships keys .departments).run w = (result, w')) :
    (∃ userDepartments, w'.db.toTables = { w.db.toTables with userDepartments }) ∧
      (result = .ok () → Half.Stored userId memberships keys w'.db.toTables .departments) ∧
      (result ≠ .ok () → w' = w) := by
  simp only [setUserOrg, OrgRequest.service, setUserMemberships_eq] at run
  rcases replacement_cases quiet_readRows run with ⟨e, rfl, rfl⟩ | ⟨rows, db, read, ok, rfl, rfl⟩
  · exact ⟨⟨_, rfl⟩, fun ok => (by cases ok), fun _ => rfl⟩
  · refine ⟨⟨_, Database.setUserDepartments_ok ok⟩, fun _ => ?_, fun failed => absurd rfl failed⟩
    exact stored_memberships (run_readRows_ok (congrArg Prod.fst read)).2 ok

theorem run_compartments
    (run : (setUserOrg S env accessToken userId memberships keys .compartments).run w = (result, w')) :
    (∃ userCompartments, w'.db.toTables = { w.db.toTables with userCompartments }) ∧
      (result = .ok () → Half.Stored userId memberships keys w'.db.toTables .compartments) ∧
      (result ≠ .ok () → w' = w) := by
  simp only [setUserOrg, OrgRequest.service, setUserCompartments_eq] at run
  rcases replacement_cases quiet_readRows run with ⟨e, rfl, rfl⟩ | ⟨ids, db, read, ok, rfl, rfl⟩
  · exact ⟨⟨_, rfl⟩, fun ok => (by cases ok), fun _ => rfl⟩
  · refine ⟨⟨_, Database.setUserCompartments_ok ok⟩, fun _ => ?_, fun failed => absurd rfl failed⟩
    exact stored_compartments (run_readRows_ok (congrArg Prod.fst read)).2 ok

/-- One request after the other: each stores its list or leaves its table. -/
theorem run_both (half : Half) :
    let first := (setUserOrg S env accessToken userId memberships keys .departments).run w
    let second := (setUserOrg S env accessToken userId memberships keys .compartments).run first.2
    let answer : Except ServiceError Unit := match half with
      | .departments => first.1
      | .compartments => second.1
    (answer = .ok () → half.Stored userId memberships keys second.2.db.toTables) ∧
      (answer ≠ .ok () → half.Left w.db.toTables second.2.db.toTables) := by
  intro first second answer
  obtain ⟨⟨userDepartments, tables⟩, stores, leaves⟩ := run_departments (Prod.eta first).symm
  obtain ⟨⟨userCompartments, tables'⟩, stores', leaves'⟩ := run_compartments (Prod.eta second).symm
  cases half with
  | departments =>
      refine ⟨fun ok => ?_, fun failed => ?_⟩
      · have stored := stores ok
        rw [tables']
        refine ⟨fun m member mine => ?_, stored.2⟩
        obtain ⟨user, listed⟩ := stored.1 m member mine
        exact ⟨user, listed⟩
      · rw [tables', leaves failed]
        rfl
  | compartments =>
      refine ⟨stores', fun failed => ?_⟩
      rw [leaves' failed, tables]
      rfl

/-! ## In any order -/

/-- In whatever order the calls of the two requests come, each answers what it would answer
alone and has its list stored if it succeeds; if not, its table is as before.  The database
and the session calls are those of one request and then the other, in either order. -/
theorem saved {P : Pool Half (World σ) ServiceError Unit}
    (run : Pool.Run (TokenLasts S env accessToken) Always
      (.start (setUserOrg S env accessToken userId memberships keys) w) P)
    {results : Half → Except ServiceError Unit} (ended : ∀ half, P.Ended half (results half)) :
    (∀ half, results half =
        ((setUserOrg S env accessToken userId memberships keys half).run w).1 ∧
      (results half = .ok () → half.Stored userId memberships keys P.state.db.toTables) ∧
      (results half ≠ .ok () → half.Left w.db.toTables P.state.db.toTables)) ∧
    Alike env accessToken ((setUserOrg S env accessToken userId memberships keys .compartments).run
      ((setUserOrg S env accessToken userId memberships keys .departments).run w).2).2 P.state ∧
    Alike env accessToken ((setUserOrg S env accessToken userId memberships keys .departments).run
      ((setUserOrg S env accessToken userId memberships keys .compartments).run w).2).2 P.state := by
  have mine := @departments_make σ S env accessToken userId memberships keys
  have yours := @compartments_make σ S env accessToken userId memberships keys
  have serial := run.inOrder (R := Alike env accessToken) (i := .departments) (j := .compartments)
    calls_apart (by decide) (fun half => by cases half <;> simp) (fun _ => ⟨rfl, rfl, rfl⟩)
    Alike.trans (fun _ _ lasts => lasts.alike) mine yours setUserOrg_steady
  rw [Pool.inOrder_ended (ended _) (ended _)] at serial
  obtain ⟨departments, compartments, state⟩ := serial
  obtain ⟨swapped, alone⟩ := Prog.Makes.run_apart calls_apart mine yours w
  have both := @run_both σ S env accessToken userId memberships keys w
  have db : P.state.db = _ := state.db
  refine ⟨fun half => ?_, state, ?_⟩
  · rw [db]
    cases half with
    | departments =>
        refine ⟨departments, ?_⟩
        rw [show results .departments = _ from departments]
        exact both .departments
    | compartments =>
        refine ⟨compartments.trans alone, ?_⟩
        rw [show results .compartments = _ from compartments]
        exact both .compartments
  · rw [swapped]
    exact state

end

/-- Call by call, the two requests of a form with one department and one compartment. -/
def sampleSaving : Pool Half (World InMemorySessions) ServiceError Unit :=
  Pool.play Always (.start (setUserOrg (inMemorySessionStore sampleSha256 .default) sampleEnv
    "admin@acme.test" "finance@acme.test" [⟨"hr", some .lead⟩] ["PII"])
    (World.fresh .empty 0 staffed))
    (List.replicate 20 [Half.departments, Half.compartments]).flatten

theorem saved_sampleSaving :
    Half.Stored "finance@acme.test" [⟨"hr", some .lead⟩] ["PII"] sampleSaving.state.db.toTables
        .departments ∧
      Half.Stored "finance@acme.test" [⟨"hr", some .lead⟩] ["PII"] sampleSaving.state.db.toTables
        .compartments := by
  have ended : ∀ half, sampleSaving.Ended half (.ok ()) := by
    intro half
    have returned : ∀ half, ((sampleSaving.procs half).ended.bind Except.toOption).isSome = true := by
      intro half
      cases half <;> decide +kernel
    obtain ⟨_, ended⟩ := Pool.exists_ended_ok (returned half)
    exact ended
  obtain ⟨each, -⟩ := saved (Pool.run_play _ _) ended
  exact ⟨(each .departments).2.1 rfl, (each .compartments).2.1 rfl⟩

end Arac.Org
