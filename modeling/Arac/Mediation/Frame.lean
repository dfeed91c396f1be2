/-
# Arac.Mediation.Frame -- what an operation leaves alone

`Frame touched` relates two databases that agree on everything the claims of
untouched users are derived from.  Every operation but `createDepartment` stays
within the frame of its target (`operation_frame`): the auth operations because
every write they make does, whatever state it meets, the others by their
inversions.
-/
import Arac.Mediation.Operations
import Arac.Admin.Effects
import Arac.Org.Effects

namespace Arac.Mediation

open Arac.Theory Arac.Sessions Arac.Db Arac.Service Arac.Rbac Arac.Admin Arac.Org Arac.Auth

set_option autoImplicit false

/-- Only the claims of touched users may differ. -/
structure Frame (touched : String → Prop) (t t' : Tables) : Prop where
  departments : t'.departments = t.departments
  row : ∀ u ∈ t.users, ¬ touched u.id → ∃ u' ∈ t'.users,
    u'.id = u.id ∧ u'.tenant = u.tenant ∧ u'.clearance = u.clearance ∧ u'.level = u.level
  memberships : ∀ userId, ¬ touched userId → t'.membershipsOf userId = t.membershipsOf userId
  compartments : ∀ userId, ¬ touched userId → t'.compartmentsOf userId = t.compartmentsOf userId

namespace Frame

variable {touched : String → Prop}

theorem refl (touched : String → Prop) (t : Tables) : Frame touched t t :=
  ⟨rfl, fun u u_row _ => ⟨u, u_row, rfl, rfl, rfl, rfl⟩, fun _ _ => rfl, fun _ _ => rfl⟩

theorem trans {t t' t'' : Tables} (first : Frame touched t t') (second : Frame touched t' t'') :
    Frame touched t t'' := by
  refine ⟨second.departments.trans first.departments, ?_, ?_, ?_⟩
  · intro u u_row apart
    obtain ⟨u', u'_row, same, tenant, clearance, level⟩ := first.row u u_row apart
    obtain ⟨u'', u''_row, same', tenant', clearance', level'⟩ :=
      second.row u' u'_row (same.symm ▸ apart)
    exact ⟨u'', u''_row, same'.trans same, tenant'.trans tenant, clearance'.trans clearance,
      level'.trans level⟩
  · intro userId apart
    exact (second.memberships userId apart).trans (first.memberships userId apart)
  · intro userId apart
    exact (second.compartments userId apart).trans (first.compartments userId apart)

/-! ## The writes -/

section

variable {db db' : Database}

theorem userCreate {row : Db.User} (ok : db.userCreate row = .ok db') :
    Frame touched db.toTables db'.toTables := by
  rw [(Database.userCreate_ok ok).1]
  refine ⟨rfl, ?_, fun _ _ => rfl, fun _ _ => rfl⟩
  intro u u_row _
  exact ⟨u, List.mem_append_left _ u_row, rfl, rfl, rfl, rfl⟩

/-- An update writes at most the claims of its target. -/
theorem userUpdate {id : String} {data : UserUpdate} (ok : db.userUpdate id data = .ok db') :
    Frame (id = ·) db.toTables db'.toTables := by
  rw [Database.userUpdate_ok ok]
  refine ⟨rfl, ?_, fun _ _ => rfl, fun _ _ => rfl⟩
  intro u u_row apart
  have kept : (if u.id = id then u.update data else u) = u := if_neg fun same => apart same.symm
  exact ⟨u, List.mem_map.mpr ⟨u, u_row, kept⟩, rfl, rfl, rfl, rfl⟩

/-- A new password is in no claim. -/
theorem passwordUpdate {id passwordHash : String}
    (ok : db.userUpdate id { passwordHash := some passwordHash } = .ok db') :
    Frame touched db.toTables db'.toTables := by
  rw [Database.userUpdate_ok ok]
  refine ⟨rfl, ?_, fun _ _ => rfl, fun _ _ => rfl⟩
  intro u u_row _
  refine ⟨_, List.mem_map_of_mem u_row, ?_⟩
  split <;> exact ⟨rfl, rfl, rfl, rfl⟩

theorem userRoleCreate {row : UserRole} (ok : db.userRoleCreate row = .ok db') :
    Frame touched db.toTables db'.toTables := by
  rw [Database.userRoleCreate_ok ok]
  exact ⟨rfl, fun u u_row _ => ⟨u, u_row, rfl, rfl, rfl, rfl⟩, fun _ _ => rfl, fun _ _ => rfl⟩

theorem userRoleDeleteMany (db : Database) (userId roleId : String)
    (scopeTenant scopeDepartment : Option String) :
    Frame touched db.toTables
      (db.userRoleDeleteMany userId roleId scopeTenant scopeDepartment).toTables :=
  ⟨rfl, fun u u_row _ => ⟨u, u_row, rfl, rfl, rfl, rfl⟩, fun _ _ => rfl, fun _ _ => rfl⟩

/-- Nobody holds a new compartment. -/
theorem compartmentCreate {id : Cuid} {tenant key name : String}
    (ok : db.compartmentCreate id tenant key name = .ok db') :
    Frame touched db.toTables db'.toTables := by
  rw [(Database.compartmentCreate_ok ok).1]
  refine ⟨rfl, fun u u_row _ => ⟨u, u_row, rfl, rfl, rfl, rfl⟩, fun _ _ => rfl, ?_⟩
  intro userId _
  simp only [Tables.compartmentsOf]
  apply List.filterMap_congr
  intro c member
  obtain ⟨comp, comp_row, same⟩ := List.mem_map.mp
    (db.valid.userCompartment_compartment c (List.mem_of_mem_filter member))
  simp only [Tables.compartmentById, List.find?_append]
  rw [← Tables.compartmentById, Database.compartmentById_eq_some.mpr ⟨comp_row, same⟩]
  rfl

/-- Replacing the rows of one user leaves those of the others. -/
theorem filter_replaced {ρ : Type} {userOf : ρ → String} {old new : List ρ} {userId other : String}
    (theirs : ∀ row ∈ new, userOf row = userId) (apart : userId ≠ other) :
    ((old.filter fun row => userOf row ≠ userId) ++ new).filter (fun row => userOf row = other) =
      old.filter fun row => userOf row = other := by
  have none_new : new.filter (fun row => userOf row = other) = [] := by
    apply List.filter_eq_nil_iff.mpr
    intro row member
    rw [theirs row member]
    simpa using apart
  rw [List.filter_append, none_new, List.append_nil, List.filter_filter]
  apply List.filter_congr
  intro row _
  by_cases other_row : userOf row = other
  · simp [other_row, Ne.symm apart]
  · simp [other_row]

theorem setUserDepartments {userId : String} {rows : List (String × DeptRank)}
    (ok : db.setUserDepartments userId rows = .ok db') :
    Frame (userId = ·) db.toTables db'.toTables := by
  rw [Database.setUserDepartments_ok ok]
  refine ⟨rfl, fun u u_row _ => ⟨u, u_row, rfl, rfl, rfl, rfl⟩, fun other apart => ?_,
    fun _ _ => rfl⟩
  have theirs : ∀ m ∈ rows.map fun row => (⟨userId, row.1, row.2⟩ : UserDepartment),
      m.userId = userId := by
    intro m member
    obtain ⟨row, -, rfl⟩ := List.mem_map.mp member
    rfl
  simp only [Tables.membershipsOf]
  rw [filter_replaced theirs apart]
  rfl

theorem setUserCompartments {userId : String} {compartmentIds : List String}
    (ok : db.setUserCompartments userId compartmentIds = .ok db') :
    Frame (userId = ·) db.toTables db'.toTables := by
  rw [Database.setUserCompartments_ok ok]
  refine ⟨rfl, fun u u_row _ => ⟨u, u_row, rfl, rfl, rfl, rfl⟩, fun _ _ => rfl, ?_⟩
  intro other apart
  simp only [Tables.compartmentsOf]
  rw [filter_replaced (by simp) apart]
  rfl

end

end Frame

/-! ## The auth operations -/

section

variable {σ α : Type} {S : SessionStore σ} {env : Env} {draws : Draws}

/-- Every call stays within the frame, in whatever state it is made. -/
def Framed (touched : String → Prop) (p : Service σ α) : Prop :=
  p.Guarantees fun w w' => Frame touched w.db.toTables w'.db.toTables

namespace Framed

variable {touched : String → Prop}

theorem run {p : Service σ α} (framed : Framed touched p) (w : World σ) :
    Frame touched w.db.toTables (p.run w).2.db.toTables :=
  Prog.Guarantees.run (fun _ => .refl _ _) (fun _ _ _ => .trans) framed w

theorem void {p : Service σ α} (framed : Framed touched p) : Framed touched p.void :=
  .bind framed fun _ => .pure _

theorem query (read : Tables → α) : Framed touched (Service.query read : Service σ α) :=
  .call fun _ => .refl _ _

theorem writeSelect {update : Database → Except PrismaError Database} (select : Tables → α)
    (commits : ∀ db db', update db = .ok db' → Frame touched db.toTables db'.toTables) :
    Framed touched (Service.writeSelect update select : Service σ (Except PrismaError α)) := by
  refine .call ?_
  intro w
  cases written : update w.db with
  | ok db => exact commits _ _ written
  | error e => exact .refl _ _

theorem commit {update : Database → Except PrismaError Database}
    (commits : ∀ db db', update db = .ok db' → Frame touched db.toTables db'.toTables) :
    Framed touched (Service.commit update : Service σ Unit) := by
  refine .bind (writeSelect _ commits) ?_
  intro result
  cases result with
  | ok _ => exact .pure _
  | error e => exact .fail _

theorem authenticate (accessToken : String) :
    Framed touched (authenticate env accessToken : Service σ _) := by
  refine .bind (.call fun _ => .refl _ _) ?_
  intro now
  split
  · exact .pure _
  · exact .fail _

theorem findById (id : String) : Framed touched (IdentityProvider.findById id : Service σ _) :=
  .bind (query _) fun _ => .pure _

theorem verifyCredentials (email password : String) :
    Framed touched (IdentityProvider.verifyCredentials env email password : Service σ _) :=
  .bind (query _) fun _ => .pure _

theorem createUser (input : CreateUserInput) :
    Framed touched (IdentityProvider.createUser env draws input : Service σ _) := by
  refine .bind (.call fun _ => .refl _ _) ?_
  intro now
  refine .bind (writeSelect _ fun _ _ => .userCreate) ?_
  intro result
  cases result with
  | ok _ => exact .pure _
  | error e =>
      dsimp only
      split
      · exact .pure _
      · exact .fail _

theorem changePassword (userId newPassword : String) :
    Framed touched (IdentityProvider.changePassword env draws userId newPassword : Service σ _) :=
  commit fun _ _ => .passwordUpdate

theorem toIdentity (user : Auth.User) :
    Framed touched (AuthService.toIdentity user : Service σ _) := by
  refine .bind ?_ fun _ => .pure _
  exact .bind (query _) fun _ => .bind (query _) fun _ => .bind (query _) fun _ =>
    .bind (.ofExcept _) fun _ => .pure _

theorem issueFor (user : Auth.User) : Framed touched (AuthService.issueFor S env draws user) :=
  .bind (toIdentity user) fun _ => .bind (.bind (.call fun _ => .refl _ _) fun _ => .pure _) fun _ =>
    .bind (.call fun _ => .refl _ _) fun _ => .pure _

theorem signup (email name password : String) :
    Framed touched (AuthService.signup S env draws email name password) := by
  refine .bind (createUser _) ?_
  intro user
  cases user with
  | none => exact .fail _
  | some user => exact issueFor user

theorem login (email password : String) :
    Framed touched (AuthService.login S env draws email password) := by
  refine .bind (verifyCredentials _ _) ?_
  intro user
  cases user with
  | none => exact .fail _
  | some user => exact issueFor user

theorem authChangePassword (accessToken current new : String) :
    Framed touched (AuthService.changePassword S env draws accessToken current new) := by
  refine .bind (authenticate _) fun verified => .bind (findById _) ?_
  intro user
  cases user with
  | none => exact .fail _
  | some user =>
      refine .bind (verifyCredentials _ _) ?_
      intro matched
      cases matched with
      | none => exact .fail _
      | some _ =>
          exact .bind (changePassword _ _) fun _ => .bind (.call fun _ => .refl _ _) fun _ =>
            issueFor user

theorem afterRotate (result : RotationResult) :
    Framed touched (AuthService.afterRotate S env draws result) := by
  cases result with
  | reuseDetected _ _ => exact .fail _
  | invalid => exact .fail _
  | expired => exact .fail _
  | rotated userId _ issued =>
      refine .bind (findById _) ?_
      intro user
      cases user with
      | none => exact .bind (.call fun _ => .refl _ _) fun _ => .fail _
      | some user =>
          exact .bind (toIdentity user) fun _ =>
            .bind (.bind (.call fun _ => .refl _ _) fun _ => .pure _) fun _ => .pure _

theorem refresh (presented : String) : Framed touched (AuthService.refresh S env draws presented) :=
  .bind (.call fun _ => .refl _ _) fun result => afterRotate result

theorem logoutAll (accessToken : String) :
    Framed touched (AuthService.logoutAll S env accessToken) :=
  .bind (authenticate _) fun _ => .call fun _ => .refl _ _

theorem requestReset (email : String) :
    Framed touched (PasswordResetService.requestReset env draws email : Service σ Unit) := by
  refine .bind (query _) ?_
  intro user
  cases user with
  | none => exact .pure _
  | some user =>
      dsimp only
      split
      · exact .pure _
      · exact .bind (.call fun _ => .refl _ _) fun _ => .call fun _ => .refl _ _

theorem reset (token new : String) :
    Framed touched (PasswordResetService.reset S env draws token new) := by
  refine .bind (.call fun _ => .refl _ _) ?_
  intro taken
  split
  · exact .pure _
  · exact .bind (changePassword _ _) fun _ => .bind (.call fun _ => .refl _ _) fun _ => .pure _

end Framed

end

/-! ## All operations -/

section

variable {σ : Type} {S : SessionStore σ} {env : Env} {draws : Draws} {w w' : World σ}
  {result : Except ServiceError Unit}

/-- Every operation but `createDepartment` stays within the frame of its target. -/
theorem operation_frame {op : Operation} (run : (op.service S env draws).run w = (result, w'))
    (other : ∀ accessToken input, op ≠ .createDepartment accessToken input) :
    Frame op.Targets w.db.toTables w'.db.toTables := by
  have framed : ∀ {p : Service σ Unit}, p.run w = (result, w') → Framed op.Targets p →
      Frame op.Targets w.db.toTables w'.db.toTables := by
    intro p run framed
    have within := framed.run w
    rwa [run] at within
  cases op with
  | signup email name password => exact framed run (.void (.signup _ _ _))
  | login email password => exact framed run (.void (.login _ _))
  | refresh presented => exact framed run (.void (.refresh _))
  | logout presented => exact framed run (.call fun _ => .refl _ _)
  | logoutAll accessToken => exact framed run (.logoutAll _)
  | changePassword accessToken current new =>
      exact framed run (.void (.authChangePassword _ _ _))
  | requestReset email => exact framed run (.requestReset _)
  | reset token new => exact framed run (.void (.reset _ _))
  | grantAttributes accessToken targetId input =>
      obtain ⟨answer, run, -⟩ := Prog.run_void run
      rcases grantAttributes_cases run with ⟨e, -, rfl⟩ | ⟨_, _, db, _, _, _, _, _, _, ok, _, rfl⟩
      · exact .refl _ _
      · exact .userUpdate ok
  | assignRole accessToken targetId input =>
      obtain ⟨answer, run, -⟩ := Prog.run_void run
      rcases assignRole_cases run with ⟨e, -, rfl⟩ | ⟨_, _, db, _, _, _, _, rfl | ok, _, rfl⟩
      · exact .refl _ _
      · exact .refl _ _
      · exact .userRoleCreate ok
  | removeRole accessToken targetId input =>
      obtain ⟨answer, run, -⟩ := Prog.run_void run
      rcases removeRole_cases run with ⟨e, -, rfl⟩ | ⟨_, role, _, _, _, _, rfl⟩
      · exact .refl _ _
      · exact .userRoleDeleteMany _ _ _ _ _
  | createDepartment accessToken input => exact absurd rfl (other accessToken input)
  | createCompartment accessToken input =>
      obtain ⟨answer, run, -⟩ := Prog.run_void run
      rcases createCompartment_cases run with rfl | ⟨db, ok, rfl⟩
      · exact .refl _ _
      · exact .compartmentCreate ok
  | setUserMemberships accessToken userId memberships =>
      rcases setUserMemberships_cases run with ⟨e, -, rfl⟩ | ⟨_, _, db, _, _, ok, _, rfl⟩
      · exact .refl _ _
      · exact .setUserDepartments ok
  | setUserCompartments accessToken userId keys =>
      rcases setUserCompartments_cases run with ⟨e, -, rfl⟩ | ⟨_, _, db, _, _, ok, _, rfl⟩
      · exact .refl _ _
      · exact .setUserCompartments ok

end

end Arac.Mediation
