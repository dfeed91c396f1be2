/-
# Arac.Mediation.Calls -- what each operation asks of the auth Redis

Sessions and pending resets share one Redis database.  A call of an operation leaves both
alone, revokes sessions, stores a pending reset or takes one (`RedisCall`), and one call at
most mints a refresh token, with the random values drawn for the request (`MintCall`).

So an operation whose draws have not been used before moves the session store as its own
machine does with fresh randomness (`operation_continues`), and what holds in every run of
a session store holds in every run of operations.
-/
import Arac.Mediation.Writes
import Arac.Org.Transactions

namespace Arac.Mediation

open Arac.Theory Arac.Sessions Arac.Db Arac.Service Arac.Rbac Arac.Admin Arac.Org Arac.Auth

set_option autoImplicit false

section

variable {σ α : Type}

/-- One call that mints no refresh token. -/
inductive RedisCall (S : SessionStore σ) (w w' : World σ) : Prop
  | idle (sessions : w'.sessions = w.sessions) (resets : w'.resets = w.resets)
  | revokes (call : Call) (silent : call.mints = none) (timeless : ∀ ms, call ≠ .elapse ms)
      (sessions : w'.sessions = S.machine.perform w.sessions call) (resets : w'.resets = w.resets)
  | storeReset (hash userId : String) (sessions : w'.sessions = w.sessions)
      (resets : w'.resets = w.resets.put hash
        ⟨userId, some (w.now + PasswordResetService.RESET_TTL_SECONDS * 1000)⟩)
  | takeReset (hash : String) (sessions : w'.sessions = w.sessions)
      (resets : w'.resets = w.resets.del hash)

/-- The call that mints the refresh token drawn for the request. -/
inductive MintCall (S : SessionStore σ) (draws : Draws) (w w' : World σ) : Prop
  | createSession (userId : String)
      (sessions : w'.sessions =
        S.machine.perform w.sessions (.createSession userId draws.familyId draws.token))
      (resets : w'.resets = w.resets)
  | rotate (presented : String)
      (sessions : w'.sessions = S.machine.perform w.sessions (.rotate presented draws.token))
      (resets : w'.resets = w.resets)

variable {S : SessionStore σ} {env : Env} {draws : Draws} {w w' : World σ}

/-! ## The calls of the operations -/

/-- The calls of a procedure that mints nothing. -/
def Mintless (S : SessionStore σ) (p : Service σ α) : Prop := p.Guarantees (RedisCall S)

/-- The calls of a procedure that mints at most once. -/
def MintsOnce (S : SessionStore σ) (draws : Draws) (p : Service σ α) : Prop :=
  p.OnceAmong (RedisCall S) (MintCall S draws)

namespace Mintless

theorem bind {β : Type} {p : Service σ α} {f : α → Service σ β} (first : Mintless S p)
    (rest : ∀ a, Mintless S (f a)) : Mintless S (p >>= f) := Prog.Guarantees.bind first rest

theorem of_quiet {p : Service σ α} (quiet : Quiet p) : Mintless S p :=
  quiet.mono fun _ _ same => same ▸ .idle rfl rfl

theorem commit (update : Database → Except PrismaError Database) :
    Mintless S (Service.commit update : Service σ Unit) :=
  commit_guarantees (fun _ => .idle rfl rfl) fun _ _ _ => .idle rfl rfl

theorem writeSelect (update : Database → Except PrismaError Database) (select : Tables → α) :
    Mintless S (Service.writeSelect update select : Service σ (Except PrismaError α)) := by
  refine .call fun w => ?_
  cases update w.db with
  | ok db => exact .idle rfl rfl
  | error e => exact .idle rfl rfl

theorem revoke (presented : String) : Mintless S (Service.revoke S presented) :=
  .call fun _ => .revokes (.revoke presented) rfl (fun _ => nofun) rfl rfl

theorem revokeUser (userId : String) : Mintless S (Service.revokeUser S userId) :=
  .call fun _ => .revokes (.revokeUser userId) rfl (fun _ => nofun) rfl rfl

/-- A change to a user ends with a revocation and a view. -/
theorem revokeAndView (targetId : String) :
    Mintless S (do
      Service.revokeUser S targetId
      view targetId) :=
  .bind (revokeUser targetId) fun _ => of_quiet (quiet_view targetId)

theorem createUser (input : CreateUserInput) :
    Mintless S (IdentityProvider.createUser env draws input) := by
  refine .bind (of_quiet .clock) fun _ => .bind (writeSelect _ _) fun result => ?_
  cases result with
  | ok _ => exact .pure _
  | error e =>
      dsimp only
      split
      · exact .pure _
      · exact .fail _

theorem requestReset (email : String) :
    Mintless S (PasswordResetService.requestReset env draws email) := by
  refine .bind (of_quiet (.query _)) fun user => ?_
  cases user with
  | none => exact .pure _
  | some user =>
      dsimp only
      split
      · exact .pure _
      · exact .bind (.call fun _ => .storeReset _ _ rfl rfl) fun _ => .call fun _ => .idle rfl rfl

theorem reset (token new : String) :
    Mintless S (PasswordResetService.reset S env draws token new) := by
  refine .bind (.call fun _ => .takeReset _ rfl rfl) fun taken => ?_
  split
  · exact .pure _
  · exact .bind (commit _) fun _ => .bind (revokeUser _) fun _ => .pure _

theorem grantAttributes (accessToken targetId : String) (input : GrantInput) :
    Mintless S (Admin.grantAttributes S env accessToken targetId input) := by
  refine .bind (of_quiet (.bind (quiet_authenticate env accessToken) fun _ => .pure _)) fun _ => ?_
  refine .bind (of_quiet (.query _)) fun target => ?_
  cases target with
  | none => exact .fail _
  | some target =>
      refine .bind (of_quiet (quiet_requireScope _ _ _)) fun _ => ?_
      refine .bind (of_quiet (quiet_requireScope _ _ _)) fun _ => ?_
      exact .bind (commit _) fun _ => revokeAndView targetId

theorem assignRole (accessToken targetId : String) (input : RoleAssignmentInput) :
    Mintless S (Admin.assignRole S env draws accessToken targetId input) := by
  refine .bind (of_quiet (.bind (quiet_authenticate env accessToken) fun _ => .pure _)) fun _ => ?_
  refine .bind (of_quiet (quiet_requireScope _ _ _)) fun _ => .bind (of_quiet (.query _)) fun target => ?_
  cases target with
  | none => exact .fail _
  | some _ =>
      refine .bind (of_quiet (.query _)) fun role => ?_
      cases role with
      | none => exact .fail _
      | some role =>
          refine .bind (of_quiet (.query _)) fun existing => ?_
          dsimp only
          split
          · exact .bind (commit _) fun _ => revokeAndView targetId
          · exact revokeAndView targetId

theorem removeRole (accessToken targetId : String) (input : RoleAssignmentInput) :
    Mintless S (Admin.removeRole S env accessToken targetId input) := by
  refine .bind (of_quiet (.bind (quiet_authenticate env accessToken) fun _ => .pure _)) fun _ => ?_
  refine .bind (of_quiet (quiet_requireScope _ _ _)) fun _ => .bind (of_quiet (.query _)) fun role => ?_
  cases role with
  | none => exact .fail _
  | some role => exact .bind (commit _) fun _ => revokeAndView targetId

theorem createDepartment (accessToken : String) (input : CreateDepartmentInput) :
    Mintless S (Org.createDepartment env draws accessToken input) := by
  refine .bind (of_quiet (quiet_require env _ _)) fun _ => .bind (of_quiet ?_) fun parentId => ?_
  · unfold resolveParent
    split
    · exact .pure _
    · refine .bind (.query _) fun parent => ?_
      cases parent with
      | none => exact .fail _
      | some parent => exact .pure _
  · refine .bind (writeSelect _ _) fun result => ?_
    cases result with
    | ok _ => exact .pure _
    | error e =>
        dsimp only
        split
        · exact .fail _
        · exact .fail _

theorem createCompartment (accessToken : String) (input : CreateCompartmentInput) :
    Mintless S (Org.createCompartment env draws accessToken input) := by
  refine .bind (of_quiet (quiet_require env _ _)) fun _ => .bind (writeSelect _ _) fun result => ?_
  cases result with
  | ok _ => exact .pure _
  | error e =>
      dsimp only
      split
      · exact .fail _
      · exact .fail _

theorem setUserMemberships (accessToken userId : String) (memberships : List MembershipInput) :
    Mintless S (Org.setUserMemberships S env accessToken userId memberships) := by
  refine .bind (of_quiet (quiet_require env _ _)) fun _ => .bind (of_quiet (.query _)) fun user => ?_
  cases user with
  | none => exact .fail _
  | some _ =>
      refine .bind (of_quiet (.query _)) fun depts => ?_
      dsimp only
      split
      · exact .fail _
      · split
        · exact .fail _
        · exact .bind (commit _) fun _ => revokeUser userId

theorem setUserCompartments (accessToken userId : String) (keys : List String) :
    Mintless S (Org.setUserCompartments S env accessToken userId keys) := by
  refine .bind (of_quiet (quiet_require env _ _)) fun _ => .bind (of_quiet (.query _)) fun user => ?_
  cases user with
  | none => exact .fail _
  | some _ =>
      refine .bind (of_quiet (.query _)) fun comps => ?_
      split
      · exact .fail _
      · exact .bind (commit _) fun _ => revokeUser userId

end Mintless

namespace MintsOnce

variable {β : Type}

theorem of_mintless {p : Service σ α} (mintless : Mintless S p) : MintsOnce S draws p :=
  Prog.OnceAmong.never mintless

theorem later {p : Service σ α} {f : α → Service σ β} (first : Mintless S p)
    (rest : ∀ a, MintsOnce S draws (f a)) : MintsOnce S draws (p >>= f) :=
  Prog.OnceAmong.later first rest

theorem done {p : Service σ α} {f : α → Service σ β} (first : MintsOnce S draws p)
    (rest : ∀ a, Mintless S (f a)) : MintsOnce S draws (p >>= f) :=
  Prog.OnceAmong.done first rest

theorem issueFor (user : Auth.User) : MintsOnce S draws (AuthService.issueFor S env draws user) :=
  .later (.of_quiet (quiet_toIdentity user)) fun _ =>
    .later (.of_quiet (quiet_signAccessToken _ _ _)) fun _ =>
      .done (Prog.OnceAmong.call fun _ => .createSession user.id rfl rfl) fun _ => .pure _

theorem signup (email name password : String) :
    MintsOnce S draws (AuthService.signup S env draws email name password) := by
  refine .later (.createUser _) fun user => ?_
  cases user with
  | none => exact of_mintless (.fail _)
  | some user => exact issueFor user

theorem login (email password : String) :
    MintsOnce S draws (AuthService.login S env draws email password) := by
  refine .later (.of_quiet (.bind (.query _) fun _ => .pure _)) fun user => ?_
  cases user with
  | none => exact of_mintless (.fail _)
  | some user => exact issueFor user

theorem changePassword (accessToken current new : String) :
    MintsOnce S draws (AuthService.changePassword S env draws accessToken current new) := by
  refine .later (.of_quiet (quiet_authenticate _ _)) fun verified => ?_
  refine .later (.of_quiet (IdentityProvider.quiet_findById _)) fun user => ?_
  cases user with
  | none => exact of_mintless (.fail _)
  | some user =>
      refine .later (.of_quiet (.bind (.query _) fun _ => .pure _)) fun matched => ?_
      cases matched with
      | none => exact of_mintless (.fail _)
      | some _ =>
          exact .later (.commit _) fun _ => .later (.revokeUser user.id) fun _ => issueFor user

theorem refresh (presented : String) :
    MintsOnce S draws (AuthService.refresh S env draws presented) := by
  refine .done (Prog.OnceAmong.call fun _ => .rotate presented rfl rfl) fun result => ?_
  cases result with
  | reuseDetected _ _ => exact .fail _
  | invalid => exact .fail _
  | expired => exact .fail _
  | rotated userId _ issued =>
      refine .bind (.of_quiet (IdentityProvider.quiet_findById _)) fun user => ?_
      cases user with
      | none => exact .bind (.revokeUser userId) fun _ => .fail _
      | some user =>
          exact .bind (.of_quiet (quiet_toIdentity user)) fun _ =>
            .bind (.of_quiet (quiet_signAccessToken _ _ _)) fun _ => .pure _

theorem void {p : Service σ α} (once : MintsOnce S draws p) : MintsOnce S draws p.void :=
  .done once fun _ => .pure _

end MintsOnce

/-- Every operation mints at most once. -/
theorem operation_calls (op : Operation) : MintsOnce S draws (op.service S env draws) := by
  cases op with
  | signup email name password => exact .void (.signup email name password)
  | login email password => exact .void (.login email password)
  | refresh presented => exact .void (.refresh presented)
  | logout presented => exact .of_mintless (.revoke presented)
  | logoutAll accessToken =>
      exact .of_mintless (.bind (.of_quiet (quiet_authenticate _ _)) fun _ => .revokeUser _)
  | changePassword accessToken current new => exact .void (.changePassword accessToken current new)
  | requestReset email => exact .of_mintless (.requestReset email)
  | reset token new => exact .void (.of_mintless (.reset token new))
  | grantAttributes accessToken targetId input =>
      exact .void (.of_mintless (.grantAttributes accessToken targetId input))
  | assignRole accessToken targetId input =>
      exact .void (.of_mintless (.assignRole accessToken targetId input))
  | removeRole accessToken targetId input =>
      exact .void (.of_mintless (.removeRole accessToken targetId input))
  | createDepartment accessToken input => exact .void (.of_mintless (.createDepartment accessToken input))
  | createCompartment accessToken input =>
      exact .void (.of_mintless (.createCompartment accessToken input))
  | setUserMemberships accessToken userId memberships =>
      exact .of_mintless (.setUserMemberships accessToken userId memberships)
  | setUserCompartments accessToken userId keys =>
      exact .of_mintless (.setUserCompartments accessToken userId keys)

/-! ## Operations and the session store -/

/-- The refresh token and the family id drawn for a request are not in use. -/
def Unused (draws : Draws) (log : Log) : Prop :=
  ¬ Minted log draws.token ∧ ∀ userId instant, ¬ Opened log userId draws.familyId instant

theorem RedisCall.fresh (moved : RedisCall S w w') :
    S.machine.Continues Fresh w.sessions w'.sessions := by
  cases moved with
  | idle sessions _ =>
      rw [sessions]
      exact .refl
  | revokes call silent _ sessions _ =>
      rw [sessions]
      refine Machine.Continues.perform .refl ?_
      cases call with
      | createSession _ _ _ => cases silent
      | rotate _ _ => cases silent
      | revoke _ => trivial
      | revokeUser _ => trivial
      | elapse _ => trivial
  | storeReset _ _ sessions _ =>
      rw [sessions]
      exact .refl
  | takeReset _ sessions _ =>
      rw [sessions]
      exact .refl

/-- A call that mints nothing uses no draws. -/
theorem RedisCall.unused (unused : Unused draws w.sessions.log) (moved : RedisCall S w w') :
    Unused draws w'.sessions.log := by
  cases moved with
  | idle sessions _ => rwa [sessions]
  | storeReset _ _ sessions _ => rwa [sessions]
  | takeReset _ sessions _ => rwa [sessions]
  | revokes call silent _ sessions _ =>
      rw [sessions]
      refine ⟨fun minted => ?_, fun userId instant opened => ?_⟩
      · rcases minted_cons.mp minted with mints | earlier
        · rw [S.machine_entry_call, silent] at mints
          cases mints
        · exact unused.1 earlier
      · rcases opened_cons.mp opened with ⟨-, token, opens⟩ | earlier
        · rw [S.machine_entry_call] at opens
          rw [opens] at silent
          cases silent
        · exact unused.2 userId instant earlier

theorem MintCall.fresh (unused : Unused draws w.sessions.log) (moved : MintCall S draws w w') :
    S.machine.Continues Fresh w.sessions w'.sessions := by
  cases moved with
  | createSession userId sessions _ =>
      rw [sessions]
      exact Machine.Continues.perform .refl (e := Call.createSession userId _ _) unused
  | rotate presented sessions _ =>
      rw [sessions]
      exact Machine.Continues.perform .refl (e := Call.rotate presented _) unused.1

/-- An operation with unused draws moves the session store as its own machine does with fresh
randomness. -/
theorem operation_continues {op : Operation} {result : Except ServiceError Unit}
    (run : (op.service S env draws).run w = (result, w')) (unused : Unused draws w.sessions.log) :
    S.machine.Continues Fresh w.sessions w'.sessions := by
  have moved := Prog.OnceAmong.run
    (R := fun w w' : World σ => S.machine.Continues Fresh w.sessions w'.sessions)
    (I := fun w : World σ => Unused draws w.sessions.log) (fun _ => .refl) (fun _ _ _ => .trans)
    (fun _ _ => RedisCall.fresh) (fun _ _ => RedisCall.unused) (fun _ _ => MintCall.fresh)
    (operation_calls op : MintsOnce S draws (op.service S env draws)) w unused
  rwa [run] at moved

end

end Arac.Mediation
