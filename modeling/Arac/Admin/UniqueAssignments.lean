/-
# Arac.Admin.UniqueAssignments -- role assignments made at the same time

`assignRole` looks for the assignment and creates it if there is none; the two are
separate calls.  The unique index of `UserRole` stops a second row only where both scope
columns are set.  `assignments_unique`: as long as no assignment that a request did not
find is there when the request creates it, no two rows are ever the same assignment and
no request runs into the index.

`Sound` is the invariant: how far each request is, what its lookup saw, and that every
row comes from the start or from a request that has created its own.
-/
import Arac.Admin.Effects
import Arac.Services.Concurrent
import Arac.Sessions.InMemory
import Mathlib.Data.Fintype.Basic

namespace Arac.Admin

open Arac.Theory Arac.Sessions Arac.Db Arac.Service Arac.Rbac

set_option autoImplicit false

/-! ## The requests -/

inductive RoleRequest where
  | assignRole (draws : Draws) (accessToken targetId : String) (input : RoleAssignmentInput)
  | removeRole (accessToken targetId : String) (input : RoleAssignmentInput)

def RoleRequest.service {σ : Type} (S : SessionStore σ) (env : Env) :
    RoleRequest → Service σ AdminUserView
  | .assignRole draws accessToken targetId input =>
      Admin.assignRole S env draws accessToken targetId input
  | .removeRole accessToken targetId input => Admin.removeRole S env accessToken targetId input

/-- The id a request draws for the row it may create. -/
def RoleRequest.rowId : RoleRequest → Option String
  | .assignRole draws _ _ _ => some draws.id.value
  | .removeRole _ _ _ => none

/-- Whom a request is to assign which role. -/
def RoleRequest.assigns : RoleRequest → Option (String × RoleAssignmentInput)
  | .assignRole _ _ targetId input => some (targetId, input)
  | .removeRole _ _ _ => none

/-- What is assigned to whom, and in which scope. -/
def assignmentOf (a : UserRole) : String × String × Option String × Option String :=
  (a.userId, a.roleId, a.scopeTenant, a.scopeDepartment)

/-- No two rows are the same assignment. -/
def Unrepeated (t : Tables) : Prop := (t.userRoles.map assignmentOf).Nodup

section

variable {σ ι : Type} [DecidableEq ι] (requests : ι → RoleRequest)

/-- The row of this assignment in the state that a call met. -/
def assignmentMet (e : Made ι (World σ)) (targetId : String) (input : RoleAssignmentInput)
    (role : Role) : Option UserRole :=
  e.met.db.findAssignment targetId role.id input.scopeTenant input.scopeDepartment

/-- An assignment that a request did not find, in its seventh call, is not there in its
next call either. -/
def Undisturbed (trace : List (Made ι (World σ))) : Prop :=
  ∀ i, ∀ request ∈ (requests i).assigns,
    ∀ sought ∈ (Pool.callsOf trace i)[6]?, ∀ next ∈ (Pool.callsOf trace i)[7]?,
      ∀ role ∈ sought.met.db.roleByName request.2.roleName,
        assignmentMet sought request.1 request.2 role = none →
          assignmentMet next request.1 request.2 role = none

instance [Fintype ι] (trace : List (Made ι (World σ))) : Decidable (Undisturbed requests trace) :=
  inferInstanceAs (Decidable (∀ _, ∀ _ ∈ _, ∀ _ ∈ _, ∀ _ ∈ _, ∀ _ ∈ _, _ → _))

/-- The ids drawn are new and distinct. -/
structure FreshIds (t : Tables) : Prop where
  unused : ∀ i id, (requests i).rowId = some id → id ∉ t.userRoles.map UserRole.id
  distinct : ∀ i j id, (requests i).rowId = some id → (requests j).rowId = some id → i = j

variable {requests}

/-- What was undisturbed so far is so at every earlier time. -/
theorem Undisturbed.earlier {e : Made ι (World σ)} {trace : List (Made ι (World σ))}
    (undisturbed : Undisturbed requests (e :: trace)) : Undisturbed requests trace := by
  intro i request assigns sought seventh next eighth role
  exact undisturbed i request assigns sought (Pool.callsOf_cons_some seventh) next
    (Pool.callsOf_cons_some eighth) role

end

/-! ## Phases -/

inductive RolePhase where
  /-- So many calls were made, none of them a write. -/
  | made (n : Nat)
  /-- The lookup did not find the assignment of this role. -/
  | absent (role : Role)
  | settled
  /-- The row was refused by a unique key. -/
  | clashed

section

variable {σ : Type} (S : SessionStore σ) (env : Env)

inductive RoleMove : RoleRequest → RolePhase → World σ → World σ → RolePhase → Prop
  | reads (r : RoleRequest) (w : World σ) (n : Nat) : RoleMove r (.made n) w w (.made (n + 1))
  | ends (r : RoleRequest) (w : World σ) (n : Nat) : RoleMove r (.made n) w w .settled
  | misses {draws : Draws} {accessToken targetId : String} {input : RoleAssignmentInput}
      {w : World σ} {role : Role} (named : w.db.roleByName input.roleName = some role)
      (missing : w.db.findAssignment targetId role.id input.scopeTenant input.scopeDepartment =
        none) :
      RoleMove (.assignRole draws accessToken targetId input) (.made 6) w w (.absent role)
  | creates {draws : Draws} {accessToken targetId : String} {input : RoleAssignmentInput}
      {w : World σ} {role : Role} {db : Database}
      (ok : w.db.userRoleCreate (assigned draws targetId role input) = .ok db) :
      RoleMove (.assignRole draws accessToken targetId input) (.absent role) w { w with db } .settled
  | clashes {draws : Draws} {accessToken targetId : String} {input : RoleAssignmentInput}
      {w : World σ} {role : Role}
      (refused : w.db.userRoleCreate (assigned draws targetId role input) =
        .error .uniqueConstraint) :
      RoleMove (.assignRole draws accessToken targetId input) (.absent role) w w .clashed
  | fails (r : RoleRequest) (w : World σ) (role : Role) : RoleMove r (.absent role) w w .settled
  | deletes {accessToken targetId : String} {input : RoleAssignmentInput} (w : World σ) (n : Nat)
      (role : Role) :
      RoleMove (.removeRole accessToken targetId input) (.made n) w
        { w with
          db := w.db.userRoleDeleteMany targetId role.id input.scopeTenant input.scopeDepartment }
        .settled
  | after (r : RoleRequest) {w w' : World σ} (db : w'.db = w.db) : RoleMove r .settled w w' .settled

/-- A request that failed on a unique key has clashed. -/
def RoleEnds (r : Except ServiceError AdminUserView) (φ : RolePhase) : Prop :=
  r = .error (.prisma .uniqueConstraint) → φ = .clashed

/-- The error is not one of the database client. -/
def NotPrisma (e : ServiceError) : Prop := ∀ error, e ≠ .prisma error

/-! ### The scope check -/

theorem raises_can (userId permission : String) (target : Option Scope) :
    (can userId permission target : Service σ Bool).Raises NotPrisma := by
  unfold can effectiveGrants
  refine .bind (.bind (.call _) fun assignments => ?_) fun grants => ?_
  · split
    · exact .pure _
    · refine .bind (.call _) fun roles => .ofExcept ?_
      intro e failed error same
      rw [expandGrants_error failed] at same
      cases same
  · simp only
    split
    · exact .pure _
    · refine .bind (.call _) fun user => ?_
      cases user <;> exact .pure _

/-- A check that passes makes three calls. -/
theorem can_follows {I : World σ → Prop} (r : RoleRequest) (n : Nat) (userId permission : String)
    (target : Option Scope) :
    (can userId permission target : Service σ Bool).Follows I (RoleMove r)
      (fun b φ => ∃ k, φ = .made k ∧ (b = .ok true → k = n + 3)) (.made n) := by
  have read : ∀ {α : Type} (f : Tables → α) (k : Nat), (query f : Service σ α).Follows I (RoleMove r)
      (fun _ φ => φ = .made (k + 1)) (.made k) :=
    fun f k => .call fun w _ => ⟨_, .reads r w k, rfl⟩
  unfold can effectiveGrants
  refine .bind (D := fun grants φ => ∃ k, φ = .made k ∧
    (∀ gs, grants = .ok gs → gs ≠ [] → k = n + 2)) ?_ ?_ ?_
  · refine .bind (read _ n) ?_ ?_
    · rintro assignments _ rfl
      split
      · refine .pure ⟨n + 1, rfl, ?_⟩
        rintro gs ⟨⟩ some
        exact absurd rfl some
      · refine .bind (read _ (n + 1)) ?_ ?_
        · rintro roles _ rfl
          exact .ofExcept ⟨n + 2, rfl, fun _ _ _ => rfl⟩
        · rintro e _ rfl
          exact ⟨n + 2, rfl, fun gs impossible => by cases impossible⟩
    · rintro e _ rfl
      exact ⟨n + 1, rfl, fun gs impossible => by cases impossible⟩
  · rintro grants _ ⟨k, rfl, count⟩
    simp only
    split
    · exact .pure ⟨k, rfl, fun impossible => by cases impossible⟩
    · rename_i required most
      have two : k = n + 2 := by
        apply count grants rfl
        rintro rfl
        simp at most
      subst two
      refine .bind (read _ (n + 2)) ?_ ?_
      · rintro user _ rfl
        cases user with
        | none => exact .pure ⟨n + 3, rfl, fun _ => rfl⟩
        | some user => exact .pure ⟨n + 3, rfl, fun _ => rfl⟩
      · rintro e _ rfl
        exact ⟨n + 3, rfl, fun impossible => by cases impossible⟩
  · rintro e _ ⟨k, rfl, -⟩
    exact ⟨k, rfl, fun impossible => by cases impossible⟩

/-- The token and the scope of the assignment are checked in four calls. -/
theorem requireAssignScope_follows {I : World σ → Prop} (r : RoleRequest) (accessToken : String)
    (tenant department : Option String) :
    (do
      let callerId ← callerId env accessToken
      requireAssignScope callerId tenant department : Service σ Unit).Follows I (RoleMove r)
      (fun result φ => (∃ k, φ = .made k ∧ (result = .ok () → k = 4)) ∧
        ∀ e, result = .error e → NotPrisma e) (.made 0) := by
  refine .raises ?_ ?_
  · refine .bind (D := fun _ φ => φ = .made 1) ?_ ?_ ?_
    · refine .bind (D := fun _ φ => φ = .made 1) ?_ (fun _ _ here => .pure here) fun _ _ here => here
      refine .bind (D := fun _ φ => φ = .made 1) (.call fun w _ => ⟨_, .reads r w 0, rfl⟩) ?_
        fun _ _ here => here
      intro now φ here
      cases env.verifyAccessToken now accessToken with
      | ok verified => exact .pure here
      | error e => exact .fail here
    · rintro caller _ rfl
      refine .bind (can_follows r 1 caller USERS_ASSIGN_ROLE _) ?_ ?_
      · rintro allowed _ ⟨k, rfl, count⟩
        cases allowed with
        | true => exact .pure ⟨k, rfl, fun _ => count rfl⟩
        | false => exact .fail ⟨k, rfl, fun impossible => by cases impossible⟩
      · rintro e _ ⟨k, rfl, -⟩
        exact ⟨k, rfl, fun impossible => by cases impossible⟩
    · rintro e _ rfl
      exact ⟨1, rfl, fun impossible => by cases impossible⟩
  · refine .bind (.bind (.bind (.call _) fun now => ?_) fun _ => .pure _) fun caller => ?_
    · cases env.verifyAccessToken now accessToken with
      | ok verified => exact .pure _
      | error e => exact .fail fun _ same => by cases same
    · refine .bind (raises_can _ _ _) fun allowed => ?_
      cases allowed with
      | true => exact .pure _
      | false => exact .fail fun _ same => by cases same

/-! ### The requests -/

/-- A read in the checking phase. -/
theorem read_follows {α : Type} {I : World σ → Prop} (r : RoleRequest) (f : Tables → α) (n : Nat) :
    (query f : Service σ α).Follows I (RoleMove r)
      (fun result φ => φ = .made (n + 1) ∧ ∃ w : World σ, I w ∧ result = .ok (f w.db.toTables))
      (.made n) :=
  .call fun w here => ⟨_, .reads r w n, rfl, w, here, rfl⟩

/-- What is done after the writes. -/
theorem revoke_view_follows {I : World σ → Prop} (r : RoleRequest) (targetId : String) :
    (do
      revokeUser S targetId
      view targetId : Service σ AdminUserView).Follows I (RoleMove r) RoleEnds .settled := by
  refine .bind (D := fun result φ => φ = .settled ∧ ∃ a, result = .ok a)
    (.call fun w _ => ⟨_, .after r rfl, rfl, (), rfl⟩) ?_ ?_
  · rintro _ _ ⟨rfl, -⟩
    refine .bind (D := fun result φ => φ = .settled ∧ ∃ a, result = .ok a)
      (.call fun w _ => ⟨_, .after r rfl, rfl, _, rfl⟩) ?_ ?_
    · rintro found _ ⟨rfl, -⟩
      cases found with
      | none => exact .fail fun impossible => by cases impossible
      | some v => exact .pure fun impossible => by cases impossible
    · rintro e _ ⟨rfl, _, impossible⟩
      cases impossible
  · rintro e _ ⟨rfl, _, impossible⟩
    cases impossible

theorem roleByName_of_roles {w w' : World σ} (same : w'.db.roles = w.db.roles) (name : String) :
    w'.db.roleByName name = w.db.roleByName name := by
  rw [Tables.roleByName, Tables.roleByName, same]

/-- The create, where the lookup found nothing, and what is done after it. -/
theorem create_follows {I : World σ → Prop} (draws : Draws) (accessToken targetId : String)
    (input : RoleAssignmentInput) (role : Role) :
    (do
      commit (·.userRoleCreate
        { id := draws.id.value
          userId := targetId
          roleId := role.id
          scopeTenant := input.scopeTenant
          scopeDepartment := input.scopeDepartment })
      revokeUser S targetId
      view targetId : Service σ AdminUserView).Follows I
        (RoleMove (.assignRole draws accessToken targetId input)) RoleEnds (.absent role) := by
  refine .bind (D := fun result φ => (result = .ok () ∧ φ = .settled) ∨
    ∃ e, result = .error (.prisma e) ∧ (e = .uniqueConstraint → φ = .clashed)) ?_ ?_ ?_
  · refine commit_follows (fun w db _ ok => ⟨_, .creates ok, Or.inl ⟨rfl, rfl⟩⟩) ?_
    intro w e _ refused
    cases e with
    | uniqueConstraint => exact ⟨_, .clashes refused, Or.inr ⟨_, rfl, fun _ => rfl⟩⟩
    | foreignKey => exact ⟨_, .fails _ w role, Or.inr ⟨_, rfl, fun same => by cases same⟩⟩
    | recordNotFound => exact ⟨_, .fails _ w role, Or.inr ⟨_, rfl, fun same => by cases same⟩⟩
  · rintro _ _ (⟨-, rfl⟩ | ⟨_, impossible, -⟩)
    · exact revoke_view_follows S _ targetId
    · cases impossible
  · rintro e φ (⟨impossible, -⟩ | ⟨error, refused, clash⟩) unique
    · cases impossible
    · cases refused
      cases unique
      exact clash rfl

theorem assignRole_follows (roles : List Role) (draws : Draws) (accessToken targetId : String)
    (input : RoleAssignmentInput) :
    (assignRole S env draws accessToken targetId input).Follows (fun w => w.db.roles = roles)
      (RoleMove (.assignRole draws accessToken targetId input)) RoleEnds (.made 0) := by
  unfold assignRole
  rw [← Prog.bind_assoc]
  refine .bind (requireAssignScope_follows env _ accessToken input.scopeTenant
    input.scopeDepartment) ?_ ?_
  · rintro _ _ ⟨⟨k, rfl, four⟩, -⟩
    obtain rfl := four rfl
    refine .bind (read_follows _ _ 4) ?_ ?_
    · rintro target _ ⟨rfl, -⟩
      cases target with
      | none => exact .fail fun impossible => by cases impossible
      | some target =>
          refine .bind (read_follows _ _ 5) ?_ ?_
          · rintro found _ ⟨rfl, w, here, read⟩
            cases found with
            | none => exact .fail fun impossible => by cases impossible
            | some role =>
                have named := (Except.ok.inj read).symm
                refine .bind (D := fun result φ => (result = .ok none ∧ φ = .absent role) ∨
                  ((∃ row, result = .ok (some row)) ∧ φ = .settled)) ?_ ?_ ?_
                · refine .call ?_
                  intro w' here'
                  have named' := (roleByName_of_roles (here'.trans here.symm) _).trans named
                  cases missing : w'.db.findAssignment targetId role.id input.scopeTenant
                      input.scopeDepartment with
                  | none => exact ⟨_, .misses named' missing, Or.inl ⟨congrArg Except.ok missing, rfl⟩⟩
                  | some row => exact ⟨_, .ends _ w' 6, Or.inr ⟨⟨row, congrArg Except.ok missing⟩, rfl⟩⟩
                · rintro existing _ (⟨missing, rfl⟩ | ⟨⟨row, present⟩, rfl⟩)
                  · cases missing
                    rw [if_pos rfl]
                    exact create_follows S draws accessToken targetId input role
                  · cases present
                    rw [if_neg (Option.some_ne_none row)]
                    exact revoke_view_follows S _ targetId
                · rintro e φ (⟨impossible, -⟩ | ⟨⟨_, impossible⟩, -⟩) <;> cases impossible
          · rintro e _ ⟨-, _, -, impossible⟩
            cases impossible
    · rintro e _ ⟨-, _, -, impossible⟩
      cases impossible
  · rintro e _ ⟨⟨k, rfl, -⟩, known⟩ unique
    cases unique
    exact absurd rfl (known _ rfl _)

theorem removeRole_follows (roles : List Role) (accessToken targetId : String)
    (input : RoleAssignmentInput) :
    (removeRole S env accessToken targetId input).Follows (fun w => w.db.roles = roles)
      (RoleMove (.removeRole accessToken targetId input)) RoleEnds (.made 0) := by
  unfold removeRole
  rw [← Prog.bind_assoc]
  refine .bind (requireAssignScope_follows env _ accessToken input.scopeTenant
    input.scopeDepartment) ?_ ?_
  · rintro _ _ ⟨⟨k, rfl, -⟩, -⟩
    refine .bind (read_follows _ _ k) ?_ ?_
    · rintro found _ ⟨rfl, -⟩
      cases found with
      | none => exact .fail fun impossible => by cases impossible
      | some role =>
          refine .bind (D := fun result φ => result = .ok () ∧ φ = .settled) ?_ ?_ ?_
          · refine commit_follows ?_ ?_
            · rintro w db _ ⟨⟩
              exact ⟨_, .deletes w (k + 1) role, rfl, rfl⟩
            · intro w e _ impossible
              cases impossible
          · rintro _ _ ⟨-, rfl⟩
            exact revoke_view_follows S _ targetId
          · rintro e _ ⟨impossible, -⟩
            cases impossible
    · rintro e _ ⟨-, _, -, impossible⟩
      cases impossible
  · rintro e _ ⟨⟨k, rfl, -⟩, known⟩ unique
    cases unique
    exact absurd rfl (known _ rfl _)

theorem roleRequest_follows (roles : List Role) (r : RoleRequest) :
    (r.service S env).Follows (fun w => w.db.roles = roles) (RoleMove r) RoleEnds (.made 0) := by
  cases r with
  | assignRole draws accessToken targetId input =>
      exact assignRole_follows S env roles draws accessToken targetId input
  | removeRole accessToken targetId input =>
      exact removeRole_follows S env roles accessToken targetId input

end

/-! ## The invariant -/

section

variable {σ ι : Type} [DecidableEq ι] {requests : ι → RoleRequest} {before : Tables}
  {φ : ι → RolePhase} {φ' : RolePhase} {w w' : World σ} {trace : List (Made ι (World σ))} {i : ι}

structure Sound (requests : ι → RoleRequest) (before : Tables) (φ : ι → RolePhase) (w : World σ)
    (trace : List (Made ι (World σ))) : Prop where
  made : ∀ i n, φ i = .made n → (Pool.callsOf trace i).length = n
  absent : ∀ i role, φ i = .absent role → (Pool.callsOf trace i).length = 7 ∧
    ∀ draws accessToken targetId input,
      requests i = .assignRole draws accessToken targetId input →
      ∃ sought, (Pool.callsOf trace i)[6]? = some sought ∧
        sought.met.db.roleByName input.roleName = some role ∧
        sought.met.db.findAssignment targetId role.id input.scopeTenant input.scopeDepartment = none
  /-- A row comes from the start or from a request that is done creating. -/
  ids : ∀ a ∈ w.db.userRoles, a.id ∈ before.userRoles.map UserRole.id ∨
    ∃ i, φ i = .settled ∧ (requests i).rowId = some a.id
  unrepeated : Unrepeated w.db.toTables
  unclashed : ∀ i, φ i ≠ .clashed

namespace Sound

theorem start (unrepeated : Unrepeated w.db.toTables) :
    Sound requests w.db.toTables (fun _ => .made 0) w [] where
  made i n here := by
    cases here
    rfl
  absent i role impossible := by cases impossible
  ids a row := Or.inl (List.mem_map_of_mem row)
  unrepeated := unrepeated
  unclashed i impossible := by cases impossible

/-- What the bookkeeping of calls asks of the phase that a request moves to. -/
theorem moves (sound : Sound requests before φ w trace)
    (made : ∀ n, φ' = .made n → (Pool.callsOf trace i).length + 1 = n)
    (absent : ∀ role, φ' = .absent role → (Pool.callsOf trace i).length = 6 ∧
      ∀ draws accessToken targetId input,
        requests i = .assignRole draws accessToken targetId input →
        w.db.roleByName input.roleName = some role ∧
        w.db.findAssignment targetId role.id input.scopeTenant input.scopeDepartment = none)
    (settled : φ i = .settled → φ' = .settled)
    (ids : ∀ a ∈ w'.db.userRoles, a ∈ w.db.userRoles ∨
      (φ' = .settled ∧ (requests i).rowId = some a.id))
    (unrepeated : Unrepeated w'.db.toTables) (unclashed : φ' ≠ .clashed) :
    Sound requests before (Function.update φ i φ') w' (⟨i, w, w'⟩ :: trace) := by
  refine { made := ?_, absent := ?_, ids := ?_, unrepeated := unrepeated, unclashed := ?_ }
  · refine Pool.forall_callsOf_cons φ (e := ⟨i, w, w'⟩)
      (q := fun _ ψ calls => ∀ n, ψ = .made n → calls.length = n) sound.made ?_
    intro n here
    rw [List.length_append]
    exact made n here
  · refine Pool.forall_callsOf_cons φ (e := ⟨i, w, w'⟩)
      (q := fun j ψ calls => ∀ role, ψ = .absent role → calls.length = 7 ∧
        ∀ draws accessToken targetId input,
          requests j = .assignRole draws accessToken targetId input →
          ∃ sought, calls[6]? = some sought ∧
            sought.met.db.roleByName input.roleName = some role ∧
            sought.met.db.findAssignment targetId role.id input.scopeTenant input.scopeDepartment =
              none) sound.absent ?_
    intro role here
    obtain ⟨six, saw⟩ := absent role here
    refine ⟨by rw [List.length_append, six]; rfl, ?_⟩
    intro draws accessToken targetId input request
    refine ⟨⟨i, w, w'⟩, ?_, saw draws accessToken targetId input request⟩
    rw [List.getElem?_append_right six.le, six]
    rfl
  · have kept : ∀ j, φ j = .settled → Function.update φ i φ' j = .settled :=
      (Function.forall_update_iff φ fun j ψ => φ j = .settled → ψ = .settled).mpr
        ⟨settled, fun _ _ done => done⟩
    intro a row
    rcases ids a row with old | ⟨done, own⟩
    · refine (sound.ids a old).imp_right ?_
      rintro ⟨j, done, own⟩
      exact ⟨j, kept j done, own⟩
    · exact Or.inr ⟨i, by rw [Function.update_self]; exact done, own⟩
  · exact (Function.forall_update_iff φ fun _ ψ => ψ ≠ .clashed).mpr
      ⟨unclashed, fun j _ => sound.unclashed j⟩

/-- The id a request has drawn is not taken while it has not created its row. -/
theorem id_fresh (sound : Sound requests before φ w trace) (fresh : FreshIds requests before)
    {id : String} (own : (requests i).rowId = some id) (unsettled : φ i ≠ .settled) :
    id ∉ w.db.userRoles.map UserRole.id := by
  intro taken
  obtain ⟨a, row, rfl⟩ := List.mem_map.mp taken
  rcases sound.ids a row with old | ⟨j, done, theirs⟩
  · exact fresh.unused i a.id own old
  · obtain rfl := fresh.distinct i j a.id own theirs
    exact unsettled done

/-- Where nobody has made the assignment since, it is not there when it is created. -/
theorem still_absent (sound : Sound requests before φ w trace)
    (undisturbed : Undisturbed requests (⟨i, w, w'⟩ :: trace)) {draws : Draws}
    {accessToken targetId : String} {input : RoleAssignmentInput} {role : Role}
    (request : requests i = .assignRole draws accessToken targetId input)
    (here : φ i = .absent role) :
    w.db.findAssignment targetId role.id input.scopeTenant input.scopeDepartment = none := by
  obtain ⟨seven, saw⟩ := sound.absent i role here
  obtain ⟨sought, seventh, named, missing⟩ := saw draws accessToken targetId input request
  refine undisturbed i (targetId, input) (by rw [request]; rfl) sought
    (Pool.callsOf_cons_some seventh) ⟨i, w, w'⟩ ?_ role named missing
  have mine : Pool.callsOf (⟨i, w, w'⟩ :: trace) i = Pool.callsOf trace i ++ [⟨i, w, w'⟩] :=
    Pool.callsOf_cons_self ⟨i, w, w'⟩ trace
  rw [mine, List.getElem?_append_right (by omega), seven]
  rfl

/-- One more row that is no repetition. -/
theorem unrepeated_append {db db' : Database} {row : UserRole} (unrepeated : Unrepeated db.toTables)
    (absent : db.findAssignment row.userId row.roleId row.scopeTenant row.scopeDepartment = none)
    (ok : db.userRoleCreate row = .ok db') : Unrepeated db'.toTables := by
  rw [Unrepeated, Database.userRoleCreate_ok ok]
  refine nodup_map_append unrepeated ?_
  intro listed
  obtain ⟨a, member, same⟩ := List.mem_map.mp listed
  have differs := List.find?_eq_none.mp absent a member
  simp only [assignmentOf, Prod.mk.injEq] at same
  simp [same] at differs

/-- Every call keeps the invariant. -/
theorem call (sound : Sound requests before φ w trace) (fresh : FreshIds requests before)
    (undisturbed : Undisturbed requests (⟨i, w, w'⟩ :: trace))
    (moved : RoleMove (requests i) (φ i) w w' φ') :
    Sound requests before (Function.update φ i φ') w' (⟨i, w, w'⟩ :: trace) := by
  generalize request : requests i = r at moved
  generalize here : φ i = ψ at moved
  have same : ∀ a ∈ w.db.userRoles, a ∈ w.db.userRoles ∨
      (φ' = .settled ∧ (requests i).rowId = some a.id) := fun a row => Or.inl row
  cases moved with
  | reads _ _ n =>
      refine sound.moves ?_ (by simp) (by simp [here]) same sound.unrepeated (by simp)
      rintro m ⟨⟩
      rw [sound.made i n here]
  | ends => exact sound.moves (by simp) (by simp) (by simp) same sound.unrepeated (by simp)
  | misses named missing =>
      refine sound.moves (by simp) ?_ (by simp [here]) same sound.unrepeated (by simp)
      rintro role ⟨⟩
      refine ⟨sound.made i 6 here, ?_⟩
      intro draws accessToken targetId input request'
      rw [request] at request'
      cases request'
      exact ⟨named, missing⟩
  | creates ok =>
      have missing := sound.still_absent undisturbed request here
      refine sound.moves (by simp) (by simp) (by simp) ?_ (unrepeated_append sound.unrepeated missing ok)
        (by simp)
      intro a row
      simp only [Database.userRoleCreate_ok ok, List.mem_append, List.mem_singleton] at row
      rcases row with old | rfl
      · exact Or.inl old
      · exact Or.inr ⟨rfl, by rw [request]; rfl⟩
  | clashes refused =>
      -- neither the drawn id nor the assignment is there
      have missing := sound.still_absent undisturbed request here
      have unused := sound.id_fresh fresh (i := i) (by rw [request]; rfl) (by simp [here])
      exact absurd refused (Database.userRoleCreate_unclashed unused missing)
  | fails => exact sound.moves (by simp) (by simp) (by simp) same sound.unrepeated (by simp)
  | deletes =>
      refine sound.moves (by simp) (by simp) (by simp) ?_ ?_ (by simp)
      · intro a row
        exact Or.inl (List.mem_of_mem_filter row)
      · exact (List.filter_sublist.map assignmentOf).nodup sound.unrepeated
  | after _ db =>
      refine sound.moves (by simp) (by simp) (by simp) ?_ ?_ (by simp)
      · intro a row
        rw [db] at row
        exact Or.inl row
      · rw [db]
        exact sound.unrepeated

end Sound

end

/-! ## Whole runs -/

/-- In a run of any requests for and against roles, where no assignment that a request
did not find is there when it creates it: no two rows are ever the same assignment, and no
request fails on a unique key. -/
theorem assignments_unique {σ ι : Type} [DecidableEq ι] {S : SessionStore σ} {env : Env}
    {requests : ι → RoleRequest} {w₀ : World σ}
    {P : Pool ι (World σ) ServiceError AdminUserView} (unrepeated : Unrepeated w₀.db.toTables)
    (fresh : FreshIds requests w₀.db.toTables)
    (run : Pool.Run (TimePasses S) Always
      (Pool.start (fun i => (requests i).service S env) w₀) P)
    (undisturbed : Undisturbed requests P.trace) :
    Unrepeated P.state.db.toTables ∧ ∀ i, ¬ P.Ended i (.error (.prisma .uniqueConstraint)) := by
  have reached := Pool.Run.invariant (Φ := RolePhase)
    (I := fun _ w => w.db.roles = w₀.db.roles) (T := fun i => RoleMove (requests i))
    (D := fun _ => RoleEnds)
    (J := fun φ w trace => w.db.roles = w₀.db.roles ∧
      (Undisturbed requests trace → Sound requests w₀.db.toTables φ w trace))
    (fun _ _ _ _ inv _ => inv.1) ?_ ?_ (fun _ => .made 0) ?_ ?_ run
  · obtain ⟨φ, ⟨-, sound⟩, follows⟩ := reached
    refine ⟨(sound undisturbed).unrepeated, ?_⟩
    intro i ended
    exact (sound undisturbed).unclashed i ((follows i).ends ended rfl)
  · rintro φ w trace i w' φ' ⟨roles, sound⟩ - moved
    refine ⟨?_, fun undisturbed => (sound undisturbed.earlier).call fresh undisturbed moved⟩
    generalize φ i = ψ at moved
    generalize requests i = r at moved
    cases moved with
    | creates ok =>
        rw [Database.userRoleCreate_ok ok]
        exact roles
    | after _ db =>
        rw [db]
        exact roles
    | _ => exact roles
  · rintro φ w trace _ ⟨roles, sound⟩ ⟨ms, rfl⟩
    refine ⟨roles, fun undisturbed => ?_⟩
    obtain ⟨made, absent, ids, unrepeated, unclashed⟩ := sound undisturbed
    exact ⟨made, absent, ids, unrepeated, unclashed⟩
  · exact fun i => roleRequest_follows S env w₀.db.roles (requests i)
  · exact ⟨rfl, fun _ => .start unrepeated⟩

/-! ## One global assignment, made twice -/

/-- Both requests make the same user a global administrator of users. -/
def promoting : Bool → RoleRequest
  | false => .assignRole sampleDraws "admin@acme.test" "hr@acme.test" ⟨"user-admin", none, none⟩
  | true => .assignRole { sampleDraws with id := ⟨"c2", by decide⟩ } "admin@acme.test"
      "hr@acme.test" ⟨"user-admin", none, none⟩

def promoted (schedule : List Bool) : Pool Bool (World InMemorySessions) ServiceError AdminUserView :=
  Pool.play Always (Pool.start (fun i => (promoting i).service
    (inMemorySessionStore sampleSha256 .default) sampleEnv) (World.fresh .empty 0 staffed)) schedule

theorem promoting_fresh : FreshIds promoting staffed.toTables where
  unused := by
    intro i id own
    cases i <;> cases own <;> decide
  distinct := by
    intro i j id own own'
    have same := own.trans own'.symm
    cases i <;> cases j <;> first | rfl | exact absurd same (by decide)

instance (t : Tables) : Decidable (Unrepeated t) := inferInstanceAs (Decidable (List.Nodup _))

/-- One after the other. -/
theorem assignments_unique_sequential :
    Unrepeated (promoted (List.replicate 10 false ++ List.replicate 10 true)).state.db.toTables :=
  (assignments_unique (by decide +kernel) promoting_fresh (Pool.run_play _ _)
    (by decide +kernel)).1

/-- Both look before either creates: the index lets the second row in. -/
theorem not_always_unrepeated : ¬ ∀ {σ ι : Type} [DecidableEq ι] (S : SessionStore σ) (env : Env)
    (requests : ι → RoleRequest) (w₀ : World σ)
    (P : Pool ι (World σ) ServiceError AdminUserView), Unrepeated w₀.db.toTables →
      FreshIds requests w₀.db.toTables →
      Pool.Run (TimePasses S) Always (Pool.start (fun i => (requests i).service S env) w₀) P →
      Unrepeated P.state.db.toTables ∧ ∀ i, ¬ P.Ended i (.error (.prisma .uniqueConstraint)) := by
  intro always
  have unique := (always (inMemorySessionStore sampleSha256 .default) sampleEnv promoting
    (World.fresh .empty 0 staffed)
    (promoted (List.replicate 7 false ++ List.replicate 7 true ++ [false, true]))
    (by decide +kernel) promoting_fresh (Pool.run_play _ _)).1
  revert unique
  decide +kernel

end Arac.Admin
