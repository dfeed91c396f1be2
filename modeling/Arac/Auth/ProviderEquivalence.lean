/-
# Arac.Auth.ProviderEquivalence -- the two user stores answer alike

A run of an `IdentityProvider` is a list of calls, each made when the one before it has
answered, with the answer it got.  `providers_agree_iff`: of the calls of a run over the
database, whatever else happens between them to the other tables, the sessions and the
clock, the in-memory store gives the same answers, call by call, exactly when every
`changePassword` is for an account that is there.  For any other the database fails and the
maps say nothing.  (Of two signups at the same time `Arac.Auth.OneAccount` says when they
differ.)

* `UserStore`, `ProviderCall`: the whole interface, with `changePassword`.
* `Alike`: the two maps hold what the table holds.
* `corresponds`: one call on both stores.
-/
import Arac.Auth.InMemoryIdentity
import Arac.Db.Seed
import Arac.Services.Token
import Arac.Sessions.InMemory

namespace Arac.Auth

open Arac.Theory Arac.Sessions Arac.Db Arac.Service

set_option autoImplicit false

/-! ## The interface -/

structure UserStore (τ : Type) extends Provider τ where
  changePassword : Draws → (userId newPassword : String) → Prog τ ServiceError Unit

namespace InMemoryIdentity

/-- `user.passwordHash = passwordHash` on the object that both maps hold. -/
def setPasswordHash (p : InMemoryIdentity) (user : User) (passwordHash : String) :
    InMemoryIdentity :=
  let assign (u : User) : User := if u.id = user.id then { u with passwordHash } else u
  { p with byId := fun id => (p.byId id).map assign, byEmail := fun e => (p.byEmail e).map assign }

/-- The accounts of the rows, under both keys. -/
def ofRows (t : Tables) (decoyHash : String) : InMemoryIdentity where
  byId id := (t.userById id).map toUser
  byEmail email := (t.userByEmail email).map toUser
  decoyHash

end InMemoryIdentity

def InMemoryIdentityProvider.changePassword (env : Env) (draws : Draws)
    (userId newPassword : String) : Prog InMemoryIdentity ServiceError Unit := do
  match ← Prog.call fun p => (p.byId userId, p) with
  | none => return ()
  | some user =>
      -- other calls run while the password is hashed
      Prog.call fun p => ((), p.setPasswordHash user (env.argon2Hash newPassword draws.salt))

section

variable {σ : Type} (env : Env)

def prismaUserStore : UserStore (World σ) where
  toProvider := prismaIdentityProvider env
  changePassword := IdentityProvider.changePassword env

def inMemoryUserStore : UserStore InMemoryIdentity where
  toProvider := inMemoryIdentityProvider env
  changePassword := InMemoryIdentityProvider.changePassword env

end

inductive ProviderCall where
  | findById (id : String)
  | verifyCredentials (email password : String)
  | createUser (draws : Draws) (input : CreateUserInput)
  | changePassword (draws : Draws) (userId newPassword : String)

inductive ProviderAnswer where
  | user (found : Option User)
  | done
  deriving DecidableEq

/-- The call, made at once. -/
def ProviderCall.on {τ : Type} (I : UserStore τ) : ProviderCall → Prog τ ServiceError ProviderAnswer
  | .findById id => do return .user (← I.findById id)
  | .verifyCredentials email password => do return .user (← I.verifyCredentials email password)
  | .createUser draws input => do return .user (← I.createUser draws input)
  | .changePassword draws userId newPassword => do
      I.changePassword draws userId newPassword
      return .done

/-- A call with its answer. -/
structure Answered where
  call : ProviderCall
  answer : Except ServiceError ProviderAnswer

/-- The calls one after the other; in between the state moves by `other`. -/
inductive UserStore.Answers {τ : Type} (I : UserStore τ) (other : τ → τ → Prop) :
    τ → List Answered → τ → Prop
  | nil (s : τ) : Answers I other s [] s
  | moves {s s' s'' : τ} {log : List Answered} (moved : other s s')
      (later : Answers I other s' log s'') : Answers I other s log s''
  | call {s s' s'' : τ} {c : ProviderCall} {answer : Except ServiceError ProviderAnswer}
      {log : List Answered} (made : (c.on I).run s = (answer, s'))
      (later : Answers I other s' log s'') : Answers I other s (⟨c, answer⟩ :: log) s''

/-- The run in which nothing happens between the calls. -/
def UserStore.answers {τ : Type} (I : UserStore τ) : τ → List ProviderCall → List Answered × τ
  | s, [] => ([], s)
  | s, c :: calls =>
      let (answer, s') := (c.on I).run s
      let (later, s'') := I.answers s' calls
      (⟨c, answer⟩ :: later, s'')

theorem UserStore.answers_calls {τ : Type} (I : UserStore τ) (calls : List ProviderCall) (s : τ) :
    (I.answers s calls).1.map Answered.call = calls := by
  induction calls generalizing s with
  | nil => rfl
  | cons c calls ih => exact congrArg (c :: ·) (ih _)

theorem UserStore.answers_run {τ : Type} (I : UserStore τ) (other : τ → τ → Prop)
    (calls : List ProviderCall) (s : τ) :
    I.Answers other s (I.answers s calls).1 (I.answers s calls).2 := by
  induction calls generalizing s with
  | nil => exact .nil s
  | cons c calls ih => exact .call rfl (ih _)

/-! ## What both hold -/

/-- The two maps hold what the table holds, and no account is disabled. -/
structure Alike (p : InMemoryIdentity) (db : Database) : Prop where
  active : ∀ row ∈ db.users, row.status = .active
  byId : ∀ id user, p.byId id = some user ↔ ∃ row ∈ db.users, row.id = id ∧ toUser row = user
  byEmail : ∀ email user,
    p.byEmail email = some user ↔ ∃ row ∈ db.users, row.email = email ∧ toUser row = user

/-- What moves between two calls and is none of the store's business. -/
def SameUsers {σ : Type} (w w' : World σ) : Prop := w'.db.users = w.db.users

namespace Alike

variable {p : InMemoryIdentity} {db db' : Database}

theorem of_users (alike : Alike p db) (same : db'.users = db.users) : Alike p db' :=
  ⟨fun row member => alike.active row (same ▸ member), by simpa only [same] using alike.byId,
    by simpa only [same] using alike.byEmail⟩

/-- The maps filled from the table. -/
theorem ofRows {db : Database} (active : ∀ row ∈ db.users, row.status = .active)
    (decoyHash : String) : Alike (InMemoryIdentity.ofRows db.toTables decoyHash) db where
  active := active
  byId id user := by
    simp only [InMemoryIdentity.ofRows, Option.map_eq_some_iff, Database.userById_eq_some, and_assoc]
  byEmail email user := by
    simp only [InMemoryIdentity.ofRows, Option.map_eq_some_iff, Database.userByEmail_eq_some, and_assoc]

theorem found_byId (alike : Alike p db) (id : String) :
    (db.activeUserById id).map toUser = p.byId id := by
  have lookup : ∀ row, db.activeUserById id = some row ↔
      row ∈ db.users ∧ row.id = id ∧ row.status = .active := fun _ =>
    find?_keyed_eq_some db.valid.user_id fun _ => decide_eq_true_iff
  apply Option.ext
  intro user
  rw [alike.byId, Option.map_eq_some_iff]
  constructor
  · rintro ⟨row, found, rfl⟩
    obtain ⟨member, same, -⟩ := (lookup row).mp found
    exact ⟨row, member, same, rfl⟩
  · rintro ⟨row, member, same, rfl⟩
    exact ⟨row, (lookup row).mpr ⟨member, same, alike.active row member⟩, rfl⟩

theorem found_byEmail (alike : Alike p db) (email : String) :
    (db.activeUserByEmail email).map toUser = p.byEmail email := by
  apply Option.ext
  intro user
  rw [alike.byEmail, Option.map_eq_some_iff]
  constructor
  · rintro ⟨row, found, rfl⟩
    obtain ⟨member, same, -⟩ := Database.activeUserByEmail_eq_some.mp found
    exact ⟨row, member, same, rfl⟩
  · rintro ⟨row, member, same, rfl⟩
    exact ⟨row, Database.activeUserByEmail_eq_some.mpr ⟨member, same, alike.active row member⟩, rfl⟩

theorem known_id (alike : Alike p db) {id : String} :
    (p.byId id).isSome ↔ id ∈ db.userIds := by
  rw [Option.isSome_iff_exists]
  simp only [alike.byId, Tables.userIds, List.mem_map]
  constructor
  · rintro ⟨_, row, member, same, -⟩
    exact ⟨row, member, same⟩
  · rintro ⟨row, member, same⟩
    exact ⟨_, row, member, same, rfl⟩

theorem known_email (alike : Alike p db) {email : String} :
    (p.byEmail email).isSome ↔ email ∈ db.users.map Db.User.email := by
  rw [Option.isSome_iff_exists]
  simp only [alike.byEmail, List.mem_map]
  constructor
  · rintro ⟨_, row, member, same, -⟩
    exact ⟨row, member, same⟩
  · rintro ⟨row, member, same⟩
    exact ⟨_, row, member, same, rfl⟩

/-- An account for a new row. -/
theorem insert (alike : Alike p db) {row : Db.User} (active : row.status = .active)
    (created : db.userCreate row = .ok db') : Alike (p.insert row.email (toUser row)) db' := by
  have new_id := (Database.userCreate_ok created).2
  have new_email := Database.userCreate_email created
  have users : db'.users = db.users ++ [row] := by rw [(Database.userCreate_ok created).1]
  have listed : ∀ r, r ∈ db'.users ↔ r ∈ db.users ∨ r = row := by simp [users]
  refine ⟨fun r member => ?_, fun id user => ?_, fun email user => ?_⟩
  · rcases (listed r).mp member with old | rfl
    · exact alike.active r old
    · exact active
  · simp only [listed]
    by_cases same : id = row.id
    · subst same
      rw [show (p.insert row.email (toUser row)).byId row.id = some (toUser row) from
        p.insert_byId_self row.email (toUser row), Option.some.injEq]
      constructor
      · rintro rfl
        exact ⟨row, Or.inr rfl, rfl, rfl⟩
      · rintro ⟨r, old | rfl, same, rfl⟩
        · exact absurd (List.mem_map.mpr ⟨r, old, same⟩) new_id
        · rfl
    · rw [InMemoryIdentity.insert_byId_ne row.email same, alike.byId]
      constructor
      · rintro ⟨r, old, rest⟩
        exact ⟨r, Or.inl old, rest⟩
      · rintro ⟨r, old | rfl, rest⟩
        · exact ⟨r, old, rest⟩
        · exact absurd rest.1.symm same
  · simp only [listed]
    by_cases same : email = row.email
    · subst same
      rw [InMemoryIdentity.insert_byEmail_self, Option.some.injEq]
      constructor
      · rintro rfl
        exact ⟨row, Or.inr rfl, rfl, rfl⟩
      · rintro ⟨r, old | rfl, same, rfl⟩
        · exact absurd (List.mem_map.mpr ⟨r, old, same⟩) new_email
        · rfl
    · rw [InMemoryIdentity.insert_byEmail_ne (toUser row) same, alike.byEmail]
      constructor
      · rintro ⟨r, old, rest⟩
        exact ⟨r, Or.inl old, rest⟩
      · rintro ⟨r, old | rfl, rest⟩
        · exact ⟨r, old, rest⟩
        · exact absurd rest.1.symm same

/-- The new hash goes into the row and into the object that both maps hold. -/
theorem rehash (alike : Alike p db) {user : User} {passwordHash : String}
    (updated : db.userUpdate user.id { passwordHash := some passwordHash } = .ok db') :
    Alike (p.setPasswordHash user passwordHash) db' := by
  have users := congrArg Tables.users (Database.userUpdate_ok updated)
  have assigned : ∀ row : Db.User, toUser (if row.id = user.id
      then row.update { passwordHash := some passwordHash } else row) =
        if (toUser row).id = user.id then { toUser row with passwordHash } else toUser row := by
    intro row
    rw [apply_ite toUser]
    rfl
  have columns : ∀ row : Db.User, (if row.id = user.id
      then row.update { passwordHash := some passwordHash } else row).id = row.id ∧
      (if row.id = user.id
        then row.update { passwordHash := some passwordHash } else row).email = row.email ∧
      (if row.id = user.id
        then row.update { passwordHash := some passwordHash } else row).status = row.status := by
    intro row
    split <;> exact ⟨rfl, rfl, rfl⟩
  refine ⟨?_, fun id found => ?_, fun email found => ?_⟩
  · rw [users]
    intro row member
    obtain ⟨old, there, rfl⟩ := List.mem_map.mp member
    exact (columns old).2.2.trans (alike.active old there)
  · rw [users]
    simp only [InMemoryIdentity.setPasswordHash, Option.map_eq_some_iff, alike.byId, List.mem_map]
    constructor
    · rintro ⟨_, ⟨row, member, same, rfl⟩, rfl⟩
      exact ⟨_, ⟨row, member, rfl⟩, (columns row).1.trans same, assigned row⟩
    · rintro ⟨_, ⟨row, member, rfl⟩, same, rfl⟩
      exact ⟨_, ⟨row, member, (columns row).1.symm.trans same, rfl⟩, (assigned row).symm⟩
  · rw [users]
    simp only [InMemoryIdentity.setPasswordHash, Option.map_eq_some_iff, alike.byEmail, List.mem_map]
    constructor
    · rintro ⟨_, ⟨row, member, same, rfl⟩, rfl⟩
      exact ⟨_, ⟨row, member, rfl⟩, (columns row).2.1.trans same, assigned row⟩
    · rintro ⟨_, ⟨row, member, rfl⟩, same, rfl⟩
      exact ⟨_, ⟨row, member, (columns row).2.1.symm.trans same, rfl⟩, (assigned row).symm⟩

end Alike

/-! ## One call on both -/

/-- The call has given an account this id. -/
def Answered.creates (a : Answered) (id : String) : Prop :=
  ∃ draws input user, a.call = .createUser draws input ∧ a.answer = .ok (.user (some user)) ∧
    draws.id.value = id

/-- A `changePassword` is for an account that was there or has been created since. -/
def Answered.Addressed (p : InMemoryIdentity) (earlier : List Answered) (a : Answered) : Prop :=
  ∀ draws userId newPassword, a.call = .changePassword draws userId newPassword →
    (p.byId userId).isSome ∨ ∃ b ∈ earlier, b.creates userId

/-- The id that a `createUser` has drawn. -/
def ProviderCall.drawn : ProviderCall → Option String
  | .createUser draws _ => some draws.id.value
  | _ => none

section

variable {σ : Type} {env : Env} {p : InMemoryIdentity} {w : World σ}

/-- The call on both stores: the answers are the same unless it is for an unknown account, and
the stores are left alike. -/
structure Corresponds (env : Env) (p : InMemoryIdentity) (w : World σ) (c : ProviderCall) :
    Prop where
  answers : ((c.on (inMemoryUserStore env)).run p).1 = ((c.on (prismaUserStore env)).run w).1 ↔
    Answered.Addressed p [] ⟨c, ((c.on (prismaUserStore env)).run w).1⟩
  alike : Alike ((c.on (inMemoryUserStore env)).run p).2 ((c.on (prismaUserStore env)).run w).2.db
  known : ∀ id, (((c.on (inMemoryUserStore env)).run p).2.byId id).isSome ↔
    (p.byId id).isSome ∨ Answered.creates ⟨c, ((c.on (prismaUserStore env)).run w).1⟩ id

theorem Corresponds.of_runs {c : ProviderCall} {answer answer' : Except ServiceError ProviderAnswer}
    {p' : InMemoryIdentity} {w' : World σ} (maps : (c.on (inMemoryUserStore env)).run p = (answer, p'))
    (table : (c.on (prismaUserStore env)).run w = (answer', w'))
    (answers : answer = answer' ↔ Answered.Addressed p [] ⟨c, answer'⟩) (alike : Alike p' w'.db)
    (known : ∀ id, (p'.byId id).isSome ↔
      (p.byId id).isSome ∨ Answered.creates ⟨c, answer'⟩ id) : Corresponds env p w c := by
  constructor
  · rw [maps, table]
    exact answers
  · rw [maps, table]
    exact alike
  · rw [maps, table]
    exact known

/-- A call that gives the same answer on both and leaves them as they are. -/
theorem Corresponds.reads (alike : Alike p w.db) {c : ProviderCall}
    {answer : Except ServiceError ProviderAnswer}
    (maps : (c.on (inMemoryUserStore env)).run p = (answer, p))
    (table : (c.on (prismaUserStore env)).run w = (answer, w))
    (addressed : Answered.Addressed p [] ⟨c, answer⟩)
    (creates : ∀ id, ¬ Answered.creates ⟨c, answer⟩ id) : Corresponds env p w c :=
  .of_runs maps table (iff_of_true rfl addressed) alike fun id => (or_iff_left (creates id)).symm

theorem corresponds_findById (alike : Alike p w.db) (id : String) :
    Corresponds env p w (.findById id) := by
  have table : ((ProviderCall.findById id).on (prismaUserStore env)).run w =
      (.ok (.user (p.byId id)), w) := by
    rw [← alike.found_byId]
    rfl
  refine .reads alike rfl table ?_ ?_
  · intro _ _ _ other
    cases other
  · rintro _ ⟨_, _, _, other, -⟩
    cases other

theorem corresponds_verifyCredentials (alike : Alike p w.db) (email password : String) :
    Corresponds env p w (.verifyCredentials email password) := by
  have found := alike.found_byEmail (IdentityProvider.normalizeEmail env email)
  have same : ((ProviderCall.verifyCredentials email password).on (prismaUserStore env)).run w =
      (((ProviderCall.verifyCredentials email password).on (inMemoryUserStore env)).run p |>.1, w) := by
    simp only [ProviderCall.on, prismaUserStore, inMemoryUserStore, prismaIdentityProvider,
      inMemoryIdentityProvider, IdentityProvider.verifyCredentials,
      InMemoryIdentityProvider.verifyCredentials, ← found, Prog.bind_assoc, Prog.run_bind, run_query,
      Prog.run_call, Prog.run_pure]
    -- without an account neither store answers with one, whatever its decoy hash
    cases w.db.activeUserByEmail (IdentityProvider.normalizeEmail env email) with
    | none => simp
    | some row => rfl
  refine .reads alike rfl same ?_ ?_
  · intro _ _ _ other
    cases other
  · rintro _ ⟨_, _, _, other, -⟩
    cases other

/-! ### Signing up -/

/-- The row that the call wants to create. -/
def signupRow (env : Env) (draws : Draws) (input : CreateUserInput) (now : Nat) : Db.User :=
  selfSignupRow draws.id.value (IdentityProvider.normalizeEmail env input.email) (trim input.name)
    (env.argon2Hash input.password draws.salt) now

theorem run_createUser_taken {draws : Draws} {input : CreateUserInput} {user : User}
    (taken : p.byEmail (IdentityProvider.normalizeEmail env input.email) = some user) :
    ((ProviderCall.createUser draws input).on (inMemoryUserStore env)).run p =
      (.ok (.user none), p) := by
  simp [ProviderCall.on, inMemoryUserStore, inMemoryIdentityProvider,
    InMemoryIdentityProvider.createUser, Prog.run_bind, taken]

theorem run_createUser_free {draws : Draws} {input : CreateUserInput}
    (free : p.byEmail (IdentityProvider.normalizeEmail env input.email) = none) (now : Nat) :
    ((ProviderCall.createUser draws input).on (inMemoryUserStore env)).run p =
      (.ok (.user (some (toUser (signupRow env draws input now)))),
        p.insert (signupRow env draws input now).email (toUser (signupRow env draws input now))) := by
  simp only [ProviderCall.on, inMemoryUserStore, inMemoryIdentityProvider,
    InMemoryIdentityProvider.createUser, Prog.run_bind, Prog.run_call, free]
  rfl

theorem run_createUser_clash {draws : Draws} {input : CreateUserInput}
    (clash : w.db.userCreate (signupRow env draws input w.now) = .error .uniqueConstraint) :
    ((ProviderCall.createUser draws input).on (prismaUserStore env)).run w =
      (.ok (.user none), w) := by
  rw [signupRow] at clash
  simp [ProviderCall.on, prismaUserStore, prismaIdentityProvider, IdentityProvider.createUser,
    Prog.run_bind, write, writeSelect, PrismaError.code, clash]

theorem run_createUser_created {draws : Draws} {input : CreateUserInput} {db : Database}
    (created : w.db.userCreate (signupRow env draws input w.now) = .ok db) :
    ((ProviderCall.createUser draws input).on (prismaUserStore env)).run w =
      (.ok (.user (some (toUser (signupRow env draws input w.now)))), { w with db }) := by
  rw [signupRow] at created
  simp only [ProviderCall.on, prismaUserStore, prismaIdentityProvider, IdentityProvider.createUser,
    Prog.run_bind, run_clock, write, writeSelect, Prog.run_call, created]
  rfl

theorem corresponds_createUser (alike : Alike p w.db) {draws : Draws} (input : CreateUserInput)
    (fresh : p.byId draws.id.value = none) : Corresponds env p w (.createUser draws input) := by
  let row := signupRow env draws input w.now
  cases taken : p.byEmail (IdentityProvider.normalizeEmail env input.email) with
  | some user =>
      have listed : row.email ∈ w.db.users.map Db.User.email :=
        alike.known_email.mp (Option.isSome_iff_exists.mpr ⟨user, taken⟩)
      have clash : w.db.userCreate row = .error .uniqueConstraint :=
        dif_neg fun free => free.2 listed
      refine .reads alike (run_createUser_taken taken) (run_createUser_clash clash) ?_ ?_
      · intro _ _ _ other
        cases other
      · rintro _ ⟨_, _, _, -, other, -⟩
        cases other
  | none =>
      have new_id : row.id ∉ w.db.userIds := by
        rw [← alike.known_id, show p.byId row.id = none from fresh]
        simp
      have new_email : row.email ∉ w.db.users.map Db.User.email := by
        rw [← alike.known_email, show p.byEmail row.email = none from taken]
        simp
      obtain ⟨db, created⟩ : ∃ db, w.db.userCreate row = .ok db := ⟨_, dif_pos ⟨new_id, new_email⟩⟩
      refine .of_runs (run_createUser_free taken w.now) (run_createUser_created created)
        (iff_of_true rfl ?_) (alike.insert rfl created) fun id => ?_
      · intro _ _ _ other
        cases other
      · by_cases new : id = row.id
        · subst new
          refine iff_of_true (Option.isSome_iff_exists.mpr ⟨_, p.insert_byId_self _ (toUser row)⟩) ?_
          exact Or.inr ⟨draws, input, toUser row, rfl, rfl, rfl⟩
        · rw [InMemoryIdentity.insert_byId_ne _ new]
          refine (or_iff_left ?_).symm
          rintro ⟨_, _, _, same, -, rfl⟩
          cases same
          exact new rfl

/-! ### Changing a password -/

theorem run_changePassword_unknown {userId : String} (found : p.byId userId = none) (draws : Draws)
    (newPassword : String) :
    ((ProviderCall.changePassword draws userId newPassword).on (inMemoryUserStore env)).run p =
      (.ok .done, p) := by
  simp [ProviderCall.on, inMemoryUserStore, InMemoryIdentityProvider.changePassword, Prog.run_bind,
    found]

theorem run_changePassword_known {userId : String} {user : User} (found : p.byId userId = some user)
    (draws : Draws) (newPassword : String) :
    ((ProviderCall.changePassword draws userId newPassword).on (inMemoryUserStore env)).run p =
      (.ok .done, p.setPasswordHash user (env.argon2Hash newPassword draws.salt)) := by
  simp [ProviderCall.on, inMemoryUserStore, InMemoryIdentityProvider.changePassword, Prog.run_bind,
    found]

theorem corresponds_changePassword (alike : Alike p w.db) (draws : Draws)
    (userId newPassword : String) : Corresponds env p w (.changePassword draws userId newPassword) := by
  let update (db : Database) : Except PrismaError Database :=
    db.userUpdate userId { passwordHash := some (env.argon2Hash newPassword draws.salt) }
  have creates : ∀ answer id,
      ¬ Answered.creates ⟨.changePassword draws userId newPassword, answer⟩ id := by
    rintro _ _ ⟨_, _, _, other, -⟩
    cases other
  cases found : p.byId userId with
  | none =>
      have absent : userId ∉ w.db.userIds := by
        rw [← alike.known_id, found]
        simp
      have table : ((ProviderCall.changePassword draws userId newPassword).on
          (prismaUserStore env)).run w = (.error (.prisma .recordNotFound), w) :=
        Prog.run_bind_error (run_commit_error update (if_neg absent)) _
      refine .of_runs (run_changePassword_unknown found draws newPassword) table ?_ alike
        fun id => (or_iff_left (creates _ id)).symm
      refine iff_of_false (fun same => (by cases same)) fun addressed => ?_
      rcases addressed draws userId newPassword rfl with known | ⟨_, none_made, _⟩
      · rw [found] at known
        cases known
      · cases none_made
  | some user =>
      obtain ⟨row, member, same, rfl⟩ := (alike.byId userId user).mp found
      have known : userId ∈ w.db.userIds := List.mem_map.mpr ⟨row, member, same⟩
      obtain ⟨db, updated⟩ : ∃ db, update w.db = .ok db := Database.userUpdate_commits known _
      have table : ((ProviderCall.changePassword draws userId newPassword).on
          (prismaUserStore env)).run w = (.ok .done, { w with db }) :=
        Prog.run_bind_ok (run_commit_ok update updated) _
      refine .of_runs (run_changePassword_known found draws newPassword) table (iff_of_true rfl ?_)
        (alike.rehash ?_) fun id => ?_
      · intro _ _ _ named
        cases named
        exact Or.inl (Option.isSome_iff_exists.mpr ⟨_, found⟩)
      · rw [show (toUser row).id = userId from same]
        exact updated
      · simp only [InMemoryIdentity.setPasswordHash, Option.isSome_map]
        exact (or_iff_left (creates _ id)).symm

theorem corresponds (alike : Alike p w.db) (c : ProviderCall)
    (fresh : ∀ id ∈ c.drawn, p.byId id = none) : Corresponds env p w c := by
  cases c with
  | findById id => exact corresponds_findById alike id
  | verifyCredentials email password => exact corresponds_verifyCredentials alike email password
  | createUser draws input => exact corresponds_createUser alike input (fresh _ rfl)
  | changePassword draws userId newPassword =>
      exact corresponds_changePassword alike draws userId newPassword

/-- Who was there after the call was there before it or has been created by it. -/
theorem Corresponds.addressed {c : ProviderCall} (pair : Corresponds env p w c)
    (earlier : List Answered) (a : Answered) :
    a.Addressed ((c.on (inMemoryUserStore env)).run p).2 earlier ↔
      a.Addressed p (⟨c, ((c.on (prismaUserStore env)).run w).1⟩ :: earlier) := by
  unfold Answered.Addressed
  simp only [pair.known, List.mem_cons, exists_eq_or_imp, or_assoc]

end

/-! ## Whole runs -/

/-- The ids that the calls draw are new. -/
structure FreshIds (p : InMemoryIdentity) (calls : List ProviderCall) : Prop where
  distinct : (calls.filterMap ProviderCall.drawn).Nodup
  unused : ∀ id ∈ calls.filterMap ProviderCall.drawn, p.byId id = none

section

variable {σ : Type} {env : Env} {p : InMemoryIdentity} {w w' : World σ} {log : List Answered}

theorem FreshIds.later {c : ProviderCall} {calls : List ProviderCall}
    (fresh : FreshIds p (c :: calls)) (pair : Corresponds env p w c) :
    FreshIds ((c.on (inMemoryUserStore env)).run p).2 calls := by
  obtain ⟨distinct, unused⟩ := fresh
  cases drawn : c.drawn with
  | none =>
      rw [List.filterMap_cons_none drawn] at distinct unused
      refine ⟨distinct, fun id member => ?_⟩
      rw [← Option.not_isSome_iff_eq_none, pair.known, unused id member]
      rintro (impossible | ⟨draws, input, -, same, -, -⟩)
      · cases impossible
      · rw [show c = _ from same] at drawn
        cases drawn
  | some id =>
      rw [List.filterMap_cons_some drawn] at distinct unused
      obtain ⟨apart, distinct⟩ := List.nodup_cons.mp distinct
      refine ⟨distinct, fun id' member => ?_⟩
      rw [← Option.not_isSome_iff_eq_none, pair.known, unused id' (List.mem_cons_of_mem _ member)]
      rintro (impossible | ⟨draws, input, -, same, -, rfl⟩)
      · cases impossible
      · rw [show c = _ from same] at drawn
        cases drawn
        exact apart member

/-- A property of every entry and what comes before it, split at the first entry. -/
theorem forall_split_cons {α : Type} {a : α} {l : List α} {P : List α → α → Prop} :
    (∀ earlier b later, a :: l = earlier ++ b :: later → P earlier b) ↔
      P [] a ∧ ∀ earlier b later, l = earlier ++ b :: later → P (a :: earlier) b := by
  constructor
  · intro every
    exact ⟨every [] a l rfl, fun earlier b later split =>
      every (a :: earlier) b later (by rw [split, List.cons_append])⟩
  · rintro ⟨first, rest⟩ earlier b later split
    cases earlier with
    | nil =>
        obtain ⟨rfl, -⟩ := List.cons.inj split
        exact first
    | cons _ earlier =>
        obtain ⟨rfl, tail⟩ := List.cons.inj split
        exact rest earlier b later tail

/-- By induction on the run: each call corresponds, and leaves the stores alike. -/
theorem providers_agree_iff (alike : Alike p w.db) (fresh : FreshIds p (log.map Answered.call))
    (run : (prismaUserStore env).Answers SameUsers w log w') :
    (((inMemoryUserStore env).answers p (log.map Answered.call)).1 = log ↔
      ∀ earlier a later, log = earlier ++ a :: later → a.Addressed p earlier) ∧
    Alike ((inMemoryUserStore env).answers p (log.map Answered.call)).2 w'.db := by
  induction run generalizing p with
  | nil w =>
      refine ⟨iff_of_true rfl fun earlier a later impossible => ?_, alike⟩
      cases earlier <;> cases impossible
  | moves moved _ ih => exact ih (alike.of_users moved) fresh
  | @call w w₁ w' c answer log made _ ih =>
      have pair : Corresponds env p w c := corresponds alike c fun id drawn =>
        fresh.unused id (List.mem_filterMap.mpr ⟨_, List.mem_cons_self, drawn⟩)
      obtain ⟨answers, left, -⟩ := id pair
      have addressed := pair.addressed
      rw [made] at answers left addressed
      obtain ⟨agree, ended⟩ := ih left (fresh.later pair)
      refine ⟨?_, ended⟩
      rw [forall_split_cons, ← answers]
      simp only [List.map_cons, UserStore.answers, List.cons.injEq, Answered.mk.injEq, true_and,
        agree, addressed]

end

def sampleCalls : List ProviderCall := [
  .createUser sampleDraws ⟨" New@Acme.test ", "Nia New", "f1rst-Passw0rd"⟩,
  .verifyCredentials "NEW@acme.test" "f1rst-Passw0rd",
  .changePassword sampleDraws "admin@acme.test" "s3cond-Passw0rd",
  .verifyCredentials "admin@acme.test" "s3cond-Passw0rd"]

/-- Both stores sign the new account in, and the old one with its new password. -/
theorem providers_agree_iff_sampleCalls :
    ((inMemoryUserStore verifyingEnv).answers (.ofRows seed.toTables "$") sampleCalls).1 =
        ((prismaUserStore verifyingEnv).answers (World.fresh InMemorySessions.empty 0 seed)
          sampleCalls).1 := by
  have run := (prismaUserStore verifyingEnv).answers_run SameUsers sampleCalls
    (World.fresh InMemorySessions.empty 0 seed)
  have calls := (prismaUserStore verifyingEnv).answers_calls sampleCalls
    (World.fresh InMemorySessions.empty 0 seed)
  have fresh : FreshIds (.ofRows seed.toTables "$") sampleCalls := ⟨by decide, by decide⟩
  have agree := (providers_agree_iff (.ofRows (by decide) "$") (calls.symm ▸ fresh) run).1
  rw [calls] at agree
  refine agree.mpr fun earlier a later split draws userId newPassword named => Or.inl ?_
  have member : a.call ∈ sampleCalls := by
    rw [← calls, split]
    simp
  have admin : ∀ c ∈ sampleCalls, c = .changePassword draws userId newPassword →
      userId = "admin@acme.test" := by
    simp +contextual [sampleCalls]
  rw [admin _ member named]
  decide

end Arac.Auth
