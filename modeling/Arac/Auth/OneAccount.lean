/-
# Arac.Auth.OneAccount -- signups with one email at the same time

Any number of `createUser` calls run interleaved over one user store.  `OneAccount` is
what the interface promises: one call for an email answers with an account and the
others with nothing, the account can be signed in to, and whoever is found by id is
found by email.  Over the database it always holds: the unique index is asked when the
row is written.  Over the two maps the email is looked up before the password is hashed
and not again, so it holds in the runs in which no email is taken in between
(`Undisturbed`), and in no others.

* `SignupPhase`, `SignupEnds`: the phases of both stores' `createUser`.
* `Registered`, `Inserted`: the invariants over the database and over the maps.
* `oneAccount_iff`.
-/
import Arac.Auth.InMemoryIdentity
import Arac.Services.Concurrent

namespace Arac.Auth

open Arac.Theory Arac.Sessions Arac.Db Arac.Service

set_option autoImplicit false

/-! ## The requests -/

structure SignupRequest where
  draws : Draws
  input : CreateUserInput

namespace SignupRequest

variable (env : Env) (r : SignupRequest)

def service {τ : Type} (I : Provider τ) : Prog τ ServiceError (Option User) :=
  I.createUser r.draws r.input

/-- The form of the email under which the account is kept. -/
def form : String := IdentityProvider.normalizeEmail env r.input.email

/-- The account that the request creates. -/
def user : User := InMemoryIdentityProvider.newUser env r.draws r.input

/-- Its row in the database. -/
def row (now : Nat) : Db.User :=
  selfSignupRow r.draws.id.value (r.form env) (trim r.input.name)
    (env.argon2Hash r.input.password r.draws.salt) now

end SignupRequest

section

variable {τ ι : Type} (I : Provider τ) (env : Env) (requests : ι → SignupRequest)

/-- With the user's email, however it is spelled, and a password that matches the stored
hash, the user is signed in. -/
def SignsIn (s : τ) (user : User) : Prop :=
  ∀ spelling password, IdentityProvider.normalizeEmail env spelling = user.email →
    env.argon2Verify user.passwordHash password = true →
    ((I.verifyCredentials spelling password).run s).1 = .ok (some user)

/-- One account per email. -/
structure OneAccount (P : Pool ι τ ServiceError (Option User)) : Prop where
  one : ∀ i j u v, (requests i).form env = (requests j).form env →
    P.Ended i (.ok (some u)) → P.Ended j (.ok (some v)) → i = j
  others : ∀ i r, P.Ended i r → r = .ok none ∨ ∃ u, r = .ok (some u)
  winner : ∀ i u, P.Ended i (.ok (some u)) → ∀ spelling,
    IdentityProvider.normalizeEmail env spelling = (requests i).form env →
    ((I.verifyCredentials spelling (requests i).input.password).run P.state).1 = .ok (some u)
  reachable : ∀ id u, ((I.findById id).run P.state).1 = .ok (some u) → SignsIn I env P.state u

variable [DecidableEq ι]

/-- When the hash of a request comes back, after its first call, the email that it found
free is free still. -/
def Undisturbed : List (Made ι InMemoryIdentity) → Prop
  | [] => True
  | e :: earlier =>
      ((Pool.callsOf earlier e.who).length = 1 → e.met.byEmail ((requests e.who).form env) = none) ∧
        Undisturbed earlier

end

/-! ## Phases -/

inductive SignupPhase where
  | start
  | pending
  | refused
  | created
  deriving DecidableEq

def SignupEnds (env : Env) (r : SignupRequest) (result : Except ServiceError (Option User))
    (φ : SignupPhase) : Prop :=
  (φ = .refused ∧ result = .ok none) ∨ (φ = .created ∧ result = .ok (some (r.user env)))

theorem SignupEnds.account {env : Env} {r : SignupRequest} {u : User} {φ : SignupPhase}
    (ends : SignupEnds env r (.ok (some u)) φ) : φ = .created ∧ u = r.user env := by
  rcases ends with ⟨-, impossible⟩ | ⟨phase, same⟩
  · cases impossible
  · cases same
    exact ⟨phase, rfl⟩

theorem SignupEnds.cases {env : Env} {r : SignupRequest} {φ : SignupPhase}
    {result : Except ServiceError (Option User)} (ends : SignupEnds env r result φ) :
    result = .ok none ∨ ∃ u, result = .ok (some u) :=
  ends.imp (fun refused => refused.2) fun created => ⟨_, created.2⟩

inductive PrismaMove {σ : Type} (env : Env) (r : SignupRequest) :
    SignupPhase → World σ → World σ → SignupPhase → Prop
  | reads (w : World σ) : PrismaMove env r .start w w .pending
  | creates {w : World σ} {now : Nat} {db : Database} (ok : w.db.userCreate (r.row env now) = .ok db) :
      PrismaMove env r .pending w { w with db } .created
  | refuses (w : World σ) : PrismaMove env r .pending w w .refused

inductive InMemoryMove (env : Env) (r : SignupRequest) :
    SignupPhase → InMemoryIdentity → InMemoryIdentity → SignupPhase → Prop
  | refuses (p : InMemoryIdentity) : InMemoryMove env r .start p p .refused
  | passes {p : InMemoryIdentity} (free : p.byEmail (r.form env) = none) :
      InMemoryMove env r .start p p .pending
  | inserts (p : InMemoryIdentity) :
      InMemoryMove env r .pending p (p.insert (r.form env) (r.user env)) .created

section

variable {σ : Type} (env : Env) (r : SignupRequest)

theorem prisma_follows : (r.service (prismaIdentityProvider env)).Follows (fun _ : World σ => True)
    (PrismaMove env r) (SignupEnds env r) .start := by
  refine .bind (D := fun result φ => φ = .pending ∧ ∃ now, result = .ok now)
    (.call fun w _ => ⟨.pending, .reads w, rfl, _, rfl⟩) ?_ ?_
  · rintro now _ ⟨rfl, -⟩
    refine .bind (D := fun result φ => (φ = .created ∧ result = .ok (.ok ())) ∨
      (φ = .refused ∧ result = .ok (.error .uniqueConstraint))) ?_ ?_ ?_
    · refine write_follows ?_ ?_
      · intro w db _ created
        exact ⟨.created, .creates created, Or.inl ⟨rfl, rfl⟩⟩
      · intro w e _ failed
        obtain rfl := Database.userCreate_error failed
        exact ⟨.refused, .refuses w, Or.inr ⟨rfl, rfl⟩⟩
    · rintro result φ (⟨rfl, ok⟩ | ⟨rfl, failed⟩)
      · cases ok
        exact .pure (Or.inr ⟨rfl, rfl⟩)
      · cases failed
        exact .pure (Or.inl ⟨rfl, rfl⟩)
    · rintro e φ (⟨-, impossible⟩ | ⟨-, impossible⟩) <;> cases impossible
  · rintro e φ ⟨-, _, impossible⟩
    cases impossible

theorem inMemory_follows : (r.service (inMemoryIdentityProvider env)).Follows (fun _ => True)
    (InMemoryMove env r) (SignupEnds env r) .start := by
  refine .bind (D := fun result φ => (φ = .refused ∧ result = .ok true) ∨
    (φ = .pending ∧ result = .ok false)) ?_ ?_ ?_
  · refine .call ?_
    intro p _
    cases found : p.byEmail (IdentityProvider.normalizeEmail env r.input.email) with
    | none => exact ⟨.pending, .passes found, Or.inr ⟨rfl, rfl⟩⟩
    | some user => exact ⟨.refused, .refuses p, Or.inl ⟨rfl, rfl⟩⟩
  · rintro taken φ (⟨rfl, same⟩ | ⟨rfl, same⟩)
    · cases same
      exact .pure (Or.inl ⟨rfl, rfl⟩)
    · cases same
      refine .bind (D := fun result φ => φ = .created ∧ result = .ok ())
        (.call fun p _ => ⟨.created, .inserts p, rfl, rfl⟩) ?_ ?_
      · rintro _ _ ⟨rfl, -⟩
        exact .pure (Or.inr ⟨rfl, rfl⟩)
      · rintro e φ ⟨-, impossible⟩
        cases impossible
  · rintro e φ (⟨-, impossible⟩ | ⟨-, impossible⟩) <;> cases impossible

end

/-! ## Who has an account -/

section

variable {ι : Type} [DecidableEq ι] {φ : ι → SignupPhase} {φ' : SignupPhase} {i : ι}

theorem created_before (idle : φ' ≠ .created) (j : ι)
    (created : Function.update φ i φ' j = .created) : φ j = .created :=
  (Function.forall_update_iff φ fun j ψ => ψ = .created → φ j = .created).mpr
    ⟨fun impossible => absurd impossible idle, fun _ _ old => old⟩ j created

/-- The emails of the accounts stay distinct when the new one is. -/
theorem one_of_new {form : ι → String}
    (one : ∀ j k, form j = form k → φ j = .created → φ k = .created → j = k)
    (apart : ∀ j, j ≠ i → φ j = .created → form j ≠ form i) (j k : ι) (same : form j = form k)
    (j_created : Function.update φ i .created j = .created)
    (k_created : Function.update φ i .created k = .created) : j = k := by
  by_cases j_new : j = i
  · by_cases k_new : k = i
    · exact j_new.trans k_new.symm
    · rw [Function.update_of_ne k_new] at k_created
      exact absurd (j_new ▸ same.symm) (apart k k_new k_created)
  · rw [Function.update_of_ne j_new] at j_created
    by_cases k_new : k = i
    · exact absurd (k_new ▸ same) (apart j j_new j_created)
    · rw [Function.update_of_ne k_new] at k_created
      exact one j k same j_created k_created

end

/-! ## Over the database -/

section

variable {σ ι : Type} [DecidableEq ι] {env : Env} {requests : ι → SignupRequest}

/-- Each account that was created is in the table, and no two have one email. -/
structure Registered (env : Env) (requests : ι → SignupRequest) (φ : ι → SignupPhase)
    (w : World σ) : Prop where
  row : ∀ i, φ i = .created → ∃ now, (requests i).row env now ∈ w.db.users
  one : ∀ i j, (requests i).form env = (requests j).form env → φ i = .created → φ j = .created →
    i = j

theorem Registered.step {φ : ι → SignupPhase} {φ' : SignupPhase} {w w' : World σ} {i : ι}
    (registered : Registered env requests φ w)
    (moved : PrismaMove env (requests i) (φ i) w w' φ') :
    Registered env requests (Function.update φ i φ') w' := by
  generalize phase : φ i = ψ at moved
  cases moved with
  | reads | refuses =>
      exact ⟨fun j created => registered.row j (created_before (by simp) j created),
        fun j k same j_created k_created => registered.one j k same
          (created_before (by simp) j j_created) (created_before (by simp) k k_created)⟩
  | creates ok =>
      rename_i now db
      have users : db.users = w.db.users ++ [(requests i).row env now] := by
        rw [(Database.userCreate_ok ok).1]
      constructor
      · refine (Function.forall_update_iff φ fun j ψ => ψ = .created →
          ∃ now, (requests j).row env now ∈ db.users).mpr ⟨?_, ?_⟩
        · intro _
          exact ⟨now, users ▸ List.mem_append_right _ (List.mem_singleton.mpr rfl)⟩
        · intro j _ created
          obtain ⟨now', member⟩ := registered.row j created
          exact ⟨now', users ▸ List.mem_append_left _ member⟩
      · refine one_of_new registered.one ?_
        -- the email of an older account is in the table, and this one was not
        intro j other created same
        obtain ⟨now', member⟩ := registered.row j created
        exact Database.userCreate_email ok (List.mem_map.mpr ⟨_, member, same⟩)

/-- Who has an active row is signed in. -/
theorem signsIn_prisma {w : World σ} {row : Db.User} (member : row ∈ w.db.users)
    (active : row.status = .active) : SignsIn (prismaIdentityProvider env) env w (toUser row) := by
  intro spelling password form verifies
  have found := Database.activeUserByEmail_eq_some.mpr ⟨member, form.symm, active⟩
  have matches_ : env.argon2Verify row.passwordHash password = true := verifies
  simp only [prismaIdentityProvider, IdentityProvider.verifyCredentials, Prog.run_bind_ok (run_query _ w),
    found, Option.map_some, Option.getD_some, matches_, if_true]
  rfl

theorem oneAccount_prisma (verifies : ∀ password salt,
      env.argon2Verify (env.argon2Hash password salt) password = true)
    (S : SessionStore σ) {w₀ : World σ} {P : Pool ι (World σ) ServiceError (Option User)}
    (run : Pool.Run (TimePasses S) Always
      (Pool.start (fun i => (requests i).service (prismaIdentityProvider env)) w₀) P) :
    OneAccount (prismaIdentityProvider env) env requests P := by
  obtain ⟨φ, registered, follows⟩ := run.invariant (I := fun _ _ => True)
    (T := fun i => PrismaMove env (requests i)) (D := fun i => SignupEnds env (requests i))
    (fun φ w _ => Registered env requests φ w) (fun _ _ _ _ _ _ => trivial)
    (fun _ _ _ _ _ _ registered _ moved => registered.step moved)
    (by
      rintro φ w trace _ registered ⟨ms, rfl⟩
      exact ⟨registered.row, registered.one⟩)
    (fun _ => .start) (fun i => prisma_follows env (requests i))
    ⟨by simp, by simp⟩
  constructor
  · intro i j u v same i_ended j_ended
    exact registered.one i j same ((follows i).ends i_ended).account.1
      ((follows j).ends j_ended).account.1
  · intro i r ended
    exact ((follows i).ends ended).cases
  · intro i u ended spelling form
    obtain ⟨created, rfl⟩ := ((follows i).ends ended).account
    obtain ⟨now, member⟩ := registered.row i created
    exact signsIn_prisma member rfl spelling _ form (verifies _ _)
  · intro id u found
    obtain ⟨row, at_id, rfl⟩ := Option.map_eq_some_iff.mp (Except.ok.inj found)
    have chosen := List.find?_some at_id
    exact signsIn_prisma (List.mem_of_find?_eq_some at_id) (of_decide_eq_true chosen).2

end

/-! ## Over the maps -/

section

variable {ι : Type} [DecidableEq ι] {env : Env} {requests : ι → SignupRequest}
  {φ : ι → SignupPhase} {φ' : SignupPhase} {p p' : InMemoryIdentity} {i : ι}
  {trace : List (Made ι InMemoryIdentity)}

/-- What the phases say of the calls made; where an email was taken in between, two
accounts have it. -/
structure Inserted (env : Env) (requests : ι → SignupRequest) (φ : ι → SignupPhase)
    (p : InMemoryIdentity) (trace : List (Made ι InMemoryIdentity)) : Prop where
  started : ∀ i, φ i = .start → Pool.callsOf trace i = []
  checked : ∀ i, φ i = .pending → (Pool.callsOf trace i).length = 1
  free : ∀ i, φ i = .pending → p.byEmail ((requests i).form env) = none ∨
    ∃ j, j ≠ i ∧ (requests j).form env = (requests i).form env ∧ φ j = .created
  disturbed : ¬ Undisturbed env requests trace → ∃ i j, i ≠ j ∧
    (requests i).form env = (requests j).form env ∧ φ i = .created ∧ φ j = .created

/-- What holds of the maps as long as no email was taken in between. -/
structure Faithful (env : Env) (requests : ι → SignupRequest) (φ : ι → SignupPhase)
    (p : InMemoryIdentity) : Prop where
  agree : p.Agree
  account : ∀ i, φ i = .created →
    p.byEmail ((requests i).form env) = some ((requests i).user env)
  one : ∀ i j, (requests i).form env = (requests j).form env → φ i = .created → φ j = .created →
    i = j

/-- An account that was created stays so. -/
theorem InMemoryMove.kept (moved : InMemoryMove env (requests i) (φ i) p p' φ') {j : ι}
    (created : φ j = .created) : Function.update φ i φ' j = .created := by
  have other : j ≠ i := by
    rintro rfl
    rw [created] at moved
    cases moved
  rw [Function.update_of_ne other]
  exact created

/-- Another account with the same email, after a move. -/
theorem InMemoryMove.kept_twin (moved : InMemoryMove env (requests i) (φ i) p p' φ')
    (twins : ∃ i j, i ≠ j ∧ (requests i).form env = (requests j).form env ∧ φ i = .created ∧
      φ j = .created) :
    ∃ j k, j ≠ k ∧ (requests j).form env = (requests k).form env ∧
      Function.update φ i φ' j = .created ∧ Function.update φ i φ' k = .created := by
  obtain ⟨j, k, apart, same, j_created, k_created⟩ := twins
  exact ⟨j, k, apart, same, moved.kept j_created, moved.kept k_created⟩

/-- What another request has found so far is not changed by a move. -/
theorem Inserted.others (inserted : Inserted env requests φ p trace)
    (moved : InMemoryMove env (requests i) (φ i) p p' φ') {j : ι} (other : j ≠ i)
    (pending : φ j = .pending) : p'.byEmail ((requests j).form env) = none ∨
      ∃ k, k ≠ j ∧ (requests k).form env = (requests j).form env ∧
        Function.update φ i φ' k = .created := by
  rcases inserted.free j pending with free | ⟨k, apart, same, created⟩
  · generalize phase : φ i = ψ at moved
    cases moved with
    | refuses | passes => exact Or.inl free
    | inserts =>
        by_cases same : (requests i).form env = (requests j).form env
        · exact Or.inr ⟨i, other.symm, same, Function.update_self ..⟩
        · rw [InMemoryIdentity.insert_byEmail_ne _ (Ne.symm same)]
          exact Or.inl free
  · exact Or.inr ⟨k, apart, same, moved.kept created⟩

theorem Inserted.step (inserted : Inserted env requests φ p trace)
    (moved : InMemoryMove env (requests i) (φ i) p p' φ') :
    Inserted env requests (Function.update φ i φ') p' (⟨i, p, p'⟩ :: trace) where
  started := by
    refine Pool.forall_callsOf_cons φ (e := ⟨i, p, p'⟩)
      (q := fun _ ψ calls => ψ = .start → calls = []) inserted.started ?_
    rintro rfl
    generalize φ i = ψ at moved
    cases moved
  checked := by
    refine Pool.forall_callsOf_cons φ (e := ⟨i, p, p'⟩)
      (q := fun _ ψ calls => ψ = .pending → calls.length = 1) inserted.checked ?_
    rintro rfl
    generalize phase : φ i = ψ at moved
    cases moved
    rw [inserted.started i phase]
    rfl
  free := by
    refine (Function.forall_update_iff φ fun j ψ => ψ = .pending →
      p'.byEmail ((requests j).form env) = none ∨ ∃ k, k ≠ j ∧
        (requests k).form env = (requests j).form env ∧ Function.update φ i φ' k = .created).mpr
          ⟨?_, fun j other pending => inserted.others moved other pending⟩
    rintro rfl
    generalize φ i = ψ at moved
    cases moved with
    | passes free => exact Or.inl free
  disturbed := by
    intro disturbed
    by_cases before : Undisturbed env requests trace
    · -- it is this call that met a taken email, and the account that took it is there
      have met : (Pool.callsOf trace i).length = 1 ∧ p.byEmail ((requests i).form env) ≠ none := by
        by_contra fine
        exact disturbed ⟨fun second => not_not.mp fun taken => fine ⟨second, taken⟩, before⟩
      have kept := fun j => InMemoryMove.kept (j := j) moved
      generalize phase : φ i = ψ at moved
      cases moved with
      | refuses | passes =>
          rw [inserted.started i phase] at met
          cases met.1
      | inserts =>
          rcases inserted.free i phase with free | ⟨j, apart, same, created⟩
          · exact absurd free met.2
          · exact ⟨j, i, apart, same, kept j created, Function.update_self ..⟩
    · exact moved.kept_twin (inserted.disturbed before)

/-- An email that is free gets its account. -/
theorem Faithful.step (faithful : Faithful env requests φ p)
    (inserted : Inserted env requests φ p trace)
    (moved : InMemoryMove env (requests i) (φ i) p p' φ')
    (free : (Pool.callsOf trace i).length = 1 → p.byEmail ((requests i).form env) = none) :
    Faithful env requests (Function.update φ i φ') p' := by
  generalize phase : φ i = ψ at moved
  cases moved with
  | refuses | passes =>
      exact ⟨faithful.agree, fun j created => faithful.account j (created_before (by simp) j created),
        fun j k same j_created k_created => faithful.one j k same
          (created_before (by simp) j j_created) (created_before (by simp) k k_created)⟩
  | inserts =>
      have here := free (inserted.checked i phase)
      have apart : ∀ j, j ≠ i → φ j = .created →
          (requests j).form env ≠ (requests i).form env := by
        intro j other created same
        have there := faithful.account j created
        rw [same, here] at there
        cases there
      have agree : (p.insert ((requests i).form env) ((requests i).user env)).Agree :=
        faithful.agree.insert here
      refine ⟨agree, ?_, one_of_new faithful.one apart⟩
      refine (Function.forall_update_iff φ fun j ψ => ψ = .created →
        (p.insert ((requests i).form env) ((requests i).user env)).byEmail ((requests j).form env) =
          some ((requests j).user env)).mpr ⟨?_, ?_⟩
      · intro _
        exact InMemoryIdentity.insert_byEmail_self ..
      · intro j other created
        rw [InMemoryIdentity.insert_byEmail_ne _ (apart j other created)]
        exact faithful.account j created

/-- Who is in the map is signed in. -/
theorem signsIn_inMemory {email : String} {user : User} (there : p.byEmail email = some user)
    {spelling password : String} (form : IdentityProvider.normalizeEmail env spelling = email)
    (verifies : env.argon2Verify user.passwordHash password = true) :
    (((inMemoryIdentityProvider env).verifyCredentials spelling password).run p).1 =
      .ok (some user) := by
  subst form
  simp only [inMemoryIdentityProvider, InMemoryIdentityProvider.verifyCredentials, Prog.run_bind,
    Prog.run_call, there, Option.map_some, Option.getD_some, verifies, if_true]
  rfl

theorem oneAccount_inMemory (verifies : ∀ password salt,
      env.argon2Verify (env.argon2Hash password salt) password = true)
    {p₀ : InMemoryIdentity} (agree : p₀.Agree) {P : Pool ι InMemoryIdentity ServiceError (Option User)}
    (run : Pool.Run (fun p p' => p' = p) (fun _ _ => True)
      (Pool.start (fun i => (requests i).service (inMemoryIdentityProvider env)) p₀) P) :
    OneAccount (inMemoryIdentityProvider env) env requests P ↔ Undisturbed env requests P.trace := by
  obtain ⟨φ, ⟨inserted, faithful⟩, follows⟩ := run.invariant (I := fun _ _ => True)
    (T := fun i => InMemoryMove env (requests i)) (D := fun i => SignupEnds env (requests i))
    (fun φ p trace => Inserted env requests φ p trace ∧
      (Undisturbed env requests trace → Faithful env requests φ p)) (fun _ _ _ _ _ _ => trivial)
    (fun _ _ _ _ _ _ inv _ moved => ⟨inv.1.step moved, fun undisturbed =>
      (inv.2 undisturbed.2).step inv.1 moved undisturbed.1⟩)
    (by
      rintro φ p trace _ inv rfl
      exact inv)
    (fun _ => .start) (fun i => inMemory_follows env (requests i))
    (by
      have undisturbed : Undisturbed env requests [] := trivial
      exact ⟨⟨fun _ _ => rfl, by simp, by simp, fun disturbed => absurd undisturbed disturbed⟩,
        fun _ => ⟨agree, by simp, by simp⟩⟩)
  constructor
  · intro account
    by_contra disturbed
    obtain ⟨i, j, apart, same, i_created, j_created⟩ := inserted.disturbed disturbed
    have ended : ∀ k, φ k = .created → P.Ended k (.ok (some ((requests k).user env))) := by
      intro k created
      obtain ⟨r, ended, ends⟩ := (follows k).ended (s := P.state) trivial
        (by rw [created]; rintro _ _ ⟨⟩)
      rcases ends with ⟨impossible, -⟩ | ⟨-, rfl⟩
      · rw [created] at impossible
        cases impossible
      · exact ended
    exact apart (account.one i j _ _ same (ended i i_created) (ended j j_created))
  · intro undisturbed
    have faithful := faithful undisturbed
    constructor
    · intro i j u v same i_ended j_ended
      exact faithful.one i j same ((follows i).ends i_ended).account.1
        ((follows j).ends j_ended).account.1
    · intro i r ended
      exact ((follows i).ends ended).cases
    · intro i u ended spelling form
      obtain ⟨created, rfl⟩ := ((follows i).ends ended).account
      exact signsIn_inMemory (faithful.account i created) form (verifies _ _)
    · intro id u found spelling password form verified
      exact signsIn_inMemory (faithful.agree id u (Except.ok.inj found)) form verified

end

/-- One account per email: always over the database, and over the maps exactly in the
runs in which no email is taken while the password of a signup for it is hashed. -/
theorem oneAccount_iff {ι : Type} [DecidableEq ι] {env : Env} (verifies : ∀ password salt,
      env.argon2Verify (env.argon2Hash password salt) password = true)
    (requests : ι → SignupRequest) :
    (∀ {σ : Type} (S : SessionStore σ) (w₀ : World σ) (P : Pool ι (World σ) ServiceError (Option User)),
      Pool.Run (TimePasses S) Always
        (Pool.start (fun i => (requests i).service (prismaIdentityProvider env)) w₀) P →
      OneAccount (prismaIdentityProvider env) env requests P) ∧
    (∀ (p₀ : InMemoryIdentity) (P : Pool ι InMemoryIdentity ServiceError (Option User)),
      p₀.Agree → Pool.Run (fun p p' => p' = p) (fun _ _ => True)
        (Pool.start (fun i => (requests i).service (inMemoryIdentityProvider env)) p₀) P →
      (OneAccount (inMemoryIdentityProvider env) env requests P ↔
        Undisturbed env requests P.trace)) :=
  ⟨fun S _ _ run => oneAccount_prisma verifies S run,
    fun _ _ agree run => oneAccount_inMemory verifies agree run⟩

/-! ## Two signups with one email -/

/-- The sample environment with a check that every hash passes with its own password. -/
def hashingEnv : Env :=
  { sampleEnv with argon2Verify hash password := ("$" ++ password).toList.isSuffixOf hash.toList }

theorem hashingEnv_verifies (password salt : String) :
    hashingEnv.argon2Verify (hashingEnv.argon2Hash password salt) password = true := by
  refine List.isSuffixOf_iff_suffix.mpr ?_
  simp only [hashingEnv, sampleEnv, String.append_assoc, String.toList_append]
  exact List.suffix_append _ _

def otherDraws : Draws :=
  { sampleDraws with id := ⟨"c3", by decide⟩ }

/-- The same email in two spellings. -/
def twoSignups (first : Bool) : SignupRequest :=
  if first then ⟨sampleDraws, "new@acme.test", "Nia New", "f1rst-Passw0rd"⟩
  else ⟨otherDraws, " New@Acme.test ", "Nora New", "s3cond-Passw0rd"⟩

/-- The maps as the service starts with them. -/
def seededMaps : InMemoryIdentity :=
  (InMemoryIdentityProvider.onModuleInit hashingEnv (fun _ => none) fun id => id).toOption.getD .empty

theorem seededMaps_agree : seededMaps.Agree := by
  unfold seededMaps
  cases started : InMemoryIdentityProvider.onModuleInit hashingEnv (fun _ => none) fun id => id with
  | error e =>
      intro id user impossible
      cases impossible
  | ok p => exact InMemoryIdentityProvider.onModuleInit_agrees (by decide +kernel) started

def signedUp (schedule : List Bool) : Pool Bool InMemoryIdentity ServiceError (Option User) :=
  Pool.play (fun _ _ => True)
    (Pool.start (fun i => (twoSignups i).service (inMemoryIdentityProvider hashingEnv)) seededMaps)
    schedule

/-- One after the other. -/
theorem oneAccount_iff_sequential :
    OneAccount (inMemoryIdentityProvider hashingEnv) hashingEnv twoSignups
      (signedUp [true, true, false]) := by
  refine ((oneAccount_iff hashingEnv_verifies twoSignups).2 _ _ seededMaps_agree
    (Pool.run_play _ _)).mpr ?_
  refine ⟨?_, ?_, ?_, trivial⟩ <;> decide +kernel

/-- Both look before either inserts: both have an account. -/
theorem not_always_oneAccount : ¬ ∀ {ι : Type} [DecidableEq ι] (env : Env)
    (requests : ι → SignupRequest) (p₀ : InMemoryIdentity)
    (P : Pool ι InMemoryIdentity ServiceError (Option User)),
    (∀ password salt, env.argon2Verify (env.argon2Hash password salt) password = true) →
    p₀.Agree → Pool.Run (fun p p' => p' = p) (fun _ _ => True)
      (Pool.start (fun i => (requests i).service (inMemoryIdentityProvider env)) p₀) P →
    OneAccount (inMemoryIdentityProvider env) env requests P := by
  intro always
  have account := always hashingEnv twoSignups seededMaps (signedUp [true, false, true, false])
    hashingEnv_verifies seededMaps_agree (Pool.run_play _ _)
  have first : (signedUp [true, false, true, false]).Ended true
      (.ok (some ((twoSignups true).user hashingEnv))) := by
    unfold Pool.Ended
    decide +kernel
  have second : (signedUp [true, false, true, false]).Ended false
      (.ok (some ((twoSignups false).user hashingEnv))) := by
    unfold Pool.Ended
    decide +kernel
  have same : true = false := account.one true false _ _ (by decide +kernel) first second
  cases same

end Arac.Auth
