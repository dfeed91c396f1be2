/-
# Arac.Services.World -- the shared state of the services and their awaited calls

`World` is everything the auth service keeps: the database, the session store, the
pending password resets and the mails sent.  The session store comes with the log
of the calls it has answered, so that a statement may speak about the past.

`Env` collects what is not part of the repository (argon2, jose, SHA-256, the
runtime's case folding) and the loaded configuration.  A `Service` is a procedure
over the world; each database query, session call or mail is one awaited call.
Random values are drawn by the caller and passed in as `Draws`.
-/
import Arac.Theory.Async
import Arac.Theory.ExpiringMap
import Arac.Sessions.Store
import Arac.Db.Updates

namespace Arac

open Arac.Theory Arac.Sessions Arac.Db

set_option autoImplicit false

/-! ## Trimming -/

/-- White space and line terminators, as `String.prototype.trim` removes them. -/
def isTrimmed (c : Char) : Bool :=
  c.val ∈ [0x9, 0xA, 0xB, 0xC, 0xD, 0x20, 0xA0, 0x1680, 0x2028, 0x2029, 0x202F, 0x205F, 0x3000,
    0xFEFF] || (0x2000 ≤ c.val && c.val ≤ 0x200A)

def trim (s : String) : String :=
  String.ofList ((s.toList.dropWhile isTrimmed).reverse.dropWhile isTrimmed).reverse

def trimChars (l : List Char) : List Char :=
  ((l.dropWhile isTrimmed).reverse.dropWhile isTrimmed).reverse

theorem toList_trim (s : String) : (trim s).toList = trimChars s.toList := by
  rw [trim, String.toList_ofList, trimChars]

/-- Neither the first nor the last character is white space. -/
def Unpadded (l : List Char) : Prop :=
  (∀ c ∈ l.head?, isTrimmed c = false) ∧ ∀ c ∈ l.getLast?, isTrimmed c = false

theorem dropWhile_of_head {l : List Char} (first : ∀ c ∈ l.head?, isTrimmed c = false) :
    l.dropWhile isTrimmed = l := by
  cases l with
  | nil => rfl
  | cons c l => exact List.dropWhile_cons_of_neg (by simp [first c rfl])

theorem trimChars_of_unpadded {l : List Char} (unpadded : Unpadded l) : trimChars l = l := by
  rw [trimChars, dropWhile_of_head unpadded.1, dropWhile_of_head, List.reverse_reverse]
  rw [List.head?_reverse]
  exact unpadded.2

theorem dropWhile_append_untrimmed {body trail : List Char}
    (untrimmed : ∃ c ∈ body, isTrimmed c = false) :
    (body ++ trail).dropWhile isTrimmed = body.dropWhile isTrimmed ++ trail := by
  obtain ⟨c, member, kept⟩ := untrimmed
  induction body with
  | nil => cases member
  | cons d body ih =>
      rw [List.cons_append, List.dropWhile_cons, List.dropWhile_cons]
      split
      · rename_i dropped
        rcases List.mem_cons.mp member with rfl | member
        · rw [kept] at dropped
          cases dropped
        · exact ih member
      · rfl

theorem dropWhile_append_trimmed {lead body : List Char}
    (trimmed : ∀ c ∈ lead, isTrimmed c = true) :
    (lead ++ body).dropWhile isTrimmed = body.dropWhile isTrimmed :=
  List.dropWhile_append_of_pos trimmed

theorem mem_of_mem_dropWhile {l : List Char} {c : Char} (member : c ∈ l.dropWhile isTrimmed) :
    c ∈ l :=
  (List.dropWhile_sublist _).subset member

/-- White space is dropped, and nothing else. -/
theorem filter_dropWhile (l : List Char) :
    (l.dropWhile isTrimmed).filter (fun c => !isTrimmed c) = l.filter fun c => !isTrimmed c := by
  induction l with
  | nil => rfl
  | cons c l ih =>
      rw [List.dropWhile_cons]
      split
      · rename_i dropped
        rw [ih, List.filter_cons_of_neg (by simp [dropped])]
      · rfl

theorem filter_trimChars (l : List Char) :
    (trimChars l).filter (fun c => !isTrimmed c) = l.filter fun c => !isTrimmed c := by
  rw [trimChars, List.filter_reverse, filter_dropWhile, List.filter_reverse, List.reverse_reverse,
    filter_dropWhile]

theorem mem_of_mem_trimChars {l : List Char} {c : Char} (member : c ∈ trimChars l) : c ∈ l := by
  have kept := mem_of_mem_dropWhile (List.mem_reverse.mp member)
  exact mem_of_mem_dropWhile (List.mem_reverse.mp kept)

/-- White space around a text that is not all white space does not matter. -/
theorem trimChars_append {lead body trail : List Char} (before : ∀ c ∈ lead, isTrimmed c = true)
    (after : ∀ c ∈ trail, isTrimmed c = true) (untrimmed : ∃ c ∈ body, isTrimmed c = false) :
    trimChars (lead ++ body ++ trail) = trimChars body := by
  rw [trimChars, List.append_assoc, dropWhile_append_trimmed before,
    dropWhile_append_untrimmed untrimmed, List.reverse_append,
    dropWhile_append_trimmed fun c member => after c (List.mem_reverse.mp member), ← trimChars]

/-! ## The world -/

/-- The errors that leave a service. -/
inductive ServiceError where
  | unauthorized (message : String)
  | forbidden (message : String)
  | notFound (message : String)
  | conflict (message : String)
  | badRequest (message : String)
  | prisma (error : PrismaError)
  /-- A required value was `undefined`. -/
  | prismaValidation
  | jose
  | error (message : String)
  /-- `Maximum call stack size exceeded`. -/
  | rangeError
  deriving DecidableEq

/-- The ABAC identity signed into an access token. -/
structure AbacIdentity where
  sub : String
  tenant : String
  departments : List String
  clearance : Int
  level : Int
  compartments : List String
  deriving DecidableEq

/-- What `signAccessToken` hands to `SignJWT`. -/
structure JwtClaims extends AbacIdentity where
  alg : String
  kid : String
  issuer : String
  audience : String
  issuedAt : Nat
  expiresAt : Nat
  jti : String
  deriving DecidableEq

/-- A payload as `jwtVerify` returns it.  A claim is absent when it is missing or
not of the expected type. -/
structure JwtPayload where
  sub : Option String
  tenant : Option String
  departments : Option (List String)
  clearance : Option Int
  level : Option Int
  compartments : Option (List String)
  jti : Option String
  iat : Option Int
  exp : Option Int
  iss : Option String
  aud : Option String
  deriving DecidableEq

structure Env where
  sha256 : String → String
  /-- `String.prototype.toLowerCase`. -/
  toLowerCase : String → String
  encodeURIComponent : String → String
  /-- The order in which the database sorts text. -/
  collate : String → String → Bool
  /-- Password and salt to an encoded hash. -/
  argon2Hash : String → String → String
  /-- Encoded hash and password. -/
  argon2Verify : String → String → Bool
  decoyHash : String
  jwtSign : JwtClaims → String
  /-- Time and token; the key set, issuer and audience are the configured ones. -/
  jwtVerify : Nat → String → Option JwtPayload
  kid : String
  issuer : String
  audience : String
  accessTtlSeconds : Nat
  appBaseUrl : String

structure Mail where
  recipient : String
  url : String
  deriving DecidableEq

/-- The random values of one request. -/
structure Draws where
  /-- The id of a created row. -/
  id : Cuid
  salt : String
  jti : String
  familyId : String
  /-- An opaque token: a refresh token or a reset token. -/
  token : String

structure World (σ : Type) where
  db : Database
  sessions : Machine.Config (Clocked σ) Logged
  /-- `pwreset:{hash}` to the user id. -/
  resets : ExpiringMap String String
  outbox : List Mail

abbrev Service (σ α : Type) := Prog (World σ) ServiceError α

namespace World

variable {σ : Type}

/-- A database before anyone has logged in. -/
def fresh (store : σ) (now : Nat) (db : Database) : World σ :=
  { db, sessions := ⟨[], ⟨now, store⟩⟩, resets := .empty, outbox := [] }

/-- `Date.now()`. -/
def now (w : World σ) : Nat := w.sessions.state.now

/-- The clock moves on. -/
def elapse (S : SessionStore σ) (ms : Nat) (w : World σ) : World σ :=
  { w with
    sessions := S.machine.perform w.sessions (.elapse ms)
    resets := w.resets.elapse (w.now + ms) }

end World

namespace Service

variable {σ α : Type}

/-- A read of the database. -/
def query (read : Tables → α) : Service σ α := Prog.call fun w => (read w.db.toTables, w)

/-- A write that either commits, and reads back what it selects, or fails with the
client's error. -/
def writeSelect (update : Database → Except PrismaError Database) (select : Tables → α) :
    Service σ (Except PrismaError α) :=
  Prog.call fun w => match update w.db with
    | .ok db => (.ok (select db.toTables), { w with db })
    | .error e => (.error e, w)

def write (update : Database → Except PrismaError Database) : Service σ (Except PrismaError Unit) :=
  writeSelect update fun _ => ()

/-- A write whose error the service does not catch. -/
def commit (update : Database → Except PrismaError Database) : Service σ Unit := do
  match ← write update with
  | .ok () => pure ()
  | .error e => Prog.fail (.prisma e)

def clock : Service σ Nat := Prog.call fun w => (w.now, w)

section

variable (S : SessionStore σ)

def createSession (userId familyId token : String) : Service σ IssuedRefreshToken :=
  Prog.call fun w => ((S.createSession w.now userId familyId token w.sessions.state.store).1,
    { w with sessions := S.machine.perform w.sessions (.createSession userId familyId token) })

def rotate (presentedToken newToken : String) : Service σ RotationResult :=
  Prog.call fun w => ((S.rotate w.now presentedToken newToken w.sessions.state.store).1,
    { w with sessions := S.machine.perform w.sessions (.rotate presentedToken newToken) })

def revoke (presentedToken : String) : Service σ Unit :=
  Prog.call fun w =>
    ((), { w with sessions := S.machine.perform w.sessions (.revoke presentedToken) })

def revokeUser (userId : String) : Service σ Unit :=
  Prog.call fun w => ((), { w with sessions := S.machine.perform w.sessions (.revokeUser userId) })

end

/-! ## Running the calls -/

@[simp] theorem run_query (read : Tables → α) (w : World σ) :
    (query read : Service σ α).run w = (.ok (read w.db.toTables), w) := rfl

@[simp] theorem run_clock (w : World σ) : (clock : Service σ Nat).run w = (.ok w.now, w) := rfl

@[simp] theorem run_revokeUser (S : SessionStore σ) (userId : String) (w : World σ) :
    (revokeUser S userId).run w =
      (.ok (), { w with sessions := S.machine.perform w.sessions (.revokeUser userId) }) := rfl

theorem run_commit_ok {w : World σ} (update : Database → Except PrismaError Database)
    {db : Database} (ok : update w.db = .ok db) :
    (commit update : Service σ Unit).run w = (.ok (), { w with db }) := by
  simp [commit, write, writeSelect, Prog.run_bind, ok]

theorem run_commit_error {w : World σ} (update : Database → Except PrismaError Database)
    {e : PrismaError} (failed : update w.db = .error e) :
    (commit update : Service σ Unit).run w = (.error (.prisma e), w) := by
  simp [commit, write, writeSelect, Prog.run_bind, failed]

theorem run_commit_eq_ok {w w' : World σ} {update : Database → Except PrismaError Database} :
    (commit update : Service σ Unit).run w = (.ok (), w') ↔
      ∃ db, update w.db = .ok db ∧ w' = { w with db } := by
  cases written : update w.db with
  | ok db =>
      rw [run_commit_ok _ written]
      constructor
      · rintro ⟨⟩
        exact ⟨db, rfl, rfl⟩
      · rintro ⟨db', same, rfl⟩
        cases same
        rfl
  | error e =>
      rw [run_commit_error _ written]
      constructor
      · rintro ⟨⟩
      · rintro ⟨db, same, -⟩
        cases same

/-- A write is admitted when it commits, if nothing after it fails. -/
theorem decides_commit {β : Type} {w : World σ} {update : Database → Except PrismaError Database}
    {f : Unit → Service σ β} {admitted : Prop} (commits : (∃ db, update w.db = .ok db) ↔ admitted)
    (rest : ∀ db, update w.db = .ok db → ∃ b w', (f ()).run { w with db } = (.ok b, w')) :
    Prog.Decides (commit update >>= f) w admitted := by
  cases written : update w.db with
  | ok db =>
      refine .answer (commits.mp ⟨db, written⟩) ?_
      rw [Prog.run_bind_ok (run_commit_ok update written)]
      exact rest db written
  | error e =>
      refine .refuse ?_ ⟨_, Prog.run_bind_error (run_commit_error update written) f⟩
      intro holds
      obtain ⟨db, ok⟩ := commits.mpr holds
      exact absurd (written.symm.trans ok) (by simp)

/-- A write whose failure is turned into an error of the service. -/
theorem decides_writeSelect {β : Type} {w : World σ}
    {update : Database → Except PrismaError Database} {select : Tables → α}
    {f : Except PrismaError α → Service σ β} (answers : ∀ v, ∃ b, f (.ok v) = pure b)
    (fails : ∀ e, ∃ e', f (.error e) = Prog.fail e') :
    Prog.Decides (writeSelect update select >>= f) w (∃ db, update w.db = .ok db) := by
  cases written : update w.db with
  | ok db =>
      obtain ⟨b, answered⟩ := answers (select db.toTables)
      refine .answer ⟨db, rfl⟩ ⟨b, { w with db }, ?_⟩
      simp only [writeSelect, Prog.run_bind, Prog.run_call, written, answered, Prog.run_pure]
  | error e =>
      obtain ⟨e', failed⟩ := fails e
      refine .refuse (by simp) ⟨e', ?_⟩
      simp only [writeSelect, Prog.run_bind, Prog.run_call, written, failed, Prog.run_fail]

/-! ## Calls that change nothing -/

/-- Every call of the procedure leaves the world as it is. -/
def Quiet (p : Service σ α) : Prop := p.Guarantees fun w w' => w' = w

namespace Quiet

variable {β : Type}

theorem pure (a : α) : Quiet (Pure.pure a : Service σ α) := Prog.Guarantees.pure a

theorem fail (e : ServiceError) : Quiet (Prog.fail e : Service σ α) := Prog.Guarantees.fail e

theorem ofExcept (r : Except ServiceError α) : Quiet (Prog.ofExcept r : Service σ α) :=
  Prog.Guarantees.ofExcept r

theorem query (read : Tables → α) : Quiet (Service.query read : Service σ α) :=
  Prog.Guarantees.call fun _ => rfl

theorem clock : Quiet (Service.clock : Service σ Nat) := Prog.Guarantees.call fun _ => rfl

theorem bind {p : Service σ α} {f : α → Service σ β} (first : Quiet p) (rest : ∀ a, Quiet (f a)) :
    Quiet (p >>= f) := Prog.Guarantees.bind first rest

theorem run {p : Service σ α} (quiet : Quiet p) (w : World σ) : (p.run w).2 = w :=
  Prog.Guarantees.run (G := fun w w' : World σ => w' = w) (fun _ => rfl)
    (fun _ _ _ first second => second.trans first) quiet w

end Quiet

/-- A write guarantees what it guarantees when it commits. -/
theorem commit_guarantees {G : World σ → World σ → Prop}
    {update : Database → Except PrismaError Database} (refl : ∀ w, G w w)
    (commits : ∀ w db, update w.db = .ok db → G w { w with db }) :
    (commit update : Service σ Unit).Guarantees G := by
  refine .bind (.call ?_) ?_
  · intro w
    cases written : update w.db with
    | ok db => exact commits w db written
    | error e => exact refl w
  · intro result
    cases result with
    | ok _ => exact .pure _
    | error e => exact .fail _

/-- A write keeps what it keeps when it commits. -/
theorem commit_keeps {J : World σ → Prop} {update : Database → Except PrismaError Database}
    (commits : ∀ w db, J w → update w.db = .ok db → J { w with db }) :
    (commit update : Service σ Unit).Keeps J := by
  intro w holds
  cases written : update w.db with
  | ok db =>
      rw [run_commit_ok update written]
      exact commits w db holds written
  | error e =>
      rw [run_commit_error update written]
      exact holds

end Service

end Arac
