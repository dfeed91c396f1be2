/-
# Arac.Sessions.Redis -- the Redis-backed session store

The three key families of the auth database and the three Lua scripts over them,
command by command:

    refresh:{hash}  -> hash { familyId, userId, used }   deadline = refresh lifetime
    family:{id}     -> set of token hashes in the family
    userfam:{uid}   -> set of family ids of a user

`RedisKey.render_injective`: the rendered keys of the three families (and of the
reset tokens, which share the database) never meet, so each family is a map of its
own.  A script and a `MULTI` run at one instant; `elapse` drops what has expired.

Each script has one lemma that says what it answers and what it leaves at every
`refresh:` and `family:` key (`rotate_effect`, `burn_refresh`, `revokeUser_refresh`,
...).  `refinesLedger` is the simulation of the abstract ledger.
-/
import Arac.Sessions.Ledger
import Arac.Theory.ExpiringMap

namespace Arac.Sessions

open Arac.Theory

set_option autoImplicit false

/-! ## Keys -/

inductive RedisKey where
  | refresh (hash : String)
  | family (familyId : String)
  | userfam (userId : String)
  | pwreset (hash : String)
  deriving DecidableEq

def RedisKey.render : RedisKey → String
  | .refresh hash => "refresh:" ++ hash
  | .family familyId => "family:" ++ familyId
  | .userfam userId => "userfam:" ++ userId
  | .pwreset hash => "pwreset:" ++ hash

/-- Distinct keys are rendered differently. -/
theorem RedisKey.render_injective : Function.Injective RedisKey.render := by
  intro a b same
  have chars := congrArg String.toList same
  cases a <;> cases b <;> simp [render, String.toList_append, String.toList_inj] at chars <;>
    rw [chars]

/-- The session part of the auth Redis database. -/
structure RedisSessions where
  refresh : ExpiringMap String RefreshRecord
  family : ExpiringMap String (OrderedSet String)
  userfam : ExpiringMap String (OrderedSet String)

namespace RedisSessions

def empty : RedisSessions := ⟨ExpiringMap.empty, ExpiringMap.empty, ExpiringMap.empty⟩

/-- The clock reaches `now`. -/
def elapse (now : Nat) (db : RedisSessions) : RedisSessions :=
  ⟨db.refresh.elapse now, db.family.elapse now, db.userfam.elapse now⟩

/-! ## Scripts -/

/-- `DEL` of every `refresh:` key listed in the family set, then of the set. -/
def delFamily (familyId : String) (db : RedisSessions) : RedisSessions :=
  { db with
    refresh := db.refresh.delAll (db.family.smembers familyId)
    family := db.family.del familyId }

/-- The burning of a family, in `ROTATE_LUA` and in `REVOKE_BY_TOKEN_LUA`. -/
def burn (userId familyId : String) (db : RedisSessions) : RedisSessions :=
  let db := db.delFamily familyId
  { db with userfam := db.userfam.srem userId familyId }

/-- What `ROTATE_LUA` returns. -/
inductive RotateReply where
  | invalid
  | reuse (userId familyId : String)
  | rotated (userId familyId : String)
  deriving DecidableEq

/-- `ROTATE_LUA`: the arguments are the old hash, the new hash and the lifetime. -/
def rotateLua (ttl : RefreshTtl) (now : Nat) (oldHash newHash : String) (db : RedisSessions) :
    RotateReply × RedisSessions :=
  match db.refresh.get oldHash with
  | none => (.invalid, db)
  | some ⟨familyId, userId, used⟩ =>
      if used then (.reuse userId familyId, db.burn userId familyId)
      else
        let refresh := db.refresh.update oldHash fun r => { r with used := true }
        let refresh := (refresh.hset newHash ⟨familyId, userId, false⟩).expireAt newHash
          (now + ttl.ms)
        let family := (db.family.sadd familyId newHash).expireAt familyId (now + ttl.ms)
        (.rotated userId familyId, { db with refresh, family })

/-- `REVOKE_BY_TOKEN_LUA`. -/
def revokeByTokenLua (hash : String) (db : RedisSessions) : Nat × RedisSessions :=
  match db.refresh.get hash with
  | none => (0, db)
  | some ⟨familyId, userId, _⟩ => (1, db.burn userId familyId)

/-- `REVOKE_USER_LUA`. -/
def revokeUserLua (userId : String) (db : RedisSessions) : Nat × RedisSessions :=
  let fams := db.userfam.smembers userId
  let db := fams.foldl (fun db familyId => db.delFamily familyId) db
  (fams.length, { db with userfam := db.userfam.del userId })

/-! ## The store -/

section

variable (sha256 : String → String) (ttl : RefreshTtl)

/-- `createSession`: one `MULTI` over the three keys. -/
def createSession (now : Nat) (userId familyId token : String) (db : RedisSessions) :
    IssuedRefreshToken × RedisSessions :=
  let tokenHash := sha256 token
  ({ token, familyId, expiresAt := nowSeconds now + ttl.seconds },
    { refresh := (db.refresh.hset tokenHash ⟨familyId, userId, false⟩).expireAt tokenHash
        (now + ttl.ms)
      family := (db.family.sadd familyId tokenHash).expireAt familyId (now + ttl.ms)
      userfam := (db.userfam.sadd userId familyId).expireAt userId (now + ttl.ms) })

def rotate (now : Nat) (presentedToken newToken : String) (db : RedisSessions) :
    RotationResult × RedisSessions :=
  match rotateLua ttl now (sha256 presentedToken) (sha256 newToken) db with
  | (.reuse userId familyId, db) => (.reuseDetected userId familyId, db)
  | (.rotated userId familyId, db) =>
      (.rotated userId familyId
        { token := newToken, familyId, expiresAt := nowSeconds now + ttl.seconds }, db)
  | (.invalid, db) => (.invalid, db)

def revoke (presentedToken : String) (db : RedisSessions) : RedisSessions :=
  (revokeByTokenLua (sha256 presentedToken) db).2

def revokeUser (userId : String) (db : RedisSessions) : RedisSessions :=
  (revokeUserLua userId db).2

end

end RedisSessions

/-- `RedisSessionStore`. -/
def redisSessionStore (sha256 : String → String) (ttl : RefreshTtl) : SessionStore RedisSessions where
  createSession := RedisSessions.createSession sha256 ttl
  rotate := RedisSessions.rotate sha256 ttl
  revoke _ := RedisSessions.revoke sha256
  revokeUser _ := RedisSessions.revokeUser
  elapse := RedisSessions.elapse

/-- A Redis store as deployed by default. -/
def sampleStore : SessionStore RedisSessions := redisSessionStore sampleSha256 .default

/-- A login and a rotation. -/
def rotatedOnce : Machine.Config (Clocked RedisSessions) Logged :=
  [.createSession "u1" "f1" sampleTokens.1, .rotate sampleTokens.1 sampleTokens.2.1].foldl
    sampleStore.machine.perform ⟨[], ⟨0, .empty⟩⟩

theorem rotatedOnce_reached : sampleStore.Reaches ⟨0, .empty⟩ rotatedOnce := by
  refine (Machine.Reachable.start.perform ?_).perform ?_
  · simp [Fresh]
  · simp [Fresh, Call.mints, sampleTokens]

namespace RedisSessions

/-! ## What the scripts leave -/

variable {ttl : RefreshTtl} {now : Nat} {db : RedisSessions}

/-- The records a reader sees. -/
def ledger (db : RedisSessions) : Ledger := db.refresh.get

theorem ledger_eq_some {h : String} {r : RefreshRecord} :
    db.ledger h = some r ↔ ∃ e, db.refresh h = some e ∧ e.value = r := by
  simp [ledger, ExpiringMap.get]

/-- Opening a session writes one record and renews both indexes. -/
theorem createSession_opened (sha256 : String → String) (ttl : RefreshTtl) (now : Nat)
    (userId familyId token : String) (db : RedisSessions) :
    ∃ hashes families : OrderedSet String,
      db.createSession sha256 ttl now userId familyId token =
        (⟨token, familyId, nowSeconds now + ttl.seconds⟩,
          { refresh := db.refresh.put (sha256 token) ⟨⟨familyId, userId, false⟩, some (now + ttl.ms)⟩
            family := db.family.put familyId ⟨hashes, some (now + ttl.ms)⟩
            userfam := db.userfam.put userId ⟨families, some (now + ttl.ms)⟩ }) ∧
      (∀ h, h ∈ hashes ↔ h ∈ db.family.smembers familyId ∨ h = sha256 token) ∧
      ∀ f, f ∈ families ↔ f ∈ db.userfam.smembers userId ∨ f = familyId := by
  obtain ⟨hashes, family, inHashes⟩ :=
    ExpiringMap.sadd_expireAt_self db.family familyId (sha256 token) (now + ttl.ms)
  obtain ⟨families, userfam, inFamilies⟩ :=
    ExpiringMap.sadd_expireAt_self db.userfam userId familyId (now + ttl.ms)
  refine ⟨hashes, families, ?_, inHashes, inFamilies⟩
  simp only [createSession, ExpiringMap.hset_expireAt, family, userfam]

theorem rotate_invalid {sha256 : String → String} {presented newToken : String}
    (absent : db.refresh (sha256 presented) = none) :
    db.rotate sha256 ttl now presented newToken = (.invalid, db) := by
  simp [rotate, rotateLua, ExpiringMap.get, absent]

theorem rotate_reuse {sha256 : String → String} {presented newToken : String}
    {e : Entry RefreshRecord} (found : db.refresh (sha256 presented) = some e)
    (used : e.value.used = true) :
    db.rotate sha256 ttl now presented newToken =
      (.reuseDetected e.value.userId e.value.familyId,
        db.burn e.value.userId e.value.familyId) := by
  simp [rotate, rotateLua, ExpiringMap.get, found, used]

/-- A rotation retires the old record under its old deadline, adds the new one and
renews the family set.  The user's index is not touched. -/
theorem rotate_rotated (sha256 : String → String) (ttl : RefreshTtl) (now : Nat)
    {presented : String} (newToken : String) {e : Entry RefreshRecord}
    (found : db.refresh (sha256 presented) = some e) (unused : e.value.used = false) :
    ∃ hashes : OrderedSet String,
      db.rotate sha256 ttl now presented newToken =
        (.rotated e.value.userId e.value.familyId
            ⟨newToken, e.value.familyId, nowSeconds now + ttl.seconds⟩,
          { refresh :=
              (db.refresh.put (sha256 presented) ⟨⟨e.value.familyId, e.value.userId, true⟩,
                e.deadline⟩).put (sha256 newToken)
                ⟨⟨e.value.familyId, e.value.userId, false⟩, some (now + ttl.ms)⟩
            family := db.family.put e.value.familyId ⟨hashes, some (now + ttl.ms)⟩
            userfam := db.userfam }) ∧
      ∀ h, h ∈ hashes ↔ h ∈ db.family.smembers e.value.familyId ∨ h = sha256 newToken := by
  obtain ⟨hashes, renewed, members⟩ := ExpiringMap.sadd_expireAt_self db.family
    e.value.familyId (sha256 newToken) (now + ttl.ms)
  refine ⟨hashes, ?_, members⟩
  simp [rotate, rotateLua, ExpiringMap.get, found, unused, ExpiringMap.hset_expireAt, renewed,
    ExpiringMap.update_of_some _ found]

/-- What the rotation script can do. -/
inductive RotateEffect (sha256 : String → String) (ttl : RefreshTtl) (now : Nat)
    (presented newToken : String) (db : RedisSessions) : RotationResult × RedisSessions → Prop
  | invalid (absent : db.refresh (sha256 presented) = none) :
      RotateEffect sha256 ttl now presented newToken db (.invalid, db)
  | reuse {e : Entry RefreshRecord} (found : db.refresh (sha256 presented) = some e)
      (used : e.value.used = true) :
      RotateEffect sha256 ttl now presented newToken db
        (.reuseDetected e.value.userId e.value.familyId, db.burn e.value.userId e.value.familyId)
  | rotated {e : Entry RefreshRecord} (found : db.refresh (sha256 presented) = some e)
      (unused : e.value.used = false) (hashes : OrderedSet String)
      (inHashes : ∀ h, h ∈ hashes ↔
        h ∈ db.family.smembers e.value.familyId ∨ h = sha256 newToken) :
      RotateEffect sha256 ttl now presented newToken db
        (.rotated e.value.userId e.value.familyId
            ⟨newToken, e.value.familyId, nowSeconds now + ttl.seconds⟩,
          { refresh :=
              (db.refresh.put (sha256 presented) ⟨⟨e.value.familyId, e.value.userId, true⟩,
                e.deadline⟩).put (sha256 newToken)
                ⟨⟨e.value.familyId, e.value.userId, false⟩, some (now + ttl.ms)⟩
            family := db.family.put e.value.familyId ⟨hashes, some (now + ttl.ms)⟩
            userfam := db.userfam })

theorem rotate_effect (sha256 : String → String) (ttl : RefreshTtl) (now : Nat)
    (presented newToken : String) (db : RedisSessions) :
    RotateEffect sha256 ttl now presented newToken db
      (db.rotate sha256 ttl now presented newToken) := by
  cases found : db.refresh (sha256 presented) with
  | none =>
      rw [rotate_invalid found]
      exact .invalid found
  | some e =>
      cases used : e.value.used with
      | true =>
          rw [rotate_reuse found used]
          exact .reuse found used
      | false =>
          obtain ⟨hashes, eq, inHashes⟩ := rotate_rotated sha256 ttl now newToken found used
          rw [eq]
          exact .rotated found used hashes inHashes

theorem revoke_some {sha256 : String → String} {presented : String} {e : Entry RefreshRecord}
    (found : db.refresh (sha256 presented) = some e) :
    db.revoke sha256 presented = db.burn e.value.userId e.value.familyId := by
  simp [revoke, revokeByTokenLua, ExpiringMap.get, found]

theorem revoke_none {sha256 : String → String} {presented : String}
    (absent : db.refresh (sha256 presented) = none) : db.revoke sha256 presented = db := by
  simp [revoke, revokeByTokenLua, ExpiringMap.get, absent]

theorem burn_refresh {userId familyId h : String} {e : Entry RefreshRecord} :
    (db.burn userId familyId).refresh h = some e ↔
      h ∉ db.family.smembers familyId ∧ db.refresh h = some e :=
  ExpiringMap.delAll_eq_some

theorem burn_family {userId familyId g : String} {e : Entry (OrderedSet String)} :
    (db.burn userId familyId).family g = some e ↔ g ≠ familyId ∧ db.family g = some e :=
  ExpiringMap.del_eq_some

/-- The loop of `REVOKE_USER_LUA` deletes the listed families and their tokens. -/
theorem delFamilies_spec (fams : List String) (db : RedisSessions) :
    let after := fams.foldl (fun db familyId => db.delFamily familyId) db
    (∀ h e, after.refresh h = some e ↔
      (∀ f ∈ fams, h ∉ db.family.smembers f) ∧ db.refresh h = some e) ∧
    (∀ g e, after.family g = some e ↔ g ∉ fams ∧ db.family g = some e) ∧
    after.userfam = db.userfam := by
  induction fams generalizing db with
  | nil => simp
  | cons f fams ih =>
      obtain ⟨refresh, family, userfam⟩ := ih (db.delFamily f)
      -- a family deleted earlier in the loop lists nothing any more
      have members : ∀ g h, h ∈ (db.delFamily f).family.smembers g ↔
          g ≠ f ∧ h ∈ db.family.smembers g := fun g h => ExpiringMap.mem_smembers_del
      refine ⟨fun h e => ?_, fun g e => ?_, userfam⟩
      · apply (refresh h e).trans
        simp only [List.forall_mem_cons, delFamily, ExpiringMap.delAll_eq_some]
        constructor
        · rintro ⟨rest, notHere, found⟩
          refine ⟨⟨notHere, fun g member listed => ?_⟩, found⟩
          by_cases same : g = f
          · subst same
            exact notHere listed
          · exact rest g member ((members g h).mpr ⟨same, listed⟩)
        · rintro ⟨⟨notHere, rest⟩, found⟩
          exact ⟨fun g member listed => rest g member ((members g h).mp listed).2, notHere, found⟩
      · apply (family g e).trans
        simp only [delFamily, ExpiringMap.del_eq_some, List.mem_cons, not_or]
        tauto

theorem revokeUser_refresh {userId h : String} {e : Entry RefreshRecord} :
    (db.revokeUser userId).refresh h = some e ↔
      (∀ f ∈ db.userfam.smembers userId, h ∉ db.family.smembers f) ∧ db.refresh h = some e :=
  (delFamilies_spec (db.userfam.smembers userId) db).1 h e

theorem revokeUser_family {userId g : String} {e : Entry (OrderedSet String)} :
    (db.revokeUser userId).family g = some e ↔
      g ∉ db.userfam.smembers userId ∧ db.family g = some e :=
  (delFamilies_spec (db.userfam.smembers userId) db).2.1 g e

theorem revokeUser_userfam {userId : String} :
    (db.revokeUser userId).userfam = db.userfam.del userId := by
  have same := (delFamilies_spec (db.userfam.smembers userId) db).2.2
  simp only [revokeUser, revokeUserLua]
  rw [same]

theorem elapse_ledger {h : String} {r : RefreshRecord}
    (found : (db.elapse now).ledger h = some r) : db.ledger h = some r := by
  obtain ⟨e, live, rfl⟩ := ledger_eq_some.mp found
  exact ledger_eq_some.mpr ⟨e, (ExpiringMap.elapse_eq_some.mp live).1, rfl⟩

/-! ## Current tokens -/

/-- The token with this hash is there and was not rotated out. -/
def Current (db : RedisSessions) (h : String) : Prop :=
  ∃ e, db.refresh h = some e ∧ e.value.used = false

/-- No family that the user's index lists contains the hash. -/
def Unlisted (db : RedisSessions) (userId h : String) : Prop :=
  ∀ f ∈ db.userfam.smembers userId, h ∉ db.family.smembers f

/-- The current tokens are the ones `rotate` accepts. -/
theorem rotate_accepts_iff {sha256 : String → String} {presented newToken : String} :
    (∃ userId familyId refresh, (db.rotate sha256 ttl now presented newToken).1 =
      .rotated userId familyId refresh) ↔ db.Current (sha256 presented) := by
  have moved := rotate_effect sha256 ttl now presented newToken db
  generalize db.rotate sha256 ttl now presented newToken = result at moved ⊢
  cases moved with
  | invalid absent => simp [Current, absent]
  | reuse found used => simp [Current, found, used]
  | rotated found unused => simp [Current, found, unused]

/-- `revokeUser` leaves the current tokens that the user's index misses. -/
theorem revokeUser_current {userId h : String} :
    (db.revokeUser userId).Current h ↔ db.Unlisted userId h ∧ db.Current h := by
  simp only [Current, Unlisted, revokeUser_refresh, and_assoc, exists_and_left]

/-- Opening a session changes nothing for other tokens. -/
theorem createSession_current (sha256 : String → String) {userId familyId token h : String}
    (other : h ≠ sha256 token) :
    (db.createSession sha256 ttl now userId familyId token).2.Current h ↔ db.Current h := by
  obtain ⟨_, _, eq, -⟩ := createSession_opened sha256 ttl now userId familyId token db
  rw [eq]
  simp only [Current, ExpiringMap.put_ne other]

/-! ## The ledger -/

theorem rotate_step (sha256 : String → String) (ttl : RefreshTtl) (now : Nat)
    (presented newToken : String) (db : RedisSessions) :
    Ledger.Step sha256 db.ledger (.rotate presented newToken)
      (.rotation (db.rotate sha256 ttl now presented newToken).1)
      (db.rotate sha256 ttl now presented newToken).2.ledger := by
  have moved := rotate_effect sha256 ttl now presented newToken db
  generalize db.rotate sha256 ttl now presented newToken = result at moved ⊢
  cases moved with
  | invalid absent => exact .drops (fun _ => rfl) fun _ _ h => h
  | reuse found used =>
      refine .drops (fun _ => rfl) ?_
      intro h r live
      obtain ⟨e', at_h, rfl⟩ := ledger_eq_some.mp live
      exact ledger_eq_some.mpr ⟨e', (burn_refresh.mp at_h).2, rfl⟩
  | @rotated e found unused =>
      refine .rotates (ledger_eq_some.mpr ⟨e, found, by rw [← unused]⟩) rfl ?_
      intro h r live
      obtain ⟨e', at_h, rfl⟩ := ledger_eq_some.mp live
      rcases ExpiringMap.put_put_eq_some.mp at_h with ⟨rfl, rfl⟩ | ⟨-, rfl, rfl⟩ | ⟨-, ne, old⟩
      · exact Or.inl ⟨rfl, rfl⟩
      · exact Or.inr (Or.inl ⟨rfl, rfl⟩)
      · exact Or.inr (Or.inr ⟨ne, ledger_eq_some.mpr ⟨e', old, rfl⟩⟩)

theorem createSession_step (sha256 : String → String) (ttl : RefreshTtl) (now : Nat)
    (userId familyId token : String) (db : RedisSessions) :
    Ledger.Step sha256 db.ledger (.createSession userId familyId token)
      (.issued (db.createSession sha256 ttl now userId familyId token).1)
      (db.createSession sha256 ttl now userId familyId token).2.ledger := by
  refine .opens rfl ?_
  intro h r live
  obtain ⟨e, at_h, rfl⟩ := ledger_eq_some.mp live
  simp only [createSession, ExpiringMap.hset_expireAt] at at_h
  rcases ExpiringMap.put_eq_some.mp at_h with ⟨rfl, rfl⟩ | ⟨-, old⟩
  · exact Or.inr ⟨rfl, rfl⟩
  · exact Or.inl (ledger_eq_some.mpr ⟨e, old, rfl⟩)

theorem revoke_step (sha256 : String → String) (presented : String) (db : RedisSessions) :
    Ledger.Step sha256 db.ledger (.revoke presented) .done (db.revoke sha256 presented).ledger := by
  refine .drops (fun _ => rfl) ?_
  intro h r live
  cases found : db.refresh (sha256 presented) with
  | none => rwa [revoke_none found] at live
  | some e =>
      rw [revoke_some found] at live
      obtain ⟨e', at_h, rfl⟩ := ledger_eq_some.mp live
      exact ledger_eq_some.mpr ⟨e', (burn_refresh.mp at_h).2, rfl⟩

/-- The Redis store refines the ledger. -/
theorem refinesLedger (sha256 : String → String) (ttl : RefreshTtl) :
    RefinesLedger (redisSessionStore sha256 ttl) sha256 ledger where
  step c call := by
    cases call with
    | createSession userId familyId token =>
        exact createSession_step sha256 ttl c.now userId familyId token c.store
    | rotate presented newToken => exact rotate_step sha256 ttl c.now presented newToken c.store
    | revoke presented => exact revoke_step sha256 presented c.store
    | revokeUser userId =>
        refine .drops (fun _ => rfl) ?_
        intro h r live
        obtain ⟨e, at_h, rfl⟩ := ledger_eq_some.mp live
        exact ledger_eq_some.mpr ⟨e, (revokeUser_refresh.mp at_h).2, rfl⟩
    | elapse ms => exact .drops (fun _ => rfl) fun h r live => elapse_ledger live

end RedisSessions

end Arac.Sessions
