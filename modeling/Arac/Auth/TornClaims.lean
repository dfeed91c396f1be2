/-
# Arac.Auth.TornClaims -- issuing a token while a user's attributes change

`login`, `refresh` and `changePassword` read the user's row, and later, in three
parallel queries, the memberships, the compartments and the department tree.  `Part`
is what one of these reads sees, and `ReadOrder` the order in which the database
answers the three.

When no part is changed after it was read and then another one before it is read, the
token's claims are those of the user at one moment of the request
(`claims_of_one_moment`).
-/
import Arac.Admin.Service
import Arac.Auth.Service
import Arac.Org.Service
import Arac.Services.Concurrent
import Arac.Sessions.InMemory
import Arac.Theory.Snapshot

namespace Arac.Auth

open Arac.Theory Arac.Sessions Arac.Db Arac.Service Arac.Org Arac.Admin

set_option autoImplicit false

/-! ## What is read -/

/-- What the claims are made of. -/
inductive Part where
  | attributes
  | memberships
  | compartments
  | departments
  deriving DecidableEq

namespace Part

instance : Nonempty Part := ⟨.attributes⟩

instance : Fintype Part where
  elems := {.attributes, .memberships, .compartments, .departments}
  complete p := by cases p <;> decide

def Value : Part → Type
  | .attributes => Option (String × Int × Int)
  | .memberships => List Membership
  | .compartments => List Compartment
  | .departments => List Department

instance (p : Part) : DecidableEq p.Value :=
  match p with
  | .attributes => inferInstanceAs (DecidableEq (Option (String × Int × Int)))
  | .memberships => inferInstanceAs (DecidableEq (List Membership))
  | .compartments => inferInstanceAs (DecidableEq (List Compartment))
  | .departments => inferInstanceAs (DecidableEq (List Department))

/-- Tenant, clearance and level, and the rows of the three queries of `effectiveClaims`. -/
def value (userId : String) : (p : Part) → Tables → p.Value
  | .attributes, t => (t.userById userId).map fun u => (u.tenant, u.clearance, u.level)
  | .memberships, t => t.membershipsOf userId
  | .compartments, t => t.compartmentsOf userId
  | .departments, t => t.departmentsOf TENANT

end Part

/-- The order in which the queries of `Promise.all` are answered. -/
structure ReadOrder where
  parts : List Part
  perm : parts.Perm [.memberships, .compartments, .departments]

/-- The order in which they are sent. -/
def ReadOrder.asSent : ReadOrder := ⟨_, .refl _⟩

/-- The answers to the three queries. -/
abbrev ClaimsRows : Type := (p : Part) → p.Value

def ClaimsRows.none : ClaimsRows
  | .attributes => Option.none
  | .memberships => []
  | .compartments => []
  | .departments => []

def ClaimsRows.set (rows : ClaimsRows) (p : Part) (v : p.Value) : ClaimsRows :=
  Function.update rows p v

/-- The claims that the answers give. -/
def ClaimsRows.claims (rows : ClaimsRows) : Except ServiceError EffectiveClaims :=
  (expandMemberships (rows .departments) (rows .memberships)).map fun departments =>
    { departments := departments.toList
      compartments := (rows .compartments : List Compartment).map Compartment.key }

section

variable {σ : Type}

def readParts (userId : String) : List Part → ClaimsRows → Service σ ClaimsRows
  | [], rows => return rows
  | p :: parts, rows => do
      let v ← query (p.value userId)
      readParts userId parts (rows.set p v)

/-- `effectiveClaims` with its queries answered in some order. -/
def effectiveClaimsAlong (order : ReadOrder) (userId : String) : Service σ EffectiveClaims := do
  let rows ← readParts userId order.parts .none
  Prog.ofExcept rows.claims

/-- Answered in the order in which they are sent. -/
theorem effectiveClaimsAlong_asSent (userId : String) :
    (effectiveClaimsAlong .asSent userId : Service σ EffectiveClaims) = effectiveClaims userId := by
  refine congrArg (Prog.await _) (funext fun memberships => ?_)
  refine congrArg (Prog.await _) (funext fun comps => ?_)
  refine congrArg (Prog.await _) (funext fun allDepts => ?_)
  show Prog.ofExcept ((expandMemberships allDepts memberships).map _) =
    Prog.ofExcept (expandMemberships allDepts memberships) >>= _
  cases expandMemberships allDepts memberships <;> rfl

end

namespace AuthService

variable {σ : Type} (S : SessionStore σ) (env : Env) (draws : Draws) (order : ReadOrder)

def toIdentityAlong (user : User) : Service σ AbacIdentity := do
  let claims ← effectiveClaimsAlong order user.id
  return { sub := user.id
           tenant := user.tenant
           departments := claims.departments
           clearance := user.clearance
           level := user.level
           compartments := claims.compartments }

def issueForAlong (user : User) : Service σ AuthResult := do
  let identity ← toIdentityAlong order user
  let access ← signAccessToken env identity draws.jti
  let refresh ← createSession S user.id draws.familyId draws.token
  return { accessToken := access.token
           accessExpiresAt := access.expiresAt
           refreshToken := refresh.token
           refreshExpiresAt := refresh.expiresAt
           user := toSessionUser user }

def loginAlong (email password : String) : Service σ AuthResult := do
  match ← IdentityProvider.verifyCredentials env email password with
  | none => Prog.fail (.unauthorized "Invalid credentials")
  | some user => issueForAlong S env draws order user

def changePasswordAlong (accessToken currentPassword newPassword : String) :
    Service σ AuthResult := do
  let verified ← authenticate env accessToken
  match ← IdentityProvider.findById verified.sub with
  | none => Prog.fail (.unauthorized "Invalid access token")
  | some user =>
      match ← IdentityProvider.verifyCredentials env user.email currentPassword with
      | none => Prog.fail (.unauthorized "Current password is incorrect")
      | some _ =>
          IdentityProvider.changePassword env draws user.id newPassword
          revokeUser S user.id
          issueForAlong S env draws order user

def afterRotateAlong : RotationResult → Service σ AuthResult
  | .reuseDetected _ _ => Prog.fail (.unauthorized "Session revoked")
  | .invalid => Prog.fail (.unauthorized "Invalid refresh token")
  | .expired => Prog.fail (.unauthorized "Invalid refresh token")
  | .rotated userId _ issued => do
      match ← IdentityProvider.findById userId with
      | none =>
          revokeUser S userId
          Prog.fail (.unauthorized "Invalid refresh token")
      | some user =>
          let identity ← toIdentityAlong order user
          let access ← signAccessToken env identity draws.jti
          return { accessToken := access.token
                   accessExpiresAt := access.expiresAt
                   refreshToken := issued.token
                   refreshExpiresAt := issued.expiresAt
                   user := toSessionUser user }

def refreshAlong (presentedRefreshToken : String) : Service σ AuthResult := do
  let result ← rotate S presentedRefreshToken draws.token
  afterRotateAlong S env draws order result

theorem toIdentityAlong_asSent (user : User) :
    (toIdentityAlong .asSent user : Service σ AbacIdentity) = toIdentity user := by
  rw [toIdentityAlong, effectiveClaimsAlong_asSent]
  rfl

theorem issueForAlong_asSent (user : User) :
    issueForAlong S env draws .asSent user = issueFor S env draws user := by
  rw [issueForAlong, toIdentityAlong_asSent]
  rfl

theorem loginAlong_asSent (email password : String) :
    loginAlong S env draws .asSent email password = login S env draws email password := by
  simp only [loginAlong, issueForAlong_asSent]
  rfl

theorem changePasswordAlong_asSent (accessToken currentPassword newPassword : String) :
    changePasswordAlong S env draws .asSent accessToken currentPassword newPassword =
      changePassword S env draws accessToken currentPassword newPassword := by
  simp only [changePasswordAlong, issueForAlong_asSent]
  rfl

theorem refreshAlong_asSent (presentedRefreshToken : String) :
    refreshAlong S env draws .asSent presentedRefreshToken =
      refresh S env draws presentedRefreshToken := by
  have same : ∀ result, afterRotateAlong S env draws .asSent result =
      afterRotate S env draws result := by
    intro result
    cases result with
    | rotated userId familyId issued =>
        simp only [afterRotateAlong, toIdentityAlong_asSent]
        rfl
    | reuseDetected _ _ => rfl
    | invalid => rfl
    | expired => rfl
  exact congrArg _ (funext same)

end AuthService

/-! ## The requests -/

/-- A request that issues a token to a user who is there already. -/
inductive MintRequest where
  | login (email password : String)
  | refresh (presentedRefreshToken : String)
  | changePassword (accessToken currentPassword newPassword : String)

/-- A change of the user's attributes, memberships or compartments. -/
inductive AdminCall where
  | grantAttributes (accessToken : String) (input : GrantInput)
  | setUserMemberships (accessToken : String) (memberships : List MembershipInput)
  | setUserCompartments (accessToken : String) (keys : List String)

section

variable {σ κ : Type} (S : SessionStore σ) (env : Env) (draws : Draws) (order : ReadOrder)

def MintRequest.service : MintRequest → Service σ AuthResult
  | .login email password => AuthService.loginAlong S env draws order email password
  | .refresh presented => AuthService.refreshAlong S env draws order presented
  | .changePassword accessToken current new =>
      AuthService.changePasswordAlong S env draws order accessToken current new

def AdminCall.service (userId : String) : AdminCall → Service σ Unit
  | .grantAttributes accessToken input => (Admin.grantAttributes S env accessToken userId input).void
  | .setUserMemberships accessToken memberships =>
      Org.setUserMemberships S env accessToken userId memberships
  | .setUserCompartments accessToken keys => Org.setUserCompartments S env accessToken userId keys

/-- The request, among any number of administrative calls on the user. -/
def minting (request : MintRequest) (userId : String) (calls : κ → AdminCall) :
    Option κ → Service σ (Option AuthResult)
  | none => do
      let result ← request.service S env draws order
      return some result
  | some k => do
      (calls k).service S env userId
      return none

end

/-- The number of the call that reads the user's row. -/
def MintRequest.rowCall : MintRequest → Nat
  | .login _ _ => 0
  | .refresh _ => 1
  | .changePassword _ _ _ => 1

/-- The number of the first of the three calls that read the claims. -/
def MintRequest.claimsCall : MintRequest → Nat
  | .login _ _ => 1
  | .refresh _ => 2
  | .changePassword _ _ _ => 5

/-- The number of the call that reads the part. -/
def MintRequest.position (request : MintRequest) (order : ReadOrder) : Part → Nat
  | .attributes => request.rowCall
  | p => request.claimsCall + order.parts.idxOf p

/-- The claims of the user in the database. -/
def IdentityIn (t : Tables) (userId : String) (identity : AbacIdentity) : Prop :=
  ∃ row claims, t.userById userId = some row ∧ claimsIn t userId = .ok claims ∧
    identity = { sub := userId, tenant := row.tenant, departments := claims.departments,
                 clearance := row.clearance, level := row.level, compartments := claims.compartments }

section

variable {σ : Type}

/-- A part, as the world has it. -/
def Part.of (userId : String) (p : Part) (w : World σ) : p.Value := p.value userId w.db.toTables

/-- A part was changed after the request had read it, and then, or at once, one that it had not. -/
def TornClaims (request : MintRequest) (order : ReadOrder) (userId : String) {κ : Type}
    [DecidableEq κ] (trace : List (Made (Option κ) (World σ))) : Prop :=
  Torn none (request.position order) (Part.of userId) trace

end

instance {σ κ : Type} [DecidableEq κ] (request : MintRequest) (order : ReadOrder) (userId : String)
    (trace : List (Made (Option κ) (World σ))) :
    Decidable (TornClaims request order userId trace) := inferInstanceAs (Decidable (Torn _ _ _ _))

namespace ReadOrder

variable {order : ReadOrder} {request : MintRequest}

theorem nodup (order : ReadOrder) : order.parts.Nodup := order.perm.nodup_iff.mpr (by decide)

theorem length (order : ReadOrder) : order.parts.length = 3 := order.perm.length_eq

theorem mem_iff (order : ReadOrder) {p : Part} : p ∈ order.parts ↔ p ≠ .attributes := by
  rw [order.perm.mem_iff]
  cases p <;> simp

end ReadOrder

namespace MintRequest

variable {order : ReadOrder} {request : MintRequest} {p : Part}

theorem rowCall_lt (request : MintRequest) : request.rowCall < request.claimsCall := by
  cases request <;> simp [rowCall, claimsCall]

theorem position_of_ne (other : p ≠ .attributes) :
    request.position order p = request.claimsCall + order.parts.idxOf p := by
  cases p with
  | attributes => exact absurd rfl other
  | memberships => rfl
  | compartments => rfl
  | departments => rfl

/-- The call that reads the row comes before the others. -/
theorem position_cases (request : MintRequest) (order : ReadOrder) (p : Part) :
    (p = .attributes ∧ request.position order p = request.rowCall) ∨
      (p ∈ order.parts ∧ request.position order p = request.claimsCall + order.parts.idxOf p ∧
        order.parts.idxOf p < 3) := by
  by_cases attributes : p = .attributes
  · subst attributes
    exact Or.inl ⟨rfl, rfl⟩
  · have member := order.mem_iff.mpr attributes
    exact Or.inr ⟨member, position_of_ne attributes, order.length ▸ List.idxOf_lt_length_of_mem member⟩

theorem position_injective (request : MintRequest) (order : ReadOrder) :
    Function.Injective (request.position order) := by
  have first := request.rowCall_lt
  intro p q same
  rcases request.position_cases order p with ⟨rfl, at_p⟩ | ⟨member, at_p, -⟩
  · rcases request.position_cases order q with ⟨rfl, -⟩ | ⟨-, at_q, -⟩
    · rfl
    · omega
  · rcases request.position_cases order q with ⟨rfl, at_q⟩ | ⟨-, at_q, -⟩
    · omega
    · exact (List.idxOf_inj member).mp (by omega)

/-- A call that comes before the row is read, between it and the claims, or after them. -/
theorem position_ne {n : Nat} (between : n < request.rowCall ∨
      (request.rowCall < n ∧ n < request.claimsCall) ∨ request.claimsCall + 3 ≤ n) (p : Part) :
    request.position order p ≠ n := by
  have first := request.rowCall_lt
  rcases request.position_cases order p with ⟨-, at_p⟩ | ⟨-, at_p, bound⟩ <;> omega

end MintRequest

/-! ## The requests read the parts one by one -/

section

variable {σ : Type} {S : SessionStore σ} {env : Env} {draws : Draws} {order : ReadOrder}
  {request : MintRequest} {userId : String} {φ : ReadPhase Part Part.Value}

/-- A call that leaves the database alone, where it reads no part. -/
theorem ReadMove.leaves {w w' : World σ} (db : w'.db = w.db)
    (between : φ.calls < request.rowCall ∨
      (request.rowCall < φ.calls ∧ φ.calls < request.claimsCall) ∨ request.claimsCall + 3 ≤ φ.calls) :
    ReadMove (request.position order) (Part.of userId) φ w w' φ.next :=
  .passes (MintRequest.position_ne between) fun p => by rw [Part.of, Part.of, db]

/-- What was read is what the answers hold. -/
def ClaimsRows.Agree (rows : ClaimsRows) (parts : List Part) (φ : ReadPhase Part Part.Value) : Prop :=
  ∀ p ∈ parts, φ.seen p = some (rows p)

theorem ClaimsRows.Agree.read {rows : ClaimsRows} {parts : List Part} (agree : rows.Agree parts φ)
    {p : Part} (v : p.Value) : (rows.set p v).Agree (parts ++ [p]) (φ.read p v) := by
  intro q member
  by_cases same : q = p
  · subst same
    simp [ReadPhase.read, ClaimsRows.set]
  · have listed : q ∈ parts := by simpa [same] using member
    simpa [ReadPhase.read, ClaimsRows.set, same] using agree q listed

theorem readParts_follows {owner : String} {parts earlier : List Part} {rows : ClaimsRows}
    (split : order.parts = earlier ++ parts) (calls : φ.calls = request.claimsCall + earlier.length)
    (agree : owner = userId → rows.Agree earlier φ) :
    (readParts owner parts rows : Service σ ClaimsRows).Follows (fun _ => True)
      (ReadMove (request.position order) (Part.of userId))
      (fun r φ' => φ'.calls = request.claimsCall + 3 ∧ φ'.seen .attributes = φ.seen .attributes ∧
        ∃ rows : ClaimsRows, r = .ok rows ∧ (owner = userId → rows.Agree order.parts φ')) φ := by
  induction parts generalizing earlier rows φ with
  | nil =>
      rw [List.append_nil] at split
      refine .pure ⟨?_, rfl, rows, rfl, split ▸ agree⟩
      rw [calls, ← split, order.length]
  | cons p parts ih =>
      have member : p ∈ order.parts := split ▸ List.mem_append_right _ List.mem_cons_self
      have claim : p ≠ .attributes := order.mem_iff.mp member
      have nodup := split ▸ order.nodup
      have fresh : p ∉ earlier := fun listed =>
        List.disjoint_of_nodup_append nodup listed List.mem_cons_self
      have here : request.position order p = φ.calls := by
        rw [MintRequest.position_of_ne claim, calls, split, List.idxOf_append_of_notMem fresh,
          List.idxOf_cons_self, Nat.add_zero]
      refine .bind (D := fun r φ' => ∃ w : World σ, r = .ok (p.value owner w.db.toTables) ∧
        φ' = φ.read p (p.of userId w))
        (.call fun w _ => ⟨_, .reads here fun _ => rfl, w, rfl, rfl⟩) ?_ ?_
      · rintro v _ ⟨w, answer, rfl⟩
        cases answer
        have later : order.parts = (earlier ++ [p]) ++ parts := by simpa using split
        refine (ih later ?_ ?_).mono ?_
        · rw [List.length_append, List.length_singleton, ← Nat.add_assoc, ← calls]
          rfl
        · rintro rfl
          exact (agree rfl).read _
        · rintro r φ' ⟨calls', attributes, answers⟩
          refine ⟨calls', attributes.trans ?_, answers⟩
          simp [ReadPhase.read, Function.update_of_ne (Ne.symm claim)]
      · rintro e _ ⟨w, impossible, -⟩
        cases impossible

/-- The row that was read is the user's. -/
def Known (userId : String) (user : User) (φ : ReadPhase Part Part.Value) : Prop :=
  user.id = userId → φ.seen .attributes = some (some (user.tenant, user.clearance, user.level))

/-- Every part was read, and where all of them are those of one database, so are the claims. -/
structure Derives (userId : String) (identity : AbacIdentity) (φ : ReadPhase Part Part.Value) :
    Prop where
  complete : ∀ p, φ.seen p ≠ none
  derived : ∀ t : Tables, (∀ p, φ.seen p = some (p.value userId t)) → IdentityIn t userId identity

theorem ClaimsRows.claims_eq {rows : ClaimsRows} {t : Tables}
    (same : ∀ p, p ≠ .attributes → rows p = p.value userId t) : rows.claims = claimsIn t userId := by
  rw [claims, claimsIn, same .departments (by decide), same .memberships (by decide),
    same .compartments (by decide)]
  rfl

theorem Derives.of_agree {user : User} (mine : user.id = userId) (known : Known userId user φ)
    {rows : ClaimsRows} (agree : rows.Agree order.parts φ) {claims : EffectiveClaims}
    (ok : rows.claims = .ok claims) :
    Derives userId { sub := user.id, tenant := user.tenant, departments := claims.departments,
                     clearance := user.clearance, level := user.level,
                     compartments := claims.compartments } φ where
  complete p := by
    by_cases attributes : p = .attributes
    · rw [attributes, known mine]
      exact Option.some_ne_none _
    · rw [agree p (order.mem_iff.mpr attributes)]
      exact Option.some_ne_none _
  derived t all := by
    have rows_eq : rows.claims = claimsIn t userId := by
      refine ClaimsRows.claims_eq fun p other => ?_
      exact Option.some.inj ((agree p (order.mem_iff.mpr other)).symm.trans (all p))
    have attributes := Option.some.inj ((known mine).symm.trans (all .attributes))
    obtain ⟨row, found, same⟩ := Option.map_eq_some_iff.mp attributes.symm
    simp only [Prod.mk.injEq] at same
    obtain ⟨tenant, clearance, level⟩ := same
    exact ⟨row, claims, found, rows_eq.symm.trans ok, by rw [mine, tenant, clearance, level]⟩

theorem toIdentityAlong_follows {user : User} (known : Known userId user φ)
    (calls : φ.calls = request.claimsCall) :
    (AuthService.toIdentityAlong order user : Service σ AbacIdentity).Follows (fun _ => True)
      (ReadMove (request.position order) (Part.of userId))
      (fun r φ' => request.claimsCall + 3 ≤ φ'.calls ∧
        ∀ identity, r = .ok identity → user.id = userId → Derives userId identity φ') φ := by
  refine .bind (D := fun r φ' => request.claimsCall + 3 ≤ φ'.calls ∧ ∀ claims, r = .ok claims →
    user.id = userId → Known userId user φ' ∧ ∃ rows : ClaimsRows, rows.Agree order.parts φ' ∧
      rows.claims = .ok claims) ?_ ?_ ?_
  · have split : order.parts = [] ++ order.parts := rfl
    refine .bind (readParts_follows split calls fun _ p impossible => ?_) ?_ ?_
    · cases impossible
    · rintro rows φ' ⟨calls', attributes, _, same, agree⟩
      cases same
      refine .ofExcept ⟨Nat.le_of_eq calls'.symm, ?_⟩
      intro claims ok mine
      refine ⟨fun mine => attributes.trans (known mine), rows, agree mine, ok⟩
    · rintro e φ' ⟨-, -, _, impossible, -⟩
      cases impossible
  · rintro claims φ' ⟨calls', read⟩
    refine .pure ⟨calls', ?_⟩
    rintro _ ⟨⟩ mine
    obtain ⟨known, rows, agree, ok⟩ := read claims rfl mine
    exact .of_agree mine known agree ok
  · rintro e φ' ⟨calls', -⟩
    refine ⟨calls', ?_⟩
    intro identity impossible
    cases impossible

/-- The token that was issued is signed for the user's claims, as they were read. -/
def Minted (env : Env) (draws : Draws) (userId : String) (r : Except ServiceError AuthResult)
    (φ : ReadPhase Part Part.Value) : Prop :=
  ∀ result, r = .ok result → result.user.id = userId → ∃ identity now,
    result.accessToken = env.jwtSign (env.claimsFor identity draws.jti now) ∧
      Derives userId identity φ

theorem Minted.error {e : ServiceError} : Minted env draws userId (.error e) φ := by
  intro result impossible
  cases impossible

/-- Reading the time for the token. -/
theorem signAccessToken_follows (identity : AbacIdentity) (calls : request.claimsCall + 3 ≤ φ.calls) :
    (signAccessToken env identity draws.jti : Service σ IssuedAccessToken).Follows (fun _ => True)
      (ReadMove (request.position order) (Part.of userId))
      (fun r φ' => φ' = φ.next ∧ ∃ access now, r = .ok access ∧
        access.token = env.jwtSign (env.claimsFor identity draws.jti now)) φ := by
  refine .bind (D := fun r φ' => φ' = φ.next ∧ ∃ now, r = .ok now)
    (.call fun w _ => ⟨_, ReadMove.leaves rfl (Or.inr (Or.inr calls)), rfl, _, rfl⟩) ?_ ?_
  · rintro now _ ⟨rfl, -⟩
    exact .pure ⟨rfl, _, now, rfl, rfl⟩
  · rintro e _ ⟨-, _, impossible⟩
    cases impossible

theorem issueForAlong_follows {user : User} (known : Known userId user φ)
    (calls : φ.calls = request.claimsCall) :
    (AuthService.issueForAlong S env draws order user).Follows (fun _ => True)
      (ReadMove (request.position order) (Part.of userId)) (Minted env draws userId) φ := by
  refine .bind (toIdentityAlong_follows known calls) ?_ fun e φ' _ => Minted.error
  rintro identity φ₁ ⟨calls₁, derives⟩
  refine .bind (signAccessToken_follows identity calls₁) ?_ fun e φ' _ => Minted.error
  rintro access _ ⟨rfl, _, now, same, token⟩
  cases same
  refine .bind (D := fun _ φ' => φ' = φ₁.next.next) (.call fun w _ => ⟨_,
    ReadMove.leaves rfl (Or.inr (Or.inr (Nat.le_succ_of_le calls₁))), rfl⟩) ?_
    fun e φ' _ => Minted.error
  rintro refresh _ rfl
  refine .pure ?_
  rintro _ ⟨⟩ mine
  have derives := derives identity rfl mine
  exact ⟨identity, now, token, derives.complete, derives.derived⟩

/-- The call that reads the user's row. -/
theorem row_follows {read : Tables → Option Db.User}
    (stored : ∀ (db : Database) row, read db.toTables = some row → row ∈ db.users)
    (calls : φ.calls = request.rowCall) :
    (query read : Service σ (Option Db.User)).Follows (fun _ => True)
      (ReadMove (request.position order) (Part.of userId))
      (fun r φ' => φ'.calls = request.rowCall + 1 ∧
        ∀ row, r = .ok (some row) → Known userId (toUser row) φ') φ := by
  refine .call ?_
  intro w _
  have here : request.position order .attributes = φ.calls := calls.symm
  refine ⟨φ.read .attributes (Part.of userId .attributes w), .reads here fun _ => rfl,
    congrArg (· + 1) calls, ?_⟩
  intro row answer mine
  have found : w.db.userById userId = some row :=
    Database.userById_eq_some.mpr ⟨stored w.db row (Except.ok.inj answer), mine⟩
  refine (Function.update_self Part.attributes _ φ.seen).trans (congrArg some ?_)
  exact congrArg (Option.map _) found

/-- The call that reads the user's row, when the row itself is all that is made of it. -/
theorem user_follows {read : Tables → Option Db.User}
    (stored : ∀ (db : Database) row, read db.toTables = some row → row ∈ db.users)
    {select : Option Db.User → Option User}
    (selects : ∀ found user, select found = some user → ∃ row, found = some row ∧ toUser row = user)
    (calls : φ.calls = request.rowCall) :
    (query read >>= fun found => pure (select found) : Service σ (Option User)).Follows
      (fun _ => True) (ReadMove (request.position order) (Part.of userId))
      (fun r φ' => φ'.calls = request.rowCall + 1 ∧
        ∀ user, r = .ok (some user) → Known userId user φ') φ := by
  refine .bind (row_follows stored calls) ?_ ?_
  · rintro found φ' ⟨calls', known⟩
    refine .pure ⟨calls', ?_⟩
    intro user answer
    obtain ⟨row, rfl, rfl⟩ := selects found user (Except.ok.inj answer)
    exact known row rfl
  · rintro e φ' ⟨calls', -⟩
    refine ⟨calls', ?_⟩
    intro user impossible
    cases impossible

theorem verifyCredentials_follows {email password : String} (calls : φ.calls = request.rowCall) :
    (IdentityProvider.verifyCredentials env email password : Service σ (Option User)).Follows
      (fun _ => True) (ReadMove (request.position order) (Part.of userId))
      (fun r φ' => φ'.calls = request.rowCall + 1 ∧
        ∀ user, r = .ok (some user) → Known userId user φ') φ := by
  refine user_follows (fun _ _ => List.mem_of_find?_eq_some) ?_ calls
  intro found user answer
  split at answer
  · exact Option.map_eq_some_iff.mp answer
  · cases answer

theorem findById_follows {id : String} (calls : φ.calls = request.rowCall) :
    (IdentityProvider.findById id : Service σ (Option User)).Follows
      (fun _ => True) (ReadMove (request.position order) (Part.of userId))
      (fun r φ' => φ'.calls = request.rowCall + 1 ∧
        ∀ user, r = .ok (some user) → Known userId user φ') φ :=
  user_follows (fun _ _ => List.mem_of_find?_eq_some)
    (fun _ _ answer => Option.map_eq_some_iff.mp answer) calls

theorem loginAlong_follows {email password : String} (calls : φ.calls = 0) :
    (AuthService.loginAlong S env draws order email password).Follows (fun _ => True)
      (ReadMove ((MintRequest.login email password).position order) (Part.of userId))
      (Minted env draws userId) φ := by
  refine .bind (verifyCredentials_follows calls) ?_ fun e φ' _ => Minted.error
  rintro found φ' ⟨calls', known⟩
  cases found with
  | none => exact .fail Minted.error
  | some user => exact issueForAlong_follows (known user rfl) calls'

theorem refreshAlong_follows {presented : String} (calls : φ.calls = 0) :
    (AuthService.refreshAlong S env draws order presented).Follows (fun _ => True)
      (ReadMove ((MintRequest.refresh presented).position order) (Part.of userId))
      (Minted env draws userId) φ := by
  have first : φ.calls < (MintRequest.refresh presented).rowCall := by
    rw [calls]
    exact Nat.one_pos
  refine .bind (D := fun _ φ' => φ' = φ.next)
    (.call fun w _ => ⟨_, ReadMove.leaves rfl (Or.inl first), rfl⟩) ?_ fun e φ' _ => Minted.error
  rintro result _ rfl
  cases result with
  | reuseDetected _ _ => exact .fail Minted.error
  | invalid => exact .fail Minted.error
  | expired => exact .fail Minted.error
  | rotated owner familyId issued =>
      have at_row : φ.next.calls = (MintRequest.refresh presented).rowCall := congrArg (· + 1) calls
      refine .bind (findById_follows at_row) ?_ fun e φ' _ => Minted.error
      rintro found φ' ⟨calls', known⟩
      cases found with
      | none =>
          -- the call that would read the first claim ends the sessions instead
          refine .bind (D := fun _ _ => True) (.call fun w _ => ?_)
            (fun _ _ _ => .fail Minted.error) fun e φ' _ => Minted.error
          have moved : ∃ φ₁, ReadMove ((MintRequest.refresh presented).position order)
              (Part.of userId) φ' w (w.perform S (.revokeUser owner)) φ₁ :=
            ReadMove.exists_next φ' fun _ => rfl
          obtain ⟨φ₁, moved⟩ := moved
          exact ⟨φ₁, moved, trivial⟩
      | some user =>
          refine .bind (toIdentityAlong_follows (known user rfl) calls') ?_ fun e φ' _ => Minted.error
          rintro identity φ₁ ⟨calls₁, derives⟩
          refine .bind (signAccessToken_follows identity calls₁) ?_ fun e φ' _ => Minted.error
          rintro access _ ⟨rfl, _, now, same, token⟩
          cases same
          refine .pure ?_
          rintro _ ⟨⟩ mine
          have derives := derives identity rfl mine
          exact ⟨identity, now, token, derives.complete, derives.derived⟩

/-- A new password is none of the parts. -/
theorem value_userUpdate {db db' : Database} {id passwordHash : String}
    (ok : db.userUpdate id { passwordHash := some passwordHash } = .ok db') (p : Part) :
    p.value userId db'.toTables = p.value userId db.toTables := by
  rw [Database.userUpdate_ok ok]
  cases p with
  | attributes =>
      have ids : (fun u : Db.User => decide (u.id = userId)) ∘ (fun u : Db.User =>
          if u.id = id then u.update { passwordHash := some passwordHash } else u) =
            fun u => decide (u.id = userId) := by
        funext u
        simp only [Function.comp]
        split <;> rfl
      have attributes : (fun u : Db.User => (u.tenant, u.clearance, u.level)) ∘ (fun u : Db.User =>
          if u.id = id then u.update { passwordHash := some passwordHash } else u) =
            fun u => (u.tenant, u.clearance, u.level) := by
        funext u
        simp only [Function.comp]
        split <;> rfl
      simp only [Part.value, Tables.userById, List.find?_map, Option.map_map, ids, attributes]
      rfl
  | memberships => rfl
  | compartments => rfl
  | departments => rfl

theorem changePasswordAlong_follows {accessToken current new : String} (calls : φ.calls = 0) :
    (AuthService.changePasswordAlong S env draws order accessToken current new).Follows
      (fun _ => True)
      (ReadMove ((MintRequest.changePassword accessToken current new).position order) (Part.of userId))
      (Minted env draws userId) φ := by
  have first : φ.calls < (MintRequest.changePassword accessToken current new).rowCall := by
    rw [calls]
    exact Nat.one_pos
  refine .bind (D := fun _ φ' => φ' = φ.next) ?_ ?_ fun e φ' _ => Minted.error
  · refine .bind (D := fun r φ' => φ' = φ.next)
      (.call fun w _ => ⟨_, ReadMove.leaves rfl (Or.inl first), rfl⟩) ?_ fun e φ' same => same
    rintro now _ rfl
    cases env.verifyAccessToken now accessToken with
    | ok verified => exact .pure rfl
    | error e => exact .fail rfl
  rintro verified _ rfl
  have at_row : φ.next.calls = (MintRequest.changePassword accessToken current new).rowCall :=
    congrArg (· + 1) calls
  refine .bind (findById_follows at_row) ?_ fun e φ' _ => Minted.error
  rintro found φ₁ ⟨calls₁, known⟩
  cases found with
  | none => exact .fail Minted.error
  | some user =>
      have known := known user rfl
      -- three calls between the row and the claims
      have between : ∀ n < 3, (MintRequest.changePassword accessToken current new).rowCall <
          φ₁.calls + n ∧ φ₁.calls + n < (MintRequest.changePassword accessToken current new).claimsCall := by
        intro n bound
        simp only [MintRequest.rowCall] at calls₁
        simp only [MintRequest.rowCall, MintRequest.claimsCall]
        omega
      refine .bind (D := fun _ φ' => φ' = φ₁.next) ?_ ?_ fun e φ' _ => Minted.error
      · refine .bind (D := fun _ φ' => φ' = φ₁.next) (.call fun w _ => ⟨_, ReadMove.leaves rfl
          (Or.inr (Or.inl (between 0 (by omega)))), rfl⟩) ?_ fun e φ' same => same
        rintro row _ rfl
        exact .pure rfl
      rintro checked _ rfl
      cases checked with
      | none => exact .fail Minted.error
      | some _ =>
          refine .bind (D := fun _ φ' => φ' = φ₁.next.next) ?_ ?_ fun e φ' _ => Minted.error
          · refine commit_follows ?_ ?_
            · intro w db _ ok
              exact ⟨_, .passes (MintRequest.position_ne (Or.inr (Or.inl (between 1 (by omega)))))
                fun p => value_userUpdate ok p, rfl⟩
            · intro w e _ _
              exact ⟨_, ReadMove.leaves rfl (Or.inr (Or.inl (between 1 (by omega)))), rfl⟩
          rintro _ _ rfl
          refine .bind (D := fun _ φ' => φ' = φ₁.next.next.next) (.call fun w _ => ⟨_, ReadMove.leaves
            rfl (Or.inr (Or.inl (between 2 (by omega)))), rfl⟩) ?_ fun e φ' _ => Minted.error
          rintro _ _ rfl
          refine issueForAlong_follows known ?_
          show φ₁.calls + 1 + 1 + 1 = 5
          rw [calls₁]
          rfl

/-- Every request that issues a token. -/
theorem service_follows (request : MintRequest) (calls : φ.calls = 0) :
    (request.service S env draws order).Follows (fun _ => True)
      (ReadMove (request.position order) (Part.of userId)) (Minted env draws userId) φ := by
  cases request with
  | login email password => exact loginAlong_follows calls
  | refresh presented => exact refreshAlong_follows calls
  | changePassword accessToken current new => exact changePasswordAlong_follows calls

end

/-! ## Whole runs -/

section

variable {σ κ : Type} [DecidableEq κ] {S : SessionStore σ} {env : Env} {draws : Draws}
  {order : ReadOrder} {request : MintRequest} {userId : String} {calls : κ → AdminCall}
  {w₀ : World σ} {P : Pool (Option κ) (World σ) ServiceError (Option AuthResult)}

/-- In a run that tears no claims, the token that a request issues is signed for the
user's claims in one database of the run, from the time of the request. -/
theorem claims_of_one_moment
    (run : Pool.Run (TimePasses S) Always
      (Pool.start (minting S env draws order request userId calls) w₀) P)
    {result : AuthResult} (issued : P.Ended none (.ok (some result)))
    (mine : result.user.id = userId) (whole : ¬ TornClaims request order userId P.trace) :
    ∃ identity now w, result.accessToken = env.jwtSign (env.claimsFor identity draws.jti now) ∧
      During none P.trace w ∧ IdentityIn w.db.toTables userId identity := by
  have reads : (minting S env draws order request userId calls none).Follows (fun _ => True)
      (ReadMove (request.position order) (Part.of userId))
      (fun r φ => ∀ result, r = .ok (some result) → Minted env draws userId (.ok result) φ) .start := by
    refine .bind (service_follows request rfl) ?_ ?_
    · intro result φ minted
      refine .pure ?_
      rintro _ ⟨⟩
      exact minted
    · intro e φ _ result impossible
      cases impossible
  have quiet : ∀ w w' : World σ, TimePasses S w w' → ∀ p, Part.of userId p w' = Part.of userId p w := by
    rintro w _ ⟨ms, rfl⟩ p
    rfl
  obtain ⟨φ, minted, snapshot⟩ :=
    Pool.Run.snapshot (request.position_injective order) reads quiet run issued whole
  obtain ⟨identity, now, token, derives⟩ := minted result rfl result rfl mine
  obtain ⟨w, during, all⟩ := snapshot derives.complete
  exact ⟨identity, now, w, token, during, derives.derived w.db.toTables all⟩

end

/-! ## A clearance and a department -/

/-- An environment whose tokens show the clearance and the departments. -/
def showingEnv : Env :=
  { verifyingEnv with
    jwtSign claims :=
      claims.sub ++ " " ++ toString claims.clearance ++ " " ++ String.intercalate "," claims.departments }

/-- One administrator raises the clearance, then the department is changed. -/
def raiseAndMove : Bool → AdminCall
  | false => .grantAttributes "admin@acme.test" ⟨none, none, some 5, none⟩
  | true => .setUserMemberships "admin@acme.test" [⟨"it", none⟩]

def mintingAlong (schedule : List (Option Bool)) :
    Pool (Option Bool) (World InMemorySessions) ServiceError (Option AuthResult) :=
  Pool.play Always (Pool.start (minting (inMemorySessionStore sampleSha256 .default) showingEnv
    sampleDraws .asSent (.login "hr@acme.test" "argon2id$") "hr@acme.test" raiseAndMove)
    (World.fresh .empty 0 staffed)) schedule

/-- The department changes during the login, the clearance after it. -/
def movedInTime : List (Option Bool) :=
  [none] ++ List.replicate 20 (some true) ++ List.replicate 10 none ++ List.replicate 20 (some false)

/-- The login reads the row; both changes are made; it reads the rest. -/
def raisedAndMoved : List (Option Bool) :=
  [none] ++ List.replicate 20 (some false) ++ List.replicate 20 (some true) ++ List.replicate 10 none

/-- The result of the login. -/
def resultAlong (schedule : List (Option Bool)) : Option AuthResult :=
  ((mintingAlong schedule).procs none).ended.bind fun r => r.toOption.bind id

theorem ended_of_result {schedule : List (Option Bool)} {result : AuthResult}
    (found : resultAlong schedule = some result) :
    (mintingAlong schedule).Ended none (.ok (some result)) := by
  obtain ⟨r, ended, answer⟩ := Option.bind_eq_some_iff.mp found
  cases r with
  | error e => cases answer
  | ok r =>
      cases answer
      exact ended

/-- What the login answers in both runs. -/
def harveyInIt : AuthResult :=
  { accessToken := "hr@acme.test 2 it", accessExpiresAt := 900, refreshToken := sampleTokens.1,
    refreshExpiresAt := 1209600, user := ⟨"hr@acme.test", "Harvey HR", "hr@acme.test", "hr"⟩ }

theorem claims_of_one_moment_moved :
    ∃ identity now w, harveyInIt.accessToken =
        showingEnv.jwtSign (showingEnv.claimsFor identity sampleDraws.jti now) ∧
      During none (mintingAlong movedInTime).trace w ∧
      IdentityIn w.db.toTables "hr@acme.test" identity :=
  claims_of_one_moment (Pool.run_play _ _) (ended_of_result (by decide +kernel)) rfl (by decide +kernel)

/-- The token that shows the claims of the user in a database. -/
def tokenIn (t : Tables) (userId : String) : Option String :=
  (t.userById userId).bind fun row => (claimsIn t userId).toOption.map fun claims =>
    userId ++ " " ++ toString row.clearance ++ " " ++ String.intercalate "," claims.departments

/-- The token has the clearance from before the first change and the department from
after the second one: at no moment did the user have both. -/
theorem not_always_of_one_moment : ¬ ∀ {σ κ : Type} [DecidableEq κ] (S : SessionStore σ) (env : Env)
    (draws : Draws) (order : ReadOrder) (request : MintRequest) (userId : String)
    (calls : κ → AdminCall) (w₀ : World σ)
    (P : Pool (Option κ) (World σ) ServiceError (Option AuthResult)) (result : AuthResult),
    Pool.Run (TimePasses S) Always
      (Pool.start (minting S env draws order request userId calls) w₀) P →
    P.Ended none (.ok (some result)) → result.user.id = userId →
    ∃ identity now w, result.accessToken = env.jwtSign (env.claimsFor identity draws.jti now) ∧
      During none P.trace w ∧ IdentityIn w.db.toTables userId identity := by
  intro always
  obtain ⟨identity, now, w, token, during, row, claims, found, ok, rfl⟩ := always
    (inMemorySessionStore sampleSha256 .default) showingEnv sampleDraws .asSent
    (.login "hr@acme.test" "argon2id$") "hr@acme.test" raiseAndMove (World.fresh .empty 0 staffed)
    (mintingAlong raisedAndMoved) harveyInIt (Pool.run_play _ _)
    (ended_of_result (by decide +kernel)) rfl
  obtain ⟨e, member, rfl⟩ := during.met
  have never : ∀ e ∈ (mintingAlong raisedAndMoved).trace,
      tokenIn e.met.db.toTables "hr@acme.test" ≠ some harveyInIt.accessToken := by decide +kernel
  apply never e member
  rw [tokenIn, found, ok, token]
  rfl

end Arac.Auth
