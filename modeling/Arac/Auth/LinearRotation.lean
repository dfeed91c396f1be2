/-
# Arac.Auth.LinearRotation -- one token at a time, for one user

`Linear` (in `Sessions.Ledger`) read as a property of runs, for both session stores,
and carried through `AuthService.refresh`.  `refresh` is executed among others:
before each of its calls any requests may have moved the session store along
admitted calls and changed everything else arbitrarily.  The token it signs is for
the user named by the `rotated` answer, which is the user who opened the family.
-/
import Arac.Auth.Service
import Arac.Sessions.Redis
import Arac.Sessions.InMemory

namespace Arac.Auth

open Arac.Theory Arac.Sessions Arac.Db Arac.Service

set_option autoImplicit false

variable {σ : Type}

/-- Tokens of a run rotate once, a family has one unused record, and a `rotated`
answer names the only user the family was ever opened for. -/
structure LinearRotation (view : σ → Ledger) (c : Machine.Config (Clocked σ) Logged) : Prop where
  once : ∀ token, (c.log.filter fun l => l.rotates token).length ≤ 1
  single : ∀ h h' r r', view c.state.store h = some r → view c.state.store h' = some r' →
    r.used = false → r'.used = false → r.familyId = r'.familyId → h = h'
  owner : ∀ presented userId familyId, AnsweredRotated c.log presented userId familyId →
    (∃ instant, Opened c.log userId familyId instant) ∧
      ∀ other instant, Opened c.log other familyId instant → other = userId

theorem linearRotation_of_linear {sha256 : String → String} {view : σ → Ledger}
    {c : Machine.Config (Clocked σ) Logged} (linear : Linear sha256 c.log (view c.state.store)) :
    LinearRotation view c where
  once := linear.once
  single := linear.single
  owner presented userId familyId answered := by
    obtain ⟨instant, opened⟩ := linear.owner answered
    exact ⟨⟨instant, opened⟩, fun other t opened' => (linear.sole _ _ _ _ _ opened' opened).1⟩

/-- What other requests may do between two calls: admitted calls of the session
store, and anything to the rest of the world. -/
def Interferes (S : SessionStore σ) (w w' : World σ) : Prop :=
  S.machine.Continues Fresh w.sessions w'.sessions

theorem Interferes.trans {S : SessionStore σ} (u v w : World σ) (first : Interferes S u v)
    (second : Interferes S v w) : Interferes S u w :=
  Machine.Continues.trans first second

/-- The access token was signed for this user. -/
def SignedFor (env : Env) (userId : String) (result : AuthResult) : Prop :=
  ∃ claims : JwtClaims, result.accessToken = env.jwtSign claims ∧ claims.sub = userId

section

variable (S : SessionStore σ) (env : Env)

theorem findById_ensures (id : String) :
    (IdentityProvider.findById id : Service σ (Option User)).Ensures
      fun found => ∀ user, found = some user → user.id = id := by
  refine .bind (Q := fun row => ∀ u, row = some u → u.id = id) (.call fun w u found => ?_) ?_
  · have same := List.find?_some found
    simp only [decide_eq_true_eq] at same
    exact same.1
  · rintro row holds user found
    obtain ⟨u, at_row, rfl⟩ := Option.map_eq_some_iff.mp found
    exact holds u at_row

theorem toIdentity_ensures (user : User) :
    (AuthService.toIdentity user : Service σ AbacIdentity).Ensures
      fun identity => identity.sub = user.id :=
  .bind (.true _) fun _ _ => .pure rfl

theorem signAccessToken_ensures (identity : AbacIdentity) (jti : String) :
    (signAccessToken env identity jti : Service σ IssuedAccessToken).Ensures
      fun access => ∃ claims : JwtClaims, access.token = env.jwtSign claims ∧
        claims.sub = identity.sub :=
  .bind (.true _) fun now _ => .pure ⟨env.claimsFor identity jti now, rfl, rfl⟩

theorem afterRotate_ensures (draws : Draws) (result : RotationResult) :
    (AuthService.afterRotate S env draws result).Ensures fun auth =>
      ∃ userId familyId refresh, result = .rotated userId familyId refresh ∧
        SignedFor env userId auth := by
  cases result with
  | reuseDetected _ _ => exact .fail _
  | invalid => exact .fail _
  | expired => exact .fail _
  | rotated userId familyId refresh =>
      refine .bind (findById_ensures userId) ?_
      intro found isUser
      cases found with
      | none => exact .bind (.true _) fun _ _ => .fail _
      | some user =>
          refine .bind (toIdentity_ensures user) ?_
          intro identity sub
          refine .bind (signAccessToken_ensures env identity draws.jti) ?_
          intro access signed
          obtain ⟨claims, token, same⟩ := signed
          exact .pure ⟨userId, familyId, refresh, rfl, claims, token,
            same.trans (sub.trans (isUser user rfl))⟩

theorem query_interferes {α : Type} (read : Tables → α) :
    (query read : Service σ α).Guarantees (Interferes S) := .call fun _ => .refl

theorem afterRotate_guarantees (draws : Draws) (result : RotationResult) :
    (AuthService.afterRotate S env draws result).Guarantees (Interferes S) := by
  cases result with
  | reuseDetected _ _ => exact .fail _
  | invalid => exact .fail _
  | expired => exact .fail _
  | rotated userId familyId refresh =>
      refine .bind (.bind (query_interferes S _) fun _ => .pure _) ?_
      intro found
      cases found with
      | none =>
          refine .bind (.call fun w => ?_) fun _ => .fail _
          exact Machine.Continues.perform .refl (e := Call.revokeUser userId) trivial
      | some user =>
          refine .bind (.bind ?_ fun _ => .pure _) fun identity => ?_
          · refine .bind (query_interferes S _) fun _ => .bind (query_interferes S _) fun _ => ?_
            exact .bind (query_interferes S _) fun _ => .bind (.ofExcept _) fun _ => .pure _
          · exact .bind (.bind (.call fun _ => .refl) fun _ => .pure _) fun _ => .pure _

/-- Among any other requests, a successful `refresh` signs a token for the user of
the `rotated` answer it got, who opened the family. -/
theorem refresh_signs_for_owner {sha256 : String → String} {view : σ → Ledger}
    (refines : RefinesLedger S sha256 view) (inj : Function.Injective sha256)
    {w w' : World σ} (start : Clocked σ) (empty : view start.store = fun _ => none)
    (reached : S.Reaches start w.sessions) {draws : Draws} {presented : String} {result : AuthResult}
    (exec : Prog.Exec (Interferes S) (AuthService.refresh S env draws presented) w (.ok result) w') :
    ∃ userId familyId, AnsweredRotated w'.sessions.log presented userId familyId ∧
      (∃ instant, Opened w'.sessions.log userId familyId instant) ∧ SignedFor env userId result := by
  rcases Prog.exec_bind exec with ⟨answer, w₂, first, rest⟩ | ⟨e, -, failed⟩
  · obtain ⟨w₁, moved, answered, rfl⟩ := Prog.exec_call first
    cases answered
    obtain ⟨userId, familyId, refresh, rotated, signed⟩ := (afterRotate_ensures S env draws _).exec rest
    have reached₁ : S.Reaches start w₁.sessions := Machine.Reachable.continues reached moved
    -- the answer needs a record of the presented token, whose family was opened
    have stepped := refines.step w₁.sessions.state (.rotate presented draws.token)
    have answer : (S.step w₁.sessions.state (.rotate presented draws.token)).1 =
        .rotation (.rotated userId familyId refresh) := congrArg Answer.rotation rotated
    rw [answer] at stepped
    obtain ⟨instant, opened⟩ := (refines.linear inj empty reached₁).opened stepped.rotated
    have later := (afterRotate_guarantees S env draws _).exec (fun _ => .refl) Interferes.trans rest
    have logged : S.machine.entry w₁.sessions.state (.rotate presented draws.token) ∈
        w'.sessions.log := Machine.Continues.log_mem later List.mem_cons_self
    refine ⟨userId, familyId, ⟨_, logged, ?_, refresh.token, ?_⟩, ⟨instant, ?_⟩, signed⟩
    · simp [SessionStore.machine, Logged.rotates, answer]
    · simp [SessionStore.machine, Logged.hands, answer]
    · obtain ⟨token, reply, member⟩ := opened
      exact ⟨token, reply, Machine.Continues.log_mem later (List.mem_cons_of_mem _ member)⟩
  · cases failed

end

/-- Linear rotation of both stores, and the subject of refreshed access tokens. -/
theorem linear_rotation {sha256 : String → String} (inj : Function.Injective sha256)
    (ttl : RefreshTtl) (start : Nat) :
    (∀ c, (redisSessionStore sha256 ttl).Reaches ⟨start, .empty⟩ c →
      LinearRotation RedisSessions.ledger c) ∧
    (∀ c, (inMemorySessionStore sha256 ttl).Reaches ⟨start, .empty⟩ c →
      LinearRotation InMemorySessions.ledger c) ∧
    (∀ env w w' draws presented result,
      (redisSessionStore sha256 ttl).Reaches ⟨start, .empty⟩ w.sessions →
      Prog.Exec (Interferes (redisSessionStore sha256 ttl))
        (AuthService.refresh (redisSessionStore sha256 ttl) env draws presented) w (.ok result) w' →
      ∃ userId familyId, AnsweredRotated w'.sessions.log presented userId familyId ∧
        (∃ instant, Opened w'.sessions.log userId familyId instant) ∧
        SignedFor env userId result) ∧
    (∀ env w w' draws presented result,
      (inMemorySessionStore sha256 ttl).Reaches ⟨start, .empty⟩ w.sessions →
      Prog.Exec (Interferes (inMemorySessionStore sha256 ttl))
        (AuthService.refresh (inMemorySessionStore sha256 ttl) env draws presented) w (.ok result) w' →
      ∃ userId familyId, AnsweredRotated w'.sessions.log presented userId familyId ∧
        (∃ instant, Opened w'.sessions.log userId familyId instant) ∧
        SignedFor env userId result) := by
  have redis := RedisSessions.refinesLedger sha256 ttl
  have memory := InMemorySessions.refinesLedger sha256 ttl
  refine ⟨?_, ?_, ?_, ?_⟩
  · intro c reached
    exact linearRotation_of_linear (redis.linear inj rfl reached)
  · intro c reached
    exact linearRotation_of_linear (memory.linear inj rfl reached)
  · intro env w w' draws presented result reached exec
    exact refresh_signs_for_owner _ env redis inj ⟨start, .empty⟩ rfl reached exec
  · intro env w w' draws presented result reached exec
    exact refresh_signs_for_owner _ env memory inj ⟨start, .empty⟩ rfl reached exec

theorem linear_rotation_rotatedOnce : LinearRotation RedisSessions.ledger rotatedOnce :=
  (linear_rotation sampleSha256.injective .default 0).1 rotatedOnce rotatedOnce_reached

end Arac.Auth
