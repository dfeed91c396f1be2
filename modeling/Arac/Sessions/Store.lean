/-
# Arac.Sessions.Store -- the session-store interface and its runs

`SessionStore` is the interface both stores implement: open a family, rotate on a
presented token, revoke the family of a presented token, revoke every family of a
user.  Each operation is one atomic step (a Lua script, a `MULTI`, or a method
without an `await`), so any interleaving of requests is a sequence of them.
Randomness is an argument: `createSession` and `rotate` receive the family id and
the token they mint.

`machine` turns a store into a machine with a clock in milliseconds, where `elapse`
moves the clock.  `Fresh` is the one assumption about randomness: a minted token
or family id was not minted earlier in the run.  What happened in a run is read off
its log: which sessions were `Opened`, which tokens were `Issued` to whom, which
answers a token got.
-/
import Arac.Theory.Machine
import Mathlib.Algebra.Group.End

namespace Arac.Sessions

open Arac.Theory

set_option autoImplicit false

structure IssuedRefreshToken where
  token : String
  familyId : String
  /-- Unix seconds. -/
  expiresAt : Nat
  deriving DecidableEq

inductive RotationResult where
  | rotated (userId familyId : String) (refresh : IssuedRefreshToken)
  | invalid
  | expired
  | reuseDetected (userId familyId : String)
  deriving DecidableEq

/-- The refresh-token lifetime (`REFRESH_TTL_SECONDS`).  The configuration loader
rejects anything but a positive integer. -/
structure RefreshTtl where
  seconds : Nat
  pos : 0 < seconds

/-- Fourteen days, where the environment sets none. -/
def RefreshTtl.default : RefreshTtl := ⟨60 * 60 * 24 * 14, by decide⟩

/-- The lifetime in milliseconds, the unit of the clock. -/
def RefreshTtl.ms (ttl : RefreshTtl) : Nat := ttl.seconds * 1000

theorem RefreshTtl.ms_pos (ttl : RefreshTtl) : 0 < ttl.ms := Nat.mul_pos ttl.pos (by decide)

/-- `Math.floor(Date.now() / 1000)`. -/
def nowSeconds (now : Nat) : Nat := now / 1000

/-- The interface of a session store with state `σ`.  The first argument of an
operation is `Date.now()`.  `elapse` is no operation of the interface: it is what
the passage of time does to the stored data. -/
structure SessionStore (σ : Type) where
  createSession : Nat → (userId familyId token : String) → σ → IssuedRefreshToken × σ
  rotate : Nat → (presentedToken newToken : String) → σ → RotationResult × σ
  revoke : Nat → (presentedToken : String) → σ → σ
  revokeUser : Nat → (userId : String) → σ → σ
  elapse : Nat → σ → σ

inductive Call where
  | createSession (userId familyId token : String)
  | rotate (presentedToken newToken : String)
  | revoke (presentedToken : String)
  | revokeUser (userId : String)
  | elapse (ms : Nat)
  deriving DecidableEq

inductive Answer where
  | issued (refresh : IssuedRefreshToken)
  | rotation (result : RotationResult)
  | done
  deriving DecidableEq

/-- One line of the log: when a call ran and what it answered. -/
structure Logged where
  instant : Nat
  call : Call
  answer : Answer
  deriving DecidableEq

structure Clocked (σ : Type) where
  now : Nat
  store : σ

namespace SessionStore

variable {σ : Type} (S : SessionStore σ)

def step (c : Clocked σ) : Call → Answer × Clocked σ
  | .createSession userId familyId token =>
      let (refresh, store) := S.createSession c.now userId familyId token c.store
      (.issued refresh, { c with store })
  | .rotate presentedToken newToken =>
      let (result, store) := S.rotate c.now presentedToken newToken c.store
      (.rotation result, { c with store })
  | .revoke presentedToken => (.done, { c with store := S.revoke c.now presentedToken c.store })
  | .revokeUser userId => (.done, { c with store := S.revokeUser c.now userId c.store })
  | .elapse ms => (.done, ⟨c.now + ms, S.elapse (c.now + ms) c.store⟩)

/-- The store as a logged machine. -/
def machine : Machine (Clocked σ) Call Logged where
  next c call := (S.step c call).2
  entry c call := ⟨c.now, call, (S.step c call).1⟩

@[simp] theorem machine_entry_call (c : Clocked σ) (call : Call) :
    (S.machine.entry c call).call = call := rfl

@[simp] theorem machine_entry_instant (c : Clocked σ) (call : Call) :
    (S.machine.entry c call).instant = c.now := rfl

end SessionStore

/-! ## Reading a log -/

abbrev Log := List Logged

/-- The token a call minted, if any. -/
def Call.mints : Call → Option String
  | .createSession _ _ token => some token
  | .rotate _ newToken => some newToken
  | _ => none

/-- The token was minted by some call of the run. -/
def Minted (log : Log) (token : String) : Prop := ∃ l ∈ log, l.call.mints = some token

/-- A session with this family id was opened for the user at this instant. -/
def Opened (log : Log) (userId familyId : String) (instant : Nat) : Prop :=
  ∃ token answer, (⟨instant, .createSession userId familyId token, answer⟩ : Logged) ∈ log

/-- The user logged in at this instant. -/
def LoginAt (log : Log) (userId : String) (instant : Nat) : Prop :=
  ∃ familyId, Opened log userId familyId instant

/-- The token, user and family of the refresh token a logged call handed out. -/
def Logged.hands (l : Logged) : Option (String × String × String) :=
  match l.call, l.answer with
  | .createSession userId familyId _, .issued refresh => some (refresh.token, userId, familyId)
  | .rotate _ _, .rotation (.rotated userId familyId refresh) =>
      some (refresh.token, userId, familyId)
  | _, _ => none

/-- The token was handed out to the user in the family at this instant, by
`createSession` or by a rotation. -/
def Issued (log : Log) (token userId familyId : String) (instant : Nat) : Prop :=
  ∃ l ∈ log, l.hands = some (token, userId, familyId) ∧ l.instant = instant

/-- The logged call rotated this token. -/
def Logged.rotates (l : Logged) (token : String) : Bool :=
  match l.call, l.answer with
  | .rotate presented _, .rotation (.rotated _ _ _) => decide (presented = token)
  | _, _ => false

/-- The token was answered `rotated` before. -/
def RotatedOut (log : Log) (token : String) : Prop := ∃ l ∈ log, l.rotates token = true

/-- Minted tokens and family ids are fresh. -/
def Fresh (log : Log) : Call → Prop
  | .createSession _ familyId token =>
      ¬ Minted log token ∧ ∀ userId instant, ¬ Opened log userId familyId instant
  | .rotate _ newToken => ¬ Minted log newToken
  | _ => True

/-- The minted token is fresh; nothing is said about the family id. -/
def FreshToken (log : Log) (call : Call) : Prop :=
  ∀ token, call.mints = some token → ¬ Minted log token

theorem Fresh.token {log : Log} {call : Call} (fresh : Fresh log call) : FreshToken log call := by
  intro token mints
  cases call with
  | createSession userId familyId token' =>
      cases mints
      exact fresh.1
  | rotate presented newToken =>
      cases mints
      exact fresh
  | revoke presented => cases mints
  | revokeUser userId => cases mints
  | elapse ms => cases mints

section

variable {log : Log} {l : Logged} {token userId familyId : String} {instant : Nat}

@[simp] theorem not_minted_nil : ¬ Minted [] token := by rintro ⟨l, member, -⟩; cases member

@[simp] theorem minted_cons : Minted (l :: log) token ↔ l.call.mints = some token ∨ Minted log token := by
  simp [Minted]

@[simp] theorem not_opened_nil : ¬ Opened [] userId familyId instant := by
  rintro ⟨_, _, member⟩; cases member

theorem opened_cons : Opened (l :: log) userId familyId instant ↔
    (l.instant = instant ∧ ∃ token, l.call = .createSession userId familyId token) ∨
      Opened log userId familyId instant := by
  constructor
  · rintro ⟨token, answer, member⟩
    rcases List.mem_cons.mp member with rfl | earlier
    · exact Or.inl ⟨rfl, token, rfl⟩
    · exact Or.inr ⟨token, answer, earlier⟩
  · rintro (⟨rfl, token, call⟩ | ⟨token, answer, earlier⟩)
    · refine ⟨token, l.answer, List.mem_cons.mpr (Or.inl ?_)⟩
      rw [← call]
    · exact ⟨token, answer, List.mem_cons_of_mem l earlier⟩

theorem Opened.cons (opened : Opened log userId familyId instant) :
    Opened (l :: log) userId familyId instant := opened_cons.mpr (Or.inr opened)

@[simp] theorem not_issued_nil : ¬ Issued [] token userId familyId instant := by
  rintro ⟨l, member, -⟩; cases member

theorem issued_cons : Issued (l :: log) token userId familyId instant ↔
    (l.hands = some (token, userId, familyId) ∧ l.instant = instant) ∨
      Issued log token userId familyId instant := by
  simp [Issued]

theorem Issued.cons (issued : Issued log token userId familyId instant) :
    Issued (l :: log) token userId familyId instant := issued_cons.mpr (Or.inr issued)

@[simp] theorem rotatedOut_cons :
    RotatedOut (l :: log) token ↔ l.rotates token = true ∨ RotatedOut log token := by
  simp [RotatedOut]

end

/-! ## A digest to run on -/

/-- Three refresh tokens as `randomBytes(32).toString('base64url')` makes them. -/
def sampleTokens : String × String × String :=
  ("KFVP_azOvX7LnzE6cuJy4n_j8sex0Vscan31o2F2ndg", "357PTHnlrXdwHPyIwZZjKzUxSdhYEKOB9Gn4_AXcG5I",
    "NbD60WdYtYEk858A0mBhcEUUvk45weA7eyNTSv1ggeM")

/-- An injective function that is SHA-256 on the sample tokens. -/
def sampleSha256 : Equiv.Perm String :=
  Equiv.swap sampleTokens.1 "ae0c8d52c00f792326c6c53f280cc29be92617ffbb5bc8d5c0099fca5c1e28b5" *
    Equiv.swap sampleTokens.2.1 "96a7785d42ad4f2e6e90a0280372635ff554e0bca60d13723b07674f67835849" *
    Equiv.swap sampleTokens.2.2 "e59fc997a03beb7c01717a9ffed0051862da99b335f154d8560f2dc2e3eb9f19"

end Arac.Sessions
