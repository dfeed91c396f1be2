/-
# Arac.Auth.SingleUse -- a reset token works once, in time, and for its owner

Any number of `requestReset` and `reset` calls run at the same time.  A token is issued
by the second call of a `requestReset`, and a `reset` takes it, if it is there, in its
first call; everything that `reset` does to the account comes after that.

`SingleUse` is what holds of every run (`resetTokens_singleUse`), read off the trace of
calls.  `Accounted` is the invariant: each pending key was issued by one request, within
the lifetime, and taken by nobody; and whoever acts on an account has taken a token that
was issued to it.
-/
import Arac.Auth.ResetTokens

namespace Arac.Auth

open Arac.Theory Arac.Sessions Arac.Db Arac.Service

set_option autoImplicit false

/-! ## The requests -/

inductive ResetRequest where
  | requestReset (draws : Draws) (email : String)
  | reset (draws : Draws) (token newPassword : String)

/-- A `reset` answers with its boolean, a `requestReset` with nothing. -/
def ResetRequest.service {σ : Type} (S : SessionStore σ) (env : Env) :
    ResetRequest → Service σ (Option Bool)
  | .requestReset draws email => do
      PasswordResetService.requestReset env draws email
      return none
  | .reset draws token new => do
      let done ← PasswordResetService.reset S env draws token new
      return some done

/-- The token that a request may issue. -/
def ResetRequest.issues : ResetRequest → Option String
  | .requestReset draws _ => some draws.token
  | .reset _ _ _ => none

/-- The token that a request presents. -/
def ResetRequest.presents : ResetRequest → Option String
  | .requestReset _ _ => none
  | .reset _ token _ => some token

section

variable {σ ι : Type} [DecidableEq ι] (env : Env) (requests : ι → ResetRequest)

/-- The request found this user by the email it was given, and issued the token to the
user at this instant. -/
def IssuedBy (trace : List (Made ι (World σ))) (i : ι) (token userId : String) (instant : Nat) :
    Prop :=
  ∃ draws email looked stored row, requests i = .requestReset draws email ∧ draws.token = token ∧
    (Pool.callsOf trace i)[0]? = some looked ∧ (Pool.callsOf trace i)[1]? = some stored ∧
    recipient env looked.met email = some row ∧ row.id = userId ∧ stored.met.now = instant

/-- A `reset` with the token has found its key and deleted it. -/
def ConsumedBy (trace : List (Made ι (World σ))) (k : ι) (token : String) : Prop :=
  (requests k).presents = some token ∧ ∃ e, Pool.firstCall trace k = some e ∧
    e.met.resets.get (env.sha256 token) ≠ none

def NeverIssued (trace : List (Made ι (World σ))) (token : String) : Prop :=
  ∀ i userId instant, ¬ IssuedBy env requests trace i token userId instant

def Consumed (trace : List (Made ι (World σ))) (token : String) : Prop :=
  ∃ k, ConsumedBy env requests trace k token

/-- The call left accounts and sessions alone. -/
def Harmless (e : Made ι (World σ)) : Prop :=
  e.left.db = e.met.db ∧ e.left.sessions = e.met.sessions

/-- The guarantee of a run of such requests. -/
structure SingleUse (P : Pool ι (World σ) ServiceError (Option Bool)) : Prop where
  /-- No token makes two calls of `reset` return true. -/
  once : ∀ j k token, (requests j).presents = some token → (requests k).presents = some token →
    P.Ended j (.ok (some true)) → P.Ended k (.ok (some true)) → j = k
  /-- A `reset` that returns true was called within the lifetime of an issued token. -/
  inTime : ∀ j token, (requests j).presents = some token → P.Ended j (.ok (some true)) →
    ∃ i userId instant e, IssuedBy env requests P.trace i token userId instant ∧
      Pool.firstCall P.trace j = some e ∧ e.met.now < instant + RESET_TTL_MS
  /-- A password that changes is that of the user the presented token was issued to. -/
  owner : ∀ e ∈ P.trace, ∀ userId, (e.left.db.userById userId).map Db.User.passwordHash ≠
      (e.met.db.userById userId).map Db.User.passwordHash →
    ∃ token i instant, (requests e.who).presents = some token ∧
      IssuedBy env requests P.trace i token userId instant
  /-- A `reset` with a string that was not issued, or was consumed, before its first call
  changes no account and no session. -/
  inert : ∀ j token, (requests j).presents = some token →
    NeverIssued env requests (Pool.before P.trace j) token ∨
      Consumed env requests (Pool.before P.trace j) token →
    ∀ e ∈ P.trace, e.who = j → Harmless e

/-- No two requests draw the same token. -/
def DistinctTokens : Prop :=
  ∀ i j token, (requests i).issues = some token → (requests j).issues = some token → i = j

end

/-! ## Phases -/

inductive ResetPhase where
  | start
  | looked (row : Db.User)
  | taken (userId : String)
  | closed

section

variable {σ : Type} (S : SessionStore σ) (env : Env)

inductive ResetMove : ResetRequest → ResetPhase → World σ → World σ → ResetPhase → Prop
  | looks {draws : Draws} {email : String} {w : World σ} {row : Db.User}
      (found : recipient env w email = some row) :
      ResetMove (.requestReset draws email) .start w w (.looked row)
  | skips (draws : Draws) (email : String) (w : World σ) :
      ResetMove (.requestReset draws email) .start w w .closed
  | stores (draws : Draws) (email : String) (w : World σ) (row : Db.User) :
      ResetMove (.requestReset draws email) (.looked row) w
        { w with resets :=
            w.resets.put (env.sha256 draws.token) ⟨row.id, some (w.now + RESET_TTL_MS)⟩ } .closed
  | takes {draws : Draws} {token new : String} {w : World σ} {userId : String}
      (found : w.resets.get (env.sha256 token) = some userId) :
      ResetMove (.reset draws token new) .start w
        { w with resets := w.resets.del (env.sha256 token) } (.taken userId)
  | misses {draws : Draws} {token new : String} {w : World σ}
      (missing : w.resets.get (env.sha256 token) = none) :
      ResetMove (.reset draws token new) .start w
        { w with resets := w.resets.del (env.sha256 token) } .closed
  | writes {draws : Draws} {token new : String} {w : World σ} {userId hash : String} {db : Database}
      (ok : w.db.userUpdate userId { passwordHash := some hash } = .ok db) :
      ResetMove (.reset draws token new) (.taken userId) w { w with db } (.taken userId)
  | fails (draws : Draws) (token new userId : String) (w : World σ) :
      ResetMove (.reset draws token new) (.taken userId) w w (.taken userId)
  | revokes (draws : Draws) (token new userId : String) (w : World σ) :
      ResetMove (.reset draws token new) (.taken userId) w (w.perform S (.revokeUser userId))
        (.taken userId)
  | mails (r : ResetRequest) (w : World σ) (outbox : List Mail) :
      ResetMove r .closed w { w with outbox } .closed

/-- A `reset` that returns true has taken a token. -/
def ResetEnds (result : Except ServiceError (Option Bool)) (φ : ResetPhase) : Prop :=
  result = .ok (some true) → ∃ userId, φ = .taken userId

theorem requestReset_follows (draws : Draws) (email : String) :
    (PasswordResetService.requestReset env draws email : Service σ Unit).Follows (fun _ => True)
      (ResetMove S env (.requestReset draws email)) (fun _ _ => True) .start := by
  refine .bind (D := fun r φ => ∀ row, r = .ok (some row) → row.status = .active →
    φ = .looked row) ?_ ?_ fun _ _ _ => trivial
  · refine .call ?_
    intro w _
    cases found : recipient env w email with
    | none =>
        refine ⟨.closed, .skips draws email w, ?_⟩
        intro row same active
        have at_email := Except.ok.inj same
        rw [recipient, Option.filter_eq_none_iff] at found
        exact absurd active (by simpa using found row at_email)
    | some row =>
        refine ⟨.looked row, .looks found, ?_⟩
        intro row' same _
        have at_email := (Option.filter_eq_some_iff.mp found).1
        rw [Option.some.inj ((Except.ok.inj same).symm.trans at_email)]
  · intro answer φ looked
    cases answer with
    | none => exact .pure trivial
    | some row =>
        by_cases active : row.status = .active
        · rw [looked row rfl active]
          simp only [active, ne_eq, not_true_eq_false, if_false]
          refine .bind (D := fun _ φ => φ = .closed)
            (.call fun w _ => ⟨.closed, .stores draws email w row, rfl⟩) ?_ fun _ _ _ => trivial
          rintro _ _ rfl
          exact .call fun w _ => ⟨.closed, .mails _ w _, trivial⟩
        · simp only [ne_eq, active, not_false_eq_true, if_true]
          exact .pure trivial

theorem reset_follows (draws : Draws) (token new : String) :
    (PasswordResetService.reset S env draws token new).Follows (fun _ => True)
      (ResetMove S env (.reset draws token new))
      (fun r φ => r = .ok true → ∃ userId, φ = .taken userId) .start := by
  refine .bind (D := fun r φ => ∀ taken userId, r = .ok taken → truthy taken = some userId →
    φ = .taken userId) ?_ ?_ (fun _ _ _ impossible => by cases impossible)
  · refine .call ?_
    intro w _
    cases found : w.resets.get (env.sha256 token) with
    | none =>
        refine ⟨.closed, .misses found, ?_⟩
        intro taken userId same truthful
        rw [← Except.ok.inj same] at truthful
        cases truthful
    | some userId =>
        refine ⟨.taken userId, .takes found, ?_⟩
        intro taken userId' same truthful
        rw [← Except.ok.inj same] at truthful
        rw [Option.some.inj (Option.filter_eq_some_iff.mp truthful).1]
  · intro taken φ known
    cases truthful : truthy taken with
    | none => exact .pure fun impossible => by cases impossible
    | some userId =>
        rw [known taken userId rfl truthful]
        refine .bind (D := fun _ φ => φ = .taken userId) ?_ ?_
          (fun _ _ _ impossible => by cases impossible)
        · exact commit_follows
            (fun w db _ ok => ⟨.taken userId, .writes ok, rfl⟩)
            fun w e _ _ => ⟨.taken userId, .fails draws token new userId w, rfl⟩
        · rintro _ _ rfl
          refine .bind (D := fun _ φ => φ = .taken userId)
            (.call fun w _ => ⟨_, .revokes draws token new userId w, rfl⟩) ?_
            (fun _ _ _ impossible => by cases impossible)
          rintro _ _ rfl
          exact .pure fun _ => ⟨userId, rfl⟩

theorem resetRequest_follows (r : ResetRequest) :
    (r.service S env).Follows (fun _ => True) (ResetMove S env r) ResetEnds .start := by
  have failed : ∀ e φ, ResetEnds (.error e) φ := by
    intro e φ impossible
    cases impossible
  cases r with
  | requestReset draws email =>
      refine .bind (requestReset_follows S env draws email) ?_ fun e φ _ => failed e φ
      intro _ φ _
      refine .pure ?_
      intro impossible
      cases impossible
  | reset draws token new =>
      refine .bind (reset_follows S env draws token new) ?_ fun e φ _ => failed e φ
      intro done φ known
      refine .pure ?_
      intro returned
      apply known
      rw [Option.some.inj (Except.ok.inj returned)]

end

/-! ## What a move does -/

namespace ResetMove

variable {σ : Type} {S : SessionStore σ} {env : Env} {r : ResetRequest} {φ φ' : ResetPhase}
  {w w' : World σ}

theorem started (moved : ResetMove S env r φ w w' φ') : φ' ≠ .start := by
  cases moved <;> simp

/-- Who has taken a token stays so. -/
theorem stays {userId : String} (moved : ResetMove S env r φ w w' φ') (taken : φ = .taken userId) :
    φ' = .taken userId := by
  subst taken
  cases moved <;> rfl

theorem to_looked {row : Db.User} (moved : ResetMove S env r φ w w' φ') (looked : φ' = .looked row) :
    φ = .start ∧ ∃ draws email, r = .requestReset draws email ∧ recipient env w email = some row := by
  subst looked
  cases moved with
  | looks found => exact ⟨rfl, _, _, rfl, found⟩

theorem to_taken {userId : String} (moved : ResetMove S env r φ w w' φ')
    (taken : φ' = .taken userId) :
    φ = .taken userId ∨ (φ = .start ∧ ∃ token, r.presents = some token ∧
      w.resets.get (env.sha256 token) = some userId) := by
  subst taken
  cases moved with
  | takes found => exact Or.inr ⟨rfl, _, rfl, found⟩
  | writes | fails | revokes => exact Or.inl rfl

/-- Only who has taken a token acts, and changes no password but that user's. -/
theorem acts (moved : ResetMove S env r φ w w' φ') :
    (w'.db = w.db ∧ w'.sessions = w.sessions) ∨
      ∃ userId, φ' = .taken userId ∧ ∀ other, other ≠ userId →
        w'.db.userById other = w.db.userById other := by
  cases moved with
  | looks | skips | stores | takes | misses | fails | mails => exact Or.inl ⟨rfl, rfl⟩
  | writes ok => exact Or.inr ⟨_, rfl, fun other apart => Database.userById_userUpdate_ne apart ok⟩
  | revokes => exact Or.inr ⟨_, rfl, fun _ _ => rfl⟩

end ResetMove

/-! ## Issued and consumed along a trace -/

section

variable {σ ι : Type} [DecidableEq ι] {env : Env} {requests : ι → ResetRequest}
  {trace : List (Made ι (World σ))} {e : Made ι (World σ)} {i k : ι} {token userId : String}
  {instant : Nat}

theorem IssuedBy.issues (issued : IssuedBy env requests trace i token userId instant) :
    (requests i).issues = some token := by
  obtain ⟨draws, email, -, -, -, request, rfl, -⟩ := issued
  rw [request]
  rfl

theorem IssuedBy.cons (issued : IssuedBy env requests trace i token userId instant) :
    IssuedBy env requests (e :: trace) i token userId instant := by
  obtain ⟨draws, email, looked, stored, row, request, drawn, first, second, rest⟩ := issued
  exact ⟨draws, email, looked, stored, row, request, drawn, Pool.callsOf_cons_some first,
    Pool.callsOf_cons_some second, rest⟩

theorem IssuedBy.later {earlier : List (Made ι (World σ))}
    (issued : IssuedBy env requests earlier i token userId instant) (suffix : earlier <:+ trace) :
    IssuedBy env requests trace i token userId instant := by
  obtain ⟨later, rfl⟩ := suffix
  induction later with
  | nil => exact issued
  | cons e later ih => exact ih.cons

/-- A call consumes a token only as the first of its request. -/
theorem consumedBy_cons : ConsumedBy env requests (e :: trace) k token ↔
    ConsumedBy env requests trace k token ∨
      (k = e.who ∧ Pool.firstCall trace k = none ∧ (requests k).presents = some token ∧
        e.met.resets.get (env.sha256 token) ≠ none) := by
  constructor
  · rintro ⟨presents, e', first, found⟩
    by_cases mine : e.who = k
    · subst mine
      cases made : Pool.firstCall trace e.who with
      | none =>
          rw [Pool.firstCall_cons_none made] at first
          rw [← Option.some.inj first] at found
          exact Or.inr ⟨rfl, rfl, presents, found⟩
      | some e'' =>
          rw [Pool.firstCall_cons_some made] at first
          rw [Option.some.inj first] at made
          exact Or.inl ⟨presents, e', made, found⟩
    · rw [Pool.firstCall_cons_ne mine] at first
      exact Or.inl ⟨presents, e', first, found⟩
  · rintro (⟨presents, e', first, found⟩ | ⟨rfl, nothing, presents, found⟩)
    · exact ⟨presents, e', Pool.firstCall_cons_some first, found⟩
    · exact ⟨presents, e, Pool.firstCall_cons_none nothing, found⟩

/-- A call that finds no key it was asked for consumes nothing. -/
theorem consumedBy_cons_idle
    (idle : Pool.firstCall trace e.who = none → ∀ token, (requests e.who).presents = some token →
      e.met.resets.get (env.sha256 token) = none) :
    ConsumedBy env requests (e :: trace) k token ↔ ConsumedBy env requests trace k token := by
  rw [consumedBy_cons]
  constructor
  · rintro (earlier | ⟨rfl, first, presents, found⟩)
    · exact earlier
    · exact absurd (idle first token presents) found
  · exact Or.inl

end

/-! ## The invariant -/

section

variable {σ ι : Type} [DecidableEq ι] (env : Env) (requests : ι → ResetRequest)

/-- What is known of the pending keys. -/
structure Booked (w : World σ) (trace : List (Made ι (World σ))) : Prop where
  pending : ∀ key entry, w.resets key = some entry → ∃ i token instant,
    key = env.sha256 token ∧ IssuedBy env requests trace i token entry.value instant ∧
      entry.deadline = some (instant + RESET_TTL_MS) ∧ w.now < instant + RESET_TTL_MS ∧
      ¬ Consumed env requests trace token
  issued : ∀ token, Consumed env requests trace token →
    ∃ i userId instant, IssuedBy env requests trace i token userId instant
  once : ∀ j k token, ConsumedBy env requests trace j token →
    ConsumedBy env requests trace k token → j = k

/-- The first call of the request took a token of this user that was good. -/
def Took (trace : List (Made ι (World σ))) (j : ι) (userId : String) : Prop :=
  ∃ token e i instant, (requests j).presents = some token ∧ Pool.firstCall trace j = some e ∧
    e.met.resets.get (env.sha256 token) ≠ none ∧
    IssuedBy env requests (Pool.before trace j) i token userId instant ∧
    e.met.now < instant + RESET_TTL_MS ∧ ¬ Consumed env requests (Pool.before trace j) token

/-- What the phases say of the calls made. -/
structure Phased (φ : ι → ResetPhase) (trace : List (Made ι (World σ))) : Prop where
  started : ∀ j, φ j = .start ↔ Pool.firstCall trace j = none
  looked : ∀ j row, φ j = .looked row → ∃ draws email e, requests j = .requestReset draws email ∧
    Pool.callsOf trace j = [e] ∧ recipient env e.met email = some row
  taken : ∀ j userId, φ j = .taken userId → Took env requests trace j userId
  acts : ∀ e ∈ trace, Harmless e ∨ ∃ userId, φ e.who = .taken userId ∧ ∀ other, other ≠ userId →
    e.left.db.userById other = e.met.db.userById other

end

section

variable {σ ι : Type} [DecidableEq ι] {S : SessionStore σ} {env : Env} {requests : ι → ResetRequest}
  {trace : List (Made ι (World σ))} {φ : ι → ResetPhase} {φ' : ResetPhase} {w w' : World σ} {i : ι}

theorem Took.cons {e : Made ι (World σ)} {j : ι} {userId : String}
    (took : Took env requests trace j userId) : Took env requests (e :: trace) j userId := by
  obtain ⟨token, first, i, instant, presents, made, rest⟩ := took
  refine ⟨token, first, i, instant, presents, Pool.firstCall_cons_some made, ?_⟩
  rw [Pool.before_cons_some (by simp [made])]
  exact rest

theorem Phased.step (phased : Phased env requests φ trace) (booked : Booked env requests w trace)
    (injective : Function.Injective env.sha256) (moved : ResetMove S env (requests i) (φ i) w w' φ') :
    Phased env requests (Function.update φ i φ') (⟨i, w, w'⟩ :: trace) where
  started := by
    refine Pool.forall_callsOf_cons φ (e := ⟨i, w, w'⟩)
      (q := fun _ ψ calls => ψ = .start ↔ calls[0]? = none) phased.started ?_
    constructor
    · intro start
      exact absurd start moved.started
    · simp
  looked := by
    refine Pool.forall_callsOf_cons φ (e := ⟨i, w, w'⟩)
      (q := fun j ψ calls => ∀ row, ψ = .looked row → ∃ draws email e,
        requests j = .requestReset draws email ∧ calls = [e] ∧ recipient env e.met email = some row)
      phased.looked ?_
    intro row looked
    obtain ⟨start, draws, email, request, found⟩ := moved.to_looked looked
    have nothing : Pool.callsOf trace i = [] := by
      simpa [Pool.firstCall] using (phased.started i).mp start
    exact ⟨draws, email, ⟨i, w, w'⟩, request, by rw [nothing]; rfl, found⟩
  taken := by
    refine (Function.forall_update_iff φ fun j ψ => ∀ userId, ψ = .taken userId →
      Took env requests (⟨i, w, w'⟩ :: trace) j userId).mpr
        ⟨?_, fun j _ userId taken => (phased.taken j userId taken).cons⟩
    intro userId taken
    rcases moved.to_taken taken with already | ⟨start, token, presents, found⟩
    · exact (phased.taken i userId already).cons
    · -- the key was issued by one request, in time, and is there for nobody else
      have nothing := (phased.started i).mp start
      obtain ⟨entry, at_key, rfl⟩ := Option.map_eq_some_iff.mp found
      obtain ⟨k, issued, instant, key, by_k, -, inTime, unconsumed⟩ := booked.pending _ _ at_key
      rw [← injective key] at by_k unconsumed
      refine ⟨token, ⟨i, w, w'⟩, k, instant, presents,
        Pool.firstCall_cons_none (e := ⟨i, w, w'⟩) nothing, by simp [found], ?_⟩
      rw [Pool.before_cons_none (e := ⟨i, w, w'⟩) nothing]
      exact ⟨by_k, inTime, unconsumed⟩
  acts := by
    intro e member
    rcases List.mem_cons.mp member with rfl | earlier
    · rw [Function.update_self]
      exact moved.acts
    · refine (phased.acts e earlier).imp_right ?_
      rintro ⟨userId, taken, same⟩
      have kept : ∀ j, φ j = .taken userId → Function.update φ i φ' j = .taken userId :=
        (Function.forall_update_iff φ fun j ψ => φ j = .taken userId → ψ = .taken userId).mpr
          ⟨moved.stays, fun _ _ taken => taken⟩
      exact ⟨userId, kept e.who taken, same⟩

namespace Booked

/-- After a call that consumes nothing, each pending key is an old one or newly issued. -/
theorem unspent (booked : Booked env requests w trace) (clock : w'.now = w.now)
    (nothing : Pool.firstCall trace i = none → ∀ token, (requests i).presents = some token →
      w.resets.get (env.sha256 token) = none)
    (pending : ∀ key entry, w'.resets key = some entry → w.resets key = some entry ∨
      ∃ j token instant, key = env.sha256 token ∧
        IssuedBy env requests (⟨i, w, w'⟩ :: trace) j token entry.value instant ∧
        entry.deadline = some (instant + RESET_TTL_MS) ∧ w'.now < instant + RESET_TTL_MS ∧
        ¬ Consumed env requests trace token) :
    Booked env requests w' (⟨i, w, w'⟩ :: trace) := by
  have consumed : ∀ k token, ConsumedBy env requests (⟨i, w, w'⟩ :: trace) k token ↔
      ConsumedBy env requests trace k token := fun _ _ => consumedBy_cons_idle nothing
  have consumed_by_some : ∀ token, Consumed env requests (⟨i, w, w'⟩ :: trace) token ↔
      Consumed env requests trace token := fun token => exists_congr fun k => consumed k token
  constructor
  · intro key entry at_key
    rcases pending key entry at_key with old | ⟨j, token, instant, here, by_j, deadline, inTime, new⟩
    · obtain ⟨j, token, instant, here, by_j, deadline, inTime, unconsumed⟩ :=
        booked.pending key entry old
      exact ⟨j, token, instant, here, by_j.cons, deadline, clock ▸ inTime,
        mt (consumed_by_some token).mp unconsumed⟩
    · exact ⟨j, token, instant, here, by_j, deadline, inTime, mt (consumed_by_some token).mp new⟩
  · intro token taken
    obtain ⟨j, userId, instant, by_j⟩ := booked.issued token ((consumed_by_some token).mp taken)
    exact ⟨j, userId, instant, by_j.cons⟩
  · intro j k token by_j by_k
    exact booked.once j k token ((consumed j token).mp by_j) ((consumed k token).mp by_k)

/-- A call that issues nothing and finds no key. -/
theorem idle (booked : Booked env requests w trace)
    (kept : ∀ key entry, w'.resets key = some entry → w.resets key = some entry)
    (clock : w'.now = w.now)
    (nothing : Pool.firstCall trace i = none → ∀ token, (requests i).presents = some token →
      w.resets.get (env.sha256 token) = none) :
    Booked env requests w' (⟨i, w, w'⟩ :: trace) :=
  booked.unspent clock nothing fun key entry at_key => Or.inl (kept key entry at_key)

/-- A key is stored: its token is new, so nobody has consumed it. -/
theorem stores (booked : Booked env requests w trace) (distinct : DistinctTokens requests)
    {draws : Draws} {email : String} {row : Db.User} {looked : Made ι (World σ)}
    (request : requests i = .requestReset draws email) (calls : Pool.callsOf trace i = [looked])
    (found : recipient env looked.met email = some row)
    (resets : w'.resets =
      w.resets.put (env.sha256 draws.token) ⟨row.id, some (w.now + RESET_TTL_MS)⟩)
    (clock : w'.now = w.now) : Booked env requests w' (⟨i, w, w'⟩ :: trace) := by
  have nothing : ∀ token, (requests i).presents ≠ some token := by
    intro token impossible
    rw [request] at impossible
    cases impossible
  have new : ¬ Consumed env requests trace draws.token := by
    intro taken
    obtain ⟨k, userId, instant, by_k⟩ := booked.issued _ taken
    have same : k = i := distinct k i draws.token by_k.issues (by rw [request]; rfl)
    obtain ⟨-, -, -, stored, -, -, -, -, second, -⟩ := by_k
    rw [same, calls] at second
    cases second
  refine booked.unspent clock (fun _ token presents => absurd presents (nothing token)) ?_
  intro key entry at_key
  rw [resets] at at_key
  rcases ExpiringMap.put_eq_some.mp at_key with ⟨rfl, rfl⟩ | ⟨-, old⟩
  · refine Or.inr ⟨i, draws.token, w.now, rfl, ?_, rfl, ?_, new⟩
    · have both : Pool.callsOf (⟨i, w, w'⟩ :: trace) i = [looked, ⟨i, w, w'⟩] := by
        rw [Pool.callsOf_cons_self (⟨i, w, w'⟩ : Made ι (World σ)), calls]
        rfl
      exact ⟨draws, email, looked, ⟨i, w, w'⟩, row, request, rfl, by rw [both]; rfl,
        by rw [both]; rfl, found, rfl, rfl⟩
    · rw [clock]
      exact Nat.lt_add_of_pos_right (by decide)
  · exact Or.inl old

/-- A key is taken: it is gone, and its token is consumed for the first time. -/
theorem takes (booked : Booked env requests w trace) (injective : Function.Injective env.sha256)
    {token userId : String} (first : Pool.firstCall trace i = none)
    (presents : (requests i).presents = some token)
    (found : w.resets.get (env.sha256 token) = some userId)
    (resets : w'.resets = w.resets.del (env.sha256 token)) (clock : w'.now = w.now) :
    Booked env requests w' (⟨i, w, w'⟩ :: trace) := by
  -- the only new consumption is this one
  have consumed : ∀ k other, ConsumedBy env requests (⟨i, w, w'⟩ :: trace) k other →
      ConsumedBy env requests trace k other ∨ (k = i ∧ other = token) := by
    intro k other by_k
    refine (consumedBy_cons.mp by_k).imp_right ?_
    rintro ⟨rfl, -, also, -⟩
    exact ⟨rfl, Option.some.inj (also.symm.trans presents)⟩
  obtain ⟨entry, at_token, -⟩ := Option.map_eq_some_iff.mp found
  obtain ⟨issuer, same, instant, key, by_issuer, -, -, unconsumed⟩ := booked.pending _ _ at_token
  rw [← injective key] at by_issuer unconsumed
  constructor
  · intro key entry at_key
    rw [resets] at at_key
    obtain ⟨apart, old⟩ := ExpiringMap.del_eq_some.mp at_key
    obtain ⟨j, other, instant, rfl, by_j, deadline, inTime, unconsumed⟩ :=
      booked.pending key entry old
    refine ⟨j, other, instant, rfl, by_j.cons, deadline, clock ▸ inTime, ?_⟩
    rintro ⟨k, by_k⟩
    rcases consumed k other by_k with earlier | ⟨-, rfl⟩
    · exact unconsumed ⟨k, earlier⟩
    · exact apart rfl
  · rintro other ⟨k, by_k⟩
    rcases consumed k other by_k with earlier | ⟨-, rfl⟩
    · obtain ⟨j, userId, instant, by_j⟩ := booked.issued other ⟨k, earlier⟩
      exact ⟨j, userId, instant, by_j.cons⟩
    · exact ⟨issuer, entry.value, instant, by_issuer.cons⟩
  · intro j k other by_j by_k
    rcases consumed j other by_j with j_earlier | ⟨rfl, rfl⟩
    · rcases consumed k other by_k with k_earlier | ⟨-, rfl⟩
      · exact booked.once j k other j_earlier k_earlier
      · exact absurd ⟨j, j_earlier⟩ unconsumed
    · rcases consumed k other by_k with k_earlier | ⟨rfl, -⟩
      · exact absurd ⟨k, k_earlier⟩ unconsumed
      · rfl

theorem elapse (booked : Booked env requests w trace) (ms : Nat) :
    Booked env requests (w.elapse S ms) trace where
  pending := by
    intro key entry at_key
    obtain ⟨there, live⟩ := ExpiringMap.elapse_eq_some.mp at_key
    obtain ⟨i, token, instant, here, by_i, deadline, -, unconsumed⟩ := booked.pending key entry there
    have inTime : w.now + ms < instant + RESET_TTL_MS := by
      simpa [Entry.liveAt, deadline] using live
    exact ⟨i, token, instant, here, by_i, deadline, inTime, unconsumed⟩
  issued := booked.issued
  once := booked.once

theorem step (booked : Booked env requests w trace) (phased : Phased env requests φ trace)
    (injective : Function.Injective env.sha256) (distinct : DistinctTokens requests)
    (moved : ResetMove S env (requests i) (φ i) w w' φ') :
    Booked env requests w' (⟨i, w, w'⟩ :: trace) := by
  have later : φ i ≠ .start → ∀ {p : Prop}, Pool.firstCall trace i = none → p :=
    fun under _ first => absurd ((phased.started i).mpr first) under
  generalize at_i : requests i = request at moved
  generalize phase : φ i = ψ at moved
  cases moved with
  | looks | skips =>
      refine booked.idle (fun _ _ there => there) rfl ?_
      intro _ token presents
      rw [at_i] at presents
      cases presents
  | stores draws email w row =>
      obtain ⟨draws', email', looked, request, calls, found⟩ := phased.looked i row phase
      obtain ⟨rfl, rfl⟩ := ResetRequest.requestReset.inj (at_i.symm.trans request)
      exact booked.stores distinct at_i calls found rfl rfl
  | takes found =>
      exact booked.takes injective ((phased.started i).mp phase) (by rw [at_i]; rfl) found rfl rfl
  | misses missing =>
      refine booked.idle (fun _ _ there => (ExpiringMap.del_eq_some.mp there).2) rfl ?_
      intro _ token presents
      rw [at_i] at presents
      cases presents
      exact missing
  | writes | fails | revokes | mails =>
      exact booked.idle (fun _ _ there => there) rfl (later (by simp [phase]))

end Booked

/-! ## Whole runs -/

theorem Took.issued {j : ι} {userId token : String} (took : Took env requests trace j userId)
    (presents : (requests j).presents = some token) :
    ConsumedBy env requests trace j token ∧ ∃ e i instant, Pool.firstCall trace j = some e ∧
      IssuedBy env requests (Pool.before trace j) i token userId instant ∧
      e.met.now < instant + RESET_TTL_MS ∧ ¬ Consumed env requests (Pool.before trace j) token := by
  obtain ⟨token', e, i, instant, also, first, found, rest⟩ := took
  obtain rfl := Option.some.inj (also.symm.trans presents)
  exact ⟨⟨presents, e, first, found⟩, e, i, instant, first, rest⟩

theorem singleUse_of_invariant {P : Pool ι (World σ) ServiceError (Option Bool)}
    (booked : Booked env requests P.state P.trace) (phased : Phased env requests φ P.trace)
    (follows : ∀ i, (P.procs i).Follows (fun _ => True) (ResetMove S env (requests i)) ResetEnds
      (φ i)) : SingleUse env requests P := by
  have took : ∀ j, P.Ended j (.ok (some true)) → ∃ userId, Took env requests P.trace j userId := by
    intro j ended
    obtain ⟨userId, taken⟩ := (follows j).ends ended rfl
    exact ⟨userId, phased.taken j userId taken⟩
  constructor
  · intro j k token j_presents k_presents j_ended k_ended
    obtain ⟨_, by_j⟩ := took j j_ended
    obtain ⟨_, by_k⟩ := took k k_ended
    exact booked.once j k token (by_j.issued j_presents).1 (by_k.issued k_presents).1
  · intro j token presents ended
    obtain ⟨userId, by_j⟩ := took j ended
    obtain ⟨-, e, i, instant, first, issued, inTime, -⟩ := by_j.issued presents
    exact ⟨i, userId, instant, e, issued.later Pool.before_suffix, first, inTime⟩
  · intro e member userId changed
    rcases phased.acts e member with ⟨db, -⟩ | ⟨owner, taken, others⟩
    · exact absurd (by rw [db]) changed
    · by_cases same : userId = owner
      · subst same
        have by_owner := phased.taken e.who userId taken
        have ⟨token, _, _, _, presents, _⟩ := by_owner
        obtain ⟨-, -, i, instant, -, issued, -⟩ := by_owner.issued presents
        exact ⟨token, i, instant, presents, issued.later Pool.before_suffix⟩
      · exact absurd (by rw [others userId same]) changed
  · rintro j token presents stale e member rfl
    rcases phased.acts e member with harmless | ⟨userId, taken, -⟩
    · exact harmless
    · obtain ⟨-, -, i, instant, -, issued, -, unconsumed⟩ :=
        (phased.taken e.who userId taken).issued presents
      rcases stale with never | consumed
      · exact absurd issued (never i userId instant)
      · exact absurd consumed unconsumed

/-- Whatever requests run at the same time: a reset token makes `reset` return true at
most once, within its lifetime, and changes only the password of the user it was issued
to; a string that was not issued, or was consumed, changes nothing. -/
theorem resetTokens_singleUse (injective : Function.Injective env.sha256)
    (distinct : DistinctTokens requests) {w₀ : World σ} (none_pending : w₀.resets = .empty)
    {P : Pool ι (World σ) ServiceError (Option Bool)}
    (run : Pool.Run (TimePasses S) Always
      (Pool.start (fun i => (requests i).service S env) w₀) P) :
    SingleUse env requests P := by
  have nothing : ∀ k token, ¬ ConsumedBy (σ := σ) env requests [] k token := by
    rintro k token ⟨-, e, impossible, -⟩
    cases impossible
  obtain ⟨φ, ⟨booked, phased⟩, follows⟩ := run.invariant (I := fun _ _ => True)
    (T := fun i => ResetMove S env (requests i)) (D := fun _ => ResetEnds)
    (fun φ w trace => Booked env requests w trace ∧ Phased env requests φ trace)
    (fun _ _ _ _ _ _ => trivial)
    (fun _ _ _ _ _ _ inv _ moved =>
      ⟨inv.1.step inv.2 injective distinct moved, inv.2.step inv.1 injective moved⟩)
    (by
      rintro φ w trace _ inv ⟨ms, rfl⟩
      exact ⟨inv.1.elapse ms, inv.2⟩)
    (fun _ => .start) (fun i => resetRequest_follows S env (requests i))
    (by
      constructor
      · refine ⟨?_, fun token ⟨k, by_k⟩ => absurd by_k (nothing k token),
          fun j k token by_j => absurd by_j (nothing j token)⟩
        intro key entry at_key
        rw [show (Pool.start (fun i => (requests i).service S env) w₀).state.resets = .empty from
          none_pending] at at_key
        cases at_key
      · refine ⟨fun _ => ⟨fun _ => rfl, fun _ => rfl⟩, ?_, ?_, ?_⟩
        · intro _ _ impossible
          cases impossible
        · intro _ _ impossible
          cases impossible
        · intro _ impossible
          cases impossible)
  exact singleUse_of_invariant booked phased follows

end

/-! ## Two resets with one link -/

/-- One link is mailed; two resets present its token. -/
def linkRace : Option Bool → ResetRequest
  | none => .requestReset sampleDraws "hr@acme.test"
  | some first => .reset sampleDraws sampleTokens.1 (if first then "N3w-Passw0rd" else "0ther-Passw0rd")

def linkRaced (schedule : List (Option Bool)) :
    Pool (Option Bool) (World InMemorySessions) ServiceError (Option Bool) :=
  Pool.play Always (Pool.start (fun i => (linkRace i).service
    (inMemorySessionStore sampleSha256 .default) sampleEnv) (World.fresh .empty 0 staffed)) schedule

/-- Both resets have begun before the first one writes: it alone returns true. -/
theorem resetTokens_singleUse_race :
    let P := linkRaced [none, none, none, some true, some false, some true, some true]
    SingleUse sampleEnv linkRace P ∧ (P.procs (some true)).ended = some (.ok (some true)) ∧
      (P.procs (some false)).ended = some (.ok (some false)) := by
  refine ⟨resetTokens_singleUse sampleSha256.injective ?_ rfl (Pool.run_play _ _), ?_, ?_⟩
  · rintro (_ | _) (_ | _) token issued also
    · rfl
    · cases also
    · cases issued
    · cases issued
  · decide +kernel
  · decide +kernel

end Arac.Auth
