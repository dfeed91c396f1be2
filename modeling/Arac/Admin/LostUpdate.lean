/-
# Arac.Admin.LostUpdate -- two administrators grant attributes to one user

`grantAttributes` reads the row, merges its input into what it read, and writes all
four attributes.  Two calls at the same time keep each other's attributes exactly
where every write that changes the row meets it, on the attributes that its call
leaves out, as the call had read it (`noLostUpdate_iff`).

`Progress` is the invariant: which of the two calls have written, and what each of
them read.
-/
import Arac.Admin.Effects
import Arac.Services.Concurrent
import Arac.Sessions.InMemory

namespace Arac.Admin

open Arac.Theory Arac.Sessions Arac.Db Arac.Service Arac.Rbac

set_option autoImplicit false

/-! ## The two calls -/

structure GrantCall where
  accessToken : String
  input : GrantInput

/-- No attribute is set by both inputs. -/
structure GrantInput.Disjoint (a b : GrantInput) : Prop where
  tenant : a.tenant = none ∨ b.tenant = none
  department : a.department = none ∨ b.department = none
  clearance : a.clearance = none ∨ b.clearance = none
  level : a.level = none ∨ b.level = none

theorem GrantInput.Disjoint.comm {a b : GrantInput} (disjoint : a.Disjoint b) : b.Disjoint a :=
  ⟨disjoint.tenant.symm, disjoint.department.symm, disjoint.clearance.symm, disjoint.level.symm⟩

/-- An attribute that was set has the value given, and one that was not is unchanged. -/
def Kept {α : Type} (a b : Option α) (before after : α) : Prop :=
  (∀ v, a = some v ∨ b = some v → after = v) ∧ (a = none → b = none → after = before)

/-- Both inputs are in the row, and nothing else changed. -/
structure NoLostUpdate (a b : GrantInput) (before after : User) : Prop where
  tenant : Kept a.tenant b.tenant before.tenant after.tenant
  department : Kept a.department b.department before.department after.department
  clearance : Kept a.clearance b.clearance before.clearance after.clearance
  level : Kept a.level b.level before.level after.level

/-- The rows agree on the attributes that the input leaves out. -/
structure AgreeOnOmitted (input : GrantInput) (x y : User) : Prop where
  tenant : input.tenant = none → x.tenant = y.tenant
  department : input.department = none → x.department = y.department
  clearance : input.clearance = none → x.clearance = y.clearance
  level : input.level = none → x.level = y.level

section

variable {σ : Type}

/-- The row that a call read: `findUnique` is its second call. -/
def ReadRow (targetId : String) (trace : List (Made Bool (World σ))) (k : Bool) (row : User) : Prop :=
  ∃ e, (Pool.callsOf trace k)[1]? = some e ∧ e.met.db.userById targetId = some row

/-- Every write that changes the database meets the row, on the attributes that its
call leaves out, as the call had read it. -/
def WritesWhatItRead (targetId : String) (calls : Bool → GrantCall)
    (trace : List (Made Bool (World σ))) : Prop :=
  ∀ e ∈ trace, e.left.db ≠ e.met.db → ∀ read met, ReadRow targetId trace e.who read →
    e.met.db.userById targetId = some met → AgreeOnOmitted (calls e.who).input read met

theorem ReadRow.cons {targetId : String} {trace : List (Made Bool (World σ))} {k : Bool} {row : User}
    {e : Made Bool (World σ)} (read : ReadRow targetId trace k row) :
    ReadRow targetId (e :: trace) k row := by
  obtain ⟨e', second, found⟩ := read
  exact ⟨e', Pool.callsOf_cons_some second, found⟩

theorem ReadRow.unique {targetId : String} {trace : List (Made Bool (World σ))} {k : Bool}
    {row row' : User} (read : ReadRow targetId trace k row) (read' : ReadRow targetId trace k row') :
    row = row' := by
  obtain ⟨e, second, found⟩ := read
  obtain ⟨e', second', found'⟩ := read'
  obtain rfl : e = e' := Option.some.inj (second.symm.trans second')
  exact Option.some.inj (found.symm.trans found')

end

/-! ## Phases -/

inductive GrantPhase where
  | start
  | timed
  | found (row : User)
  | written
  | closed

section

variable {σ : Type} (S : SessionStore σ) (env : Env) (targetId : String)

inductive GrantMove (input : GrantInput) : GrantPhase → World σ → World σ → GrantPhase → Prop
  | clock (w : World σ) : GrantMove input .start w w .timed
  | reads {w : World σ} {row : User} (found : w.db.userById targetId = some row) :
      GrantMove input .timed w w (.found row)
  | missing (w : World σ) : GrantMove input .timed w w .closed
  | checks (w : World σ) (row : User) : GrantMove input (.found row) w w (.found row)
  | writes {w : World σ} {row : User} {db : Database}
      (ok : w.db.userUpdate targetId (granted row input) = .ok db) :
      GrantMove input (.found row) w { w with db } .written
  | fails (w : World σ) (row : User) : GrantMove input (.found row) w w .closed
  | after {w w' : World σ} (db : w'.db = w.db) : GrantMove input .written w w' .written

/-- A call that returned a view has written. -/
def GrantEnds (r : Except ServiceError AdminUserView) (φ : GrantPhase) : Prop :=
  ∀ v, r = .ok v → φ = .written

theorem grantAttributes_follows (call : GrantCall) :
    (grantAttributes S env call.accessToken targetId call.input).Follows (fun _ => True)
      (GrantMove targetId call.input) GrantEnds .start := by
  have failed : ∀ {e : ServiceError} {φ : GrantPhase}, GrantEnds (.error e) φ := by
    intro e φ v impossible
    cases impossible
  refine .bind (D := fun _ φ => φ = .timed) ?_ ?_ fun _ _ _ => failed
  · -- the clock is read, then the token is verified
    refine .bind (D := fun _ φ => φ = .timed) ?_ (fun _ _ here => .pure here) fun _ _ here => here
    refine .bind (D := fun _ φ => φ = .timed) (.call fun w _ => ⟨_, .clock w, rfl⟩) ?_
      fun _ _ here => here
    intro now φ here
    cases env.verifyAccessToken now call.accessToken with
    | ok verified => exact .pure here
    | error e => exact .fail here
  · rintro caller _ rfl
    refine .bind (D := fun r φ => ∀ row, r = .ok (some row) → φ = .found row) ?_ ?_
      fun _ _ _ => failed
    · refine .call ?_
      intro w _
      cases found : w.db.userById targetId with
      | none =>
          refine ⟨.closed, .missing w, ?_⟩
          intro row same
          have same : w.db.userById targetId = some row := Except.ok.inj same
          rw [found] at same
          cases same
      | some row =>
          refine ⟨.found row, .reads found, ?_⟩
          intro row' same
          have same : w.db.userById targetId = some row' := Except.ok.inj same
          rw [found] at same
          cases same
          rfl
    · intro found φ known
      cases found with
      | none => exact .fail failed
      | some row =>
          obtain rfl : φ = .found row := known row rfl
          refine .bind ((quiet_requireScope _ _ _).follows fun w _ => .checks w row) ?_
            fun _ _ _ => failed
          rintro _ _ rfl
          refine .bind ((quiet_requireScope _ _ _).follows fun w _ => .checks w row) ?_
            fun _ _ _ => failed
          rintro _ _ rfl
          refine .bind (D := fun r φ => r = .ok () → φ = .written) ?_ ?_ fun _ _ _ => failed
          · exact commit_follows (fun w db _ ok => ⟨.written, .writes ok, fun _ => rfl⟩)
              fun w e _ _ => ⟨.closed, .fails w row, fun impossible => by cases impossible⟩
          · intro _ φ known
            obtain rfl := known rfl
            refine .bind (D := fun _ φ => φ = .written) (.call fun w _ => ⟨_, .after rfl, rfl⟩) ?_
              fun _ _ _ => failed
            rintro _ _ rfl
            exact .mono ((quiet_view targetId).follows fun w _ => .after rfl)
              fun r φ here v _ => here

end

/-! ## The invariant -/

section

variable {σ : Type} (targetId : String) (calls : Bool → GrantCall) (before : User)

/-- The row after the first write. -/
def firstWrite (k : Bool) : User := before.update (granted before (calls k).input)

inductive Progress (φ : Bool → GrantPhase) (db : Database) (trace : List (Made Bool (World σ))) :
    Prop
  /-- Nobody has written. -/
  | none (unwritten : ∀ k, φ k ≠ .written) (row : db.userById targetId = some before)
      (found : ∀ k row, φ k = .found row → row = before)
      (unchanged : ∀ e ∈ trace, e.left.db = e.met.db)
  /-- One call has written; the other may have read before that or after it. -/
  | one (k : Bool) (written : φ k = .written) (other : φ (!k) ≠ .written)
      (row : db.userById targetId = some (firstWrite calls before k))
      (found : ∀ row, φ (!k) = .found row → row = before ∨ row = firstWrite calls before k)
      (read : ReadRow targetId trace k before)
      (changed : ∀ e ∈ trace, e.left.db ≠ e.met.db →
        e.who = k ∧ e.met.db.userById targetId = some before)
  /-- Both have written, the second one over the row it had read. -/
  | both (k : Bool) (row : User) (written : ∀ j, φ j = .written)
      (final : db.userById targetId =
        some ((firstWrite calls before k).update (granted row (calls !k).input)))
      (first : ReadRow targetId trace k before) (second : ReadRow targetId trace (!k) row)
      (e : Made Bool (World σ)) (member : e ∈ trace) (who : e.who = !k)
      (met : e.met.db.userById targetId = some (firstWrite calls before k))
      (left : e.left.db.userById targetId =
        some ((firstWrite calls before k).update (granted row (calls !k).input)))
      (changed : ∀ e' ∈ trace, e'.left.db ≠ e'.met.db →
        (e'.who = k ∧ e'.met.db.userById targetId = some before) ∨ e' = e)

structure Standing (φ : Bool → GrantPhase) (w : World σ) (trace : List (Made Bool (World σ))) :
    Prop where
  unstarted : ∀ k, φ k = .start → (Pool.callsOf trace k).length = 0
  timed : ∀ k, φ k = .timed → (Pool.callsOf trace k).length = 1
  read : ∀ k row, φ k = .found row → ReadRow targetId trace k row
  progress : Progress targetId calls before φ w.db trace

end

section

variable {σ : Type} {targetId : String} {calls : Bool → GrantCall} {before : User}
  {φ : Bool → GrantPhase} {φ' : GrantPhase} {w w' : World σ} {trace : List (Made Bool (World σ))}
  {j : Bool}

theorem Standing.start (present : w.db.userById targetId = some before) :
    Standing targetId calls before (fun _ => .start) w [] := by
  refine ⟨fun _ _ => rfl, ?_, ?_, ?_⟩
  · intro k impossible
    cases impossible
  · intro k row impossible
    cases impossible
  · refine .none ?_ present ?_ ?_
    · intro k impossible
      cases impossible
    · intro k row impossible
      cases impossible
    · intro e impossible
      cases impossible

/-- A call that leaves the database alone. -/
theorem Progress.quiet (progress : Progress targetId calls before φ w.db trace)
    (same : w'.db = w.db) (writes : φ' = .written ↔ φ j = .written)
    (reads : ∀ row, φ' = .found row → φ j = .found row ∨ w.db.userById targetId = some row) :
    Progress targetId calls before (Function.update φ j φ') w'.db (⟨j, w, w'⟩ :: trace) := by
  have written_iff : ∀ k, Function.update φ j φ' k = .written ↔ φ k = .written :=
    (Function.forall_update_iff φ fun k ψ => ψ = .written ↔ φ k = .written).mpr
      ⟨writes, fun _ _ => Iff.rfl⟩
  have found_of : ∀ k row, Function.update φ j φ' k = .found row →
      φ k = .found row ∨ w.db.userById targetId = some row :=
    (Function.forall_update_iff φ fun k ψ => ∀ row, ψ = .found row →
      φ k = .found row ∨ w.db.userById targetId = some row).mpr
        ⟨reads, fun _ _ _ found => Or.inl found⟩
  rw [same]
  cases progress with
  | none unwritten row found unchanged =>
      refine .none (fun k => mt (written_iff k).mp (unwritten k)) row ?_ ?_
      · intro k r here
        rcases found_of k r here with old | current
        · exact found k r old
        · exact Option.some.inj (current.symm.trans row)
      · intro e member
        rcases List.mem_cons.mp member with rfl | earlier
        · exact same
        · exact unchanged e earlier
  | one k written other row found read changed =>
      refine .one k ((written_iff k).mpr written) (mt (written_iff _).mp other) row ?_ read.cons ?_
      · intro r here
        rcases found_of _ r here with old | current
        · exact found r old
        · exact Or.inr (Option.some.inj (current.symm.trans row))
      · intro e member changes
        rcases List.mem_cons.mp member with rfl | earlier
        · exact absurd same changes
        · exact changed e earlier changes
  | both k row written final first second e member who met left changed =>
      refine .both k row (fun i => (written_iff i).mpr (written i)) final first.cons second.cons e
        (List.mem_cons_of_mem _ member) who met left ?_
      intro e' member changes
      rcases List.mem_cons.mp member with rfl | earlier
      · exact absurd same changes
      · exact changed e' earlier changes

/-- A write. -/
theorem Progress.write (progress : Progress targetId calls before φ w.db trace) {row : User}
    (here : φ j = .found row) (read : ReadRow targetId trace j row) {db : Database}
    (ok : w.db.userUpdate targetId (granted row (calls j).input) = .ok db) :
    Progress targetId calls before (Function.update φ j .written) db
      (⟨j, w, { w with db }⟩ :: trace) := by
  have self : Function.update φ j .written j = .written := Function.update_self _ _ _
  have others : ∀ k, k ≠ j → Function.update φ j .written k = φ k :=
    fun k other => Function.update_of_ne other _ _
  cases progress with
  | none unwritten present found unchanged =>
      obtain rfl := found j row here
      refine .one j self ?_ (Database.userById_userUpdate present ok) ?_ read.cons ?_
      · rw [others _ (by simp)]
        exact unwritten _
      · intro r other
        rw [others _ (by simp)] at other
        exact Or.inl (found _ r other)
      · intro e member changes
        rcases List.mem_cons.mp member with rfl | earlier
        · exact ⟨rfl, present⟩
        · exact absurd (unchanged e earlier) changes
  | one k written other present found first changed =>
      have second : j = !k := by
        have apart : j ≠ k := by
          rintro rfl
          rw [here] at written
          cases written
        revert apart
        cases j <;> cases k <;> simp
      subst second
      have final := Database.userById_userUpdate present ok
      refine .both k row ?_ final first.cons read.cons _ List.mem_cons_self rfl present final ?_
      · intro i
        by_cases mine : i = !k
        · rw [mine]
          exact self
        · rw [others i mine]
          have first_one : i = k := by
            revert mine
            cases i <;> cases k <;> simp
          rw [first_one]
          exact written
      · intro e member changes
        rcases List.mem_cons.mp member with rfl | earlier
        · exact Or.inr rfl
        · exact Or.inl (changed e earlier changes)
  | both k r written =>
      have done := written j
      rw [here] at done
      cases done

/-- Every call keeps the invariant. -/
theorem Standing.call (standing : Standing targetId calls before φ w trace)
    (moved : GrantMove targetId (calls j).input (φ j) w w' φ') :
    Standing targetId calls before (Function.update φ j φ') w' (⟨j, w, w'⟩ :: trace) := by
  refine { unstarted := ?_, timed := ?_, read := ?_, progress := ?_ }
  · refine Pool.forall_callsOf_cons φ (e := ⟨j, w, w'⟩)
      (q := fun _ ψ made => ψ = .start → made.length = 0) standing.unstarted ?_
    rintro rfl
    generalize φ j = ψ at moved
    cases moved
  · refine Pool.forall_callsOf_cons φ (e := ⟨j, w, w'⟩)
      (q := fun _ ψ made => ψ = .timed → made.length = 1) standing.timed ?_
    rintro rfl
    generalize at_j : φ j = ψ at moved
    cases moved
    simp [standing.unstarted j at_j]
  · refine (Function.forall_update_iff φ fun k ψ => ∀ row, ψ = .found row →
      ReadRow targetId (⟨j, w, w'⟩ :: trace) k row).mpr
        ⟨?_, fun k _ row here => (standing.read k row here).cons⟩
    rintro row rfl
    generalize at_j : φ j = ψ at moved
    cases moved with
    | reads found =>
        -- the second call of the procedure
        refine ⟨⟨j, w, w⟩, ?_, found⟩
        have one := standing.timed j at_j
        have mine : Pool.callsOf (⟨j, w, w⟩ :: trace) j = Pool.callsOf trace j ++ [⟨j, w, w⟩] :=
          Pool.callsOf_cons_self ⟨j, w, w⟩ trace
        rw [mine, List.getElem?_append_right (by omega)]
        simp [one]
    | checks => exact (standing.read j row at_j).cons
  · have progress := standing.progress
    generalize at_j : φ j = ψ at moved
    cases moved with
    | clock => exact progress.quiet rfl (by simp [at_j]) (by simp)
    | reads found =>
        apply progress.quiet rfl (by simp [at_j])
        intro row same
        cases same
        exact Or.inr found
    | missing => exact progress.quiet rfl (by simp [at_j]) (by simp)
    | checks _ row =>
        apply progress.quiet rfl (by simp [at_j])
        intro r same
        exact Or.inl (at_j.trans same)
    | writes ok => exact progress.write at_j (standing.read j _ at_j) ok
    | fails => exact progress.quiet rfl (by simp [at_j]) (by simp)
    | after db => exact progress.quiet db (by simp [at_j]) (by simp)

/-! ## What is left in the row -/

/-- The second write of two, attribute by attribute. -/
theorem kept_iff {α : Type} {a b : Option α} (disjoint : a = none ∨ b = none) (before read : α) :
    Kept a b before (b.getD read) ↔ (b = none → read = a.getD before) := by
  unfold Kept
  cases a with
  | none => cases b <;> simp
  | some u =>
      cases b with
      | none => simp
      | some v => simp at disjoint

theorem Kept.comm {α : Type} {a b : Option α} {before after : α} :
    Kept a b before after ↔ Kept b a before after := by
  unfold Kept
  constructor
  · rintro ⟨set, unset⟩
    exact ⟨fun v given => set v given.symm, fun b_none a_none => unset a_none b_none⟩
  · rintro ⟨set, unset⟩
    exact ⟨fun v given => set v given.symm, fun a_none b_none => unset b_none a_none⟩

theorem noLostUpdate_comm {a b : GrantInput} {after : User} :
    NoLostUpdate a b before after ↔ NoLostUpdate b a before after := by
  constructor <;> exact fun h => ⟨Kept.comm.mp h.tenant, Kept.comm.mp h.department,
    Kept.comm.mp h.clearance, Kept.comm.mp h.level⟩

/-- The second write loses nothing exactly where what it read agrees with the row it
meets. -/
theorem noLostUpdate_second {a b : GrantInput} (disjoint : a.Disjoint b) (row : User) :
    NoLostUpdate a b before ((before.update (granted before a)).update (granted row b)) ↔
      AgreeOnOmitted b row (before.update (granted before a)) := by
  constructor
  · intro kept
    exact { tenant := (kept_iff disjoint.tenant _ _).mp kept.tenant
            department := (kept_iff disjoint.department _ _).mp kept.department
            clearance := (kept_iff disjoint.clearance _ _).mp kept.clearance
            level := (kept_iff disjoint.level _ _).mp kept.level }
  · intro agree
    exact { tenant := (kept_iff disjoint.tenant _ _).mpr agree.tenant
            department := (kept_iff disjoint.department _ _).mpr agree.department
            clearance := (kept_iff disjoint.clearance _ _).mpr agree.clearance
            level := (kept_iff disjoint.level _ _).mpr agree.level }

/-- A second write that changes nothing had read what it omits. -/
theorem agreeOnOmitted_of_unchanged {b : GrantInput} {x row : User}
    (same : x.update (granted row b) = x) : AgreeOnOmitted b row x := by
  constructor
  · intro omitted
    have tenant := congrArg User.tenant same
    simpa [User.update, granted, omitted] using tenant
  · intro omitted
    have department := congrArg User.department same
    simpa [User.update, granted, omitted] using department
  · intro omitted
    have clearance := congrArg User.clearance same
    simpa [User.update, granted, omitted] using clearance
  · intro omitted
    have level := congrArg User.level same
    simpa [User.update, granted, omitted] using level

/-- When both calls have written, the second one loses nothing exactly where it wrote
what it had read. -/
theorem Progress.settled {db : Database} (progress : Progress targetId calls before φ db trace)
    (disjoint : (calls false).input.Disjoint (calls true).input) (written : ∀ k, φ k = .written) :
    ∃ after, db.userById targetId = some after ∧
      (NoLostUpdate (calls false).input (calls true).input before after ↔
        WritesWhatItRead targetId calls trace) := by
  cases progress with
  | none unwritten => exact absurd (written true) (unwritten true)
  | one k _ other => exact absurd (written (!k)) other
  | both k row _ final first second e member who met left changed =>
      refine ⟨_, final, ?_⟩
      have kept : NoLostUpdate (calls false).input (calls true).input before
          ((firstWrite calls before k).update (granted row (calls !k).input)) ↔
            AgreeOnOmitted (calls !k).input row (firstWrite calls before k) := by
        cases k with
        | false => exact noLostUpdate_second disjoint row
        | true => exact noLostUpdate_comm.trans (noLostUpdate_second disjoint.comm row)
      refine kept.trans ⟨?_, ?_⟩
      · intro agree e' member' changes read met' reads at_e'
        rcases changed e' member' changes with ⟨mine, met_before⟩ | rfl
        · -- the first write meets the row that both calls began with
          rw [mine] at reads
          obtain rfl := reads.unique first
          obtain rfl := Option.some.inj (met_before.symm.trans at_e')
          exact ⟨fun _ => rfl, fun _ => rfl, fun _ => rfl, fun _ => rfl⟩
        · rw [who] at reads ⊢
          obtain rfl := reads.unique second
          obtain rfl := Option.some.inj (met.symm.trans at_e')
          exact agree
      · intro writes
        by_cases same : e.left.db = e.met.db
        · rw [same, met] at left
          exact agreeOnOmitted_of_unchanged (Option.some.inj left).symm
        · have agree := writes e member same row (firstWrite calls before k) (who ▸ second) met
          rwa [who] at agree

end

/-! ## Whole runs -/

section

variable {σ : Type} (S : SessionStore σ) (env : Env) (targetId : String)

/-- The two calls, at the same time. -/
def grants (calls : Bool → GrantCall) (k : Bool) : Service σ AdminUserView :=
  grantAttributes S env (calls k).accessToken targetId (calls k).input

variable {S env targetId}

/-- When two calls with disjoint inputs have both succeeded, no update is lost exactly
where every write that changes the row meets it, on the attributes that its call leaves
out, as the call had read it. -/
theorem noLostUpdate_iff {calls : Bool → GrantCall}
    (disjoint : (calls false).input.Disjoint (calls true).input) {w₀ : World σ} {before : User}
    (present : w₀.db.userById targetId = some before)
    {P : Pool Bool (World σ) ServiceError AdminUserView}
    (run : Pool.Run (TimePasses S) Always (Pool.start (grants S env targetId calls) w₀) P)
    (succeeded : ∀ k, ∃ v, P.Ended k (.ok v)) :
    ∃ after, P.state.db.userById targetId = some after ∧
      (NoLostUpdate (calls false).input (calls true).input before after ↔
        WritesWhatItRead targetId calls P.trace) := by
  have reached := Pool.Run.invariant (Φ := GrantPhase) (I := fun _ _ => True)
    (T := fun k => GrantMove targetId (calls k).input) (D := fun _ => GrantEnds)
    (J := fun φ w trace => Standing targetId calls before φ w trace)
    (fun _ _ _ _ _ _ => trivial) ?_ ?_ (fun _ => .start) ?_ ?_ run
  · obtain ⟨φ, standing, follows⟩ := reached
    have written : ∀ k, φ k = .written := by
      intro k
      obtain ⟨v, ended⟩ := succeeded k
      exact (follows k).ends ended v rfl
    exact standing.progress.settled disjoint written
  · intro φ w trace k w' φ' standing _ moved
    exact standing.call moved
  · rintro φ w trace _ standing ⟨ms, rfl⟩
    exact ⟨standing.unstarted, standing.timed, standing.read, standing.progress⟩
  · intro k
    exact grantAttributes_follows S env targetId (calls k)
  · exact .start present

end

/-! ## A clearance and a level -/

/-- The row that both calls are about. -/
def harvey : User :=
  { staff "hr@acme.test" 4 with name := "Harvey HR", department := "hr", clearance := 2 }

/-- One call sets the clearance, the other the level. -/
def clearanceAndLevel : Bool → GrantCall
  | false => ⟨"admin@acme.test", ⟨none, none, some 5, none⟩⟩
  | true => ⟨"admin@acme.test", ⟨none, none, none, some 7⟩⟩

theorem clearanceAndLevel_disjoint :
    (clearanceAndLevel false).input.Disjoint (clearanceAndLevel true).input :=
  ⟨Or.inl rfl, Or.inl rfl, Or.inr rfl, Or.inl rfl⟩

def granting (schedule : List Bool) :
    Pool Bool (World InMemorySessions) ServiceError AdminUserView :=
  Pool.play Always (Pool.start (grants (inMemorySessionStore sampleSha256 .default) sampleEnv
    "hr@acme.test" clearanceAndLevel) (World.fresh .empty 0 staffed)) schedule

/-- One after the other. -/
theorem noLostUpdate_iff_sequential :
    ∃ after, (granting (List.replicate 11 false ++ List.replicate 11 true)).state.db.userById
        "hr@acme.test" = some after ∧
      (NoLostUpdate (clearanceAndLevel false).input (clearanceAndLevel true).input harvey after ↔
        WritesWhatItRead "hr@acme.test" clearanceAndLevel
          (granting (List.replicate 11 false ++ List.replicate 11 true)).trace) := by
  apply noLostUpdate_iff clearanceAndLevel_disjoint (by decide) (Pool.run_play _ _)
  intro k
  cases k with
  | false => exact Pool.exists_ended_ok (by decide +kernel)
  | true => exact Pool.exists_ended_ok (by decide +kernel)

/-- The second call reads the row before the first one writes it. -/
theorem not_always_noLostUpdate : ¬ ∀ {σ : Type} (S : SessionStore σ) (env : Env)
    (targetId : String) (calls : Bool → GrantCall) (w₀ : World σ) (before after : User)
    (P : Pool Bool (World σ) ServiceError AdminUserView),
    (calls false).input.Disjoint (calls true).input → w₀.db.userById targetId = some before →
    Pool.Run (TimePasses S) Always (Pool.start (grants S env targetId calls) w₀) P →
    (∀ k, ∃ v, P.Ended k (.ok v)) → P.state.db.userById targetId = some after →
    NoLostUpdate (calls false).input (calls true).input before after := by
  intro always
  have kept := always (inMemorySessionStore sampleSha256 .default) sampleEnv "hr@acme.test"
    clearanceAndLevel (World.fresh .empty 0 staffed) harvey { harvey with clearance := 5 }
    (granting ([false, false] ++ List.replicate 11 true ++ List.replicate 9 false))
    clearanceAndLevel_disjoint (by decide) (Pool.run_play _ _) ?_ (by decide +kernel)
  · have level := kept.level.1 7 (Or.inr rfl)
    exact absurd level (by decide)
  · intro k
    cases k with
    | false => exact Pool.exists_ended_ok (by decide +kernel)
    | true => exact Pool.exists_ended_ok (by decide +kernel)

end Arac.Admin
