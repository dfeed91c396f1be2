/-
# Arac.Org.TargetScope -- whose memberships an org manager may change

`require` asks whether the caller holds `org:manage` in any scope; no operation
asks again with the target user.  A manager confined to one tenant or department
can therefore replace the memberships and compartments of users elsewhere.
`respectsScope_iff` says when the confinement holds all the same.
-/
import Arac.Org.Effects
import Arac.Sessions.Redis

namespace Arac.Org

open Arac.Theory Arac.Sessions Arac.Db Arac.Service Arac.Rbac

set_option autoImplicit false

inductive OrgRequest where
  | setUserMemberships (memberships : List MembershipInput)
  | setUserCompartments (keys : List String)

def OrgRequest.service {σ : Type} (S : SessionStore σ) (env : Env) (accessToken userId : String) :
    OrgRequest → Service σ Unit
  | .setUserMemberships memberships => Org.setUserMemberships S env accessToken userId memberships
  | .setUserCompartments keys => Org.setUserCompartments S env accessToken userId keys

section

variable {σ : Type} (S : SessionStore σ) (env : Env) (w : World σ) (accessToken callerId : String)
  (x : User)

/-- A caller none of whose `org:manage` assignments reaches the target gets
`ForbiddenException`, and nothing has changed. -/
def RespectsScope (request : OrgRequest) : Prop :=
  ¬ Granted w.db.toTables callerId ORG_MANAGE (some (placeOf x)) →
    (request.service S env accessToken x.id).run w = (.error (.forbidden "Not permitted"), w)

end

section

variable {σ : Type} {S : SessionStore σ} {env : Env} {w : World σ}
  {accessToken caller permission : String} {x : User}

/-- After `require` no operation refuses any more. -/
def NotForbidden (e : ServiceError) : Prop := e ≠ .forbidden "Not permitted"

theorem commit_raises (update : Database → Except PrismaError Database) :
    (commit update : Service σ Unit).Raises NotForbidden := by
  refine .bind (.call _) ?_
  intro result
  cases result with
  | ok _ => exact .pure _
  | error e => exact .fail (by simp [NotForbidden])

theorem request_not_forbidden (valid : env.TokenOf w.now accessToken caller)
    (allowed : Allowed w caller ORG_MANAGE none) (userId : String) (request : OrgRequest) :
    ((request.service S env accessToken userId).run w).1 ≠ .error (.forbidden "Not permitted") := by
  intro thrown
  cases request with
  | setUserMemberships memberships =>
      simp only [OrgRequest.service] at thrown
      rw [setUserMemberships, Prog.run_bind_ok (run_require_allowed valid allowed)] at thrown
      refine Prog.Raises.run (Q := NotForbidden) (.bind (.call _) fun user => ?_) thrown rfl
      cases user with
      | none => exact .fail (by simp [NotForbidden])
      | some _ =>
          refine .bind (.call _) ?_
          intro depts
          split
          · exact .fail (by simp [NotForbidden])
          · dsimp only
            split
            · exact .fail (by simp [NotForbidden])
            · exact .bind (commit_raises _) fun _ => .call _
  | setUserCompartments keys =>
      simp only [OrgRequest.service] at thrown
      rw [setUserCompartments, Prog.run_bind_ok (run_require_allowed valid allowed)] at thrown
      refine Prog.Raises.run (Q := NotForbidden) (.bind (.call _) fun user => ?_) thrown rfl
      cases user with
      | none => exact .fail (by simp [NotForbidden])
      | some _ =>
          refine .bind (.call _) ?_
          intro comps
          split
          · exact .fail (by simp [NotForbidden])
          · exact .bind (commit_raises _) fun _ => .call _

/-- What `require` throws, the operation throws. -/
theorem run_request_error {e : ServiceError}
    (refused : (require env accessToken ORG_MANAGE).run w = (.error e, w)) (userId : String)
    (request : OrgRequest) :
    (request.service S env accessToken userId).run w = (.error e, w) := by
  cases request with
  | setUserMemberships memberships => exact Prog.run_bind_error refused _
  | setUserCompartments keys => exact Prog.run_bind_error refused _

/-- The scope of `org:manage` is respected exactly when one of the caller's
assignments covers the target, or the caller holds the permission nowhere. -/
theorem respectsScope_iff (valid : env.TokenOf w.now accessToken caller) (request : OrgRequest) :
    RespectsScope S env w accessToken caller x request ↔
      (Granted w.db.toTables caller ORG_MANAGE (some (placeOf x)) ∨
        Denied w caller ORG_MANAGE none) := by
  constructor
  · intro respects
    by_cases granted : Granted w.db.toTables caller ORG_MANAGE (some (placeOf x))
    · exact Or.inl granted
    · right
      have thrown := congrArg Prod.fst (respects granted)
      match answer : ((can caller ORG_MANAGE none).run w).1 with
      | .ok false => exact answer
      | .ok true => exact absurd thrown (request_not_forbidden valid answer x.id request)
      | .error e =>
          rw [run_request_error (run_require_error valid answer)] at thrown
          cases thrown
          cases can_error answer
  · rintro (granted | denied) outside
    · exact absurd granted outside
    · exact run_request_error (run_require_denied valid denied) x.id request

end

/-- Who holds `org:manage` nowhere changes nothing. -/
theorem respectsScope_user_admin :
    RespectsScope sampleStore sampleEnv (World.fresh .empty 0 staffed) "user-admin@acme.test"
      "user-admin@acme.test" (staff "dept-admin@acme.test" 4) (.setUserCompartments ["PII"]) :=
  (respectsScope_iff (sampleEnv_tokenOf 0 _) _).mpr (Or.inr (by decide))

/-- A manager of the finance department changes the compartments of somebody in human
resources. -/
theorem not_always_respectsScope :
    ¬ ∀ (σ : Type) (S : SessionStore σ) (env : Env) (w : World σ) (accessToken caller : String)
      (x : User), env.TokenOf w.now accessToken caller → x ∈ w.db.users →
        ∀ request, RespectsScope S env w accessToken caller x request := by
  intro always
  obtain ⟨hr, found⟩ : ∃ hr, staffed.userById "hr@acme.test" = some hr := ⟨_, rfl⟩
  obtain ⟨hr_row, -⟩ := Database.userById_eq_some.mp found
  have elsewhere : ¬ Granted staffed.toTables "super-admin@acme.test" ORG_MANAGE
      (some (placeOf hr)) := by
    rintro ⟨a, a_row, mine, -, covered⟩
    have confined : ∀ a ∈ staffed.userRoles, a.userId = "super-admin@acme.test" →
        ¬ (scopeOf a).Covers (some ⟨some "acme", some "hr"⟩) := by decide
    cases found
    exact confined a a_row mine covered
  have allowed : Allowed (World.fresh RedisSessions.empty 0 staffed) "super-admin@acme.test"
      ORG_MANAGE none := by decide
  have refused := always RedisSessions sampleStore sampleEnv (World.fresh .empty 0 staffed)
    "super-admin@acme.test" "super-admin@acme.test" hr (sampleEnv_tokenOf 0 _) hr_row
    (.setUserCompartments ["PII"]) elsewhere
  exact request_not_forbidden (sampleEnv_tokenOf 0 _) allowed hr.id (.setUserCompartments ["PII"])
    (congrArg Prod.fst refused)

end Arac.Org
