/-
# Arac.Mediation.Operations -- the operations of the service, one at a time

Every write to the database goes through one of these operations.  `Step` is one of
them with arguments, tokens and random values from anybody, whatever it answers, or
the passing of time.
-/
import Arac.Auth.Service
import Arac.Admin.Service
import Arac.Org.Service

namespace Arac.Mediation

open Arac.Theory Arac.Sessions Arac.Service Arac.Admin Arac.Org Arac.Auth

set_option autoImplicit false

inductive Operation where
  | signup (email name password : String)
  | login (email password : String)
  | refresh (presentedRefreshToken : String)
  | logout (presentedRefreshToken : String)
  | logoutAll (accessToken : String)
  | changePassword (accessToken currentPassword newPassword : String)
  | requestReset (email : String)
  | reset (token newPassword : String)
  | grantAttributes (accessToken targetId : String) (input : GrantInput)
  | assignRole (accessToken targetId : String) (input : RoleAssignmentInput)
  | removeRole (accessToken targetId : String) (input : RoleAssignmentInput)
  | createDepartment (accessToken : String) (input : CreateDepartmentInput)
  | createCompartment (accessToken : String) (input : CreateCompartmentInput)
  | setUserMemberships (accessToken userId : String) (memberships : List MembershipInput)
  | setUserCompartments (accessToken userId : String) (keys : List String)

namespace Operation

variable {σ : Type} (S : SessionStore σ) (env : Env) (draws : Draws)

def service : Operation → Service σ Unit
  | .signup email name password => (AuthService.signup S env draws email name password).void
  | .login email password => (AuthService.login S env draws email password).void
  | .refresh presented => (AuthService.refresh S env draws presented).void
  | .logout presented => AuthService.logout S presented
  | .logoutAll accessToken => AuthService.logoutAll S env accessToken
  | .changePassword accessToken current new =>
      (AuthService.changePassword S env draws accessToken current new).void
  | .requestReset email => PasswordResetService.requestReset env draws email
  | .reset token new => (PasswordResetService.reset S env draws token new).void
  | .grantAttributes accessToken targetId input =>
      (Admin.grantAttributes S env accessToken targetId input).void
  | .assignRole accessToken targetId input =>
      (Admin.assignRole S env draws accessToken targetId input).void
  | .removeRole accessToken targetId input =>
      (Admin.removeRole S env accessToken targetId input).void
  | .createDepartment accessToken input => (Org.createDepartment env draws accessToken input).void
  | .createCompartment accessToken input => (Org.createCompartment env draws accessToken input).void
  | .setUserMemberships accessToken userId memberships =>
      Org.setUserMemberships S env accessToken userId memberships
  | .setUserCompartments accessToken userId keys =>
      Org.setUserCompartments S env accessToken userId keys

/-- The operation sets the attributes, memberships or compartments of this user. -/
def Targets : Operation → String → Prop
  | .grantAttributes _ targetId _, userId => targetId = userId
  | .setUserMemberships _ targetId _, userId => targetId = userId
  | .setUserCompartments _ targetId _, userId => targetId = userId
  | _, _ => False

end Operation

/-- An operation of which `may` holds with its answer, or time passes. -/
inductive Step {σ : Type} (S : SessionStore σ) (env : Env)
    (may : Operation → Except ServiceError Unit → Prop) : World σ → World σ → Prop
  | operation {w w' : World σ} {result : Except ServiceError Unit} (draws : Draws) (op : Operation)
      (run : (op.service S env draws).run w = (result, w')) (allowed : may op result) :
      Step S env may w w'
  | elapse (w : World σ) (ms : Nat) : Step S env may w (w.elapse S ms)

end Arac.Mediation
