/-
# Arac.Http.Dtos -- the bodies of the requests

The DTO classes of the auth service.  No DTO of a signup or a login has a property for a
tenant, a department, a clearance or a level; the bounds on clearances and levels, and the
shape of slugs, are asked for here and nowhere else.

Each class has what the handlers read off a validated body beside it.  A property that is
null is read as absent, as `??` does.
-/
import Arac.Admin.Service
import Arac.Org.Service
import Arac.Theory.Validation

namespace Arac.Http

open Arac.Theory Arac.Db Arac.Admin Arac.Org

set_option autoImplicit false

/-! ## Reading a body -/

/-- A text, which the checks of the property have made sure of. -/
def text (fields : Fields) (name : String) : String :=
  match fields.get name with
  | some (.str s) => s
  | _ => ""

def text? (fields : Fields) (name : String) : Option String :=
  match fields.get name with
  | some (.str s) => some s
  | _ => none

def integer? (fields : Fields) (name : String) : Option Int :=
  match fields.get name with
  | some (.num q) => some q.num
  | _ => none

def elements (fields : Fields) (name : String) : List Json :=
  match fields.get name with
  | some (.arr items) => items
  | _ => []

def required (name : String) (checks : List Check) : Property :=
  { name, optional := false, checks, elements := [] }

def optionalProperty (name : String) (checks : List Check) : Property :=
  { name, optional := true, checks, elements := [] }

/-! ## The account DTOs -/

def emailMessage : String := "A valid email is required"

def passwordMessage : String := "Password must be at least 8 characters"

def LoginDto : Dto where
  properties := [
    required "email" [.isEmail emailMessage, .maxLength 254],
    required "password" [.isString, .minLength 1 none, .maxLength 256]]
  nested := []

def SignupDto : Dto where
  properties := [
    required "email" [.isEmail emailMessage, .maxLength 254],
    required "name" [.isString, .minLength 1 none, .maxLength 100],
    required "password" [.isString, .minLength 8 (some passwordMessage), .maxLength 256]]
  nested := []

def ChangePasswordDto : Dto where
  properties := [
    required "currentPassword" [.isString, .minLength 1 none, .maxLength 256],
    required "newPassword" [.isString, .minLength 8 (some passwordMessage), .maxLength 256]]
  nested := []

def ForgotPasswordDto : Dto where
  properties := [required "email" [.isEmail emailMessage, .maxLength 254]]
  nested := []

def ResetPasswordDto : Dto where
  properties := [
    required "token" [.isString, .minLength 1 none, .maxLength 512],
    required "newPassword" [.isString, .minLength 8 (some passwordMessage), .maxLength 256]]
  nested := []

/-! ## The admin DTOs -/

def GrantDto : Dto where
  properties := [
    optionalProperty "tenant" [.isString, .maxLength 64],
    optionalProperty "department" [.isString, .maxLength 64],
    optionalProperty "clearance" [.isInt, .min 0, .max 10],
    optionalProperty "level" [.isInt, .min 3, .max 12]]
  nested := []

def GrantDto.input (fields : Fields) : GrantInput where
  tenant := text? fields "tenant"
  department := text? fields "department"
  clearance := integer? fields "clearance"
  level := integer? fields "level"

def RoleAssignmentDto : Dto where
  properties := [
    required "roleName" [.isString, .maxLength 64],
    optionalProperty "scopeTenant" [.isString, .maxLength 64],
    optionalProperty "scopeDepartment" [.isString, .maxLength 64]]
  nested := []

def RoleAssignmentDto.input (fields : Fields) : RoleAssignmentInput where
  roleName := text fields "roleName"
  scopeTenant := text? fields "scopeTenant"
  scopeDepartment := text? fields "scopeDepartment"

/-! ## The org DTOs -/

def isSlugChar (c : Char) : Bool :=
  ('a' ≤ c && c ≤ 'z') || ('0' ≤ c && c ≤ '9') || c = '.' || c = '_' || c = '-'

/-- `/^[a-z0-9._-]+$/`. -/
def SLUG (s : String) : Bool := s ≠ "" && s.toList.all isSlugChar

def CreateDepartmentDto : Dto where
  properties := [
    required "slug" [.isString,
      .matching SLUG "slug must be lowercase letters, digits, dots, hyphens", .maxLength 64],
    required "name" [.isString, .maxLength 100],
    optionalProperty "parentSlug" [.isString, .maxLength 64]]
  nested := []

def CreateDepartmentDto.input (fields : Fields) : CreateDepartmentInput where
  slug := text fields "slug"
  name := text fields "name"
  parentSlug := text? fields "parentSlug"

def CreateCompartmentDto : Dto where
  properties := [
    required "key" [.isString, .maxLength 64],
    required "name" [.isString, .maxLength 100]]
  nested := []

def CreateCompartmentDto.input (fields : Fields) : CreateCompartmentInput where
  key := text fields "key"
  name := text fields "name"

/-- The values of the enumeration `DeptRank`. -/
def rankNames : List (String × DeptRank) :=
  [("IC", .ic), ("LEAD", .lead), ("MANAGER", .manager), ("SENIOR_MANAGER", .seniorManager),
    ("DIRECTOR", .director), ("VP", .vp)]

def rankOf (name : String) : Option DeptRank :=
  (rankNames.find? fun r => r.1 = name).map Prod.snd

def MembershipDto : List Property :=
  [required "slug" [.isString, .maxLength 64],
    optionalProperty "rank" [.isEnum (rankNames.map Prod.fst)]]

def MembershipDto.input (fields : Fields) : MembershipInput where
  slug := text fields "slug"
  rank := (text? fields "rank").bind rankOf

def SetMembershipsDto : Dto where
  properties := [required "memberships" [.isArray]]
  nested := [("memberships", MembershipDto)]

/-- The memberships; an array among the elements has no slug to read. -/
def SetMembershipsDto.memberships (fields : Fields) : List (Option MembershipInput) :=
  (elements fields "memberships").map fun
    | .obj element => some (MembershipDto.input element)
    | _ => none

def SetCompartmentsDto : Dto where
  properties := [
    { name := "keys", optional := false, checks := [.isArray], elements := [.isString, .maxLength 64] }]
  nested := []

def SetCompartmentsDto.keys (fields : Fields) : List String :=
  (elements fields "keys").map fun
    | .str key => key
    | _ => ""

/-! ## What validated bodies hold -/

section

variable {v : Validators}

theorem integer?_bounds {fields : Fields} {name : String} {low high n : Int}
    (clean : ∀ c ∈ [Check.isInt, .min low, .max high],
      Missing (fields.get name) = false → c.holds v (fields.get name) = true)
    (given : integer? fields name = some n) : low ≤ n ∧ n ≤ high := by
  unfold integer? at given
  split at given
  · rename_i q found
    cases given
    rw [found] at clean
    have whole : q.den = 1 := by simpa [Check.holds] using clean .isInt (by simp) rfl
    have above : (low : Rat) ≤ q := by simpa [Check.holds] using clean (.min low) (by simp) rfl
    have below : q ≤ (high : Rat) := by simpa [Check.holds] using clean (.max high) (by simp) rfl
    rw [← Rat.coe_int_num_of_den_eq_one whole] at above below
    exact ⟨by exact_mod_cast above, by exact_mod_cast below⟩
  · cases given

/-- A grant sets a clearance from 0 to 10 and a level from 3 to 12, or none. -/
theorem GrantDto.input_bounds (body : Validated v GrantDto) :
    (∀ n ∈ (GrantDto.input body.fields).clearance, 0 ≤ n ∧ n ≤ 10) ∧
      ∀ n ∈ (GrantDto.input body.fields).level, 3 ≤ n ∧ n ≤ 12 := by
  have bounded : ∀ {name : String} {low high : Int},
      optionalProperty name [.isInt, .min low, .max high] ∈ GrantDto.properties →
      ∀ n ∈ integer? body.fields name, low ≤ n ∧ n ≤ high := by
    intro name low high declared n given
    refine integer?_bounds (v := v) ?_ given
    intro c listed there
    exact holds_of_clean body.object_clean declared listed (Or.inr there)
  exact ⟨bounded (by simp [GrantDto]), bounded (by simp [GrantDto])⟩

theorem mapM_self_eq_none {α : Type} {l : List (Option α)} :
    (l.mapM fun m => m) = none ↔ none ∈ l := by
  induction l with
  | nil => simp
  | cons m l ih =>
      cases m with
      | none => simp [List.mapM_cons]
      | some a =>
          have rest : none ∈ some a :: l ↔ none ∈ l := by simp
          rw [List.mapM_cons, rest, ← ih]
          cases l.mapM fun m => m <;> simp

/-- Of validated memberships only arrays are none. -/
theorem SetMembershipsDto.broken_iff (body : Validated v SetMembershipsDto) :
    ((SetMembershipsDto.memberships body.fields).mapM fun m => m) = none ↔
      ∃ inner, .arr inner ∈ elements body.fields "memberships" := by
  have shapes : ∀ item ∈ elements body.fields "memberships",
      (∃ fields, item = .obj fields) ∨ ∃ inner, item = .arr inner := by
    have clean := (List.append_eq_nil_iff.mp body.clean).2
    simp only [SetMembershipsDto, List.flatMap_cons, List.flatMap_nil, List.append_nil] at clean
    unfold elements
    split
    · rename_i items found
      rw [found] at clean
      exact elements_of_clean (by simpa [nestedViolations, Missing, elementViolations] using clean)
    · intro item impossible
      cases impossible
  rw [mapM_self_eq_none, SetMembershipsDto.memberships, List.mem_map]
  constructor
  · rintro ⟨item, listed, broken⟩
    rcases shapes item listed with ⟨fields, rfl⟩ | ⟨inner, rfl⟩
    · cases broken
    · exact ⟨inner, listed⟩
  · rintro ⟨inner, listed⟩
    exact ⟨_, listed, rfl⟩

/-- The slug of a new department has the shape of a slug. -/
theorem CreateDepartmentDto.input_slug (body : Validated v CreateDepartmentDto) :
    SLUG (CreateDepartmentDto.input body.fields).slug = true := by
  have declared : required "slug" [.isString,
      .matching SLUG "slug must be lowercase letters, digits, dots, hyphens", .maxLength 64] ∈
      CreateDepartmentDto.properties := by simp [CreateDepartmentDto]
  have shaped := holds_of_clean (c := .matching SLUG
    "slug must be lowercase letters, digits, dots, hyphens") body.object_clean declared
    (by simp [required]) (Or.inl rfl)
  show SLUG (text body.fields "slug") = true
  unfold text
  revert shaped
  show Check.holds v _ (body.fields.get "slug") = true → _
  cases body.fields.get "slug" with
  | none => simp [Check.holds]
  | some value => cases value <;> simp [Check.holds]

theorem isTrimmed_of_isSlugChar {c : Char} (slug : isSlugChar c = true) : isTrimmed c = false := by
  have codes : (97 ≤ c.val ∧ c.val ≤ 122) ∨ (48 ≤ c.val ∧ c.val ≤ 57) ∨ c.val = 46 ∨ c.val = 95 ∨
      c.val = 45 := by
    simp only [isSlugChar, Bool.or_eq_true, Bool.and_eq_true, decide_eq_true_eq] at slug
    rcases slug with (((⟨low, high⟩ | ⟨low, high⟩) | rfl) | rfl) | rfl
    · exact Or.inl ⟨low, high⟩
    · exact Or.inr (Or.inl ⟨low, high⟩)
    · exact Or.inr (Or.inr (Or.inl rfl))
    · exact Or.inr (Or.inr (Or.inr (Or.inl rfl)))
    · exact Or.inr (Or.inr (Or.inr (Or.inr rfl)))
  simp only [isTrimmed, List.mem_cons, List.not_mem_nil, or_false, Bool.or_eq_false_iff,
    decide_eq_false_iff_not, Bool.and_eq_false_iff, not_or]
  simp only [UInt32.le_iff_toNat_le, ← UInt32.toNat_inj] at codes ⊢
  simp only [UInt32.reduceToNat] at codes ⊢
  omega

/-- Trimming leaves a slug as it is. -/
theorem trim_of_slug {s : String} (slug : SLUG s = true) : trim s = s := by
  simp only [SLUG, Bool.and_eq_true, List.all_eq_true] at slug
  have untrimmed : ∀ c ∈ s.toList, isTrimmed c = false :=
    fun c member => isTrimmed_of_isSlugChar (slug.2 c member)
  have chars : (trim s).toList = s.toList := by
    rw [toList_trim, trimChars_of_unpadded]
    exact ⟨fun c first => untrimmed c (List.mem_of_mem_head? first),
      fun c last => untrimmed c (List.mem_of_mem_getLast? last)⟩
  exact String.toList_inj.mp chars

end

end Arac.Http
