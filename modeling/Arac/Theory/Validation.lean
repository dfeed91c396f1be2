/-
# Arac.Theory.Validation -- JSON bodies checked against declared properties

A `Dto` declares the properties of an object, each with the checks its value has to
pass; a property may be optional, its checks may be about the elements of an array, and
the elements may be objects with declared properties of their own.  `violations` lists
what is wrong with an object: a failed check, an element that is no object, a property
that is not declared.

* `holds_of_clean`, `known_of_clean`: what an object without violations is like.
* `objectViolations_names`: a violation names a declared property or a property of the object.
-/
import Mathlib.Data.Rat.Defs
import Mathlib.Data.List.Basic

namespace Arac.Theory

set_option autoImplicit false

/-- A parsed document, over a type of numbers.  The fields of an object have different names. -/
inductive JsonOf (N : Type) where
  | null
  | bool (b : Bool)
  | num (n : N)
  | str (s : String)
  | arr (items : List (JsonOf N))
  | obj (fields : List (String × JsonOf N))

/-- The field of a name; `none` is `undefined`. -/
def fieldOf {N : Type} (fields : List (String × JsonOf N)) (name : String) : Option (JsonOf N) :=
  (fields.find? fun f => f.1 = name).map Prod.snd

/-- A document whose numbers are compared. -/
abbrev Json := JsonOf Rat

abbrev Fields := List (String × Json)

/-- The value of a property. -/
def Fields.get (fields : Fields) (name : String) : Option Json := fieldOf fields name

/-- What the checks ask of a text. -/
structure Validators where
  isEmail : String → Bool
  /-- The length that the bounds are about. -/
  length : String → Nat

/-- A check of a value, with the message the declaration gives it. -/
inductive Check where
  | isString
  | isInt
  | isArray
  | min (n : Int)
  | max (n : Int)
  | minLength (n : Nat) (message : Option String)
  | maxLength (n : Nat)
  | isEmail (message : String)
  | matching (pattern : String → Bool) (message : String)
  | isEnum (values : List String)

def Check.holds (v : Validators) : Check → Option Json → Bool
  | .isString, some (.str _) => true
  | .isInt, some (.num q) => q.den = 1
  | .isArray, some (.arr _) => true
  | .min n, some (.num q) => decide ((n : Rat) ≤ q)
  | .max n, some (.num q) => decide (q ≤ (n : Rat))
  | .minLength n _, some (.str s) => decide (n ≤ v.length s)
  | .maxLength n, some (.str s) => decide (v.length s ≤ n)
  | .isEmail _, some (.str s) => v.isEmail s
  | .matching pattern _, some (.str s) => pattern s
  | .isEnum values, some (.str s) => decide (s ∈ values)
  | _, _ => false

/-- The check of every element; a value that is no array is checked itself. -/
def Check.holdsEach (v : Validators) (c : Check) : Option Json → Bool
  | some (.arr items) => items.all fun item => c.holds v (some item)
  | value => c.holds v value

structure Property where
  name : String
  /-- An absent or null value is not checked. -/
  optional : Bool
  checks : List Check
  /-- Checks of the elements. -/
  elements : List Check

structure Dto where
  properties : List Property
  /-- The properties whose elements are objects, and the properties of these. -/
  nested : List (String × List Property)

inductive Reason where
  | check (c : Check)
  | element (c : Check)
  | notDeclared
  | notAnObject

structure Violation where
  path : List String
  reason : Reason

/-- The value is absent or null. -/
def Missing : Option Json → Bool
  | none => true
  | some .null => true
  | _ => false

section

variable (v : Validators)

def Property.violations (path : List String) (p : Property) (value : Option Json) : List Violation :=
  if p.optional && Missing value then []
  else ((p.checks.filter fun c => !c.holds v value).map fun c => ⟨path ++ [p.name], .check c⟩) ++
    (p.elements.filter fun c => !c.holdsEach v value).map fun c => ⟨path ++ [p.name], .element c⟩

/-- The properties of an object that are not declared, and what is wrong with those that are. -/
def objectViolations (path : List String) (properties : List Property) (fields : Fields) :
    List Violation :=
  ((fields.filter fun f => f.1 ∉ properties.map Property.name).map fun f =>
      ⟨path ++ [f.1], .notDeclared⟩) ++
    properties.flatMap fun p => p.violations v path (fields.get p.name)

mutual

/-- What is wrong with an element: an array among the elements has elements of its own,
and what is neither an array nor an object is refused, null included. -/
def elementViolations (path : List String) (properties : List Property) : Json → List Violation
  | .obj fields => objectViolations v path properties fields
  | .arr items => elementsViolations path properties 0 items
  | _ => [⟨path, .notAnObject⟩]

/-- What is wrong with the elements of an array, from an index on. -/
def elementsViolations (path : List String) (properties : List Property) (index : Nat) :
    List Json → List Violation
  | [] => []
  | item :: items => elementViolations (path ++ [toString index]) properties item ++
      elementsViolations path properties (index + 1) items

end

/-- An absent or null value has no elements. -/
def nestedViolations (name : String) (properties : List Property) (value : Option Json) :
    List Violation :=
  if Missing value then [] else (value.map (elementViolations v [name] properties)).getD []

def Dto.violations (dto : Dto) (fields : Fields) : List Violation :=
  objectViolations v [] dto.properties fields ++
    dto.nested.flatMap fun n => nestedViolations v n.1 n.2 (fields.get n.1)

/-- The fields of an object in which nothing is wrong. -/
structure Validated (dto : Dto) where
  fields : Fields
  clean : dto.violations v fields = []

/-- The validation of a body.  No object is null; an array has its indices as properties. -/
def Dto.validate (dto : Dto) (body : Json) : Except (List Violation) (Validated v dto) :=
  let fields : Fields := match body with
    | .obj fields => fields
    | .arr items => items.zipIdx.map fun item => (toString item.2, item.1)
    | _ => []
  if clean : dto.violations v fields = [] then .ok ⟨fields, clean⟩
  else .error (dto.violations v fields)

end

/-! ## What clean means -/

section

variable {v : Validators} {dto : Dto} {fields : Fields} {properties : List Property}
  {path : List String} {p : Property} {c : Check}

theorem checks_of_clean (clean : objectViolations v path properties fields = [])
    (declared : p ∈ properties) : p.violations v path (fields.get p.name) = [] :=
  List.flatMap_eq_nil_iff.mp (List.append_eq_nil_iff.mp clean).2 p declared

/-- A check of a value that is there, or has to be there, is passed. -/
theorem holds_of_clean (clean : objectViolations v path properties fields = [])
    (declared : p ∈ properties) (checked : c ∈ p.checks)
    (present : p.optional = false ∨ Missing (fields.get p.name) = false) :
    c.holds v (fields.get p.name) = true := by
  have none_wrong := checks_of_clean clean declared
  have considered : (p.optional && Missing (fields.get p.name)) = false := by
    rcases present with required | there
    · rw [required, Bool.false_and]
    · rw [there, Bool.and_false]
  rw [Property.violations, considered, if_neg (by simp)] at none_wrong
  have passed := List.filter_eq_nil_iff.mp (List.map_eq_nil_iff.mp (List.append_eq_nil_iff.mp none_wrong).1)
    c checked
  simpa using passed

/-- No property is there that is not declared. -/
theorem known_of_clean (clean : objectViolations v path properties fields = []) :
    ∀ f ∈ fields, f.1 ∈ properties.map Property.name := by
  intro f given
  have none_unknown := List.map_eq_nil_iff.mp (List.append_eq_nil_iff.mp clean).1
  have known := List.filter_eq_nil_iff.mp none_unknown f given
  simpa using known

theorem Validated.object_clean (body : Validated v dto) :
    objectViolations v [] dto.properties body.fields = [] :=
  (List.append_eq_nil_iff.mp body.clean).1

/-- An element in which nothing is wrong is an object or an array. -/
theorem elements_of_clean {index : Nat} {items : List Json}
    (clean : elementsViolations v path properties index items = []) :
    ∀ item ∈ items, (∃ fields, item = .obj fields) ∨ ∃ inner, item = .arr inner := by
  induction items generalizing index with
  | nil =>
      intro item impossible
      cases impossible
  | cons first items ih =>
      rw [elementsViolations] at clean
      obtain ⟨here, later⟩ := List.append_eq_nil_iff.mp clean
      refine List.forall_mem_cons.mpr ⟨?_, ih later⟩
      cases first with
      | obj fields => exact Or.inl ⟨fields, rfl⟩
      | arr inner => exact Or.inr ⟨inner, rfl⟩
      | _ =>
          rw [elementViolations] at here
          · cases here
          all_goals
            rintro _ ⟨⟩

/-- A violation at the top names a declared property or a property of the object. -/
theorem objectViolations_names {w : Violation} (wrong : w ∈ objectViolations v path properties fields) :
    ∃ name, w.path = path ++ [name] ∧
      (name ∈ properties.map Property.name ∨ name ∈ fields.map Prod.fst) := by
  rcases List.mem_append.mp wrong with unknown | failed
  · obtain ⟨f, given, rfl⟩ := List.mem_map.mp unknown
    exact ⟨f.1, rfl, Or.inr (List.mem_map_of_mem (List.mem_of_mem_filter given))⟩
  · obtain ⟨p, declared, failed⟩ := List.mem_flatMap.mp failed
    have named : p.name ∈ properties.map Property.name := List.mem_map_of_mem declared
    unfold Property.violations at failed
    split at failed
    · cases failed
    · rcases List.mem_append.mp failed with own | element
      · obtain ⟨c, -, rfl⟩ := List.mem_map.mp own
        exact ⟨p.name, rfl, Or.inl named⟩
      · obtain ⟨c, -, rfl⟩ := List.mem_map.mp element
        exact ⟨p.name, rfl, Or.inl named⟩

/-- An object with a property that is not declared is refused, and where nothing is nested every
violation names a property. -/
theorem Dto.validate_undeclared (flat : dto.nested = []) {name : String} {value : Json}
    (given : (name, value) ∈ fields) (undeclared : name ∉ dto.properties.map Property.name) :
    ∃ wrong, dto.validate v (.obj fields) = .error wrong ∧ ∀ w ∈ wrong, ∃ key, w.path = [key] ∧
      (key ∈ dto.properties.map Property.name ∨ key ∈ fields.map Prod.fst) := by
  have top : dto.violations v fields = objectViolations v [] dto.properties fields := by
    rw [Dto.violations, flat, List.flatMap_nil, List.append_nil]
  have wrong : dto.violations v fields ≠ [] := by
    rw [top]
    intro clean
    exact undeclared (known_of_clean clean _ given)
  refine ⟨_, dif_neg wrong, fun w member => ?_⟩
  rw [top] at member
  exact objectViolations_names member

end

end Arac.Theory
