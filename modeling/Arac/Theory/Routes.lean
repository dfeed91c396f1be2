/-
# Arac.Theory.Routes -- path patterns and route tables

A pattern is a list of segments, each a fixed text or a parameter; a path with its shape
yields the values of the parameters, and `fill` puts values back.  A path that was filled in
is matched with the same values (`matchPath_of_fill`), so a request that one table has
matched and forwarded is matched by the next.

A table is searched from the front.  Where no two of its routes overlap (`apart`) the
order does not matter: `dispatch_eq_some` says that a path goes to the one route it fits.
-/
import Mathlib.Data.List.Pairwise

namespace Arac.Theory

set_option autoImplicit false

inductive Segment where
  | fixed (text : String)
  | param
  deriving DecidableEq

abbrev Pattern := List Segment

namespace Pattern

/-- The values of the parameters in a path of this shape; no value is empty. -/
def matchPath : Pattern → List String → Option (List String)
  | [], [] => some []
  | .fixed text :: pattern, s :: path => if s = text then matchPath pattern path else none
  | .param :: pattern, s :: path =>
      if s = "" then none else (matchPath pattern path).map (s :: ·)
  | [], _ :: _ => none
  | _ :: _, [] => none

/-- The path with these values for the parameters. -/
def fill : Pattern → List String → Option (List String)
  | [], [] => some []
  | .fixed text :: pattern, values => (fill pattern values).map (text :: ·)
  | .param :: pattern, s :: values => (fill pattern values).map (s :: ·)
  | [], _ :: _ => none
  | .param :: _, [] => none

/-- Somewhere the two ask for different texts, or their lengths differ. -/
def apart : Pattern → Pattern → Bool
  | [], [] => false
  | .fixed text :: pattern, .fixed text' :: pattern' => text ≠ text' || apart pattern pattern'
  | .fixed _ :: pattern, .param :: pattern' => apart pattern pattern'
  | .param :: pattern, .fixed _ :: pattern' => apart pattern pattern'
  | .param :: pattern, .param :: pattern' => apart pattern pattern'
  | [], _ :: _ => true
  | _ :: _, [] => true

/-- The rest of a matched path is matched, and a fixed text is the segment it stands for. -/
theorem matchPath_cons {segment : Segment} {pattern : Pattern} {s : String}
    {path values : List String} (matched : matchPath (segment :: pattern) (s :: path) = some values) :
    ∃ rest, matchPath pattern path = some rest ∧ ∀ text, segment = .fixed text → s = text := by
  cases segment with
  | fixed text =>
      rw [matchPath] at matched
      split at matched
      · rename_i same
        refine ⟨values, matched, ?_⟩
        rintro _ ⟨⟩
        exact same
      · cases matched
  | param =>
      rw [matchPath] at matched
      split at matched
      · cases matched
      · obtain ⟨rest, found, -⟩ := Option.map_eq_some_iff.mp matched
        refine ⟨rest, found, ?_⟩
        rintro _ ⟨⟩

theorem matchPath_of_fill {pattern : Pattern} {path values : List String}
    (filled : fill pattern values = some path) (given : ∀ value ∈ values, value ≠ "") :
    matchPath pattern path = some values := by
  induction pattern generalizing path values with
  | nil =>
      cases values with
      | nil =>
          cases filled
          rfl
      | cons s values => cases filled
  | cons segment pattern ih =>
      cases segment with
      | fixed text =>
          obtain ⟨rest, found, rfl⟩ := Option.map_eq_some_iff.mp filled
          rw [matchPath, if_pos rfl, ih found given]
      | param =>
          cases values with
          | nil => cases filled
          | cons s values =>
              obtain ⟨rest, found, rfl⟩ := Option.map_eq_some_iff.mp filled
              obtain ⟨here, later⟩ := List.forall_mem_cons.mp given
              rw [matchPath, if_neg here, ih found later, Option.map_some]

/-- The values that a path yields fill the pattern to that path. -/
theorem fill_of_matchPath {pattern : Pattern} {path values : List String}
    (matched : matchPath pattern path = some values) : fill pattern values = some path := by
  induction pattern generalizing path values with
  | nil =>
      cases path with
      | nil =>
          cases matched
          rfl
      | cons s path => cases matched
  | cons segment pattern ih =>
      cases path with
      | nil => cases segment <;> cases matched
      | cons s path =>
          cases segment with
          | fixed text =>
              rw [matchPath] at matched
              split at matched
              · rename_i same
                rw [fill, ih matched, Option.map_some, same]
              · cases matched
          | param =>
              rw [matchPath] at matched
              split at matched
              · cases matched
              · obtain ⟨rest, found, rfl⟩ := Option.map_eq_some_iff.mp matched
                rw [fill, ih found, Option.map_some]

/-- The first value of a pattern with a parameter is a segment of the path. -/
theorem head_mem_of_matchPath {pattern : Pattern} {path values : List String}
    (matched : matchPath pattern path = some values) (takes : Segment.param ∈ pattern) :
    values.headD "" ∈ path := by
  induction pattern generalizing path values with
  | nil => cases takes
  | cons segment pattern ih =>
      cases path with
      | nil => cases segment <;> cases matched
      | cons s path =>
          cases segment with
          | fixed text =>
              rw [matchPath] at matched
              split at matched
              · have later : Segment.param ∈ pattern := by simpa using takes
                exact List.mem_cons_of_mem _ (ih matched later)
              · cases matched
          | param =>
              rw [matchPath] at matched
              split at matched
              · cases matched
              · obtain ⟨rest, -, rfl⟩ := Option.map_eq_some_iff.mp matched
                exact List.mem_cons_self

/-- The values that a path yields are not empty. -/
theorem ne_empty_of_matchPath {pattern : Pattern} {path values : List String}
    (matched : matchPath pattern path = some values) : ∀ value ∈ values, value ≠ "" := by
  induction pattern generalizing path values with
  | nil =>
      cases path with
      | nil =>
          cases matched
          simp
      | cons s path => cases matched
  | cons segment pattern ih =>
      cases path with
      | nil => cases segment <;> cases matched
      | cons s path =>
          cases segment with
          | fixed text =>
              rw [matchPath] at matched
              split at matched
              · exact ih matched
              · cases matched
          | param =>
              rw [matchPath] at matched
              split at matched
              · cases matched
              · rename_i nonempty
                obtain ⟨rest, found, rfl⟩ := Option.map_eq_some_iff.mp matched
                exact List.forall_mem_cons.mpr ⟨nonempty, ih found⟩

/-- Patterns that are apart match no path in common. -/
theorem not_both_of_apart {pattern pattern' : Pattern} (separate : apart pattern pattern' = true)
    {path values values' : List String} (matched : matchPath pattern path = some values) :
    matchPath pattern' path ≠ some values' := by
  intro matched'
  induction pattern generalizing pattern' path values values' with
  | nil =>
      cases pattern' with
      | nil => cases separate
      | cons segment pattern' =>
          cases path with
          | nil => cases segment <;> cases matched'
          | cons s path => cases matched
  | cons segment pattern ih =>
      cases path with
      | nil => cases segment <;> cases matched
      | cons s path =>
          cases pattern' with
          | nil => cases matched'
          | cons segment' pattern' =>
              obtain ⟨rest, found, agree⟩ := matchPath_cons matched
              obtain ⟨rest', found', agree'⟩ := matchPath_cons matched'
              cases segment with
              | fixed text =>
                  cases segment' with
                  | fixed text' =>
                      have same : text = text' := (agree text rfl).symm.trans (agree' text' rfl)
                      simp only [apart, same, ne_eq, not_true_eq_false, decide_false,
                        Bool.false_or] at separate
                      exact ih separate found found'
                  | param => exact ih separate found found'
              | param => cases segment' <;> exact ih separate found found'

end Pattern

/-! ## Tables -/

/-- A route: the requests of one method whose path fits a pattern. -/
structure Route (M A : Type) where
  method : M
  pattern : Pattern
  action : A

section

variable {M A : Type} [DecidableEq M]

/-- The action of the first route that fits, and the values of its parameters. -/
def dispatch (table : List (Route M A)) (method : M) (path : List String) : Option (A × List String) :=
  table.findSome? fun route =>
    if route.method = method then
      (route.pattern.matchPath path).map fun values => (route.action, values)
    else none

/-- No two routes of the table overlap. -/
def Unambiguous (table : List (Route M A)) : Prop :=
  table.Pairwise fun r r' => r.method ≠ r'.method ∨ r.pattern.apart r'.pattern = true

instance (table : List (Route M A)) : Decidable (Unambiguous table) :=
  inferInstanceAs (Decidable (List.Pairwise _ _))

/-- In an unambiguous table a request goes to the one route that it fits. -/
theorem dispatch_eq_some {table : List (Route M A)} (unambiguous : Unambiguous table) {method : M}
    {path values : List String} {action : A} :
    dispatch table method path = some (action, values) ↔
      ∃ r ∈ table, r.method = method ∧ r.pattern.matchPath path = some values ∧ r.action = action := by
  have fits : ∀ r : Route M A, (if r.method = method then
      (r.pattern.matchPath path).map fun values => (r.action, values) else none) =
        some (action, values) ↔
      r.method = method ∧ r.pattern.matchPath path = some values ∧ r.action = action := by
    intro r
    split
    · rename_i same
      simp only [Option.map_eq_some_iff, Prod.mk.injEq]
      constructor
      · rintro ⟨_, matched, acts, rfl⟩
        exact ⟨same, matched, acts⟩
      · rintro ⟨-, matched, acts⟩
        exact ⟨values, matched, acts, rfl⟩
    · rename_i other
      simp [other]
  constructor
  · intro found
    obtain ⟨r, listed, here⟩ := List.exists_of_findSome?_eq_some found
    exact ⟨r, listed, (fits r).mp here⟩
  · rintro ⟨r, listed, method_eq, matched, acts⟩
    have here := (fits r).mpr ⟨method_eq, matched, acts⟩
    obtain ⟨before, after, rfl⟩ := List.append_of_mem listed
    have earlier : (before.findSome? fun route => if route.method = method then
        (route.pattern.matchPath path).map fun values => (route.action, values) else none) = none := by
      refine List.findSome?_eq_none_iff.mpr fun other among => ?_
      split
      · rename_i same
        have separate := (List.pairwise_append.mp unambiguous).2.2 other among r List.mem_cons_self
        rcases separate with differ | separate
        · exact absurd (same.trans method_eq.symm) differ
        · rw [Option.map_eq_none_iff]
          cases other_matched : other.pattern.matchPath path with
          | none => rfl
          | some values' =>
              exact absurd matched (Pattern.not_both_of_apart separate other_matched)
      · rfl
    rw [dispatch, List.findSome?_append, earlier, Option.none_or, List.findSome?_cons, here]

end

end Arac.Theory
