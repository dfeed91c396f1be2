/-
# Arac.Theory.Acyclic -- acyclic links and how deep a walk along them can go

`Acyclic r` says no node reaches itself along one or more links.  On a finite set
of nodes such a relation has a rank: the number of nodes from which a node is
reached.  `rank_lt` makes the rank the measure of a recursion that follows the
links, and `rank_le_card` bounds it by the number of nodes, so a recursion given
one unit of fuel more than there are nodes never runs out.  For a walk from one node
it is enough that this node does not reach a cycle.

The relation is arbitrary.  Read as "is a parent of" the recursion climbs; read as
"is a child of" it descends.
-/
import Mathlib.Logic.Relation
import Mathlib.Data.Finset.Card
import Mathlib.Data.Finset.Filter

namespace Arac.Theory

set_option autoImplicit false

/-- No node reaches itself. -/
def Acyclic {α : Type} (r : α → α → Prop) : Prop := ∀ a, ¬ Relation.TransGen r a a

namespace Acyclic

variable {α : Type} {r : α → α → Prop}

theorem of_subrelation {r' : α → α → Prop} (acyclic : Acyclic r) (sub : ∀ a b, r' a b → r a b) :
    Acyclic r' :=
  fun a cycle => acyclic a (Relation.TransGen.mono (fun a b => sub a b) a a cycle)

/-- Links that all lower a number close no cycle. -/
theorem of_lt (height : α → Nat) (lowers : ∀ a b, r a b → height b < height a) : Acyclic r := by
  have below : ∀ a b, Relation.TransGen r a b → height b < height a := by
    intro a b path
    induction path with
    | single link => exact lowers _ _ link
    | tail _ link ih => exact Nat.lt_trans (lowers _ _ link) ih
  exact fun a cycle => Nat.lt_irrefl _ (below a a cycle)

/-- Reversing every link creates no cycle. -/
theorem swap (acyclic : Acyclic r) : Acyclic (Function.swap r) := fun a cycle =>
  acyclic a (Relation.transGen_swap.mp cycle)

/-- A fresh node that has no link out of it closes no cycle. -/
theorem insert_sink {r' : α → α → Prop} (fresh : α) (acyclic : Acyclic r)
    (sink : ∀ b, ¬ r' fresh b) (old : ∀ a b, r' a b → b ≠ fresh → r a b) : Acyclic r' := by
  have avoids : ∀ a b, Relation.TransGen r' a b → b ≠ fresh → Relation.TransGen r a b := by
    intro a b path
    induction path with
    | single link => exact fun ne => .single (old _ _ link ne)
    | tail path link ih =>
        intro ne
        rename_i b c
        have through : b ≠ fresh := by
          rintro rfl
          exact sink _ link
        exact (ih through).tail (old _ _ link ne)
  intro a cycle
  by_cases same : a = fresh
  · subst same
    obtain ⟨b, link, -⟩ := Relation.TransGen.head'_iff.mp cycle
    exact sink b link
  · exact acyclic a (avoids a a cycle same)

end Acyclic

/-! ## Nodes above a cycle -/

/-- A walk from the node can run into a cycle. -/
def ReachesCycle {α : Type} (r : α → α → Prop) (a : α) : Prop :=
  ∃ b, Relation.ReflTransGen r a b ∧ Relation.TransGen r b b

namespace ReachesCycle

variable {α : Type} {r : α → α → Prop} {a b : α}

theorem of_cycle (cycle : Relation.TransGen r a a) : ReachesCycle r a := ⟨a, .refl, cycle⟩

theorem of_link (link : r a b) (above : ReachesCycle r b) : ReachesCycle r a := by
  obtain ⟨c, path, cycle⟩ := above
  exact ⟨c, path.head link, cycle⟩

/-- A node above a cycle has a link into one. -/
theorem link (above : ReachesCycle r a) : ∃ b, r a b ∧ ReachesCycle r b := by
  obtain ⟨c, path, cycle⟩ := above
  rcases Relation.ReflTransGen.cases_head path with rfl | ⟨b, link, rest⟩
  · obtain ⟨b, link, rest⟩ := Relation.TransGen.head'_iff.mp cycle
    exact ⟨b, link, a, rest, cycle⟩
  · exact ⟨b, link, c, rest, cycle⟩

end ReachesCycle

namespace Acyclic

variable {α : Type} {r : α → α → Prop}

theorem clear (acyclic : Acyclic r) (a : α) : ¬ ReachesCycle r a := by
  rintro ⟨b, -, cycle⟩
  exact acyclic b cycle

open Classical in
/-- How many of the nodes reach `a`. -/
noncomputable def rank (r : α → α → Prop) (nodes : Finset α) (a : α) : Nat :=
  (nodes.filter fun b => Relation.TransGen r b a).card

theorem rank_le_card (r : α → α → Prop) (nodes : Finset α) (a : α) :
    rank r nodes a ≤ nodes.card := by
  classical
  exact Finset.card_filter_le _ _

/-- Following a link out of a listed node that is on no cycle raises the rank. -/
theorem rank_lt {nodes : Finset α} {a b : α} (noCycle : ¬ Relation.TransGen r a a)
    (listed : a ∈ nodes) (link : r a b) : rank r nodes a < rank r nodes b := by
  classical
  apply Finset.card_lt_card
  rw [Finset.ssubset_iff_of_subset]
  · refine ⟨a, ?_, ?_⟩
    · exact Finset.mem_filter.mpr ⟨listed, .single link⟩
    · intro reaches
      exact noCycle (Finset.mem_filter.mp reaches).2
  · intro c member
    obtain ⟨inside, reaches⟩ := Finset.mem_filter.mp member
    exact Finset.mem_filter.mpr ⟨inside, reaches.tail link⟩

end Acyclic

end Arac.Theory
