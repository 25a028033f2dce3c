import WhereClause.Ty.Same
import WhereClause.Ty.Render
import WhereClause.Distinct

/-!
# Sets of constraints

Constraints without repeats, in the order in which they were first seen. That order is what makes
the answer of an inference deterministic. Two sets are equal when they hold the same constraints,
whatever their order.
-/

namespace WhereClause

/-- Distinct constraints in the order first seen. -/
structure ConstraintSet where
  toList : List Constraint
  /-- No constraint is equal to an earlier one. -/
  distinct : toList.Pairwise fun earlier later => (later == earlier) = false

namespace ConstraintSet

def empty : ConstraintSet := ⟨[], .nil⟩

instance : EmptyCollection ConstraintSet := ⟨empty⟩

instance : Inhabited ConstraintSet := ⟨empty⟩

def size (s : ConstraintSet) : Nat := s.toList.length

def contains (s : ConstraintSet) (c : Constraint) : Bool := s.toList.contains c

theorem pairwise_add {s : ConstraintSet} {c : Constraint} :
    (Distinct.add s.toList c).Pairwise fun earlier later => (later == earlier) = false := by
  cases h : s.toList.contains c with
  | true => rw [Distinct.add_of_contains h]; exact s.distinct
  | false =>
    rw [Distinct.add_of_not_contains h]
    refine List.pairwise_append.2 ⟨s.distinct, List.pairwise_singleton _ _, ?_⟩
    intro earlier he later hl
    rw [List.mem_singleton] at hl
    subst hl
    cases hq : (later == earlier) with
    | false => rfl
    | true =>
      have : s.toList.contains later = true :=
        List.contains_iff_exists_mem_beq.2 ⟨earlier, he, hq⟩
      rw [h] at this
      exact absurd this (by decide)

/-- Adds a constraint at the end, unless an equal one is there. -/
def insert (s : ConstraintSet) (c : Constraint) : ConstraintSet :=
  ⟨Distinct.add s.toList c, pairwise_add⟩

/-- Adds constraints one after the other. -/
def insertAll (s : ConstraintSet) (cs : List Constraint) : ConstraintSet :=
  cs.foldl insert s

def ofList (cs : List Constraint) : ConstraintSet := empty.insertAll cs

/-- Whether two sets hold the same constraints, in whatever order. -/
def same (s t : ConstraintSet) : Bool :=
  s.size == t.size && s.toList.all t.contains

instance : BEq ConstraintSet := ⟨same⟩

/-- The constraints in the order of their text; equal texts keep the order of the set. -/
def sorted (s : ConstraintSet) : List Constraint :=
  s.toList.mergeSort fun a b => decide (a.render ≤ b.render)

def render (s : ConstraintSet) : String := Text.braced (s.toList.map Constraint.render)

@[simp] theorem toList_insert (s : ConstraintSet) (c : Constraint) :
    (s.insert c).toList = Distinct.add s.toList c := rfl

end ConstraintSet

end WhereClause
