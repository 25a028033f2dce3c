/-!
# Lists without repeats, in the order first seen

Members of an equality set, candidate constraints and the parameters found in a type are all kept
in one way: in the order in which they first turned up, and a later equal one changes nothing, so
the spelling that was seen first survives.
-/

namespace WhereClause.Distinct

variable {α : Type} [BEq α]

/-- Adds an item at the end, unless an equal one is there. -/
def add (xs : List α) (x : α) : List α :=
  if xs.contains x then xs else xs ++ [x]

/-- The items of a list with repeats dropped after their first appearance. -/
def ofList (xs : List α) : List α :=
  xs.foldl add []

theorem add_of_contains {xs : List α} {x : α} (h : xs.contains x = true) : add xs x = xs := by
  simp only [add, h, if_true]

theorem add_of_not_contains {xs : List α} {x : α} (h : xs.contains x = false) :
    add xs x = xs ++ [x] := by
  simp only [add, h, Bool.false_eq_true, if_false]

/-- A list is a prefix of what it becomes by an addition: nothing is lost, moved or respelled. -/
theorem exists_add_eq_append (xs : List α) (x : α) : ∃ ys, add xs x = xs ++ ys := by
  unfold add
  split
  · exact ⟨[], by simp⟩
  · exact ⟨[x], rfl⟩

end WhereClause.Distinct
