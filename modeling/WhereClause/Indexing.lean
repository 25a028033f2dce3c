/-!
# Positions counted from either end

Sets, parameters and tuple elements are known by their position. A negative position counts from
the end, so `-1` is the last.
-/

namespace WhereClause

/-- The item at a position, counted from the end if negative. -/
def itemAt? {α : Type} (xs : List α) : Int → Option α
  | .ofNat n => xs[n]?
  | .negSucc n => if n < xs.length then xs[xs.length - 1 - n]? else none

/-- What stands at a position of a list to which one item was added. -/
theorem getElem?_concat_eq_some_iff {α : Type} {xs : List α} {x y : α} {n : Nat} :
    (xs ++ [x])[n]? = some y ↔ xs[n]? = some y ∨ n = xs.length ∧ x = y := by
  rcases Nat.lt_trichotomy n xs.length with hn | rfl | hn
  · rw [List.getElem?_append_left hn]
    exact ⟨.inl, fun h => h.resolve_right fun hlast => absurd hlast.1 (Nat.ne_of_lt hn)⟩
  · rw [List.getElem?_concat_length, List.getElem?_eq_none (Nat.le_refl _)]
    simp
  · have hbeyond : (xs ++ [x]).length ≤ n := by
      rwa [List.length_append, List.length_singleton]
    rw [List.getElem?_eq_none hbeyond, List.getElem?_eq_none (Nat.le_of_lt hn)]
    simp [Nat.ne_of_gt hn]

end WhereClause
