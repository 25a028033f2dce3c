/-!
# Sets of code points

A property of characters is given as the increasing list of the code points at which it changes:
it begins to hold at the first, ceases at the second, and so on.
-/

namespace WhereClause.Text

/-- Whether a code point lies in the set whose changes are listed, where `inside` says whether the
points before the first change are in it. -/
def changesContain (inside : Bool) : List Nat → Nat → Bool
  | [], _ => inside
  | change :: rest, c => if c < change then inside else changesContain (!inside) rest c

/-- A set of code points, by the increasing list of its changes. -/
structure CodePoints where
  changes : List Nat

def CodePoints.contains (s : CodePoints) (c : Char) : Bool :=
  changesContain false s.changes c.toNat

end WhereClause.Text
