import WhereClause.Ty.Basic

/-!
# The age of parameters

Parameters are numbered in the order in which they are introduced, so of two the one with the lower
number is the older. Type parameters and lifetimes are numbered alike and compare with one another.
-/

namespace WhereClause

/-- The older of two type parameters; of two equal ones, the first. -/
def Param.older (p q : Param) : Param := if q.number < p.number then q else p

namespace GenericParam

/-- Whether a parameter was introduced before another. -/
def isOlder (a b : GenericParam) : Bool := decide (a.number < b.number)

/-- The oldest of a list, the first such if they are several. -/
def oldest? : List GenericParam → Option GenericParam
  | [] => none
  | p :: ps => some (ps.foldl (fun a b => if b.isOlder a then b else a) p)

/-- From old to young; parameters of one number stay in order. -/
def byAge (ps : List GenericParam) : List GenericParam :=
  ps.mergeSort fun a b => !b.isOlder a

end GenericParam

end WhereClause
