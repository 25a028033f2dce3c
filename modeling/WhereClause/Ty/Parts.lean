import WhereClause.Indexing
import WhereClause.Failure.Cause

/-!
# Taking types apart and wrapping them

References, dereferences, tuple elements and the types of fields. Fields are seen through any
reference: the field of a borrowed structure is a borrowed field.
-/

namespace WhereClause.Ty

/-- The empty tuple. -/
def unit : Ty := .tuple []

def reference (t : Ty) : Ty := .ref .shared t none

def referenceMut (t : Ty) : Ty := .ref .mutable t none

/-- What a type points to. Of a type that is no reference this is not known, and it is kept as a
dereference. -/
def dereference : Ty → Ty
  | .ref _ t _ => t
  | t => .deref t

/-- The element of a tuple at a position, which may be counted from the end. There is none where the
position lies outside, and only a tuple has elements. -/
def element (t : Ty) (position : Int) : Except Cause (Option Ty) :=
  match t with
  | .tuple ts => .ok (itemAt? ts position)
  | _ => .error (.notTuple t)

/-- The types of the fields of a data structure. The complaint about any other type is about what
the references lead to. -/
def fields : Ty → Except Cause (List Ty)
  | .data _ _ fs => .ok (fs.map Field.ty)
  | .ref access t lifetime => (fields t).map (List.map fun f => .ref access f lifetime)
  | t => .error (.noFields t)

end WhereClause.Ty
