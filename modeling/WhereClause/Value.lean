import WhereClause.Ty.Same
import WhereClause.Ty.Render

/-!
# Values

Any term on its own: what a complaint names as its operands, and what can be rendered, compared
and given fresh parameters without knowing its sort.
-/

namespace WhereClause

/-- A term of any sort. -/
inductive Value where
  | type (ty : Ty)
  | lifetime (lifetime : Lifetime)
  | bound (bound : Bound)
  | constraint (constraint : Constraint)
  | path (path : Path)
  | segment (segment : Segment)
  | args (args : Args)

namespace Value

/-- Values of different sorts differ, so a path is not the type that is named by it. -/
def same : Value → Value → Bool
  | .type a, .type b => a == b
  | .lifetime a, .lifetime b => a == b
  | .bound a, .bound b => a == b
  | .constraint a, .constraint b => a == b
  | .path a, .path b => a == b
  | .segment a, .segment b => a == b
  | .args a, .args b => a == b
  | _, _ => false

instance : BEq Value := ⟨Value.same⟩

def render : Value → String
  | .type a => a.render
  | .lifetime a => a.render
  | .bound a => a.render
  | .constraint a => a.render
  | .path a => a.render
  | .segment a => a.render
  | .args a => a.render

/-- The type that a value is, if it is one. -/
def type? : Value → Option Ty
  | .type t => some t
  | _ => none

end Value

/-- A generic argument as a value. -/
def Arg.toValue : Arg → Value
  | .type t => .type t
  | .lifetime l => .lifetime l

end WhereClause
