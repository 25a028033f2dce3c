import WhereClause.Value

/-!
# Why an inference fails

Bound inference either finds a complete and consistent set of constraints or none, so whatever it
cannot make sense of ends it. A cause says what that was and names the terms that were looked at,
its operands. Causes fall into kinds, each with a headline of its own.
-/

namespace WhereClause

/-- The kinds of failure. -/
inductive FailureKind where
  /-- No kind in particular. -/
  | general
  /-- Tuples or trait objects of different sizes were to be the same. -/
  | arity
  /-- Something that inference does not understand. -/
  | unsupported
  /-- Two types of one equality set have no common form. -/
  | inconsistent
  deriving DecidableEq

/-- The sentence that introduces a failure of a kind. -/
def FailureKind.headline : FailureKind → String
  | .general => "Bound inference failed."
  | .arity => "These types have different numbers of parts, so they cannot be the same."
  | .unsupported => "Bound inference does not (yet) understand something here."
  | .inconsistent => "Bound inference has confused itself. This is a bug."

/-- What inference could not make sense of. -/
inductive Cause where
  | notTuple (ty : Ty)
  | noFields (ty : Ty)
  /-- The generics of a data structure cannot be replaced. -/
  | fixedGenerics (ty : Ty)
  | boundCount (a b : Ty)
  | tupleArity (a b : Ty)
  /-- Arguments in parentheses, as in `Fn(A) -> B`, where arguments were to be compared. -/
  | parenthesized (terms : List Value)
  /-- Of two arguments in one place, one is a type and the other a lifetime. -/
  | typeAgainstLifetime (a b : Arg)
  | incompatible (a b : Ty)
  /-- A failure that is stated by its user. -/
  | stated (kind : FailureKind) (message : String) (operands : List Value)

namespace Cause

def kind : Cause → FailureKind
  | .boundCount _ _ | .tupleArity _ _ => .arity
  | .incompatible _ _ => .inconsistent
  | .stated kind _ _ => kind
  | _ => .unsupported

def message : Cause → String
  | .notTuple _ => "Only a tuple has elements"
  | .noFields _ => "Only a data structure has fields"
  | .fixedGenerics _ => "Cannot refresh the generics of a data structure"
  | .boundCount _ _ => "Trait objects have different numbers of bounds"
  | .tupleArity _ _ => "Tuples have different numbers of elements"
  | .parenthesized _ => "Parenthesized generic arguments"
  | .typeAgainstLifetime _ _ => "Type argument lined up against a lifetime"
  | .incompatible _ _ => "No most-concrete type between incompatible types"
  | .stated _ message _ => message

/-- The terms that were being looked at. -/
def operands : Cause → List Value
  | .notTuple t | .noFields t | .fixedGenerics t => [.type t]
  | .boundCount a b | .tupleArity a b | .incompatible a b => [.type a, .type b]
  | .parenthesized terms => terms
  | .typeAgainstLifetime a b => [a.toValue, b.toValue]
  | .stated _ _ operands => operands

/-- The message, followed by the operands if there are any. -/
def text (c : Cause) : String :=
  match c.operands with
  | [] => c.message
  | operands => c.message ++ ": " ++ Text.commaJoined (operands.map Value.render)

end Cause

end WhereClause
