import WhereClause.ConstraintSet
import WhereClause.Representative.Settled

/-!
# Constraints that matter

Plenty of constraints turn up that have nothing to do with the implementation at hand: bounds on a
helper's parameters that were tied to some concrete type, for instance. Those are satisfied or not
somewhere else. What an implementation has to declare are the constraints on its own parameters, and
relevance keeps exactly those, stated of the most concrete types known.

A type is relevant if it is a parameter of a relevant set or a reference, at any depth, to one. A
bound is relevant if every type among the generic arguments of its trait is.
-/

namespace WhereClause

/-- The sets that matter, by position. -/
structure Relevance where
  sets : List Int

namespace Relevance

/-- The relevance of the sets at given positions, each counted once. -/
def ofPositions (positions : List Int) : Relevance := ⟨Distinct.ofList positions⟩

def ofRefs (refs : List Nat) : Relevance := ofPositions (refs.map Int.ofNat)

def isRelevantSet (v : Relevance) : Option Int → Bool
  | none => false
  | some r => v.sets.contains r

variable (v : Relevance) (store : Store)

def isRelevantParam (p : Param) : Bool :=
  v.isRelevantSet ((store.setOf (.param p)).map Int.ofNat)

/-- Only a relevant parameter will do, or a reference to what will do. -/
def isRelevantType : Ty → Bool
  | .param p => v.isRelevantParam store p
  | .ref _ t _ => isRelevantType t
  | _ => false

/-- Lifetimes are always relevant. -/
def isRelevantArg : Arg → Bool
  | .type t => v.isRelevantType store t
  | .lifetime _ => true

/-- A path is as relevant as the arguments of its last segment. Arguments in parentheses are not
understood. -/
def isRelevantPath (p : Path) : Except Fault Bool :=
  match p.last.args with
  | .none => .ok true
  | .angle as => .ok (as.all (v.isRelevantArg store))
  | .paren _ _ => .error (.ofCause (.parenthesized [.path p]))

def isRelevantBound : Bound → Except Fault Bool
  | .trait p _ => v.isRelevantPath store p
  | .outlives _ => .ok true

/-- The settled bounds, if all are relevant. Nothing is looked at after the first that is not. -/
def keepBounds : List Bound → Resolving (Option (List Bound))
  | [] => return some []
  | b :: bs => do
    let b ← Resolver.settleBound store b
    match v.isRelevantBound store b with
    | .error fault => throw fault
    | .ok false => return none
    | .ok true => return (← keepBounds bs).map (b :: ·)

/-- The most concrete form of a constraint, if it is relevant. Constraints between lifetimes are
kept as they are. -/
def keep : Constraint → Resolving (Option Constraint)
  | .lifetime l ls => return some (.lifetime l ls)
  | .type t bs binder => do
    let bounded ← Resolver.settle store t
    if v.isRelevantType store bounded then
      return (← v.keepBounds store bs).map fun bounds => .type bounded bounds binder
    else return none

/-- What is kept of a list of constraints, without repeats. -/
def filter (cs : List Constraint) : Resolving ConstraintSet :=
  cs.foldlM (fun result c => return ((← v.keep store c).map result.insert).getD result) ∅

end Relevance

end WhereClause
