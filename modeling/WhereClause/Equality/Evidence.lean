import WhereClause.ConstraintSet
import WhereClause.Trace
import WhereClause.Equality.Alignment
import WhereClause.Equality.Store

/-!
# Evidence from calls

The arguments of a call are of the types that the callee declares. That is all the evidence there
is: laying each declared type beside the type of its argument yields types to merge in the store and
constraints for the types that stand where a trait object is expected. What a callee and its owner
require are candidates as well, since the caller may have to require it too.
-/

namespace WhereClause

/-- What is known so far: the equality sets, the candidate constraints, and what was told. -/
structure Evidence where
  store : Store
  candidates : ConstraintSet
  trace : List Event

namespace Evidence

def empty (mode : MergeMode) : Evidence := ⟨.empty mode, ∅, []⟩

def tell (e : Evidence) (event : Event) : Evidence := { e with trace := e.trace ++ [event] }

/-- Takes one step of an alignment. -/
def take (e : Evidence) : Step → Evidence
  | .merge a b =>
    let merge := e.store.plan a b
    let e := match merge with
      | .fold source target => e.tell (.folded source target)
      | _ => e
    { e with store := e.store.perform merge }
  | .constrain t bounds =>
    let c : Constraint := .type t bounds []
    if e.candidates.contains c then e
    else { e with candidates := e.candidates.insert c }.tell (.constrained c)

def takeAll (e : Evidence) (steps : List Step) : Evidence := steps.foldl take e

/-- Takes the steps of an alignment and hands on its clash. A walk does not look at what is known, so
it may be over before its first step is taken. -/
def learn (e : Evidence) (x : Alignment) : Evidence × Option Cause :=
  (e.takeAll x.steps, x.clash)

/-- A value of one type went where the other type was expected. -/
def equate (e : Evidence) (a b : Ty) : Evidence × Option Cause := e.learn (a.align b)

/-- The arguments of the last segments of two paths were found equal. -/
def equateArgs (e : Evidence) (p q : Path) : Evidence × Option Cause := e.learn (p.align q)

/-- Learns from one call of a function. A clash is to be blamed on that call, and leaves out what
the callee requires. -/
def learnCall (e : Evidence) (function : String) (c : Call) : Evidence × Option Failure :=
  let e := e.tell (.called function c.callee.name c.args)
  let e := { e with store := e.store.enter function c.site }
  match e.learn (Ty.alignEach c.callee.signature.inputs c.args) with
  | (e, some cause) => (e, some ((Failure.ofCause cause).pin function c.site))
  | (e, none) => ({ e with candidates := e.candidates.insertAll c.callee.constraints }, none)

/-- Learns from calls in order, up to the first that fails. -/
def learnCalls (e : Evidence) : List (String × Call) → Evidence × Option Failure
  | [] => (e, none)
  | (function, c) :: rest =>
    match e.learnCall function c with
    | (e, some failure) => (e, some failure)
    | (e, none) => e.learnCalls rest

/-- A step changes the store only by merging. -/
theorem store_take_constrain (e : Evidence) (t : Ty) (bounds : List Bound) :
    (e.take (.constrain t bounds)).store = e.store := by
  simp only [take, tell]
  split <;> rfl

theorem store_take_merge (e : Evidence) (a b : Ty) :
    (e.take (.merge a b)).store = e.store.merge a b := by
  simp only [take, Store.merge, tell]
  split <;> rfl

end Evidence

end WhereClause
