import WhereClause.Equality.Evidence
import WhereClause.Representative.Closure
import WhereClause.Relevance

/-!
# Inferring where-clauses

Given an implementation and every call that its functions make, find the constraints that the
implementation must declare on its own generic parameters. The candidates are what the implementing
type, the implemented trait and each callee (with its owner) declare, and what trait objects demand
of the types that stand in for them. Evidence from the calls tells which types are the same; the
representatives of the equality sets and the relevance of constraints tell which candidates survive,
and in what form.

One inference is one self-contained pass, and nothing carries over to the next.

## Main declarations

* `Implementation.infer`: the constraints to declare, or what went wrong, and what was told
  meanwhile.
-/

namespace WhereClause

namespace Implementation

/-- What is known before any call was looked at: the declared constraints. -/
def declaredEvidence (i : Implementation) (mode : MergeMode) : Evidence :=
  let e := Evidence.empty mode
  { e with candidates := e.candidates.insertAll (i.declaredGenerics.flatMap Generics.constraints) }

/-- The type parameters that the implementation declares. -/
def ownParams (i : Implementation) : List Param :=
  Distinct.ofList (i.declaredGenerics.flatMap Generics.typeParams)

/-- The evidence from all calls. -/
def evidence (i : Implementation) (mode : MergeMode) : Evidence × Option Failure :=
  (i.declaredEvidence mode).learnCalls i.calls

end Implementation

/-! ## Blame -/

/-- Of two origins, the more recent. -/
def Origin.later (a b : Origin) : Origin := if a.serial < b.serial then b else a

/-- The origin of the operand that was brought in last, if any has an origin. -/
def Store.latestOrigin (s : Store) (operands : List Value) : Option Origin :=
  match operands.filterMap fun v => v.type?.bind s.originOf with
  | [] => none
  | o :: os => some (os.foldl Origin.later o)

/-- A failure that came up after all calls were looked at is put down to the call that brought in
the latest of its operands. -/
def Store.blame (s : Store) (f : Failure) : Failure :=
  match s.latestOrigin f.cause.operands with
  | some o => f.pin (some o.function) o.site
  | none => f

def Store.blameFault (s : Store) : Fault → Fault
  | .failure f => .failure (s.blame f)
  | fault => fault

/-! ## The inference -/

/-- The constraints among the candidates that concern the parameters given. -/
def Evidence.conclude (e : Evidence) (params : List Param) :
    List Event × Except Fault ConstraintSet :=
  let (search, result) := closure e.store ∅ params
  match result with
  | .error fault => (e.trace, .error (search.store.blameFault fault))
  | .ok sets =>
    let e := e.tell (.relevant params (sets.mergeSort fun a b => decide (a ≤ b)))
    match (Relevance.ofRefs sets).filter search.store e.candidates.toList search.resolver with
    | (.error fault, _) => (e.trace, .error (search.store.blameFault fault))
    | (.ok kept, _) => ((e.tell (.kept kept e.candidates.size)).trace, .ok kept)

/-- The constraints that an implementation must declare, in a deterministic order, or why they
cannot be told. The events lead up to the answer. -/
def Implementation.infer (i : Implementation) (mode : MergeMode) :
    List Event × Except Fault ConstraintSet :=
  match i.evidence mode with
  | (e, some failure) => (e.trace, .error (.failure failure))
  | (e, none) => { e with store := e.store.leave }.conclude i.ownParams

end WhereClause
