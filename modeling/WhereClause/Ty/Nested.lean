import WhereClause.Ty.Params
import WhereClause.Failure.Cause

/-!
# Parameters nested in a type

The type parameters nested in a type through tuples, references and the generic arguments of paths.
Trait objects, dereferences and data structures are not looked into, and arguments in parentheses
are not understood.
-/

namespace WhereClause

mutual

/-- The mentions of type parameters nested in a type, from left to right. -/
def Ty.nested : Ty → Except Cause (List Param)
  | .infer => .ok []
  | .str => .ok []
  | .tuple ts => Ty.nestedEach ts
  | .ref _ t _ => Ty.nested t
  | .deref _ => .ok []
  | .dyn _ => .ok []
  | .data _ _ _ => .ok []
  | .path p => Path.nested p
  | .param p => .ok [p]

def Ty.nestedEach : List Ty → Except Cause (List Param)
  | [] => .ok []
  | t :: ts => do
    let ps ← Ty.nested t
    let qs ← Ty.nestedEach ts
    return ps ++ qs

def Path.nested : Path → Except Cause (List Param)
  | ⟨isGlobal, init, last⟩ => do
    let ps ← Segment.nestedEach ⟨isGlobal, init, last⟩ init
    let qs ← Segment.nested ⟨isGlobal, init, last⟩ last
    return ps ++ qs

/-- The mentions nested in a segment of `whole`. -/
def Segment.nested (whole : Path) : Segment → Except Cause (List Param)
  | ⟨_, args⟩ => Args.nested whole args

def Segment.nestedEach (whole : Path) : List Segment → Except Cause (List Param)
  | [] => .ok []
  | s :: ss => do
    let ps ← Segment.nested whole s
    let qs ← Segment.nestedEach whole ss
    return ps ++ qs

def Args.nested (whole : Path) : Args → Except Cause (List Param)
  | .none => .ok []
  | .angle as => Arg.nestedEach as
  | .paren _ _ => .error (.parenthesized [.type (.path whole)])

def Arg.nestedEach : List Arg → Except Cause (List Param)
  | [] => .ok []
  | .type t :: as => do
    let ps ← Ty.nested t
    let qs ← Arg.nestedEach as
    return ps ++ qs
  | .lifetime _ :: as => Arg.nestedEach as

end

/-- The type parameters nested in a type, in order of first appearance. -/
def Ty.nestedParams (t : Ty) : Except Cause (List Param) :=
  t.nested.map Distinct.ofList

end WhereClause
