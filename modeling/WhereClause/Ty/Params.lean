import WhereClause.Ty.Same
import WhereClause.Distinct

/-!
# The type parameters that a type mentions

`Ty.mentions` lists every mention in reading order; `Ty.params` keeps the first of each parameter.
A data structure mentions the parameters that it declares, whatever its fields say.
-/

namespace WhereClause

mutual

/-- Every mention of a type parameter, from left to right. -/
def Ty.mentions : Ty → List Param
  | .infer => []
  | .str => []
  | .tuple ts => Ty.mentionsEach ts
  | .ref _ t _ => Ty.mentions t
  | .deref t => Ty.mentions t
  | .dyn bs => Bound.mentionsEach bs
  | .data _ g _ => g.typeParams
  | .path p => Path.mentions p
  | .param p => [p]

def Ty.mentionsEach : List Ty → List Param
  | [] => []
  | t :: ts => Ty.mentions t ++ Ty.mentionsEach ts

def Path.mentions : Path → List Param
  | ⟨_, init, last⟩ => Segment.mentionsEach init ++ Segment.mentions last

def Segment.mentions : Segment → List Param
  | ⟨_, args⟩ => Args.mentions args

def Segment.mentionsEach : List Segment → List Param
  | [] => []
  | s :: ss => Segment.mentions s ++ Segment.mentionsEach ss

def Args.mentions : Args → List Param
  | .none => []
  | .angle as => Arg.mentionsEach as
  | .paren inputs none => Ty.mentionsEach inputs
  | .paren inputs (some output) => Ty.mentionsEach inputs ++ Ty.mentions output

def Arg.mentions : Arg → List Param
  | .type t => Ty.mentions t
  | .lifetime _ => []

def Arg.mentionsEach : List Arg → List Param
  | [] => []
  | a :: as => Arg.mentions a ++ Arg.mentionsEach as

def Bound.mentions : Bound → List Param
  | .trait p _ => Path.mentions p
  | .outlives _ => []

def Bound.mentionsEach : List Bound → List Param
  | [] => []
  | b :: bs => Bound.mentions b ++ Bound.mentionsEach bs

end

/-- The type parameters that a type mentions, in order of first appearance. -/
def Ty.params (t : Ty) : List Param :=
  Distinct.ofList t.mentions

end WhereClause
