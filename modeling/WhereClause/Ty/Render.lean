import WhereClause.Ty.Basic
import WhereClause.Text.Joined

/-!
# Terms as text

The written form of types, paths, bounds and constraints, as they stand in source code. A data
structure is written by its name and the parameters that it declares; its fields and what it
requires of the parameters are not written.
-/

namespace WhereClause

open Text

def Param.render (p : Param) : String := p.name

def Lifetime.render (l : Lifetime) : String := "\x27" ++ l.name

/-- The binder of a higher-ranked bound, with the blank that sets it off. -/
def renderBinder : List Lifetime → String
  | [] => ""
  | ls => "for<" ++ commaJoined (ls.map Lifetime.render) ++ "> "

/-- What stands before the type that a reference points to. -/
def renderReference (access : Access) (lifetime : Option Lifetime) : String :=
  (match access with
    | .shared => "&"
    | .mutable => "&mut ") ++
  (match lifetime with
    | none => ""
    | some l => l.render ++ " ")

mutual

def Ty.render : Ty → String
  | .infer => "_"
  | .str => "str"
  | .tuple ts => tuple (Ty.renderEach ts)
  | .ref access t lifetime => renderReference access lifetime ++ Ty.render t
  | .deref t => "*" ++ Ty.render t
  | .dyn bs => "dyn " ++ joined " + " (Bound.renderEach bs)
  | .data name g _ => name ++ Generics.render g
  | .path p => Path.render p
  | .param p => p.render

def Ty.renderEach : List Ty → List String
  | [] => []
  | t :: ts => Ty.render t :: Ty.renderEach ts

/-- The declared parameters between angle brackets, or nothing where none are declared. -/
def Generics.render : Generics → String
  | ⟨[], _⟩ => ""
  | ⟨a :: as, _⟩ => "<" ++ commaJoined (Arg.render a :: Arg.renderEach as) ++ ">"

def Path.render : Path → String
  | ⟨isGlobal, init, last⟩ =>
    (if isGlobal then "::" else "") ++
      joined "::" (Segment.renderEach init ++ [Segment.render last])

def Segment.render : Segment → String
  | ⟨name, args⟩ => name ++ Args.render args

def Segment.renderEach : List Segment → List String
  | [] => []
  | s :: ss => Segment.render s :: Segment.renderEach ss

def Args.render : Args → String
  | .none => ""
  | .angle as => "<" ++ commaJoined (Arg.renderEach as) ++ ">"
  | .paren inputs none => "(" ++ commaJoined (Ty.renderEach inputs) ++ ")"
  | .paren inputs (some output) =>
    "(" ++ commaJoined (Ty.renderEach inputs) ++ ")" ++ " -> " ++ Ty.render output

def Arg.render : Arg → String
  | .type t => Ty.render t
  | .lifetime l => l.render

def Arg.renderEach : List Arg → List String
  | [] => []
  | a :: as => Arg.render a :: Arg.renderEach as

def Bound.render : Bound → String
  | .trait p binder => renderBinder binder ++ Path.render p
  | .outlives l => l.render

def Bound.renderEach : List Bound → List String
  | [] => []
  | b :: bs => Bound.render b :: Bound.renderEach bs

end

def Constraint.render : Constraint → String
  | .type t bs binder =>
    renderBinder binder ++ t.render ++ ": " ++ joined " + " (Bound.renderEach bs)
  | .lifetime l ls => l.render ++ ": " ++ joined " + " (ls.map Lifetime.render)

end WhereClause
