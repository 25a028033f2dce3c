import WhereClause.Value
import WhereClause.Text.Quoted

/-!
# Calls and implementations

What an inference is about: an implementation of a type, maybe of a trait for it, with every call
that its functions make. A call is recorded with what the callee declares, the static types of the
arguments and, where it is known, the place of the call.
-/

namespace WhereClause

/-- What a function declares: the types that it takes, and its own generics if it has any. -/
structure Signature where
  inputs : List Ty
  generics : Option Generics

/-- A function that is called. The parent is the declaration of the type or trait that owns it, and
a callee whose name is not known has a stand-in. -/
structure Callee where
  signature : Signature
  parent : Option Generics
  name : String := "<function>"

/-- How a caller points at a place in a source. -/
inductive Place where
  | text (text : String)
  | number (number : Int)

/-- One call, with the static types of its arguments. -/
structure Call where
  callee : Callee
  args : List Ty
  place : Option Place

/-- A function of the implementation with the calls that it makes, in order. -/
structure Function where
  name : String
  calls : List Call

/-- A trait that is implemented, with the generics that it declares. -/
structure TraitRef where
  path : Path
  generics : Option Generics

/-- A type, the trait implemented for it if any, and the functions of the implementation. -/
structure Implementation where
  ty : Ty
  trait : Option TraitRef
  functions : List Function

/-! ## What is declared and what is called -/

namespace Implementation

/-- The generics that the implementing type and the trait declare. -/
def declaredGenerics (i : Implementation) : List Generics :=
  (match i.ty with
    | .data _ g _ => [g]
    | _ => []) ++
  (i.trait.bind TraitRef.generics).toList

/-- The calls in order, each with the name of the function that makes it. -/
def calls (i : Implementation) : List (String × Call) :=
  i.functions.flatMap fun f => f.calls.map (f.name, ·)

end Implementation

/-- The constraints that a callee brings with it: those of its owner, then its own. -/
def Callee.constraints (c : Callee) : List Constraint :=
  (c.parent.map Generics.constraints).getD [] ++
  (c.signature.generics.map Generics.constraints).getD []

/-! ## The record of a call as text -/

def Place.render : Place → String
  | .text s => s
  | .number n => toString n

/-- A declaration as text, with every parameter and constraint. -/
def Generics.record (g : Generics) : String :=
  "Generics(params=" ++ Text.tuple (Arg.renderEach g.params) ++ ", constraints=" ++
    Text.tuple (g.constraints.map Constraint.render) ++ ")"

def Generics.recordOption : Option Generics → String
  | none => "None"
  | some g => g.record

def Signature.record (s : Signature) : String :=
  "Signature(inputs=" ++ Text.tuple (Ty.renderEach s.inputs) ++ ", generics=" ++
    Generics.recordOption s.generics ++ ")"

def Callee.record (c : Callee) : String :=
  "Callee(signature=" ++ c.signature.record ++ ", parent=" ++ Generics.recordOption c.parent ++
    ", name=" ++ Text.quoted c.name ++ ")"

/-- A call as text. It stands for its own place where no other is known, so none is written. -/
def Call.record (c : Call) : String :=
  "Invocation(callee=" ++ c.callee.record ++ ", args=" ++ Text.tuple (Ty.renderEach c.args) ++
    ", site=None)"

end WhereClause
