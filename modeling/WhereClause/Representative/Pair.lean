import WhereClause.Ty.Age
import WhereClause.Ty.Same
import WhereClause.Failure.Basic

/-!
# The more concrete of two types

Of two types that were found equal, one form is to stand for both. Anything beats the placeholder,
the string type beats everything, a path beats whatever is no path, and fewer generic arguments beat
more, since the shorter path is probably an alias of the longer. Between two parameters the older
wins, so the answer does not depend on the order in which things were found. Tuples, references and
paths with equally many arguments are merged part by part.

How a type that wins is itself made concrete is left open: `concrete` is what the caller knows about
it. The walk may fail, and works in any monad that can.
-/

namespace WhereClause

variable {m : Type → Type} [Monad m] [MonadExceptOf Fault m]

/-- Two types of one equality set have no common form, or none that is understood. -/
def failWith {α : Type} (c : Cause) : m α := throw (.ofCause c)

/-- Of two paths with merged arguments, the global or else the shorter one is kept. -/
def Path.withMergedArgs (p q : Path) (args : List Arg) : Path :=
  if p.isGlobal || p.segments.length < q.segments.length then p.withArgs (.angle args)
  else q.withArgs (.angle args)

mutual

def Ty.mostConcrete (concrete : Ty → m Ty) (this that : Ty) : m Ty :=
  if this == that then concrete this
  else
    match this, that with
    | .infer, that => concrete that
    | this, .infer => concrete this
    | .str, _ => pure .str
    | _, .str => pure .str
    | .path p, .path q => Path.mostConcrete concrete p q
    | .path p, _ => concrete (.path p)
    | _, .path q => concrete (.path q)
    | .tuple xs, .tuple ys =>
      if xs.length = ys.length then do
        let elements ← Ty.mostConcreteEach concrete xs ys
        return .tuple elements
      else failWith (.tupleArity (.tuple xs) (.tuple ys))
    | .ref .shared x _, .ref .shared y _ => do
      -- Which of two lifetimes is the longer is not known, so neither is kept.
      let pointee ← Ty.mostConcrete concrete x y
      return .ref .shared pointee none
    | .ref .mutable x _, .ref .mutable y _ => do
      let pointee ← Ty.mostConcrete concrete x y
      return .ref .mutable pointee none
    | .dyn _, that => concrete that
    | .param p, .param q => pure (.param (p.older q))
    | this, .dyn _ => concrete this
    | this, that => failWith (.incompatible this that)
termination_by structural this

def Ty.mostConcreteEach (concrete : Ty → m Ty) : List Ty → List Ty → m (List Ty)
  | x :: xs, y :: ys => do
    let t ← Ty.mostConcrete concrete x y
    let ts ← Ty.mostConcreteEach concrete xs ys
    return t :: ts
  | _, _ => pure []
termination_by structural xs => xs

/-- The common form of two paths. One without arguments wins as it stands. -/
def Path.mostConcrete (concrete : Ty → m Ty) : Path → Path → m Ty
  | ⟨isGlobal, init, ⟨name, args⟩⟩, q =>
    let p : Path := ⟨isGlobal, init, ⟨name, args⟩⟩
    match args, q.last.args with
    | .none, _ => pure (.path p)
    | _, .none => pure (.path q)
    | .angle as, .angle bs =>
      if as.length < bs.length then concrete (.path p)
      else if bs.length < as.length then concrete (.path q)
      else do
        let merged ← Arg.mostConcreteEach concrete as bs
        return .path (p.withMergedArgs q merged)
    | _, _ => failWith (.parenthesized [.type (.path p), .type (.path q)])
termination_by structural p => p

/-- The common form of two arguments. Of two lifetimes the first is taken unchecked. -/
def Arg.mostConcrete (concrete : Ty → m Ty) : Arg → Arg → m Arg
  | .type x, .type y => do
    let t ← Ty.mostConcrete concrete x y
    return .type t
  | .lifetime l, .lifetime _ => pure (.lifetime l)
  | a, b => failWith (.typeAgainstLifetime a b)
termination_by structural a => a

def Arg.mostConcreteEach (concrete : Ty → m Ty) : List Arg → List Arg → m (List Arg)
  | a :: as, b :: bs => do
    let c ← Arg.mostConcrete concrete a b
    let cs ← Arg.mostConcreteEach concrete as bs
    return c :: cs
  | _, _ => pure []
termination_by structural as => as

end

end WhereClause
