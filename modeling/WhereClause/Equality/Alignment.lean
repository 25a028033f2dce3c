import WhereClause.Failure.Cause

/-!
# Laying two types side by side

A value of one type that goes where another is expected shows that the two types are one. Walking
both in parallel, from left to right and inner parts first, gives the steps to take: which types to
merge, and which types must satisfy the bounds of a trait object. The walk stops at the first clash,
and what it found until then stands. Where the shapes differ there is nothing to learn, so the walk
goes no deeper there.

## Main declarations

* `Step`, `Alignment`: what a walk finds.
* `Ty.align`, `Path.align`: the walk.
-/

namespace WhereClause

/-- One thing to learn from a pair of types. -/
inductive Step where
  /-- Two types are one. -/
  | merge (a b : Ty)
  /-- A type stands where a trait object is expected, so it satisfies the bounds of the object. -/
  | constrain (ty : Ty) (bounds : List Bound)

/-- What a walk over two types finds: the steps up to the first clash, and the clash. -/
structure Alignment where
  steps : List Step
  clash : Option Cause

namespace Alignment

/-- There is nothing to learn. -/
def nothing : Alignment := ⟨[], none⟩

def step (s : Step) : Alignment := ⟨[s], none⟩

def fail (c : Cause) : Alignment := ⟨[], some c⟩

/-- One walk after another, if the first meets no clash. -/
def andThen (x y : Alignment) : Alignment :=
  match x.clash with
  | some _ => x
  | none => ⟨x.steps ++ y.steps, y.clash⟩

end Alignment

/-- Whether arguments stand in parentheses. -/
def Args.isParen : Args → Bool
  | .paren _ _ => true
  | _ => false

mutual

/-- Lays two types side by side. A trait object says nothing about what the other type equals, and a
mutable reference may stand in for a shared one, so in both cases the two types are not merged. -/
def Ty.align : Ty → Ty → Alignment
  | .dyn xs, .dyn ys =>
    if xs.length = ys.length then Bound.alignEach xs ys
    else .fail (.boundCount (.dyn xs) (.dyn ys))
  | .dyn xs, t => .step (.constrain t xs)
  | s, .dyn ys => .step (.constrain s ys)
  | .ref access x l, .ref access' y k =>
    if access = access' then
      (Ty.align x y).andThen (.step (.merge (.ref access x l) (.ref access' y k)))
    else Ty.align x y
  | .tuple xs, .tuple ys =>
    if xs.length = ys.length then
      (Ty.alignEach xs ys).andThen (.step (.merge (.tuple xs) (.tuple ys)))
    else .fail (.tupleArity (.tuple xs) (.tuple ys))
  | .path p, .path q => (Path.align p q).andThen (.step (.merge (.path p) (.path q)))
  | s, t => .step (.merge s t)

/-- Lays types side by side in pairs, as far as both lists go. -/
def Ty.alignEach : List Ty → List Ty → Alignment
  | s :: ss, t :: ts => (Ty.align s t).andThen (Ty.alignEach ss ts)
  | _, _ => .nothing

/-- Lays the arguments of the last segments of two paths side by side. Where their counts differ one
path may be an alias of the other, which teaches nothing. -/
def Path.align : Path → Path → Alignment
  | ⟨isGlobal, init, ⟨name, args⟩⟩, q =>
    if args.isParen || q.last.args.isParen then
      .fail (.parenthesized [.path ⟨isGlobal, init, ⟨name, args⟩⟩, .path q])
    else Args.align args q.last.args

def Args.align : Args → Args → Alignment
  | .angle as, .angle bs => if as.length = bs.length then Arg.alignEach as bs else .nothing
  | _, _ => .nothing

/-- Lifetimes are not unified, and a type is never a lifetime. -/
def Arg.align : Arg → Arg → Alignment
  | .type s, .type t => Ty.align s t
  | .lifetime _, .lifetime _ => .nothing
  | a, b => .fail (.typeAgainstLifetime a b)

def Arg.alignEach : List Arg → List Arg → Alignment
  | a :: as, b :: bs => (Arg.align a b).andThen (Arg.alignEach as bs)
  | _, _ => .nothing

/-- Bounds by traits are compared by the arguments of the traits; other bounds teach nothing. -/
def Bound.align : Bound → Bound → Alignment
  | .trait p _, .trait q _ => Path.align p q
  | _, _ => .nothing

def Bound.alignEach : List Bound → List Bound → Alignment
  | a :: as, b :: bs => (Bound.align a b).andThen (Bound.alignEach as bs)
  | _, _ => .nothing

end

end WhereClause
