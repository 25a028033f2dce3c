import WhereClause.Ty.Basic

/-!
# Equality of terms

Two terms are equal when they have the same shape and the same contents, where type parameters and
lifetimes are told apart by number and their names do not count. A shared and a mutable reference
to one type differ, and so do absent and empty angle brackets.

The functions `same` recurse on their first argument; `==` is the notation for them.
-/

namespace WhereClause

instance : BEq Param where
  beq a b := a.number == b.number

instance : BEq Lifetime where
  beq a b := a.number == b.number

instance : BEq GenericParam where
  beq
    | .type p, .type q => p == q
    | .lifetime l, .lifetime k => l == k
    | _, _ => false

mutual

def Ty.same : Ty → Ty → Bool
  | .infer, .infer => true
  | .str, .str => true
  | .tuple xs, .tuple ys => Ty.sameEach xs ys
  | .ref a x l, .ref b y k => a == b && Ty.same x y && l == k
  | .deref x, .deref y => Ty.same x y
  | .dyn xs, .dyn ys => Bound.sameEach xs ys
  | .data m g xs, .data n h ys => m == n && Generics.same g h && Field.sameEach xs ys
  | .path p, .path q => Path.same p q
  | .param p, .param q => p == q
  | _, _ => false

def Ty.sameEach : List Ty → List Ty → Bool
  | [], [] => true
  | x :: xs, y :: ys => Ty.same x y && Ty.sameEach xs ys
  | _, _ => false

def Ty.sameOption : Option Ty → Option Ty → Bool
  | none, none => true
  | some x, some y => Ty.same x y
  | _, _ => false

def Field.same : Field → Field → Bool
  | ⟨m, x⟩, ⟨n, y⟩ => m == n && Ty.same x y

def Field.sameEach : List Field → List Field → Bool
  | [], [] => true
  | x :: xs, y :: ys => Field.same x y && Field.sameEach xs ys
  | _, _ => false

def Path.same : Path → Path → Bool
  | ⟨a, xs, x⟩, ⟨b, ys, y⟩ => a == b && Segment.sameEach xs ys && Segment.same x y

def Segment.same : Segment → Segment → Bool
  | ⟨m, x⟩, ⟨n, y⟩ => m == n && Args.same x y

def Segment.sameEach : List Segment → List Segment → Bool
  | [], [] => true
  | x :: xs, y :: ys => Segment.same x y && Segment.sameEach xs ys
  | _, _ => false

def Args.same : Args → Args → Bool
  | .none, .none => true
  | .angle xs, .angle ys => Arg.sameEach xs ys
  | .paren xs x, .paren ys y => Ty.sameEach xs ys && Ty.sameOption x y
  | _, _ => false

def Arg.same : Arg → Arg → Bool
  | .type x, .type y => Ty.same x y
  | .lifetime l, .lifetime k => l == k
  | _, _ => false

def Arg.sameEach : List Arg → List Arg → Bool
  | [], [] => true
  | x :: xs, y :: ys => Arg.same x y && Arg.sameEach xs ys
  | _, _ => false

def Bound.same : Bound → Bound → Bool
  | .trait p ls, .trait q ks => Path.same p q && ls == ks
  | .outlives l, .outlives k => l == k
  | _, _ => false

def Bound.sameEach : List Bound → List Bound → Bool
  | [], [] => true
  | x :: xs, y :: ys => Bound.same x y && Bound.sameEach xs ys
  | _, _ => false

def Constraint.same : Constraint → Constraint → Bool
  | .type x xs ls, .type y ys ks => Ty.same x y && Bound.sameEach xs ys && ls == ks
  | .lifetime l ls, .lifetime k ks => l == k && ls == ks
  | _, _ => false

def Constraint.sameEach : List Constraint → List Constraint → Bool
  | [], [] => true
  | x :: xs, y :: ys => Constraint.same x y && Constraint.sameEach xs ys
  | _, _ => false

def Generics.same : Generics → Generics → Bool
  | ⟨xs, cs⟩, ⟨ys, ds⟩ => Arg.sameEach xs ys && Constraint.sameEach cs ds

end

instance : BEq Ty := ⟨Ty.same⟩
instance : BEq Path := ⟨Path.same⟩
instance : BEq Segment := ⟨Segment.same⟩
instance : BEq Args := ⟨Args.same⟩
instance : BEq Arg := ⟨Arg.same⟩
instance : BEq Bound := ⟨Bound.same⟩
instance : BEq Constraint := ⟨Constraint.same⟩
instance : BEq Generics := ⟨Generics.same⟩

end WhereClause
