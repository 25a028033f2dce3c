import WhereClause.Representative.Resolver

/-!
# Types settled on representatives

The settled form of a type has each part that belongs to an equality set replaced by the
representative of the set, all the way down. While a set is being expanded, a type of that set that
turns up below stands as it is, so sets that mention one another in a circle are expanded once.

Dereferences and data structures are not looked into, nor are arguments in parentheses.
-/

namespace WhereClause

section

variable {m : Type → Type} [Monad m] (setOf : Ty → Option Nat) (expand : Nat → Ty → m Ty)

mutual

/-- Settles the parts of a type: those of a set by expanding it, the others by their own parts. -/
def Ty.settleParts : Ty → m Ty
  | .infer => pure .infer
  | .str => pure .str
  | .tuple ts => do
    let elements ← Ty.settleEach ts
    return .tuple elements
  | .ref access t lifetime => do
    let pointee ← match setOf t with
      | some r => expand r t
      | none => Ty.settleParts t
    return .ref access pointee lifetime
  | .deref t => pure (.deref t)
  | .dyn bs => do
    let bounds ← Bound.settleEach bs
    return .dyn bounds
  | .data name g fields => pure (.data name g fields)
  | .path p => do
    let path ← Path.settle p
    return .path path
  | .param p => pure (.param p)

def Ty.settleEach : List Ty → m (List Ty)
  | [] => pure []
  | t :: ts => do
    let u ← match setOf t with
      | some r => expand r t
      | none => Ty.settleParts t
    let us ← Ty.settleEach ts
    return u :: us

def Path.settle : Path → m Path
  | ⟨isGlobal, init, last⟩ => do
    let init ← Segment.settleEach init
    let last ← Segment.settle last
    return ⟨isGlobal, init, last⟩

def Segment.settle : Segment → m Segment
  | ⟨name, args⟩ => do
    let args ← Args.settle args
    return ⟨name, args⟩

def Segment.settleEach : List Segment → m (List Segment)
  | [] => pure []
  | s :: ss => do
    let s ← Segment.settle s
    let ss ← Segment.settleEach ss
    return s :: ss

def Args.settle : Args → m Args
  | .none => pure .none
  | .angle as => do
    let as ← Arg.settleEach as
    return .angle as
  | .paren inputs output => pure (.paren inputs output)

def Arg.settleEach : List Arg → m (List Arg)
  | [] => pure []
  | .type t :: as => do
    let u ← match setOf t with
      | some r => expand r t
      | none => Ty.settleParts t
    let as ← Arg.settleEach as
    return .type u :: as
  | .lifetime l :: as => do
    let as ← Arg.settleEach as
    return .lifetime l :: as

def Bound.settle : Bound → m Bound
  | .trait p binder => do
    let path ← Path.settle p
    return .trait path binder
  | .outlives l => pure (.outlives l)

def Bound.settleEach : List Bound → m (List Bound)
  | [] => pure []
  | b :: bs => do
    let b ← Bound.settle b
    let bs ← Bound.settleEach bs
    return b :: bs

end

end

namespace Resolver

/-- Runs a computation while a set is being expanded. The set is done with afterwards, also if the
computation fails. -/
def whileSettling {α : Type} (r : Nat) (x : Resolving α) : Resolving α := fun s =>
  let (result, s) := x { s with settling := r :: s.settling }
  (result, { s with settling := s.settling.erase r })

/-- The settled form of a type of a set. At most `depth` further sets are expanded inside one
another. -/
def expandWithin (store : Store) (depth : Nat) (r : Nat) (t : Ty) : Resolving Ty := do
  if (← get).settling.contains r then return t
  else
    match depth with
    | 0 => throw (.unresolved r)
    | depth + 1 =>
      whileSettling r do
        let representative ← concrete store t
        representative.settleParts store.setOf (expandWithin store depth)

/-- The settled form of a type of a set. No set is expanded inside itself, so the number of sets
bounds how deep expansions go. -/
def expand (store : Store) (r : Nat) (t : Ty) : Resolving Ty :=
  expandWithin store store.sets.length r t

/-- The most concrete form of a type, all the way down. -/
def settle (store : Store) (t : Ty) : Resolving Ty :=
  match store.setOf t with
  | some r => expand store r t
  | none => t.settleParts store.setOf (expand store)

def settlePath (store : Store) (p : Path) : Resolving Path :=
  p.settle store.setOf (expand store)

def settleBound (store : Store) (b : Bound) : Resolving Bound :=
  b.settle store.setOf (expand store)

end Resolver

end WhereClause
