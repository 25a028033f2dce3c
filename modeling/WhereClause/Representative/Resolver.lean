import WhereClause.Equality.Store
import WhereClause.Representative.Pair

/-!
# Representatives of equality sets

Once the evidence is in, each set is represented by the most concrete type among its members: the
members are folded, first against second, the result against the third, and so on. A representative
is remembered. The memo gets a placeholder before the fold begins, so a set that mentions itself,
directly or through others, sees its own members as they are, rather than going round forever.

A resolver keeps its memo also when a fold fails. The set that was being folded then stays without a
representative, and a memo is not told when the store changes later.

## Main declarations

* `Resolver`: what is remembered; `Resolving`: computations that use it and may fail.
* `Resolver.resolveNoting`: the traversal, in any monad that holds a resolver and may fail.
* `Resolver.resolve`, `Resolver.concrete`, `Resolver.pair`.
-/

namespace WhereClause

/-- What is remembered about the sets of a store. -/
structure Resolver where
  /-- The representative of each set that was asked for, by its position as it was given. There is
  none yet, or none after a failure, where the entry is empty. -/
  memo : Table Int (Option Ty)
  /-- The sets that are being expanded, innermost first. -/
  settling : List Nat

/-- A computation that remembers representatives, in success and in failure, and may fail. -/
abbrev Resolving := ExceptT Fault (StateM Resolver)

namespace Resolver

def empty : Resolver := ⟨∅, []⟩

instance : EmptyCollection Resolver := ⟨empty⟩

instance : Inhabited Resolver := ⟨empty⟩

def remember (s : Resolver) (position : Int) (representative : Option Ty) : Resolver :=
  { s with memo := s.memo.insert position representative }

section

variable {m : Type → Type} [Monad m] [MonadStateOf Resolver m] [MonadExceptOf Fault m]

/-- The most concrete form of a type by what is answered for its set, and the type itself where it
has none or there is no answer yet. -/
def concreteBy (store : Store) (answer : Int → m (Option Ty)) (t : Ty) : m Ty := do
  match store.setOf t with
  | none => return t
  | some r => return (← answer r).getD t

/-- Folds the members of the set at a position, by what is answered for sets on the way, and
remembers what they come to. -/
def foldBy (store : Store) (answer : Int → m (Option Ty)) (position : Int) : m (Option Ty) := do
  match store.members? position with
  | none => throw (.noSuchSet position)
  | some [] => throw (.emptySet position)
  | some (t :: ts) =>
    let representative ← ts.foldlM (Ty.mostConcrete (concreteBy store answer)) t
    modify (·.remember position (some representative))
    return some representative

/-- The representative of the set at a position, folded unless it is remembered. At most `depth`
further sets are folded inside one another, each for the first time, and `note` is told of each fold
that begins. -/
def resolveNoting (note : Int → m Unit) (store : Store) (depth : Nat) (position : Int) :
    m (Option Ty) := do
  match (← get).memo.get? position with
  | some known => return known
  | none =>
    match depth with
    | 0 => throw (.unresolved position.toNat)
    | depth + 1 =>
      modify (·.remember position none)
      note position
      foldBy store (resolveNoting note store depth) position

end

/-- The representative of the set at a position, with so much room for folds inside one another. -/
def resolveWithin (store : Store) (depth : Nat) (position : Int) : Resolving (Option Ty) :=
  resolveNoting (fun _ => return) store depth position

/-- The representative of the set at a position, which may be counted from the end; none if it is
still being worked out. Every fold inside another is of a set not asked for before, so the number of
sets bounds their depth. -/
def resolve (store : Store) (position : Int) : Resolving (Option Ty) :=
  resolveWithin store (store.sets.length + 1) position

/-- The representative of a type's set, and the type itself where there is none. -/
def concrete (store : Store) (t : Ty) : Resolving Ty := concreteBy store (resolve store) t

/-- The more concrete of two types. -/
def pair (store : Store) (this that : Ty) : Resolving Ty :=
  Ty.mostConcrete (concrete store) this that

end Resolver

end WhereClause
