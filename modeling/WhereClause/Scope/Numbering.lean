import WhereClause.Indexing
import WhereClause.Ty.Substitution

/-!
# Numbering parameters

Parameters need identities that stay put for the duration of a run, so that "the same `T`" means the
same thing everywhere and the older of two parameters can be told. A numbering hands out the numbers
`0, 1, 2, …`, shared between type parameters and lifetimes, and remembers what it handed out.
-/

namespace WhereClause

/-- The parameters handed out so far; each stands at the position of its number. -/
structure Numbering where
  handedOut : List GenericParam

namespace Numbering

def empty : Numbering := ⟨[]⟩

instance : EmptyCollection Numbering := ⟨empty⟩

instance : Inhabited Numbering := ⟨empty⟩

/-- The number that the next parameter gets. -/
def next (n : Numbering) : Nat := n.handedOut.length

/-- Hands out a type parameter. -/
def addType (n : Numbering) (name : String) : Numbering × Param :=
  let p : Param := ⟨n.next, name⟩
  (⟨n.handedOut ++ [.type p]⟩, p)

/-- The name of a lifetime without the apostrophes that it may be written with. -/
def lifetimeName (name : String) : String :=
  String.ofList (name.toList.dropWhile (· == '\x27'))

/-- Hands out a lifetime. -/
def addLifetime (n : Numbering) (name : String) : Numbering × Lifetime :=
  let l : Lifetime := ⟨n.next, lifetimeName name⟩
  (⟨n.handedOut ++ [.lifetime l]⟩, l)

/-- Hands out a parameter of the sort of a given one, under its name. -/
def addLike (n : Numbering) : GenericParam → Numbering × GenericParam
  | .type p => let (n, q) := n.addType p.name; (n, .type q)
  | .lifetime l => let (n, k) := n.addLifetime l.name; (n, .lifetime k)

/-- The parameter that was handed out with a number; a negative one counts from the last. -/
def exemplar? (n : Numbering) (number : Int) : Option GenericParam :=
  itemAt? n.handedOut number

/-- The name that the bearer of a parameter's number was handed out with. -/
def nameOf? (n : Numbering) (p : GenericParam) : Option String :=
  (n.exemplar? p.number).map GenericParam.name

/-- Hands out a fresh parameter for each of a list. Where one is listed repeatedly, it is replaced
by the last that was handed out for it. -/
def refresh (n : Numbering) (params : List GenericParam) :
    Numbering × Table GenericParam GenericParam :=
  params.foldl
    (fun (n, fresh) p =>
      let (n, q) := n.addLike p
      (n, fresh.insert p q))
    (n, ∅)

/-- The substitution that replaces parameters by others. -/
def substitutionOf (fresh : Table GenericParam GenericParam) : Substitution :=
  ⟨fresh.entries.map fun e => (e.1, e.2.toArg)⟩

@[simp] theorem next_addType (n : Numbering) (name : String) :
    (n.addType name).1.next = n.next + 1 := by simp [addType, next]

@[simp] theorem next_addLifetime (n : Numbering) (name : String) :
    (n.addLifetime name).1.next = n.next + 1 := by simp [addLifetime, next]

end Numbering

end WhereClause
