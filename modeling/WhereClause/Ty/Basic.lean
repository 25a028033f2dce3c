/-!
# Types, paths, bounds and constraints

The terms over which where-clauses are inferred. A type mentions paths, a path carries generic
arguments, an argument is a type or a lifetime, and a trait object or a data structure carries
bounds and constraints, so the terms form one mutual family.

Type parameters and lifetimes are identified by a number. Their name is only for show: it is kept
so that a term can be rendered, and equality does not look at it (`Ty/Same`).

## Main declarations

* `Param`, `Lifetime`: what a generic declaration introduces.
* `Ty`, `Path`, `Args`, `Bound`, `Constraint`, `Generics`: the terms.
-/

namespace WhereClause

/-- A type parameter: the number identifies it, the name is for show. -/
structure Param where
  number : Int
  name : String

/-- A lifetime parameter: the number identifies it, the name (without apostrophe) is for show. -/
structure Lifetime where
  number : Int
  name : String

/-- Whether a reference grants shared or exclusive access to what it points to. -/
inductive Access where
  | shared
  | mutable
  deriving DecidableEq

mutual

/-- A type as it is written in a signature or found for an argument. -/
inductive Ty where
  /-- The placeholder `_`: nothing is known, so anything is more concrete. -/
  | infer
  /-- The string type. -/
  | str
  | tuple (elements : List Ty)
  | ref (access : Access) (inner : Ty) (lifetime : Option Lifetime)
  | deref (inner : Ty)
  /-- A trait object: some type of which only its bounds are known. -/
  | dyn (bounds : List Bound)
  /-- A data structure, complete with its generic declarations and its fields. -/
  | data (name : String) (generics : Generics) (fields : List Field)
  | path (path : Path)
  | param (param : Param)

/-- A field of a data structure; the fields of a tuple-like structure have no name. -/
structure Field where
  name : Option String
  ty : Ty

/-- A qualified name. The last segment stands apart, so no path is empty. -/
structure Path where
  isGlobal : Bool
  init : List Segment
  last : Segment

/-- One name of a path with its generic arguments. -/
structure Segment where
  name : String
  args : Args

/-- The generic arguments of a segment. An empty pair of angle brackets is not the same as none. -/
inductive Args where
  | none
  /-- Arguments between angle brackets, as in `Map<K, V>`. -/
  | angle (args : List Arg)
  /-- Arguments of a function-like trait, as in `Fn(A, B) -> C`. -/
  | paren (inputs : List Ty) (output : Option Ty)

/-- A generic argument. -/
inductive Arg where
  | type (ty : Ty)
  | lifetime (lifetime : Lifetime)

/-- What a type is required to satisfy: a trait, maybe under a binder of lifetimes, or to outlive
a lifetime. -/
inductive Bound where
  | trait (path : Path) (binder : List Lifetime)
  | outlives (lifetime : Lifetime)

/-- One predicate of a where-clause. -/
inductive Constraint where
  | type (bounded : Ty) (bounds : List Bound) (binder : List Lifetime)
  | lifetime (lifetime : Lifetime) (bounds : List Lifetime)

/-- A generic declaration: what it introduces and what it requires. The declared parameters are
kept as arguments, because a substitution may put a proper type in the place of one. -/
structure Generics where
  params : List Arg
  constraints : List Constraint

end

/-- What a generic declaration can introduce. -/
inductive GenericParam where
  | type (param : Param)
  | lifetime (lifetime : Lifetime)

namespace GenericParam

/-- The identifying number; types and lifetimes are numbered alike. -/
def number : GenericParam → Int
  | .type p => p.number
  | .lifetime l => l.number

def name : GenericParam → String
  | .type p => p.name
  | .lifetime l => l.name

/-- The parameter as a generic argument. -/
def toArg : GenericParam → Arg
  | .type p => .type (.param p)
  | .lifetime l => .lifetime l

end GenericParam

/-! ## Declared type parameters -/

/-- The type parameter that an argument is, if it is one. -/
def Arg.param? : Arg → Option Param
  | .type (.param p) => some p
  | _ => none

/-- The type parameters that a declaration introduces, in order. -/
def Generics.typeParams (g : Generics) : List Param :=
  g.params.filterMap Arg.param?

/-! ## Paths -/

namespace Path

def segments (p : Path) : List Segment :=
  p.init ++ [p.last]

/-- The path one level below. -/
def child (p : Path) (name : String) : Path :=
  { p with init := p.segments, last := ⟨name, .none⟩ }

/-- The same path with other arguments on its last segment. -/
def withArgs (p : Path) (args : Args) : Path :=
  { p with last := ⟨p.last.name, args⟩ }

/-- A path of one segment; arguments come between angle brackets if there are any. -/
def ofName (name : String) (args : List Arg) : Path :=
  ⟨false, [], ⟨name, if args.isEmpty then .none else .angle args⟩⟩

end Path

/-- Whether a segment has no arguments at all. -/
def Args.isNone : Args → Bool
  | .none => true
  | _ => false

end WhereClause
