import WhereClause.Scope.Numbering
import WhereClause.Path.Name

/-!
# Generic parameters in scope

The names that are in scope at a declaration tell a parameter `T` from a type that happens to be
called `T`. Scopes nest: a method sees the parameters of the implementation around it. All the
scopes of a run share one numbering.

A scope is known by the order in which it was opened, and the one around it was opened before it, so
the scopes are kept newest first and a look-up goes down the list.
-/

namespace WhereClause

/-- The parameters declared in one scope, and the scope around it. -/
structure ParamMap where
  outer : Option Nat
  bindings : Table String GenericParam

/-- The scopes of a run, newest first, with the numbering that they share. -/
structure Scopes where
  numbering : Numbering
  maps : List ParamMap

/-- Why a name could not be declared, or has no meaning. -/
inductive ScopeError where
  | declaredTwice (name : String)
  | undeclared (name : String)
  | notPath (reason : Malformed)

/-- What is said about a scope error. -/
def ScopeError.message : ScopeError → String
  | .declaredTwice name => "Generic parameter " ++ Text.quoted name ++ " is declared twice."
  | .undeclared name => name
  | .notPath reason => reason.message

namespace Scopes

def empty : Scopes := ⟨∅, []⟩

instance : EmptyCollection Scopes := ⟨empty⟩

instance : Inhabited Scopes := ⟨empty⟩

/-- The scope opened as number `i`, counting from zero, of scopes listed newest first. -/
def mapAt? (i : Nat) : List ParamMap → Option ParamMap
  | [] => none
  | m :: older => if i = older.length then some m else mapAt? i older

/-- Changes the bindings of the scope opened as number `i`. -/
def modifyAt (i : Nat) (f : Table String GenericParam → Table String GenericParam) :
    List ParamMap → List ParamMap
  | [] => []
  | m :: older =>
    if i = older.length then { m with bindings := f m.bindings } :: older
    else m :: modifyAt i f older

/-- What a name means in the scope opened as number `i`: the declaration in the nearest scope,
looking from there outward. -/
def lookupIn (name : String) (i : Nat) : List ParamMap → Option GenericParam
  | [] => none
  | m :: older =>
    if i = older.length then
      match m.bindings.get? name, m.outer with
      | some p, _ => some p
      | none, some j => lookupIn name j older
      | none, none => none
    else lookupIn name i older

/-- Opens a scope, inside another or on its own; the answer is its number. -/
def openMap (s : Scopes) (outer : Option Nat) : Scopes × Nat :=
  ({ s with maps := ⟨outer, ∅⟩ :: s.maps }, s.maps.length)

/-- What a name means in a scope, if anything. -/
def lookup (s : Scopes) (i : Nat) (name : String) : Option GenericParam :=
  lookupIn name i s.maps

/-- The bindings that a scope makes itself. -/
def bindings (s : Scopes) (i : Nat) : Table String GenericParam :=
  ((mapAt? i s.maps).map ParamMap.bindings).getD ∅

/-- Hands out the parameter that a name declares: a lifetime if it is written with an
apostrophe. -/
def addNamed (n : Numbering) (name : String) : Numbering × GenericParam :=
  if name.toList.head? == some '\x27' then
    let (n, l) := n.addLifetime name; (n, .lifetime l)
  else
    let (n, p) := n.addType name; (n, .type p)

/-- Declares a name in a scope, which must not have declared it before. -/
def declare (s : Scopes) (i : Nat) (name : String) : Except ScopeError (Scopes × GenericParam) :=
  if (s.bindings i).contains name then .error (.declaredTwice name)
  else
    let (n, p) := addNamed s.numbering name
    .ok (⟨n, modifyAt i (·.insert name p) s.maps⟩, p)

/-- Declares names in order, up to the first that cannot be declared. What was declared before a
failure stays declared. -/
def declareAll (s : Scopes) (i : Nat) :
    List String → Scopes × Except ScopeError (List GenericParam)
  | [] => (s, .ok [])
  | name :: names =>
    match s.declare i name with
    | .error e => (s, .error e)
    | .ok (s, p) =>
      let (s, rest) := s.declareAll i names
      (s, rest.map (p :: ·))

/-- What a name means in a scope, where it has to mean something. -/
def get (s : Scopes) (i : Nat) (name : String) : Except ScopeError GenericParam :=
  match s.lookup i name with
  | some p => .ok p
  | none => .error (.undeclared name)

/-- The type of a name: the type parameter in scope by that name, or else a plain path. -/
def typeNamed (s : Scopes) (i : Nat) (name : String) : Except ScopeError Ty :=
  match s.lookup i name with
  | some (.type p) => .ok (.param p)
  | _ =>
    match Path.ofText name with
    | .ok path => .ok (.path path)
    | .error e => .error (.notPath e)

end Scopes

end WhereClause
