import WhereClause.Table
import WhereClause.Malformed
import WhereClause.Failure.Cause

/-!
# Substitution

A substitution puts arguments in the place of type parameters and lifetimes. It reaches every part
of a term but one: the declared parameters of a data structure cannot be replaced, so a type in
which a data structure occurs has no instances.

A parameter stands where a type or a lifetime is required. A tuple or a reference that would come
to hold a lifetime in the place of a type is refused; elsewhere a replacement of the wrong sort is
not made, and the parameter stays as it is.
-/

namespace WhereClause

/-- What to put in the place of which parameter. -/
abbrev Substitution := Table GenericParam Arg

namespace Substitution

/-- What a type parameter becomes. -/
def onParam (σ : Substitution) (p : Param) : Arg :=
  (σ.get? (.type p)).getD (.type (.param p))

/-- What a lifetime becomes as a generic argument. -/
def onLifetimeArg (σ : Substitution) (l : Lifetime) : Arg :=
  (σ.get? (.lifetime l)).getD (.lifetime l)

/-- What a lifetime becomes where only a lifetime can stand. -/
def onLifetime (σ : Substitution) (l : Lifetime) : Lifetime :=
  match σ.onLifetimeArg l with
  | .lifetime k => k
  | .type _ => l

end Substitution

/-- Why a term has no instance under a substitution. -/
inductive Refusal where
  | failed (cause : Cause)
  | malformed (reason : Malformed)

/-- The type that an argument is, and `t` in the place of a lifetime. -/
def Arg.typeOr (t : Ty) : Arg → Ty
  | .type u => u
  | .lifetime _ => t

/-- Checked constructions are part of a substitution. -/
def Refusal.ofMalformed {α : Type} : Except Malformed α → Except Refusal α
  | .ok a => .ok a
  | .error e => .error (.malformed e)

mutual

/-- The instance of a type. It is an argument, since a bare parameter may become a lifetime. -/
def Ty.subst (σ : Substitution) : Ty → Except Refusal Arg
  | .infer => .ok (.type .infer)
  | .str => .ok (.type .str)
  | .tuple ts => do
    let elements ← Ty.substEach σ ts
    let t ← Refusal.ofMalformed (Ty.ofElements elements)
    return .type t
  | .ref access t lifetime => do
    let pointee ← Ty.subst σ t
    let t ← Refusal.ofMalformed (Ty.ofPointee access (lifetime.map σ.onLifetime) pointee)
    return .type t
  | .deref t => do
    let inner ← Ty.subst σ t
    return .type (.deref (inner.typeOr t))
  | .dyn bs => do
    let bounds ← Bound.substEach σ bs
    return .type (.dyn bounds)
  | .data name g fields => .error (.failed (.fixedGenerics (.data name g fields)))
  | .path p => do
    let path ← Path.subst σ p
    return .type (.path path)
  | .param p => .ok (σ.onParam p)

def Ty.substEach (σ : Substitution) : List Ty → Except Refusal (List Arg)
  | [] => .ok []
  | t :: ts => do
    let a ← Ty.subst σ t
    let as ← Ty.substEach σ ts
    return a :: as

def Path.subst (σ : Substitution) : Path → Except Refusal Path
  | ⟨isGlobal, init, last⟩ => do
    let init ← Segment.substEach σ init
    let last ← Segment.subst σ last
    return ⟨isGlobal, init, last⟩

def Segment.subst (σ : Substitution) : Segment → Except Refusal Segment
  | ⟨name, args⟩ => do
    let args ← Args.subst σ args
    return ⟨name, args⟩

def Segment.substEach (σ : Substitution) : List Segment → Except Refusal (List Segment)
  | [] => .ok []
  | s :: ss => do
    let s ← Segment.subst σ s
    let ss ← Segment.substEach σ ss
    return s :: ss

def Args.subst (σ : Substitution) : Args → Except Refusal Args
  | .none => .ok .none
  | .angle as => do
    let as ← Arg.substEach σ as
    return .angle as
  | .paren inputs none => do
    let ins ← Ty.substEach σ inputs
    return .paren (List.zipWith Arg.typeOr inputs ins) none
  | .paren inputs (some output) => do
    let out ← Ty.subst σ output
    let ins ← Ty.substEach σ inputs
    return .paren (List.zipWith Arg.typeOr inputs ins) (some (out.typeOr output))

def Arg.subst (σ : Substitution) : Arg → Except Refusal Arg
  | .type t => Ty.subst σ t
  | .lifetime l => .ok (σ.onLifetimeArg l)

def Arg.substEach (σ : Substitution) : List Arg → Except Refusal (List Arg)
  | [] => .ok []
  | a :: as => do
    let a ← Arg.subst σ a
    let as ← Arg.substEach σ as
    return a :: as

def Bound.subst (σ : Substitution) : Bound → Except Refusal Bound
  | .trait p binder => do
    let path ← Path.subst σ p
    return .trait path (binder.map σ.onLifetime)
  | .outlives l => .ok (.outlives (σ.onLifetime l))

def Bound.substEach (σ : Substitution) : List Bound → Except Refusal (List Bound)
  | [] => .ok []
  | b :: bs => do
    let b ← Bound.subst σ b
    let bs ← Bound.substEach σ bs
    return b :: bs

end

def Constraint.subst (σ : Substitution) : Constraint → Except Refusal Constraint
  | .type t bs binder => do
    let bounded ← t.subst σ
    let bounds ← Bound.substEach σ bs
    return .type (bounded.typeOr t) bounds (binder.map σ.onLifetime)
  | .lifetime l ls => .ok (.lifetime (σ.onLifetime l) (ls.map σ.onLifetime))

def Constraint.substEach (σ : Substitution) : List Constraint → Except Refusal (List Constraint)
  | [] => .ok []
  | c :: cs => do
    let c ← c.subst σ
    let cs ← Constraint.substEach σ cs
    return c :: cs

/-- The instance of a declaration; its declared parameters are replaced along with the rest. -/
def Generics.subst (σ : Substitution) (g : Generics) : Except Refusal Generics := do
  let params ← Arg.substEach σ g.params
  let constraints ← Constraint.substEach σ g.constraints
  return ⟨params, constraints⟩

/-- The instance of any value; a lone parameter becomes whatever stands in its place. -/
def Value.subst (σ : Substitution) : Value → Except Refusal Value
  | .type t => do return (← t.subst σ).toValue
  | .lifetime l => .ok (σ.onLifetimeArg l).toValue
  | .bound b => do return .bound (← b.subst σ)
  | .constraint c => do return .constraint (← c.subst σ)
  | .path p => do return .path (← p.subst σ)
  | .segment s => do return .segment (← s.subst σ)
  | .args a => do return .args (← a.subst σ)

end WhereClause
