import Mathlib.Tactic.Common
import WhereClause.Proofs.Table
import WhereClause.Proofs.Renaming.Substitution

/-!
# Substitutions that put types for types

A substitution that puts types in the place of type parameters, and lifetimes in the place of
lifetimes, cannot make a malformed term.  All that can go wrong is that it comes upon a data
structure, and it comes upon every data structure there is; otherwise the instance is what filling
in the parameters makes of the term (`Ty.subst_refusedIf`).

## Main declarations

* `Ty.hasData`: a data structure occurs in the type.
* `Filling`, `Ty.fill`: what stands for each parameter, and the type in which it stands there.
* `Substitution.RespectsSorts`: types for type parameters and lifetimes for lifetimes.
* `Ty.subst_refusedIf`: the instance is the filled type, or is refused for a data structure.
-/

namespace WhereClause

/-! ## Data structures in a term -/

mutual

/-- A data structure occurs in the type: it may be the type itself, or a part of a tuple, of what
is pointed to, of a bound or of an argument. -/
def Ty.hasData : Ty → Bool
  | .infer => false
  | .str => false
  | .tuple ts => Ty.hasDataEach ts
  | .ref _ t _ => t.hasData
  | .deref t => t.hasData
  | .dyn bs => Bound.hasDataEach bs
  | .data _ _ _ => true
  | .path p => p.hasData
  | .param _ => false

def Ty.hasDataEach : List Ty → Bool
  | [] => false
  | t :: ts => t.hasData || Ty.hasDataEach ts

def Path.hasData : Path → Bool
  | ⟨_, init, last⟩ => Segment.hasDataEach init || last.hasData

def Segment.hasData : Segment → Bool
  | ⟨_, args⟩ => args.hasData

def Segment.hasDataEach : List Segment → Bool
  | [] => false
  | s :: ss => s.hasData || Segment.hasDataEach ss

def Args.hasData : Args → Bool
  | .none => false
  | .angle as => Arg.hasDataEach as
  | .paren inputs none => Ty.hasDataEach inputs
  | .paren inputs (some output) => output.hasData || Ty.hasDataEach inputs

def Arg.hasData : Arg → Bool
  | .type t => t.hasData
  | .lifetime _ => false

def Arg.hasDataEach : List Arg → Bool
  | [] => false
  | a :: as => a.hasData || Arg.hasDataEach as

def Bound.hasData : Bound → Bool
  | .trait p _ => p.hasData
  | .outlives _ => false

def Bound.hasDataEach : List Bound → Bool
  | [] => false
  | b :: bs => b.hasData || Bound.hasDataEach bs

end

/-! ## Filling in the parameters -/

/-- A type to stand for each type parameter and a lifetime to stand for each lifetime. -/
structure Filling where
  onParam : Param → Ty
  onLifetime : Lifetime → Lifetime

section

variable (φ : Filling)

mutual

/-- The type with its parameters filled in; a data structure stays as it is. -/
def Ty.fill : Ty → Ty
  | .infer => .infer
  | .str => .str
  | .tuple ts => .tuple (Ty.fillEach ts)
  | .ref access t l => .ref access t.fill (l.map φ.onLifetime)
  | .deref t => .deref t.fill
  | .dyn bs => .dyn (Bound.fillEach bs)
  | .data name g fields => .data name g fields
  | .path p => .path p.fill
  | .param p => φ.onParam p

def Ty.fillEach : List Ty → List Ty
  | [] => []
  | t :: ts => t.fill :: Ty.fillEach ts

def Path.fill : Path → Path
  | ⟨isGlobal, init, last⟩ => ⟨isGlobal, Segment.fillEach init, last.fill⟩

def Segment.fill : Segment → Segment
  | ⟨name, args⟩ => ⟨name, args.fill⟩

def Segment.fillEach : List Segment → List Segment
  | [] => []
  | s :: ss => s.fill :: Segment.fillEach ss

def Args.fill : Args → Args
  | .none => .none
  | .angle as => .angle (Arg.fillEach as)
  | .paren inputs none => .paren (Ty.fillEach inputs) none
  | .paren inputs (some output) => .paren (Ty.fillEach inputs) (some output.fill)

def Arg.fill : Arg → Arg
  | .type t => .type t.fill
  | .lifetime l => .lifetime (φ.onLifetime l)

def Arg.fillEach : List Arg → List Arg
  | [] => []
  | a :: as => a.fill :: Arg.fillEach as

def Bound.fill : Bound → Bound
  | .trait p binder => .trait p.fill (binder.map φ.onLifetime)
  | .outlives l => .outlives (φ.onLifetime l)

def Bound.fillEach : List Bound → List Bound
  | [] => []
  | b :: bs => b.fill :: Bound.fillEach bs

end

lemma Ty.length_fillEach (ts : List Ty) : (Ty.fillEach φ ts).length = ts.length := by
  induction ts with
  | nil => rfl
  | cons t ts ih => rw [Ty.fillEach, List.length_cons, List.length_cons, ih]

end

/-! ## Types for types and lifetimes for lifetimes -/

/-- An argument is of the sort of a parameter. -/
def GenericParam.Takes : GenericParam → Arg → Prop
  | .type _, .type _ => True
  | .lifetime _, .lifetime _ => True
  | _, _ => False

namespace Substitution

/-- Types are put in the place of type parameters, and lifetimes in the place of lifetimes. -/
def RespectsSorts (σ : Substitution) : Prop := ∀ e ∈ σ.entries, e.1.Takes e.2

/-- What a substitution puts in the place of which parameter. -/
def filling (σ : Substitution) : Filling where
  onParam p := (σ.onParam p).typeOr (.param p)
  onLifetime := σ.onLifetime

variable {σ : Substitution}

lemma RespectsSorts.onParam (h : σ.RespectsSorts) (p : Param) :
    σ.onParam p = .type (σ.filling.onParam p) := by
  show σ.onParam p = .type ((σ.onParam p).typeOr (.param p))
  rw [Substitution.onParam]
  cases hp : σ.get? (.type p) with
  | none => rfl
  | some a =>
    obtain ⟨⟨key, value⟩, he, hkey, rfl⟩ := Table.exists_mem_of_lookup hp
    have hsort := h _ he
    cases key with
    | lifetime l => cases hkey
    | type q =>
      cases value with
      | type t => rfl
      | lifetime l => exact hsort.elim

lemma RespectsSorts.onLifetimeArg (h : σ.RespectsSorts) (l : Lifetime) :
    σ.onLifetimeArg l = .lifetime (σ.onLifetime l) := by
  rw [Substitution.onLifetime, Substitution.onLifetimeArg]
  cases hl : σ.get? (.lifetime l) with
  | none => rfl
  | some a =>
    obtain ⟨⟨key, value⟩, he, hkey, rfl⟩ := Table.exists_mem_of_lookup hl
    have hsort := h _ he
    cases key with
    | type q => cases hkey
    | lifetime k =>
      cases value with
      | type t => exact hsort.elim
      | lifetime k => rfl

end Substitution

/-! ## The instance, or a data structure to blame -/

/-- A result is refused for a data structure if `b`, and is `a` otherwise. -/
def RefusedIf {α : Type} (b : Bool) (x : Except Refusal α) (a : α) : Prop :=
  match b with
  | true => ∃ t, x = .error (.failed (.fixedGenerics t))
  | false => x = .ok a

namespace RefusedIf

variable {α β : Type} {b c : Bool} {x : Except Refusal α} {a : α} {k : α → Except Refusal β} {y : β}

/-- What comes first is refused first. -/
lemma bind (hx : RefusedIf b x a) (hk : RefusedIf c (k a) y) : RefusedIf (b || c) (x >>= k) y := by
  cases b with
  | true =>
    obtain ⟨t, rfl⟩ := hx
    exact ⟨t, rfl⟩
  | false =>
    obtain rfl : x = .ok a := hx
    exact hk

/-- A step that is never refused. -/
lemma bind_ok (hx : RefusedIf b x a) (hk : k a = .ok y) : RefusedIf b (x >>= k) y := by
  have h : RefusedIf (b || false) (x >>= k) y := hx.bind hk
  rwa [Bool.or_false] at h

lemma eq_ok (hx : RefusedIf b x a) (hb : b = false) : x = .ok a := by
  subst hb
  exact hx

/-- What is refused for a data structure is refused as unsupported, and nothing else is. -/
lemma unsupported_iff (hx : RefusedIf b x a) :
    (∃ cause, x = .error (.failed cause) ∧ cause.kind = .unsupported) ↔ b = true := by
  cases b with
  | true =>
    obtain ⟨t, rfl⟩ := hx
    exact ⟨fun _ => rfl, fun _ => ⟨_, rfl, rfl⟩⟩
  | false =>
    obtain rfl : x = .ok a := hx
    constructor
    · rintro ⟨cause, hcause, -⟩
      cases hcause
    · intro h
      cases h

end RefusedIf

section

variable {σ : Substitution}

mutual

/-- The instance of a type is the type with its parameters filled in, and is refused if, and only
if, a data structure occurs in it. -/
lemma Ty.subst_refusedIf (hσ : σ.RespectsSorts) (t : Ty) :
    RefusedIf t.hasData (t.subst σ) (.type (t.fill σ.filling)) := by
  cases t with
  | infer | str => exact rfl
  | tuple ts =>
    rw [Ty.hasData, Ty.subst, Ty.fill]
    refine (Ty.substEach_refusedIf hσ ts).bind_ok ?_
    rw [Ty.ofElements_map_type]
    rfl
  | ref access t l =>
    rw [Ty.hasData, Ty.subst, Ty.fill]
    exact (Ty.subst_refusedIf hσ t).bind_ok rfl
  | deref t =>
    rw [Ty.hasData, Ty.subst, Ty.fill]
    exact (Ty.subst_refusedIf hσ t).bind_ok rfl
  | dyn bs =>
    rw [Ty.hasData, Ty.subst, Ty.fill]
    exact (Bound.substEach_refusedIf hσ bs).bind_ok rfl
  | data name g fields => exact ⟨_, rfl⟩
  | path p =>
    rw [Ty.hasData, Ty.subst, Ty.fill]
    exact (Path.subst_refusedIf hσ p).bind_ok rfl
  | param p =>
    rw [Ty.hasData, Ty.subst, Ty.fill, ← hσ.onParam]
    exact rfl
termination_by structural t

lemma Ty.substEach_refusedIf (hσ : σ.RespectsSorts) (ts : List Ty) :
    RefusedIf (Ty.hasDataEach ts) (Ty.substEach σ ts)
      ((Ty.fillEach σ.filling ts).map .type) := by
  cases ts with
  | nil => exact rfl
  | cons t ts =>
    rw [Ty.hasDataEach, Ty.substEach, Ty.fillEach]
    exact (Ty.subst_refusedIf hσ t).bind ((Ty.substEach_refusedIf hσ ts).bind_ok rfl)
termination_by structural ts

lemma Path.subst_refusedIf (hσ : σ.RespectsSorts) (p : Path) :
    RefusedIf p.hasData (p.subst σ) (p.fill σ.filling) := by
  obtain ⟨isGlobal, init, last⟩ := p
  rw [Path.hasData, Path.subst, Path.fill]
  exact (Segment.substEach_refusedIf hσ init).bind ((Segment.subst_refusedIf hσ last).bind_ok rfl)
termination_by structural p

lemma Segment.subst_refusedIf (hσ : σ.RespectsSorts) (s : Segment) :
    RefusedIf s.hasData (s.subst σ) (s.fill σ.filling) := by
  obtain ⟨name, args⟩ := s
  rw [Segment.hasData, Segment.subst, Segment.fill]
  exact (Args.subst_refusedIf hσ args).bind_ok rfl
termination_by structural s

lemma Segment.substEach_refusedIf (hσ : σ.RespectsSorts) (ss : List Segment) :
    RefusedIf (Segment.hasDataEach ss) (Segment.substEach σ ss)
      (Segment.fillEach σ.filling ss) := by
  cases ss with
  | nil => exact rfl
  | cons s ss =>
    rw [Segment.hasDataEach, Segment.substEach, Segment.fillEach]
    exact (Segment.subst_refusedIf hσ s).bind ((Segment.substEach_refusedIf hσ ss).bind_ok rfl)
termination_by structural ss

lemma Args.subst_refusedIf (hσ : σ.RespectsSorts) (as : Args) :
    RefusedIf as.hasData (as.subst σ) (as.fill σ.filling) := by
  cases as with
  | none => exact rfl
  | angle as =>
    rw [Args.hasData, Args.subst, Args.fill]
    exact (Arg.substEach_refusedIf hσ as).bind_ok rfl
  | paren inputs output =>
    have hinputs : List.zipWith Arg.typeOr inputs ((Ty.fillEach σ.filling inputs).map .type) =
        Ty.fillEach σ.filling inputs :=
      Arg.zipWith_typeOr _ _ (Ty.length_fillEach _ inputs).symm
    cases output with
    | none =>
      rw [Args.hasData, Args.subst, Args.fill, ← hinputs]
      exact (Ty.substEach_refusedIf hσ inputs).bind_ok rfl
    | some output =>
      -- the output comes before the inputs, which matters only for what is blamed
      rw [Args.hasData, Args.subst, Args.fill, ← hinputs]
      exact (Ty.subst_refusedIf hσ output).bind ((Ty.substEach_refusedIf hσ inputs).bind_ok rfl)
termination_by structural as

lemma Arg.subst_refusedIf (hσ : σ.RespectsSorts) (a : Arg) :
    RefusedIf a.hasData (a.subst σ) (a.fill σ.filling) := by
  cases a with
  | type t => exact Ty.subst_refusedIf hσ t
  | lifetime l =>
    rw [Arg.hasData, Arg.subst, Arg.fill, hσ.onLifetimeArg]
    exact rfl
termination_by structural a

lemma Arg.substEach_refusedIf (hσ : σ.RespectsSorts) (as : List Arg) :
    RefusedIf (Arg.hasDataEach as) (Arg.substEach σ as) (Arg.fillEach σ.filling as) := by
  cases as with
  | nil => exact rfl
  | cons a as =>
    rw [Arg.hasDataEach, Arg.substEach, Arg.fillEach]
    exact (Arg.subst_refusedIf hσ a).bind ((Arg.substEach_refusedIf hσ as).bind_ok rfl)
termination_by structural as

lemma Bound.subst_refusedIf (hσ : σ.RespectsSorts) (b : Bound) :
    RefusedIf b.hasData (b.subst σ) (b.fill σ.filling) := by
  cases b with
  | trait p binder =>
    rw [Bound.hasData, Bound.subst, Bound.fill]
    exact (Path.subst_refusedIf hσ p).bind_ok rfl
  | outlives l => exact rfl
termination_by structural b

lemma Bound.substEach_refusedIf (hσ : σ.RespectsSorts) (bs : List Bound) :
    RefusedIf (Bound.hasDataEach bs) (Bound.substEach σ bs) (Bound.fillEach σ.filling bs) := by
  cases bs with
  | nil => exact rfl
  | cons b bs =>
    rw [Bound.hasDataEach, Bound.substEach, Bound.fillEach]
    exact (Bound.subst_refusedIf hσ b).bind ((Bound.substEach_refusedIf hσ bs).bind_ok rfl)
termination_by structural bs

end

end

end WhereClause
