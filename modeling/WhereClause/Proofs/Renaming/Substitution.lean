import Mathlib
import WhereClause.Proofs.Renaming.Terms
import WhereClause.Ty.Substitution

/-!
# Substitutions that rename

`Ty.Over` says of a term that no data structure occurs in it, and that all its parameters and
lifetimes have some property.  In such a term, a substitution that puts parameters in the place of
parameters of the same sort does nothing but rename, in every position and under every binder
(`Ty.subst_eq_rename`).
-/

namespace WhereClause

/-! ## What occurs in a term -/

section

variable (P : GenericParam → Prop)

mutual

/-- No data structure occurs in the type, and all type parameters and lifetimes that occur in it
have a property. -/
def Ty.Over : Ty → Prop
  | .infer => True
  | .str => True
  | .tuple ts => Ty.OverEach ts
  | .ref _ t l => t.Over ∧ ∀ k ∈ l, P (.lifetime k)
  | .deref t => t.Over
  | .dyn bs => Bound.OverEach bs
  | .data _ _ _ => False
  | .path p => p.Over
  | .param p => P (.type p)

def Ty.OverEach : List Ty → Prop
  | [] => True
  | t :: ts => t.Over ∧ Ty.OverEach ts

def Path.Over : Path → Prop
  | ⟨_, init, last⟩ => Segment.OverEach init ∧ last.Over

def Segment.Over : Segment → Prop
  | ⟨_, args⟩ => args.Over

def Segment.OverEach : List Segment → Prop
  | [] => True
  | s :: ss => s.Over ∧ Segment.OverEach ss

def Args.Over : Args → Prop
  | .none => True
  | .angle as => Arg.OverEach as
  | .paren inputs none => Ty.OverEach inputs
  | .paren inputs (some output) => Ty.OverEach inputs ∧ output.Over

def Arg.Over : Arg → Prop
  | .type t => t.Over
  | .lifetime l => P (.lifetime l)

def Arg.OverEach : List Arg → Prop
  | [] => True
  | a :: as => a.Over ∧ Arg.OverEach as

def Bound.Over : Bound → Prop
  | .trait p binder => p.Over ∧ ∀ l ∈ binder, P (.lifetime l)
  | .outlives l => P (.lifetime l)

def Bound.OverEach : List Bound → Prop
  | [] => True
  | b :: bs => b.Over ∧ Bound.OverEach bs

end

def Constraint.Over : Constraint → Prop
  | .type t bs binder => t.Over P ∧ Bound.OverEach P bs ∧ ∀ l ∈ binder, P (.lifetime l)
  | .lifetime l ls => P (.lifetime l) ∧ ∀ k ∈ ls, P (.lifetime k)

/-- A declaration in which no data structure occurs, and all type parameters and lifetimes have a
property, those that it declares among them. -/
def Generics.Over (g : Generics) : Prop :=
  Arg.OverEach P g.params ∧ ∀ c ∈ g.constraints, c.Over P

def Value.Over : Value → Prop
  | .type t => t.Over P
  | .lifetime l => P (.lifetime l)
  | .bound b => b.Over P
  | .constraint c => c.Over P
  | .path p => p.Over P
  | .segment s => s.Over P
  | .args as => as.Over P

end

/-! ## A substitution as a renaming -/

/-- A substitution puts parameters in the place of parameters, and lifetimes in the place of
lifetimes, as a renaming does. -/
structure Substitution.Renames (σ : Substitution) (ρ : Renaming) : Prop where
  param : ∀ p, σ.onParam p = .type (.param (ρ.onParam p))
  lifetimeArg : ∀ l, σ.onLifetimeArg l = .lifetime (ρ.onLifetime l)

lemma Substitution.Renames.onLifetime {σ : Substitution} {ρ : Renaming} (h : σ.Renames ρ) :
    σ.onLifetime = ρ.onLifetime := by
  funext l
  rw [Substitution.onLifetime, h.lifetimeArg]

section

variable {σ : Substitution} {ρ : Renaming} {P : GenericParam → Prop}

/-- As long as types are replaced by types, none stays as it is for want of one. -/
lemma Arg.zipWith_typeOr (ts us : List Ty) (h : ts.length = us.length) :
    List.zipWith Arg.typeOr ts (us.map .type) = us := by
  induction ts generalizing us with
  | nil => cases us <;> simp at h ⊢
  | cons t ts ih =>
    cases us with
    | nil => simp at h
    | cons u us =>
      rw [List.map_cons, List.zipWith_cons_cons, ih us (Nat.succ.inj h)]
      rfl

mutual

/-- Where no data structure occurs, nothing is refused, and only parameters are replaced. -/
lemma Ty.subst_eq_rename (hσ : σ.Renames ρ) (t : Ty) (h : t.Over P) :
    t.subst σ = .ok (.type (t.rename ρ)) := by
  cases t with
  | infer | str => rw [Ty.subst, Ty.rename]
  | tuple ts =>
    rw [Ty.subst, Ty.substEach_eq_rename hσ ts h, Ty.rename]
    show (do let t ← Refusal.ofMalformed (Ty.ofElements _); return Arg.type t) = _
    rw [Ty.ofElements_map_type]
    rfl
  | ref access t l =>
    rw [Ty.subst, Ty.subst_eq_rename hσ t h.1, Ty.rename, hσ.onLifetime]
    rfl
  | deref t =>
    rw [Ty.subst, Ty.subst_eq_rename hσ t h, Ty.rename]
    rfl
  | dyn bs =>
    rw [Ty.subst, Bound.substEach_eq_rename hσ bs h, Ty.rename]
    rfl
  | data name g fields => exact h.elim
  | path p =>
    rw [Ty.subst, Path.subst_eq_rename hσ p h, Ty.rename]
    rfl
  | param p => rw [Ty.subst, Ty.rename, hσ.param]
termination_by structural t

lemma Ty.substEach_eq_rename (hσ : σ.Renames ρ) (ts : List Ty) (h : Ty.OverEach P ts) :
    Ty.substEach σ ts = .ok ((Ty.renameEach ρ ts).map .type) := by
  cases ts with
  | nil => rw [Ty.substEach, Ty.renameEach, List.map_nil]
  | cons t ts =>
    rw [Ty.substEach, Ty.subst_eq_rename hσ t h.1, Ty.substEach_eq_rename hσ ts h.2, Ty.renameEach]
    rfl
termination_by structural ts

lemma Path.subst_eq_rename (hσ : σ.Renames ρ) (p : Path) (h : p.Over P) :
    p.subst σ = .ok (p.rename ρ) := by
  obtain ⟨isGlobal, init, last⟩ := p
  rw [Path.subst, Segment.substEach_eq_rename hσ init h.1, Path.rename]
  show (do let last ← last.subst σ; return Path.mk isGlobal _ last) = _
  rw [Segment.subst_eq_rename hσ last h.2]
  rfl
termination_by structural p

lemma Segment.subst_eq_rename (hσ : σ.Renames ρ) (s : Segment) (h : s.Over P) :
    s.subst σ = .ok (s.rename ρ) := by
  obtain ⟨name, args⟩ := s
  rw [Segment.subst, Args.subst_eq_rename hσ args h, Segment.rename]
  rfl
termination_by structural s

lemma Segment.substEach_eq_rename (hσ : σ.Renames ρ) (ss : List Segment)
    (h : Segment.OverEach P ss) :
    Segment.substEach σ ss = .ok (Segment.renameEach ρ ss) := by
  cases ss with
  | nil => rw [Segment.substEach, Segment.renameEach]
  | cons s ss =>
    rw [Segment.substEach, Segment.subst_eq_rename hσ s h.1, Segment.substEach_eq_rename hσ ss h.2,
      Segment.renameEach]
    rfl
termination_by structural ss

lemma Args.subst_eq_rename (hσ : σ.Renames ρ) (as : Args) (h : as.Over P) :
    as.subst σ = .ok (as.rename ρ) := by
  cases as with
  | none => rw [Args.subst, Args.rename]
  | angle as =>
    rw [Args.subst, Arg.substEach_eq_rename hσ as h, Args.rename]
    rfl
  | paren inputs output =>
    have hinputs : List.zipWith Arg.typeOr inputs ((Ty.renameEach ρ inputs).map .type) =
        Ty.renameEach ρ inputs :=
      Arg.zipWith_typeOr _ _ (by rw [Ty.renameEach_eq_map, List.length_map])
    cases output with
    | none =>
      rw [Args.subst, Ty.substEach_eq_rename hσ inputs h, Args.rename, Ty.renameOption]
      show Except.ok (Args.paren (List.zipWith Arg.typeOr inputs _) none) = _
      rw [hinputs]
    | some output =>
      rw [Args.subst, Ty.substEach_eq_rename hσ inputs h.1, Ty.subst_eq_rename hσ output h.2,
        Args.rename, Ty.renameOption]
      show Except.ok (Args.paren (List.zipWith Arg.typeOr inputs _) (some _)) = _
      rw [hinputs]
      rfl
termination_by structural as

lemma Arg.subst_eq_rename (hσ : σ.Renames ρ) (a : Arg) (h : a.Over P) :
    a.subst σ = .ok (a.rename ρ) := by
  cases a with
  | type t => rw [Arg.subst, Ty.subst_eq_rename hσ t h, Arg.rename]
  | lifetime l => rw [Arg.subst, hσ.lifetimeArg, Arg.rename]
termination_by structural a

lemma Arg.substEach_eq_rename (hσ : σ.Renames ρ) (as : List Arg) (h : Arg.OverEach P as) :
    Arg.substEach σ as = .ok (Arg.renameEach ρ as) := by
  cases as with
  | nil => rw [Arg.substEach, Arg.renameEach]
  | cons a as =>
    rw [Arg.substEach, Arg.subst_eq_rename hσ a h.1, Arg.substEach_eq_rename hσ as h.2,
      Arg.renameEach]
    rfl
termination_by structural as

lemma Bound.subst_eq_rename (hσ : σ.Renames ρ) (b : Bound) (h : b.Over P) :
    b.subst σ = .ok (b.rename ρ) := by
  cases b with
  | trait p binder =>
    rw [Bound.subst, Path.subst_eq_rename hσ p h.1, Bound.rename, hσ.onLifetime]
    rfl
  | outlives l => rw [Bound.subst, Bound.rename, hσ.onLifetime]
termination_by structural b

lemma Bound.substEach_eq_rename (hσ : σ.Renames ρ) (bs : List Bound) (h : Bound.OverEach P bs) :
    Bound.substEach σ bs = .ok (Bound.renameEach ρ bs) := by
  cases bs with
  | nil => rw [Bound.substEach, Bound.renameEach]
  | cons b bs =>
    rw [Bound.substEach, Bound.subst_eq_rename hσ b h.1, Bound.substEach_eq_rename hσ bs h.2,
      Bound.renameEach]
    rfl
termination_by structural bs

end

lemma Constraint.subst_eq_rename (hσ : σ.Renames ρ) {c : Constraint} (h : c.Over P) :
    c.subst σ = .ok (c.rename ρ) := by
  cases c with
  | type t bs binder =>
    rw [Constraint.subst, Ty.subst_eq_rename hσ t h.1, Bound.substEach_eq_rename hσ bs h.2.1,
      Constraint.rename, hσ.onLifetime]
    rfl
  | lifetime l ls => rw [Constraint.subst, Constraint.rename, hσ.onLifetime]

lemma Constraint.substEach_eq_rename (hσ : σ.Renames ρ) {cs : List Constraint}
    (h : ∀ c ∈ cs, c.Over P) : Constraint.substEach σ cs = .ok (Constraint.renameEach ρ cs) := by
  induction cs with
  | nil => rw [Constraint.substEach, Constraint.renameEach]
  | cons c cs ih =>
    obtain ⟨hc, hcs⟩ := List.forall_mem_cons.1 h
    rw [Constraint.substEach, Constraint.subst_eq_rename hσ hc, ih hcs, Constraint.renameEach]
    rfl

lemma Generics.subst_eq_rename (hσ : σ.Renames ρ) {g : Generics} (h : g.Over P) :
    g.subst σ = .ok (g.rename ρ) := by
  obtain ⟨params, constraints⟩ := g
  rw [Generics.subst, Arg.substEach_eq_rename hσ params h.1,
    Constraint.substEach_eq_rename hσ h.2, Generics.rename]
  rfl

lemma Value.subst_eq_rename (hσ : σ.Renames ρ) {v : Value} (h : v.Over P) :
    v.subst σ = .ok (v.rename ρ) := by
  cases v with
  | type t =>
    rw [Value.subst, Ty.subst_eq_rename hσ t h]
    rfl
  | lifetime l =>
    rw [Value.subst, hσ.lifetimeArg]
    rfl
  | bound b =>
    rw [Value.subst, Bound.subst_eq_rename hσ b h]
    rfl
  | constraint c =>
    rw [Value.subst, Constraint.subst_eq_rename hσ h]
    rfl
  | path p =>
    rw [Value.subst, Path.subst_eq_rename hσ p h]
    rfl
  | segment s =>
    rw [Value.subst, Segment.subst_eq_rename hσ s h]
    rfl
  | args as =>
    rw [Value.subst, Args.subst_eq_rename hσ as h]
    rfl

end

end WhereClause
