import Mathlib.Tactic.Common
import WhereClause.Ty.Renaming

/-!
# One name for one number

Equality does not look at names, but the text of a term is made of them.  Two equal terms have
one text if every number carries one name in both: they are then one term
(`Constraint.eq_of_beq`).  For a term is what its numbers and its shape make it once the names are
known: erasing all names and writing the known ones again gives it back.

## Main declarations

* `Ty.rename_rename`, and the like for every sort of term: two renamings in a row are one.
* `Renaming.naming`: the renaming that writes the name that goes with a number.
* `Constraint.Named`: every number in a constraint carries the name that goes with it.
-/

namespace WhereClause

/-! ## Two renamings in a row -/

/-- One renaming after another. -/
def Renaming.comp (ρ' ρ : Renaming) : Renaming where
  onParam := ρ'.onParam ∘ ρ.onParam
  onLifetime := ρ'.onLifetime ∘ ρ.onLifetime

section

variable (ρ' ρ : Renaming)

mutual

/-- Renaming twice is renaming once, in declarations and fields as well. -/
lemma Ty.rename_rename (t : Ty) : (t.rename ρ).rename ρ' = t.rename (ρ'.comp ρ) := by
  cases t with
  | infer | str => simp only [Ty.rename]
  | tuple ts => simp only [Ty.rename, Ty.renameEach_renameEach ts]
  | ref access t l =>
    simp only [Ty.rename, Ty.rename_rename t, Option.map_map, Renaming.comp]
  | deref t => simp only [Ty.rename, Ty.rename_rename t]
  | dyn bs => simp only [Ty.rename, Bound.renameEach_renameEach bs]
  | data name g fs =>
    simp only [Ty.rename, Generics.rename_rename g, Field.renameEach_renameEach fs]
  | path p => simp only [Ty.rename, Path.rename_rename p]
  | param p => simp only [Ty.rename, Renaming.comp, Function.comp_apply]
termination_by structural t

lemma Ty.renameEach_renameEach (ts : List Ty) :
    Ty.renameEach ρ' (Ty.renameEach ρ ts) = Ty.renameEach (ρ'.comp ρ) ts := by
  cases ts with
  | nil => simp only [Ty.renameEach]
  | cons t ts => simp only [Ty.renameEach, Ty.rename_rename t, Ty.renameEach_renameEach ts]
termination_by structural ts

lemma Ty.renameOption_renameOption (t : Option Ty) :
    Ty.renameOption ρ' (Ty.renameOption ρ t) = Ty.renameOption (ρ'.comp ρ) t := by
  cases t with
  | none => simp only [Ty.renameOption]
  | some t => simp only [Ty.renameOption, Ty.rename_rename t]
termination_by structural t

lemma Field.rename_rename (f : Field) : (f.rename ρ).rename ρ' = f.rename (ρ'.comp ρ) := by
  obtain ⟨name, t⟩ := f
  simp only [Field.rename, Ty.rename_rename t]
termination_by structural f

lemma Field.renameEach_renameEach (fs : List Field) :
    Field.renameEach ρ' (Field.renameEach ρ fs) = Field.renameEach (ρ'.comp ρ) fs := by
  cases fs with
  | nil => simp only [Field.renameEach]
  | cons f fs => simp only [Field.renameEach, Field.rename_rename f, Field.renameEach_renameEach fs]
termination_by structural fs

lemma Path.rename_rename (p : Path) : (p.rename ρ).rename ρ' = p.rename (ρ'.comp ρ) := by
  obtain ⟨isGlobal, init, last⟩ := p
  simp only [Path.rename, Segment.renameEach_renameEach init, Segment.rename_rename last]
termination_by structural p

lemma Segment.rename_rename (s : Segment) : (s.rename ρ).rename ρ' = s.rename (ρ'.comp ρ) := by
  obtain ⟨name, args⟩ := s
  simp only [Segment.rename, Args.rename_rename args]
termination_by structural s

lemma Segment.renameEach_renameEach (ss : List Segment) :
    Segment.renameEach ρ' (Segment.renameEach ρ ss) = Segment.renameEach (ρ'.comp ρ) ss := by
  cases ss with
  | nil => simp only [Segment.renameEach]
  | cons s ss =>
    simp only [Segment.renameEach, Segment.rename_rename s, Segment.renameEach_renameEach ss]
termination_by structural ss

lemma Args.rename_rename (as : Args) : (as.rename ρ).rename ρ' = as.rename (ρ'.comp ρ) := by
  cases as with
  | none => simp only [Args.rename]
  | angle as => simp only [Args.rename, Arg.renameEach_renameEach as]
  | paren inputs output =>
    simp only [Args.rename, Ty.renameEach_renameEach inputs, Ty.renameOption_renameOption output]
termination_by structural as

lemma Arg.rename_rename (a : Arg) : (a.rename ρ).rename ρ' = a.rename (ρ'.comp ρ) := by
  cases a with
  | type t => simp only [Arg.rename, Ty.rename_rename t]
  | lifetime l => simp only [Arg.rename, Renaming.comp, Function.comp_apply]
termination_by structural a

lemma Arg.renameEach_renameEach (as : List Arg) :
    Arg.renameEach ρ' (Arg.renameEach ρ as) = Arg.renameEach (ρ'.comp ρ) as := by
  cases as with
  | nil => simp only [Arg.renameEach]
  | cons a as => simp only [Arg.renameEach, Arg.rename_rename a, Arg.renameEach_renameEach as]
termination_by structural as

lemma Bound.rename_rename (b : Bound) : (b.rename ρ).rename ρ' = b.rename (ρ'.comp ρ) := by
  cases b with
  | trait p binder =>
    simp only [Bound.rename, Path.rename_rename p, List.map_map, Renaming.comp]
  | outlives l => simp only [Bound.rename, Renaming.comp, Function.comp_apply]
termination_by structural b

lemma Bound.renameEach_renameEach (bs : List Bound) :
    Bound.renameEach ρ' (Bound.renameEach ρ bs) = Bound.renameEach (ρ'.comp ρ) bs := by
  cases bs with
  | nil => simp only [Bound.renameEach]
  | cons b bs =>
    simp only [Bound.renameEach, Bound.rename_rename b, Bound.renameEach_renameEach bs]
termination_by structural bs

lemma Constraint.rename_rename (c : Constraint) :
    (c.rename ρ).rename ρ' = c.rename (ρ'.comp ρ) := by
  cases c with
  | type t bs binder =>
    simp only [Constraint.rename, Ty.rename_rename t, Bound.renameEach_renameEach bs, List.map_map,
      Renaming.comp]
  | lifetime l ls =>
    simp only [Constraint.rename, List.map_map, Renaming.comp, Function.comp_apply]
termination_by structural c

lemma Constraint.renameEach_renameEach (cs : List Constraint) :
    Constraint.renameEach ρ' (Constraint.renameEach ρ cs) =
      Constraint.renameEach (ρ'.comp ρ) cs := by
  cases cs with
  | nil => simp only [Constraint.renameEach]
  | cons c cs =>
    simp only [Constraint.renameEach, Constraint.rename_rename c,
      Constraint.renameEach_renameEach cs]
termination_by structural cs

lemma Generics.rename_rename (g : Generics) : (g.rename ρ).rename ρ' = g.rename (ρ'.comp ρ) := by
  obtain ⟨params, constraints⟩ := g
  simp only [Generics.rename, Arg.renameEach_renameEach params,
    Constraint.renameEach_renameEach constraints]
termination_by structural g

end

end

/-! ## The name that goes with a number -/

/-- The renaming that writes for each number the name that goes with it: type parameters take
their names from one list of names and lifetimes from another, for the two may share a number. -/
def Renaming.naming (paramName lifetimeName : Int → String) : Renaming where
  onParam p := ⟨p.number, paramName p.number⟩
  onLifetime l := ⟨l.number, lifetimeName l.number⟩

/-- Every number in the constraint carries the name that goes with it, wherever it stands, in
declarations and fields as well: to write that name there changes nothing. -/
def Constraint.Named (paramName lifetimeName : Int → String) (c : Constraint) : Prop :=
  c.rename (.naming paramName lifetimeName) = c

section

variable {paramName lifetimeName : Int → String}

/-- Names that are known by their numbers survive being erased. -/
lemma Constraint.Named.rename_anonymous {c : Constraint} (h : c.Named paramName lifetimeName) :
    (c.rename .anonymous).rename (.naming paramName lifetimeName) = c :=
  calc (c.rename .anonymous).rename (.naming paramName lifetimeName)
      = c.rename ((Renaming.naming paramName lifetimeName).comp .anonymous) :=
        Constraint.rename_rename _ _ c
    _ = c.rename (.naming paramName lifetimeName) := rfl
    _ = c := h

/-- Equal constraints are one and the same, as soon as each number carries one name in both. -/
lemma Constraint.eq_of_beq {c d : Constraint} (hc : c.Named paramName lifetimeName)
    (hd : d.Named paramName lifetimeName) (h : (c == d) = true) : c = d := by
  rw [← hc.rename_anonymous, (Constraint.same_iff c d).1 h, hd.rename_anonymous]

end

end WhereClause
