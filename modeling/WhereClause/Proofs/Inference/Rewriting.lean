import Mathlib.Tactic.Common
import WhereClause.Ty.Renaming

/-!
# Parameters replaced by parameters

`Ty.mapParams f` replaces every type parameter that a type mentions, but for dereferences, data
structures and arguments in parentheses, which stay as they are.  Where `f` does not look at how a
parameter is spelled, equal types are rewritten to equal types.
-/

namespace WhereClause

mutual

/-- Replaces type parameters outside dereferences, data structures and parentheses. -/
def Ty.mapParams (f : Param → Param) : Ty → Ty
  | .infer => .infer
  | .str => .str
  | .tuple ts => .tuple (Ty.mapParamsEach f ts)
  | .ref access t l => .ref access (Ty.mapParams f t) l
  | .deref t => .deref t
  | .dyn bs => .dyn (Bound.mapParamsEach f bs)
  | .data name g fs => .data name g fs
  | .path p => .path (Path.mapParams f p)
  | .param p => .param (f p)

def Ty.mapParamsEach (f : Param → Param) : List Ty → List Ty
  | [] => []
  | t :: ts => Ty.mapParams f t :: Ty.mapParamsEach f ts

def Path.mapParams (f : Param → Param) : Path → Path
  | ⟨isGlobal, init, last⟩ => ⟨isGlobal, Segment.mapParamsEach f init, Segment.mapParams f last⟩

def Segment.mapParams (f : Param → Param) : Segment → Segment
  | ⟨name, args⟩ => ⟨name, Args.mapParams f args⟩

def Segment.mapParamsEach (f : Param → Param) : List Segment → List Segment
  | [] => []
  | s :: ss => Segment.mapParams f s :: Segment.mapParamsEach f ss

def Args.mapParams (f : Param → Param) : Args → Args
  | .none => .none
  | .angle as => .angle (Arg.mapParamsEach f as)
  | .paren inputs output => .paren inputs output

def Arg.mapParams (f : Param → Param) : Arg → Arg
  | .type t => .type (Ty.mapParams f t)
  | .lifetime l => .lifetime l

def Arg.mapParamsEach (f : Param → Param) : List Arg → List Arg
  | [] => []
  | a :: as => Arg.mapParams f a :: Arg.mapParamsEach f as

def Bound.mapParams (f : Param → Param) : Bound → Bound
  | .trait p binder => .trait (Path.mapParams f p) binder
  | .outlives l => .outlives l

def Bound.mapParamsEach (f : Param → Param) : List Bound → List Bound
  | [] => []
  | b :: bs => Bound.mapParams f b :: Bound.mapParamsEach f bs

end

/-- Replaces type parameters in a constraint on a type. -/
def Constraint.mapParams (f : Param → Param) : Constraint → Constraint
  | .type t bs binder => .type (t.mapParams f) (Bound.mapParamsEach f bs) binder
  | .lifetime l ls => .lifetime l ls

/-! ## Rewriting does not look at names -/

/-- A replacement that does not look at names. -/
def Param.Nameless (f : Param → Param) : Prop :=
  ∀ p q : Param, p.number = q.number → (f p).number = (f q).number

/-- A replacement as it is seen once names are erased. -/
def Param.anonymously (f : Param → Param) (p : Param) : Param :=
  Renaming.anonymous.onParam (f p)

section

variable {f : Param → Param}

mutual

lemma Ty.rename_mapParams (hf : Param.Nameless f) (t : Ty) :
    (t.mapParams f).rename .anonymous =
      (t.rename .anonymous).mapParams (Param.anonymously f) := by
  cases t with
  | tuple ts => simp only [Ty.mapParams, Ty.rename, Ty.renameEach_mapParams hf ts]
  | ref access t l => simp only [Ty.mapParams, Ty.rename, Ty.rename_mapParams hf t]
  | dyn bs => simp only [Ty.mapParams, Ty.rename, Bound.renameEach_mapParams hf bs]
  | path p => simp only [Ty.mapParams, Ty.rename, Path.rename_mapParams hf p]
  | param p =>
    have hnumber : (f p).number = (f (Renaming.anonymous.onParam p)).number := hf _ _ rfl
    simp only [Ty.mapParams, Ty.rename, Param.anonymously, Renaming.anonymous, hnumber]
  | infer | str | deref _ | data _ _ _ => simp only [Ty.mapParams, Ty.rename]
termination_by structural t

lemma Ty.renameEach_mapParams (hf : Param.Nameless f) (ts : List Ty) :
    Ty.renameEach .anonymous (Ty.mapParamsEach f ts) =
      Ty.mapParamsEach (Param.anonymously f) (Ty.renameEach .anonymous ts) := by
  cases ts with
  | nil => simp only [Ty.mapParamsEach, Ty.renameEach]
  | cons t ts =>
    simp only [Ty.mapParamsEach, Ty.renameEach, Ty.rename_mapParams hf t,
      Ty.renameEach_mapParams hf ts]
termination_by structural ts

lemma Path.rename_mapParams (hf : Param.Nameless f) (p : Path) :
    (p.mapParams f).rename .anonymous =
      (p.rename .anonymous).mapParams (Param.anonymously f) := by
  obtain ⟨isGlobal, init, last⟩ := p
  simp only [Path.mapParams, Path.rename, Segment.renameEach_mapParams hf init,
    Segment.rename_mapParams hf last]
termination_by structural p

lemma Segment.rename_mapParams (hf : Param.Nameless f) (s : Segment) :
    (s.mapParams f).rename .anonymous =
      (s.rename .anonymous).mapParams (Param.anonymously f) := by
  obtain ⟨name, args⟩ := s
  simp only [Segment.mapParams, Segment.rename, Args.rename_mapParams hf args]
termination_by structural s

lemma Segment.renameEach_mapParams (hf : Param.Nameless f) (ss : List Segment) :
    Segment.renameEach .anonymous (Segment.mapParamsEach f ss) =
      Segment.mapParamsEach (Param.anonymously f) (Segment.renameEach .anonymous ss) := by
  cases ss with
  | nil => simp only [Segment.mapParamsEach, Segment.renameEach]
  | cons s ss =>
    simp only [Segment.mapParamsEach, Segment.renameEach, Segment.rename_mapParams hf s,
      Segment.renameEach_mapParams hf ss]
termination_by structural ss

lemma Args.rename_mapParams (hf : Param.Nameless f) (as : Args) :
    (as.mapParams f).rename .anonymous =
      (as.rename .anonymous).mapParams (Param.anonymously f) := by
  cases as with
  | angle as => simp only [Args.mapParams, Args.rename, Arg.renameEach_mapParams hf as]
  | none | paren _ _ => simp only [Args.mapParams, Args.rename]
termination_by structural as

lemma Arg.rename_mapParams (hf : Param.Nameless f) (a : Arg) :
    (a.mapParams f).rename .anonymous =
      (a.rename .anonymous).mapParams (Param.anonymously f) := by
  cases a with
  | type t => simp only [Arg.mapParams, Arg.rename, Ty.rename_mapParams hf t]
  | lifetime l => simp only [Arg.mapParams, Arg.rename]
termination_by structural a

lemma Arg.renameEach_mapParams (hf : Param.Nameless f) (as : List Arg) :
    Arg.renameEach .anonymous (Arg.mapParamsEach f as) =
      Arg.mapParamsEach (Param.anonymously f) (Arg.renameEach .anonymous as) := by
  cases as with
  | nil => simp only [Arg.mapParamsEach, Arg.renameEach]
  | cons a as =>
    simp only [Arg.mapParamsEach, Arg.renameEach, Arg.rename_mapParams hf a,
      Arg.renameEach_mapParams hf as]
termination_by structural as

lemma Bound.rename_mapParams (hf : Param.Nameless f) (b : Bound) :
    (b.mapParams f).rename .anonymous =
      (b.rename .anonymous).mapParams (Param.anonymously f) := by
  cases b with
  | trait p binder => simp only [Bound.mapParams, Bound.rename, Path.rename_mapParams hf p]
  | outlives l => simp only [Bound.mapParams, Bound.rename]
termination_by structural b

lemma Bound.renameEach_mapParams (hf : Param.Nameless f) (bs : List Bound) :
    Bound.renameEach .anonymous (Bound.mapParamsEach f bs) =
      Bound.mapParamsEach (Param.anonymously f) (Bound.renameEach .anonymous bs) := by
  cases bs with
  | nil => simp only [Bound.mapParamsEach, Bound.renameEach]
  | cons b bs =>
    simp only [Bound.mapParamsEach, Bound.renameEach, Bound.rename_mapParams hf b,
      Bound.renameEach_mapParams hf bs]
termination_by structural bs

end

/-- Equal constraints are rewritten to equal constraints. -/
lemma Constraint.mapParams_congr (hf : Param.Nameless f) {c d : Constraint} (h : (c == d) = true) :
    (c.mapParams f == d.mapParams f) = true := by
  have hrename : ∀ c : Constraint, (c.mapParams f).rename .anonymous =
      (c.rename .anonymous).mapParams (Param.anonymously f) := by
    intro c
    cases c with
    | type t bs binder =>
      simp only [Constraint.mapParams, Constraint.rename, Ty.rename_mapParams hf t,
        Bound.renameEach_mapParams hf bs]
    | lifetime l ls => simp only [Constraint.mapParams, Constraint.rename]
  have hcd : c.rename .anonymous = d.rename .anonymous := (Constraint.same_iff c d).1 h
  refine (Constraint.same_iff _ _).2 ?_
  rw [hrename, hrename, hcd]

end

end WhereClause
