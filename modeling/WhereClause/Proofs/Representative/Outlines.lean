import WhereClause.Proofs.Equality.Walk

/-!
# Outlines of types

The walk over two types and the search for the more concrete of two go into the same places: the
elements of tuples, the types that references point to, and the arguments in angle brackets of the
last segments of paths.  The outline of a type is what can be seen from there (`Ty.outline`).  It
shows neither lifetimes nor the names of paths.  A strict outline shows all that keeps two types from
having a common form: of references, whether they are shared or mutable, and dereferences and data
structures as a whole.  An outline that is not strict shows none of this.

Two types are alike if their outlines are the same, and they agree if their strict outlines are the
same as well.  Types that become one when all references are shared and lifetimes are left out
(`Ty.loosen`) are alike, and a walk over alike types meets alike types and no clash, if there are no
trait objects and no arguments in parentheses where it goes (`Ty.isPlain`).
-/

namespace WhereClause

open Renaming (anonymous)

/-! ## Outlines -/

mutual

/-- What shows of a type in the places where it is compared. -/
def Ty.outline (strict : Bool) : Ty → Ty
  | .infer => .infer
  | .str => .str
  | .tuple ts => .tuple (Ty.outlineEach strict ts)
  | .ref access t _ => .ref (if strict then access else .shared) (Ty.outline strict t) none
  | .deref t => .deref (if strict then t.rename anonymous else .infer)
  | .dyn _ => .dyn []
  | .data name g fs =>
    if strict then .data name (g.rename anonymous) (Field.renameEach anonymous fs)
    else .data "" ⟨[], []⟩ []
  | .path ⟨_, _, ⟨_, args⟩⟩ => .path ⟨false, [], ⟨"", Args.outline strict args⟩⟩
  | .param p => .param (anonymous.onParam p)

def Ty.outlineEach (strict : Bool) : List Ty → List Ty
  | [] => []
  | t :: ts => Ty.outline strict t :: Ty.outlineEach strict ts

def Args.outline (strict : Bool) : Args → Args
  | .none => .none
  | .angle as => .angle (Arg.outlineEach strict as)
  | .paren _ _ => .paren [] none

def Arg.outline (strict : Bool) : Arg → Arg
  | .type t => .type (Ty.outline strict t)
  | .lifetime _ => .lifetime ⟨0, ""⟩

def Arg.outlineEach (strict : Bool) : List Arg → List Arg
  | [] => []
  | a :: as => Arg.outline strict a :: Arg.outlineEach strict as

end

mutual

/-- No trait object and no arguments in parentheses where a type is compared. -/
def Ty.isPlain : Ty → Bool
  | .tuple ts => Ty.isPlainEach ts
  | .ref _ t _ => Ty.isPlain t
  | .dyn _ => false
  | .path ⟨_, _, ⟨_, args⟩⟩ => Args.isPlain args
  | _ => true

def Ty.isPlainEach : List Ty → Bool
  | [] => true
  | t :: ts => Ty.isPlain t && Ty.isPlainEach ts

def Args.isPlain : Args → Bool
  | .none => true
  | .angle as => Arg.isPlainEach as
  | .paren _ _ => false

def Arg.isPlain : Arg → Bool
  | .type t => Ty.isPlain t
  | .lifetime _ => true

def Arg.isPlainEach : List Arg → Bool
  | [] => true
  | a :: as => Arg.isPlain a && Arg.isPlainEach as

end

/-- Two types agree in what decides whether they have a common form. -/
def Ty.Agrees (t u : Ty) : Prop := ∀ strict, t.outline strict = u.outline strict

/-- Two types agree but for kinds of references, dereferences and data structures. -/
def Ty.Alike (t u : Ty) : Prop := t.outline false = u.outline false

lemma Ty.outline_path (strict : Bool) (p : Path) :
    (Ty.path p).outline strict = .path ⟨false, [], ⟨"", p.last.args.outline strict⟩⟩ := by
  obtain ⟨isGlobal, init, ⟨name, args⟩⟩ := p
  rw [Ty.outline]

lemma Ty.isPlain_path (p : Path) : (Ty.path p).isPlain = p.last.args.isPlain := by
  obtain ⟨isGlobal, init, ⟨name, args⟩⟩ := p
  rw [Ty.isPlain]

lemma Ty.outlineEach_eq_map (strict : Bool) (ts : List Ty) :
    Ty.outlineEach strict ts = ts.map (Ty.outline strict) := by
  induction ts with
  | nil => simp only [Ty.outlineEach, List.map_nil]
  | cons t ts ih => simp only [Ty.outlineEach, List.map_cons, ih]

lemma Arg.outlineEach_eq_map (strict : Bool) (as : List Arg) :
    Arg.outlineEach strict as = as.map (Arg.outline strict) := by
  induction as with
  | nil => simp only [Arg.outlineEach, List.map_nil]
  | cons a as ih => simp only [Arg.outlineEach, List.map_cons, ih]

lemma Ty.isPlainEach_eq_all (ts : List Ty) : Ty.isPlainEach ts = ts.all Ty.isPlain := by
  induction ts with
  | nil => simp only [Ty.isPlainEach, List.all_nil]
  | cons t ts ih => simp only [Ty.isPlainEach, List.all_cons, ih]

lemma Arg.isPlainEach_eq_all (as : List Arg) : Arg.isPlainEach as = as.all Arg.isPlain := by
  induction as with
  | nil => simp only [Arg.isPlainEach, List.all_nil]
  | cons a as ih => simp only [Arg.isPlainEach, List.all_cons, ih]

/-! ## What outlines do not show -/

mutual

lemma Ty.outline_eq_of_rename {a b : Ty} (h : a.rename anonymous = b.rename anonymous)
    (strict : Bool) : a.outline strict = b.outline strict := by
  cases a with
  | infer => cases b <;> simp [Ty.rename] at h ⊢
  | str => cases b <;> simp [Ty.rename] at h ⊢
  | tuple xs =>
    cases b <;> simp only [Ty.rename, Ty.tuple.injEq, reduceCtorEq] at h
    rw [Ty.outline, Ty.outline, Ty.outlineEach_eq_of_rename xs _ h]
  | ref access x l =>
    cases b <;> simp only [Ty.rename, Ty.ref.injEq, reduceCtorEq] at h
    rw [Ty.outline, Ty.outline, h.1, Ty.outline_eq_of_rename h.2.1 strict]
  | deref x =>
    cases b <;> simp only [Ty.rename, Ty.deref.injEq, reduceCtorEq] at h
    rw [Ty.outline, Ty.outline, h]
  | dyn xs => cases b <;> simp [Ty.rename, Ty.outline] at h ⊢
  | data name g fs =>
    cases b <;> simp only [Ty.rename, Ty.data.injEq, reduceCtorEq] at h
    rw [Ty.outline, Ty.outline, h.1, h.2.1, h.2.2]
  | path p =>
    obtain ⟨isGlobal, init, ⟨name, args⟩⟩ := p
    cases b <;> simp only [Ty.rename, Ty.path.injEq, reduceCtorEq] at h
    rename_i q
    obtain ⟨isGlobal', init', ⟨name', args'⟩⟩ := q
    simp only [Path.rename, Segment.rename, Path.mk.injEq, Segment.mk.injEq] at h
    rw [Ty.outline, Ty.outline, Args.outline_eq_of_rename h.2.2.2 strict]
  | param p =>
    cases b <;> simp only [Ty.rename, Ty.param.injEq, reduceCtorEq] at h
    rw [Ty.outline, Ty.outline, h]
termination_by structural a

lemma Ty.outlineEach_eq_of_rename (xs ys : List Ty) {strict : Bool}
    (h : Ty.renameEach anonymous xs = Ty.renameEach anonymous ys) :
    Ty.outlineEach strict xs = Ty.outlineEach strict ys := by
  cases xs with
  | nil => cases ys <;> simp [Ty.renameEach] at h ⊢
  | cons x xs =>
    cases ys <;> simp only [Ty.renameEach, List.cons.injEq, reduceCtorEq] at h
    rw [Ty.outlineEach, Ty.outlineEach, Ty.outline_eq_of_rename h.1 strict,
      Ty.outlineEach_eq_of_rename xs _ h.2]
termination_by structural xs

lemma Args.outline_eq_of_rename {as bs : Args} (h : as.rename anonymous = bs.rename anonymous)
    (strict : Bool) : as.outline strict = bs.outline strict := by
  cases as with
  | none => cases bs <;> simp [Args.rename] at h ⊢
  | angle as =>
    cases bs <;> simp only [Args.rename, Args.angle.injEq, reduceCtorEq] at h
    rw [Args.outline, Args.outline, Arg.outlineEach_eq_of_rename as _ h]
  | paren _ _ => cases bs <;> simp [Args.rename, Args.outline] at h ⊢
termination_by structural as

lemma Arg.outline_eq_of_rename {a b : Arg} (h : a.rename anonymous = b.rename anonymous)
    (strict : Bool) : a.outline strict = b.outline strict := by
  cases a with
  | type x =>
    cases b <;> simp only [Arg.rename, Arg.type.injEq, reduceCtorEq] at h
    rw [Arg.outline, Arg.outline, Ty.outline_eq_of_rename h strict]
  | lifetime l => cases b <;> simp [Arg.rename, Arg.outline] at h ⊢
termination_by structural a

lemma Arg.outlineEach_eq_of_rename (as bs : List Arg) {strict : Bool}
    (h : Arg.renameEach anonymous as = Arg.renameEach anonymous bs) :
    Arg.outlineEach strict as = Arg.outlineEach strict bs := by
  cases as with
  | nil => cases bs <;> simp [Arg.renameEach] at h ⊢
  | cons a as =>
    cases bs <;> simp only [Arg.renameEach, List.cons.injEq, reduceCtorEq] at h
    rw [Arg.outlineEach, Arg.outlineEach, Arg.outline_eq_of_rename h.1 strict,
      Arg.outlineEach_eq_of_rename as _ h.2]
termination_by structural as

end

/-- Equal types have one outline. -/
lemma Ty.Agrees.of_beq {t u : Ty} (h : (t == u) = true) : t.Agrees u :=
  fun strict => Ty.outline_eq_of_rename ((Ty.same_iff t u).1 h) strict

mutual

/-- Whether a type is plain shows in its outline. -/
lemma Ty.isPlain_outline (strict : Bool) (t : Ty) : (t.outline strict).isPlain = t.isPlain := by
  cases t with
  | tuple ts => rw [Ty.outline, Ty.isPlain, Ty.isPlain, Ty.isPlainEach_outlineEach strict ts]
  | ref access t l => rw [Ty.outline, Ty.isPlain, Ty.isPlain, Ty.isPlain_outline strict t]
  | data name g fs => cases strict <;> rfl
  | path p =>
    obtain ⟨isGlobal, init, ⟨name, args⟩⟩ := p
    rw [Ty.outline, Ty.isPlain, Ty.isPlain, Args.isPlain_outline strict args]
  | infer | str | deref _ | dyn _ | param _ => rfl
termination_by structural t

lemma Ty.isPlainEach_outlineEach (strict : Bool) (ts : List Ty) :
    Ty.isPlainEach (Ty.outlineEach strict ts) = Ty.isPlainEach ts := by
  cases ts with
  | nil => rfl
  | cons t ts =>
    rw [Ty.outlineEach, Ty.isPlainEach, Ty.isPlainEach, Ty.isPlain_outline strict t,
      Ty.isPlainEach_outlineEach strict ts]
termination_by structural ts

lemma Args.isPlain_outline (strict : Bool) (as : Args) :
    (as.outline strict).isPlain = as.isPlain := by
  cases as with
  | none => rfl
  | angle as =>
    rw [Args.outline, Args.isPlain, Args.isPlain, Arg.isPlainEach_outlineEach strict as]
  | paren _ _ => rfl
termination_by structural as

lemma Arg.isPlain_outline (strict : Bool) (a : Arg) : (a.outline strict).isPlain = a.isPlain := by
  cases a with
  | type t => rw [Arg.outline, Arg.isPlain, Arg.isPlain, Ty.isPlain_outline strict t]
  | lifetime _ => rfl
termination_by structural a

lemma Arg.isPlainEach_outlineEach (strict : Bool) (as : List Arg) :
    Arg.isPlainEach (Arg.outlineEach strict as) = Arg.isPlainEach as := by
  cases as with
  | nil => rfl
  | cons a as =>
    rw [Arg.outlineEach, Arg.isPlainEach, Arg.isPlainEach, Arg.isPlain_outline strict a,
      Arg.isPlainEach_outlineEach strict as]
termination_by structural as

end

lemma Ty.Alike.isPlain_eq {t u : Ty} (h : t.Alike u) : t.isPlain = u.isPlain := by
  rw [← Ty.isPlain_outline false t, h, Ty.isPlain_outline]

/-! ## References and lifetimes set aside -/

mutual

/-- The type with every reference read as a shared one, and without lifetimes. -/
def Ty.loosen : Ty → Ty
  | .infer => .infer
  | .str => .str
  | .tuple ts => .tuple (Ty.loosenEach ts)
  | .ref _ t _ => .ref .shared (Ty.loosen t) none
  | .deref t => .deref (Ty.loosen t)
  | .dyn bs => .dyn (Bound.loosenEach bs)
  | .data name g fs => .data name (Generics.loosen g) (Field.loosenEach fs)
  | .path p => .path (Path.loosen p)
  | .param p => .param p

def Ty.loosenEach : List Ty → List Ty
  | [] => []
  | t :: ts => Ty.loosen t :: Ty.loosenEach ts

def Ty.loosenOption : Option Ty → Option Ty
  | none => none
  | some t => some (Ty.loosen t)

def Field.loosen : Field → Field
  | ⟨name, t⟩ => ⟨name, Ty.loosen t⟩

def Field.loosenEach : List Field → List Field
  | [] => []
  | f :: fs => Field.loosen f :: Field.loosenEach fs

def Path.loosen : Path → Path
  | ⟨isGlobal, init, last⟩ => ⟨isGlobal, Segment.loosenEach init, Segment.loosen last⟩

def Segment.loosen : Segment → Segment
  | ⟨name, args⟩ => ⟨name, Args.loosen args⟩

def Segment.loosenEach : List Segment → List Segment
  | [] => []
  | s :: ss => Segment.loosen s :: Segment.loosenEach ss

def Args.loosen : Args → Args
  | .none => .none
  | .angle as => .angle (Arg.loosenEach as)
  | .paren inputs output => .paren (Ty.loosenEach inputs) (Ty.loosenOption output)

/-- What is left of a lifetime is that there is one. -/
def Arg.loosen : Arg → Arg
  | .type t => .type (Ty.loosen t)
  | .lifetime _ => .lifetime ⟨0, ""⟩

def Arg.loosenEach : List Arg → List Arg
  | [] => []
  | a :: as => Arg.loosen a :: Arg.loosenEach as

def Bound.loosen : Bound → Bound
  | .trait p _ => .trait (Path.loosen p) []
  | .outlives _ => .outlives ⟨0, ""⟩

def Bound.loosenEach : List Bound → List Bound
  | [] => []
  | b :: bs => Bound.loosen b :: Bound.loosenEach bs

def Constraint.loosen : Constraint → Constraint
  | .type t bs _ => .type (Ty.loosen t) (Bound.loosenEach bs) []
  | .lifetime _ _ => .lifetime ⟨0, ""⟩ []

def Constraint.loosenEach : List Constraint → List Constraint
  | [] => []
  | c :: cs => Constraint.loosen c :: Constraint.loosenEach cs

def Generics.loosen : Generics → Generics
  | ⟨params, constraints⟩ => ⟨Arg.loosenEach params, Constraint.loosenEach constraints⟩

end

mutual

lemma Ty.outline_loosen (t : Ty) : t.loosen.outline false = t.outline false := by
  cases t with
  | tuple ts => rw [Ty.loosen, Ty.outline, Ty.outline, Ty.outlineEach_loosenEach ts]
  | ref access t l =>
    rw [Ty.loosen, Ty.outline, Ty.outline, Ty.outline_loosen t, if_neg Bool.false_ne_true,
      if_neg Bool.false_ne_true]
  | path p =>
    obtain ⟨isGlobal, init, ⟨name, args⟩⟩ := p
    rw [Ty.loosen, Path.loosen, Segment.loosen, Ty.outline, Ty.outline, Args.outline_loosen args]
  | infer | str | deref _ | dyn _ | data _ _ _ | param _ => rfl
termination_by structural t

lemma Ty.outlineEach_loosenEach (ts : List Ty) :
    Ty.outlineEach false (Ty.loosenEach ts) = Ty.outlineEach false ts := by
  cases ts with
  | nil => rfl
  | cons t ts =>
    rw [Ty.loosenEach, Ty.outlineEach, Ty.outlineEach, Ty.outline_loosen t,
      Ty.outlineEach_loosenEach ts]
termination_by structural ts

lemma Args.outline_loosen (as : Args) : as.loosen.outline false = as.outline false := by
  cases as with
  | none => rfl
  | angle as => rw [Args.loosen, Args.outline, Args.outline, Arg.outlineEach_loosenEach as]
  | paren _ _ => rfl
termination_by structural as

lemma Arg.outline_loosen (a : Arg) : a.loosen.outline false = a.outline false := by
  cases a with
  | type t => rw [Arg.loosen, Arg.outline, Arg.outline, Ty.outline_loosen t]
  | lifetime _ => rfl
termination_by structural a

lemma Arg.outlineEach_loosenEach (as : List Arg) :
    Arg.outlineEach false (Arg.loosenEach as) = Arg.outlineEach false as := by
  cases as with
  | nil => rfl
  | cons a as =>
    rw [Arg.loosenEach, Arg.outlineEach, Arg.outlineEach, Arg.outline_loosen a,
      Arg.outlineEach_loosenEach as]
termination_by structural as

end

/-- Types that differ in kinds of references and in lifetimes alone are alike. -/
lemma Ty.Alike.of_loosen {a b : Ty} (h : (a.loosen == b.loosen) = true) : a.Alike b := by
  rw [Ty.Alike, ← Ty.outline_loosen a, ← Ty.outline_loosen b]
  exact Ty.Agrees.of_beq h false

/-! ## The walk over alike types -/

lemma eq_of_mem_zip_of_map_eq {α β : Type} {f : α → β} {xs ys : List α}
    (h : xs.map f = ys.map f) {x y : α} (hxy : (x, y) ∈ xs.zip ys) : f x = f y := by
  induction xs generalizing ys with
  | nil => cases hxy
  | cons x' xs ih =>
    cases ys with
    | nil => cases hxy
    | cons y' ys =>
      rw [List.map_cons, List.map_cons, List.cons.injEq] at h
      rcases List.mem_cons.1 hxy with heq | hxy
      · obtain ⟨rfl, rfl⟩ := Prod.mk.inj heq
        exact h.1
      · exact ih h.2 hxy

section

variable {strict : Bool} {x y : Ty}

lemma Args.outline_of_mem_parts {as bs : Args} (h : as.outline strict = bs.outline strict)
    (hxy : (x, y) ∈ as.parts bs) :
    x.outline strict = y.outline strict ∧ (as.isPlain = true → x.isPlain = true) := by
  cases as <;> cases bs <;> simp only [Args.parts, List.not_mem_nil] at hxy
  rename_i as bs
  rw [Args.outline, Args.outline, Args.angle.injEq, Arg.outlineEach_eq_map,
    Arg.outlineEach_eq_map] at h
  split_ifs at hxy
  · obtain ⟨⟨a, b⟩, hab, hboth⟩ := List.mem_filterMap.1 hxy
    have houtlines := eq_of_mem_zip_of_map_eq h hab
    cases a <;> cases b <;> simp only [Arg.bothTypes, reduceCtorEq, Option.some.injEq,
      Prod.mk.injEq] at hboth
    obtain ⟨rfl, rfl⟩ := hboth
    refine ⟨Arg.type.inj houtlines, fun hplain => ?_⟩
    rw [Args.isPlain, Arg.isPlainEach_eq_all, List.all_eq_true] at hplain
    exact hplain _ (List.of_mem_zip hab).1
  · cases hxy

/-- The walk goes on to types whose outlines are the same, and to plain ones from plain ones. -/
lemma Ty.outline_of_mem_parts {a b : Ty} (h : a.outline strict = b.outline strict)
    (hplain : a.isPlain = true) (hxy : (x, y) ∈ Ty.parts a b) :
    x.outline strict = y.outline strict ∧ x.isPlain = true := by
  cases a with
  | tuple xs =>
    cases b <;> simp only [Ty.parts, List.not_mem_nil] at hxy
    rw [Ty.outline, Ty.outline, Ty.tuple.injEq, Ty.outlineEach_eq_map,
      Ty.outlineEach_eq_map] at h
    rw [Ty.isPlain, Ty.isPlainEach_eq_all, List.all_eq_true] at hplain
    split_ifs at hxy
    · exact ⟨eq_of_mem_zip_of_map_eq h hxy, hplain x (List.of_mem_zip hxy).1⟩
    · cases hxy
  | ref access s l =>
    cases b <;> simp only [Ty.parts, List.not_mem_nil] at hxy
    obtain ⟨rfl, rfl⟩ := Prod.mk.inj (List.mem_singleton.1 hxy)
    rw [Ty.outline, Ty.outline, Ty.ref.injEq] at h
    exact ⟨h.2.1, hplain⟩
  | path p =>
    cases b <;> simp only [Ty.parts, List.not_mem_nil] at hxy
    rw [Ty.outline_path, Ty.outline_path, Ty.path.injEq, Path.mk.injEq, Segment.mk.injEq] at h
    rw [Ty.isPlain_path] at hplain
    obtain ⟨houtlines, hparts⟩ := Args.outline_of_mem_parts h.2.2.2 hxy
    exact ⟨houtlines, hparts hplain⟩
  | dyn _ => cases hplain
  | infer | str | deref _ | data _ _ _ | param _ => cases b <;> cases hxy

end

lemma Alignment.clash_andThen {x y : Alignment} (hx : x.clash = none) (hy : y.clash = none) :
    (x.andThen y).clash = none := by
  rw [Alignment.andThen, hx]
  exact hy

mutual

/-- Plain types that are alike do not clash. -/
lemma Ty.Alike.clash_align {a b : Ty} (h : a.Alike b) (hplain : a.isPlain = true) :
    (Ty.align a b).clash = none := by
  rw [Ty.Alike] at h
  cases a with
  | tuple xs =>
    cases b <;> simp only [Ty.outline, Ty.outline_path, Bool.false_eq_true, if_false,
      Ty.tuple.injEq, reduceCtorEq] at h
    rename_i ys
    have hlength : xs.length = ys.length := by
      have hmaps := congrArg List.length h
      rwa [Ty.outlineEach_eq_map, Ty.outlineEach_eq_map, List.length_map, List.length_map] at hmaps
    rw [Ty.align, if_pos hlength]
    exact Alignment.clash_andThen (Ty.clash_alignEach xs ys h hplain) rfl
  | ref access x l =>
    cases b <;> simp only [Ty.outline, Ty.outline_path, Bool.false_eq_true, if_false,
      Ty.ref.injEq, reduceCtorEq] at h
    have hinner := Ty.Alike.clash_align h.2.1 hplain
    rw [Ty.align]
    split_ifs
    · exact Alignment.clash_andThen hinner rfl
    · exact hinner
  | path p =>
    cases b <;> simp only [Ty.outline, Ty.outline_path, Bool.false_eq_true, if_false,
      Ty.path.injEq, Path.mk.injEq, Segment.mk.injEq, reduceCtorEq] at h
    rw [Ty.isPlain_path] at hplain
    rw [Ty.align]
    exact Alignment.clash_andThen (Path.clash_align p _ h.2.2.2 hplain) rfl
  | dyn _ => cases hplain
  | infer | str | deref _ | data _ _ _ | param _ =>
    cases b <;> simp [Ty.outline, Ty.outline_path, Ty.align, Alignment.step] at h ⊢
termination_by structural a

lemma Ty.clash_alignEach (xs ys : List Ty)
    (h : Ty.outlineEach false xs = Ty.outlineEach false ys) (hplain : Ty.isPlainEach xs = true) :
    (Ty.alignEach xs ys).clash = none := by
  cases xs with
  | nil => simp [Ty.alignEach, Alignment.nothing]
  | cons x xs =>
    cases ys with
    | nil => simp [Ty.alignEach, Alignment.nothing]
    | cons y ys =>
      rw [Ty.outlineEach, Ty.outlineEach, List.cons.injEq] at h
      rw [Ty.isPlainEach, Bool.and_eq_true] at hplain
      rw [Ty.alignEach]
      exact Alignment.clash_andThen (Ty.Alike.clash_align h.1 hplain.1)
        (Ty.clash_alignEach xs ys h.2 hplain.2)
termination_by structural xs

lemma Path.clash_align (p q : Path) (h : p.last.args.outline false = q.last.args.outline false)
    (hplain : p.last.args.isPlain = true) : (Path.align p q).clash = none := by
  obtain ⟨isGlobal, init, ⟨name, args⟩⟩ := p
  have hparens : (args.isParen || q.last.args.isParen) = false := by
    dsimp only at h hplain
    cases args <;> rcases hargs : q.last.args with _ | _ | _ <;> rw [hargs] at h <;>
      simp [Args.outline, Args.isPlain, Args.isParen] at h hplain ⊢
  rw [Path.align, hparens, if_neg Bool.false_ne_true]
  exact Args.clash_align args q.last.args h hplain
termination_by structural p

lemma Args.clash_align (as bs : Args) (h : as.outline false = bs.outline false)
    (hplain : as.isPlain = true) : (Args.align as bs).clash = none := by
  cases as with
  | angle as =>
    cases bs with
    | angle bs =>
      rw [Args.outline, Args.outline, Args.angle.injEq] at h
      rw [Args.align]
      split_ifs
      · exact Arg.clash_alignEach as bs h hplain
      · rfl
    | none | paren _ _ => simp [Args.align, Alignment.nothing]
  | none | paren _ _ => simp [Args.align, Alignment.nothing]
termination_by structural as

lemma Arg.clash_align (a b : Arg) (h : a.outline false = b.outline false)
    (hplain : a.isPlain = true) : (Arg.align a b).clash = none := by
  cases a with
  | type x =>
    cases b <;> simp only [Arg.outline, Arg.type.injEq, reduceCtorEq] at h
    rw [Arg.align]
    exact Ty.Alike.clash_align h hplain
  | lifetime l => cases b <;> simp [Arg.outline, Arg.align, Alignment.nothing] at h ⊢
termination_by structural a

lemma Arg.clash_alignEach (as bs : List Arg)
    (h : Arg.outlineEach false as = Arg.outlineEach false bs)
    (hplain : Arg.isPlainEach as = true) : (Arg.alignEach as bs).clash = none := by
  cases as with
  | nil => simp [Arg.alignEach, Alignment.nothing]
  | cons a as =>
    cases bs with
    | nil => simp [Arg.alignEach, Alignment.nothing]
    | cons b bs =>
      rw [Arg.outlineEach, Arg.outlineEach, List.cons.injEq] at h
      rw [Arg.isPlainEach, Bool.and_eq_true] at hplain
      rw [Arg.alignEach]
      exact Alignment.clash_andThen (Arg.clash_align a b h.1 hplain.1)
        (Arg.clash_alignEach as bs h.2 hplain.2)
termination_by structural as

end

end WhereClause
