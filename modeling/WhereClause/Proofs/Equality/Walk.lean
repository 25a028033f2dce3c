import Mathlib.Tactic.Common
import WhereClause.Equality.Alignment
import WhereClause.Equality.Evidence

/-!
# The walk over two types

What an alignment finds, said without it.  `Ty.parts` lists the pairs of types that one step of the
walk leads to from a pair, and `Ty.met` all pairs that a walk meets: those below a pair from left to
right, then the pair itself.  A pair with one trait object demands that the other type satisfies its
bounds; a pair of two trait objects, or of a shared and a mutable reference, teaches nothing beyond
its parts; every other pair says that its two types are equal.

The main statement is `Ty.steps_align`: if a walk meets no clash, the steps of the alignment are the
lessons of the pairs met, in the order in which they are met.
-/

namespace WhereClause

/-! ## What one pair leads to -/

/-- Two arguments as a pair of types, if both are types. -/
def Arg.bothTypes : Arg × Arg → Option (Ty × Ty)
  | (.type s, .type t) => some (s, t)
  | _ => none

/-- The types that stand in one place of two lists of arguments, if these are equally long. -/
def Args.parts : Args → Args → List (Ty × Ty)
  | .angle as, .angle bs =>
    if as.length = bs.length then (as.zip bs).filterMap Arg.bothTypes else []
  | _, _ => []

/-- The types that stand in one place of the last segments of the traits of two bounds. -/
def Bound.parts : Bound × Bound → List (Ty × Ty)
  | (.trait p _, .trait q _) => p.last.args.parts q.last.args
  | _ => []

/-- The pairs that the walk goes on to from a pair. -/
def Ty.parts : Ty → Ty → List (Ty × Ty)
  | .dyn xs, .dyn ys => if xs.length = ys.length then (xs.zip ys).flatMap Bound.parts else []
  | .ref _ x _, .ref _ y _ => [(x, y)]
  | .tuple xs, .tuple ys => if xs.length = ys.length then xs.zip ys else []
  | .path p, .path q => p.last.args.parts q.last.args
  | _, _ => []

lemma Args.sizeOf_lt_of_mem_parts {as bs : Args} {x y : Ty} (h : (x, y) ∈ as.parts bs) :
    sizeOf x < sizeOf as := by
  cases as <;> cases bs <;> simp only [Args.parts, List.not_mem_nil] at h
  rename_i as bs
  split_ifs at h
  · obtain ⟨⟨a, b⟩, hab, hxy⟩ := List.mem_filterMap.1 h
    cases a <;> cases b <;> simp only [Arg.bothTypes, reduceCtorEq, Option.some.injEq,
      Prod.mk.injEq] at hxy
    obtain ⟨rfl, rfl⟩ := hxy
    have hmem := List.sizeOf_lt_of_mem (List.of_mem_zip hab).1
    simp only [Arg.type.sizeOf_spec, Args.angle.sizeOf_spec] at hmem ⊢
    omega
  · simp at h

lemma Bound.sizeOf_lt_of_mem_parts {b c : Bound} {x y : Ty} (h : (x, y) ∈ Bound.parts (b, c)) :
    sizeOf x < sizeOf b := by
  cases b <;> cases c <;> simp only [Bound.parts, List.not_mem_nil] at h
  rename_i p _ _ _
  have hargs := Args.sizeOf_lt_of_mem_parts h
  obtain ⟨_, _, _, _⟩ := p
  simp only [Bound.trait.sizeOf_spec, Path.mk.sizeOf_spec, Segment.mk.sizeOf_spec] at hargs ⊢
  omega

/-- The walk goes on to smaller types. -/
lemma Ty.sizeOf_lt_of_mem_parts {a b x y : Ty} (h : (x, y) ∈ Ty.parts a b) :
    sizeOf x < sizeOf a := by
  cases a <;> cases b <;> simp only [Ty.parts, List.not_mem_nil] at h
  case tuple.tuple xs ys =>
    split_ifs at h
    · have hmem := List.sizeOf_lt_of_mem (List.of_mem_zip h).1
      simp only [Ty.tuple.sizeOf_spec]
      omega
    · simp at h
  case ref.ref =>
    simp only [List.mem_singleton, Prod.mk.injEq] at h
    obtain ⟨rfl, rfl⟩ := h
    simp only [Ty.ref.sizeOf_spec]
    omega
  case dyn.dyn xs ys =>
    split_ifs at h
    · obtain ⟨⟨b, c⟩, hbc, hxy⟩ := List.mem_flatMap.1 h
      have hmem := List.sizeOf_lt_of_mem (List.of_mem_zip hbc).1
      have hlt := Bound.sizeOf_lt_of_mem_parts hxy
      simp only [Ty.dyn.sizeOf_spec]
      omega
    · simp at h
  case path.path p q =>
    have hlt := Args.sizeOf_lt_of_mem_parts h
    obtain ⟨_, _, _, _⟩ := p
    simp only [Ty.path.sizeOf_spec, Path.mk.sizeOf_spec, Segment.mk.sizeOf_spec] at hlt ⊢
    omega

/-! ## The pairs that a walk meets -/

/-- The pairs that the walk over two types meets, inner ones first. -/
def Ty.met (a b : Ty) : List (Ty × Ty) :=
  ((Ty.parts a b).attach.flatMap fun q => Ty.met q.1.1 q.1.2) ++ [(a, b)]
termination_by a
decreasing_by exact Ty.sizeOf_lt_of_mem_parts q.2

/-- The pairs met below each of several pairs, one after the other. -/
def Ty.metBelow (pairs : List (Ty × Ty)) : List (Ty × Ty) :=
  pairs.flatMap fun q => Ty.met q.1 q.2

lemma Ty.met_eq (a b : Ty) : Ty.met a b = Ty.metBelow (Ty.parts a b) ++ [(a, b)] := by
  rw [Ty.met, Ty.metBelow]
  congr 1
  have hval := List.flatMap_map Subtype.val (fun q : Ty × Ty => Ty.met q.1 q.2)
    (l := (Ty.parts a b).attach)
  rw [← hval, List.attach_map_subtype_val]

@[simp] lemma Ty.metBelow_nil : Ty.metBelow [] = [] := rfl

@[simp] lemma Ty.metBelow_cons (a b : Ty) (pairs : List (Ty × Ty)) :
    Ty.metBelow ((a, b) :: pairs) =
      Ty.metBelow (Ty.parts a b) ++ (a, b) :: Ty.metBelow pairs := by
  rw [Ty.metBelow, List.flatMap_cons, Ty.met_eq, List.append_assoc]
  rfl

/-! ## What a pair teaches -/

def Ty.isDyn : Ty → Bool
  | .dyn _ => true
  | _ => false

/-- Whether one is a shared and the other a mutable reference. -/
def Ty.areMixedRefs : Ty → Ty → Bool
  | .ref access _ _, .ref access' _ _ => access != access'
  | _, _ => false

/-- Whether a pair that is met says that its types are equal. -/
def Ty.isEqualPair (pair : Ty × Ty) : Bool :=
  !pair.1.isDyn && !pair.2.isDyn && !Ty.areMixedRefs pair.1 pair.2

/-- What a pair of a trait object and another type demands of the other type. -/
def Ty.demand : Ty × Ty → Option Constraint
  | (.dyn _, .dyn _) => none
  | (.dyn bounds, t) => some (.type t bounds [])
  | (t, .dyn bounds) => some (.type t bounds [])
  | _ => none

/-- What is to be done about a pair that is met. -/
def Ty.lesson : Ty × Ty → Option Step
  | (.dyn _, .dyn _) => none
  | (.dyn bounds, t) => some (.constrain t bounds)
  | (t, .dyn bounds) => some (.constrain t bounds)
  | (a, b) => if Ty.areMixedRefs a b then none else some (.merge a b)

/-- The two types that a step finds equal. -/
def Step.merged : Step → Option (Ty × Ty)
  | .merge a b => some (a, b)
  | .constrain _ _ => none

/-- The constraint that a step comes upon. -/
def Step.demanded : Step → Option Constraint
  | .merge _ _ => none
  | .constrain t bounds => some (.type t bounds [])

lemma Ty.bind_lesson_merged (pair : Ty × Ty) :
    (Ty.lesson pair).bind Step.merged = if Ty.isEqualPair pair then some pair else none := by
  obtain ⟨a, b⟩ := pair
  cases a <;> cases b <;>
    simp [Ty.lesson, Ty.isEqualPair, Ty.isDyn, Ty.areMixedRefs, Step.merged]
  split_ifs <;> rfl

lemma Ty.bind_lesson_demanded (pair : Ty × Ty) :
    (Ty.lesson pair).bind Step.demanded = Ty.demand pair := by
  obtain ⟨a, b⟩ := pair
  cases a <;> cases b <;> simp [Ty.lesson, Ty.demand, Ty.areMixedRefs, Step.demanded]

/-! ## Alignments without a clash -/

lemma Alignment.of_andThen {x y : Alignment} (h : (x.andThen y).clash = none) :
    x.clash = none ∧ y.clash = none ∧ (x.andThen y).steps = x.steps ++ y.steps := by
  obtain ⟨steps, _ | c⟩ := x
  · exact ⟨rfl, h, rfl⟩
  · cases h

/-- What the pairs met below several pairs teach. -/
def Ty.lessons (pairs : List (Ty × Ty)) : List Step := (Ty.metBelow pairs).filterMap Ty.lesson

@[simp] lemma Ty.lessons_nil : Ty.lessons [] = [] := rfl

lemma Ty.lessons_append (xs ys : List (Ty × Ty)) :
    Ty.lessons (xs ++ ys) = Ty.lessons xs ++ Ty.lessons ys := by
  simp [Ty.lessons, Ty.metBelow]

lemma Ty.lessons_cons (a b : Ty) (pairs : List (Ty × Ty)) :
    Ty.lessons ((a, b) :: pairs) =
      (Ty.lessons (Ty.parts a b) ++ (Ty.lesson (a, b)).toList) ++ Ty.lessons pairs := by
  rw [Ty.lessons, Ty.metBelow_cons, List.filterMap_append, List.filterMap_cons, List.append_assoc]
  congr 1
  cases Ty.lesson (a, b) <;> rfl

lemma Ty.lessons_single (a b : Ty) :
    Ty.lessons [(a, b)] = Ty.lessons (Ty.parts a b) ++ (Ty.lesson (a, b)).toList := by
  rw [Ty.lessons_cons, Ty.lessons_nil, List.append_nil]

mutual

/-- The steps of an alignment without a clash are the lessons of the walk. -/
lemma Ty.steps_align (a b : Ty) (h : (Ty.align a b).clash = none) :
    (Ty.align a b).steps = Ty.lessons [(a, b)] := by
  rw [Ty.lessons_single]
  cases a with
  | infer => cases b <;> simp [Ty.align, Ty.parts, Ty.lesson, Ty.areMixedRefs, Alignment.step]
  | str => cases b <;> simp [Ty.align, Ty.parts, Ty.lesson, Ty.areMixedRefs, Alignment.step]
  | deref x => cases b <;> simp [Ty.align, Ty.parts, Ty.lesson, Ty.areMixedRefs, Alignment.step]
  | data _ _ _ => cases b <;> simp [Ty.align, Ty.parts, Ty.lesson, Ty.areMixedRefs, Alignment.step]
  | param p => cases b <;> simp [Ty.align, Ty.parts, Ty.lesson, Ty.areMixedRefs, Alignment.step]
  | tuple xs =>
    cases b with
    | tuple ys =>
      by_cases hlen : xs.length = ys.length
      · simp only [Ty.align, if_pos hlen] at h ⊢
        obtain ⟨hx, -, hsteps⟩ := Alignment.of_andThen h
        rw [hsteps, Ty.steps_alignEach xs ys hx, Ty.parts, if_pos hlen]
        simp [Ty.lesson, Ty.areMixedRefs, Alignment.step]
      · simp [Ty.align, hlen, Alignment.fail] at h
    | _ => simp [Ty.align, Ty.parts, Ty.lesson, Ty.areMixedRefs, Alignment.step]
  | ref access x l =>
    cases b with
    | ref access' y k =>
      by_cases hacc : access = access'
      · simp only [Ty.align, if_pos hacc] at h ⊢
        obtain ⟨hx, -, hsteps⟩ := Alignment.of_andThen h
        rw [hsteps, Ty.steps_align x y hx]
        simp [Ty.parts, Ty.lesson, Ty.areMixedRefs, hacc, Alignment.step]
      · simp only [Ty.align, if_neg hacc] at h ⊢
        rw [Ty.steps_align x y h]
        simp [Ty.parts, Ty.lesson, Ty.areMixedRefs, hacc]
    | _ => simp [Ty.align, Ty.parts, Ty.lesson, Ty.areMixedRefs, Alignment.step]
  | dyn xs =>
    cases b with
    | dyn ys =>
      by_cases hlen : xs.length = ys.length
      · simp only [Ty.align, if_pos hlen] at h ⊢
        rw [Bound.steps_alignEach xs ys h, Ty.parts, if_pos hlen]
        simp [Ty.lesson]
      · simp [Ty.align, hlen, Alignment.fail] at h
    | _ => simp [Ty.align, Ty.parts, Ty.lesson, Alignment.step]
  | path p =>
    cases b with
    | path q =>
      simp only [Ty.align] at h ⊢
      obtain ⟨hp, -, hsteps⟩ := Alignment.of_andThen h
      rw [hsteps, Path.steps_align p q hp]
      simp [Ty.parts, Ty.lesson, Ty.areMixedRefs, Alignment.step]
    | _ => simp [Ty.align, Ty.parts, Ty.lesson, Ty.areMixedRefs, Alignment.step]
termination_by structural a

lemma Ty.steps_alignEach (xs ys : List Ty) (h : (Ty.alignEach xs ys).clash = none) :
    (Ty.alignEach xs ys).steps = Ty.lessons (xs.zip ys) := by
  cases xs with
  | nil => simp [Ty.alignEach, Alignment.nothing]
  | cons x xs =>
    cases ys with
    | nil => simp [Ty.alignEach, Alignment.nothing]
    | cons y ys =>
      rw [Ty.alignEach] at h ⊢
      obtain ⟨hx, hxs, hsteps⟩ := Alignment.of_andThen h
      rw [hsteps, Ty.steps_align x y hx, Ty.steps_alignEach xs ys hxs, ← Ty.lessons_append,
        List.zip_cons_cons, List.singleton_append]
termination_by structural xs

lemma Path.steps_align (p q : Path) (h : (Path.align p q).clash = none) :
    (Path.align p q).steps = Ty.lessons (p.last.args.parts q.last.args) := by
  obtain ⟨isGlobal, init, ⟨name, args⟩⟩ := p
  simp only [Path.align] at h ⊢
  split_ifs at h ⊢
  · simp [Alignment.fail] at h
  · exact Args.steps_align args q.last.args h
termination_by structural p

lemma Args.steps_align (as bs : Args) (h : (Args.align as bs).clash = none) :
    (Args.align as bs).steps = Ty.lessons (as.parts bs) := by
  cases as with
  | angle as =>
    cases bs with
    | angle bs =>
      simp only [Args.align, Args.parts] at h ⊢
      split_ifs at h ⊢
      · exact Arg.steps_alignEach as bs h
      · simp [Alignment.nothing]
    | _ => simp [Args.align, Args.parts, Alignment.nothing]
  | _ => simp [Args.align, Args.parts, Alignment.nothing]
termination_by structural as

lemma Arg.steps_align (a b : Arg) (h : (Arg.align a b).clash = none) :
    (Arg.align a b).steps = Ty.lessons (Arg.bothTypes (a, b)).toList := by
  cases a with
  | type s =>
    cases b with
    | type t =>
      rw [Arg.align] at h ⊢
      exact Ty.steps_align s t h
    | lifetime k => simp [Arg.align, Alignment.fail] at h
  | lifetime l =>
    cases b with
    | type t => simp [Arg.align, Alignment.fail] at h
    | lifetime k => simp [Arg.align, Arg.bothTypes, Alignment.nothing]
termination_by structural a

lemma Arg.steps_alignEach (as bs : List Arg) (h : (Arg.alignEach as bs).clash = none) :
    (Arg.alignEach as bs).steps = Ty.lessons ((as.zip bs).filterMap Arg.bothTypes) := by
  cases as with
  | nil => simp [Arg.alignEach, Alignment.nothing]
  | cons a as =>
    cases bs with
    | nil => simp [Arg.alignEach, Alignment.nothing]
    | cons b bs =>
      rw [Arg.alignEach] at h ⊢
      obtain ⟨ha, has, hsteps⟩ := Alignment.of_andThen h
      rw [hsteps, Arg.steps_align a b ha, Arg.steps_alignEach as bs has, ← Ty.lessons_append,
        List.zip_cons_cons, List.filterMap_cons]
      cases Arg.bothTypes (a, b) <;> rfl
termination_by structural as

lemma Bound.steps_align (b c : Bound) (h : (Bound.align b c).clash = none) :
    (Bound.align b c).steps = Ty.lessons (Bound.parts (b, c)) := by
  cases b with
  | trait p _ =>
    cases c with
    | trait q _ =>
      rw [Bound.align] at h ⊢
      exact Path.steps_align p q h
    | outlives _ => simp [Bound.align, Bound.parts, Alignment.nothing]
  | outlives l => simp [Bound.align, Bound.parts, Alignment.nothing]
termination_by structural b

lemma Bound.steps_alignEach (xs ys : List Bound) (h : (Bound.alignEach xs ys).clash = none) :
    (Bound.alignEach xs ys).steps = Ty.lessons ((xs.zip ys).flatMap Bound.parts) := by
  cases xs with
  | nil => simp [Bound.alignEach, Alignment.nothing]
  | cons x xs =>
    cases ys with
    | nil => simp [Bound.alignEach, Alignment.nothing]
    | cons y ys =>
      rw [Bound.alignEach] at h ⊢
      obtain ⟨hx, hxs, hsteps⟩ := Alignment.of_andThen h
      rw [hsteps, Bound.steps_align x y hx, Bound.steps_alignEach xs ys hxs, ← Ty.lessons_append,
        List.zip_cons_cons, List.flatMap_cons]
termination_by structural xs

end

end WhereClause
