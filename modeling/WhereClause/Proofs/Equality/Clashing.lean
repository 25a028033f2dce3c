import Mathlib
import WhereClause.Equality.Evidence

/-!
# Where a walk fails

A walk lays not only types side by side, but also paths and generic arguments.  `Pairing.walk` lists
all that it comes to: a pairing before what is inside it, and from left to right.  Whether a pairing
clashes can be told from the two terms as they stand (`Pairing.clash?`), and a walk fails at the
first pairing that does.

The main statement is `Evidence.equate_fails`: nothing but the two types decides whether finding
them equal fails, and for what cause.  No check is one-sided, so the types in the opposite order
fail for the same cause, with its operands in the opposite order.
-/

namespace WhereClause

/-- Two terms of one sort that a walk lays side by side. -/
inductive Pairing where
  | types (a b : Ty)
  | paths (p q : Path)
  | args (a b : Arg)

namespace Pairing

/-! ## What a walk comes to -/

/-- What is wrong with a pairing, whatever is inside it. -/
def clash? : Pairing → Option Cause
  | .types (.tuple xs) (.tuple ys) =>
    if xs.length = ys.length then none else some (.tupleArity (.tuple xs) (.tuple ys))
  | .types (.dyn xs) (.dyn ys) =>
    if xs.length = ys.length then none else some (.boundCount (.dyn xs) (.dyn ys))
  | .types _ _ => none
  | .paths p q =>
    if p.last.args.isParen || q.last.args.isParen then some (.parenthesized [.path p, .path q])
    else none
  | .args (.type _) (.type _) => none
  | .args (.lifetime _) (.lifetime _) => none
  | .args a b => some (.typeAgainstLifetime a b)

/-- The traits of two bounds, if both bounds are traits. -/
def ofBounds? : Bound × Bound → Option Pairing
  | (.trait p _, .trait q _) => some (.paths p q)
  | _ => none

/-- The arguments of two segments, if they stand between angle brackets and are equally many. -/
def ofArgs : Args → Args → List Pairing
  | .angle as, .angle bs =>
    if as.length = bs.length then (as.zip bs).map fun ab => args ab.1 ab.2 else []
  | _, _ => []

/-- The pairings that a walk goes on to, unless it fails.  Where shapes differ there are none. -/
def parts : Pairing → List Pairing
  | .types (.tuple xs) (.tuple ys) => (xs.zip ys).map fun xy => types xy.1 xy.2
  | .types (.ref _ x _) (.ref _ y _) => [.types x y]
  | .types (.dyn xs) (.dyn ys) => (xs.zip ys).filterMap ofBounds?
  | .types (.path p) (.path q) => [.paths p q]
  | .types _ _ => []
  | .paths p q => ofArgs p.last.args q.last.args
  | .args (.type s) (.type t) => [.types s t]
  | .args _ _ => []

/-- The size of the first of two terms. -/
noncomputable def size : Pairing → ℕ
  | .types a _ => sizeOf a
  | .paths p _ => sizeOf p
  | .args a _ => sizeOf a

lemma size_lt_of_mem_ofArgs {as bs : Args} {q : Pairing} (h : q ∈ ofArgs as bs) :
    q.size < sizeOf as := by
  cases as <;> cases bs <;> simp only [ofArgs, List.not_mem_nil] at h
  rename_i as bs
  split_ifs at h
  · obtain ⟨⟨a, b⟩, hab, rfl⟩ := List.mem_map.1 h
    have hlt := List.sizeOf_lt_of_mem (List.of_mem_zip hab).1
    simp only [size, Args.angle.sizeOf_spec]
    omega
  · simp at h

lemma size_lt_of_mem_parts {p q : Pairing} (h : q ∈ p.parts) : q.size < p.size := by
  cases p with
  | types a b =>
    cases a <;> cases b <;> simp only [parts, List.not_mem_nil] at h
    case tuple.tuple xs ys =>
      obtain ⟨⟨x, y⟩, hxy, rfl⟩ := List.mem_map.1 h
      have hlt := List.sizeOf_lt_of_mem (List.of_mem_zip hxy).1
      simp only [size, Ty.tuple.sizeOf_spec]
      omega
    case ref.ref =>
      obtain rfl := List.mem_singleton.1 h
      simp only [size, Ty.ref.sizeOf_spec]
      omega
    case dyn.dyn xs ys =>
      obtain ⟨⟨b, c⟩, hbc, hq⟩ := List.mem_filterMap.1 h
      have hlt := List.sizeOf_lt_of_mem (List.of_mem_zip hbc).1
      cases b <;> cases c <;> simp only [ofBounds?, reduceCtorEq, Option.some.injEq] at hq
      subst hq
      simp only [size, Ty.dyn.sizeOf_spec, Bound.trait.sizeOf_spec] at hlt ⊢
      omega
    case path.path =>
      obtain rfl := List.mem_singleton.1 h
      simp only [size, Ty.path.sizeOf_spec]
      omega
  | paths p q =>
    have hlt := size_lt_of_mem_ofArgs h
    obtain ⟨_, _, _, _⟩ := p
    simp only [size, Path.mk.sizeOf_spec, Segment.mk.sizeOf_spec] at hlt ⊢
    omega
  | args a b =>
    cases a <;> cases b <;> simp only [parts, List.not_mem_nil] at h
    obtain rfl := List.mem_singleton.1 h
    simp only [size, Arg.type.sizeOf_spec]
    omega

/-- All that the walk over a pairing comes to if nothing stops it, in order. -/
def walk (p : Pairing) : List Pairing :=
  p :: p.parts.attach.flatMap fun q => walk q.1
termination_by p.size
decreasing_by exact size_lt_of_mem_parts q.2

lemma walk_eq (p : Pairing) : p.walk = p :: p.parts.flatMap walk := by
  rw [walk]
  congr 1
  have hval := List.flatMap_map Subtype.val walk (l := p.parts.attach)
  rw [← hval, List.attach_map_subtype_val]

/-- The cause for which the walk over a pairing fails. -/
def firstClash (p : Pairing) : Option Cause := p.walk.findSome? clash?

/-- A walk fails at a pairing itself, or else at the first of its parts that fails. -/
lemma firstClash_eq (p : Pairing) : p.firstClash = p.clash?.or (p.parts.findSome? firstClash) := by
  have hparts : ∀ qs : List Pairing,
      (qs.flatMap walk).findSome? clash? = qs.findSome? firstClash := by
    intro qs
    induction qs with
    | nil => rfl
    | cons q qs ih =>
      rw [List.flatMap_cons, List.findSome?_append, ih, List.findSome?_cons, firstClash]
      cases q.walk.findSome? clash? <;> rfl
  rw [firstClash, walk_eq, List.findSome?_cons, hparts]
  cases p.clash? <;> rfl

end Pairing

/-! ## An alignment fails where the walk does -/

lemma Alignment.clash_andThen_eq (x y : Alignment) :
    (x.andThen y).clash = x.clash.or y.clash := by
  obtain ⟨steps, _ | c⟩ := x <;> rfl

open Pairing

mutual

lemma Ty.clash_align_eq (a b : Ty) : (Ty.align a b).clash = (types a b).firstClash := by
  rw [firstClash_eq]
  cases a with
  | tuple xs =>
    cases b with
    | tuple ys =>
      by_cases hlength : xs.length = ys.length
      · simp only [Ty.align, Pairing.clash?, Pairing.parts, if_pos hlength, Option.none_or]
        rw [Alignment.clash_andThen_eq, Ty.clash_alignEach_eq xs ys]
        exact Option.or_none
      · simp [Ty.align, Pairing.clash?, hlength, Alignment.fail]
    | _ => simp [Ty.align, Pairing.clash?, Pairing.parts, Alignment.step]
  | ref access x l =>
    cases b with
    | ref access' y k =>
      have hinner := Ty.clash_align_eq x y
      simp only [Ty.align, Pairing.clash?, Pairing.parts, Option.none_or, List.findSome?_singleton]
      split_ifs
      · rw [Alignment.clash_andThen_eq, hinner]
        exact Option.or_none
      · exact hinner
    | _ => simp [Ty.align, Pairing.clash?, Pairing.parts, Alignment.step]
  | dyn xs =>
    cases b with
    | dyn ys =>
      by_cases hlength : xs.length = ys.length
      · simp only [Ty.align, Pairing.clash?, Pairing.parts, if_pos hlength, Option.none_or]
        exact Bound.clash_alignEach_eq xs ys
      · simp [Ty.align, Pairing.clash?, hlength, Alignment.fail]
    | _ => simp [Ty.align, Pairing.clash?, Pairing.parts, Alignment.step]
  | path p =>
    cases b with
    | path q =>
      simp only [Ty.align, Pairing.clash?, Pairing.parts, Option.none_or, List.findSome?_singleton]
      rw [Alignment.clash_andThen_eq, Path.clash_align_eq p q]
      exact Option.or_none
    | _ => simp [Ty.align, Pairing.clash?, Pairing.parts, Alignment.step]
  | infer | str | deref _ | data _ _ _ | param _ =>
    cases b <;> simp [Ty.align, Pairing.clash?, Pairing.parts, Alignment.step]
termination_by structural a

lemma Ty.clash_alignEach_eq (xs ys : List Ty) :
    (Ty.alignEach xs ys).clash =
      ((xs.zip ys).map fun xy => types xy.1 xy.2).findSome? firstClash := by
  cases xs with
  | nil => simp [Ty.alignEach, Alignment.nothing]
  | cons x xs =>
    cases ys with
    | nil => simp [Ty.alignEach, Alignment.nothing]
    | cons y ys =>
      rw [Ty.alignEach, Alignment.clash_andThen_eq, Ty.clash_align_eq x y,
        Ty.clash_alignEach_eq xs ys, List.zip_cons_cons, List.map_cons, List.findSome?_cons]
      cases (types x y).firstClash <;> rfl
termination_by structural xs

lemma Path.clash_align_eq (p q : Path) : (Path.align p q).clash = (paths p q).firstClash := by
  rw [firstClash_eq]
  obtain ⟨isGlobal, init, ⟨name, args⟩⟩ := p
  simp only [Path.align, Pairing.clash?, Pairing.parts]
  split_ifs
  · rfl
  · exact Args.clash_align_eq args q.last.args
termination_by structural p

lemma Args.clash_align_eq (as bs : Args) :
    (Args.align as bs).clash = (ofArgs as bs).findSome? firstClash := by
  cases as with
  | angle as =>
    cases bs with
    | angle bs =>
      rw [Args.align, ofArgs]
      split_ifs
      · exact Arg.clash_alignEach_eq as bs
      · rfl
    | _ => simp [Args.align, ofArgs, Alignment.nothing]
  | _ => simp [Args.align, ofArgs, Alignment.nothing]
termination_by structural as

lemma Arg.clash_align_eq (a b : Arg) : (Arg.align a b).clash = (args a b).firstClash := by
  rw [firstClash_eq]
  cases a with
  | type s =>
    cases b with
    | type t =>
      simp only [Arg.align, Pairing.clash?, Pairing.parts, Option.none_or,
        List.findSome?_singleton]
      exact Ty.clash_align_eq s t
    | lifetime k => simp [Arg.align, Pairing.clash?, Alignment.fail]
  | lifetime l =>
    cases b <;>
      simp [Arg.align, Pairing.clash?, Pairing.parts, Alignment.fail, Alignment.nothing]
termination_by structural a

lemma Arg.clash_alignEach_eq (as bs : List Arg) :
    (Arg.alignEach as bs).clash =
      ((as.zip bs).map fun ab => args ab.1 ab.2).findSome? firstClash := by
  cases as with
  | nil => simp [Arg.alignEach, Alignment.nothing]
  | cons a as =>
    cases bs with
    | nil => simp [Arg.alignEach, Alignment.nothing]
    | cons b bs =>
      rw [Arg.alignEach, Alignment.clash_andThen_eq, Arg.clash_align_eq a b,
        Arg.clash_alignEach_eq as bs, List.zip_cons_cons, List.map_cons, List.findSome?_cons]
      cases (args a b).firstClash <;> rfl
termination_by structural as

lemma Bound.clash_align_eq (b c : Bound) :
    (Bound.align b c).clash = (ofBounds? (b, c)).bind firstClash := by
  cases b with
  | trait p _ =>
    cases c with
    | trait q _ =>
      rw [Bound.align]
      exact Path.clash_align_eq p q
    | outlives _ => simp [Bound.align, ofBounds?, Alignment.nothing]
  | outlives l => simp [Bound.align, ofBounds?, Alignment.nothing]
termination_by structural b

lemma Bound.clash_alignEach_eq (xs ys : List Bound) :
    (Bound.alignEach xs ys).clash = ((xs.zip ys).filterMap ofBounds?).findSome? firstClash := by
  cases xs with
  | nil => simp [Bound.alignEach, Alignment.nothing]
  | cons x xs =>
    cases ys with
    | nil => simp [Bound.alignEach, Alignment.nothing]
    | cons y ys =>
      rw [Bound.alignEach, Alignment.clash_andThen_eq, Bound.clash_align_eq x y,
        Bound.clash_alignEach_eq xs ys, List.zip_cons_cons, List.filterMap_cons]
      cases ofBounds? (x, y) with
      | none => rfl
      | some p =>
        rw [Option.bind_some, List.findSome?_cons]
        cases p.firstClash <;> rfl
termination_by structural xs

end

/-! ## The opposite order -/

/-- Of the same operands in the opposite order, the same complaint is made. -/
structure Cause.Mirrors (c d : Cause) : Prop where
  kind : d.kind = c.kind
  message : d.message = c.message
  operands : d.operands = c.operands.reverse

namespace Pairing

def swap : Pairing → Pairing
  | .types a b => .types b a
  | .paths p q => .paths q p
  | .args a b => .args b a

lemma clash?_swap (p : Pairing) : Option.Rel Cause.Mirrors p.clash? p.swap.clash? := by
  cases p with
  | types a b =>
    cases a <;> cases b <;> try exact .none
    case tuple.tuple xs ys =>
      by_cases hlength : xs.length = ys.length
      · simp only [swap, clash?, hlength, if_true]
        exact .none
      · simp only [swap, clash?, if_neg hlength, if_neg (Ne.symm hlength)]
        exact .some ⟨rfl, rfl, rfl⟩
    case dyn.dyn xs ys =>
      by_cases hlength : xs.length = ys.length
      · simp only [swap, clash?, hlength, if_true]
        exact .none
      · simp only [swap, clash?, if_neg hlength, if_neg (Ne.symm hlength)]
        exact .some ⟨rfl, rfl, rfl⟩
  | paths p q =>
    rw [swap, clash?, clash?, Bool.or_comm]
    split_ifs
    · exact .some ⟨rfl, rfl, rfl⟩
    · exact .none
  | args a b =>
    cases a <;> cases b
    · exact .none
    · exact .some ⟨rfl, rfl, rfl⟩
    · exact .some ⟨rfl, rfl, rfl⟩
    · exact .none

lemma ofBounds?_swap (b c : Bound) : ofBounds? (c, b) = (ofBounds? (b, c)).map swap := by
  cases b <;> cases c <;> rfl

lemma ofArgs_swap (as bs : Args) : ofArgs bs as = (ofArgs as bs).map swap := by
  cases as <;> cases bs <;> try rfl
  rename_i as bs
  by_cases hlength : as.length = bs.length
  · rw [ofArgs, ofArgs, if_pos hlength, if_pos hlength.symm, ← List.zip_swap, List.map_map,
      List.map_map]
    rfl
  · rw [ofArgs, ofArgs, if_neg hlength, if_neg (Ne.symm hlength), List.map_nil]

/-- The walk goes to the same places in the opposite order of the terms. -/
lemma parts_swap (p : Pairing) : p.swap.parts = p.parts.map swap := by
  cases p with
  | types a b =>
    cases a <;> cases b <;> try rfl
    case tuple.tuple xs ys =>
      rw [swap, parts, parts, ← List.zip_swap, List.map_map, List.map_map]
      rfl
    case dyn.dyn xs ys =>
      rw [swap, parts, parts, ← List.zip_swap, List.filterMap_map, List.map_filterMap]
      refine List.filterMap_congr fun bc _ => ?_
      exact ofBounds?_swap bc.1 bc.2
  | paths p q => exact ofArgs_swap p.last.args q.last.args
  | args a b => cases a <;> cases b <;> rfl

lemma walk_swap (p : Pairing) : p.swap.walk = p.walk.map swap := by
  induction p using walk.induct with
  | case1 p ih =>
    have hparts : p.parts.flatMap (walk ∘ swap) = p.parts.flatMap fun q => q.walk.map swap := by
      refine List.flatMap_congr fun q hq => ?_
      exact ih ⟨q, hq⟩
    rw [walk_eq, walk_eq, parts_swap, List.flatMap_map, List.map_cons, List.map_flatMap]
    exact congrArg _ hparts

/-- The walk fails at the same place in the opposite order of the terms. -/
lemma firstClash_swap (p : Pairing) : Option.Rel Cause.Mirrors p.firstClash p.swap.firstClash := by
  rw [firstClash, firstClash, walk_swap]
  generalize p.walk = ps
  induction ps with
  | nil => exact .none
  | cons q qs ih =>
    rw [List.map_cons, List.findSome?_cons, List.findSome?_cons]
    rcases hclash : q.clash? with _ | c <;> rcases hswap : q.swap.clash? with _ | d <;>
      have hmirrors := q.clash?_swap <;> rw [hclash, hswap] at hmirrors
    · exact ih
    · cases hmirrors
    · cases hmirrors
    · exact hmirrors

end Pairing

/-- Whatever is known so far, finding two types equal fails exactly if something clashes that the
walk over the two comes to, and for the first such cause.  In the opposite order of the types, and
whatever else is known then, the same complaint is made, or none. -/
theorem Evidence.equate_fails (e e' : Evidence) (a b : Ty) :
    (e.equate a b).2 = (types a b).walk.findSome? Pairing.clash? ∧
      Option.Rel Cause.Mirrors (e.equate a b).2 (e'.equate b a).2 := by
  have hfails (e : Evidence) (a b : Ty) : (e.equate a b).2 = (types a b).firstClash :=
    Ty.clash_align_eq a b
  constructor
  · exact hfails e a b
  · rw [hfails e a b, hfails e' b a]
    exact (types a b).firstClash_swap

end WhereClause
