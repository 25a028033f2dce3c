import Mathlib.Data.List.Basic
import WhereClause.Proofs.Distinct
import WhereClause.Ty.Nested
import WhereClause.Ty.Renaming

/-!
# Being nested in a type

A parameter is nested in a type if one gets to it through tuples, references and the arguments in
angle brackets of any segment of a path (`Param.NestedIn`).  Where the parameters nested in a type
can be collected, exactly these are, each once (`Ty.mem_nestedParams_iff`).
-/

namespace WhereClause

/-- The parameter is got to through tuples, references and arguments in angle brackets. -/
inductive Param.NestedIn (p : Param) : Ty → Prop
  | param : NestedIn p (.param p)
  | element {ts : List Ty} {t : Ty} : t ∈ ts → NestedIn p t → NestedIn p (.tuple ts)
  | pointee {access : Access} {t : Ty} {l : Option Lifetime} :
      NestedIn p t → NestedIn p (.ref access t l)
  | argument {path : Path} {s : Segment} {as : List Arg} {t : Ty} :
      s ∈ path.segments → s.args = .angle as → .type t ∈ as → NestedIn p t →
      NestedIn p (.path path)

namespace Param

variable {p : Param}

lemma nestedIn_tuple_iff {ts : List Ty} : p.NestedIn (.tuple ts) ↔ ∃ t ∈ ts, p.NestedIn t := by
  constructor
  · intro h
    cases h with
    | element ht hp => exact ⟨_, ht, hp⟩
  · rintro ⟨t, ht, hp⟩
    exact .element ht hp

lemma nestedIn_ref_iff {access : Access} {t : Ty} {l : Option Lifetime} :
    p.NestedIn (.ref access t l) ↔ p.NestedIn t := by
  constructor
  · intro h
    cases h with
    | pointee hp => exact hp
  · exact .pointee

/-- The parameter is nested in a type among the arguments. -/
def NestedInArgs (p : Param) (as : Args) : Prop :=
  ∃ bs t, as = .angle bs ∧ .type t ∈ bs ∧ p.NestedIn t

lemma nestedIn_path_iff {path : Path} :
    p.NestedIn (.path path) ↔ ∃ s ∈ path.segments, p.NestedInArgs s.args := by
  constructor
  · intro h
    cases h with
    | argument hs has ht hp => exact ⟨_, hs, _, _, has, ht, hp⟩
  · rintro ⟨s, hs, as, t, has, ht, hp⟩
    exact .argument hs has ht hp

end Param

/-! ## Collecting -/

/-- Where something is collected, it is all that there is of some kind. -/
def Gathers (P : Param → Prop) : Except Cause (List Param) → Prop
  | .ok ps => ∀ p, p ∈ ps ↔ P p
  | .error _ => True

namespace Gathers

variable {P Q : Param → Prop}

lemma nil (h : ∀ p, ¬ P p) : Gathers P (.ok []) := fun p =>
  ⟨fun hp => absurd hp List.not_mem_nil, fun hp => absurd hp (h p)⟩

lemma congr {x : Except Cause (List Param)} (hx : Gathers P x) (h : ∀ p, P p ↔ Q p) :
    Gathers Q x := by
  rcases x with c | ps
  · trivial
  · exact fun p => (hx p).trans (h p)

lemma append {x y : Except Cause (List Param)} (hx : Gathers P x) (hy : Gathers Q y) :
    Gathers (fun p => P p ∨ Q p) (do
      let ps ← x
      let qs ← y
      return ps ++ qs) := by
  rcases x with c | ps
  · trivial
  · rcases y with c | qs
    · trivial
    · exact fun p => List.mem_append.trans (or_congr (hx p) (hy p))

end Gathers

mutual

/-- What is collected from a type is what is nested in it. -/
lemma Ty.gathers_nested (t : Ty) : Gathers (·.NestedIn t) t.nested := by
  cases t with
  | tuple ts => exact (Ty.gathers_nestedEach ts).congr fun _ => Param.nestedIn_tuple_iff.symm
  | ref access t l => exact (Ty.gathers_nested t).congr fun _ => Param.nestedIn_ref_iff.symm
  | path path => exact (Path.gathers_nested path).congr fun _ => Param.nestedIn_path_iff.symm
  | param p =>
    intro q
    constructor
    · intro hq
      obtain rfl : q = p := List.mem_singleton.1 hq
      exact .param
    · intro hq
      cases hq
      exact List.mem_singleton_self p
  | infer | str | deref _ | dyn _ | data _ _ _ => exact .nil fun p hp => nomatch hp
termination_by structural t

lemma Ty.gathers_nestedEach (ts : List Ty) :
    Gathers (fun p => ∃ t ∈ ts, p.NestedIn t) (Ty.nestedEach ts) := by
  cases ts with
  | nil => exact .nil (by simp)
  | cons t ts =>
    exact ((Ty.gathers_nested t).append (Ty.gathers_nestedEach ts)).congr fun _ => by simp
termination_by structural ts

lemma Path.gathers_nested (path : Path) :
    Gathers (fun p => ∃ s ∈ path.segments, p.NestedInArgs s.args) path.nested := by
  obtain ⟨isGlobal, init, last⟩ := path
  refine ((Segment.gathers_nestedEach _ init).append (Segment.gathers_nested _ last)).congr ?_
  intro p
  simp [Path.segments, or_and_right, exists_or]
termination_by structural path

lemma Segment.gathers_nested (whole : Path) (s : Segment) :
    Gathers (·.NestedInArgs s.args) (s.nested whole) := by
  obtain ⟨name, args⟩ := s
  exact Args.gathers_nested whole args
termination_by structural s

lemma Segment.gathers_nestedEach (whole : Path) (ss : List Segment) :
    Gathers (fun p => ∃ s ∈ ss, p.NestedInArgs s.args) (Segment.nestedEach whole ss) := by
  cases ss with
  | nil => exact .nil (by simp)
  | cons s ss =>
    refine ((Segment.gathers_nested whole s).append (Segment.gathers_nestedEach whole ss)).congr ?_
    simp
termination_by structural ss

lemma Args.gathers_nested (whole : Path) (as : Args) :
    Gathers (·.NestedInArgs as) (as.nested whole) := by
  cases as with
  | none => exact .nil (by simp [Param.NestedInArgs])
  | angle as => exact (Arg.gathers_nestedEach as).congr (by simp [Param.NestedInArgs])
  | paren inputs output => trivial
termination_by structural as

lemma Arg.gathers_nestedEach (as : List Arg) :
    Gathers (fun p => ∃ t, .type t ∈ as ∧ p.NestedIn t) (Arg.nestedEach as) := by
  cases as with
  | nil => exact .nil (by simp)
  | cons a as =>
    cases a with
    | type t =>
      refine ((Ty.gathers_nested t).append (Arg.gathers_nestedEach as)).congr ?_
      simp [or_and_right, exists_or]
    | lifetime l => exact (Arg.gathers_nestedEach as).congr (by simp)
termination_by structural as

end

/-- The parameters that are collected from a type are, up to their names, those nested in it. -/
theorem Ty.mem_nestedParams_iff {t : Ty} {ps : List Param} (h : t.nestedParams = .ok ps) :
    (∀ p ∈ ps, p.NestedIn t) ∧ ∀ p, p.NestedIn t → ∃ q ∈ ps, (q == p) = true := by
  have hgathers := t.gathers_nested
  rw [Ty.nestedParams] at h
  rcases hnested : t.nested with c | qs
  · rw [hnested] at h
    cases h
  · rw [hnested] at h hgathers
    obtain rfl := Except.ok.inj h
    refine ⟨fun p hp => (hgathers p).1 (Distinct.mem_of_mem_ofList hp), fun p hp => ?_⟩
    have hin : (Distinct.ofList qs).contains p = true := by
      rw [Distinct.contains_ofList]
      exact List.contains_iff_exists_mem_beq.2 ⟨p, (hgathers p).2 hp, BEq.rfl⟩
    obtain ⟨q, hq, hqp⟩ := List.contains_iff_exists_mem_beq.1 hin
    exact ⟨q, hq, BEq.symm hqp⟩

end WhereClause
