import Mathlib
import WhereClause.Proofs.Distinct
import WhereClause.Ty.Age
import WhereClause.Ty.Nested
import WhereClause.Ty.Renaming

/-!
# Terms under a renaming

A renaming is orderly if it renumbers type parameters in order and lifetimes apart.  Names may
change at will.  An orderly renaming goes unnoticed by all that looks at terms: it keeps equality
(`Ty.same_rename`) and age, and the parameters of a renamed term are the renamed parameters of the
term.
-/

namespace WhereClause

/-- Type parameters get numbers in the same order, and different lifetimes get different numbers. -/
structure Renaming.Orderly (ρ : Renaming) : Prop where
  param : ∃ f : ℤ → ℤ, StrictMono f ∧ ∀ p, (ρ.onParam p).number = f p.number
  lifetime : ∃ g : ℤ → ℤ, Function.Injective g ∧ ∀ l, (ρ.onLifetime l).number = g l.number

lemma Renaming.orderly_anonymous : Renaming.anonymous.Orderly :=
  ⟨⟨id, strictMono_id, fun _ => rfl⟩, ⟨id, Function.injective_id, fun _ => rfl⟩⟩

namespace Renaming.Orderly

variable {ρ : Renaming} (h : ρ.Orderly)

include h

lemma number_lt_iff (p q : Param) :
    (ρ.onParam p).number < (ρ.onParam q).number ↔ p.number < q.number := by
  obtain ⟨f, hf, hnumber⟩ := h.param
  rw [hnumber, hnumber]
  exact hf.lt_iff_lt

lemma beq_onParam (p q : Param) : (ρ.onParam p == ρ.onParam q) = (p == q) := by
  obtain ⟨f, hf, hnumber⟩ := h.param
  show ((ρ.onParam p).number == (ρ.onParam q).number) = (p.number == q.number)
  rw [Bool.eq_iff_iff, beq_iff_eq, beq_iff_eq, hnumber, hnumber]
  exact hf.injective.eq_iff

lemma beq_onLifetime (l k : Lifetime) : (ρ.onLifetime l == ρ.onLifetime k) = (l == k) := by
  obtain ⟨g, hg, hnumber⟩ := h.lifetime
  show ((ρ.onLifetime l).number == (ρ.onLifetime k).number) = (l.number == k.number)
  rw [Bool.eq_iff_iff, beq_iff_eq, beq_iff_eq, hnumber, hnumber]
  exact hg.eq_iff

lemma beq_lifetimes (ls ks : List Lifetime) :
    (ls.map ρ.onLifetime == ks.map ρ.onLifetime) = (ls == ks) := by
  induction ls generalizing ks with
  | nil => cases ks <;> rfl
  | cons l ls ih =>
    cases ks with
    | nil => rfl
    | cons k ks =>
      rw [List.map_cons, List.map_cons, List.cons_beq_cons, List.cons_beq_cons, h.beq_onLifetime,
        ih]

lemma beq_lifetime? (l k : Option Lifetime) :
    (l.map ρ.onLifetime == k.map ρ.onLifetime) = (l == k) := by
  cases l with
  | none => cases k <;> rfl
  | some l =>
    cases k with
    | none => rfl
    | some k => exact h.beq_onLifetime l k

lemma older_onParam (p q : Param) :
    (ρ.onParam p).older (ρ.onParam q) = ρ.onParam (p.older q) := by
  simp only [Param.older, h.number_lt_iff]
  split_ifs <;> rfl

end Renaming.Orderly

/-! ## Equality is kept -/

section

variable {ρ : Renaming}

mutual

lemma Ty.same_rename (h : ρ.Orderly) (a b : Ty) :
    Ty.same (a.rename ρ) (b.rename ρ) = Ty.same a b := by
  cases a with
  | tuple xs => cases b <;> simp only [Ty.same, Ty.rename, Ty.sameEach_rename h xs]
  | ref access x l =>
    cases b <;> simp only [Ty.same, Ty.rename, Ty.same_rename h x, h.beq_lifetime?]
  | deref x => cases b <;> simp only [Ty.same, Ty.rename, Ty.same_rename h x]
  | dyn xs => cases b <;> simp only [Ty.same, Ty.rename, Bound.sameEach_rename h xs]
  | data name g fs =>
    cases b <;> simp only [Ty.same, Ty.rename, Generics.same_rename h g, Field.sameEach_rename h fs]
  | path p => cases b <;> simp only [Ty.same, Ty.rename, Path.same_rename h p]
  | param p => cases b <;> simp only [Ty.same, Ty.rename, h.beq_onParam]
  | infer | str => cases b <;> simp only [Ty.same, Ty.rename]
termination_by structural a

lemma Ty.sameEach_rename (h : ρ.Orderly) (as bs : List Ty) :
    Ty.sameEach (Ty.renameEach ρ as) (Ty.renameEach ρ bs) = Ty.sameEach as bs := by
  cases as with
  | nil => cases bs <;> simp only [Ty.sameEach, Ty.renameEach]
  | cons a as =>
    cases bs <;> simp only [Ty.sameEach, Ty.renameEach, Ty.same_rename h a, Ty.sameEach_rename h as]
termination_by structural as

lemma Ty.sameOption_rename (h : ρ.Orderly) (a b : Option Ty) :
    Ty.sameOption (Ty.renameOption ρ a) (Ty.renameOption ρ b) = Ty.sameOption a b := by
  cases a with
  | none => cases b <;> simp only [Ty.sameOption, Ty.renameOption]
  | some a => cases b <;> simp only [Ty.sameOption, Ty.renameOption, Ty.same_rename h a]
termination_by structural a

lemma Field.same_rename (h : ρ.Orderly) (a b : Field) :
    Field.same (a.rename ρ) (b.rename ρ) = Field.same a b := by
  obtain ⟨name, x⟩ := a
  cases b
  simp only [Field.same, Field.rename, Ty.same_rename h x]
termination_by structural a

lemma Field.sameEach_rename (h : ρ.Orderly) (as bs : List Field) :
    Field.sameEach (Field.renameEach ρ as) (Field.renameEach ρ bs) = Field.sameEach as bs := by
  cases as with
  | nil => cases bs <;> simp only [Field.sameEach, Field.renameEach]
  | cons a as =>
    cases bs <;>
      simp only [Field.sameEach, Field.renameEach, Field.same_rename h a,
        Field.sameEach_rename h as]
termination_by structural as

lemma Path.same_rename (h : ρ.Orderly) (a b : Path) :
    Path.same (a.rename ρ) (b.rename ρ) = Path.same a b := by
  obtain ⟨isGlobal, init, last⟩ := a
  cases b
  simp only [Path.same, Path.rename, Segment.sameEach_rename h init, Segment.same_rename h last]
termination_by structural a

lemma Segment.same_rename (h : ρ.Orderly) (a b : Segment) :
    Segment.same (a.rename ρ) (b.rename ρ) = Segment.same a b := by
  obtain ⟨name, args⟩ := a
  cases b
  simp only [Segment.same, Segment.rename, Args.same_rename h args]
termination_by structural a

lemma Segment.sameEach_rename (h : ρ.Orderly) (as bs : List Segment) :
    Segment.sameEach (Segment.renameEach ρ as) (Segment.renameEach ρ bs) =
      Segment.sameEach as bs := by
  cases as with
  | nil => cases bs <;> simp only [Segment.sameEach, Segment.renameEach]
  | cons a as =>
    cases bs <;>
      simp only [Segment.sameEach, Segment.renameEach, Segment.same_rename h a,
        Segment.sameEach_rename h as]
termination_by structural as

lemma Args.same_rename (h : ρ.Orderly) (a b : Args) :
    Args.same (a.rename ρ) (b.rename ρ) = Args.same a b := by
  cases a with
  | none => cases b <;> simp only [Args.same, Args.rename]
  | angle as => cases b <;> simp only [Args.same, Args.rename, Arg.sameEach_rename h as]
  | paren inputs output =>
    cases b <;>
      simp only [Args.same, Args.rename, Ty.sameEach_rename h inputs, Ty.sameOption_rename h output]
termination_by structural a

lemma Arg.same_rename (h : ρ.Orderly) (a b : Arg) :
    Arg.same (a.rename ρ) (b.rename ρ) = Arg.same a b := by
  cases a with
  | type x => cases b <;> simp only [Arg.same, Arg.rename, Ty.same_rename h x]
  | lifetime l => cases b <;> simp only [Arg.same, Arg.rename, h.beq_onLifetime]
termination_by structural a

lemma Arg.sameEach_rename (h : ρ.Orderly) (as bs : List Arg) :
    Arg.sameEach (Arg.renameEach ρ as) (Arg.renameEach ρ bs) = Arg.sameEach as bs := by
  cases as with
  | nil => cases bs <;> simp only [Arg.sameEach, Arg.renameEach]
  | cons a as =>
    cases bs <;>
      simp only [Arg.sameEach, Arg.renameEach, Arg.same_rename h a, Arg.sameEach_rename h as]
termination_by structural as

lemma Bound.same_rename (h : ρ.Orderly) (a b : Bound) :
    Bound.same (a.rename ρ) (b.rename ρ) = Bound.same a b := by
  cases a with
  | trait p binder =>
    cases b <;> simp only [Bound.same, Bound.rename, Path.same_rename h p, h.beq_lifetimes]
  | outlives l => cases b <;> simp only [Bound.same, Bound.rename, h.beq_onLifetime]
termination_by structural a

lemma Bound.sameEach_rename (h : ρ.Orderly) (as bs : List Bound) :
    Bound.sameEach (Bound.renameEach ρ as) (Bound.renameEach ρ bs) = Bound.sameEach as bs := by
  cases as with
  | nil => cases bs <;> simp only [Bound.sameEach, Bound.renameEach]
  | cons a as =>
    cases bs <;>
      simp only [Bound.sameEach, Bound.renameEach, Bound.same_rename h a,
        Bound.sameEach_rename h as]
termination_by structural as

lemma Constraint.same_rename (h : ρ.Orderly) (a b : Constraint) :
    Constraint.same (a.rename ρ) (b.rename ρ) = Constraint.same a b := by
  cases a with
  | type x bs binder =>
    cases b <;>
      simp only [Constraint.same, Constraint.rename, Ty.same_rename h x, Bound.sameEach_rename h bs,
        h.beq_lifetimes]
  | lifetime l ls =>
    cases b <;> simp only [Constraint.same, Constraint.rename, h.beq_onLifetime, h.beq_lifetimes]
termination_by structural a

lemma Constraint.sameEach_rename (h : ρ.Orderly) (as bs : List Constraint) :
    Constraint.sameEach (Constraint.renameEach ρ as) (Constraint.renameEach ρ bs) =
      Constraint.sameEach as bs := by
  cases as with
  | nil => cases bs <;> simp only [Constraint.sameEach, Constraint.renameEach]
  | cons a as =>
    cases bs <;>
      simp only [Constraint.sameEach, Constraint.renameEach, Constraint.same_rename h a,
        Constraint.sameEach_rename h as]
termination_by structural as

lemma Generics.same_rename (h : ρ.Orderly) (a b : Generics) :
    Generics.same (a.rename ρ) (b.rename ρ) = Generics.same a b := by
  obtain ⟨params, constraints⟩ := a
  cases b
  simp only [Generics.same, Generics.rename, Arg.sameEach_rename h params,
    Constraint.sameEach_rename h constraints]
termination_by structural a

end

lemma Ty.beq_rename (h : ρ.Orderly) (a b : Ty) : (a.rename ρ == b.rename ρ) = (a == b) :=
  Ty.same_rename h a b

lemma Constraint.beq_rename (h : ρ.Orderly) (a b : Constraint) :
    (a.rename ρ == b.rename ρ) = (a == b) :=
  Constraint.same_rename h a b

end

/-! ## Parameters of renamed terms -/

section

variable (ρ : Renaming)

lemma Generics.typeParams_rename (g : Generics) :
    (g.rename ρ).typeParams = g.typeParams.map ρ.onParam := by
  obtain ⟨params, constraints⟩ := g
  rw [Generics.rename, Generics.typeParams, Generics.typeParams, Arg.renameEach_eq_map,
    List.filterMap_map, List.map_filterMap]
  refine List.filterMap_congr fun a _ => ?_
  cases a with
  | lifetime l => simp only [Function.comp_apply, Arg.rename, Arg.param?, Option.map_none]
  | type t =>
    cases t <;> simp only [Function.comp_apply, Arg.rename, Ty.rename, Arg.param?, Option.map_none,
      Option.map_some]

mutual

lemma Ty.mentions_rename (t : Ty) : (t.rename ρ).mentions = t.mentions.map ρ.onParam := by
  cases t with
  | tuple ts => simp only [Ty.rename, Ty.mentions, Ty.mentionsEach_rename ts]
  | ref access t l => simp only [Ty.rename, Ty.mentions, Ty.mentions_rename t]
  | deref t => simp only [Ty.rename, Ty.mentions, Ty.mentions_rename t]
  | dyn bs => simp only [Ty.rename, Ty.mentions, Bound.mentionsEach_rename bs]
  | data name g fs => simp only [Ty.rename, Ty.mentions, Generics.typeParams_rename]
  | path p => simp only [Ty.rename, Ty.mentions, Path.mentions_rename p]
  | infer | str | param _ =>
    simp only [Ty.rename, Ty.mentions, List.map_nil, List.map_cons]
termination_by structural t

lemma Ty.mentionsEach_rename (ts : List Ty) :
    Ty.mentionsEach (Ty.renameEach ρ ts) = (Ty.mentionsEach ts).map ρ.onParam := by
  cases ts with
  | nil => simp only [Ty.renameEach, Ty.mentionsEach, List.map_nil]
  | cons t ts =>
    simp only [Ty.renameEach, Ty.mentionsEach, Ty.mentions_rename t, Ty.mentionsEach_rename ts,
      List.map_append]
termination_by structural ts

lemma Path.mentions_rename (p : Path) : (p.rename ρ).mentions = p.mentions.map ρ.onParam := by
  obtain ⟨isGlobal, init, last⟩ := p
  simp only [Path.rename, Path.mentions, Segment.mentionsEach_rename init,
    Segment.mentions_rename last, List.map_append]
termination_by structural p

lemma Segment.mentions_rename (s : Segment) :
    (s.rename ρ).mentions = s.mentions.map ρ.onParam := by
  obtain ⟨name, args⟩ := s
  simp only [Segment.rename, Segment.mentions, Args.mentions_rename args]
termination_by structural s

lemma Segment.mentionsEach_rename (ss : List Segment) :
    Segment.mentionsEach (Segment.renameEach ρ ss) = (Segment.mentionsEach ss).map ρ.onParam := by
  cases ss with
  | nil => simp only [Segment.renameEach, Segment.mentionsEach, List.map_nil]
  | cons s ss =>
    simp only [Segment.renameEach, Segment.mentionsEach, Segment.mentions_rename s,
      Segment.mentionsEach_rename ss, List.map_append]
termination_by structural ss

lemma Args.mentions_rename (as : Args) : (as.rename ρ).mentions = as.mentions.map ρ.onParam := by
  cases as with
  | none => simp only [Args.rename, Args.mentions, List.map_nil]
  | angle as => simp only [Args.rename, Args.mentions, Arg.mentionsEach_rename as]
  | paren inputs output =>
    cases output with
    | none => simp only [Args.rename, Ty.renameOption, Args.mentions, Ty.mentionsEach_rename inputs]
    | some output =>
      simp only [Args.rename, Ty.renameOption, Args.mentions, Ty.mentionsEach_rename inputs,
        Ty.mentions_rename output, List.map_append]
termination_by structural as

lemma Arg.mentions_rename (a : Arg) : (a.rename ρ).mentions = a.mentions.map ρ.onParam := by
  cases a with
  | type t => simp only [Arg.rename, Arg.mentions, Ty.mentions_rename t]
  | lifetime l => simp only [Arg.rename, Arg.mentions, List.map_nil]
termination_by structural a

lemma Arg.mentionsEach_rename (as : List Arg) :
    Arg.mentionsEach (Arg.renameEach ρ as) = (Arg.mentionsEach as).map ρ.onParam := by
  cases as with
  | nil => simp only [Arg.renameEach, Arg.mentionsEach, List.map_nil]
  | cons a as =>
    simp only [Arg.renameEach, Arg.mentionsEach, Arg.mentions_rename a,
      Arg.mentionsEach_rename as, List.map_append]
termination_by structural as

lemma Bound.mentions_rename (b : Bound) : (b.rename ρ).mentions = b.mentions.map ρ.onParam := by
  cases b with
  | trait p binder => simp only [Bound.rename, Bound.mentions, Path.mentions_rename p]
  | outlives l => simp only [Bound.rename, Bound.mentions, List.map_nil]
termination_by structural b

lemma Bound.mentionsEach_rename (bs : List Bound) :
    Bound.mentionsEach (Bound.renameEach ρ bs) = (Bound.mentionsEach bs).map ρ.onParam := by
  cases bs with
  | nil => simp only [Bound.renameEach, Bound.mentionsEach, List.map_nil]
  | cons b bs =>
    simp only [Bound.renameEach, Bound.mentionsEach, Bound.mentions_rename b,
      Bound.mentionsEach_rename bs, List.map_append]
termination_by structural bs

end

end

/-! ## Complaints about renamed terms -/

def Value.rename (ρ : Renaming) : Value → Value
  | .type t => .type (t.rename ρ)
  | .lifetime l => .lifetime (ρ.onLifetime l)
  | .bound b => .bound (b.rename ρ)
  | .constraint c => .constraint (c.rename ρ)
  | .path p => .path (p.rename ρ)
  | .segment s => .segment (s.rename ρ)
  | .args as => .args (as.rename ρ)

def Cause.rename (ρ : Renaming) : Cause → Cause
  | .notTuple t => .notTuple (t.rename ρ)
  | .noFields t => .noFields (t.rename ρ)
  | .fixedGenerics t => .fixedGenerics (t.rename ρ)
  | .boundCount a b => .boundCount (a.rename ρ) (b.rename ρ)
  | .tupleArity a b => .tupleArity (a.rename ρ) (b.rename ρ)
  | .parenthesized terms => .parenthesized (terms.map (Value.rename ρ))
  | .typeAgainstLifetime a b => .typeAgainstLifetime (a.rename ρ) (b.rename ρ)
  | .incompatible a b => .incompatible (a.rename ρ) (b.rename ρ)
  | .stated kind message operands => .stated kind message (operands.map (Value.rename ρ))

namespace Cause

variable (ρ : Renaming) (c : Cause)

@[simp] lemma kind_rename : (c.rename ρ).kind = c.kind := by cases c <;> rfl

@[simp] lemma message_rename : (c.rename ρ).message = c.message := by cases c <;> rfl

/-- The operands of a renamed complaint are renamed, and nothing else changes. -/
@[simp] lemma operands_rename : (c.rename ρ).operands = c.operands.map (Value.rename ρ) := by
  have harg : ∀ a : Arg, (a.rename ρ).toValue = a.toValue.rename ρ := by
    intro a
    cases a <;> simp only [Arg.rename, Arg.toValue, Value.rename]
  cases c with
  | typeAgainstLifetime a b =>
    simp only [rename, operands, harg, List.map_cons, List.map_nil]
  | _ => rfl

end Cause

/-- Of a result, what comes of a failure and what comes of a value. -/
def Except.mapBoth {ε ε' α α' : Type} (e : ε → ε') (f : α → α') : Except ε α → Except ε' α'
  | .error x => .error (e x)
  | .ok a => .ok (f a)

/-! ## Nested parameters -/

section

variable (ρ : Renaming)

/-- What is found in a renamed term. -/
abbrev Nested.rename : Except Cause (List Param) → Except Cause (List Param) :=
  Except.mapBoth (Cause.rename ρ) (List.map ρ.onParam)

lemma Nested.rename_append {xs ys xs' ys' : Except Cause (List Param)}
    (hxs : xs' = Nested.rename ρ xs) (hys : ys' = Nested.rename ρ ys) :
    (do let ps ← xs'; let qs ← ys'; return ps ++ qs) =
      Nested.rename ρ (do let ps ← xs; let qs ← ys; return ps ++ qs) := by
  subst hxs hys
  rcases xs with c | ps
  · rfl
  · rcases ys with c | qs
    · rfl
    · exact congrArg Except.ok (List.map_append ..).symm

mutual

lemma Ty.nested_rename (t : Ty) : (t.rename ρ).nested = Nested.rename ρ t.nested := by
  cases t with
  | tuple ts => rw [Ty.rename, Ty.nested, Ty.nested, Ty.nestedEach_rename ts]
  | ref access t l => rw [Ty.rename, Ty.nested, Ty.nested, Ty.nested_rename t]
  | path p => rw [Ty.rename, Ty.nested, Ty.nested, Path.nested_rename p]
  | infer | str | deref _ | dyn _ | data _ _ _ | param _ =>
    simp only [Ty.rename, Ty.nested]
    rfl
termination_by structural t

lemma Ty.nestedEach_rename (ts : List Ty) :
    Ty.nestedEach (Ty.renameEach ρ ts) = Nested.rename ρ (Ty.nestedEach ts) := by
  cases ts with
  | nil =>
    rw [Ty.renameEach, Ty.nestedEach]
    rfl
  | cons t ts =>
    rw [Ty.renameEach, Ty.nestedEach, Ty.nestedEach]
    exact Nested.rename_append ρ (Ty.nested_rename t) (Ty.nestedEach_rename ts)
termination_by structural ts

lemma Path.nested_rename (p : Path) : (p.rename ρ).nested = Nested.rename ρ p.nested := by
  obtain ⟨isGlobal, init, last⟩ := p
  have hwhole : (Path.mk isGlobal init last).rename ρ =
      ⟨isGlobal, Segment.renameEach ρ init, last.rename ρ⟩ := by rw [Path.rename]
  rw [hwhole, Path.nested, Path.nested, ← hwhole]
  exact Nested.rename_append ρ (Segment.nestedEach_rename _ init) (Segment.nested_rename _ last)
termination_by structural p

lemma Segment.nested_rename (whole : Path) (s : Segment) :
    Segment.nested (whole.rename ρ) (s.rename ρ) = Nested.rename ρ (Segment.nested whole s) := by
  obtain ⟨name, args⟩ := s
  rw [Segment.rename, Segment.nested, Segment.nested, Args.nested_rename whole args]
termination_by structural s

lemma Segment.nestedEach_rename (whole : Path) (ss : List Segment) :
    Segment.nestedEach (whole.rename ρ) (Segment.renameEach ρ ss) =
      Nested.rename ρ (Segment.nestedEach whole ss) := by
  cases ss with
  | nil =>
    rw [Segment.renameEach, Segment.nestedEach, Segment.nestedEach]
    rfl
  | cons s ss =>
    rw [Segment.renameEach, Segment.nestedEach, Segment.nestedEach]
    exact Nested.rename_append ρ (Segment.nested_rename whole s)
      (Segment.nestedEach_rename whole ss)
termination_by structural ss

lemma Args.nested_rename (whole : Path) (as : Args) :
    Args.nested (whole.rename ρ) (as.rename ρ) = Nested.rename ρ (Args.nested whole as) := by
  cases as with
  | angle as => rw [Args.rename, Args.nested, Args.nested, Arg.nestedEach_rename as]
  | none =>
    rw [Args.rename, Args.nested, Args.nested]
    rfl
  | paren inputs output =>
    rw [Args.rename, Args.nested, Args.nested, Nested.rename, Except.mapBoth, Cause.rename,
      List.map_cons, List.map_nil, Value.rename, Ty.rename]
termination_by structural as

lemma Arg.nestedEach_rename (as : List Arg) :
    Arg.nestedEach (Arg.renameEach ρ as) = Nested.rename ρ (Arg.nestedEach as) := by
  cases as with
  | nil =>
    rw [Arg.renameEach, Arg.nestedEach]
    rfl
  | cons a as =>
    cases a with
    | type t =>
      rw [Arg.renameEach, Arg.rename, Arg.nestedEach, Arg.nestedEach]
      exact Nested.rename_append ρ (Ty.nested_rename t) (Arg.nestedEach_rename as)
    | lifetime l =>
      rw [Arg.renameEach, Arg.rename, Arg.nestedEach, Arg.nestedEach, Arg.nestedEach_rename as]
termination_by structural as

end

/-- The parameters nested in a renamed type are the renamed ones. -/
lemma Ty.nestedParams_rename {ρ : Renaming} (h : ρ.Orderly) (t : Ty) :
    (t.rename ρ).nestedParams = Nested.rename ρ t.nestedParams := by
  rw [Ty.nestedParams, Ty.nestedParams, Ty.nested_rename]
  rcases t.nested with c | ps
  · rfl
  · exact congrArg Except.ok (Distinct.ofList_map h.beq_onParam ps)

end

end WhereClause
