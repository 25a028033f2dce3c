import WhereClause.Proofs.Equality.Partition
import WhereClause.Proofs.Representative.Finishing
import WhereClause.Proofs.Representative.Outlines

/-!
# Sets of alike types

What two alike types are merged into agrees with both of them (`Outlining.mostConcrete`), and if
they agree with one another there is no cause to fail.  So in a store whose sets are each of alike
types, all sets have representatives exactly if the members of each set agree
(`Resolver.resolves_iff_agreeingSets`).
-/

namespace WhereClause

open Resolving

/-! ## Computations that do not fail without cause -/

namespace Resolving

variable {α β : Type}

/-- From a resolver with an invariant, the computation returns a value with a property and keeps the
invariant, or it fails, and for a cause only if a condition is not met. -/
def Spared (I : Resolver → Prop) (C : Prop) (Q : α → Prop) (x : Resolving α) : Prop :=
  ∀ ⦃ρ⦄, I ρ → (∃ a ρ', x ρ = (.ok a, ρ') ∧ Q a ∧ I ρ') ∨
    ∃ fault ρ', x ρ = (.error fault, ρ') ∧ (C → ∀ c, fault ≠ .ofCause c)

namespace Spared

variable {I : Resolver → Prop} {C : Prop}

lemma pure {Q : α → Prop} {a : α} (ha : Q a) : Spared I C Q (Pure.pure a) :=
  fun ρ hρ => .inl ⟨a, ρ, rfl, ha, hρ⟩

lemma bind {Q : α → Prop} {P : β → Prop} {x : Resolving α} {f : α → Resolving β}
    (hx : Spared I C Q x) (hf : ∀ a, Q a → Spared I C P (f a)) : Spared I C P (x >>= f) := by
  intro ρ hρ
  rcases hx hρ with ⟨a, ρ₁, hrun, ha, hρ₁⟩ | ⟨fault, ρ₁, hrun, hcause⟩
  · rw [run_bind_of_ok hrun]
    exact hf a ha hρ₁
  · exact .inr ⟨fault, ρ₁, run_bind_of_error hrun f, hcause⟩

lemma failWith {Q : α → Prop} (c : Cause) (h : ¬ C) :
    Spared I C Q (WhereClause.failWith c : Resolving α) :=
  fun ρ _ => .inr ⟨_, ρ, rfl, fun hc => absurd hc h⟩

/-- The condition may be made stronger and the property weaker. -/
lemma imp {C' : Prop} {Q P : α → Prop} {x : Resolving α} (hx : Spared I C Q x) (hC : C' → C)
    (hQ : ∀ a, Q a → P a) : Spared I C' P x := by
  intro ρ hρ
  rcases hx hρ with ⟨a, ρ', hrun, ha, hρ'⟩ | ⟨fault, ρ', hrun, hcause⟩
  · exact .inl ⟨a, ρ', hrun, hQ a ha, hρ'⟩
  · exact .inr ⟨fault, ρ', hrun, hcause ∘ hC⟩

end Spared

end Resolving

/-! ## Agreement -/

namespace Ty.Agrees

variable {t u v : Ty}

lemma refl (t : Ty) : t.Agrees t := fun _ => rfl

lemma symm (h : t.Agrees u) : u.Agrees t := fun strict => (h strict).symm

lemma trans (h : t.Agrees u) (h' : u.Agrees v) : t.Agrees v :=
  fun strict => (h strict).trans (h' strict)

lemma alike (h : t.Agrees u) : t.Alike u := h false

end Ty.Agrees

/-! ## The more concrete of two alike types -/

section

variable (concrete : Ty → Resolving Ty)

/-- The ways in which the more concrete of two alike types is found. -/
inductive Ty.AlikeOutcome (a b : Ty) : Resolving Ty → Prop
  | equal : (a == b) = true → AlikeOutcome a b (concrete a)
  | paths {p q : Path} : a = .path p → b = .path q →
      AlikeOutcome a b (Path.mostConcrete concrete p q)
  | tuples {xs ys : List Ty} : a = .tuple xs → b = .tuple ys → AlikeOutcome a b (do
      let elements ← Ty.mostConcreteEach concrete xs ys
      return .tuple elements)
  | refs {access : Access} {x y : Ty} {l k : Option Lifetime} :
      a = .ref access x l → b = .ref access y k → AlikeOutcome a b (do
        let pointee ← Ty.mostConcrete concrete x y
        return .ref access pointee none)
  | clash {c : Cause} : ¬ a.Agrees b → AlikeOutcome a b (failWith c)

lemma Ty.Alike.outcome {a b : Ty} (h : a.Alike b) (hplain : a.isPlain = true) :
    Ty.AlikeOutcome concrete a b (Ty.mostConcrete concrete a b) := by
  rw [Ty.Alike] at h
  rw [Ty.mostConcrete.eq_def]
  by_cases heq : (a == b) = true
  · rw [if_pos heq]
    exact .equal heq
  · rw [if_neg heq]
    cases a <;> cases b <;> simp only [Ty.outline, Ty.outline_path, Bool.false_eq_true, if_false,
      Ty.tuple.injEq, Ty.param.injEq, reduceCtorEq] at h
    case infer.infer => exact absurd BEq.rfl heq
    case str.str => exact absurd BEq.rfl heq
    case tuple.tuple xs ys =>
      have hlength := congrArg List.length h
      rw [Ty.outlineEach_eq_map, Ty.outlineEach_eq_map, List.length_map, List.length_map] at hlength
      dsimp only
      rw [if_pos hlength]
      exact .tuples rfl rfl
    case ref.ref access x l access' y k =>
      by_cases haccess : access = access'
      · subst haccess
        cases access <;> exact .refs rfl rfl
      · have hdiffer : ¬ (Ty.ref access x l).Agrees (.ref access' y k) := by
          intro hagrees
          have hstrict := hagrees true
          rw [Ty.outline, Ty.outline, if_pos rfl, if_pos rfl, Ty.ref.injEq] at hstrict
          exact haccess hstrict.1
        cases access <;> cases access' <;> first
          | exact absurd rfl haccess
          | exact .clash hdiffer
    case deref.deref x y =>
      refine .clash fun hagrees => heq ?_
      have hstrict := hagrees true
      rw [Ty.outline, Ty.outline, if_pos rfl, if_pos rfl] at hstrict
      exact (Ty.same_iff _ _).2 hstrict
    case dyn.dyn => cases hplain
    case data.data =>
      refine .clash fun hagrees => heq ?_
      have hstrict := hagrees true
      rw [Ty.outline, Ty.outline, if_pos rfl, if_pos rfl] at hstrict
      exact (Ty.same_iff _ _).2 hstrict
    case path.path p q => exact .paths rfl rfl
    case param.param p q =>
      obtain ⟨hnumber, -⟩ : p.number = q.number ∧ _ := Param.mk.inj h
      exact absurd (Param.beq_ty_iff.2 hnumber) heq

/-- Alike paths have no arguments both, or their arguments are merged. -/
lemma Path.mostConcrete_of_alike {p q : Path}
    (h : p.last.args.outline false = q.last.args.outline false)
    (hplain : p.last.args.isPlain = true) :
    (p.last.args = .none ∧ q.last.args = .none ∧
        Path.mostConcrete concrete p q = pure (.path p)) ∨
      ∃ as bs, p.last.args = .angle as ∧ q.last.args = .angle bs ∧
        Path.mostConcrete concrete p q = do
          let merged ← Arg.mostConcreteEach concrete as bs
          return .path (p.withMergedArgs q merged) := by
  obtain ⟨isGlobal, init, ⟨name, args⟩⟩ := p
  rw [Path.mostConcrete.eq_def]
  dsimp only at h hplain ⊢
  cases args <;> rcases hargs : q.last.args with _ | bs | ⟨_, _⟩ <;> rw [hargs] at h <;>
    simp only [Args.outline, Args.angle.injEq, reduceCtorEq] at h
  case none.none => exact .inl ⟨rfl, rfl, rfl⟩
  case angle.angle as =>
    have hlength := congrArg List.length h
    rw [Arg.outlineEach_eq_map, Arg.outlineEach_eq_map, List.length_map, List.length_map] at hlength
    refine .inr ⟨as, bs, rfl, rfl, ?_⟩
    dsimp only
    rw [if_neg (Nat.not_lt.2 (Nat.le_of_eq hlength.symm)),
      if_neg (Nat.not_lt.2 (Nat.le_of_eq hlength))]
  case paren.paren => cases hplain

end

namespace Resolving

/-- Making a plain type concrete leaves its outlines as they are, and fails for a cause only if a
condition is not met. -/
def Outlining (I : Resolver → Prop) (C : Prop) (concrete : Ty → Resolving Ty) : Prop :=
  ∀ t : Ty, t.isPlain = true → Spared I C (fun w => t.Agrees w) (concrete t)

namespace Outlining

variable {I : Resolver → Prop} {C : Prop} {concrete : Ty → Resolving Ty}

mutual

/-- Of two alike types, what is more concrete agrees with both.  If they agree themselves, there is
no cause to fail but one that making a single type concrete has. -/
lemma mostConcrete (h : Outlining I C concrete) {a b : Ty} (halike : a.Alike b)
    (hplain : a.isPlain = true) :
    Spared I (C ∧ a.Agrees b) (fun w => a.Agrees w ∧ b.Agrees w)
      (Ty.mostConcrete concrete a b) := by
  have houtcome := halike.outcome concrete hplain
  generalize Ty.mostConcrete concrete a b = x at houtcome ⊢
  rw [Ty.Alike] at halike
  cases houtcome with
  | equal heq =>
    have hsame : b.Agrees a := (Ty.Agrees.of_beq heq).symm
    exact (h a hplain).imp And.left fun w hw => ⟨hw, hsame.trans hw⟩
  | paths hp hq =>
    subst hp hq
    rw [Ty.outline_path, Ty.outline_path, Ty.path.injEq, Path.mk.injEq, Segment.mk.injEq] at halike
    rw [Ty.isPlain_path] at hplain
    exact h.mostConcretePath halike.2.2.2 hplain
  | @tuples xs ys hxs hys =>
    subst hxs hys
    rw [Ty.outline, Ty.outline, Ty.tuple.injEq] at halike
    rw [Ty.isPlain] at hplain
    have helements := h.mostConcreteEach halike hplain
    refine Spared.bind (helements.imp ?_ fun ws hws => hws) fun ws hws => .pure ?_
    · rintro ⟨hC, hagrees⟩
      refine ⟨hC, fun strict => ?_⟩
      have hstrict := hagrees strict
      rwa [Ty.outline, Ty.outline, Ty.tuple.injEq] at hstrict
    · constructor
      · intro strict
        rw [Ty.outline, Ty.outline, (hws strict).1]
      · intro strict
        rw [Ty.outline, Ty.outline, (hws strict).2]
  | @refs access x y l k hx hy =>
    subst hx hy
    rw [Ty.outline, Ty.outline, Ty.ref.injEq] at halike
    rw [Ty.isPlain] at hplain
    have hpointee := h.mostConcrete halike.2.1 hplain
    refine Spared.bind (hpointee.imp ?_ fun w hw => hw) fun w hw => .pure ?_
    · rintro ⟨hC, hagrees⟩
      refine ⟨hC, fun strict => ?_⟩
      have hstrict := hagrees strict
      rw [Ty.outline, Ty.outline, Ty.ref.injEq] at hstrict
      exact hstrict.2.1
    · constructor
      · intro strict
        rw [Ty.outline, Ty.outline, hw.1 strict]
      · intro strict
        rw [Ty.outline, Ty.outline, hw.2 strict]
  | clash hdiffer => exact Spared.failWith _ fun hagrees => hdiffer hagrees.2
termination_by sizeOf a

lemma mostConcreteEach (h : Outlining I C concrete) {xs ys : List Ty}
    (halike : Ty.outlineEach false xs = Ty.outlineEach false ys)
    (hplain : Ty.isPlainEach xs = true) :
    Spared I (C ∧ ∀ strict, Ty.outlineEach strict xs = Ty.outlineEach strict ys)
      (fun ws => ∀ strict, Ty.outlineEach strict xs = Ty.outlineEach strict ws ∧
        Ty.outlineEach strict ys = Ty.outlineEach strict ws)
      (Ty.mostConcreteEach concrete xs ys) := by
  rw [Ty.mostConcreteEach.eq_def]
  cases xs with
  | nil =>
    cases ys <;> simp only [Ty.outlineEach, reduceCtorEq] at halike
    exact .pure fun strict => ⟨rfl, rfl⟩
  | cons x xs =>
    cases ys <;> simp only [Ty.outlineEach, List.cons.injEq, reduceCtorEq] at halike
    rename_i y ys
    rw [Ty.isPlainEach, Bool.and_eq_true] at hplain
    have hfirst := h.mostConcrete halike.1 hplain.1
    have hrest := h.mostConcreteEach halike.2 hplain.2
    have heach : ∀ {strict}, Ty.outlineEach strict (x :: xs) = Ty.outlineEach strict (y :: ys) →
        x.outline strict = y.outline strict ∧
          Ty.outlineEach strict xs = Ty.outlineEach strict ys := by
      intro strict hstrict
      rwa [Ty.outlineEach, Ty.outlineEach, List.cons.injEq] at hstrict
    refine Spared.bind (hfirst.imp ?_ fun w hw => hw) fun w hw =>
      Spared.bind (hrest.imp ?_ fun ws hws => hws) fun ws hws => .pure fun strict => ⟨?_, ?_⟩
    · exact fun hC => ⟨hC.1, fun strict => (heach (hC.2 strict)).1⟩
    · exact fun hC => ⟨hC.1, fun strict => (heach (hC.2 strict)).2⟩
    · rw [Ty.outlineEach, Ty.outlineEach, hw.1 strict, (hws strict).1]
    · rw [Ty.outlineEach, Ty.outlineEach, hw.2 strict, (hws strict).2]
termination_by sizeOf xs

lemma mostConcretePath (h : Outlining I C concrete) {p q : Path}
    (halike : p.last.args.outline false = q.last.args.outline false)
    (hplain : p.last.args.isPlain = true) :
    Spared I (C ∧ (Ty.path p).Agrees (.path q))
      (fun w => (Ty.path p).Agrees w ∧ (Ty.path q).Agrees w) (Path.mostConcrete concrete p q) := by
  -- paths agree if their arguments do
  have hpaths : ∀ {r r' : Path},
      (∀ strict, r.last.args.outline strict = r'.last.args.outline strict) →
        (Ty.path r).Agrees (.path r') := by
    intro r r' hargs strict
    rw [Ty.outline_path, Ty.outline_path, hargs strict]
  rcases Path.mostConcrete_of_alike concrete halike hplain with
    ⟨hp, hq, hkept⟩ | ⟨as, bs, hpargs, hqargs, hmerged⟩
  · rw [hkept]
    refine .pure ⟨.refl _, hpaths fun strict => ?_⟩
    rw [hp, hq]
  · rw [hpargs, hqargs, Args.outline, Args.outline, Args.angle.injEq] at halike
    rw [hpargs, Args.isPlain] at hplain
    have hargs := h.mostConcreteArgs halike hplain
    rw [hmerged]
    refine Spared.bind (hargs.imp ?_ fun cs hcs => hcs) fun cs hcs => .pure ⟨?_, ?_⟩
    · rintro ⟨hC, hagrees⟩
      refine ⟨hC, fun strict => ?_⟩
      have hstrict := hagrees strict
      rw [Ty.outline_path, Ty.outline_path, Ty.path.injEq, Path.mk.injEq, Segment.mk.injEq,
        hpargs, hqargs] at hstrict
      exact Args.angle.inj hstrict.2.2.2
    · refine hpaths fun strict => ?_
      rw [Path.args_withMergedArgs, hpargs, Args.outline, Args.outline, (hcs strict).1]
    · refine hpaths fun strict => ?_
      rw [Path.args_withMergedArgs, hqargs, Args.outline, Args.outline, (hcs strict).2]
termination_by sizeOf p
decreasing_by
  obtain ⟨isGlobal, init, ⟨name, args⟩⟩ := p
  obtain rfl : args = .angle _ := hpargs
  simp only [Path.mk.sizeOf_spec, Segment.mk.sizeOf_spec, Args.angle.sizeOf_spec]
  omega

lemma mostConcreteArg (h : Outlining I C concrete) {a b : Arg}
    (halike : a.outline false = b.outline false) (hplain : a.isPlain = true) :
    Spared I (C ∧ ∀ strict, a.outline strict = b.outline strict)
      (fun c => ∀ strict, a.outline strict = c.outline strict ∧
        b.outline strict = c.outline strict) (Arg.mostConcrete concrete a b) := by
  rw [Arg.mostConcrete.eq_def]
  cases a with
  | type x =>
    cases b <;> simp only [Arg.outline, Arg.type.injEq, reduceCtorEq] at halike
    rename_i y
    rw [Arg.isPlain] at hplain
    have hpair := h.mostConcrete halike hplain
    refine Spared.bind (hpair.imp ?_ fun w hw => hw) fun w hw => .pure fun strict => ⟨?_, ?_⟩
    · exact fun hC => ⟨hC.1, fun strict => Arg.type.inj (hC.2 strict)⟩
    · rw [Arg.outline, Arg.outline, hw.1 strict]
    · rw [Arg.outline, Arg.outline, hw.2 strict]
  | lifetime l =>
    cases b <;> simp only [Arg.outline, reduceCtorEq] at halike
    exact .pure fun strict => ⟨rfl, rfl⟩
termination_by sizeOf a

lemma mostConcreteArgs (h : Outlining I C concrete) {as bs : List Arg}
    (halike : Arg.outlineEach false as = Arg.outlineEach false bs)
    (hplain : Arg.isPlainEach as = true) :
    Spared I (C ∧ ∀ strict, Arg.outlineEach strict as = Arg.outlineEach strict bs)
      (fun cs => ∀ strict, Arg.outlineEach strict as = Arg.outlineEach strict cs ∧
        Arg.outlineEach strict bs = Arg.outlineEach strict cs)
      (Arg.mostConcreteEach concrete as bs) := by
  rw [Arg.mostConcreteEach.eq_def]
  cases as with
  | nil =>
    cases bs <;> simp only [Arg.outlineEach, reduceCtorEq] at halike
    exact .pure fun strict => ⟨rfl, rfl⟩
  | cons a as =>
    cases bs <;> simp only [Arg.outlineEach, List.cons.injEq, reduceCtorEq] at halike
    rename_i b bs
    rw [Arg.isPlainEach, Bool.and_eq_true] at hplain
    have hfirst := h.mostConcreteArg halike.1 hplain.1
    have hrest := h.mostConcreteArgs halike.2 hplain.2
    have heach : ∀ {strict}, Arg.outlineEach strict (a :: as) = Arg.outlineEach strict (b :: bs) →
        a.outline strict = b.outline strict ∧
          Arg.outlineEach strict as = Arg.outlineEach strict bs := by
      intro strict hstrict
      rwa [Arg.outlineEach, Arg.outlineEach, List.cons.injEq] at hstrict
    refine Spared.bind (hfirst.imp ?_ fun c hc => hc) fun c hc =>
      Spared.bind (hrest.imp ?_ fun cs hcs => hcs) fun cs hcs => .pure fun strict => ⟨?_, ?_⟩
    · exact fun hC => ⟨hC.1, fun strict => (heach (hC.2 strict)).1⟩
    · exact fun hC => ⟨hC.1, fun strict => (heach (hC.2 strict)).2⟩
    · rw [Arg.outlineEach, Arg.outlineEach, (hc strict).1, (hcs strict).1]
    · rw [Arg.outlineEach, Arg.outlineEach, (hc strict).2, (hcs strict).2]
termination_by sizeOf as

end

/-- What alike types are folded to agrees with all of them. -/
lemma foldlM (h : Outlining I C concrete) {ts : List Ty} {acc : Ty}
    (halike : ∀ u ∈ ts, acc.Alike u) (hplain : acc.isPlain = true) :
    Spared I (C ∧ ∀ u ∈ ts, acc.Agrees u) (fun w => ∀ u ∈ acc :: ts, u.Agrees w)
      (ts.foldlM (Ty.mostConcrete concrete) acc) := by
  induction ts generalizing acc with
  | nil => exact .pure (List.forall_mem_singleton.2 (.refl acc))
  | cons t ts ih =>
    obtain ⟨ht, hts⟩ := List.forall_mem_cons.1 halike
    have hpair := h.mostConcrete ht hplain
    rw [List.foldlM_cons]
    refine Spared.bind (hpair.imp ?_ fun w hw => hw) fun next hnext => ?_
    · exact fun hC => ⟨hC.1, hC.2 t List.mem_cons_self⟩
    · have hnext_alike : ∀ u ∈ ts, next.Alike u :=
        fun u hu => (hnext.1 false).symm.trans (hts u hu)
      have hnext_plain : next.isPlain = true := by rw [← hnext.1.alike.isPlain_eq, hplain]
      refine (ih hnext_alike hnext_plain).imp ?_ fun w hw => ?_
      · exact fun hC => ⟨hC.1, fun u hu => hnext.1.symm.trans (hC.2 u (List.mem_cons_of_mem t hu))⟩
      · obtain ⟨hnext_w, hts_w⟩ := List.forall_mem_cons.1 hw
        exact List.forall_mem_cons.2 ⟨hnext.1.trans hnext_w,
          List.forall_mem_cons.2 ⟨hnext.2.trans hnext_w, hts_w⟩⟩

end Outlining

end Resolving

/-! ## Stores with sets of alike types -/

namespace Store

/-- The members of each set are plain and alike. -/
structure AlikeSets (s : Store) : Prop where
  plain : ∀ r, ∀ t ∈ s.members r, t.isPlain = true
  alike : ∀ r, ∀ t ∈ s.members r, ∀ u ∈ s.members r, t.Alike u

/-- The members of each set agree. -/
def AgreeingSets (s : Store) : Prop :=
  ∀ r, ∀ t ∈ s.members r, ∀ u ∈ s.members r, t.Agrees u

end Store

namespace Resolver

variable {store : Store}

/-- Whatever is remembered of a set agrees with its members. -/
def Agreeing (store : Store) (ρ : Resolver) : Prop :=
  ∀ (r : ℕ) (t : Ty), ρ.memo.get? (r : ℤ) = some (some t) → ∀ u ∈ store.members r, u.Agrees t

lemma Agreeing.remember {ρ : Resolver} (h : Agreeing store ρ) {r : ℕ} {o : Option Ty}
    (ho : ∀ w, o = some w → ∀ u ∈ store.members r, u.Agrees w) :
    Agreeing store (ρ.remember r o) := by
  intro q t ht
  by_cases hq : r = q
  · subst hq
    rw [get?_remember_self] at ht
    exact ho t (Option.some.inj ht)
  · rw [get?_remember_of_ne (by omega)] at ht
    exact h q t ht

/-- Types keep their outlines when their sets are asked for. -/
lemma outlining_concreteWithin (hcoherent : store.Coherent) {depth : ℕ}
    (h : ∀ r : ℕ, Spared (Agreeing store) store.AgreeingSets
      (fun o => ∀ w, o = some w → ∀ u ∈ store.members r, u.Agrees w)
      (resolveWithin store depth r)) :
    Outlining (Agreeing store) store.AgreeingSets (concreteWithin store depth) := by
  intro t _
  rw [concreteWithin, concreteBy]
  rcases hset : store.setOf t with _ | r
  · exact .pure (.refl t)
  · refine Spared.bind (h r) fun o ho => .pure ?_
    rcases o with _ | w
    · exact .refl t
    · obtain ⟨u, hu, htu⟩ := hcoherent.exists_mem_of_setOf hset
      exact (Ty.Agrees.of_beq htu).trans (ho w rfl u hu)

/-- What is answered for a set of alike types agrees with all members, and if the members of each
set agree there is no cause to fail. -/
lemma spared_resolveWithin (hcoherent : store.Coherent) (hsets : store.AlikeSets) (depth r : ℕ) :
    Spared (Agreeing store) store.AgreeingSets
      (fun o => ∀ w, o = some w → ∀ u ∈ store.members r, u.Agrees w)
      (resolveWithin store depth r) := by
  induction depth generalizing r with
  | zero =>
    intro ρ hρ
    rcases hmemo : ρ.memo.get? (r : ℤ) with _ | known
    · rw [resolveWithin_zero_of_unasked hmemo]
      exact .inr ⟨_, ρ, rfl, fun _ _ h => by cases h⟩
    · rw [resolveWithin_of_asked hmemo]
      exact .inl ⟨known, ρ, rfl, fun w hw => hρ r w (hw ▸ hmemo), hρ⟩
  | succ depth ih =>
    intro ρ hρ
    rcases hmemo : ρ.memo.get? (r : ℤ) with _ | known
    · rw [resolveWithin_of_unasked hmemo, foldWithin, foldBy]
      rcases hmembers : store.members? (r : ℤ) with _ | _ | ⟨t, ts⟩
      · exact .inr ⟨_, _, rfl, fun _ _ h => by cases h⟩
      · exact .inr ⟨_, _, rfl, fun _ _ h => by cases h⟩
      · have hset : store.members r = t :: ts := (Store.members_of_members? hmembers).2
        have ht : t ∈ store.members r := by simp [hset]
        have hts : ∀ u ∈ ts, u ∈ store.members r := fun u hu => by simp [hset, hu]
        have hfold := (outlining_concreteWithin hcoherent ih).foldlM
          (fun u hu => hsets.alike r t ht u (hts u hu)) (hsets.plain r t ht)
        have hstart : Agreeing store (ρ.remember r none) := hρ.remember fun w hw => by cases hw
        rcases hfold hstart with ⟨w, ρ₁, hrun, hw, hρ₁⟩ | ⟨fault, ρ₁, hrun, hcause⟩
        · have hagrees : ∀ v, some w = some v → ∀ u ∈ store.members r, u.Agrees v := by
            rintro v hv u hu
            obtain rfl := Option.some.inj hv
            rw [hset] at hu
            exact hw u hu
          exact .inl ⟨some w, _, run_bind_of_ok hrun _, hagrees, hρ₁.remember hagrees⟩
        · refine .inr ⟨fault, ρ₁, run_bind_of_error hrun _, fun hC => hcause ⟨hC, ?_⟩⟩
          exact fun u hu => hC r t ht u (hts u hu)
    · rw [resolveWithin_of_asked hmemo]
      exact .inl ⟨known, ρ, rfl, fun w hw => hρ r w (hw ▸ hmemo), hρ⟩

/-- If the members of each set are alike, a new resolver answers for all sets exactly if the members
of each set agree. -/
lemma resolves_iff_agreeingSets (hcoherent : store.Coherent) (hsets : store.AlikeSets) :
    (∀ r ∈ store.refs, ∃ t, (resolve store r ∅).1 = .ok (some t)) ↔ store.AgreeingSets := by
  have hempty : Agreeing store ∅ := nofun
  constructor
  · intro hall r t ht u hu
    have hr : r ∈ store.refs := by
      rw [hcoherent.mem_refs_iff]
      exact ⟨t, hcoherent.setOf_of_mem ht⟩
    obtain ⟨w, hw⟩ := hall r hr
    rcases spared_resolveWithin hcoherent hsets (store.sets.length + 1) r hempty with
      ⟨o, ρ', hrun, ho, -⟩ | ⟨fault, ρ', hrun, -⟩
    · rw [resolve, hrun] at hw
      have hagrees := ho w (Except.ok.inj hw)
      exact (hagrees t ht).trans (hagrees u hu).symm
    · rw [resolve, hrun] at hw
      cases hw
  · intro hagree r hr
    obtain ⟨t, ht⟩ := (hcoherent.mem_refs_iff r).1 hr
    have hbusy : Busy (fun _ => True) [] [] ∅ := ⟨nofun, fun _ _ _ _ _ => trivial, rfl⟩
    rcases finishes_resolve hcoherent.listed (fun _ _ _ _ _ => trivial) ht hbusy with
      ⟨o, ρ', hrun, ⟨w, rfl, -⟩, -⟩ | ⟨c, ρ', hrun, -⟩
    · exact ⟨w, by rw [hrun]⟩
    · rcases spared_resolveWithin hcoherent hsets (store.sets.length + 1) r hempty with
        ⟨o, ρ₁, hanswer, -, -⟩ | ⟨fault, ρ₁, hanswer, hcause⟩
      · cases congrArg Prod.fst (hrun.symm.trans hanswer)
      · exact absurd (Except.error.inj (congrArg Prod.fst (hrun.symm.trans hanswer))).symm
          (hcause hagree c)

end Resolver

end WhereClause
