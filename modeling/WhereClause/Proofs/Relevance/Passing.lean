import WhereClause.Proofs.Inference.Rewriting
import WhereClause.Proofs.Relevance.Consulting

/-!
# Constraints that are sure to pass

Settling a constraint on a parameter, of which the bounds have nothing but parameters and lifetimes
for arguments, replaces the parameters and leaves the rest alone.  So such a constraint passes a
filter if what the parameters are replaced by is relevant (`Relevance.ensures_keep`), and what
passes is in the answer, whatever else the filter meets (`Relevance.contains_of_filter`).
-/

namespace WhereClause

open Resolving Resolver

/-! ## Constraints on parameters -/

section

variable (P : Param → Prop)

/-- A lifetime, or a parameter with a property. -/
def Arg.OnParams : Arg → Prop
  | .type (.param p) => P p
  | .type _ => False
  | .lifetime _ => True

/-- No arguments but parameters with a property and lifetimes, and no parentheses. -/
def Args.OnParams : Args → Prop
  | .none => True
  | .angle as => ∀ a ∈ as, a.OnParams P
  | .paren _ _ => False

def Bound.OnParams : Bound → Prop
  | .trait p _ => ∀ s ∈ p.segments, s.args.OnParams P
  | .outlives _ => True

/-- The constraint is on a parameter with a property, and so are all arguments of its bounds. -/
def Constraint.OnParams : Constraint → Prop
  | .type (.param p) bs _ => P p ∧ ∀ b ∈ bs, b.OnParams P
  | .type _ _ _ => False
  | .lifetime _ _ => True

end

section

variable {P : Param → Prop} (hP : ∀ p q : Param, p.number = q.number → (P p ↔ P q))

include hP

lemma Arg.onParams_rename (a : Arg) : (a.rename .anonymous).OnParams P ↔ a.OnParams P := by
  cases a with
  | lifetime l => simp only [Arg.rename, Arg.OnParams]
  | type t =>
    cases t with
    | param p =>
      simp only [Arg.rename, Ty.rename, Arg.OnParams]
      exact hP _ _ rfl
    | _ => simp only [Arg.rename, Ty.rename, Arg.OnParams]

lemma Args.onParams_rename (as : Args) : (as.rename .anonymous).OnParams P ↔ as.OnParams P := by
  cases as with
  | angle as =>
    simp only [Args.rename, Args.OnParams, Arg.renameEach_eq_map, List.forall_mem_map,
      Arg.onParams_rename hP]
  | none | paren _ _ => simp only [Args.rename, Args.OnParams]

lemma Bound.onParams_rename (b : Bound) : (b.rename .anonymous).OnParams P ↔ b.OnParams P := by
  cases b with
  | trait p binder =>
    have hargs : ∀ s : Segment, (s.rename .anonymous).args = s.args.rename .anonymous := by
      rintro ⟨name, args⟩
      rw [Segment.rename]
    simp only [Bound.rename, Bound.OnParams, Path.segments_rename, List.forall_mem_map, hargs,
      Args.onParams_rename hP]
  | outlives l => simp only [Bound.rename, Bound.OnParams]

/-- A property that does not look at names does not tell equal constraints apart. -/
lemma Constraint.OnParams.congr {c d : Constraint} (h : (c == d) = true) (hc : c.OnParams P) :
    d.OnParams P := by
  have hrename : ∀ c : Constraint, (c.rename .anonymous).OnParams P ↔ c.OnParams P := by
    intro c
    cases c with
    | lifetime l ls => simp only [Constraint.rename, Constraint.OnParams]
    | type t bs binder =>
      cases t with
      | param p =>
        simp only [Constraint.rename, Ty.rename, Constraint.OnParams, Bound.renameEach_eq_map,
          List.forall_mem_map, Bound.onParams_rename hP]
        exact and_congr_left fun _ => hP _ _ rfl
      | _ => simp only [Constraint.rename, Ty.rename, Constraint.OnParams]
  rw [← hrename, ← (Constraint.same_iff c d).1 h, hrename]
  exact hc

end

/-! ## What a computation makes sure of -/

namespace Resolving

variable {α β : Type}

/-- From a resolver with an invariant, whenever the computation returns, the value has a property
and the invariant is kept. -/
def Ensures (I : Resolver → Prop) (Q : α → Prop) (x : Resolving α) : Prop :=
  ∀ ⦃ρ a ρ'⦄, I ρ → x ρ = (.ok a, ρ') → Q a ∧ I ρ'

namespace Ensures

variable {I : Resolver → Prop} {Q : α → Prop}

lemma pure {a : α} (ha : Q a) : Ensures I Q (Pure.pure a) := by
  intro ρ b ρ' hρ h
  obtain ⟨rfl, rfl⟩ := pure_eq_ok_iff.1 h
  exact ⟨ha, hρ⟩

lemma bind {P : β → Prop} {x : Resolving α} {f : α → Resolving β} (hx : Ensures I Q x)
    (hf : ∀ a, Q a → Ensures I P (f a)) : Ensures I P (x >>= f) := by
  intro ρ b ρ' hρ h
  obtain ⟨a, ρ₁, hrun, hrest⟩ := bind_eq_ok_iff.1 h
  obtain ⟨ha, hρ₁⟩ := hx hρ hrun
  exact hf a ha hρ₁ hrest

end Ensures

end Resolving

/-! ## Settling replaces the parameters -/

section

variable {I : Resolver → Prop} {setOf : Ty → Option ℕ} {expand : ℕ → Ty → Resolving Ty}
  {P : Param → Prop} {f : Param → Param}
  (h : ∀ p, P p → Ensures I (fun u => (u == .param (f p)) = true)
    (Ty.settlePart setOf expand (.param p)))

include h

lemma Arg.ensures_settleEach {as : List Arg} (has : ∀ a ∈ as, a.OnParams P) :
    Ensures I (fun bs => Arg.sameEach bs (Arg.mapParamsEach f as) = true)
      (Arg.settleEach setOf expand as) := by
  induction as with
  | nil =>
    rw [Arg.settleEach, Arg.mapParamsEach]
    exact .pure (by rw [Arg.sameEach])
  | cons a as ih =>
    obtain ⟨ha, hrest⟩ := List.forall_mem_cons.1 has
    rw [Arg.mapParamsEach]
    cases a with
    | lifetime l =>
      rw [Arg.settleEach, Arg.mapParams]
      refine (ih hrest).bind fun bs hbs => .pure ?_
      rw [Arg.sameEach, hbs, Bool.and_true]
      exact BEq.rfl (a := Arg.lifetime l)
    | type t =>
      cases t with
      | param p =>
        rw [Arg.settleEach_cons_type, Arg.mapParams, Ty.mapParams]
        refine (h p ha).bind fun u hu => (ih hrest).bind fun bs hbs => .pure ?_
        rw [Arg.sameEach, hbs, Bool.and_true, Arg.same]
        exact hu
      | _ => exact ha.elim

lemma Segment.ensures_settle {s : Segment} (hs : s.args.OnParams P) :
    Ensures I (fun r => Segment.same r (s.mapParams f) = true) (s.settle setOf expand) := by
  obtain ⟨name, args⟩ := s
  have hself : ∀ as : Args, Args.same as as = true := fun as => BEq.rfl (a := as)
  cases args with
  | none =>
    rw [Segment.settle, Args.settle, Segment.mapParams, Args.mapParams]
    exact .pure (by rw [Segment.same, hself, BEq.rfl]; rfl)
  | angle as =>
    rw [Segment.settle, Args.settle, Segment.mapParams, Args.mapParams]
    have hangle : Ensures I (fun bs => Args.same bs (.angle (Arg.mapParamsEach f as)) = true)
        (do let bs ← Arg.settleEach setOf expand as; return Args.angle bs) :=
      (Arg.ensures_settleEach h hs).bind fun bs hbs => .pure (by rw [Args.same, hbs])
    exact hangle.bind fun bs hbs => .pure (by rw [Segment.same, hbs, BEq.rfl]; rfl)
  | paren inputs output => exact hs.elim

lemma Segment.ensures_settleEach {ss : List Segment} (hss : ∀ s ∈ ss, s.args.OnParams P) :
    Ensures I (fun rs => Segment.sameEach rs (Segment.mapParamsEach f ss) = true)
      (Segment.settleEach setOf expand ss) := by
  induction ss with
  | nil =>
    rw [Segment.settleEach, Segment.mapParamsEach]
    exact .pure (by rw [Segment.sameEach])
  | cons s ss ih =>
    obtain ⟨hs, hrest⟩ := List.forall_mem_cons.1 hss
    rw [Segment.settleEach, Segment.mapParamsEach]
    refine (Segment.ensures_settle h hs).bind fun r hr => (ih hrest).bind fun rs hrs => .pure ?_
    rw [Segment.sameEach, hr, hrs]
    rfl

lemma Bound.ensures_settle {b : Bound} (hb : b.OnParams P) :
    Ensures I (fun c => (c == b.mapParams f) = true) (b.settle setOf expand) := by
  cases b with
  | outlives l =>
    rw [Bound.settle, Bound.mapParams]
    exact .pure BEq.rfl
  | trait p binder =>
    obtain ⟨isGlobal, init, last⟩ := p
    obtain ⟨hinit, hlast⟩ := List.forall_mem_append.1 hb
    have hlast : last.args.OnParams P := hlast last (List.mem_singleton_self last)
    rw [Bound.settle, Bound.mapParams, Path.settle, Path.mapParams]
    have hpath : Ensures I
        (fun q => Path.same q ⟨isGlobal, Segment.mapParamsEach f init, last.mapParams f⟩ = true)
        (do
          let init ← Segment.settleEach setOf expand init
          let last ← last.settle setOf expand
          return ⟨isGlobal, init, last⟩) := by
      refine (Segment.ensures_settleEach h hinit).bind fun rs hrs => ?_
      refine (Segment.ensures_settle h hlast).bind fun r hr => ?_
      exact .pure (by rw [Path.same, hrs, hr, BEq.rfl]; rfl)
    refine hpath.bind fun q hq => .pure ?_
    show Bound.same _ _ = true
    rw [Bound.same, hq, BEq.rfl]
    rfl

end

/-! ## Passing a filter -/

namespace Relevance

variable {v : Relevance} {store : Store}

lemma isRelevantBound_mapParams {P : Param → Prop} {f : Param → Param}
    (hrelevant : ∀ p, P p → v.isRelevantParam store (f p) = true) {b : Bound}
    (hb : b.OnParams P) : v.isRelevantBound store (b.mapParams f) = .ok true := by
  cases b with
  | outlives l => rfl
  | trait p binder =>
    obtain ⟨isGlobal, init, ⟨name, args⟩⟩ := p
    have hlast : args.OnParams P := (List.forall_mem_append.1 hb).2 _ (List.mem_singleton_self _)
    cases args with
    | none => rfl
    | paren inputs output => exact hlast.elim
    | angle as =>
      have hall : (Arg.mapParamsEach f as).all (v.isRelevantArg store) = true := by
        clear hb
        induction as with
        | nil => rfl
        | cons a as ih =>
          obtain ⟨ha, hrest⟩ := List.forall_mem_cons.1 hlast
          rw [Arg.mapParamsEach, List.all_cons, ih hrest, Bool.and_true]
          cases a with
          | lifetime l => rfl
          | type t =>
            cases t with
            | param p => exact hrelevant p ha
            | _ => exact ha.elim
      exact congrArg Except.ok hall

section

variable {I : Resolver → Prop} {P : Param → Prop} {f : Param → Param}
  (h : ∀ p, P p → Ensures I (fun u => (u == .param (f p)) = true) (settle store (.param p)))
  (hrelevant : ∀ p, P p → v.isRelevantParam store (f p) = true)

include h hrelevant

lemma ensures_keepBounds {bs : List Bound} (hbs : ∀ b ∈ bs, b.OnParams P) :
    Ensures I (fun o => ∃ cs, o = some cs ∧ Bound.sameEach cs (Bound.mapParamsEach f bs) = true)
      (v.keepBounds store bs) := by
  induction bs with
  | nil =>
    rw [keepBounds, Bound.mapParamsEach]
    exact .pure ⟨[], rfl, by rw [Bound.sameEach]⟩
  | cons b bs ih =>
    obtain ⟨hb, hrest⟩ := List.forall_mem_cons.1 hbs
    rw [keepBounds, Bound.mapParamsEach]
    refine Ensures.bind (Bound.ensures_settle h hb) fun c hc => ?_
    have hpasses : v.isRelevantBound store c = .ok true :=
      isRelevantBound_congr (BEq.symm hc) (isRelevantBound_mapParams hrelevant hb)
    rw [hpasses]
    refine (ih hrest).bind ?_
    rintro _ ⟨cs, rfl, hcs⟩
    refine .pure ⟨c :: cs, rfl, ?_⟩
    rw [Bound.sameEach, hcs, Bool.and_true]
    exact hc

/-- What is kept of a constraint on parameters is the constraint with its parameters replaced. -/
lemma ensures_keep {c : Constraint} (hc : c.OnParams P) :
    Ensures I (fun o => ∃ d, o = some d ∧ (d == c.mapParams f) = true) (v.keep store c) := by
  cases c with
  | lifetime l ls => exact .pure ⟨_, rfl, BEq.rfl⟩
  | type t bs binder =>
    cases t with
    | param p =>
      rw [keep, Constraint.mapParams, Ty.mapParams]
      refine (h p hc.1).bind fun u hu => ?_
      rw [isRelevantType_congr hu, isRelevantType, if_pos (hrelevant p hc.1)]
      refine (ensures_keepBounds h hrelevant hc.2).bind ?_
      rintro _ ⟨cs, rfl, hcs⟩
      refine .pure ⟨.type u cs binder, rfl, ?_⟩
      show Constraint.same _ _ = true
      rw [Constraint.same, hcs, BEq.rfl, Bool.and_true, Bool.and_true]
      exact hu
    | _ => exact hc.elim

end

/-- What passed is not taken back. -/
lemma contains_of_foldlM_pass {cs : List Constraint} {result kept : ConstraintSet}
    {ρ ρ' : Resolver} (h : cs.foldlM (v.pass store) result ρ = (.ok kept, ρ')) {d : Constraint}
    (hd : result.contains d = true) : kept.contains d = true := by
  induction cs generalizing result ρ with
  | nil =>
    obtain ⟨rfl, -⟩ := pure_eq_ok_iff.1 h
    exact hd
  | cons c cs ih =>
    rw [List.foldlM_cons] at h
    obtain ⟨result', ρ₁, hpass, hrest⟩ := bind_eq_ok_iff.1 h
    refine ih hrest ?_
    rcases pass_returns hpass with ⟨-, rfl⟩ | ⟨e, -, rfl⟩
    · exact hd
    · rw [ConstraintSet.contains, ConstraintSet.toList_insert, Distinct.contains_add]
      exact Bool.or_eq_true_iff.2 (.inl hd)

/-- A constraint that is sure to pass is in the answer, whatever comes before and after. -/
lemma contains_of_filter {I : Resolver → Prop} {cs : List Constraint} {c d : Constraint}
    {kept : ConstraintSet} {ρ ρ' : Resolver}
    (hI : ∀ c, Ensures I (fun _ => True) (v.keep store c)) (hc : c ∈ cs)
    (hkeep : Ensures I (fun o => ∃ e, o = some e ∧ (e == d) = true) (v.keep store c)) (hρ : I ρ)
    (h : v.filter store cs ρ = (.ok kept, ρ')) : kept.contains d = true := by
  rw [filter_eq] at h
  generalize (∅ : ConstraintSet) = result at h
  induction cs generalizing result ρ with
  | nil => cases hc
  | cons c' cs ih =>
    rw [List.foldlM_cons] at h
    obtain ⟨result', ρ₁, hpass, hrest⟩ := bind_eq_ok_iff.1 h
    have hfirst : c = c' → kept.contains d = true := by
      rintro rfl
      refine contains_of_foldlM_pass hrest ?_
      rcases pass_returns hpass with ⟨hnone, -⟩ | ⟨e, hsome, rfl⟩
      · obtain ⟨⟨e, he, -⟩, -⟩ := hkeep hρ hnone
        cases he
      · obtain ⟨⟨e', he, hed⟩, -⟩ := hkeep hρ hsome
        obtain rfl := Option.some.inj he
        rw [ConstraintSet.contains, ConstraintSet.toList_insert, Distinct.contains_add,
          BEq.symm hed, Bool.or_true]
    rcases List.mem_cons.1 hc with hc | hc
    · exact hfirst hc
    · have hρ₁ : I ρ₁ := by
        rcases pass_returns hpass with ⟨hrun, -⟩ | ⟨e, hrun, -⟩
        · exact (hI c' hρ hrun).2
        · exact (hI c' hρ hrun).2
      exact ih hc hρ₁ result' hrest

end Relevance

end WhereClause
