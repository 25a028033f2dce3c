import WhereClause.Proofs.Inference.Searching
import WhereClause.Proofs.Relevance.Refiltering

/-!
# Where-clauses of calls that pass parameters

Where callees take type parameters and trait objects, and type parameters are passed, an inference
can be told without equality sets or representatives (`Implementation.infer_of_passesParams`).  Pairs of
parameters generate which parameters are one.  Everything that is demanded is rewritten to the
oldest parameters, and what speaks of the implementation's own parameters is kept.
-/

namespace WhereClause

open Relation (EqvGen)
open Resolving Resolver

/-! ## The direct account -/

/-- No path among the bounds ends in parentheses. -/
def Bound.Plain : Bound → Prop
  | .trait p _ => p.last.args.isParen = false
  | .outlives _ => True

def Constraint.Plain : Constraint → Prop
  | .lifetime _ _ => True
  | .type _ bs _ => ∀ b ∈ bs, b.Plain

namespace Implementation

variable (i : Implementation)

/-- The parameters of callees with the parameters that are passed for them, in all calls. -/
def tiedParams : List (Param × Param) := i.calls.flatMap fun call => call.2.tiedParams

/-- The parameters are one, as far as the calls tell. -/
def Tied : Param → Param → Prop := EqvGen (Param.Stated i.tiedParams)

/-- All that is declared and demanded, in order and as it was written. -/
def demanded : List Constraint :=
  i.declaredGenerics.flatMap Generics.constraints ++
    i.calls.flatMap fun call => call.2.demands ++ call.2.callee.constraints

/-- A parameter that is one with a parameter of the implementation, or a reference to such. -/
def Owns (t : Ty) : Prop := ∃ p, t.pointee = .param p ∧ ∃ o ∈ i.ownParams, i.Tied p o

/-- Every type that decides whether the constraint matters is the implementation's own. -/
def Concerns (c : Constraint) : Prop := ∀ t ∈ c.inspected, i.Owns t

/-- From each class of parameters that are one, the oldest is taken. -/
structure TakesOldest (low : Param → Param) : Prop where
  tied : ∀ p, i.Tied p (low p)
  least : ∀ p q, i.Tied p q → (low p).number ≤ q.number

end Implementation

/-! ## Relevance of what is plain -/

namespace Relevance

variable {v : Relevance} {store : Store}

lemma isRelevantType_iff : ∀ {t : Ty}, v.isRelevantType store t = true ↔
    ∃ p, t.pointee = .param p ∧ v.isRelevantParam store p = true
  | .param p => by
    constructor
    · intro h
      exact ⟨p, rfl, h⟩
    · rintro ⟨q, hq, h⟩
      obtain rfl : p = q := Ty.param.inj hq
      exact h
  | .ref _ t _ => isRelevantType_iff (t := t)
  | .infer | .str | .tuple _ | .deref _ | .dyn _ | .data _ _ _ | .path _ => by
    constructor
    · exact nofun
    · rintro ⟨p, hp, -⟩
      cases hp

lemma isRelevantBound_of_plain {b : Bound} (hb : b.Plain) :
    v.isRelevantBound store b = .ok (b.inspected.all (v.isRelevantType store)) := by
  cases b with
  | outlives l => rfl
  | trait p binder =>
    obtain ⟨isGlobal, init, ⟨name, as⟩⟩ := p
    cases as with
    | none => rfl
    | paren inputs output => cases hb
    | angle as =>
      have hargs : as.all (v.isRelevantArg store) =
          (as.filterMap Arg.type?).all (v.isRelevantType store) := by
        rw [List.all_filterMap]
        refine congrArg as.all (funext fun a => ?_)
        cases a with
        | type t => rfl
        | lifetime l => rfl
      exact congrArg Except.ok hargs

/-- Of a plain constraint, relevance looks at nothing but the types inspected. -/
lemma admits_iff_of_plain {c : Constraint} (hc : c.Plain) :
    v.Admits store c ↔ ∀ t ∈ c.inspected, v.isRelevantType store t = true := by
  cases c with
  | lifetime l ls => exact ⟨fun _ => nofun, fun _ => trivial⟩
  | type t bs binder =>
    have hbounds : (∀ b ∈ bs, v.isRelevantBound store b = .ok true) ↔
        ∀ u ∈ bs.flatMap Bound.inspected, v.isRelevantType store u = true := by
      rw [List.forall_mem_flatMap]
      refine forall₂_congr fun b hb => ?_
      rw [isRelevantBound_of_plain (hc b hb), Except.ok.injEq, List.all_eq_true]
    rw [Admits, hbounds, Constraint.inspected, List.forall_mem_cons]

lemma isRelevantParam_ofRefs_iff {refs : List ℕ} {p : Param} :
    (ofRefs refs).isRelevantParam store p = true ↔
      ∃ r ∈ refs, store.setOf (.param p) = some r := by
  rw [isRelevantParam]
  rcases store.setOf (.param p) with _ | r
  · simp [isRelevantSet]
  · show (Distinct.ofList (refs.map Int.ofNat)).contains (Int.ofNat r) = true ↔ _
    rw [Distinct.contains_ofList, List.contains_iff_mem, List.mem_map]
    constructor
    · rintro ⟨q, hq, hqr⟩
      obtain rfl : q = r := Int.ofNat.inj hqr
      exact ⟨q, hq, rfl⟩
    · rintro ⟨q, hq, hrq⟩
      obtain rfl : r = q := Option.some.inj hrq
      exact ⟨r, hq, rfl⟩

end Relevance

/-! ## Filtering by replacement -/

lemma Bound.Plain.mapParams {b : Bound} (hb : b.Plain) (f : Param → Param) :
    (b.mapParams f).Plain := by
  cases b with
  | outlives l => trivial
  | trait p binder =>
    obtain ⟨isGlobal, init, ⟨name, as⟩⟩ := p
    cases as with
    | none | angle _ => rfl
    | paren inputs output => cases hb

lemma Bound.plain_mapParamsEach {bs : List Bound} (hbs : ∀ b ∈ bs, b.Plain) (f : Param → Param) :
    ∀ b ∈ Bound.mapParamsEach f bs, b.Plain := by
  induction bs with
  | nil => exact nofun
  | cons b bs ih =>
    obtain ⟨hb, hrest⟩ := List.forall_mem_cons.1 hbs
    exact List.forall_mem_cons.2 ⟨hb.mapParams f, ih hrest⟩

lemma Constraint.Plain.mapParams {c : Constraint} (hc : c.Plain) (f : Param → Param) :
    (c.mapParams f).Plain := by
  cases c with
  | lifetime l ls => trivial
  | type t bs binder => exact Bound.plain_mapParamsEach hc f

namespace Relevance

variable {I : Resolver → Prop} {store : Store} {f : Param → Param}

open Classical in
/-- The rewritten constraint, if it is relevant. -/
noncomputable def rewritten (v : Relevance) (store : Store) (f : Param → Param) (c : Constraint) :
    Option Constraint :=
  if v.Admits store (c.mapParams f) then some (c.mapParams f) else none

variable {v : Relevance}

open Classical in
lemma gives_keepBounds (h : Replaces I store.setOf (expand store) f) {bs : List Bound}
    (hbs : ∀ b ∈ bs, b.Plain) :
    Gives I (v.keepBounds store bs)
      (if ∀ b ∈ Bound.mapParamsEach f bs, v.isRelevantBound store b = .ok true then
        some (Bound.mapParamsEach f bs) else none) := by
  induction bs with
  | nil =>
    rw [keepBounds, Bound.mapParamsEach, if_pos (by simp)]
    exact .pure _
  | cons b bs ih =>
    obtain ⟨hb, hrest⟩ := List.forall_mem_cons.1 hbs
    have hrelevant : v.isRelevantBound store (b.mapParams f) =
        .ok ((b.mapParams f).inspected.all (v.isRelevantType store)) :=
      isRelevantBound_of_plain (hb.mapParams f)
    rw [keepBounds, Bound.mapParamsEach]
    refine (h.settleBound b).bind ?_
    rw [hrelevant]
    cases hall : (b.mapParams f).inspected.all (v.isRelevantType store) with
    | false =>
      rw [if_neg]
      · exact .pure _
      · intro hcons
        have hfirst := hcons _ List.mem_cons_self
        rw [hrelevant, hall] at hfirst
        cases hfirst
    | true =>
      rw [hall] at hrelevant
      refine (ih hrest).bind ?_
      by_cases hothers : ∀ c ∈ Bound.mapParamsEach f bs, v.isRelevantBound store c = .ok true
      · have hboth : ∀ c ∈ b.mapParams f :: Bound.mapParamsEach f bs,
            v.isRelevantBound store c = .ok true := List.forall_mem_cons.2 ⟨hrelevant, hothers⟩
        rw [if_pos hothers, if_pos hboth]
        exact .pure _
      · rw [if_neg hothers, if_neg fun hcons => hothers (List.forall_mem_cons.1 hcons).2]
        exact .pure _

/-- Where settling replaces parameters, what is kept of a plain constraint is the rewritten one. -/
lemma gives_keep (h : Replaces I store.setOf (expand store) f) {c : Constraint} (hc : c.Plain) :
    Gives I (v.keep store c) (v.rewritten store f c) := by
  cases c with
  | lifetime l ls =>
    have hadmits : v.Admits store (.lifetime l ls) := trivial
    rw [keep, rewritten, Constraint.mapParams, if_pos hadmits]
    exact .pure _
  | type t bs binder =>
    rw [keep, rewritten, Constraint.mapParams]
    refine Gives.bind (a := t.mapParams f) (h.settlePart t) ?_
    by_cases ht : v.isRelevantType store (t.mapParams f) = true
    · rw [if_pos ht]
      refine (gives_keepBounds h hc).bind ?_
      by_cases hbounds : ∀ b ∈ Bound.mapParamsEach f bs, v.isRelevantBound store b = .ok true
      · have hadmits : v.Admits store
            (.type (t.mapParams f) (Bound.mapParamsEach f bs) binder) := ⟨ht, hbounds⟩
        rw [if_pos hbounds, if_pos hadmits]
        exact .pure _
      · rw [if_neg hbounds, if_neg fun hadmits => hbounds hadmits.2]
        exact .pure _
    · rw [if_neg ht, if_neg fun hadmits => ht hadmits.1]
      exact .pure _

lemma gives_foldlM_pass (h : Replaces I store.setOf (expand store) f) {cs : List Constraint}
    (hcs : ∀ c ∈ cs, c.Plain) (result : ConstraintSet) :
    Gives I (cs.foldlM (v.pass store) result)
      (result.insertAll (cs.filterMap (v.rewritten store f))) := by
  induction cs generalizing result with
  | nil => exact .pure _
  | cons c cs ih =>
    obtain ⟨hc, hrest⟩ := List.forall_mem_cons.1 hcs
    rw [List.foldlM_cons]
    refine Gives.bind (a := ((v.rewritten store f c).map result.insert).getD result)
      ((gives_keep h hc).bind (.pure _)) ?_
    rcases hform : v.rewritten store f c with _ | d
    · rw [List.filterMap_cons_none hform]
      exact ih hrest result
    · rw [List.filterMap_cons_some hform]
      exact ih hrest (result.insert d)

end Relevance

/-! ## Concluding -/

namespace Search

variable {ties : List (Param × Param)}

/-- After a search for parameters, relevance holds of the parameters tied to one of them. -/
lemma isRelevantParam_iff {store : Store} (h : store.Ties ties) {ps : List Param} {refs : List ℕ}
    (hseeds : ∀ p ∈ ps, ∃ r, store.setOf (.param p) = some r)
    (hrefs : ∀ r, r ∈ refs ↔ ∃ p ∈ ps, store.setOf (.param p) = some r) (p : Param) :
    (Relevance.ofRefs refs).isRelevantParam store p = true ↔
      ∃ o ∈ ps, EqvGen (Param.Stated ties) p o := by
  rw [Relevance.isRelevantParam_ofRefs_iff]
  constructor
  · rintro ⟨r, hr, hp⟩
    obtain ⟨o, ho, hset⟩ := (hrefs r).1 hr
    exact ⟨o, ho, (h.linked_iff p o).1 (.of_setOf hp hset)⟩
  · rintro ⟨o, ho, hpo⟩
    obtain ⟨r, hset⟩ := hseeds o ho
    have hlinked := (h.linked_iff p o).2 hpo
    exact ⟨r, (hrefs r).2 ⟨o, ho, hset⟩, hlinked.setOf_eq.trans hset⟩

end Search

/-- Over a store of parameters, what is concluded are the rewritten candidates that are relevant. -/
lemma Evidence.conclude_of_ties {ties : List (Param × Param)} {e : Evidence}
    (h : e.store.Ties ties) (hplain : ∀ c ∈ e.candidates.toList, c.Plain) (ps : List Param) :
    ∃ (v : Relevance) (store : Store) (events : List Event), store.Ties ties ∧
      (∀ p, v.isRelevantParam store p = true ↔ ∃ o ∈ ps, EqvGen (Param.Stated ties) p o) ∧
      e.conclude ps =
        (events, .ok (.ofList (e.candidates.toList.filterMap (v.rewritten store store.low)))) := by
  obtain ⟨search, refs, hclosure, hties, haged, hseeds, hrefs⟩ := Search.run_closure h ps
  have hreplaces := replaces_low hties.coherent hties.only
  obtain ⟨ρ, hfilter, -⟩ :=
    Relevance.gives_foldlM_pass (v := .ofRefs refs) hreplaces hplain ∅ haged
  rw [← Relevance.filter_eq] at hfilter
  refine ⟨.ofRefs refs, search.store, (e.conclude ps).1, hties,
    Search.isRelevantParam_iff hties hseeds hrefs, Prod.ext rfl ?_⟩
  unfold conclude
  rw [hclosure]
  dsimp only [tell]
  rw [hfilter]
  rfl

namespace Implementation

variable {i : Implementation}

/-- Of calls that pass parameters, all that is offered is declared or demanded. -/
lemma offered_of_passesParams (hcalls : ∀ call ∈ i.calls, call.2.PassesParams) :
    i.offered = i.demanded := by
  refine congrArg _ (List.flatMap_congr fun call hcall => ?_)
  have hplaces := Ty.places_params (hcalls call hcall).inputs (hcalls call hcall).args
  rw [Call.places, Ty.demands_params hplaces]
  rfl

/-- Calls that pass parameters tie what they pass, and all that is demanded is a candidate. -/
lemma evidence_of_passesParams (hcalls : ∀ call ∈ i.calls, call.2.PassesParams) :
    ∃ e, i.evidence .union = (e, none) ∧ e.store.leave.Ties i.tiedParams ∧
      e.candidates.toList = Distinct.ofList i.demanded := by
  have hdeclared : (i.declaredEvidence .union).store.Reflects [] := Store.reflects_empty
  obtain ⟨e, hlearn, hreflects⟩ := Evidence.learnCalls_of_passesParams hcalls hdeclared
  obtain rfl : (i.evidence .union).1 = e := congrArg Prod.fst hlearn
  refine ⟨_, hlearn, (hreflects.turn none).ties, ?_⟩
  rw [candidates_evidence (congrArg Prod.snd hlearn), offered_of_passesParams hcalls]

/-- A store that ties the parameters that calls tie knows the oldest of each class. -/
lemma takesOldest_low {store : Store} (h : store.Ties i.tiedParams) : i.TakesOldest store.low where
  tied p := by
    refine (h.linked_iff p (store.low p)).1 ?_
    rcases hp : store.setOf (.param p) with _ | r
    · rw [Store.low_of_setOf_eq_none hp]
      exact .refl store _
    · obtain ⟨-, hlow, -⟩ := Store.oldest_spec h.coherent hp
      exact .of_setOf hp hlow
  least p q hpq := by
    have hlinked := (h.linked_iff p q).2 hpq
    rcases hp : store.setOf (.param p) with _ | r
    · rw [Store.low_of_setOf_eq_none hp]
      have hsame := hlinked.symm.beq_of_setOf_eq_none hp
      have hnumber : q.number = p.number := Param.beq_ty_iff.1 hsame
      omega
    · obtain ⟨-, -, hleast⟩ := Store.oldest_spec h.coherent hp
      exact hleast q (hlinked.setOf_eq.symm.trans hp)

/-- A plain constraint is relevant if it concerns the implementation. -/
lemma admits_iff_concerns {v : Relevance} {store : Store}
    (h : ∀ p, v.isRelevantParam store p = true ↔ ∃ o ∈ i.ownParams, i.Tied p o)
    {c : Constraint} (hc : c.Plain) : v.Admits store c ↔ i.Concerns c := by
  rw [Relevance.admits_iff_of_plain hc]
  refine forall₂_congr fun t _ => ?_
  rw [Relevance.isRelevantType_iff, Owns]
  exact exists_congr fun p => and_congr_right fun _ => h p

open Classical in
/-- If every callee takes type parameters and trait objects, type parameters are passed, and no path
that bounds a type ends in parentheses, then an inference answers.  Its answer, in order and without
repeats, is all that is demanded, rewritten to the oldest of the parameters that are one, as far as
that concerns the implementation's own parameters. -/
theorem infer_of_passesParams (i : Implementation)
    (hcalls : ∀ call ∈ i.calls, call.2.PassesParams) (hplain : ∀ c ∈ i.demanded, c.Plain) :
    ∃ low, i.TakesOldest low ∧ ∃ events kept, i.infer .union = (events, .ok kept) ∧
      kept.toList = Distinct.ofList
        ((i.demanded.map (Constraint.mapParams low)).filter fun c => i.Concerns c) := by
  obtain ⟨e, hevidence, hties, hcandidates⟩ := evidence_of_passesParams hcalls
  have hcandidate : ∀ c ∈ e.candidates.toList, c.Plain := by
    intro c hc
    rw [hcandidates] at hc
    exact hplain c (Distinct.mem_of_mem_ofList hc)
  obtain ⟨v, store, events, hstore, hparam, hconclude⟩ :=
    Evidence.conclude_of_ties (e := { e with store := e.store.leave }) hties hcandidate i.ownParams
  refine ⟨store.low, takesOldest_low hstore, events,
    .ofList (e.candidates.toList.filterMap (v.rewritten store store.low)), ?_, ?_⟩
  · unfold infer
    rw [hevidence]
    exact hconclude
  · -- repeats among the candidates would be repeats once they are rewritten
    have hrepeats : ∀ c d, (c == d) = true → ∀ b, v.rewritten store store.low c = some b →
        ∃ b', v.rewritten store store.low d = some b' ∧ (b == b') = true := by
      intro c d hcd b hb
      have hmapped := Constraint.mapParams_congr store.nameless_low hcd
      unfold Relevance.rewritten at hb ⊢
      split_ifs at hb with hadmits
      obtain rfl := Option.some.inj hb
      exact ⟨_, if_pos (hadmits.congr hmapped), hmapped⟩
    rw [ConstraintSet.toList_ofList, hcandidates, Distinct.ofList_filterMap_ofList hrepeats,
      ← List.filterMap_eq_filter, List.filterMap_map]
    refine congrArg Distinct.ofList (List.filterMap_congr fun c hc => ?_)
    have hiff := admits_iff_concerns hparam ((hplain c hc).mapParams store.low)
    show v.rewritten store store.low c = Option.guard _ (c.mapParams store.low)
    unfold Relevance.rewritten Option.guard
    by_cases hconcerns : i.Concerns (c.mapParams store.low)
    · rw [if_pos (hiff.2 hconcerns), if_pos (decide_eq_true hconcerns)]
    · rw [if_neg fun hadmits => hconcerns (hiff.1 hadmits),
        if_neg fun htrue => hconcerns (of_decide_eq_true htrue)]

/-- A function of `Wrapper<T>` passes a `T` for a `U`, and one where something to display goes.  The
callee wants references to `U` to be cloned, and some unrelated `V`. -/
def lending : Implementation where
  ty := .data "Wrapper" ⟨[.type (.param ⟨0, "T"⟩)], []⟩ []
  trait := none
  functions := [⟨"lend", [{
    callee := {
      signature := ⟨[.param ⟨1, "U"⟩, .dyn [.trait (.ofName "Display" []) []]],
        some ⟨[.type (.param ⟨1, "U"⟩), .type (.param ⟨2, "V"⟩)],
          [.borrowedClone ⟨1, "U"⟩, .borrowedClone ⟨2, "V"⟩]⟩⟩
      parent := none }
    args := [.param ⟨0, "T"⟩, .param ⟨0, "T"⟩]
    place := none }]⟩]

open Classical in
/-- What is kept speaks of `T`: it can be displayed, and references to it can be cloned. -/
theorem infer_lending :
    (∀ call ∈ lending.calls, call.2.PassesParams) ∧ (∀ c ∈ lending.demanded, c.Plain) ∧
      ∃ low, lending.TakesOldest low ∧ ∃ events kept, lending.infer .union = (events, .ok kept) ∧
        kept.toList = Distinct.ofList
          ((lending.demanded.map (Constraint.mapParams low)).filter fun c => lending.Concerns c) ∧
        kept.toList = [.type (.param ⟨0, "T"⟩) [.trait (.ofName "Display" []) []] [],
          .borrowedClone ⟨0, "T"⟩] := by
  have hcalls : ∀ call ∈ lending.calls, call.2.PassesParams := by
    refine List.forall_mem_singleton.2 ⟨?_, ?_⟩
    · exact List.forall_mem_cons.2 ⟨.inl ⟨_, rfl⟩, List.forall_mem_singleton.2 (.inr ⟨_, rfl⟩)⟩
    · exact List.forall_mem_cons.2 ⟨⟨_, rfl⟩, List.forall_mem_singleton.2 ⟨_, rfl⟩⟩
  have hplain : ∀ c ∈ lending.demanded, c.Plain := by
    refine List.forall_mem_cons.2 ⟨?_, List.forall_mem_cons.2 ⟨?_, List.forall_mem_singleton.2 ?_⟩⟩
    · exact List.forall_mem_singleton.2 rfl
    · exact List.forall_mem_singleton.2 rfl
    · exact List.forall_mem_singleton.2 rfl
  obtain ⟨low, hlow, events, kept, hinfer, hdirect⟩ := infer_of_passesParams lending hcalls hplain
  have hkept : (lending.infer .union).2 =
      .ok (.ofList [.type (.param ⟨0, "T"⟩) [.trait (.ofName "Display" []) []] [],
        .borrowedClone ⟨0, "T"⟩]) := by cbv
  rw [hinfer] at hkept
  refine ⟨hcalls, hplain, low, hlow, events, kept, hinfer, hdirect, ?_⟩
  rw [Except.ok.inj hkept]
  cbv

end Implementation

end WhereClause
