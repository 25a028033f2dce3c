import Mathlib.Data.List.Basic
import WhereClause.Inference
import WhereClause.Proofs.Equality.Classes
import WhereClause.Proofs.Relevance.Filtering

/-!
# Evidence from parameters alone

A callee that takes type parameters and trait objects, called with type parameters, ties each of its
parameters to the argument in its place, and demands of the argument in the place of a trait object
that it satisfies the bounds of the object.  No such call fails, and nothing else is learnt from it.
-/

namespace WhereClause

/-- A parameter beside a parameter. -/
def Ty.bothParams : Ty × Ty → Option (Param × Param)
  | (.param p, .param q) => some (p, q)
  | _ => none

/-- What a trait object demands of the type beside it. -/
def Ty.objectDemand : Ty × Ty → Option Constraint
  | (.dyn bs, t) => some (.type t bs [])
  | _ => none

namespace Call

/-- The pairs of a declared type and the type of the argument in its place. -/
def places (c : Call) : List (Ty × Ty) := c.callee.signature.inputs.zip c.args

/-- The parameters of the callee with the parameters that are passed for them. -/
def tiedParams (c : Call) : List (Param × Param) := c.places.filterMap Ty.bothParams

/-- What the trait objects that the callee takes demand of the arguments. -/
def demands (c : Call) : List Constraint := c.places.filterMap Ty.objectDemand

/-- The callee takes type parameters and trait objects, and type parameters are passed. -/
structure PassesParams (c : Call) : Prop where
  inputs : ∀ t ∈ c.callee.signature.inputs, (∃ p, t = .param p) ∨ ∃ bs, t = .dyn bs
  args : ∀ t ∈ c.args, ∃ p, t = .param p

end Call

/-! ## The walk over parameters -/

/-- Pairs of parameters as pairs of types. -/
def Ty.ofParams (ps : List (Param × Param)) : List (Ty × Ty) :=
  ps.map fun pair => (.param pair.1, .param pair.2)

section

variable {ss ts : List Ty} (hss : ∀ t ∈ ss, (∃ p, t = .param p) ∨ ∃ bs, t = .dyn bs)
  (hts : ∀ t ∈ ts, ∃ p, t = .param p)

include hss hts

lemma Ty.clash_alignEach_params : (Ty.alignEach ss ts).clash = none := by
  induction ss generalizing ts with
  | nil =>
    unfold Ty.alignEach
    rfl
  | cons s ss ih =>
    rcases ts with _ | ⟨t, ts⟩
    · unfold Ty.alignEach
      rfl
    · obtain ⟨q, rfl⟩ := hts t List.mem_cons_self
      have hrest := ih (fun u hu => hss u (List.mem_cons_of_mem s hu))
        fun u hu => hts u (List.mem_cons_of_mem _ hu)
      rcases hss s List.mem_cons_self with ⟨p, rfl⟩ | ⟨bs, rfl⟩
      · rw [Ty.alignEach, Ty.align]
        · exact hrest
        all_goals simp
      · rw [Ty.alignEach, Ty.align]
        · exact hrest
        all_goals simp

/-- What stands in one place of a call. -/
lemma Ty.places_params : ∀ pair ∈ ss.zip ts,
    (∃ p q, pair = (.param p, .param q)) ∨ ∃ bs q, pair = (.dyn bs, .param q) := by
  rintro ⟨s, t⟩ hpair
  obtain ⟨hs, ht⟩ := List.of_mem_zip hpair
  obtain ⟨q, rfl⟩ := hts t ht
  rcases hss s hs with ⟨p, rfl⟩ | ⟨bs, rfl⟩
  · exact .inl ⟨p, q, rfl⟩
  · exact .inr ⟨bs, q, rfl⟩

end

section

variable {pairs : List (Ty × Ty)}
  (h : ∀ pair ∈ pairs, (∃ p q, pair = (.param p, .param q)) ∨ ∃ bs q, pair = (.dyn bs, .param q))

include h

/-- The walk over such pairs goes no deeper. -/
lemma Ty.metBelow_params : Ty.metBelow pairs = pairs := by
  induction pairs with
  | nil => rfl
  | cons pair pairs ih =>
    have hrest := ih fun q hq => h q (List.mem_cons_of_mem pair hq)
    rcases h pair List.mem_cons_self with ⟨p, q, rfl⟩ | ⟨bs, q, rfl⟩
    · rw [Ty.metBelow_cons, hrest, Ty.parts]
      · rfl
      all_goals simp
    · rw [Ty.metBelow_cons, hrest, Ty.parts]
      · rfl
      all_goals simp

lemma Ty.equalPairs_params :
    Ty.equalPairs pairs = Ty.ofParams (pairs.filterMap Ty.bothParams) := by
  rw [Ty.equalPairs, Ty.metBelow_params h]
  induction pairs with
  | nil => rfl
  | cons pair pairs ih =>
    have hrest := ih fun q hq => h q (List.mem_cons_of_mem pair hq)
    rcases h pair List.mem_cons_self with ⟨p, q, rfl⟩ | ⟨bs, q, rfl⟩
    · have hboth : Ty.bothParams (.param p, .param q) = some (p, q) := rfl
      have hequal : Ty.isEqualPair (.param p, .param q) = true := rfl
      rw [List.filter_cons_of_pos hequal, List.filterMap_cons_some hboth, hrest]
      rfl
    · have hboth : Ty.bothParams (.dyn bs, .param q) = none := rfl
      have hequal : Ty.isEqualPair (.dyn bs, .param q) = false := rfl
      rw [List.filter_cons_of_neg (Bool.eq_false_iff.1 hequal), List.filterMap_cons_none hboth,
        hrest]

lemma Ty.demands_params : Ty.demands pairs = pairs.filterMap Ty.objectDemand := by
  rw [Ty.demands, Ty.metBelow_params h]
  refine List.filterMap_congr fun pair hpair => ?_
  rcases h pair hpair with ⟨p, q, rfl⟩ | ⟨bs, q, rfl⟩
  · rfl
  · rfl

end

/-! ## Learning from calls -/

namespace Evidence

/-- What a call makes of the evidence if there is no clash. -/
def afterCall (e : Evidence) (function : String) (c : Call) : Evidence :=
  let learnt := (e.entered function c).takeAll (Ty.lessons c.places)
  { learnt with candidates := learnt.candidates.insertAll c.callee.constraints }

lemma learnCall_eq_none_iff {e e' : Evidence} {function : String} {c : Call} :
    e.learnCall function c = (e', none) ↔
      (Ty.alignEach c.callee.signature.inputs c.args).clash = none ∧
        e' = e.afterCall function c := by
  rw [learnCall_eq]
  rcases hclash : (Ty.alignEach c.callee.signature.inputs c.args).clash with _ | cause
  · rw [Ty.steps_alignEach _ _ hclash]
    constructor
    · intro h
      exact ⟨rfl, (congrArg Prod.fst h).symm⟩
    · rintro ⟨-, rfl⟩
      rfl
  · constructor
    · intro h
      cases congrArg Prod.snd h
    · rintro ⟨h, -⟩
      cases h

lemma candidates_afterCall (e : Evidence) (function : String) (c : Call) :
    (e.afterCall function c).candidates.toList =
      (Ty.demands c.places ++ c.callee.constraints).foldl Distinct.add e.candidates.toList := by
  rw [afterCall, ConstraintSet.toList_insertAll, candidates_takeAll, Ty.demanded_lessons,
    List.foldl_append]
  rfl

/-- If no call fails, what trait objects and callees demand is added in order. -/
lemma candidates_learnCalls {e e' : Evidence} {calls : List (String × Call)}
    (h : e.learnCalls calls = (e', none)) :
    e'.candidates.toList =
      (calls.flatMap fun call => Ty.demands call.2.places ++ call.2.callee.constraints).foldl
        Distinct.add e.candidates.toList := by
  induction calls generalizing e with
  | nil =>
    obtain rfl : e = e' := congrArg Prod.fst h
    rfl
  | cons call rest ih =>
    obtain ⟨function, c⟩ := call
    rw [learnCalls] at h
    rcases hlearn : e.learnCall function c with ⟨e₁, _ | failure⟩
    · rw [hlearn] at h
      obtain ⟨-, rfl⟩ := learnCall_eq_none_iff.1 hlearn
      rw [ih h, candidates_afterCall, ← List.foldl_append, List.flatMap_cons]
    · rw [hlearn] at h
      cases congrArg Prod.snd h

/-- A call with parameters ties parameters, and does not fail. -/
lemma learnCall_of_passesParams {c : Call} (hc : c.PassesParams) (function : String)
    {e : Evidence} {pairs : List (Ty × Ty)} (he : e.store.Reflects pairs) :
    e.learnCall function c = (e.afterCall function c, none) ∧
      (e.afterCall function c).store.Reflects (pairs ++ Ty.ofParams c.tiedParams) := by
  have hclash := Ty.clash_alignEach_params hc.inputs hc.args
  have hplaces := Ty.places_params hc.inputs hc.args
  refine ⟨learnCall_eq_none_iff.2 ⟨hclash, rfl⟩, ?_⟩
  have hentered : (e.entered function c).store.Reflects pairs := he.turn _
  have htaken := reflects_takeAll hentered (Ty.lessons c.places)
  rw [Ty.merged_lessons, Call.places, Ty.equalPairs_params hplaces] at htaken
  exact htaken

/-- Calls with parameters tie parameters. -/
lemma learnCalls_of_passesParams {calls : List (String × Call)}
    (hcalls : ∀ call ∈ calls, call.2.PassesParams) {e : Evidence} {pairs : List (Ty × Ty)}
    (he : e.store.Reflects pairs) :
    ∃ e', e.learnCalls calls = (e', none) ∧
      e'.store.Reflects (pairs ++ Ty.ofParams (calls.flatMap fun call => call.2.tiedParams)) := by
  induction calls generalizing e pairs with
  | nil =>
    refine ⟨e, rfl, ?_⟩
    have hnone : pairs ++ Ty.ofParams [] = pairs := List.append_nil pairs
    simpa [hnone] using he
  | cons call calls ih =>
    obtain ⟨hcall, hrest⟩ := List.forall_mem_cons.1 hcalls
    obtain ⟨function, c⟩ := call
    obtain ⟨hlearn, hstore⟩ := learnCall_of_passesParams hcall function he
    obtain ⟨e', hlearns, hstores⟩ := ih hrest hstore
    refine ⟨e', ?_, ?_⟩
    · rw [learnCalls, hlearn]
      exact hlearns
    · rw [List.flatMap_cons, Ty.ofParams, List.map_append, ← List.append_assoc]
      exact hstores

end Evidence

namespace Implementation

/-- All that is declared, and all that trait objects and callees demand, in order. -/
def offered (i : Implementation) : List Constraint :=
  i.declaredGenerics.flatMap Generics.constraints ++
    i.calls.flatMap fun call => Ty.demands call.2.places ++ call.2.callee.constraints

/-- If no call fails, the candidates are all that is offered. -/
lemma candidates_evidence {i : Implementation} {mode : MergeMode}
    (h : (i.evidence mode).2 = none) :
    (i.evidence mode).1.candidates.toList = Distinct.ofList i.offered := by
  have hlearn : (i.declaredEvidence mode).learnCalls i.calls = ((i.evidence mode).1, none) :=
    Prod.ext rfl h
  have hdeclared : (i.declaredEvidence mode).candidates.toList =
      Distinct.ofList (i.declaredGenerics.flatMap Generics.constraints) :=
    ConstraintSet.toList_ofList _
  rw [Evidence.candidates_learnCalls hlearn, hdeclared, offered, Distinct.ofList, Distinct.ofList,
    List.foldl_append]

end Implementation

end WhereClause
