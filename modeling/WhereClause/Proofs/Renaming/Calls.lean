import WhereClause.Inference
import WhereClause.Proofs.Equality.Operations
import WhereClause.Proofs.Relevance.Filtering
import WhereClause.Proofs.Renaming.Terms

/-!
# Calls under a renaming

An implementation is renamed by renaming every term in it.  What an orderly renaming makes of an
implementation teaches the renamed steps, in the same order: tables are read by equality alone, sets
grow and fold at the same positions, and the first clash is the renamed one, put down to the renamed
call (`Implementation.evidence_rename`).
-/

namespace WhereClause

/-! ## Renamed implementations -/

section

variable (ρ : Renaming)

def Signature.rename (s : Signature) : Signature where
  inputs := s.inputs.map (Ty.rename ρ)
  generics := s.generics.map (Generics.rename ρ)

def Callee.rename (c : Callee) : Callee :=
  { c with signature := c.signature.rename ρ, parent := c.parent.map (Generics.rename ρ) }

def Call.rename (c : Call) : Call :=
  { c with callee := c.callee.rename ρ, args := c.args.map (Ty.rename ρ) }

def Function.rename (f : Function) : Function := { f with calls := f.calls.map (Call.rename ρ) }

def TraitRef.rename (t : TraitRef) : TraitRef where
  path := t.path.rename ρ
  generics := t.generics.map (Generics.rename ρ)

/-- Renames parameters everywhere in an implementation and its calls. -/
def Implementation.rename (i : Implementation) : Implementation where
  ty := i.ty.rename ρ
  trait := i.trait.map (TraitRef.rename ρ)
  functions := i.functions.map (Function.rename ρ)

def Site.rename : Site → Site
  | .place p => .place p
  | .call c => .call (c.rename ρ)

def Failure.rename (f : Failure) : Failure where
  cause := f.cause.rename ρ
  function := f.function
  site := f.site.map (Site.rename ρ)

def Fault.rename : Fault → Fault
  | .failure f => .failure (f.rename ρ)
  | .noSuchSet position => .noSuchSet position
  | .emptySet position => .emptySet position
  | .unresolved set => .unresolved set

def Step.rename : Step → Step
  | .merge a b => .merge (a.rename ρ) (b.rename ρ)
  | .constrain t bounds => .constrain (t.rename ρ) (Bound.renameEach ρ bounds)

def Alignment.rename (x : Alignment) : Alignment where
  steps := x.steps.map (Step.rename ρ)
  clash := x.clash.map (Cause.rename ρ)

def Origin.rename (o : Origin) : Origin := { o with site := o.site.map (Site.rename ρ) }

def Store.rename (s : Store) : Store where
  mode := s.mode
  sets := s.sets.map (List.map (Ty.rename ρ))
  index := s.index.map (Ty.rename ρ) id
  origins := s.origins.map (Ty.rename ρ) (Origin.rename ρ)
  current := s.current.map fun call => (call.1, call.2.map (Site.rename ρ))

def Store.Merge.rename : Store.Merge → Store.Merge
  | .found a b => .found (a.rename ρ) (b.rename ρ)
  | .join t r => .join (t.rename ρ) r
  | .fold source target => .fold source target
  | .nothing => .nothing

/-- The renamed constraints of a set, those that became equal taken once. -/
def ConstraintSet.rename (s : ConstraintSet) : ConstraintSet :=
  .ofList (s.toList.map (Constraint.rename ρ))

def Event.rename : Event → Event
  | .constrained c => .constrained (c.rename ρ)
  | .folded source target => .folded source target
  | .called function callee args => .called function callee (args.map (Ty.rename ρ))
  | .relevant params sets => .relevant (params.map ρ.onParam) sets
  | .kept result candidates => .kept (result.rename ρ) candidates

def Evidence.rename (e : Evidence) : Evidence where
  store := e.store.rename ρ
  candidates := e.candidates.rename ρ
  trace := e.trace.map (Event.rename ρ)

end

/-! ## Sets of constraints -/

namespace ConstraintSet

variable {ρ : Renaming} (h : ρ.Orderly)

include h

/-- No constraints become equal, and they stay in order. -/
lemma toList_rename (s : ConstraintSet) :
    (s.rename ρ).toList = s.toList.map (Constraint.rename ρ) := by
  rw [rename, toList_ofList, Distinct.ofList_map (Constraint.beq_rename h),
    Distinct.ofList_eq_self s.distinct]

lemma insert_rename (s : ConstraintSet) (c : Constraint) :
    (s.rename ρ).insert (c.rename ρ) = (s.insert c).rename ρ := by
  apply ext
  rw [toList_insert, toList_rename h, toList_rename h, toList_insert,
    Distinct.add_map (Constraint.beq_rename h)]

lemma insertAll_rename (s : ConstraintSet) (cs : List Constraint) :
    (s.rename ρ).insertAll (cs.map (Constraint.rename ρ)) = (s.insertAll cs).rename ρ := by
  apply ext
  rw [toList_insertAll, toList_rename h, toList_rename h, toList_insertAll,
    Distinct.foldl_add_map (Constraint.beq_rename h)]

lemma contains_rename (s : ConstraintSet) (c : Constraint) :
    (s.rename ρ).contains (c.rename ρ) = s.contains c := by
  rw [contains, contains, toList_rename h, Distinct.contains_map (Constraint.beq_rename h)]

lemma size_rename (s : ConstraintSet) : (s.rename ρ).size = s.size := by
  rw [size, size, toList_rename h, List.length_map]

end ConstraintSet

/-! ## Stores -/

namespace Store

variable {ρ : Renaming} (h : ρ.Orderly)

lemma members_rename (ρ : Renaming) (s : Store) (r : ℕ) :
    (s.rename ρ).members r = (s.members r).map (Ty.rename ρ) := by
  rw [members, members, rename, List.getElem?_map]
  cases s.sets[r]? <;> rfl

@[simp] lemma length_sets_rename (ρ : Renaming) (s : Store) :
    (s.rename ρ).sets.length = s.sets.length := List.length_map _

lemma members?_rename (ρ : Renaming) (s : Store) (position : ℤ) :
    (s.rename ρ).members? position = (s.members? position).map (List.map (Ty.rename ρ)) := by
  rw [members?, members?, rename]
  cases position with
  | ofNat n => exact List.getElem?_map
  | negSucc n =>
    rw [itemAt?, itemAt?, List.length_map, List.getElem?_map]
    split_ifs <;> rfl

include h

lemma setOf_rename (s : Store) (t : Ty) : (s.rename ρ).setOf (t.rename ρ) = s.setOf t := by
  rw [setOf, setOf, rename, Table.get?_map (Ty.beq_rename h), Option.map_id, id]

lemma originOf_rename (s : Store) (t : Ty) :
    (s.rename ρ).originOf (t.rename ρ) = (s.originOf t).map (Origin.rename ρ) := by
  rw [originOf, originOf, rename, Table.get?_map (Ty.beq_rename h)]

lemma originsWith_rename (s : Store) (t : Ty) :
    (s.rename ρ).originsWith (t.rename ρ) =
      (s.originsWith t).map (Ty.rename ρ) (Origin.rename ρ) := by
  obtain ⟨mode, sets, index, origins, current⟩ := s
  rcases current with _ | ⟨function, site⟩
  · rfl
  · simp only [originsWith, rename, Option.map_some, Table.contains_map (Ty.beq_rename h),
      Table.size_map]
    split_ifs
    · rfl
    · exact Table.insert_map (Ty.beq_rename h) origins t (⟨origins.size, function, site⟩ : Origin)

lemma add_rename (s : Store) (t : Ty) (r : ℕ) :
    (s.rename ρ).add (t.rename ρ) r = (s.add t r).rename ρ := by
  have hsets : (s.sets.map (List.map (Ty.rename ρ))).modify r (Distinct.add · (t.rename ρ)) =
      (s.sets.modify r (Distinct.add · t)).map (List.map (Ty.rename ρ)) := by
    refine List.ext_getElem? fun n => ?_
    simp only [List.getElem?_modify, List.getElem?_map]
    rcases s.sets[n]? with _ | ts
    · split_ifs <;> rfl
    · split_ifs
      · exact congrArg some (Distinct.add_map (Ty.beq_rename h) ts t)
      · rfl
  have hindex : (s.index.map (Ty.rename ρ) id).insert (t.rename ρ) r =
      (s.index.insert t r).map (Ty.rename ρ) id := Table.insert_map (Ty.beq_rename h) s.index t r
  have horigins := originsWith_rename h s t
  rw [add, horigins]
  simp only [rename, add, hsets, hindex]

lemma addAll_rename (s : Store) (ts : List Ty) (r : ℕ) :
    (s.rename ρ).addAll (ts.map (Ty.rename ρ)) r = (s.addAll ts r).rename ρ := by
  rw [addAll, addAll, List.foldl_map]
  exact List.foldl_hom (Store.rename ρ) fun s t => add_rename h s t r

lemma newSet_rename (s : Store) (ts : List Ty) :
    (s.rename ρ).newSet (ts.map (Ty.rename ρ)) =
      ((s.newSet ts).1.rename ρ, (s.newSet ts).2) := by
  have hroom : { s.rename ρ with sets := (s.rename ρ).sets ++ [[]] : Store } =
      Store.rename ρ { s with sets := s.sets ++ [[]] } := by
    simp only [rename, List.map_append, List.map_cons, List.map_nil]
  rw [newSet, newSet, hroom, addAll_rename h, length_sets_rename]

lemma ensure_rename (s : Store) (t : Ty) :
    (s.rename ρ).ensure (t.rename ρ) = ((s.ensure t).1.rename ρ, (s.ensure t).2) := by
  rw [ensure, ensure, setOf_rename h]
  rcases s.setOf t with _ | r
  · exact newSet_rename h s [t]
  · rfl

lemma absorb_rename (s : Store) (source target : ℕ) :
    (s.rename ρ).absorb source target = (s.absorb source target).rename ρ := by
  have hempty : { s.rename ρ with sets := (s.rename ρ).sets.set source [] : Store } =
      Store.rename ρ { s with sets := s.sets.set source [] } := by
    simp only [rename, List.map_set, List.map_nil]
  rw [absorb, absorb, hempty, members_rename, addAll_rename h]

lemma plan_rename (s : Store) (a b : Ty) :
    (s.rename ρ).plan (a.rename ρ) (b.rename ρ) = (s.plan a b).rename ρ := by
  have hmode : (s.rename ρ).mode = s.mode := rfl
  rw [plan, plan, setOf_rename h, setOf_rename h, hmode]
  rcases s.setOf a with _ | r <;> rcases s.setOf b with _ | q
  · rfl
  · rfl
  · rfl
  · simp only [members_rename, List.length_map]
    cases s.mode with
    | legacy =>
      dsimp only
      split_ifs <;> rfl
    | union =>
      dsimp only
      split_ifs <;> rfl

lemma perform_rename (s : Store) (m : Merge) :
    (s.rename ρ).perform (m.rename ρ) = (s.perform m).rename ρ := by
  cases m with
  | found a b => exact congrArg Prod.fst (newSet_rename h s [a, b])
  | join t r => exact add_rename h s t r
  | fold source target => exact absorb_rename h s source target
  | nothing => rfl

end Store

/-! ## Walks -/

namespace Alignment

variable {ρ : Renaming}

lemma rename_andThen {x y x' y' : Alignment} (hx : x' = x.rename ρ) (hy : y' = y.rename ρ) :
    x'.andThen y' = (x.andThen y).rename ρ := by
  subst hx hy
  obtain ⟨steps, _ | c⟩ := x
  · simp only [andThen, rename, Option.map_none, List.map_append]
  · rfl

end Alignment

lemma Ty.length_renameEach (ρ : Renaming) (ts : List Ty) :
    (Ty.renameEach ρ ts).length = ts.length := by
  rw [Ty.renameEach_eq_map, List.length_map]

lemma Bound.length_renameEach (ρ : Renaming) (bs : List Bound) :
    (Bound.renameEach ρ bs).length = bs.length := by
  rw [Bound.renameEach_eq_map, List.length_map]

lemma Arg.length_renameEach (ρ : Renaming) (as : List Arg) :
    (Arg.renameEach ρ as).length = as.length := by
  rw [Arg.renameEach_eq_map, List.length_map]

lemma Args.isParen_rename (ρ : Renaming) (as : Args) : (as.rename ρ).isParen = as.isParen := by
  cases as <;> simp only [Args.rename, Args.isParen]

lemma Path.args_last_rename (ρ : Renaming) (p : Path) :
    (p.rename ρ).last.args = p.last.args.rename ρ := by
  obtain ⟨isGlobal, init, ⟨name, args⟩⟩ := p
  rw [Path.rename, Segment.rename]

section

variable (ρ : Renaming)

open WhereClause.Alignment

mutual

/-- The walk over renamed types takes the renamed steps. -/
lemma Ty.align_rename (a b : Ty) :
    (a.rename ρ).align (b.rename ρ) = (a.align b).rename ρ := by
  cases a with
  | dyn xs =>
    cases b with
    | dyn ys =>
      simp only [Ty.rename, Ty.align, Bound.length_renameEach]
      split_ifs
      · exact Bound.alignEach_rename xs ys
      · simp only [Alignment.fail, Alignment.rename, Cause.rename, Ty.rename, List.map_nil,
          Option.map_some]
    | _ =>
      simp only [Ty.rename, Ty.align, Alignment.step, Alignment.rename, Step.rename, List.map_cons,
        List.map_nil, Option.map_none]
  | ref access x l =>
    cases b with
    | ref access' y k =>
      simp only [Ty.rename, Ty.align]
      split_ifs
      · refine rename_andThen (Ty.align_rename x y) ?_
        simp only [Alignment.step, Alignment.rename, Step.rename, Ty.rename, List.map_cons,
          List.map_nil, Option.map_none]
      · exact Ty.align_rename x y
    | _ =>
      simp only [Ty.rename, Ty.align, Alignment.step, Alignment.rename, Step.rename, List.map_cons,
        List.map_nil, Option.map_none]
  | tuple xs =>
    cases b with
    | tuple ys =>
      simp only [Ty.rename, Ty.align, Ty.length_renameEach]
      split_ifs
      · refine rename_andThen (Ty.alignEach_rename xs ys) ?_
        simp only [Alignment.step, Alignment.rename, Step.rename, Ty.rename, List.map_cons,
          List.map_nil, Option.map_none]
      · simp only [Alignment.fail, Alignment.rename, Cause.rename, Ty.rename, List.map_nil,
          Option.map_some]
    | _ =>
      simp only [Ty.rename, Ty.align, Alignment.step, Alignment.rename, Step.rename, List.map_cons,
        List.map_nil, Option.map_none]
  | path p =>
    cases b with
    | path q =>
      simp only [Ty.rename, Ty.align]
      refine rename_andThen (Path.align_rename p q) ?_
      simp only [Alignment.step, Alignment.rename, Step.rename, Ty.rename, List.map_cons,
        List.map_nil, Option.map_none]
    | _ =>
      simp only [Ty.rename, Ty.align, Alignment.step, Alignment.rename, Step.rename, List.map_cons,
        List.map_nil, Option.map_none]
  | infer | str | deref _ | data _ _ _ | param _ =>
    cases b <;>
      simp only [Ty.rename, Ty.align, Alignment.step, Alignment.rename, Step.rename, List.map_cons,
        List.map_nil, Option.map_none]
termination_by structural a

lemma Ty.alignEach_rename (as bs : List Ty) :
    Ty.alignEach (Ty.renameEach ρ as) (Ty.renameEach ρ bs) = (Ty.alignEach as bs).rename ρ := by
  cases as with
  | nil =>
    simp only [Ty.renameEach, Ty.alignEach]
    rfl
  | cons a as =>
    cases bs with
    | nil =>
      simp only [Ty.renameEach, Ty.alignEach]
      rfl
    | cons b bs =>
      simp only [Ty.renameEach, Ty.alignEach]
      exact rename_andThen (Ty.align_rename a b) (Ty.alignEach_rename as bs)
termination_by structural as

lemma Path.align_rename (p q : Path) :
    (p.rename ρ).align (q.rename ρ) = (p.align q).rename ρ := by
  obtain ⟨isGlobal, init, ⟨name, args⟩⟩ := p
  have hwhole : (Path.mk isGlobal init ⟨name, args⟩).rename ρ =
      ⟨isGlobal, Segment.renameEach ρ init, ⟨name, args.rename ρ⟩⟩ := by
    rw [Path.rename, Segment.rename]
  rw [hwhole, Path.align, Path.align, Path.args_last_rename, Args.isParen_rename,
    Args.isParen_rename, ← hwhole]
  split_ifs
  · rfl
  · exact Args.align_rename args q.last.args
termination_by structural p

lemma Args.align_rename (as bs : Args) :
    (as.rename ρ).align (bs.rename ρ) = (as.align bs).rename ρ := by
  cases as with
  | angle as =>
    cases bs with
    | angle bs =>
      simp only [Args.rename, Args.align, Arg.length_renameEach]
      split_ifs
      · exact Arg.alignEach_rename as bs
      · rfl
    | _ =>
      simp only [Args.rename, Args.align]
      rfl
  | none | paren _ _ =>
    simp only [Args.rename, Args.align]
    rfl
termination_by structural as

lemma Arg.align_rename (a b : Arg) :
    (a.rename ρ).align (b.rename ρ) = (a.align b).rename ρ := by
  cases a with
  | type s =>
    cases b with
    | type t =>
      simp only [Arg.rename, Arg.align]
      exact Ty.align_rename s t
    | lifetime k =>
      simp only [Arg.rename, Arg.align, Alignment.fail, Alignment.rename, Cause.rename,
        List.map_nil, Option.map_some]
  | lifetime l =>
    cases b with
    | type t =>
      simp only [Arg.rename, Arg.align, Alignment.fail, Alignment.rename, Cause.rename,
        List.map_nil, Option.map_some]
    | lifetime k =>
      simp only [Arg.rename, Arg.align]
      rfl
termination_by structural a

lemma Arg.alignEach_rename (as bs : List Arg) :
    Arg.alignEach (Arg.renameEach ρ as) (Arg.renameEach ρ bs) =
      (Arg.alignEach as bs).rename ρ := by
  cases as with
  | nil =>
    simp only [Arg.renameEach, Arg.alignEach]
    rfl
  | cons a as =>
    cases bs with
    | nil =>
      simp only [Arg.renameEach, Arg.alignEach]
      rfl
    | cons b bs =>
      simp only [Arg.renameEach, Arg.alignEach]
      exact rename_andThen (Arg.align_rename a b) (Arg.alignEach_rename as bs)
termination_by structural as

lemma Bound.align_rename (b c : Bound) :
    (b.rename ρ).align (c.rename ρ) = (b.align c).rename ρ := by
  cases b with
  | trait p binder =>
    cases c with
    | trait q binder' =>
      simp only [Bound.rename, Bound.align]
      exact Path.align_rename p q
    | outlives k =>
      simp only [Bound.rename, Bound.align]
      rfl
  | outlives l =>
    simp only [Bound.rename, Bound.align]
    rfl
termination_by structural b

lemma Bound.alignEach_rename (bs cs : List Bound) :
    Bound.alignEach (Bound.renameEach ρ bs) (Bound.renameEach ρ cs) =
      (Bound.alignEach bs cs).rename ρ := by
  cases bs with
  | nil =>
    simp only [Bound.renameEach, Bound.alignEach]
    rfl
  | cons b bs =>
    cases cs with
    | nil =>
      simp only [Bound.renameEach, Bound.alignEach]
      rfl
    | cons c cs =>
      simp only [Bound.renameEach, Bound.alignEach]
      exact rename_andThen (Bound.align_rename b c) (Bound.alignEach_rename bs cs)
termination_by structural bs

end

end

/-! ## Evidence -/

namespace Evidence

variable {ρ : Renaming} (h : ρ.Orderly)

lemma tell_rename (ρ : Renaming) (e : Evidence) (event : Event) :
    (e.rename ρ).tell (event.rename ρ) = (e.tell event).rename ρ := by
  simp only [tell, rename, List.map_append, List.map_cons, List.map_nil]

include h

lemma take_rename (e : Evidence) (s : Step) :
    (e.rename ρ).take (s.rename ρ) = (e.take s).rename ρ := by
  cases s with
  | merge a b =>
    have hplan : (e.rename ρ).store.plan (a.rename ρ) (b.rename ρ) =
        (e.store.plan a b).rename ρ := Store.plan_rename h e.store a b
    have hperform := Store.perform_rename h e.store (e.store.plan a b)
    simp only [Step.rename, take, hplan]
    cases hm : e.store.plan a b with
    | fold source target =>
      rw [hm] at hperform
      simp only [Store.Merge.rename] at hperform ⊢
      simp only [tell, rename, hperform, List.map_append, List.map_cons, List.map_nil, Event.rename]
    | found _ _ | join _ _ | nothing =>
      rw [hm] at hperform
      simp only [Store.Merge.rename] at hperform ⊢
      simp only [rename, hperform]
  | constrain t bounds =>
    have hrename : (Constraint.type t bounds []).rename ρ =
        .type (t.rename ρ) (Bound.renameEach ρ bounds) [] := by
      simp only [Constraint.rename, List.map_nil]
    simp only [Step.rename, take, ← hrename]
    have hcandidates : (e.rename ρ).candidates = e.candidates.rename ρ := rfl
    rw [hcandidates, ConstraintSet.contains_rename h, ConstraintSet.insert_rename h]
    split_ifs
    · rfl
    · simp only [tell, rename, List.map_append, List.map_cons, List.map_nil, Event.rename]

lemma takeAll_rename (e : Evidence) (steps : List Step) :
    (e.rename ρ).takeAll (steps.map (Step.rename ρ)) = (e.takeAll steps).rename ρ := by
  rw [takeAll, takeAll, List.foldl_map]
  exact List.foldl_hom (Evidence.rename ρ) (take_rename h)

end Evidence

lemma Call.site_rename (ρ : Renaming) (c : Call) : (c.rename ρ).site = c.site.rename ρ := by
  have hplace : (c.rename ρ).place = c.place := rfl
  rw [Call.site, Call.site, hplace]
  cases c.place <;> rfl

lemma Generics.constraints_rename (ρ : Renaming) (g : Generics) :
    (g.rename ρ).constraints = g.constraints.map (Constraint.rename ρ) := by
  obtain ⟨params, constraints⟩ := g
  rw [Generics.rename, Constraint.renameEach_eq_map]

lemma Callee.constraints_rename (ρ : Renaming) (c : Callee) :
    (c.rename ρ).constraints = c.constraints.map (Constraint.rename ρ) := by
  have hoption : ∀ g : Option Generics,
      ((g.map (Generics.rename ρ)).map Generics.constraints).getD [] =
        ((g.map Generics.constraints).getD []).map (Constraint.rename ρ) := by
    intro g
    cases g with
    | none => rfl
    | some g => exact Generics.constraints_rename ρ g
  rw [Callee.constraints, Callee.constraints, List.map_append, ← hoption, ← hoption]
  rfl

namespace Failure

variable (ρ : Renaming)

lemma ofCause_rename (c : Cause) : ofCause (c.rename ρ) = (ofCause c).rename ρ := rfl

lemma pin_rename (f : Failure) (function : Option String) (site : Option Site) :
    (f.rename ρ).pin function (site.map (Site.rename ρ)) = (f.pin function site).rename ρ := by
  have hsite : (f.rename ρ).site.isNone = f.site.isNone := Option.isNone_map
  rw [pin, pin, hsite]
  split_ifs <;> rfl

end Failure

namespace Evidence

variable {ρ : Renaming} (h : ρ.Orderly)

include h

omit h in
lemma entered_rename (ρ : Renaming) (e : Evidence) (function : String) (c : Call) :
    (e.rename ρ).entered function (c.rename ρ) = (e.entered function c).rename ρ := by
  have htell := tell_rename ρ e (.called function c.callee.name c.args)
  rw [entered, Call.site_rename]
  exact congrArg (fun e' : Evidence =>
    ({ e' with store := (e.entered function c).store.rename ρ } : Evidence)) htell

lemma learnCall_rename (e : Evidence) (function : String) (c : Call) :
    (e.rename ρ).learnCall function (c.rename ρ) =
      ((e.learnCall function c).1.rename ρ,
        (e.learnCall function c).2.map (Failure.rename ρ)) := by
  have halign : Ty.alignEach (c.rename ρ).callee.signature.inputs (c.rename ρ).args =
      (Ty.alignEach c.callee.signature.inputs c.args).rename ρ := by
    rw [← Ty.alignEach_rename, Ty.renameEach_eq_map, Ty.renameEach_eq_map]
    rfl
  rw [learnCall_eq, learnCall_eq, halign, entered_rename]
  generalize Ty.alignEach c.callee.signature.inputs c.args = walk
  have hsteps : (walk.rename ρ).steps = walk.steps.map (Step.rename ρ) := rfl
  rw [hsteps, takeAll_rename h]
  obtain ⟨steps, _ | cause⟩ := walk
  · have hadded := ConstraintSet.insertAll_rename h
      ((e.entered function c).takeAll steps).candidates c.callee.constraints
    rw [← Callee.constraints_rename] at hadded
    exact Prod.ext (congrArg (fun cs : ConstraintSet =>
      ({ ((e.entered function c).takeAll steps).rename ρ with candidates := cs } : Evidence))
      hadded) rfl
  · refine Prod.ext rfl (congrArg some ?_)
    rw [Call.site_rename, Failure.ofCause_rename]
    exact Failure.pin_rename ρ _ (some function) (some c.site)

/-- Learning from renamed calls leads to the renamed evidence, or fails at the renamed call. -/
lemma learnCalls_rename (e : Evidence) (calls : List (String × Call)) :
    (e.rename ρ).learnCalls (calls.map fun call => (call.1, call.2.rename ρ)) =
      ((e.learnCalls calls).1.rename ρ, (e.learnCalls calls).2.map (Failure.rename ρ)) := by
  induction calls generalizing e with
  | nil => rfl
  | cons call rest ih =>
    obtain ⟨function, c⟩ := call
    rw [List.map_cons, learnCalls, learnCalls, learnCall_rename h]
    rcases e.learnCall function c with ⟨e₁, _ | failure⟩
    · exact ih e₁
    · rfl

end Evidence

namespace Implementation

variable (ρ : Renaming) (i : Implementation)

lemma declaredGenerics_rename :
    (i.rename ρ).declaredGenerics = i.declaredGenerics.map (Generics.rename ρ) := by
  obtain ⟨ty, trait, functions⟩ := i
  have htrait : ((trait.map (TraitRef.rename ρ)).bind TraitRef.generics).toList =
      (trait.bind TraitRef.generics).toList.map (Generics.rename ρ) := by
    rcases trait with _ | ⟨path, _ | g⟩ <;> rfl
  rw [declaredGenerics, declaredGenerics, List.map_append, ← htrait]
  refine congrArg (· ++ _) ?_
  cases ty <;> simp only [rename, Ty.rename, List.map_nil, List.map_cons]

lemma calls_rename : (i.rename ρ).calls = i.calls.map fun call => (call.1, call.2.rename ρ) := by
  simp only [calls, rename, List.flatMap_map, List.map_flatMap, Function.rename, List.map_map]
  rfl

variable {ρ} (h : ρ.Orderly)

include h

lemma ownParams_rename : (i.rename ρ).ownParams = i.ownParams.map ρ.onParam := by
  rw [ownParams, ownParams, ← Distinct.ofList_map h.beq_onParam, declaredGenerics_rename,
    List.flatMap_map, List.map_flatMap]
  exact congrArg Distinct.ofList
    (List.flatMap_congr fun g _ => Generics.typeParams_rename ρ g)

lemma declaredEvidence_rename (mode : MergeMode) :
    (i.rename ρ).declaredEvidence mode = (i.declaredEvidence mode).rename ρ := by
  have hconstraints : (i.rename ρ).declaredGenerics.flatMap Generics.constraints =
      (i.declaredGenerics.flatMap Generics.constraints).map (Constraint.rename ρ) := by
    rw [declaredGenerics_rename, List.flatMap_map, List.map_flatMap]
    exact List.flatMap_congr fun g _ => Generics.constraints_rename ρ g
  rw [declaredEvidence, hconstraints]
  have hadded := ConstraintSet.insertAll_rename h ∅
    (i.declaredGenerics.flatMap Generics.constraints)
  exact congrArg (fun cs : ConstraintSet => (⟨.empty mode, cs, []⟩ : Evidence)) hadded

/-- A renamed implementation yields the renamed evidence, and fails where the other does. -/
lemma evidence_rename (mode : MergeMode) :
    (i.rename ρ).evidence mode =
      ((i.evidence mode).1.rename ρ, (i.evidence mode).2.map (Failure.rename ρ)) := by
  rw [evidence, declaredEvidence_rename i h, calls_rename, Evidence.learnCalls_rename h]
  rfl

end Implementation

end WhereClause
