import WhereClause.Proofs.Inference.Concluding
import WhereClause.Proofs.Renaming.Calls
import WhereClause.Proofs.Renaming.Resolvers

/-!
# Inference under a renaming

An inference never looks at a name, nor at a number but to compare it with another.  So the renamed
question has the renamed answer (`Implementation.infer_equivariant`): stage by stage, what an
inference makes of a renamed implementation is what it makes of the implementation, renamed.
-/

namespace WhereClause

open Resolving

/-! ## Searches -/

/-- A search among renamed types.  Sets keep their positions. -/
def Search.rename (ρ : Renaming) (s : Search) : Search :=
  { s with store := s.store.rename ρ, resolver := s.resolver.rename ρ }

namespace Search

/-- A renamed search may take as many steps. -/
lemma mentionCount_rename (ρ : Renaming) (store : Store) (resolver : Resolver) :
    mentionCount (store.rename ρ) (resolver.rename ρ) = mentionCount store resolver := by
  have hmembers : ∀ ts : List Ty,
      (Ty.mentionsEach (ts.map (Ty.rename ρ))).length = (Ty.mentionsEach ts).length := fun ts => by
    rw [← Ty.renameEach_eq_map, Ty.mentionsEach_rename, List.length_map]
  have hremembered : ∀ o : Option Ty,
      (((o.map (Ty.rename ρ)).map Ty.mentions).getD []).length =
        ((o.map Ty.mentions).getD []).length := fun o => by
    cases o with
    | none => rfl
    | some t => exact (congrArg List.length (Ty.mentions_rename ρ t)).trans (List.length_map _)
  simp only [mentionCount, Store.rename, Resolver.rename, Table.map, List.length_flatMap,
    List.map_map, Function.comp_def, hmembers, hremembered]

variable {ρ : Renaming} (h : ρ.Orderly)

include h

lemma follows_paramsFrom (store : Store) (r : ℕ) :
    Follows ρ (List.map ρ.onParam) (paramsFrom store r) (paramsFrom (store.rename ρ) r) := by
  refine (Resolver.follows_resolve h store r).bind fun o => ?_
  cases o with
  | none => exact .throw ρ _ (.unresolved r)
  | some t =>
    dsimp only [Option.map_some]
    rw [Ty.nestedParams_rename h]
    rcases t.nestedParams with cause | params
    · exact .throw ρ _ (.ofCause cause)
    · exact .pure rfl

lemma seed_rename (s : Search) (p : Param) :
    (s.rename ρ).seed (ρ.onParam p) = (s.seed p).rename ρ := by
  have hensure := Store.ensure_rename h s.store (.param p)
  rw [Ty.rename] at hensure
  simp only [seed, rename, hensure]

lemma note_rename (s : Search) (p : Param) :
    (s.rename ρ).note (ρ.onParam p) = (s.note p).rename ρ := by
  have hensure := Store.ensure_rename h s.store (.param p)
  rw [Ty.rename] at hensure
  simp only [note, rename, hensure]

lemma foldl_seed_rename (ps : List Param) (s : Search) :
    (ps.map ρ.onParam).foldl seed (s.rename ρ) = (ps.foldl seed s).rename ρ := by
  rw [List.foldl_map]
  exact List.foldl_hom (Search.rename ρ) (seed_rename h)

lemma foldl_note_rename (ps : List Param) (s : Search) :
    (ps.map ρ.onParam).foldl note (s.rename ρ) = (ps.foldl note s).rename ρ := by
  rw [List.foldl_map]
  exact List.foldl_hom (Search.rename ρ) (note_rename h)

/-- A search among renamed types finds the same sets, or fails where the other does. -/
lemma run_rename (steps : ℕ) (s : Search) :
    (s.rename ρ).run steps =
      ((s.run steps).1.rename ρ, Except.mapBoth (Fault.rename ρ) id (s.run steps).2) := by
  have hagenda : ∀ s : Search, (s.rename ρ).agenda.dropWhile (s.rename ρ).visited.contains =
      s.agenda.dropWhile s.visited.contains := fun _ => rfl
  induction steps generalizing s with
  | zero =>
    rw [run, run, hagenda]
    rcases s.agenda.dropWhile s.visited.contains with _ | ⟨r, agenda⟩ <;> rfl
  | succ steps ih =>
    rw [run, run, hagenda]
    rcases s.agenda.dropWhile s.visited.contains with _ | ⟨r, agenda⟩
    · rfl
    · have hparams : paramsFrom (s.rename ρ).store r (s.rename ρ).resolver = _ :=
        follows_paramsFrom h s.store r s.resolver
      dsimp only
      rw [hparams]
      rcases paramsFrom s.store r s.resolver with ⟨fault | params, resolver⟩
      · rfl
      · have hnoted := foldl_note_rename h params
          { s with resolver, agenda, visited := r :: s.visited }
        exact (congrArg (run steps) hnoted).trans (ih _)

end Search

lemma closure_rename {ρ : Renaming} (h : ρ.Orderly) (store : Store) (resolver : Resolver)
    (ps : List Param) :
    closure (store.rename ρ) (resolver.rename ρ) (ps.map ρ.onParam) =
      ((closure store resolver ps).1.rename ρ,
        Except.mapBoth (Fault.rename ρ) id (closure store resolver ps).2) := by
  have hseeded := Search.foldl_seed_rename h ps ⟨store, resolver, [], [], []⟩
  have hsteps : ∀ s : Search, (s.rename ρ).store.sets.length +
      Search.mentionCount (s.rename ρ).store (s.rename ρ).resolver + 1 =
      s.store.sets.length + Search.mentionCount s.store s.resolver + 1 := fun s => by
    have hlength := Store.length_sets_rename ρ s.store
    have hcount := Search.mentionCount_rename ρ s.store s.resolver
    exact congrArg₂ (· + · + 1) hlength hcount
  have hstart : (⟨store.rename ρ, resolver.rename ρ, [], [], []⟩ : Search) =
      Search.rename ρ ⟨store, resolver, [], [], []⟩ := rfl
  rw [closure, closure, hstart, hseeded, hsteps, Search.run_rename h]

/-! ## Relevance -/

namespace Relevance

variable {ρ : Renaming} (h : ρ.Orderly) (v : Relevance) (store : Store)

include h

lemma isRelevantParam_rename (p : Param) :
    v.isRelevantParam (store.rename ρ) (ρ.onParam p) = v.isRelevantParam store p := by
  have hset := Store.setOf_rename h store (.param p)
  rw [Ty.rename] at hset
  rw [isRelevantParam, isRelevantParam, hset]

lemma isRelevantType_rename (t : Ty) :
    v.isRelevantType (store.rename ρ) (t.rename ρ) = v.isRelevantType store t := by
  induction t using isRelevantType.induct with
  | case1 p =>
    rw [Ty.rename, isRelevantType, isRelevantType]
    exact isRelevantParam_rename h v store p
  | case2 access t l ih => rw [Ty.rename, isRelevantType, isRelevantType, ih]
  | case3 t hparam href =>
    cases t with
    | param p => exact absurd rfl (hparam p)
    | ref access t l => exact absurd rfl (href access t l)
    | _ => simp only [Ty.rename, isRelevantType]

lemma isRelevantArg_rename (a : Arg) :
    v.isRelevantArg (store.rename ρ) (a.rename ρ) = v.isRelevantArg store a := by
  cases a with
  | type t =>
    rw [Arg.rename, isRelevantArg, isRelevantArg]
    exact isRelevantType_rename h v store t
  | lifetime l => rw [Arg.rename, isRelevantArg, isRelevantArg]

lemma isRelevantPath_rename (p : Path) :
    v.isRelevantPath (store.rename ρ) (p.rename ρ) =
      Except.mapBoth (Fault.rename ρ) id (v.isRelevantPath store p) := by
  rw [isRelevantPath, isRelevantPath, Path.args_last_rename]
  cases p.last.args with
  | none =>
    rw [Args.rename]
    rfl
  | angle as =>
    rw [Args.rename, Arg.renameEach_eq_map]
    have hall : (as.map (Arg.rename ρ)).all (v.isRelevantArg (store.rename ρ)) =
        as.all (v.isRelevantArg store) := by
      rw [List.all_map]
      exact congrArg as.all (funext (isRelevantArg_rename h v store))
    exact congrArg Except.ok hall
  | paren inputs output =>
    rw [Args.rename]
    rfl

lemma isRelevantBound_rename (b : Bound) :
    v.isRelevantBound (store.rename ρ) (b.rename ρ) =
      Except.mapBoth (Fault.rename ρ) id (v.isRelevantBound store b) := by
  cases b with
  | trait p binder =>
    rw [Bound.rename, isRelevantBound, isRelevantBound]
    exact isRelevantPath_rename h v store p
  | outlives l =>
    rw [Bound.rename, isRelevantBound, isRelevantBound]
    rfl

lemma follows_keepBounds (bs : List Bound) :
    Follows ρ (Option.map (Bound.renameEach ρ)) (v.keepBounds store bs)
      (v.keepBounds (store.rename ρ) (Bound.renameEach ρ bs)) := by
  induction bs with
  | nil =>
    rw [Bound.renameEach, keepBounds, keepBounds]
    exact .pure (by rw [Option.map_some, Bound.renameEach])
  | cons b bs ih =>
    rw [Bound.renameEach, keepBounds, keepBounds]
    refine (Resolver.follows_settleBound h store b).bind fun c => ?_
    rw [isRelevantBound_rename h]
    rcases v.isRelevantBound store c with fault | _ | _
    · exact .throw ρ _ fault
    · exact .pure rfl
    · refine ih.map fun o => ?_
      cases o with
      | none => rfl
      | some cs => simp only [Option.map_some, Bound.renameEach]

lemma follows_keep (c : Constraint) :
    Follows ρ (Option.map (Constraint.rename ρ)) (v.keep store c)
      (v.keep (store.rename ρ) (c.rename ρ)) := by
  cases c with
  | lifetime l ls =>
    rw [Constraint.rename, keep, keep]
    exact .pure (by rw [Option.map_some, Constraint.rename])
  | type t bs binder =>
    rw [Constraint.rename, keep, keep]
    refine (Resolver.follows_settle h store t).bind fun u => ?_
    rw [isRelevantType_rename h]
    split_ifs
    · refine (follows_keepBounds h v store bs).map fun o => ?_
      cases o with
      | none => rfl
      | some cs => simp only [Option.map_some, Constraint.rename]
    · exact .pure rfl

/-- Of renamed constraints, the renamed ones are kept. -/
lemma follows_filter (cs : List Constraint) :
    Follows ρ (ConstraintSet.rename ρ) (v.filter store cs)
      (v.filter (store.rename ρ) (cs.map (Constraint.rename ρ))) := by
  refine Follows.foldlM (fun kept c => (follows_keep h v store c).map fun o => ?_) cs ∅
  cases o with
  | none => rfl
  | some d => exact ConstraintSet.insert_rename h kept d

end Relevance

/-! ## Blame -/

namespace Store

variable {ρ : Renaming} (h : ρ.Orderly) (s : Store)

include h

lemma latestOrigin_rename (operands : List Value) :
    (s.rename ρ).latestOrigin (operands.map (Value.rename ρ)) =
      (s.latestOrigin operands).map (Origin.rename ρ) := by
  have horigin : ∀ v : Value, (v.rename ρ).type?.bind (s.rename ρ).originOf =
      (v.type?.bind s.originOf).map (Origin.rename ρ) := by
    intro v
    cases v with
    | type t => exact originOf_rename h s t
    | _ => rfl
  have hlater : ∀ o o' : Origin, (o.rename ρ).later (o'.rename ρ) = (o.later o').rename ρ := by
    intro o o'
    have hserial : ∀ o : Origin, (o.rename ρ).serial = o.serial := fun _ => rfl
    rw [Origin.later, Origin.later, hserial, hserial]
    split_ifs <;> rfl
  have horigins : (operands.map (Value.rename ρ)).filterMap
      (fun v => v.type?.bind (s.rename ρ).originOf) =
      (operands.filterMap fun v => v.type?.bind s.originOf).map (Origin.rename ρ) := by
    rw [List.filterMap_map, List.map_filterMap]
    exact List.filterMap_congr fun v _ => horigin v
  rw [latestOrigin, latestOrigin, horigins]
  generalize (operands.filterMap fun v : Value => v.type?.bind s.originOf) = origins
  rcases origins with _ | ⟨o, os⟩
  · rfl
  · refine congrArg some ?_
    rw [List.foldl_map]
    exact List.foldl_hom (Origin.rename ρ) hlater

lemma blame_rename (f : Failure) : (s.rename ρ).blame (f.rename ρ) = (s.blame f).rename ρ := by
  have horigin := latestOrigin_rename h s f.cause.operands
  rw [← Cause.operands_rename] at horigin
  have hcause : (f.rename ρ).cause = f.cause.rename ρ := rfl
  rw [blame, blame, hcause, horigin]
  rcases s.latestOrigin f.cause.operands with _ | o
  · rfl
  · exact Failure.pin_rename ρ f (some o.function) o.site

lemma blameFault_rename (fault : Fault) :
    (s.rename ρ).blameFault (fault.rename ρ) = (s.blameFault fault).rename ρ := by
  cases fault with
  | failure f => exact congrArg Fault.failure (blame_rename h s f)
  | _ => rfl

end Store

/-! ## The inference -/

/-- Renamed evidence leads to the renamed conclusion. -/
lemma Evidence.conclude_rename {ρ : Renaming} (h : ρ.Orderly) (e : Evidence) (ps : List Param) :
    (e.rename ρ).conclude (ps.map ρ.onParam) =
      ((e.conclude ps).1.map (Event.rename ρ),
        Except.mapBoth (Fault.rename ρ) (ConstraintSet.rename ρ) (e.conclude ps).2) := by
  have hclosure := closure_rename h e.store ∅ ps
  have hstore : closure (e.rename ρ).store ∅ (ps.map ρ.onParam) = _ := hclosure
  unfold conclude
  rw [hstore]
  rcases closure e.store ∅ ps with ⟨search, fault | sets⟩
  · exact Prod.ext rfl (congrArg Except.error (Store.blameFault_rename h search.store fault))
  · have htold := tell_rename ρ e (.relevant ps (sets.mergeSort fun a b => decide (a ≤ b)))
    have hrelevant : ∀ sorted, (Event.relevant ps sorted).rename ρ =
        .relevant (ps.map ρ.onParam) sorted := fun _ => rfl
    rw [hrelevant] at htold
    dsimp only [Except.mapBoth, id, Search.rename]
    rw [htold]
    generalize e.tell (.relevant ps (sets.mergeSort fun a b => decide (a ≤ b))) = told
    have hcandidates : (told.rename ρ).candidates.toList =
        told.candidates.toList.map (Constraint.rename ρ) :=
      ConstraintSet.toList_rename h told.candidates
    have hsize : (told.rename ρ).candidates.size = told.candidates.size :=
      ConstraintSet.size_rename h told.candidates
    rw [hcandidates, hsize, Relevance.follows_filter h (.ofRefs sets) search.store
      told.candidates.toList search.resolver]
    rcases (Relevance.ofRefs sets).filter search.store told.candidates.toList search.resolver with
      ⟨fault | kept, resolver⟩
    · exact Prod.ext rfl (congrArg Except.error (Store.blameFault_rename h search.store fault))
    · exact Prod.ext
        (congrArg Evidence.trace (tell_rename ρ told (.kept kept told.candidates.size))) rfl

namespace Implementation

/-- The renamed question has the renamed answer. -/
lemma infer_rename {ρ : Renaming} (h : ρ.Orderly) (i : Implementation) (mode : MergeMode) :
    (i.rename ρ).infer mode =
      ((i.infer mode).1.map (Event.rename ρ),
        Except.mapBoth (Fault.rename ρ) (ConstraintSet.rename ρ) (i.infer mode).2) := by
  rw [infer, infer, evidence_rename i h]
  rcases i.evidence mode with ⟨e, _ | failure⟩
  · rw [ownParams_rename i h]
    exact Evidence.conclude_rename h { e with store := e.store.leave } i.ownParams
  · rfl

/-- What an inference tells and answers, renamed. -/
def renamedAnswer (ρ : Renaming) (i : Implementation) (mode : MergeMode) :
    List Event × Except Fault (List Constraint) :=
  ((i.infer mode).1.map (Event.rename ρ),
    Except.mapBoth (Fault.rename ρ) (fun kept => kept.toList.map (Constraint.rename ρ))
      (i.infer mode).2)

lemma renamedAnswer_eq {ρ : Renaming} (h : ρ.Orderly) (i : Implementation) (mode : MergeMode) :
    i.renamedAnswer ρ mode =
      (((i.rename ρ).infer mode).1,
        Except.mapBoth id ConstraintSet.toList ((i.rename ρ).infer mode).2) := by
  rw [infer_rename h, renamedAnswer]
  rcases (i.infer mode).2 with fault | kept
  · rfl
  · exact Prod.ext rfl (congrArg Except.ok (ConstraintSet.toList_rename h kept).symm)

/-- In either mode, let type parameters be renumbered in order, lifetimes apart, and both be called
as one likes, everywhere in an implementation.  Then what is told is the same of renamed terms.  If
there was an answer, the answer has the renamed constraints, in the same order.  If an inference
failed, it fails for a cause of the same kind with the same message and the renamed operands, in the
same function and at the renamed site.

If two implementations become one when each is renamed in its own way, so do their answers.  As it
is orderly to move numbers apart, it does not matter, then, whether a renumbering makes room between
the numbers that occur or takes it away.  In particular names alone have no influence: what differs
in names only, even if one parameter goes by several, has answers that differ in names only. -/
theorem infer_equivariant {ρ : Renaming} (h : ρ.Orderly) (i : Implementation) (mode : MergeMode) :
    ((i.rename ρ).infer mode).1 = (i.infer mode).1.map (Event.rename ρ) ∧
      (∀ kept, (i.infer mode).2 = .ok kept →
        ∃ kept', ((i.rename ρ).infer mode).2 = .ok kept' ∧
          kept'.toList = kept.toList.map (Constraint.rename ρ)) ∧
      (∀ f, (i.infer mode).2 = .error (.failure f) →
        ∃ f', ((i.rename ρ).infer mode).2 = .error (.failure f') ∧
          f'.cause.kind = f.cause.kind ∧ f'.cause.message = f.cause.message ∧
          f'.cause.operands = f.cause.operands.map (Value.rename ρ) ∧
          f'.function = f.function ∧ f'.site = f.site.map (Site.rename ρ)) ∧
      (∀ fault, (i.infer mode).2 = .error fault →
        ((i.rename ρ).infer mode).2 = .error (fault.rename ρ)) ∧
      (∀ (j : Implementation) (σ τ : Renaming), σ.Orderly → τ.Orderly →
        i.rename σ = j.rename τ → i.renamedAnswer σ mode = j.renamedAnswer τ mode) ∧
      ∀ j : Implementation, i.rename .anonymous = j.rename .anonymous →
        i.renamedAnswer .anonymous mode = j.renamedAnswer .anonymous mode := by
  have hrenamed := infer_rename h i mode
  have hmeet : ∀ (j : Implementation) (σ τ : Renaming), σ.Orderly → τ.Orderly →
      i.rename σ = j.rename τ → i.renamedAnswer σ mode = j.renamedAnswer τ mode := by
    intro j σ τ hσ hτ hmeet
    rw [renamedAnswer_eq hσ, renamedAnswer_eq hτ, hmeet]
  refine ⟨congrArg Prod.fst hrenamed, ?_, ?_, ?_, hmeet,
    fun j => hmeet j .anonymous .anonymous Renaming.orderly_anonymous Renaming.orderly_anonymous⟩
  · intro kept hkept
    rw [hkept] at hrenamed
    exact ⟨kept.rename ρ, congrArg Prod.snd hrenamed, ConstraintSet.toList_rename h kept⟩
  · intro f hf
    rw [hf] at hrenamed
    exact ⟨f.rename ρ, congrArg Prod.snd hrenamed, Cause.kind_rename ρ f.cause,
      Cause.message_rename ρ f.cause, Cause.operands_rename ρ f.cause, rfl, rfl⟩
  · intro fault hfault
    rw [hfault] at hrenamed
    exact congrArg Prod.snd hrenamed

end Implementation

/-- Moves numbers apart, turns lifetimes round, and calls everything something else. -/
def Renaming.spreading : Renaming where
  onParam p := ⟨3 * p.number - 7, p.name ++ "New"⟩
  onLifetime l := ⟨-l.number, "a"⟩

lemma Renaming.orderly_spreading : Renaming.spreading.Orderly where
  param := ⟨fun n => 3 * n - 7, fun _ _ hlt => by dsimp only; omega, fun _ => rfl⟩
  lifetime := ⟨Neg.neg, neg_injective, fun _ => rfl⟩

/-- What is kept of a renamed implementation speaks of the renamed `T`. -/
theorem Implementation.infer_equivariant_lending :
    Renaming.spreading.Orderly ∧
      ∃ kept', ((lending.rename .spreading).infer .union).2 = .ok kept' ∧
        kept'.toList = [.type (.param ⟨-7, "TNew"⟩) [.trait (.ofName "Display" []) []] [],
          .borrowedClone ⟨-7, "TNew"⟩] := by
  have hkept : (lending.infer .union).2 =
      .ok (.ofList [.type (.param ⟨0, "T"⟩) [.trait (.ofName "Display" []) []] [],
        .borrowedClone ⟨0, "T"⟩]) := by cbv
  obtain ⟨-, hanswer, -⟩ := infer_equivariant Renaming.orderly_spreading lending .union
  obtain ⟨kept', hrenamed, hlist⟩ := hanswer _ hkept
  exact ⟨Renaming.orderly_spreading, kept', hrenamed, hlist.trans (by cbv)⟩

end WhereClause
