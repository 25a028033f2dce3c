import WhereClause.Inference
import WhereClause.Proofs.Relevance.Consulting
import WhereClause.Proofs.Representative.Closing

/-!
# Every inference comes to an end

An inference answers or fails for a cause of some kind, whatever it is given and in either mode
(`Implementation.infer_ends`).  A walk over two types stops at most at a clash, of which the kind is
known; the search for the sets that matter comes to an end; and a filter settles one constraint
after another.

A failure that comes up late is put down to the call that brought in the latest of its operands.
Which that is, is never in doubt: every origin has a number of its own.
-/

namespace WhereClause

open Resolving Resolver

/-! ## Clashes -/

/-- A clash, if there is one, is of some kind. -/
def Alignment.Kinded (x : Alignment) : Prop := ∀ c, x.clash = some c → c.kind ≠ .general

namespace Alignment

lemma kinded_nothing : nothing.Kinded := nofun

lemma kinded_step (s : Step) : (step s).Kinded := nofun

lemma kinded_fail {c : Cause} (h : c.kind ≠ .general) : (fail c).Kinded := by
  intro d hd
  obtain rfl : c = d := Option.some.inj hd
  exact h

lemma Kinded.andThen {x y : Alignment} (hx : x.Kinded) (hy : y.Kinded) : (x.andThen y).Kinded := by
  obtain ⟨steps, _ | c⟩ := x
  · exact hy
  · exact hx

end Alignment

open WhereClause.Alignment

mutual

lemma Ty.kinded_align (a b : Ty) : (a.align b).Kinded := by
  rw [Ty.align.eq_def]
  split
  · split_ifs
    · exact Bound.kinded_alignEach _ _
    · exact kinded_fail nofun
  · exact kinded_step _
  · exact kinded_step _
  · split_ifs
    · exact (Ty.kinded_align _ _).andThen (kinded_step _)
    · exact Ty.kinded_align _ _
  · split_ifs
    · exact (Ty.kinded_alignEach _ _).andThen (kinded_step _)
    · exact kinded_fail nofun
  · exact (Path.kinded_align _ _).andThen (kinded_step _)
  · exact kinded_step _
termination_by sizeOf a

lemma Ty.kinded_alignEach (as bs : List Ty) : (Ty.alignEach as bs).Kinded := by
  rw [Ty.alignEach.eq_def]
  split
  · exact (Ty.kinded_align _ _).andThen (Ty.kinded_alignEach _ _)
  · exact kinded_nothing
termination_by sizeOf as

lemma Path.kinded_align (p q : Path) : (p.align q).Kinded := by
  obtain ⟨isGlobal, init, ⟨name, args⟩⟩ := p
  rw [Path.align]
  split_ifs
  · exact kinded_fail nofun
  · exact Args.kinded_align _ _
termination_by sizeOf p

lemma Args.kinded_align (as bs : Args) : (as.align bs).Kinded := by
  rw [Args.align.eq_def]
  split
  · split_ifs
    · exact Arg.kinded_alignEach _ _
    · exact kinded_nothing
  · exact kinded_nothing
termination_by sizeOf as

lemma Arg.kinded_align (a b : Arg) : (a.align b).Kinded := by
  rw [Arg.align.eq_def]
  split
  · exact Ty.kinded_align _ _
  · exact kinded_nothing
  · exact kinded_fail nofun
termination_by sizeOf a

lemma Arg.kinded_alignEach (as bs : List Arg) : (Arg.alignEach as bs).Kinded := by
  rw [Arg.alignEach.eq_def]
  split
  · exact (Arg.kinded_align _ _).andThen (Arg.kinded_alignEach _ _)
  · exact kinded_nothing
termination_by sizeOf as

lemma Bound.kinded_align (b c : Bound) : (b.align c).Kinded := by
  rw [Bound.align.eq_def]
  split
  · exact Path.kinded_align _ _
  · exact kinded_nothing
termination_by sizeOf b

lemma Bound.kinded_alignEach (bs cs : List Bound) : (Bound.alignEach bs cs).Kinded := by
  rw [Bound.alignEach.eq_def]
  split
  · exact (Bound.kinded_align _ _).andThen (Bound.kinded_alignEach _ _)
  · exact kinded_nothing
termination_by sizeOf bs

end

@[simp] lemma Failure.cause_pin (f : Failure) (function : Option String) (site : Option Site) :
    (f.pin function site).cause = f.cause := by
  rw [Failure.pin]
  split_ifs <;> rfl

namespace Evidence

/-- A call that fails does so for a clash of some kind. -/
lemma kind_of_learnCalls {e e' : Evidence} {calls : List (String × Call)} {f : Failure}
    (h : e.learnCalls calls = (e', some f)) : f.cause.kind ≠ .general := by
  obtain ⟨_, _, c, -, -, hclash, -⟩ := learnCalls_fails h
  exact Ty.kinded_alignEach c.callee.signature.inputs c.args _ hclash

end Evidence

lemma Relevance.filtering_finishes {store : Store} (hlisted : store.Listed) :
    Filtering (fun _ Q x => Finishes (Busy (fun _ => True) [] []) Q x) store :=
  { compositional_finishes (Busy (fun _ => True) [] []) with
    settle := finishes_settle hlisted
    settleBound := finishes_settleBound hlisted }

/-! ## The inference -/

lemma Store.cause_blame (s : Store) (f : Failure) : (s.blame f).cause = f.cause := by
  rw [blame]
  split
  · exact Failure.cause_pin f _ _
  · rfl

namespace Evidence

/-- The search for the sets that matter fails for the cause, or the filter does. -/
def FailsFor (e : Evidence) (ps : List Param) (cause : Cause) : Prop :=
  (closure e.store ∅ ps).2 = .error (.ofCause cause) ∨
    ∃ refs, (closure e.store ∅ ps).2 = .ok refs ∧
      ((Relevance.ofRefs refs).filter (closure e.store ∅ ps).1.store e.candidates.toList
        (closure e.store ∅ ps).1.resolver).1 = .error (.ofCause cause)

/-- There is an answer, or the search or the filter fails for a cause of some kind, and blame is
laid by the origins that there are then. -/
lemma conclude_cases {e : Evidence} (hlisted : e.store.Listed) (ps : List Param) :
    (∃ kept, (e.conclude ps).2 = .ok kept) ∨
      ∃ cause : Cause, cause.kind ≠ .general ∧ e.FailsFor ps cause ∧
        (e.conclude ps).2 =
          .error (.failure ((closure e.store ∅ ps).1.store.blame (.ofCause cause))) := by
  have hrest : (∅ : Resolver).AtRest := ⟨nofun, rfl⟩
  unfold conclude FailsFor
  rcases Search.closure_finishes hlisted hrest ps with
    ⟨s, refs, hclosure, hs, hρ⟩ | ⟨s, cause, hclosure, hc⟩
  · rw [hclosure]
    rcases (Relevance.filtering_finishes hs).filter (.ofRefs refs) e.candidates.toList
      (hρ.busy fun _ _ _ _ _ => trivial) with
      ⟨kept, ρ', hfilter, -⟩ | ⟨cause, ρ', hfilter, hc⟩
    · dsimp only [tell]
      rw [hfilter]
      exact .inl ⟨kept, rfl⟩
    · dsimp only [tell]
      rw [hfilter]
      exact .inr ⟨cause, hc, .inr ⟨refs, rfl, congrArg Prod.fst hfilter⟩, rfl⟩
  · rw [hclosure]
    exact .inr ⟨cause, hc, .inl rfl, rfl⟩

end Evidence

/-- There is an answer, or a failure for a cause of some kind. -/
def Implementation.Ends : Except Fault ConstraintSet → Prop
  | .ok _ => True
  | .error fault => ∃ f, fault = .failure f ∧ f.cause.kind ≠ .general

lemma Evidence.conclude_ends {e : Evidence} (hlisted : e.store.Listed) (ps : List Param) :
    Implementation.Ends (e.conclude ps).2 := by
  rcases conclude_cases hlisted ps with ⟨kept, hkept⟩ | ⟨cause, hc, -, hfails⟩
  · rw [hkept]
    trivial
  · rw [hfails]
    refine ⟨_, rfl, ?_⟩
    rwa [Store.cause_blame]

namespace Implementation

/-- The search for the sets that matter, once all calls were looked at. -/
def searched (i : Implementation) (mode : MergeMode) : Search :=
  (closure (i.evidence mode).1.store.leave ∅ i.ownParams).1

lemma evolves_evidence (i : Implementation) (mode : MergeMode) :
    Store.Evolves (.empty mode) (i.evidence mode).1.store.leave :=
  ((i.declaredEvidence mode).evolves_learnCalls i.calls).trans (.single (.turn _ none))

/-- In either mode an inference comes to an end.  It answers, or it fails for a cause of one of
three kinds, and with nothing else: it asks only for sets that exist, have members and are not being
resolved, and meets none of the bounds that keep it finite.  To whom a late failure is put down is
not in doubt, since origins of one number are of one type. -/
theorem infer_ends (i : Implementation) (mode : MergeMode) :
    ((∃ kept, (i.infer mode).2 = .ok kept) ∨
      ∃ f : Failure, (i.infer mode).2 = .error (.failure f) ∧
        (f.cause.kind = .arity ∨ f.cause.kind = .unsupported ∨ f.cause.kind = .inconsistent)) ∧
      ∀ t u o o', (i.searched mode).store.originOf t = some o →
        (i.searched mode).store.originOf u = some o' → o.serial = o'.serial →
          (t == u) = true := by
  have hends : Ends (i.infer mode).2 := by
    unfold infer
    rcases hevidence : i.evidence mode with ⟨e, _ | failure⟩
    · have hlisted := (i.evolves_evidence mode).listed (Store.listed_empty mode)
      rw [hevidence] at hlisted
      exact Evidence.conclude_ends (e := { e with store := e.store.leave }) hlisted i.ownParams
    · exact ⟨failure, rfl, Evidence.kind_of_learnCalls hevidence⟩
  constructor
  · rcases hinfer : (i.infer mode).2 with fault | kept
    · rw [hinfer] at hends
      obtain ⟨f, rfl, hf⟩ := hends
      refine .inr ⟨f, rfl, ?_⟩
      rcases hkind : f.cause.kind
      · exact absurd hkind hf
      · exact .inl rfl
      · exact .inr (.inl rfl)
      · exact .inr (.inr rfl)
    · exact .inl ⟨kept, rfl⟩
  · have hevolves : Store.Evolves (.empty mode) (i.searched mode).store :=
      (i.evolves_evidence mode).trans (Search.grows_closure _ ∅ i.ownParams).evolves
    have hdated := hevolves.dated (Store.dated_empty mode)
    exact fun t u o o' => hdated.beq_of_serial t u o o'

end Implementation

end WhereClause
