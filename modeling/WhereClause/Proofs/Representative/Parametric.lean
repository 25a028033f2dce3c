import Mathlib.Data.Int.Notation
import WhereClause.Proofs.Representative.Runs

/-!
# The traversals in two monads

The two traversals that make types concrete, `Ty.mostConcrete` and `Ty.settleParts`, work in any
monad that can fail, and know nothing of it but how to return, to go on and to fail.  So whatever
relates computations in two monads, and goes through sequences (`Parametric`), relates the runs of
one traversal in the two, as soon as it relates what they are given for single types.  The folds of
sets (`Resolver.foldBy`) only remember what they come to besides.

This is what compares a traversal that remembers with one that does not, one that is recorded with
one that is not, and one that keeps the sets under way in its state with one that is told of them.
-/

namespace WhereClause

variable {m n : Type → Type} [Monad m] [MonadExceptOf Fault m] [Monad n] [MonadExceptOf Fault n]

/-- A relation between computations in two monads that goes through sequences, and holds between
failures for one cause. -/
structure Parametric (S : (α : Type) → m α → n α → Prop) : Prop where
  pure : ∀ {α : Type} (a : α), S α (pure a) (pure a)
  bind : ∀ {α β : Type} {x : m α} {y : n α} {f : α → m β} {g : α → n β},
    S α x y → (∀ a, S β (f a) (g a)) → S β (x >>= f) (y >>= g)
  failWith : ∀ {α : Type} (c : Cause), S α (failWith c) (failWith c)

namespace Parametric

variable {S : (α : Type) → m α → n α → Prop}

lemma foldlM (h : Parametric S) {α β : Type} {f : β → α → m β} {g : β → α → n β}
    (hfg : ∀ b a, S β (f b a) (g b a)) (as : List α) (b : β) :
    S β (as.foldlM f b) (as.foldlM g b) := by
  induction as generalizing b with
  | nil => exact h.pure b
  | cons a as ih =>
    rw [List.foldlM_cons, List.foldlM_cons]
    exact h.bind (hfg b a) ih

/-! ## The more concrete of two types -/

section

variable {f : Ty → m Ty} {g : Ty → n Ty}

mutual

/-- What relates making one type concrete relates finding the more concrete of two. -/
lemma mostConcrete (h : Parametric S) (hfg : ∀ t, S Ty (f t) (g t)) (a b : Ty) :
    S Ty (Ty.mostConcrete f a b) (Ty.mostConcrete g a b) := by
  rw [Ty.mostConcrete.eq_def, Ty.mostConcrete.eq_def]
  split
  case isTrue => exact hfg a
  case isFalse =>
    split
    case h_1 | h_2 | h_6 | h_7 | h_11 | h_13 => exact hfg _
    case h_3 | h_4 | h_12 => exact h.pure _
    case h_5 => exact h.mostConcretePath hfg _ _
    case h_8 =>
      split
      · exact h.bind (h.mostConcreteEach hfg _ _) fun _ => h.pure _
      · exact h.failWith _
    case h_9 | h_10 => exact h.bind (h.mostConcrete hfg _ _) fun _ => h.pure _
    case h_14 => exact h.failWith _
termination_by sizeOf a

lemma mostConcreteEach (h : Parametric S) (hfg : ∀ t, S Ty (f t) (g t)) (xs ys : List Ty) :
    S _ (Ty.mostConcreteEach f xs ys) (Ty.mostConcreteEach g xs ys) := by
  rw [Ty.mostConcreteEach.eq_def, Ty.mostConcreteEach.eq_def]
  split
  · exact h.bind (h.mostConcrete hfg _ _) fun _ =>
      h.bind (h.mostConcreteEach hfg _ _) fun _ => h.pure _
  · exact h.pure _
termination_by sizeOf xs

lemma mostConcretePath (h : Parametric S) (hfg : ∀ t, S Ty (f t) (g t)) (p q : Path) :
    S Ty (Path.mostConcrete f p q) (Path.mostConcrete g p q) := by
  obtain ⟨isGlobal, init, ⟨name, args⟩⟩ := p
  rw [Path.mostConcrete.eq_def, Path.mostConcrete.eq_def]
  dsimp only
  split
  · exact h.pure _
  · exact h.pure _
  · split_ifs
    · exact hfg _
    · exact hfg _
    · exact h.bind (h.mostConcreteArgs hfg _ _) fun _ => h.pure _
  · exact h.failWith _
termination_by sizeOf p

lemma mostConcreteArg (h : Parametric S) (hfg : ∀ t, S Ty (f t) (g t)) (a b : Arg) :
    S _ (Arg.mostConcrete f a b) (Arg.mostConcrete g a b) := by
  rw [Arg.mostConcrete.eq_def, Arg.mostConcrete.eq_def]
  split
  · exact h.bind (h.mostConcrete hfg _ _) fun _ => h.pure _
  · exact h.pure _
  · exact h.failWith _
termination_by sizeOf a

lemma mostConcreteArgs (h : Parametric S) (hfg : ∀ t, S Ty (f t) (g t)) (as bs : List Arg) :
    S _ (Arg.mostConcreteEach f as bs) (Arg.mostConcreteEach g as bs) := by
  rw [Arg.mostConcreteEach.eq_def, Arg.mostConcreteEach.eq_def]
  split
  · exact h.bind (h.mostConcreteArg hfg _ _) fun _ =>
      h.bind (h.mostConcreteArgs hfg _ _) fun _ => h.pure _
  · exact h.pure _
termination_by sizeOf as

end

end

/-! ## Sets -/

section

variable (store : Store) {f : ℤ → m (Option Ty)} {g : ℤ → n (Option Ty)}

/-- What relates answers for sets relates making types concrete by them. -/
lemma concreteBy (h : Parametric S) (hfg : ∀ r : ℕ, S (Option Ty) (f r) (g r)) (t : Ty) :
    S Ty (Resolver.concreteBy store f t) (Resolver.concreteBy store g t) := by
  rw [Resolver.concreteBy, Resolver.concreteBy]
  rcases store.setOf t with _ | r
  · exact h.pure t
  · exact h.bind (hfg r) fun _ => h.pure _

/-- It relates folds if it relates failing and remembering what they come to. -/
lemma foldBy [MonadStateOf Resolver m] [MonadStateOf Resolver n] (h : Parametric S)
    (hfg : ∀ r : ℕ, S (Option Ty) (f r) (g r)) {position : ℤ}
    (hthrow : ∀ fault, S (Option Ty) (throw fault) (throw fault))
    (hremember : ∀ w, S (Option Ty)
      (do modify (·.remember position (some w)); return some w)
      (do modify (·.remember position (some w)); return some w)) :
    S (Option Ty) (Resolver.foldBy store f position) (Resolver.foldBy store g position) := by
  rw [Resolver.foldBy, Resolver.foldBy]
  rcases store.members? position with _ | _ | ⟨t, ts⟩
  · exact hthrow _
  · exact hthrow _
  · have hpairs := h.mostConcrete (h.concreteBy store hfg)
    exact h.bind (h.foldlM hpairs ts t) hremember

end

/-! ## Settling the parts of a type -/

/-- What two traversals are given for the types of sets is related. -/
structure Expansions (S : (α : Type) → m α → n α → Prop) (setOf : Ty → Option ℕ)
    (f : ℕ → Ty → m Ty) (g : ℕ → Ty → n Ty) : Prop extends Parametric S where
  expand : ∀ r t, setOf t = some r → S Ty (f r t) (g r t)

namespace Expansions

variable {setOf : Ty → Option ℕ} {f : ℕ → Ty → m Ty} {g : ℕ → Ty → n Ty}

lemma settlePart (h : Expansions S setOf f g) {t : Ty}
    (ht : S Ty (t.settleParts setOf f) (t.settleParts setOf g)) :
    S Ty (t.settlePart setOf f) (t.settlePart setOf g) := by
  rw [Ty.settlePart, Ty.settlePart]
  split
  · exact h.expand _ t ‹_›
  · exact ht

mutual

/-- What relates expanding the types of sets relates settling the parts of a type. -/
lemma settleParts (h : Expansions S setOf f g) (t : Ty) :
    S Ty (t.settleParts setOf f) (t.settleParts setOf g) := by
  cases t with
  | tuple ts =>
    rw [Ty.settleParts, Ty.settleParts]
    exact h.bind (h.settleEach ts) fun _ => h.pure _
  | ref access t l =>
    rw [Ty.settleParts_ref, Ty.settleParts_ref]
    exact h.bind (h.settlePart (h.settleParts t)) fun _ => h.pure _
  | dyn bs =>
    rw [Ty.settleParts, Ty.settleParts]
    exact h.bind (h.settleBounds bs) fun _ => h.pure _
  | path p =>
    rw [Ty.settleParts, Ty.settleParts]
    exact h.bind (h.settlePath p) fun _ => h.pure _
  | _ => rw [Ty.settleParts, Ty.settleParts]; exact h.pure _
termination_by structural t

lemma settleEach (h : Expansions S setOf f g) (ts : List Ty) :
    S _ (Ty.settleEach setOf f ts) (Ty.settleEach setOf g ts) := by
  cases ts with
  | nil => rw [Ty.settleEach, Ty.settleEach]; exact h.pure _
  | cons t ts =>
    rw [Ty.settleEach_cons, Ty.settleEach_cons]
    exact h.bind (h.settlePart (h.settleParts t)) fun _ =>
      h.bind (h.settleEach ts) fun _ => h.pure _
termination_by structural ts

lemma settlePath (h : Expansions S setOf f g) (p : Path) :
    S _ (p.settle setOf f) (p.settle setOf g) := by
  obtain ⟨isGlobal, init, last⟩ := p
  rw [Path.settle, Path.settle]
  exact h.bind (h.settleSegments init) fun _ =>
    h.bind (h.settleSegment last) fun _ => h.pure _
termination_by structural p

lemma settleSegment (h : Expansions S setOf f g) (s : Segment) :
    S _ (s.settle setOf f) (s.settle setOf g) := by
  obtain ⟨name, args⟩ := s
  rw [Segment.settle, Segment.settle]
  exact h.bind (h.settleArgs args) fun _ => h.pure _
termination_by structural s

lemma settleSegments (h : Expansions S setOf f g) (ss : List Segment) :
    S _ (Segment.settleEach setOf f ss) (Segment.settleEach setOf g ss) := by
  cases ss with
  | nil => rw [Segment.settleEach, Segment.settleEach]; exact h.pure _
  | cons s ss =>
    rw [Segment.settleEach, Segment.settleEach]
    exact h.bind (h.settleSegment s) fun _ =>
      h.bind (h.settleSegments ss) fun _ => h.pure _
termination_by structural ss

lemma settleArgs (h : Expansions S setOf f g) (as : Args) :
    S _ (as.settle setOf f) (as.settle setOf g) := by
  cases as with
  | angle as =>
    rw [Args.settle, Args.settle]
    exact h.bind (h.settleArgEach as) fun _ => h.pure _
  | _ => rw [Args.settle, Args.settle]; exact h.pure _
termination_by structural as

lemma settleArgEach (h : Expansions S setOf f g) (as : List Arg) :
    S _ (Arg.settleEach setOf f as) (Arg.settleEach setOf g as) := by
  cases as with
  | nil => rw [Arg.settleEach, Arg.settleEach]; exact h.pure _
  | cons a as =>
    cases a with
    | type t =>
      rw [Arg.settleEach_cons_type, Arg.settleEach_cons_type]
      exact h.bind (h.settlePart (h.settleParts t)) fun _ =>
        h.bind (h.settleArgEach as) fun _ => h.pure _
    | lifetime l =>
      rw [Arg.settleEach, Arg.settleEach]
      exact h.bind (h.settleArgEach as) fun _ => h.pure _
termination_by structural as

lemma settleBound (h : Expansions S setOf f g) (b : Bound) :
    S _ (b.settle setOf f) (b.settle setOf g) := by
  cases b with
  | trait p binder =>
    rw [Bound.settle, Bound.settle]
    exact h.bind (h.settlePath p) fun _ => h.pure _
  | outlives l => rw [Bound.settle, Bound.settle]; exact h.pure _
termination_by structural b

lemma settleBounds (h : Expansions S setOf f g) (bs : List Bound) :
    S _ (Bound.settleEach setOf f bs) (Bound.settleEach setOf g bs) := by
  cases bs with
  | nil => rw [Bound.settleEach, Bound.settleEach]; exact h.pure _
  | cons b bs =>
    rw [Bound.settleEach, Bound.settleEach]
    exact h.bind (h.settleBound b) fun _ =>
      h.bind (h.settleBounds bs) fun _ => h.pure _
termination_by structural bs

end

end Expansions

end Parametric

end WhereClause
