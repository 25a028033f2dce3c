import WhereClause.Proofs.Equality.Bookkeeping
import WhereClause.Proofs.Representative.Enduring

/-!
# What settling leaves behind

A resolver keeps account of the sets that are being expanded, in its state, and takes a set off the
account when the expansion is over, however it ended.  So settling could as well be told of these
sets and leave the account alone (`Resolver.expandBelow`), and it is the same computation in every
outcome (`Resolver.settle_contained`).

Told of the sets under way, it is plain that a type of one of them stands as it is, that nothing has
to be restored, and that expansions come to an end: each one inside another is told of a set more.
The store is only read on the way, so that there is none among the results.
-/

namespace WhereClause

open Resolving

namespace Resolver

variable {store : Store} {expanding : List ℕ}

/-! ## Being told of the sets under way -/

/-- The settled form of a type of a set, below the expansions of certain sets.  A type of one of
these stands as it is. -/
def expandBelow (store : Store) : ℕ → List ℕ → ℕ → Ty → Resolving Ty
  | 0, expanding, r, t => if r ∈ expanding then return t else throw (.unresolved r)
  | depth + 1, expanding, r, t =>
    if r ∈ expanding then return t
    else do
      let representative ← concrete store t
      representative.settleParts store.setOf (expandBelow store depth (r :: expanding))

lemma expandBelow_of_mem {r : ℕ} (h : r ∈ expanding) (depth : ℕ) (t : Ty) :
    expandBelow store depth expanding r t = pure t := by
  cases depth with
  | zero => rw [expandBelow, if_pos h]
  | succ depth => rw [expandBelow, if_pos h]

/-- The resolver with a different account of the sets that are being expanded. -/
def under (ρ : Resolver) (expanding : List ℕ) : Resolver := { ρ with settling := expanding }

lemma under_of_settling {ρ : Resolver} (h : ρ.settling = expanding) : ρ.under expanding = ρ := by
  subst h
  rfl

end Resolver

open Resolver

namespace Resolving

/-- The first computation, on a resolver that is expanding certain sets, does what the second does
on one that does not know of them; and the second leaves alone what it does know. -/
def HandsDown (expanding : List ℕ) {α : Type} (x y : Resolving α) : Prop :=
  ∀ ρ, (y ρ).2.settling = ρ.settling ∧ x (ρ.under expanding) = ((y ρ).1, (y ρ).2.under expanding)

lemma parametric_handsDown (expanding : List ℕ) :
    Parametric (m := Resolving) (n := Resolving) fun _ x y => HandsDown expanding x y where
  pure a := fun ρ => ⟨rfl, rfl⟩
  bind {α β x y f g} hxy hfg := by
    intro ρ
    obtain ⟨hsettling, hx⟩ := hxy ρ
    rcases hy : y ρ with ⟨fault | a, ρ₁⟩
    · rw [hy] at hsettling hx
      rw [run_bind_of_error hx, run_bind_of_error hy]
      exact ⟨hsettling, rfl⟩
    · rw [hy] at hsettling hx
      rw [run_bind_of_ok hx, run_bind_of_ok hy]
      obtain ⟨hsettling', hf⟩ := hfg a ρ₁
      exact ⟨hsettling'.trans hsettling, hf⟩
  failWith c := fun ρ => ⟨rfl, rfl⟩

end Resolving

namespace Resolver

/-! ## Folds do not look at the account -/

lemma handsDown_resolveWithin (depth : ℕ) (position : ℤ) :
    HandsDown expanding (resolveWithin store depth position)
      (resolveWithin store depth position) := by
  induction depth generalizing position with
  | zero =>
    intro ρ
    rcases hmemo : ρ.memo.get? position with _ | known
    · have hmemo' : (ρ.under expanding).memo.get? position = none := hmemo
      rw [resolveWithin_zero_of_unasked hmemo, resolveWithin_zero_of_unasked hmemo']
      exact ⟨rfl, rfl⟩
    · have hmemo' : (ρ.under expanding).memo.get? position = some known := hmemo
      rw [resolveWithin_of_asked hmemo, resolveWithin_of_asked hmemo']
      exact ⟨rfl, rfl⟩
  | succ depth ih =>
    intro ρ
    rcases hmemo : ρ.memo.get? position with _ | known
    · have hmemo' : (ρ.under expanding).memo.get? position = none := hmemo
      rw [resolveWithin_of_unasked hmemo, resolveWithin_of_unasked hmemo']
      have hfold : HandsDown expanding (foldWithin store depth position)
          (foldWithin store depth position) :=
        (parametric_handsDown expanding).foldBy store (fun r => ih r) (fun _ _ => ⟨rfl, rfl⟩)
          fun _ _ => ⟨rfl, rfl⟩
      exact hfold (ρ.remember position none)
    · have hmemo' : (ρ.under expanding).memo.get? position = some known := hmemo
      rw [resolveWithin_of_asked hmemo, resolveWithin_of_asked hmemo']
      exact ⟨rfl, rfl⟩

lemma handsDown_concrete (store : Store) (expanding : List ℕ) (t : Ty) :
    HandsDown expanding (concrete store t) (concrete store t) := by
  rw [concrete_eq]
  exact (parametric_handsDown expanding).concreteBy store (fun r => handsDown_resolveWithin _ r) t

/-! ## Expansions keep the account -/

/-- An expansion puts its set on the account while it goes on, and takes it off at the end.  That is
what it tells the expansions below of. -/
lemma handsDown_expandWithin (depth r : ℕ) (t : Ty) :
    HandsDown expanding (expandWithin store depth r t) (expandBelow store depth expanding r t) := by
  induction depth generalizing expanding r t with
  | zero =>
    intro ρ
    by_cases hr : r ∈ expanding
    · rw [expandBelow_of_mem hr, expandWithin_of_mem hr]
      exact ⟨rfl, rfl⟩
    · rw [expandBelow, if_neg hr, expandWithin_zero_of_not_mem hr]
      exact ⟨rfl, rfl⟩
  | succ depth ih =>
    have hdown := parametric_handsDown (r :: expanding)
    have hexpansions : Parametric.Expansions (m := Resolving) (n := Resolving)
        (fun _ x y => HandsDown (r :: expanding) x y) store.setOf (expandWithin store depth)
        (expandBelow store depth (r :: expanding)) :=
      { hdown with expand := fun q u _ => ih q u }
    have hinside := hdown.bind (handsDown_concrete store _ t) fun w => hexpansions.settleParts w
    intro ρ
    by_cases hr : r ∈ expanding
    · rw [expandBelow_of_mem hr, expandWithin_of_mem hr]
      exact ⟨rfl, rfl⟩
    · rw [expandBelow, if_neg hr, expandWithin_of_not_mem hr, run_whileSettling]
      obtain ⟨hsettling, hrun⟩ := hinside ρ
      have hpush : (ρ.under expanding).push r = ρ.under (r :: expanding) := rfl
      refine ⟨hsettling, ?_⟩
      rw [hpush, hrun, pop]
      dsimp only [under]
      rw [List.erase_cons_head]

/-! ## Expansions come to an end -/

/-- How many sets are not being expanded. -/
def unexpanded (store : Store) (expanding : List ℕ) : ℕ :=
  (List.range store.sets.length).countP fun r => !expanding.contains r

lemma unexpanded_le (store : Store) (expanding : List ℕ) :
    unexpanded store expanding ≤ store.sets.length := by
  unfold unexpanded
  exact Nat.le_trans List.countP_le_length (Nat.le_of_eq List.length_range)

lemma unexpanded_cons_lt {r : ℕ} (hr : r < store.sets.length) (h : r ∉ expanding) :
    unexpanded store (r :: expanding) < unexpanded store expanding := by
  unfold unexpanded
  apply countP_lt_countP _ (List.mem_range.2 hr)
  · simpa using h
  · simp
  · intro q _ hq
    simp only [List.contains_cons, Bool.not_or, Bool.and_eq_true] at hq
    exact hq.2

lemma endures_concrete (t : Ty) :
    Endures store store.sets.length (fun _ => True) (concrete store t) := by
  rw [concrete_eq]
  exact endures_concreteWithin (endures_resolveWithin _) t

/-- Each expansion inside another is of a set that is not being expanded. -/
lemma endures_expandBelow (hlisted : store.Listed) {depth : ℕ}
    (hroom : unexpanded store expanding ≤ depth) {r : ℕ} {t : Ty} (ht : store.setOf t = some r) :
    Endures store store.sets.length (fun _ => True) (expandBelow store depth expanding r t) := by
  have hcompositional := compositional_endures store store.sets.length
  induction depth generalizing expanding r t with
  | zero =>
    by_cases hr : r ∈ expanding
    · rw [expandBelow_of_mem hr]
      exact hcompositional.pure trivial
    · have hlt := unexpanded_cons_lt (hlisted.lt_length ht) hr
      omega
  | succ depth ih =>
    by_cases hr : r ∈ expanding
    · rw [expandBelow_of_mem hr]
      exact hcompositional.pure trivial
    · have hlt := unexpanded_cons_lt (hlisted.lt_length ht) hr
      have hsettling : Settling (fun _ Q x => Endures store store.sets.length Q x) store.setOf
          (expandBelow store depth (r :: expanding)) :=
        { hcompositional with expand := fun q u hu => ih (by omega) hu }
      rw [expandBelow, if_neg hr]
      exact hcompositional.bind (endures_concrete t) fun w _ => hsettling.settleParts w

/-- More room makes no difference. -/
lemma boundedBy_expandBelow {depth depth' : ℕ} (h : depth ≤ depth') (r : ℕ) (t : Ty) :
    BoundedBy (expandBelow store depth expanding r t) (expandBelow store depth' expanding r t) := by
  have hbounded := parametric_boundedBy
  induction depth generalizing depth' expanding r t with
  | zero =>
    by_cases hr : r ∈ expanding
    · rw [expandBelow_of_mem hr, expandBelow_of_mem hr]
      exact hbounded.pure t
    · intro ρ hunmet
      rw [expandBelow, if_neg hr] at hunmet
      exact absurd rfl (hunmet r)
  | succ depth ih =>
    obtain ⟨d, rfl⟩ : ∃ d, depth' = d + 1 := ⟨depth' - 1, by omega⟩
    by_cases hr : r ∈ expanding
    · rw [expandBelow_of_mem hr, expandBelow_of_mem hr]
      exact hbounded.pure t
    · have hexpansions : Parametric.Expansions (m := Resolving) (n := Resolving)
          (fun _ x y => BoundedBy x y) store.setOf (expandBelow store depth (r :: expanding))
          (expandBelow store d (r :: expanding)) :=
        { hbounded with expand := fun q u _ => ih (Nat.le_of_succ_le_succ h) q u }
      have hsame : BoundedBy (concrete store t) (concrete store t) := fun _ _ => rfl
      rw [expandBelow, expandBelow, if_neg hr, if_neg hr]
      exact hbounded.bind hsame fun w => hexpansions.settleParts w

/-! ## Settling -/

/-- What settling comes to on a store, in some state of the resolver.  It goes through the parts of
what is settled by `traverse`, which is told how the types of sets are expanded. -/
structure Contained (store : Store) (ρ : Resolver) {α : Type} (x : Resolving α)
    (traverse : (ℕ → Ty → Resolving Ty) → Resolving α) : Prop where
  /-- No bound on the expansions inside one another is ever met, nor one on the folds. -/
  unmet : ∀ r, (x ρ).1 ≠ .error (.unresolved r)
  /-- The bound is no part of the answer. -/
  room : ∀ depth, store.sets.length ≤ depth → traverse (expandWithin store depth) ρ = x ρ
  /-- However it ends, the same sets are being expanded after as before. -/
  restored : (x ρ).2.settling = ρ.settling
  /-- All that the account of these sets is for is that a type of one of them stands as it is. -/
  told : x ρ = traverse (expandBelow store store.sets.length ρ.settling) ρ

/-- What all traversals do that go through sequences, and settle parts by expanding them. -/
lemma Contained.of_traverse (hlisted : store.Listed) (ρ : Resolver) {α : Type} {x : Resolving α}
    {traverse : (ℕ → Ty → Resolving Ty) → Resolving α} (hx : x = traverse (expand store))
    (hendures : ∀ {f : ℕ → Ty → Resolving Ty},
      Settling (fun _ Q x => Endures store store.sets.length Q x) store.setOf f →
        Endures store store.sets.length (fun _ => True) (traverse f))
    (hrelates : ∀ {S : (α : Type) → Resolving α → Resolving α → Prop}
      {f g : ℕ → Ty → Resolving Ty}, Parametric.Expansions S store.setOf f g →
        S α (traverse f) (traverse g)) : Contained store ρ x traverse := by
  have hbelow : Endures store store.sets.length (fun _ => True)
      (traverse (expandBelow store store.sets.length ρ.settling)) := by
    apply hendures
    exact { compositional_endures store store.sets.length with
      expand := fun r t ht => endures_expandBelow hlisted (unexpanded_le store ρ.settling) ht }
  obtain ⟨hretains, hunmet, -⟩ := hbelow (unasked_le store ρ)
  -- the account is of the sets that the traversal could have been told of
  have htold (depth : ℕ) : traverse (expandWithin store depth) ρ =
      traverse (expandBelow store depth ρ.settling) ρ := by
    have hdown : HandsDown ρ.settling (traverse (expandWithin store depth))
        (traverse (expandBelow store depth ρ.settling)) :=
      hrelates { parametric_handsDown ρ.settling with
        expand := fun r t _ => handsDown_expandWithin depth r t }
    obtain ⟨hsettling, hrun⟩ := hdown ρ
    rw [under_of_settling hsettling, under_of_settling rfl] at hrun
    exact hrun
  have hsame : x ρ = traverse (expandBelow store store.sets.length ρ.settling) ρ := by
    rw [hx]
    exact htold _
  refine ⟨?_, fun depth hdepth => ?_, ?_, hsame⟩
  · rw [hsame]
    exact hunmet
  · have hbounded : BoundedBy (traverse (expandBelow store store.sets.length ρ.settling))
        (traverse (expandBelow store depth ρ.settling)) :=
      hrelates { parametric_boundedBy with
        expand := fun r t _ => boundedBy_expandBelow hdepth r t }
    rw [htold, hsame]
    exact hbounded hunmet
  · rw [hsame]
    exact hretains.settling

/-- Whatever was done to a store, and whatever state a resolver is in, settling comes to an end and
leaves the sets that are being expanded as they were.  A type of one of these stands as it is. -/
theorem settle_contained (mode : MergeMode) (os : List Operation) (ρ : Resolver) :
    let store := ((Evidence.empty mode).performAll os).store
    (∀ t : Ty, Contained store ρ (settle store t) fun expand => t.settlePart store.setOf expand) ∧
      (∀ p : Path, Contained store ρ (settlePath store p) fun expand =>
        p.settle store.setOf expand) ∧
      (∀ b : Bound, Contained store ρ (settleBound store b) fun expand =>
        b.settle store.setOf expand) ∧
      ∀ t r, store.setOf t = some r → r ∈ ρ.settling → settle store t ρ = (.ok t, ρ) := by
  intro store
  have hlisted : store.Listed := Evidence.listed_performAll (Store.listed_empty mode) os
  refine ⟨fun t => ?_, fun p => ?_, fun b => ?_, fun t r ht hr => ?_⟩
  · apply Contained.of_traverse hlisted ρ (settle_eq store t)
    · exact fun hsettling => hsettling.settlePart (hsettling.settleParts t)
    · exact fun hexpansions => hexpansions.settlePart (hexpansions.settleParts t)
  · have hpath : settlePath store p = p.settle store.setOf (expand store) := rfl
    apply Contained.of_traverse hlisted ρ hpath
    · exact fun hsettling => hsettling.settlePath p
    · exact fun hexpansions => hexpansions.settlePath p
  · have hbound : settleBound store b = b.settle store.setOf (expand store) := rfl
    apply Contained.of_traverse hlisted ρ hbound
    · exact fun hsettling => hsettling.settleBound b
    · exact fun hexpansions => hexpansions.settleBound b
  · rw [settle_eq, Ty.settlePart, ht]
    exact expandWithin_of_mem hr _ t

end Resolver

end WhereClause
