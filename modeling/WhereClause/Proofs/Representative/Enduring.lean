import WhereClause.Proofs.Representative.Finishing
import WhereClause.Proofs.Representative.Parametric

/-!
# What a question does however it ends

A question may fail at any depth, with folds broken off all the way up.  Three things hold all the
same, whatever the store is like and whatever the resolver remembers, placeholders of folds broken
off before included.

* Nothing is taken back (`Resolver.Retains`): a position that was asked for has an entry in the
  memo, a type that was remembered is remembered still, and the same sets are being expanded.
* No bound is ever met (`Resolving.Endures`).  A set is folded inside another only if it was not
  asked for before, so the depth that the definitions allow is enough.
* The bounds are not part of the behaviour (`Resolving.BoundedBy`): where one is not met, no larger
  one makes a difference.
-/

namespace WhereClause

open Resolving

namespace Resolver

/-- Of what a resolver knows nothing is taken back. -/
structure Retains (ρ ρ' : Resolver) : Prop where
  asked : ∀ i, ρ.memo.get? i ≠ none → ρ'.memo.get? i ≠ none
  known : ∀ i t, ρ.memo.get? i = some (some t) → ρ'.memo.get? i = some (some t)
  settling : ρ'.settling = ρ.settling

instance : Std.Refl Retains := ⟨fun _ => ⟨fun _ h => h, fun _ _ h => h, rfl⟩⟩

instance : Trans Retains Retains Retains where
  trans h h' := ⟨fun i hi => h'.asked i (h.asked i hi), fun i t ht => h'.known i t (h.known i t ht),
    h'.settling.trans h.settling⟩

/-- An entry may be added where there was none, or where there was a placeholder. -/
lemma Retains.remember {ρ ρ' : Resolver} (h : Retains ρ ρ') {i : ℤ}
    (hi : ∀ t, ρ.memo.get? i ≠ some (some t)) (o : Option Ty) : Retains ρ (ρ'.remember i o) where
  asked j hj := by
    by_cases hij : i = j
    · rw [hij, get?_remember_self]
      exact Option.some_ne_none o
    · rw [get?_remember_of_ne hij]
      exact h.asked j hj
  known j t ht := by
    by_cases hij : i = j
    · subst hij
      exact absurd ht (hi t)
    · rw [get?_remember_of_ne hij]
      exact h.known j t ht
  settling := h.settling

lemma Retains.unasked_le {ρ ρ' : Resolver} (h : Retains ρ ρ') (store : Store) :
    unasked store ρ' ≤ unasked store ρ := by
  unfold unasked
  apply List.countP_mono_left
  intro r _ hr
  rw [Option.isNone_iff_eq_none] at hr ⊢
  by_contra hne
  exact h.asked r hne hr

end Resolver

open Resolver

namespace Resolving

/-- Where at most so many sets were not asked for, the computation takes nothing back, meets no
bound, and returns only values with a property. -/
def Endures (store : Store) (n : ℕ) {α : Type} (Q : α → Prop) (x : Resolving α) : Prop :=
  ∀ ⦃ρ⦄, unasked store ρ ≤ n → Retains ρ (x ρ).2 ∧ (∀ r, (x ρ).1 ≠ .error (.unresolved r)) ∧
    ∀ a, (x ρ).1 = .ok a → Q a

/-- Where the first computation meets no bound, the second does the same. -/
def BoundedBy {α : Type} (x y : Resolving α) : Prop :=
  ∀ ⦃ρ⦄, (∀ r, (x ρ).1 ≠ .error (.unresolved r)) → y ρ = x ρ

lemma compositional_endures (store : Store) (n : ℕ) :
    Compositional fun _ Q x => Endures store n Q x where
  pure ha := by
    intro ρ _
    refine ⟨Std.Refl.refl ρ, nofun, ?_⟩
    intro b hb
    exact Except.ok.inj hb ▸ ha
  bind {α β Q P x f} hx hf := by
    intro ρ hρ
    obtain ⟨hretains, hmet, hvalue⟩ := hx hρ
    rcases hrun : x ρ with ⟨fault | a, ρ₁⟩
    · rw [hrun] at hretains hmet
      rw [run_bind_of_error hrun]
      refine ⟨hretains, ?_, nofun⟩
      intro r hr
      exact hmet r (congrArg _ (Except.error.inj hr))
    · rw [hrun] at hretains hvalue
      rw [run_bind_of_ok hrun]
      have hρ₁ : unasked store ρ₁ ≤ n := Nat.le_trans (hretains.unasked_le store) hρ
      obtain ⟨hretains', hrest⟩ := hf a (hvalue a rfl) hρ₁
      exact ⟨Trans.trans hretains hretains', hrest⟩
  failWith _ := fun ρ _ => ⟨Std.Refl.refl ρ, nofun, nofun⟩

end Resolving

namespace Resolver

variable {store : Store}

/-! ## No bound is met -/

/-- What is known of questions goes for making types concrete. -/
lemma endures_concreteWithin {depth n : ℕ}
    (h : ∀ r : ℕ, Endures store n (fun _ => True) (resolveWithin store depth r)) (t : Ty) :
    Endures store n (fun _ => True) (concreteWithin store depth t) := by
  rw [concreteWithin, concreteBy]
  rcases store.setOf t with _ | r
  · exact (compositional_endures store n).pure trivial
  · exact (compositional_endures store n).bind (h r) fun _ _ =>
      (compositional_endures store n).pure trivial

/-- Making types concrete endures what making one type concrete does. -/
lemma endures_mostConcrete {n : ℕ} {concrete : Ty → Resolving Ty}
    (h : ∀ t, Endures store n (fun _ => True) (concrete t)) (a b : Ty) :
    Endures store n (fun _ => True) (Ty.mostConcrete concrete a b) := by
  have hmerging : Merging (fun _ Q x => Endures store n Q x) (fun _ => True) concrete :=
    { compositional_endures store n with
      concrete := fun t _ ρ hρ =>
        ⟨(h t hρ).1, (h t hρ).2.1, fun _ _ _ _ => trivial⟩ }
  intro ρ hρ
  obtain ⟨hretains, hmet, -⟩ :=
    hmerging.mostConcrete a b (fun _ _ => trivial) (fun _ _ => trivial) hρ
  exact ⟨hretains, hmet, fun _ _ => trivial⟩

/-- A fold endures what the questions on the way do, and its result goes into the place of the
placeholder. -/
lemma retains_foldWithin {depth : ℕ} {position : ℤ} {ρ₀ ρ : Resolver} (hbefore : Retains ρ₀ ρ)
    (hposition : ∀ t, ρ₀.memo.get? position ≠ some (some t))
    (hroom : ∀ t ts, store.members? position = some (t :: ts) → ∃ n, unasked store ρ ≤ n ∧
      ∀ r : ℕ, Endures store n (fun _ => True) (resolveWithin store depth r)) :
    Retains ρ₀ (foldWithin store depth position ρ).2 ∧
      ∀ r, (foldWithin store depth position ρ).1 ≠ .error (.unresolved r) := by
  rw [foldWithin, foldBy]
  rcases hmembers : store.members? position with _ | _ | ⟨t, ts⟩
  · exact ⟨hbefore, fun r hr => by cases hr⟩
  · exact ⟨hbefore, fun r hr => by cases hr⟩
  · obtain ⟨n, hn, hquestions⟩ := hroom t ts hmembers
    have hpairs := endures_mostConcrete (endures_concreteWithin hquestions)
    have hfold : Endures store n (fun _ => True)
        (ts.foldlM (Ty.mostConcrete (concreteWithin store depth)) t) :=
      (compositional_endures store n).foldlM (P := fun _ => True) (fun a b _ _ => hpairs a b)
        (fun _ _ => trivial) trivial
    obtain ⟨hretains, hmet, -⟩ := hfold hn
    dsimp only
    rcases hrun : ts.foldlM (Ty.mostConcrete (concreteWithin store depth)) t ρ with
      ⟨fault | w, ρ₁⟩
    · rw [hrun] at hretains hmet
      rw [run_bind_of_error hrun]
      refine ⟨Trans.trans hbefore hretains, fun r hr => ?_⟩
      exact hmet r (congrArg _ (Except.error.inj hr))
    · rw [hrun] at hretains
      rw [run_bind_of_ok hrun]
      have hfolded : Retains ρ₀ ρ₁ := Trans.trans hbefore hretains
      exact ⟨hfolded.remember hposition (some w), fun r hr => by cases hr⟩

/-- Once a fold begins, one set less was not asked for: so it takes no more than one level more than
there are such sets. -/
lemma endures_resolveWithin (n r : ℕ) :
    Endures store n (fun _ => True) (resolveWithin store (n + 1) r) := by
  induction n using Nat.strongRecOn generalizing r with
  | ind n ih =>
    intro ρ hρ
    rcases hmemo : ρ.memo.get? (r : ℤ) with _ | known
    · have hnone : ∀ t, ρ.memo.get? (r : ℤ) ≠ some (some t) := by
        rw [hmemo]
        exact nofun
      have hstart : Retains ρ (ρ.remember r none) :=
        (Std.Refl.refl ρ : Retains ρ ρ).remember hnone none
      have hroom : ∀ t ts, store.members? (r : ℤ) = some (t :: ts) →
          ∃ m, unasked store (ρ.remember r none) ≤ m ∧
            ∀ q : ℕ, Endures store m (fun _ => True) (resolveWithin store n q) := by
        intro t ts hmembers
        have hlt := unasked_remember_lt (Store.members_of_members? hmembers).1 hmemo none
        obtain ⟨m, rfl⟩ : ∃ m, n = m + 1 := ⟨n - 1, by omega⟩
        exact ⟨m, by omega, ih m (Nat.lt_succ_self m)⟩
      rw [resolveWithin_of_unasked hmemo]
      obtain ⟨hretains, hunmet⟩ := retains_foldWithin hstart hnone hroom
      exact ⟨hretains, hunmet, fun _ _ => trivial⟩
    · rw [resolveWithin_of_asked hmemo]
      exact ⟨Std.Refl.refl ρ, nofun, fun _ _ => trivial⟩

/-! ## More room makes no difference -/

lemma parametric_boundedBy :
    Parametric (m := Resolving) (n := Resolving) fun _ x y => BoundedBy x y where
  pure a := fun ρ _ => rfl
  bind {α β x y f g} hxy hfg := by
    intro ρ hmet
    rcases hrun : x ρ with ⟨fault | a, ρ₁⟩
    · rw [run_bind_of_error hrun] at hmet ⊢
      have hx : y ρ = x ρ := by
        apply hxy
        intro r hr
        rw [hrun] at hr
        exact hmet r (congrArg _ (Except.error.inj hr))
      exact run_bind_of_error (hx.trans hrun) g
    · rw [run_bind_of_ok hrun] at hmet ⊢
      have hx : y ρ = x ρ := by
        apply hxy
        rw [hrun]
        exact nofun
      rw [run_bind_of_ok (hx.trans hrun)]
      exact hfg a hmet
  failWith c := fun ρ _ => rfl

lemma boundedBy_resolveWithin {depth depth' : ℕ} (h : depth ≤ depth') (r : ℕ) :
    BoundedBy (resolveWithin store depth r) (resolveWithin store depth' r) := by
  induction depth generalizing depth' r with
  | zero =>
    intro ρ hmet
    rcases hmemo : ρ.memo.get? (r : ℤ) with _ | known
    · rw [resolveWithin_zero_of_unasked hmemo] at hmet
      exact absurd rfl (hmet r)
    · rw [resolveWithin_of_asked hmemo, resolveWithin_of_asked hmemo]
  | succ depth ih =>
    obtain ⟨d, rfl⟩ : ∃ d, depth' = d + 1 := ⟨depth' - 1, by omega⟩
    have hfold : BoundedBy (foldWithin store depth r) (foldWithin store d r) :=
      parametric_boundedBy.foldBy store (ih (Nat.le_of_succ_le_succ h)) (fun _ _ _ => rfl)
        fun _ _ _ => rfl
    intro ρ hmet
    rcases hmemo : ρ.memo.get? (r : ℤ) with _ | known
    · rw [resolveWithin_of_unasked hmemo] at hmet ⊢
      rw [resolveWithin_of_unasked hmemo]
      exact hfold hmet
    · rw [resolveWithin_of_asked hmemo, resolveWithin_of_asked hmemo]

end Resolver

end WhereClause
