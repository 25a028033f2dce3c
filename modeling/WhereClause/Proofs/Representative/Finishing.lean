import Mathlib.Data.List.Count
import Mathlib.Data.List.Perm.Subperm
import WhereClause.Proofs.Equality.Bookkeeping
import WhereClause.Proofs.Representative.Settling

/-!
# Resolving comes to an end

Whatever is asked of a resolver, there is an answer or a failure that has a cause.  A set is folded
inside another only if it was not asked for before, so the sets that were not asked for bound the
depth of folds; and no set is expanded inside itself.  The bounds that the definitions carry are
never met, no set that is asked for is missing or empty, and a placeholder is only ever found for a
set that is being folded.

`Resolving.Finishes` says this of a computation, for the resolvers that have an invariant.  The
invariant is `Resolver.Busy`: it names the sets whose folds and expansions are under way.
-/

namespace WhereClause

/-- If a condition is stricter than another, and so for some item of a list, it holds of fewer. -/
lemma countP_lt_countP {α : Type} {p q : α → Bool} {xs : List α}
    (h : ∀ x ∈ xs, p x = true → q x = true) {x : α} (hx : x ∈ xs) (hq : q x = true)
    (hp : p x = false) : xs.countP p < xs.countP q := by
  have hboth : xs.countP p = (xs.filter q).countP p := by
    rw [List.countP_filter]
    refine List.countP_congr fun y hy => ?_
    rw [Bool.and_eq_true, and_iff_left_of_imp (h y hy)]
  rw [hboth, List.countP_eq_length_filter (p := q), List.countP_lt_length_iff]
  exact ⟨x, List.mem_filter.2 ⟨hx, hq⟩, hp⟩

namespace Resolving

variable {α β : Type}

/-- From a resolver with an invariant, the computation returns a value with a property and keeps the
invariant, or fails for a cause of some kind. -/
def Finishes (I : Resolver → Prop) (Q : α → Prop) (x : Resolving α) : Prop :=
  ∀ ⦃ρ⦄, I ρ → (∃ a ρ', x ρ = (.ok a, ρ') ∧ Q a ∧ I ρ') ∨
    ∃ c ρ', x ρ = (.error (.ofCause c), ρ') ∧ c.kind ≠ .general

lemma compositional_finishes (I : Resolver → Prop) :
    Compositional fun _ Q x => Finishes I Q x where
  pure ha := fun ρ hρ => .inl ⟨_, ρ, rfl, ha, hρ⟩
  bind hx hf := by
    intro ρ hρ
    rcases hx hρ with ⟨a, ρ₁, hrun, ha, hρ₁⟩ | ⟨c, ρ₁, hrun, hc⟩
    · rw [run_bind_of_ok hrun]
      exact hf a ha hρ₁
    · exact .inr ⟨c, ρ₁, run_bind_of_error hrun _, hc⟩
  failWith hc := fun ρ _ => .inr ⟨_, ρ, rfl, hc⟩

end Resolving

open Resolving

namespace Resolver

/-- A resolver while sets are folded and others expanded, which remembers types in which only
certain parameters are mentioned. -/
structure Busy (M : Param → Prop) (folding : List ℤ) (expanding : List ℕ) (ρ : Resolver) :
    Prop where
  placeholder : ∀ i, ρ.memo.get? i = some none → i ∈ folding
  mentions : ∀ i t, ρ.memo.get? i = some (some t) → ∀ p ∈ t.mentions, M p
  settling : ρ.settling = expanding

/-- How many sets were not asked for. -/
def unasked (store : Store) (ρ : Resolver) : ℕ :=
  (List.range store.sets.length).countP fun r : ℕ => (ρ.memo.get? (r : ℤ)).isNone

lemma unasked_le (store : Store) (ρ : Resolver) : unasked store ρ ≤ store.sets.length := by
  exact Nat.le_trans List.countP_le_length (Nat.le_of_eq List.length_range)

section

variable {M : Param → Prop} {folding : List ℤ} {expanding : List ℕ} {ρ : Resolver}

/-- At rest no set is being folded or expanded. -/
lemma AtRest.busy (h : ρ.AtRest)
    (hmentions : ∀ i t, ρ.memo.get? i = some (some t) → ∀ p ∈ t.mentions, M p) :
    Busy M [] [] ρ := ⟨fun i hi => absurd hi (h.complete i), hmentions, h.idle⟩

lemma Busy.atRest (h : Busy M [] [] ρ) : ρ.AtRest :=
  ⟨fun i hi => absurd (h.placeholder i hi) List.not_mem_nil, h.settling⟩

lemma Busy.push (h : Busy M folding expanding ρ) (r : ℕ) :
    Busy M folding (r :: expanding) (ρ.push r) :=
  ⟨h.placeholder, h.mentions, by rw [Resolver.push, h.settling]⟩

lemma Busy.pop {r : ℕ} (h : Busy M folding (r :: expanding) ρ) :
    Busy M folding expanding (ρ.pop r) :=
  ⟨h.placeholder, h.mentions, by rw [Resolver.pop, h.settling, List.erase_cons_head]⟩

/-- What is remembered, which is a placeholder only for a set that is being folded. -/
lemma Busy.answer (h : Busy M folding expanding ρ) {i : ℤ} {o : Option Ty}
    (ho : ρ.memo.get? i = some o) :
    (o = none → i ∈ folding) ∧ ∀ t, o = some t → ∀ p ∈ t.mentions, M p := by
  constructor
  · rintro rfl
    exact h.placeholder i ho
  · rintro t rfl
    exact h.mentions i t ho

/-- A fold begins. -/
lemma Busy.begin (h : Busy M folding expanding ρ) (i : ℤ) :
    Busy M (i :: folding) expanding (ρ.remember i none) where
  placeholder j hj := by
    rw [get?_remember] at hj
    split_ifs at hj with hij
    · exact List.mem_cons.2 (.inl (beq_iff_eq.1 hij).symm)
    · exact List.mem_cons_of_mem i (h.placeholder j hj)
  mentions j t ht := by
    rw [get?_remember] at ht
    split_ifs at ht
    · cases ht
    · exact h.mentions j t ht
  settling := h.settling

/-- A fold is done. -/
lemma Busy.done {i : ℤ} (h : Busy M (i :: folding) expanding ρ) {t : Ty}
    (ht : ∀ p ∈ t.mentions, M p) : Busy M folding expanding (ρ.remember i (some t)) where
  placeholder j hj := by
    rw [get?_remember] at hj
    split_ifs at hj with hij
    · cases hj
    · rcases List.mem_cons.1 (h.placeholder j hj) with rfl | hfolding
      · exact absurd BEq.rfl hij
      · exact hfolding
  mentions j u hu := by
    rw [get?_remember] at hu
    split_ifs at hu
    · obtain rfl : t = u := by simpa using hu
      exact ht
    · exact h.mentions j u hu
  settling := h.settling

variable {store : Store}

lemma unasked_remember_le (store : Store) (ρ : Resolver) (i : ℤ) (o : Option Ty) :
    unasked store (ρ.remember i o) ≤ unasked store ρ := by
  refine List.countP_mono_left fun r _ hr => ?_
  rw [get?_remember] at hr
  split_ifs at hr
  · cases hr
  · exact hr

/-- One set less was not asked for once its fold begins. -/
lemma unasked_remember_lt {r : ℕ} (hr : r < store.sets.length)
    (hnone : ρ.memo.get? (r : ℤ) = none) (o : Option Ty) :
    unasked store (ρ.remember r o) < unasked store ρ := by
  refine countP_lt_countP (fun q _ hq => ?_) (List.mem_range.2 hr) (by rw [hnone]; rfl)
    (by rw [get?_remember_self]; rfl)
  rw [get?_remember] at hq
  split_ifs at hq
  · cases hq
  · exact hq

end

/-! ## Folds -/

section

variable {M : Param → Prop} {store : Store} (hlisted : store.Listed)
  (hmembers : ∀ r, ∀ t ∈ store.members r, ∀ p ∈ t.mentions, M p)

/-- Questions at some depth finish if no more sets were not asked for. -/
def FinishesWithin (M : Param → Prop) (store : Store) (depth : ℕ) : Prop :=
  ∀ (folding : List ℤ) (expanding : List ℕ) {u : Ty} {r : ℕ}, store.setOf u = some r →
    Finishes (fun ρ => Busy M folding expanding ρ ∧ unasked store ρ ≤ depth)
      (fun o => (o = none → (r : ℤ) ∈ folding) ∧ ∀ t, o = some t → ∀ p ∈ t.mentions, M p)
      (resolveWithin store depth r)

/-- Making types concrete finishes if questions do. -/
lemma FinishesWithin.merging {depth : ℕ} (h : FinishesWithin M store depth) (folding : List ℤ)
    (expanding : List ℕ) :
    Merging
      (fun _ Q x => Finishes (fun ρ => Busy M folding expanding ρ ∧ unasked store ρ ≤ depth) Q x)
      M (concreteWithin store depth) :=
  { compositional_finishes _ with
    concrete := by
      intro t ht
      rw [concreteWithin, concreteBy]
      rcases hset : store.setOf t with _ | r
      · exact (compositional_finishes _).pure ht
      · refine (compositional_finishes _).bind (h folding expanding hset) fun o ho => ?_
        refine (compositional_finishes _).pure ?_
        rcases o with _ | w
        · exact ht
        · exact ho.2 w rfl }

include hlisted hmembers

/-- Each fold inside another is of a set that was not asked for before. -/
lemma finishesWithin (depth : ℕ) : FinishesWithin M store depth := by
  induction depth with
  | zero =>
    intro folding expanding u r hu ρ hρ
    rcases hmemo : ρ.memo.get? (r : ℤ) with _ | known
    · have hlt := unasked_remember_lt (hlisted.lt_length hu) hmemo none
      have hle := hρ.2
      omega
    · rw [resolveWithin_of_asked hmemo]
      exact .inl ⟨known, ρ, rfl, hρ.1.answer hmemo, hρ⟩
  | succ depth ih =>
    intro folding expanding u r hu ρ hρ
    rcases hmemo : ρ.memo.get? (r : ℤ) with _ | known
    · obtain ⟨t, ts, hset, hlist⟩ := hlisted.exists_members? hu
      have hlt := unasked_remember_lt (hlisted.lt_length hu) hmemo none
      have hstart : Busy M ((r : ℤ) :: folding) expanding (ρ.remember r none) ∧
          unasked store (ρ.remember r none) ≤ depth := ⟨hρ.1.begin r, by have := hρ.2; omega⟩
      have hmentions := hmembers r
      rw [hlist, List.forall_mem_cons] at hmentions
      have hmerging := ih.merging ((r : ℤ) :: folding) expanding
      have hfold := hmerging.foldlM (f := Ty.mostConcrete (concreteWithin store depth))
        (fun a b ha hb => hmerging.mostConcrete a b ha hb) hmentions.2 hmentions.1
      rw [resolveWithin_of_unasked hmemo, foldWithin, foldBy, hset]
      rcases hfold hstart with ⟨w, ρ₁, hrun, hw, hbusy, hunasked⟩ | ⟨c, ρ₁, hrun, hc⟩
      · refine .inl ⟨some w, ρ₁.remember r (some w), run_bind_of_ok hrun _,
          ⟨fun h => absurd h (Option.some_ne_none w), ?_⟩, hbusy.done hw, ?_⟩
        · rintro w' hw'
          obtain rfl := Option.some.inj hw'
          exact hw
        · have hle := unasked_remember_le store ρ₁ r (some w)
          omega
      · exact .inr ⟨c, ρ₁, run_bind_of_error hrun _, hc⟩
    · rw [resolveWithin_of_asked hmemo]
      exact .inl ⟨known, ρ, rfl, hρ.1.answer hmemo, hρ⟩

lemma finishes_resolve {expanding : List ℕ} {u : Ty} {r : ℕ} (hu : store.setOf u = some r) :
    Finishes (Busy M [] expanding) (fun o => ∃ t, o = some t ∧ ∀ p ∈ t.mentions, M p)
      (resolve store r) := by
  intro ρ hρ
  have hroom : unasked store ρ ≤ store.sets.length + 1 := Nat.le_succ_of_le (unasked_le store ρ)
  rcases finishesWithin hlisted hmembers _ [] expanding hu ⟨hρ, hroom⟩ with
    ⟨o, ρ', hrun, ⟨hsome, hmentions⟩, hρ'⟩ | hfails
  · rcases o with _ | t
    · exact absurd (hsome rfl) List.not_mem_nil
    · exact .inl ⟨some t, ρ', hrun, ⟨t, rfl, hmentions t rfl⟩, hρ'.1⟩
  · exact .inr hfails

end

/-! ## Expansions -/

section

variable {store : Store} (hlisted : store.Listed)

include hlisted

lemma finishes_concrete (expanding : List ℕ) (t : Ty) :
    Finishes (Busy (fun _ => True) [] expanding) (fun _ => True) (concrete store t) := by
  rw [concrete, concreteBy]
  rcases ht : store.setOf t with _ | r
  · exact (compositional_finishes _).pure trivial
  · exact (compositional_finishes _).bind
      (finishes_resolve hlisted (fun _ _ _ _ _ => trivial) ht) fun _ _ =>
        (compositional_finishes _).pure trivial

/-- The sets that are not being expanded bound how deep expansions go. -/
lemma finishes_expandWithin {depth : ℕ} {expanding : List ℕ} (hnodup : expanding.Nodup)
    (hlt : ∀ r ∈ expanding, r < store.sets.length)
    (hroom : depth + expanding.length = store.sets.length) {r : ℕ} {t : Ty}
    (ht : store.setOf t = some r) :
    Finishes (Busy (fun _ => True) [] expanding) (fun _ => True)
      (expandWithin store depth r t) := by
  induction depth generalizing expanding r t with
  | zero =>
    intro ρ hρ
    -- there are as many sets under way as there are sets, so this is one of them
    have hr : r ∈ ρ.settling := by
      rw [hρ.settling]
      by_contra hr
      have hsub : r :: expanding ⊆ List.range store.sets.length := by
        intro q hq
        rcases List.mem_cons.1 hq with rfl | hq
        · exact List.mem_range.2 (hlisted.lt_length ht)
        · exact List.mem_range.2 (hlt q hq)
      have hle := ((List.nodup_cons.2 ⟨hr, hnodup⟩).subperm hsub).length_le
      simp only [List.length_cons, List.length_range] at hle
      omega
    rw [expandWithin_of_mem hr]
    exact .inl ⟨t, ρ, rfl, trivial, hρ⟩
  | succ depth ih =>
    intro ρ hρ
    by_cases hr : r ∈ ρ.settling
    · rw [expandWithin_of_mem hr]
      exact .inl ⟨t, ρ, rfl, trivial, hρ⟩
    · rw [expandWithin_of_not_mem hr]
      rw [hρ.settling] at hr
      have hsettling : Settling
          (fun _ Q x => Finishes (Busy (fun _ => True) [] (r :: expanding)) Q x) store.setOf
          (expandWithin store depth) :=
        { compositional_finishes _ with
          expand := fun q u hu => ih (List.nodup_cons.2 ⟨hr, hnodup⟩)
            (List.forall_mem_cons.2 ⟨hlisted.lt_length ht, hlt⟩)
            (by rw [List.length_cons]; omega) hu }
      have hinside := hsettling.bind (finishes_concrete hlisted (r :: expanding) t) fun w _ =>
        hsettling.settleParts w
      rcases hinside (hρ.push r) with ⟨u, ρ', hrun, -, hρ'⟩ | ⟨c, ρ', hrun, hc⟩
      · exact .inl ⟨u, ρ'.pop r, by rw [run_whileSettling, hrun], trivial, hρ'.pop⟩
      · exact .inr ⟨c, ρ'.pop r, by rw [run_whileSettling, hrun], hc⟩

lemma settling_expand :
    Settling (fun _ Q x => Finishes (Busy (fun _ => True) [] []) Q x) store.setOf (expand store) :=
  { compositional_finishes _ with
    expand := fun _ _ ht => finishes_expandWithin hlisted .nil nofun (Nat.add_zero _) ht }

lemma finishes_settle (t : Ty) :
    Finishes (Busy (fun _ => True) [] []) (fun _ => True) (settle store t) :=
  (settling_expand hlisted).settlePart ((settling_expand hlisted).settleParts t)

lemma finishes_settleBound (b : Bound) :
    Finishes (Busy (fun _ => True) [] []) (fun _ => True) (settleBound store b) :=
  (settling_expand hlisted).settleBound b

end

end Resolver

end WhereClause
