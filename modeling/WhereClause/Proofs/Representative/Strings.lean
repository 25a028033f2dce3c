import Mathlib
import WhereClause.Proofs.Equality.Operations
import WhereClause.Proofs.Representative.Enduring

/-!
# How far the string type wins

Of two types the string type always wins, and what comes after it in a set makes no difference.  But
a set is folded from its first member on, and nothing looks ahead.  Before the string type is met,
the members in front of it are merged with one another, and if two of them have no common form the
fold is broken off there.  `Resolver.resolve_of_str` says that this is all that can go wrong.
-/

namespace WhereClause

open Resolving

namespace Resolver

variable {store : Store}

/-! ## Folds in full depth -/

/-- The fold of a set that is asked for first makes types concrete with all the room that a question
has: one level less would do, since the set itself is not asked for again. -/
lemma resolve_of_unasked {r : ℕ} {t : Ty} {ts : List Ty} {ρ : Resolver}
    (hmembers : store.members? (r : ℤ) = some (t :: ts)) (hnone : ρ.memo.get? (r : ℤ) = none) :
    resolve store r ρ =
      (do
        let w ← ts.foldlM (pair store) t
        modify (·.remember r (some w))
        return some w : Resolving (Option Ty)) (ρ.remember r none) := by
  have hlength : r < store.sets.length := (Store.members_of_members? hmembers).1
  obtain ⟨n, hn⟩ : ∃ n, store.sets.length = n + 1 := ⟨store.sets.length - 1, by omega⟩
  have hroom : unasked store (ρ.remember r none) ≤ n := by
    have hlt := unasked_remember_lt hlength hnone none
    have hle := unasked_le store ρ
    omega
  -- so the fold meets no bound, and a larger one makes no difference
  have hquestions (q : ℕ) : Endures store n (fun _ => True)
      (resolveWithin store store.sets.length q) := by
    rw [hn]
    exact endures_resolveWithin n q
  have hpairs := endures_mostConcrete (endures_concreteWithin hquestions)
  have hfold : Endures store n (fun _ => True)
      (ts.foldlM (Ty.mostConcrete (concreteWithin store store.sets.length)) t) :=
    (compositional_endures store n).foldlM (P := fun _ => True) (fun a b _ _ => hpairs a b)
      (fun _ _ => trivial) trivial
  have hmore : BoundedBy (ts.foldlM (Ty.mostConcrete (concreteWithin store store.sets.length)) t)
      (ts.foldlM (pair store) t) := by
    have hdeeper (q : ℕ) : BoundedBy (resolveWithin store store.sets.length q)
        (resolveWithin store (store.sets.length + 1) q) :=
      boundedBy_resolveWithin (Nat.le_succ _) q
    have hconcrete := parametric_boundedBy.concreteBy store hdeeper
    unfold pair
    rw [concrete_eq]
    exact parametric_boundedBy.foldlM (parametric_boundedBy.mostConcrete hconcrete) ts t
  have hsame := hmore (hfold hroom).2.1
  rw [resolve, resolveWithin_of_unasked hnone, foldWithin, foldBy, hmembers]
  dsimp only
  rcases hrun : ts.foldlM (Ty.mostConcrete (concreteWithin store store.sets.length)) t
    (ρ.remember r none) with ⟨fault | w, ρ₁⟩
  · rw [run_bind_of_error hrun, run_bind_of_error (hsame.trans hrun)]
  · rw [run_bind_of_ok hrun, run_bind_of_ok (hsame.trans hrun)]

/-! ## The string type in a fold -/

section

variable {r : ℕ} {ρ : Resolver} (hstr : store.setOf .str = some r)
  (hfold : ρ.memo.get? (r : ℤ) = some none)

include hstr hfold

/-- While its set is folded, the string type is its own most concrete form. -/
lemma concrete_str : concrete store .str ρ = (.ok .str, ρ) := by
  rw [concrete, concreteBy, hstr]
  exact run_bind_of_ok (resolveWithin_of_asked hfold _) _

lemma pair_str_left (t : Ty) : pair store .str t ρ = (.ok .str, ρ) := by
  rw [pair, Ty.mostConcrete.eq_def]
  split
  · exact concrete_str hstr hfold
  · cases t with
    | infer => exact concrete_str hstr hfold
    | _ => rfl

lemma pair_str_right (t : Ty) : pair store t .str ρ = (.ok .str, ρ) := by
  rw [pair, Ty.mostConcrete.eq_def]
  split
  · rename_i heq
    have hsame : Ty.same t .str = true := heq
    cases t with
    | str => exact concrete_str hstr hfold
    | _ => simp [Ty.same] at hsame
  · cases t with
    | infer => exact concrete_str hstr hfold
    | _ => rfl

/-- Once the string type is met, nothing displaces it. -/
lemma foldlM_pair_str (ts : List Ty) : ts.foldlM (pair store) .str ρ = (.ok .str, ρ) := by
  induction ts with
  | nil => rfl
  | cons t ts ih =>
    rw [List.foldlM_cons, run_bind_of_ok (pair_str_left hstr hfold t)]
    exact ih

end

/-- A fold over the string type comes to it if the fold of what stands before it comes to anything,
and fails as that fold does. -/
lemma foldlM_pair_append_str {r : ℕ} {ρ : Resolver} (hstr : store.setOf .str = some r)
    (hfold : ρ.memo.get? (r : ℤ) = some none) (t : Ty) (ts post : List Ty) :
    ((ts ++ .str :: post).foldlM (pair store) t ρ).1 =
      (ts.foldlM (pair store) t ρ).1.map fun _ => .str := by
  rw [List.foldlM_append]
  rcases hrun : ts.foldlM (pair store) t ρ with ⟨fault | w, ρ₁⟩
  · rw [run_bind_of_error hrun]
    rfl
  · have honward : Onward ρ ρ₁ := by
      unfold pair at hrun
      rw [concrete_eq] at hrun
      exact Keeps.foldlM (fun acc x => Ty.keeps_mostConcrete
        (keeps_concreteWithin (keeps_resolveWithin _)) acc x) ts t hrun
    have hfold₁ := honward.kept r none hfold
    rw [run_bind_of_ok hrun, List.foldlM_cons, run_bind_of_ok (pair_str_right hstr hfold₁ w),
      foldlM_pair_str hstr hfold₁ post]
    rfl

/-! ## The representative of a set with the string type -/

/-- A new resolver answers with the string type for a set that has it as a member, unless the fold
of the members before it fails, and then it fails in the same way.  If at most one member stands
before the string type there is nothing to fail. -/
theorem resolve_of_str {os : List Operation} {e : Evidence} {r : ℕ} {before after : List Ty}
    (hbuilt : (Evidence.empty .union).Leads os e)
    (hmembers : e.store.members r = before ++ .str :: after) :
    (before = [] → (resolve e.store r ∅).1 = .ok (some .str)) ∧
      ∀ t ts, before = t :: ts →
        (resolve e.store r ∅).1 =
          (ts.foldlM (pair e.store) t (remember ∅ r none)).1.map fun _ => some .str := by
  have hcoherent : e.store.Coherent := (hbuilt.evolves.sound Store.sound_empty).coherent
  have hstr : e.store.setOf .str = some r := hcoherent.setOf_of_mem (by simp [hmembers])
  have hnone : (∅ : Resolver).memo.get? (r : ℤ) = none := rfl
  have hfold := get?_remember_self ∅ (r : ℤ) none
  constructor
  · rintro rfl
    rw [resolve_of_unasked (Store.members?_of_members hmembers) hnone,
      run_bind_of_ok (foldlM_pair_str hstr hfold after)]
    rfl
  · rintro t ts rfl
    rw [List.cons_append] at hmembers
    rw [resolve_of_unasked (Store.members?_of_members hmembers) hnone]
    have happended := foldlM_pair_append_str hstr hfold t ts after
    rcases hall : (ts ++ .str :: after).foldlM (pair e.store) t (remember ∅ r none) with
      ⟨fault | w, ρ₁⟩ <;>
      rcases hrun : (ts.foldlM (pair e.store) t (remember ∅ r none)).1 with fault' | w' <;>
      rw [hall, hrun] at happended
    · rw [run_bind_of_error hall]
      exact congrArg _ (Except.error.inj happended)
    · cases happended
    · cases happended
    · obtain rfl : w = .str := Except.ok.inj happended
      rw [run_bind_of_ok hall]
      rfl

/-- `P`, `Q`, the string type and a tuple share a set, in this order. -/
def printingCalls : List Operation :=
  [.equate (.param ⟨0, "P"⟩) (.param ⟨1, "Q"⟩), .equate (.param ⟨1, "Q"⟩) .str,
    .equate .str (.tuple [.param ⟨0, "P"⟩])]

/-- The tuple, which is like no parameter, comes after the string type and does no harm. -/
theorem resolve_printed :
    let e := (Evidence.empty .union).performAll printingCalls
    (Evidence.empty .union).Leads printingCalls e ∧
      e.store.members 0 =
        [.param ⟨0, "P"⟩, .param ⟨1, "Q"⟩, .str, .tuple [.param ⟨0, "P"⟩]] ∧
      (resolve e.store (0 : ℕ) ∅).1 = .ok (some .str) := by
  intro e
  have hbuilt : (Evidence.empty .union).Leads printingCalls e :=
    .cons trivial (.cons trivial (.cons trivial (.nil _)))
  have hmembers : ((Evidence.empty .union).performAll printingCalls).store.members 0 =
      [.param ⟨0, "P"⟩, .param ⟨1, "Q"⟩] ++ .str :: [.tuple [.param ⟨0, "P"⟩]] := by cbv
  refine ⟨hbuilt, hmembers, ?_⟩
  rw [(resolve_of_str hbuilt hmembers).2 _ _ rfl]
  cbv

/-- The same with the tuple in front. -/
def misprintingCalls : List Operation :=
  [.equate (.tuple [.param ⟨0, "P"⟩]) (.param ⟨1, "Q"⟩), .equate (.param ⟨1, "Q"⟩) .str]

/-- The tuple and `Q` have no common form, and the string type behind them is never reached. -/
theorem resolve_misprinted :
    let e := (Evidence.empty .union).performAll misprintingCalls
    (Evidence.empty .union).Leads misprintingCalls e ∧
      e.store.members 0 = [.tuple [.param ⟨0, "P"⟩], .param ⟨1, "Q"⟩, .str] ∧
      (resolve e.store (0 : ℕ) ∅).1 =
        .error (.ofCause (.incompatible (.tuple [.param ⟨0, "P"⟩]) (.param ⟨1, "Q"⟩))) := by
  intro e
  have hbuilt : (Evidence.empty .union).Leads misprintingCalls e :=
    .cons trivial (.cons trivial (.nil _))
  have hmembers : ((Evidence.empty .union).performAll misprintingCalls).store.members 0 =
      [.tuple [.param ⟨0, "P"⟩], .param ⟨1, "Q"⟩, .str] := by cbv
  have hrun : (resolve ((Evidence.empty .union).performAll misprintingCalls).store (0 : ℕ) ∅).1 =
      .error (.ofCause (.incompatible (.tuple [.param ⟨0, "P"⟩]) (.param ⟨1, "Q"⟩))) := by cbv
  exact ⟨hbuilt, hmembers, hrun⟩

end Resolver

end WhereClause
