import Mathlib
import WhereClause.Malformed
import WhereClause.Proofs.Relevance.Consulting
import WhereClause.Proofs.Representative.Enduring

/-!
# Representatives without a memo

Without a memo, the representative of a set is computed afresh wherever it is asked for, and only
the types of the very set that is being folded are left as they are (`Store.afreshWithin`).  Where
sets depend on one another in a circle this never ends.  Where it ends for each set, the memo makes
no difference (`Resolver.resolve_eq_afresh`).

A placeholder of another set in the memo could make one.  It is never met: a fold asks only for sets
that take fewer folds inside one another than its own does, while the folds under way take more than
the one that they wait for (`Resolver.Ahead`).
-/

namespace WhereClause

open Resolving Resolver

namespace Store

variable {store : Store}

/-! ## Folding afresh -/

/-- The most concrete form of a type in the fold of a set, by what other sets come to. -/
def afreshBy (store : Store) (answer : ℕ → Except Fault Ty) (folding : ℕ) (t : Ty) :
    Except Fault Ty :=
  match store.setOf t with
  | none => return t
  | some q => if q = folding then return t else answer q

/-- What the members of a set are folded to, by what other sets come to. -/
def foldAfresh (store : Store) (answer : ℕ → Except Fault Ty) (r : ℕ) : Except Fault Ty :=
  match store.members r with
  | [] => throw (.emptySet r)
  | t :: ts => ts.foldlM (Ty.mostConcrete (store.afreshBy answer r)) t

/-- What the members of a set are folded to, with at most so many folds inside one another. -/
def afreshWithin (store : Store) : ℕ → ℕ → Except Fault Ty
  | 0, r => throw (.unresolved r)
  | depth + 1, r => store.foldAfresh (store.afreshWithin depth) r

/-- Without a memo, the fold of the set comes to an end, with this type. -/
def Afresh (store : Store) (r : ℕ) (t : Ty) : Prop := ∃ depth, store.afreshWithin depth r = .ok t

/-- Where the first computation returns, the second returns the same. -/
def Extends {α : Type} (x y : Except Fault α) : Prop := ∀ a, x = .ok a → y = .ok a

lemma parametric_extends :
    Parametric (m := Except Fault) (n := Except Fault) fun _ x y => Extends x y where
  pure a := fun _ h => h
  bind {α β x y f g} hxy hfg := by
    intro b hb
    rcases x with fault | a
    · cases hb
    · rw [hxy a rfl]
      exact hfg a b hb
  failWith c := fun _ h => h

lemma extends_foldAfresh {answer answer' : ℕ → Except Fault Ty}
    (h : ∀ q, Extends (answer q) (answer' q)) (r : ℕ) :
    Extends (store.foldAfresh answer r) (store.foldAfresh answer' r) := by
  have hconcrete (t : Ty) : Extends (store.afreshBy answer r t) (store.afreshBy answer' r t) := by
    rw [afreshBy, afreshBy]
    rcases store.setOf t with _ | q
    · exact parametric_extends.pure t
    · dsimp only
      split_ifs
      · exact parametric_extends.pure t
      · exact h q
  rw [foldAfresh, foldAfresh]
  rcases store.members r with _ | ⟨t, ts⟩
  · exact nofun
  · exact parametric_extends.foldlM (parametric_extends.mostConcrete hconcrete) ts t

/-- More folds inside one another make no difference to where a fold ended. -/
lemma afreshWithin_mono {depth depth' : ℕ} (h : depth ≤ depth') (r : ℕ) :
    Extends (store.afreshWithin depth r) (store.afreshWithin depth' r) := by
  induction depth generalizing depth' r with
  | zero => exact nofun
  | succ depth ih =>
    obtain ⟨d, rfl⟩ : ∃ d, depth' = d + 1 := ⟨depth' - 1, by omega⟩
    exact extends_foldAfresh (fun q => ih (Nat.le_of_succ_le_succ h) q) r

lemma Afresh.eq {r : ℕ} {t u : Ty} (ht : store.Afresh r t) (hu : store.Afresh r u) : t = u := by
  obtain ⟨d, hd⟩ := ht
  obtain ⟨d', hd'⟩ := hu
  have hmax := afreshWithin_mono (Nat.le_max_left d d') r t hd
  have hmax' := afreshWithin_mono (Nat.le_max_right d d') r u hd'
  exact Except.ok.inj (hmax.symm.trans hmax')

/-- The least number of folds inside one another with which the fold ends. -/
lemma Afresh.exists_least {r : ℕ} {t : Ty} {depth : ℕ} (h : store.afreshWithin depth r = .ok t) :
    ∃ d < depth, store.afreshWithin (d + 1) r = .ok t ∧ ∀ u, store.afreshWithin d r ≠ .ok u := by
  induction depth with
  | zero => cases h
  | succ depth ih =>
    by_cases hless : store.afreshWithin depth r = .ok t
    · obtain ⟨d, hd, hleast⟩ := ih hless
      exact ⟨d, Nat.lt_succ_of_lt hd, hleast⟩
    · refine ⟨depth, Nat.lt_succ_self depth, h, fun u hu => ?_⟩
      obtain rfl := Afresh.eq ⟨depth, hu⟩ ⟨depth + 1, h⟩
      exact hless hu

end Store

namespace Resolving

/-- Where the plain computation returns, so does the other, from any resolver with an invariant and
with the same value, unless it meets a bound. -/
def Simulates (J : Resolver → Prop) {α : Type} (x : Except Fault α) (y : Resolving α) : Prop :=
  ∀ a, x = .ok a → ∀ ⦃ρ⦄, J ρ →
    (∃ ρ', y ρ = (.ok a, ρ') ∧ J ρ') ∨ ∃ r ρ', y ρ = (.error (.unresolved r), ρ')

lemma parametric_simulates (J : Resolver → Prop) :
    Parametric (m := Except Fault) (n := Resolving) fun _ x y => Simulates J x y where
  pure a := by
    intro b hb ρ hρ
    obtain rfl := Except.ok.inj hb
    exact .inl ⟨ρ, rfl, hρ⟩
  bind {α β x y f g} hxy hfg := by
    intro b hb ρ hρ
    rcases x with fault | a
    · cases hb
    · rcases hxy a rfl hρ with ⟨ρ₁, hrun, hρ₁⟩ | ⟨r, ρ₁, hrun⟩
      · rw [run_bind_of_ok hrun]
        exact hfg a b hb hρ₁
      · exact .inr ⟨r, ρ₁, run_bind_of_error hrun g⟩
  failWith c := nofun

end Resolving

namespace Resolver

variable {store : Store}

/-! ## What is remembered, and what is under way -/

/-- What is remembered of sets they come to without a memo, and the folds under way take more folds
inside one another than so many. -/
structure Ahead (store : Store) (depth : ℕ) (ρ : Resolver) : Prop where
  known : ∀ (r : ℕ) t, ρ.memo.get? (r : ℤ) = some (some t) → store.Afresh r t
  pending : ∀ r : ℕ, ρ.memo.get? (r : ℤ) = some none → ∀ t, store.afreshWithin depth r ≠ .ok t

lemma Ahead.mono {depth depth' : ℕ} {ρ : Resolver} (h : Ahead store depth' ρ)
    (hle : depth ≤ depth') : Ahead store depth ρ :=
  ⟨h.known, fun r hr t ht => h.pending r hr t (Store.afreshWithin_mono hle r t ht)⟩

/-- A fold begins that is to end with fewer folds inside one another than those under way. -/
lemma Ahead.begin {depth : ℕ} {ρ : Resolver} (h : Ahead store depth ρ) {r : ℕ}
    (hr : ∀ t, store.afreshWithin depth r ≠ .ok t) : Ahead store depth (ρ.remember r none) where
  known q t ht := by
    rw [get?_remember] at ht
    split_ifs at ht
    · cases ht
    · exact h.known q t ht
  pending q hq := by
    by_cases heq : r = q
    · exact heq ▸ hr
    · rw [get?_remember_of_ne (by omega)] at hq
      exact h.pending q hq

lemma Ahead.done {depth : ℕ} {ρ : Resolver} {r : ℕ} {w : Ty}
    (h : ∀ (q : ℕ) t, ρ.memo.get? (q : ℤ) = some (some t) → store.Afresh q t)
    (hw : store.Afresh r w)
    (hpending : ∀ q : ℕ, r ≠ q → ρ.memo.get? (q : ℤ) = some none →
      ∀ t, store.afreshWithin depth q ≠ .ok t) :
    Ahead store depth (ρ.remember r (some w)) where
  known q t ht := by
    by_cases heq : r = q
    · subst heq
      rw [get?_remember_self] at ht
      obtain rfl : w = t := by simpa using ht
      exact hw
    · rw [get?_remember_of_ne (by omega)] at ht
      exact h q t ht
  pending q hq := by
    by_cases heq : r = q
    · subst heq
      rw [get?_remember_self] at hq
      cases hq
    · rw [get?_remember_of_ne (by omega)] at hq
      exact hpending q heq hq

/-- What is not of the set that is being folded is asked for where fewer folds are left. -/
lemma simulates_concreteWithin {n depth r : ℕ}
    (h : ∀ {q w}, store.afreshWithin depth q = .ok w →
      Simulates (Ahead store depth) (.ok (some w)) (resolveWithin store n q)) (t : Ty) :
    Simulates (fun ρ => Ahead store depth ρ ∧ ρ.memo.get? (r : ℤ) = some none)
      (store.afreshBy (store.afreshWithin depth) r t) (concreteWithin store n t) := by
  rw [Store.afreshBy, concreteWithin, concreteBy]
  rcases store.setOf t with _ | q
  · exact (parametric_simulates _).pure t
  · dsimp only
    split_ifs with hq
    · subst hq
      rintro _ ⟨⟩ ρ ⟨hahead, hfolding⟩
      rw [run_bind_of_ok (resolveWithin_of_asked hfolding n)]
      exact .inl ⟨ρ, rfl, hahead, hfolding⟩
    · rintro w hw ρ ⟨hahead, hfolding⟩
      rcases h hw _ rfl hahead with ⟨ρ', hrun, hahead'⟩ | ⟨q', ρ', hrun⟩
      · rw [run_bind_of_ok hrun]
        exact .inl ⟨ρ', rfl, hahead', (keeps_resolveWithin n _ hrun).kept _ _ hfolding⟩
      · exact .inr ⟨q', ρ', run_bind_of_error hrun _⟩

/-- A question about a set whose fold ends without a memo has the same answer with one. -/
lemma simulates_resolveWithin (n : ℕ) {depth r : ℕ} {t : Ty}
    (h : store.afreshWithin depth r = .ok t) :
    Simulates (Ahead store depth) (.ok (some t)) (resolveWithin store n r) := by
  induction depth using Nat.strongRecOn generalizing n r t with
  | ind depth ih =>
    rintro _ ⟨⟩ ρ hρ
    rcases hmemo : ρ.memo.get? (r : ℤ) with _ | known
    · rcases n with _ | n
      · exact .inr ⟨_, _, resolveWithin_zero_of_unasked hmemo⟩
      · obtain ⟨d, hd, hfold, hleast⟩ := Store.Afresh.exists_least h
        have hstart := (hρ.mono (Nat.le_of_lt hd)).begin hleast
        rw [resolveWithin_of_unasked hmemo, foldWithin, foldBy]
        rw [Store.afreshWithin, Store.foldAfresh] at hfold
        rcases hmembers : store.members r with _ | ⟨u, us⟩
        · rw [hmembers] at hfold
          cases hfold
        · rw [hmembers] at hfold
          rw [Store.members?_of_members hmembers]
          have hsimulates := parametric_simulates
            fun ρ => Ahead store d ρ ∧ ρ.memo.get? (r : ℤ) = some none
          have hconcrete := simulates_concreteWithin (r := r) fun hq => ih d hd n hq
          dsimp only
          rcases hsimulates.foldlM (hsimulates.mostConcrete hconcrete) us u t hfold
            ⟨hstart, get?_remember_self ρ r none⟩ with ⟨ρ₁, hrun, hahead, -⟩ | ⟨q, ρ₁, hrun⟩
          · rw [run_bind_of_ok hrun]
            refine .inl ⟨_, rfl, .done hahead.known ⟨depth, h⟩ fun q hq hpending => ?_⟩
            have honward : Onward (ρ.remember r none) ρ₁ :=
              Keeps.foldlM (fun acc x => Ty.keeps_mostConcrete
                (keeps_concreteWithin (keeps_resolveWithin n)) acc x) us u hrun
            have hbefore := honward.fresh q hpending
            rw [get?_remember_of_ne (by omega)] at hbefore
            exact hρ.pending q hbefore
          · exact .inr ⟨q, ρ₁, run_bind_of_error hrun _⟩
    · rw [resolveWithin_of_asked hmemo]
      rcases known with _ | u
      · exact absurd h (hρ.pending r hmemo t)
      · obtain rfl := (hρ.known r u hmemo).eq ⟨depth, h⟩
        exact .inl ⟨ρ, rfl, hρ⟩

/-! ## Whatever was asked before -/

/-- A resolver on a store that answered whatever it was asked. -/
inductive Questioned (store : Store) : Resolver → Prop
  | fresh : Questioned store ∅
  | asked {ρ ρ' : Resolver} (q : Query) :
      Questioned store ρ → q.ask store ρ = (.ok (), ρ') → Questioned store ρ'

section

variable (hends : ∀ r, store.members r ≠ [] → ∃ t, store.Afresh r t)

include hends

/-- An answer about a set, by its own position, is what the set comes to without a memo. -/
lemma upholds_resolveWithin (n r : ℕ) :
    Keeps (Upholds fun ρ => ∀ depth, Ahead store depth ρ) (resolveWithin store n r) := by
  intro ρ o ρ' hrun hρ
  have honward := keeps_resolveWithin n r hrun
  rcases resolveWithin_returns hrun with ⟨-, rfl⟩ | ⟨d, t, ts, w, ρ₁, -, -, hmembers, -, -, -⟩
  · exact hρ
  · have hnonempty : store.members r ≠ [] := by
      rw [(Store.members_of_members? hmembers).2]
      exact List.cons_ne_nil t ts
    obtain ⟨u, depth, hu⟩ := hends r hnonempty
    rcases simulates_resolveWithin n hu _ rfl (hρ depth) with ⟨ρ₂, hsame, hahead⟩ | ⟨_, _, hfails⟩
    · obtain ⟨-, rfl⟩ := Prod.mk.inj (hrun.symm.trans hsame)
      intro depth'
      exact ⟨hahead.known, fun q hq => (hρ depth').pending q (honward.fresh q hq)⟩
    · cases congrArg Prod.fst (hrun.symm.trans hfails)

/-- Sets that are asked for by positions counted from the end do no harm. -/
lemma steady_ahead : Steady store (Upholds fun ρ => ∀ depth, Ahead store depth ρ) where
  resolveWithin := by
    apply keeps_of_folds
    intro n ih position ρ t ts w ρ₁ hnone hmembers hfold hρ
    rcases position with r | k
    · have hrun := resolveWithin_of_fold hnone hmembers hfold
      exact upholds_resolveWithin hends (n + 1) r hrun hρ
    · -- what is remembered by a position from the end is nowhere else
      have hother (ρ : Resolver) (o : Option Ty) (r : ℕ) :
          (ρ.remember (.negSucc k) o).memo.get? (r : ℤ) = ρ.memo.get? (r : ℤ) :=
        get?_remember_of_ne (by omega) ρ o
      have hremember {ρ : Resolver} (o : Option Ty) (h : ∀ depth, Ahead store depth ρ) :
          ∀ depth, Ahead store depth (ρ.remember (.negSucc k) o) := by
        intro depth
        refine ⟨fun r t ht => (h depth).known r t ?_, fun r hr => (h depth).pending r ?_⟩
        · rwa [hother] at ht
        · rwa [hother] at hr
      apply hremember
      exact Keeps.foldlM (fun acc x => Ty.keeps_mostConcrete (keeps_concreteWithin ih) acc x)
        ts t hfold (hremember none hρ)
  pop h hρ := fun depth =>
    let hafter := h (fun d => ⟨(hρ d).known, (hρ d).pending⟩) depth
    ⟨hafter.known, hafter.pending⟩

lemma Questioned.ahead {ρ : Resolver} (h : Questioned store ρ) (depth : ℕ) :
    Ahead store depth ρ := by
  induction h generalizing depth with
  | fresh => exact ⟨nofun, nofun⟩
  | asked q _ hask ih => exact (steady_ahead hends).ask q hask ih depth

/-- If folds come to an end without a memo, on any store and for every set with members, then a
resolver answers with what they come to, whatever it answered before. -/
theorem resolve_eq_afresh {ρ : Resolver} (h : Questioned store ρ) {r : ℕ}
    (hr : store.members r ≠ []) :
    ∃ t ρ', (∀ u, store.Afresh r u ↔ u = t) ∧ resolve store r ρ = (.ok (some t), ρ') := by
  obtain ⟨t, depth, ht⟩ := hends r hr
  have hunique : ∀ u, store.Afresh r u ↔ u = t := by
    intro u
    constructor
    · exact fun hu => hu.eq ⟨depth, ht⟩
    · rintro rfl
      exact ⟨depth, ht⟩
  rcases simulates_resolveWithin (store.sets.length + 1) ht _ rfl (h.ahead hends depth) with
    ⟨ρ', hrun, -⟩ | ⟨q, ρ', hrun⟩
  · exact ⟨t, ρ', hunique, hrun⟩
  · obtain ⟨-, hunmet, -⟩ :=
      endures_resolveWithin store.sets.length r (unasked_le store ρ)
    exact absurd (congrArg Prod.fst hrun) (hunmet q)

end

/-- Calls after which the fold of the first set asks for both others: the `P` of `Vec<P>` is a
`Foo`, and a `Vec<Foo>`, which the set does not list, is an `Alias`. -/
def aliasingCalls : List Operation :=
  let vec (t : Ty) : Ty := .path (.ofName "Vec" [.type t])
  [.equate (.param ⟨1, "X"⟩) (vec (.param ⟨0, "P"⟩)), .equate (.param ⟨1, "X"⟩) (vec .infer),
    .equate (.param ⟨1, "X"⟩) (.param ⟨2, "Z"⟩),
    .equate (.param ⟨0, "P"⟩) (.path (.ofName "Foo" [])),
    .equate (.param ⟨3, "Y"⟩) (vec (.path (.ofName "Foo" []))),
    .equate (.param ⟨3, "Y"⟩) (.path (.ofName "Alias" []))]

def aliasingStore : Store := ((Evidence.empty .union).performAll aliasingCalls).store

/-- A resolver that settled `&Y`, and one that then made `P` concrete as well. -/
def afterSettling : Resolver :=
  ((Query.settle (.ref .shared (.param ⟨3, "Y"⟩) none)).ask aliasingStore ∅).2

def afterBoth : Resolver := ((Query.concrete (.param ⟨0, "P"⟩)).ask aliasingStore afterSettling).2

theorem resolve_eq_afresh_aliasing :
    let short : Ty := .path (.ofName "Alias" [])
    (∀ r, aliasingStore.members r ≠ [] → ∃ t, aliasingStore.Afresh r t) ∧
      Questioned aliasingStore afterBoth ∧ aliasingStore.members 0 ≠ [] ∧
      aliasingStore.Afresh 0 short ∧
      ∃ ρ', resolve aliasingStore (0 : ℕ) afterBoth = (.ok (some short), ρ') := by
  intro short
  have halias : aliasingStore.Afresh 0 short := ⟨2, by cbv⟩
  have hends : ∀ r, aliasingStore.members r ≠ [] → ∃ t, aliasingStore.Afresh r t := by
    intro r hr
    rcases r with _ | _ | _ | r
    · exact ⟨short, halias⟩
    · exact ⟨.path (.ofName "Foo" []), 2, by cbv⟩
    · exact ⟨short, 2, by cbv⟩
    · have hlength : aliasingStore.sets.length = 3 := by cbv
      exact absurd (Store.members_of_length_le (by omega)) hr
  have hsettle : ((Query.settle (.ref .shared (.param ⟨3, "Y"⟩) none)).ask aliasingStore ∅).1 =
      .ok () := by cbv
  have hconcrete : ((Query.concrete (.param ⟨0, "P"⟩)).ask aliasingStore afterSettling).1 =
      .ok () := by cbv
  have hasked : Questioned aliasingStore afterBoth :=
    .asked _ (.asked _ .fresh (Prod.ext hsettle rfl)) (Prod.ext hconcrete rfl)
  have hr : aliasingStore.members 0 ≠ [] := by
    cbv
    exact List.cons_ne_nil _ _
  obtain ⟨t, ρ', hunique, hrun⟩ := resolve_eq_afresh hends hasked hr
  obtain rfl := (hunique short).1 halias
  exact ⟨hends, hasked, hr, halias, ρ', hrun⟩

end Resolver

end WhereClause
