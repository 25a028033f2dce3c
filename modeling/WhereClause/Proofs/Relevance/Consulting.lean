import Mathlib.Logic.Relation
import WhereClause.Proofs.Relevance.Filtering
import WhereClause.Proofs.Representative.Settling
import WhereClause.Representative.Closure

/-!
# Resolvers in use

What a resolver can be asked, and what a history of questions that were all answered leaves behind:
a memo that is faithful to the store, with nothing half done.  Closures are part of the history.
They may give parameters sets of their own, which adds to the store and changes no set that there
was, so what is remembered stays true.

Whatever happens in such a history is a sequence of `Resolver.Move`s: a question is answered, or a
type is given a set.  What a single move keeps, a history keeps.
-/

namespace WhereClause

open Relation (ReflTransGen)
open Resolving Resolver

/-! ## Filtering as a question -/

lemma Relevance.kind_of_isRelevantBound {v : Relevance} {store : Store} {b : Bound} {fault : Fault}
    (h : v.isRelevantBound store b = .error fault) :
    ∃ c : Cause, fault = .ofCause c ∧ c.kind ≠ .general := by
  cases b with
  | outlives l => cases h
  | trait p binder =>
    obtain ⟨isGlobal, init, ⟨name, as⟩⟩ := p
    cases as with
    | paren inputs output => exact ⟨_, (Except.error.inj h).symm, nofun⟩
    | none | angle _ => cases h

namespace Resolving

/-- What is known of settling types and bounds goes through sequences. -/
structure Filtering (S : (α : Type) → (α → Prop) → Resolving α → Prop) (store : Store) :
    Prop extends Compositional S where
  settle : ∀ t, S Ty (fun _ => True) (settle store t)
  settleBound : ∀ b, S Bound (fun _ => True) (settleBound store b)

namespace Filtering

variable {S : (α : Type) → (α → Prop) → Resolving α → Prop} {store : Store}
  (h : Filtering S store) (v : Relevance)

include h

lemma keepBounds (bs : List Bound) : S _ (fun _ => True) (v.keepBounds store bs) := by
  induction bs with
  | nil => exact h.pure trivial
  | cons b bs ih =>
    rw [Relevance.keepBounds]
    refine h.bind (h.settleBound b) fun b' _ => ?_
    rcases hrelevant : v.isRelevantBound store b' with fault | _ | _
    · obtain ⟨c, rfl, hc⟩ := Relevance.kind_of_isRelevantBound hrelevant
      exact h.failWith hc
    · exact h.pure trivial
    · exact h.bind ih fun _ _ => h.pure trivial

lemma keep (c : Constraint) : S _ (fun _ => True) (v.keep store c) := by
  cases c with
  | lifetime l ls => exact h.pure trivial
  | type t bs binder =>
    rw [Relevance.keep]
    refine h.bind (h.settle t) fun t' _ => ?_
    split_ifs
    · exact h.bind (h.keepBounds v bs) fun _ _ => h.pure trivial
    · exact h.pure trivial

/-- What holds of settling types and bounds holds of a filter. -/
lemma filter (cs : List Constraint) : S _ (fun _ => True) (v.filter store cs) :=
  h.foldlM (P := fun _ => True) (fun _ c _ _ => h.bind (h.keep v c) fun _ _ => h.pure trivial)
    (fun _ _ => trivial) trivial

end Filtering

end Resolving

section

variable {store : Store} {R : Resolver → Resolver → Prop} [Std.Refl R] [Trans R R R]

lemma Resolver.Steady.filtering (h : Steady store R) :
    Filtering (fun _ Q x => Returns R Q x) store :=
  { compositional_returns R with
    settle := fun t => (h.settle t).returns
    settleBound := fun b => (h.settleBound b).returns }

end

namespace Relevance

variable {store : Store}

lemma keeps_keep (hcoherent : store.Coherent) (v : Relevance) (c : Constraint) :
    Keeps (Later store) (v.keep store c) := ((steady_later hcoherent).filtering.keep v c).keeps

lemma keeps_filter (hcoherent : store.Coherent) (v : Relevance) (cs : List Constraint) :
    Keeps (Later store) (v.filter store cs) :=
  ((steady_later hcoherent).filtering.filter v cs).keeps

end Relevance

/-! ## Questions and their history -/

/-- What can be asked of a resolver. -/
inductive Query where
  | resolve (position : Int)
  | concrete (t : Ty)
  | pair (a b : Ty)
  | settle (t : Ty)
  | settlePath (p : Path)
  | settleBound (b : Bound)
  | filter (v : Relevance) (cs : List Constraint)

/-- Asks a question and drops the answer. -/
def Query.ask (store : Store) : Query → Resolving Unit
  | .resolve position => do let _ ← Resolver.resolve store position
  | .concrete t => do let _ ← Resolver.concrete store t
  | .pair a b => do let _ ← Resolver.pair store a b
  | .settle t => do let _ ← Resolver.settle store t
  | .settlePath p => do let _ ← Resolver.settlePath store p
  | .settleBound b => do let _ ← Resolver.settleBound store b
  | .filter v cs => do let _ ← v.filter store cs

/-- A resolver that was made on a store and answered whatever it was asked, with the store as
closures left it. -/
inductive Consulted (start : Store) : Store → Resolver → Prop
  | fresh : Consulted start start ∅
  | asked {store : Store} {ρ ρ' : Resolver} (q : Query) :
      Consulted start store ρ → q.ask store ρ = (.ok (), ρ') → Consulted start store ρ'
  | closed {store : Store} {ρ : Resolver} {params : List Param} {search : Search}
      {refs : List ℕ} :
      Consulted start store ρ → closure store ρ params = (search, .ok refs) →
      Consulted start search.store search.resolver

lemma Resolver.Steady.ask {store : Store} {R : Resolver → Resolver → Prop} [Std.Refl R]
    [Trans R R R] (h : Steady store R) (q : Query) : Keeps R (q.ask store) := by
  cases q with
  | resolve position => exact (h.resolveWithin _ position).bind fun _ => .pure _
  | concrete t => exact (h.concrete t).bind fun _ => .pure _
  | pair a b => exact (h.pair a b).bind fun _ => .pure _
  | settle t => exact (h.settle t).bind fun _ => .pure _
  | settlePath p => exact (h.settlePath p).bind fun _ => .pure _
  | settleBound b => exact (h.settleBound b).bind fun _ => .pure _
  | filter v cs => exact (h.filtering.filter v cs).keeps.bind fun _ => .pure _

/-! ## Moves -/

namespace Resolver

/-- The least that happens to a store and a resolver on it: a question is answered, or a type is
given a set if it has none. -/
inductive Move : Store × Resolver → Store × Resolver → Prop
  | answer {store : Store} {ρ ρ' : Resolver} (q : Query) :
      q.ask store ρ = (.ok (), ρ') → Move (store, ρ) (store, ρ')
  | ensure (store : Store) (ρ : Resolver) (t : Ty) : Move (store, ρ) ((store.ensure t).1, ρ)

abbrev Moves : Store × Resolver → Store × Resolver → Prop := ReflTransGen Move

end Resolver

namespace Search

/-- The store and the resolver of a search. -/
def state (s : Search) : Store × Resolver := (s.store, s.resolver)

lemma moves_foldl_seed (s : Search) (ps : List Param) : Moves s.state (ps.foldl seed s).state := by
  induction ps generalizing s with
  | nil => exact .refl
  | cons p ps ih =>
    have hseed : Move s.state (s.seed p).state := .ensure s.store s.resolver (.param p)
    exact .head hseed (ih (s.seed p))

lemma moves_foldl_note (s : Search) (ps : List Param) : Moves s.state (ps.foldl note s).state := by
  induction ps generalizing s with
  | nil => exact .refl
  | cons p ps ih =>
    have hnote : Move s.state (s.note p).state := .ensure s.store s.resolver (.param p)
    exact .head hnote (ih (s.note p))

lemma keeps_paramsFrom {store : Store} {R : Resolver → Resolver → Prop} [Std.Refl R]
    [Trans R R R] (h : Steady store R) (r : ℕ) : Keeps R (paramsFrom store r) := by
  refine (h.resolveWithin _ r).bind fun o => ?_
  rcases o with _ | representative
  · exact .throw _
  · dsimp only
    split
    · exact .throw _
    · exact .pure _

/-- The parameters that lead on from a set are those of the answer to a question. -/
lemma paramsFrom_returns {store : Store} {r : ℕ} {ρ ρ' : Resolver} {params : List Param}
    (h : paramsFrom store r ρ = (.ok params, ρ')) :
    ∃ t, resolve store r ρ = (.ok (some t), ρ') ∧ t.nestedParams = .ok params := by
  rw [paramsFrom] at h
  obtain ⟨o, ρ₁, hresolve, hrest⟩ := bind_eq_ok_iff.1 h
  rcases o with _ | t
  · cases congrArg Prod.fst hrest
  · dsimp only at hrest
    rcases hnested : t.nestedParams with c | ps
    · rw [hnested] at hrest
      cases congrArg Prod.fst hrest
    · rw [hnested] at hrest
      obtain ⟨rfl, rfl⟩ := pure_eq_ok_iff.1 hrest
      exact ⟨t, hresolve, hnested⟩

lemma move_paramsFrom {store : Store} {r : ℕ} {ρ ρ' : Resolver} {params : List Param}
    (h : paramsFrom store r ρ = (.ok params, ρ')) : Move (store, ρ) (store, ρ') := by
  obtain ⟨t, hresolve, -⟩ := paramsFrom_returns h
  exact .answer (.resolve r) (bind_eq_ok_iff.2 ⟨some t, ρ', hresolve, rfl⟩)

/-- A search that ends well has nothing left to look into, or looks into a set and goes on. -/
lemma run_returns {s s' : Search} {steps : ℕ} {refs : List ℕ} (h : s.run steps = (s', .ok refs)) :
    (s.agenda.dropWhile s.visited.contains = [] ∧ s' = { s with agenda := [] } ∧ refs = s.found) ∨
      ∃ n r agenda params ρ, steps = n + 1 ∧
        s.agenda.dropWhile s.visited.contains = r :: agenda ∧
        paramsFrom s.store r s.resolver = (.ok params, ρ) ∧
        (params.foldl note { s with resolver := ρ, agenda, visited := r :: s.visited }).run n =
          (s', .ok refs) := by
  rcases hagenda : s.agenda.dropWhile s.visited.contains with _ | ⟨r, agenda⟩
  · rcases steps with _ | n
    · rw [run, hagenda] at h
      cases h
      exact .inl ⟨rfl, rfl, rfl⟩
    · rw [run, hagenda] at h
      cases h
      exact .inl ⟨rfl, rfl, rfl⟩
  · rcases steps with _ | n
    · rw [run, hagenda] at h
      cases congrArg Prod.snd h
    · rw [run, hagenda] at h
      dsimp only at h
      rcases hparams : paramsFrom s.store r s.resolver with ⟨fault | params, ρ⟩
      · rw [hparams] at h
        cases congrArg Prod.snd h
      · rw [hparams] at h
        exact .inr ⟨n, r, agenda, params, ρ, rfl, rfl, hparams, h⟩

lemma moves_run {s s' : Search} {steps : ℕ} {refs : List ℕ} (h : s.run steps = (s', .ok refs)) :
    Moves s.state s'.state := by
  induction steps generalizing s with
  | zero =>
    rcases run_returns h with ⟨-, rfl, -⟩ | ⟨_, _, _, _, _, h0, -⟩
    · exact .refl
    · cases h0
  | succ steps ih =>
    rcases run_returns h with ⟨-, rfl, -⟩ | ⟨n, r, agenda, params, ρ, hn, -, hparams, hrest⟩
    · exact .refl
    · obtain rfl := Nat.succ.inj hn
      let looked : Search := { s with resolver := ρ, agenda, visited := r :: s.visited }
      have hlook : Move s.state looked.state := move_paramsFrom hparams
      exact .head hlook ((moves_foldl_note looked params).trans (ih hrest))

lemma moves_closure {store : Store} {ρ : Resolver} {params : List Param} {s : Search}
    {refs : List ℕ} (h : closure store ρ params = (s, .ok refs)) : Moves (store, ρ) s.state :=
  (moves_foldl_seed ⟨store, ρ, [], [], []⟩ params).trans (moves_run h)

end Search

/-- A resolver in use has come a long way by small moves. -/
lemma Consulted.moves {start store : Store} {ρ : Resolver} (h : Consulted start store ρ) :
    Moves (start, ∅) (store, ρ) := by
  induction h with
  | fresh => exact .refl
  | asked q _ hask ih => exact ih.tail (.answer q hask)
  | closed _ hclosure ih => exact ih.trans (Search.moves_closure hclosure)

/-! ## Trust -/

/-- What a store and a resolver on it owe to one another. -/
structure Resolver.Trusty (store : Store) (ρ : Resolver) : Prop where
  coherent : store.Coherent
  faithful : Faithful store ρ
  atRest : ρ.AtRest

namespace Resolver.Trusty

variable {store : Store} {ρ ρ' : Resolver}

lemma fresh (h : store.Coherent) : Trusty store ∅ := ⟨h, nofun, nofun, rfl⟩

lemma later (h : Trusty store ρ) (hlater : Later store ρ ρ') : Trusty store ρ' :=
  ⟨h.coherent, hlater.faithful h.faithful, hlater.atRest h.atRest⟩

/-- A set that is new changes none that there was. -/
lemma ensure (h : Trusty store ρ) (t : Ty) : Trusty (store.ensure t).1 ρ := by
  refine ⟨h.coherent.ensure t, ?_, h.atRest⟩
  unfold Store.ensure
  rcases store.setOf t with _ | r
  · intro r u hu
    obtain ⟨hlt, hstands⟩ := h.faithful r u hu
    rw [Store.length_sets_newSet, Store.members_newSet, if_neg (Nat.ne_of_gt hlt)]
    exact ⟨Nat.lt_succ_of_lt hlt, hstands⟩
  · exact h.faithful

lemma move {x y : Store × Resolver} (h : Trusty x.1 x.2) (hmove : Move x y) : Trusty y.1 y.2 := by
  cases hmove with
  | answer q hask => exact h.later ((steady_later h.coherent).ask q hask)
  | ensure store ρ t => exact h.ensure t

lemma moves {x y : Store × Resolver} (h : Trusty x.1 x.2) (hmoves : Moves x y) :
    Trusty y.1 y.2 := by
  induction hmoves with
  | refl => exact h
  | tail _ hlast ih => exact ih.move hlast

end Resolver.Trusty

/-- Whatever a resolver was asked, and whatever closures did to the store. -/
lemma Consulted.trusty {start store : Store} {ρ : Resolver} (h : Consulted start store ρ)
    (hstart : start.Coherent) : Trusty store ρ := by
  have hfresh : Trusty start ∅ := .fresh hstart
  exact hfresh.moves h.moves

end WhereClause
