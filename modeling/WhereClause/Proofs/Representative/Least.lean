import Mathlib
import WhereClause.Proofs.Representative.Closing
import WhereClause.Proofs.Representative.Nesting
import WhereClause.Proofs.Representative.Reaching

/-!
# Closures are least

Whatever was done to a store before, and whatever a resolver on it answered, the search for the sets
that parameters lead to comes to an end.  Where it does not fail, what it finds is the least set that
takes in the sets of the parameters nested in the representatives of the given parameters' sets, and
that goes on from each of its own representatives to the sets of the parameters nested there.  On the
way some parameters that had no set are given one of their own, and that is all that happens to the
store (`closure_least`).

None of this asks what the sets are like.  It holds where sets are not folded into one another but
overlap, where a type has left the set that still lists it, and where representatives are remembered
from a time when their sets had other members.
-/

namespace WhereClause

open Relation (TransGen)
open Resolving Resolver

/-! ## Stores and resolvers in use -/

/-- Evidence as operations of any kind left it, and a resolver on its store in which nothing has
failed.  Operations may come between the questions, and questions may be asked of other resolvers:
all that these can do to the store are operations. -/
inductive InUse (mode : MergeMode) : Evidence → Resolver → Prop
  | fresh : InUse mode (.empty mode) ∅
  | performed {e : Evidence} {ρ : Resolver} (o : Operation) :
      InUse mode e ρ → InUse mode (e.perform o) ρ
  | renewed {e : Evidence} {ρ : Resolver} : InUse mode e ρ → InUse mode e ∅
  | asked {e : Evidence} {ρ ρ' : Resolver} (q : Query) :
      InUse mode e ρ → q.ask e.store ρ = (.ok (), ρ') → InUse mode e ρ'
  | closed {e : Evidence} {ρ : Resolver} {params : List Param} {s : Search} {refs : List ℕ} :
      InUse mode e ρ → closure e.store ρ params = (s, .ok refs) →
      InUse mode { e with store := s.store } s.resolver

lemma InUse.listed_atRest {mode : MergeMode} {e : Evidence} {ρ : Resolver} (h : InUse mode e ρ) :
    e.store.Listed ∧ ρ.AtRest := by
  induction h with
  | fresh => exact ⟨Store.listed_empty mode, nofun, rfl⟩
  | performed o _ ih => exact ⟨Evidence.listed_perform ih.1 o, ih.2⟩
  | renewed _ ih => exact ⟨ih.1, nofun, rfl⟩
  | asked q _ hask ih => exact ⟨ih.1, ((steady_onward _).ask q hask).atRest ih.2⟩
  | @closed e ρ params s refs _ hclosure ih =>
    rcases Search.closure_finishes ih.1 ih.2 params with
      ⟨_, _, hreturns, hlisted, hrest⟩ | ⟨_, c, hfails, -⟩
    · obtain ⟨rfl, -⟩ := Prod.mk.inj (hclosure.symm.trans hreturns)
      exact ⟨hlisted, hrest⟩
    · cases congrArg Prod.snd (hclosure.symm.trans hfails)

namespace Search

variable {ps : List Param} {s : Search}

/-! ## What a closure is to find -/

/-- Asked for the representative of the set, the resolver answers the type. -/
def Shows (s : Search) (r : ℕ) (t : Ty) : Prop :=
  resolve s.store r s.resolver = (.ok (some t), s.resolver)

/-- A parameter nested in the representative of the first set belongs to the second. -/
def LeadsOn (s : Search) (r q : ℕ) : Prop :=
  ∃ t p, s.Shows r t ∧ p.NestedIn t ∧ s.store.setOf (.param p) = some q

/-- The set has a representative, and all parameters nested in that have sets. -/
def Explored (s : Search) (r : ℕ) : Prop :=
  ∃ t, s.Shows r t ∧ ∀ p, p.NestedIn t → s.store.contains (.param p) = true

/-- What the sets of the parameters lead on to is among certain sets, and so is what these lead on
to. -/
structure Closed (s : Search) (ps : List Param) (R : Set ℕ) : Prop where
  seeds : ∀ p ∈ ps, ∀ r, s.store.setOf (.param p) = some r → ∀ q, s.LeadsOn r q → q ∈ R
  steps : ∀ r ∈ R, ∀ q, s.LeadsOn r q → q ∈ R

/-- The search left nothing out, and found nothing but what it had to. -/
structure Completes (s : Search) (ps : List Param) (refs : List ℕ) : Prop where
  seeds : ∀ p ∈ ps, ∃ r, s.store.setOf (.param p) = some r ∧ s.Explored r
  explored : ∀ r ∈ refs, s.Explored r
  least : IsLeast {R : Set ℕ | s.Closed ps R} {r | r ∈ refs}

/-! ## What was looked into -/

lemma shows_iff {r : ℕ} {t : Ty} : s.Shows r t ↔ s.resolver.Represents r t := by
  constructor
  · exact get?_of_resolveWithin
  · intro h
    exact resolveWithin_of_asked h _

/-- Parameters that are equal belong to one set. -/
lemma setOf_param_congr {p q : Param} (h : (p == q) = true) (store : Store) :
    store.setOf (.param p) = store.setOf (.param q) :=
  Store.setOf_congr (Param.beq_ty_iff.2 (beq_iff_eq.1 h)) store

lemma leadsOn_of_nests {r q : ℕ} (h : Nests s.store s.resolver r q) : s.LeadsOn r q := by
  obtain ⟨t, qs, p, ht, hqs, hp, hset⟩ := h
  exact ⟨t, p, shows_iff.2 ht, (Ty.mem_nestedParams_iff hqs).1 p hp, hset⟩

/-- What is met in a search has to be found. -/
lemma Meets.mem {R : Set ℕ} {r : ℕ} (h : s.Meets ps r) (hR : s.Closed ps R) : r ∈ R := by
  obtain ⟨p, hp, q, hset, hqr⟩ := h
  induction hqr with
  | single hfirst => exact hR.seeds p hp q hset _ (leadsOn_of_nests hfirst)
  | tail _ hlast ih => exact hR.steps _ ih _ (leadsOn_of_nests hlast)

section

variable (h : Tracks ps s)

include h

lemma Tracks.nests {r q : ℕ} (hr : r ∈ s.visited) (hq : s.LeadsOn r q) :
    Nests s.store s.resolver r q := by
  obtain ⟨t, p, ht, hp, hset⟩ := hq
  obtain ⟨u, qs, hu, hqs, -⟩ := h.looked r hr
  obtain rfl := (shows_iff.1 ht).eq hu
  obtain ⟨o, ho, hop⟩ := (Ty.mem_nestedParams_iff hqs).2 p hp
  exact ⟨t, qs, o, hu, hqs, ho, (setOf_param_congr hop _).trans hset⟩

lemma Tracks.explored {r : ℕ} (hr : r ∈ s.visited) : s.Explored r := by
  obtain ⟨t, qs, ht, hqs, hall⟩ := h.looked r hr
  refine ⟨t, shows_iff.2 ht, fun p hp => ?_⟩
  obtain ⟨q, hq, hqp⟩ := (Ty.mem_nestedParams_iff hqs).2 p hp
  obtain ⟨u, -, hset, -⟩ := hall q hq
  exact (Store.contains_iff _ _).2 ⟨u, (setOf_param_congr hqp _).symm.trans hset⟩

/-- A search with nothing left on its agenda is complete. -/
lemma Tracks.completes (hagenda : s.agenda = []) : s.Completes ps s.found := by
  have hfound : ∀ r ∈ s.found, r ∈ s.visited := fun r hr =>
    h.mem_visited hagenda (h.found r hr).leadsTo
  have hseeds : ∀ p ∈ ps, ∀ r, s.store.setOf (.param p) = some r → r ∈ s.visited :=
    fun p hp r hset => h.mem_visited hagenda ⟨p, hp, r, hset, .refl⟩
  have hclosed : s.Closed ps {r | r ∈ s.found} := by
    refine ⟨fun p hp r hset q hq => ?_, fun r hr q hq => ?_⟩
    · have hr := hseeds p hp r hset
      exact (h.next hagenda hr (h.nests hr hq)).1
    · exact (h.next hagenda (hfound r hr) (h.nests (hfound r hr) hq)).1
  refine ⟨fun p hp => ?_, fun r hr => h.explored (hfound r hr), hclosed, ?_⟩
  · obtain ⟨r, hset, -⟩ := h.seeds p hp
    exact ⟨r, hset, h.explored (hseeds p hp r hset)⟩
  · exact fun R hR r hr => (h.found r hr).mem hR

end

end Search

/-! ## Closures -/

/-- In whatever mode a store is, and with whatever resolver on it in which nothing has failed: a
closure comes to an end, with an answer or with a failure for a cause.  An answer is the least set
of sets that it can be, by the store and the representatives afterwards.  In any case the store has
gained sets of one parameter each that had none, and is otherwise as it was. -/
theorem closure_least {mode : MergeMode} {e : Evidence} {ρ : Resolver} (h : InUse mode e ρ)
    (ps : List Param) :
    (∃ news, Store.Gains e.store news (closure e.store ρ ps).1.store) ∧
      ((∃ refs, (closure e.store ρ ps).2 = .ok refs ∧
          (closure e.store ρ ps).1.Completes ps refs) ∨
        ∃ c : Cause, (closure e.store ρ ps).2 = .error (.ofCause c) ∧ c.kind ≠ .general) := by
  obtain ⟨hlisted, hrest⟩ := h.listed_atRest
  refine ⟨(Search.grows_closure _ ρ ps).gains, ?_⟩
  rcases Search.closure_finishes hlisted hrest ps with
    ⟨s, refs, hclosure, -, -⟩ | ⟨s, c, hclosure, hc⟩
  · obtain ⟨htracks, hagenda, rfl⟩ := Search.tracks_closure hclosure
    rw [hclosure]
    exact .inl ⟨_, rfl, htracks.completes hagenda⟩
  · rw [hclosure]
    exact .inr ⟨c, rfl, hc⟩

/-- `P` is `Vec<T>`, and `T` is `Box<&Q>`. -/
def Evidence.boxed : Evidence :=
  ((Evidence.empty .union).perform
    (.equate (.param ⟨0, "P"⟩) (.path (.ofName "Vec" [.type (.param ⟨1, "T"⟩)])))).perform
    (.equate (.param ⟨1, "T"⟩)
      (.path (.ofName "Box" [.type (.ref .shared (.param ⟨2, "Q"⟩) none)])))

lemma closure_boxed :
    (closure Evidence.boxed.store ∅ [⟨0, "P"⟩]).2 = .ok [1, 2] ∧
      (closure Evidence.boxed.store ∅ [⟨0, "P"⟩]).1.store.sets =
        Evidence.boxed.store.sets ++ [[.param ⟨2, "Q"⟩]] := by cbv

/-- From `P` one gets to the set of `T`, and from there to `Q`, which had no set.  The set of `P` is
not among those found, since nothing leads back to it. -/
theorem closure_least_boxed :
    let s := (closure Evidence.boxed.store ∅ [⟨0, "P"⟩]).1
    InUse .union Evidence.boxed ∅ ∧ s.Completes [⟨0, "P"⟩] [1, 2] ∧
      Evidence.boxed.store.contains (.param ⟨2, "Q"⟩) = false ∧
      s.store.sets = Evidence.boxed.store.sets ++ [[.param ⟨2, "Q"⟩]] := by
  intro s
  have hinUse : InUse .union Evidence.boxed ∅ := .performed _ (.performed _ .fresh)
  obtain ⟨hrefs, hsets⟩ := closure_boxed
  refine ⟨hinUse, ?_, by decide +kernel, hsets⟩
  obtain ⟨-, ⟨refs, hreturns, hcompletes⟩ | ⟨c, hfails, -⟩⟩ :=
    closure_least hinUse [⟨0, "P"⟩]
  · obtain rfl := Except.ok.inj (hreturns.symm.trans hrefs)
    exact hcompletes
  · cases hfails.symm.trans hrefs

end WhereClause
