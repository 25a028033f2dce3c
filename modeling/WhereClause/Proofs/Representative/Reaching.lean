import Mathlib.Data.List.TakeWhile
import Mathlib.Logic.Relation
import WhereClause.Proofs.Relevance.Consulting
import WhereClause.Proofs.Representative.Seeding

/-!
# What a search reaches

A set leads on to the sets of the parameters nested in its representative (`Resolver.Nests`).  A
closure finds exactly the sets that are reached in this way, in one step or more, from the sets of
the parameters that it is for (`Search.mem_closure_iff`): nothing else is ever on the agenda, and
when the agenda is empty, each set that was looked into has led to all that it leads to.
-/

namespace WhereClause

open Relation (ReflTransGen TransGen)
open Resolving Resolver

namespace Resolver

/-- The type is remembered as the representative of the set. -/
def Represents (ρ : Resolver) (r : ℕ) (t : Ty) : Prop := ρ.memo.get? (r : ℤ) = some (some t)

/-- A parameter nested in the representative of the first set belongs to the second. -/
def Nests (store : Store) (ρ : Resolver) (r q : ℕ) : Prop :=
  ∃ t ps p, ρ.Represents r t ∧ t.nestedParams = .ok ps ∧ p ∈ ps ∧
    store.setOf (.param p) = some q

lemma Represents.eq {ρ : Resolver} {r : ℕ} {t u : Ty} (h : ρ.Represents r t)
    (h' : ρ.Represents r u) : t = u := Option.some.inj (Option.some.inj (h.symm.trans h'))

end Resolver

namespace Search

/-- The set is that of one of the parameters, or is reached from there. -/
def LeadsTo (s : Search) (ps : List Param) (r : ℕ) : Prop :=
  ∃ p ∈ ps, ∃ q, s.store.setOf (.param p) = some q ∧ ReflTransGen (Nests s.store s.resolver) q r

/-- The set is reached from that of one of the parameters in a step or more. -/
def Meets (s : Search) (ps : List Param) (r : ℕ) : Prop :=
  ∃ p ∈ ps, ∃ q, s.store.setOf (.param p) = some q ∧ TransGen (Nests s.store s.resolver) q r

variable {ps : List Param} {s s' : Search}

lemma LeadsTo.meets {q r : ℕ} (h : s.LeadsTo ps q) (hr : Nests s.store s.resolver q r) :
    s.Meets ps r := by
  obtain ⟨p, hp, o, ho, hq⟩ := h
  exact ⟨p, hp, o, ho, .tail' hq hr⟩

lemma Meets.leadsTo {r : ℕ} (h : s.Meets ps r) : s.LeadsTo ps r := by
  obtain ⟨p, hp, o, ho, hr⟩ := h
  exact ⟨p, hp, o, ho, hr.to_reflTransGen⟩

/-- What a search knows is not taken back. -/
structure Extends (s s' : Search) : Prop where
  sets : ∀ t r, s.store.setOf t = some r → s'.store.setOf t = some r
  memo : ∀ i v, s.resolver.memo.get? i = some v → s'.resolver.memo.get? i = some v

lemma Extends.nests (h : Extends s s') {r q : ℕ} (hrq : Nests s.store s.resolver r q) :
    Nests s'.store s'.resolver r q := by
  obtain ⟨t, qs, p, hrepresents, hnested, hp, hset⟩ := hrq
  exact ⟨t, qs, p, h.memo _ _ hrepresents, hnested, hp, h.sets _ _ hset⟩

lemma Extends.leadsTo (h : Extends s s') {r : ℕ} (hr : s.LeadsTo ps r) : s'.LeadsTo ps r := by
  obtain ⟨p, hp, o, ho, hr⟩ := hr
  exact ⟨p, hp, o, h.sets _ _ ho, ReflTransGen.mono (fun _ _ => h.nests) _ _ hr⟩

lemma Extends.meets (h : Extends s s') {r : ℕ} (hr : s.Meets ps r) : s'.Meets ps r := by
  obtain ⟨p, hp, o, ho, hr⟩ := hr
  exact ⟨p, hp, o, h.sets _ _ ho, TransGen.mono (fun _ _ => h.nests) _ _ hr⟩

/-! ## Searches keep track -/

/-- A search stays with what the parameters lead to, and forgets none of it. -/
structure Tracks (ps : List Param) (s : Search) : Prop where
  agenda : ∀ r ∈ s.agenda, s.LeadsTo ps r
  found : ∀ r ∈ s.found, s.Meets ps r
  seeds : ∀ p ∈ ps, ∃ r, s.store.setOf (.param p) = some r ∧ (r ∈ s.agenda ∨ r ∈ s.visited)
  looked : ∀ r ∈ s.visited, ∃ t qs, s.resolver.Represents r t ∧ t.nestedParams = .ok qs ∧
    ∀ q ∈ qs, ∃ u ∈ s.found, s.store.setOf (.param q) = some u ∧ (u ∈ s.agenda ∨ u ∈ s.visited)

/-- What is on the agenda was looked into, or is yet to come. -/
lemma mem_visited_or_next {q : ℕ} (hq : q ∈ s.agenda) :
    q ∈ s.visited ∨ q ∈ s.agenda.dropWhile s.visited.contains := by
  rw [← List.takeWhile_append_dropWhile (p := s.visited.contains) (l := s.agenda)] at hq
  rcases List.mem_append.1 hq with hq | hq
  · exact .inl (List.contains_iff_mem.1 (List.mem_takeWhile_imp hq))
  · exact .inr hq

lemma tracks_seeds (store : Store) (ρ : Resolver) (ps : List Param) :
    Tracks ps (ps.foldl seed ⟨store, ρ, [], [], []⟩) := by
  have hseeded := seeded_foldl_seed ps ⟨store, ρ, [], [], []⟩
  refine ⟨fun r hr => ?_, fun r hr => ?_, fun p hp => ?_, fun r hr => ?_⟩
  · obtain ⟨p, hp, hset⟩ := (hseeded.only r hr).resolve_left List.not_mem_nil
    exact ⟨p, hp, r, hset, .refl⟩
  · rw [found_foldl_seed] at hr
    cases hr
  · obtain ⟨r, hr, hset⟩ := hseeded.seeds p hp
    exact ⟨r, hset, .inl hr⟩
  · rw [hseeded.visited] at hr
    cases hr

/-- Looking into a set adds what it leads to. -/
lemma Tracks.look (h : Tracks ps s) {r : ℕ} {agenda : List ℕ}
    (hagenda : s.agenda.dropWhile s.visited.contains = r :: agenda) {qs : List Param}
    {ρ : Resolver} (hparams : paramsFrom s.store r s.resolver = (.ok qs, ρ)) :
    Tracks ps
      (qs.foldl note { s with resolver := ρ, agenda, visited := r :: s.visited }) := by
  obtain ⟨t, hresolve, hnested⟩ := paramsFrom_returns hparams
  have hrepresents : ρ.Represents r t := get?_of_resolveWithin hresolve
  have honward := keeps_paramsFrom (steady_onward s.store) r hparams
  let s₁ : Search := { s with resolver := ρ, agenda, visited := r :: s.visited }
  have hseeded : Seeded qs s₁ (qs.foldl note s₁) := seeded_foldl_note qs s₁
  have hfound : ∀ {q}, q ∈ (qs.foldl note s₁).found ↔
      q ∈ s.found ∨ ∃ p ∈ qs, (qs.foldl note s₁).store.setOf (.param p) = some q :=
    mem_found_foldl_note
  show Tracks ps (qs.foldl note s₁)
  generalize qs.foldl note s₁ = s' at hseeded hfound ⊢
  have hresolver : s'.resolver = ρ := hseeded.resolver
  have hextends : Extends s s' :=
    ⟨fun _ _ => hseeded.grows.setOf, fun i v hv => by rw [hresolver]; exact honward.kept i v hv⟩
  have hlisted : ∀ q ∈ r :: agenda, q ∈ s.agenda := by
    rw [← hagenda]
    exact List.dropWhile_subset _
  -- what was on the agenda still is, or was looked into
  have hstill : ∀ q, q ∈ s.agenda ∨ q ∈ s.visited → q ∈ s'.agenda ∨ q ∈ s'.visited := by
    intro q hq
    have hvisited : q ∈ r :: s.visited → q ∈ s'.visited := fun hq => by rwa [hseeded.visited]
    rcases hq with hq | hq
    · rcases mem_visited_or_next hq with hq | hq
      · exact .inr (hvisited (List.mem_cons_of_mem r hq))
      · rw [hagenda] at hq
        rcases List.mem_cons.1 hq with rfl | hq
        · exact .inr (hvisited List.mem_cons_self)
        · exact .inl (hseeded.agenda q hq)
    · exact .inr (hvisited (List.mem_cons_of_mem r hq))
  have hr : s'.LeadsTo ps r := hextends.leadsTo (h.agenda r (hlisted r List.mem_cons_self))
  have hmeets : ∀ {q p}, p ∈ qs → s'.store.setOf (.param p) = some q → s'.Meets ps q := by
    intro q p hp hset
    refine hr.meets ⟨t, qs, p, ?_, hnested, hp, hset⟩
    rw [hresolver]
    exact hrepresents
  refine ⟨fun q hq => ?_, fun q hq => ?_, fun p hp => ?_, fun q hq => ?_⟩
  · rcases hseeded.only q hq with hq | ⟨p, hp, hset⟩
    · exact hextends.leadsTo (h.agenda q (hlisted q (List.mem_cons_of_mem r hq)))
    · exact (hmeets hp hset).leadsTo
  · rcases hfound.1 hq with hq | ⟨p, hp, hset⟩
    · exact hextends.meets (h.found q hq)
    · exact hmeets hp hset
  · obtain ⟨q, hset, hq⟩ := h.seeds p hp
    exact ⟨q, hextends.sets _ _ hset, hstill q hq⟩
  · rw [hseeded.visited] at hq
    rcases List.mem_cons.1 hq with rfl | hq
    · refine ⟨t, qs, by rw [hresolver]; exact hrepresents, hnested, fun p hp => ?_⟩
      obtain ⟨u, hu, hset⟩ := hseeded.seeds p hp
      exact ⟨u, hfound.2 (.inr ⟨p, hp, hset⟩), hset, .inl hu⟩
    · obtain ⟨u, us, hu, hus, hall⟩ := h.looked q hq
      refine ⟨u, us, hextends.memo _ _ hu, hus, fun p hp => ?_⟩
      obtain ⟨o, ho, hset, hin⟩ := hall p hp
      exact ⟨o, hfound.2 (.inl ho), hextends.sets _ _ hset, hstill o hin⟩

/-- Once everything on the agenda was looked into, it can be dropped. -/
lemma Tracks.clear (h : Tracks ps s) (hagenda : s.agenda.dropWhile s.visited.contains = []) :
    Tracks ps { s with agenda := [] } := by
  have hvisited : ∀ r, r ∈ s.agenda ∨ r ∈ s.visited → r ∈ s.visited := by
    rintro r (hr | hr)
    · have hnext := mem_visited_or_next hr
      rw [hagenda] at hnext
      exact hnext.resolve_right List.not_mem_nil
    · exact hr
  refine ⟨nofun, h.found, fun p hp => ?_, fun r hr => ?_⟩
  · obtain ⟨r, hset, hr⟩ := h.seeds p hp
    exact ⟨r, hset, .inr (hvisited r hr)⟩
  · obtain ⟨t, qs, ht, hqs, hall⟩ := h.looked r hr
    refine ⟨t, qs, ht, hqs, fun q hq => ?_⟩
    obtain ⟨u, hu, hset, hin⟩ := hall q hq
    exact ⟨u, hu, hset, .inr (hvisited u hin)⟩

section

variable (h : Tracks ps s) (hagenda : s.agenda = [])

include h hagenda

/-- What a set that was looked into leads on to was found, and looked into as well. -/
lemma Tracks.next {q r : ℕ} (hq : q ∈ s.visited) (hqr : Nests s.store s.resolver q r) :
    r ∈ s.found ∧ r ∈ s.visited := by
  obtain ⟨t, ps, p, hrepresents, hnested, hp, hset⟩ := hqr
  obtain ⟨u, us, hu, hus, hall⟩ := h.looked q hq
  obtain rfl := hrepresents.eq hu
  obtain rfl := Except.ok.inj (hnested.symm.trans hus)
  obtain ⟨o, ho, hset', hin⟩ := hall p hp
  obtain rfl := Option.some.inj (hset.symm.trans hset')
  rw [hagenda] at hin
  exact ⟨ho, hin.resolve_left List.not_mem_nil⟩

lemma Tracks.mem_visited {r : ℕ} (hr : s.LeadsTo ps r) : r ∈ s.visited := by
  obtain ⟨p, hp, q, hset, hqr⟩ := hr
  induction hqr with
  | refl =>
    obtain ⟨o, ho, hin⟩ := h.seeds p hp
    obtain rfl := Option.some.inj (hset.symm.trans ho)
    rw [hagenda] at hin
    exact hin.resolve_left List.not_mem_nil
  | tail _ hlast ih => exact (h.next hagenda ih hlast).2

/-- With nothing left on the agenda, the search has found what it could. -/
lemma Tracks.mem_found_iff {r : ℕ} : r ∈ s.found ↔ s.Meets ps r := by
  refine ⟨h.found r, ?_⟩
  rintro ⟨p, hp, q, hset, hqr⟩
  obtain ⟨o, hqo, hor⟩ := TransGen.tail'_iff.1 hqr
  exact (h.next hagenda (h.mem_visited hagenda ⟨p, hp, q, hset, hqo⟩) hor).1

end

lemma run_tracks {steps : ℕ} {refs : List ℕ} (h : Tracks ps s)
    (hrun : s.run steps = (s', .ok refs)) :
    Tracks ps s' ∧ s'.agenda = [] ∧ refs = s'.found := by
  induction steps generalizing s with
  | zero =>
    rcases run_returns hrun with ⟨hagenda, rfl, rfl⟩ | ⟨_, _, _, _, _, h0, -⟩
    · exact ⟨h.clear hagenda, rfl, rfl⟩
    · cases h0
  | succ steps ih =>
    rcases run_returns hrun with
      ⟨hagenda, rfl, rfl⟩ | ⟨n, r, agenda, params, ρ, hn, hagenda, hparams, hrest⟩
    · exact ⟨h.clear hagenda, rfl, rfl⟩
    · obtain rfl := Nat.succ.inj hn
      exact ih (h.look hagenda hparams) hrest

/-- A closure that returns kept track, until nothing was left on the agenda. -/
lemma tracks_closure {store : Store} {ρ : Resolver} {refs : List ℕ}
    (hclosure : closure store ρ ps = (s, .ok refs)) :
    Tracks ps s ∧ s.agenda = [] ∧ refs = s.found :=
  run_tracks (tracks_seeds store ρ ps) hclosure

/-- A closure finds the sets that the parameters lead to in a step or more.  What represents the
sets that they lead to is remembered. -/
theorem mem_closure_iff {store : Store} {ρ : Resolver} {refs : List ℕ}
    (hclosure : closure store ρ ps = (s, .ok refs)) :
    (∀ r, s.LeadsTo ps r → ∃ t, s.resolver.Represents r t) ∧ ∀ r, r ∈ refs ↔ s.Meets ps r := by
  obtain ⟨htracks, hagenda, rfl⟩ := tracks_closure hclosure
  refine ⟨fun r hr => ?_, fun r => htracks.mem_found_iff hagenda⟩
  obtain ⟨t, -, ht, -⟩ := htracks.looked r (htracks.mem_visited hagenda hr)
  exact ⟨t, ht⟩

lemma trusty_closure {store : Store} {ρ : Resolver} {refs : List ℕ} (h : Trusty store ρ)
    (hclosure : closure store ρ ps = (s, .ok refs)) : Trusty s.store s.resolver := by
  have hstart : Trusty (store, ρ).1 (store, ρ).2 := h
  exact hstart.moves (moves_closure hclosure)

end Search

end WhereClause
