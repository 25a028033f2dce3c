import WhereClause.Proofs.Equality.Bookkeeping
import WhereClause.Representative.Closure

/-!
# Parameters that a search meets

Parameters are met at the beginning of a search, and then whenever a set is looked into.  Each is
given a set if it has none, and the set goes on the agenda.  The parameters that are met on the way
have their sets noted as found, too.
-/

namespace WhereClause

namespace Search

/-- What giving parameters sets and putting these on the agenda does. -/
structure Seeded (ps : List Param) (s s' : Search) : Prop where
  resolver : s'.resolver = s.resolver
  visited : s'.visited = s.visited
  grows : Store.Grows s.store s'.store
  agenda : ∀ r ∈ s.agenda, r ∈ s'.agenda
  seeds : ∀ p ∈ ps, ∃ r ∈ s'.agenda, s'.store.setOf (.param p) = some r
  only : ∀ r ∈ s'.agenda, r ∈ s.agenda ∨ ∃ p ∈ ps, s'.store.setOf (.param p) = some r

lemma Seeded.refl (s : Search) : Seeded [] s s :=
  ⟨rfl, rfl, .refl, fun _ h => h, nofun, fun _ h => .inl h⟩

/-- One parameter is met, then others. -/
lemma Seeded.cons {p : Param} {ps : List Param} {s s' : Search} (s₁ : Search)
    (hresolver : s₁.resolver = s.resolver) (hvisited : s₁.visited = s.visited)
    (hstore : s₁.store = (s.store.ensure (.param p)).1)
    (hagenda : s₁.agenda = (s.store.ensure (.param p)).2 :: s.agenda) (h : Seeded ps s₁ s') :
    Seeded (p :: ps) s s' := by
  have hfirst : s'.store.setOf (.param p) = some (s.store.ensure (.param p)).2 := by
    refine h.grows.setOf ?_
    rw [hstore]
    exact Store.setOf_ensure_self s.store (.param p)
  have hgrows := h.grows
  rw [hstore] at hgrows
  refine ⟨h.resolver.trans hresolver, h.visited.trans hvisited,
    (Store.Grows.ensure s.store p).trans hgrows, fun r hr => ?_,
    List.forall_mem_cons.2 ⟨⟨_, ?_, hfirst⟩, h.seeds⟩, fun r hr => ?_⟩
  · exact h.agenda r (hagenda ▸ List.mem_cons_of_mem _ hr)
  · exact h.agenda _ (hagenda ▸ List.mem_cons_self)
  · rcases h.only r hr with hr | ⟨q, hq, hset⟩
    · rw [hagenda] at hr
      rcases List.mem_cons.1 hr with rfl | hr
      · exact .inr ⟨p, List.mem_cons_self, hfirst⟩
      · exact .inl hr
    · exact .inr ⟨q, List.mem_cons_of_mem p hq, hset⟩

lemma seeded_foldl_seed (ps : List Param) (s : Search) : Seeded ps s (ps.foldl seed s) := by
  induction ps generalizing s with
  | nil => exact .refl s
  | cons p ps ih => exact Seeded.cons (s.seed p) rfl rfl rfl rfl (ih (s.seed p))

lemma seeded_foldl_note (ps : List Param) (s : Search) : Seeded ps s (ps.foldl note s) := by
  induction ps generalizing s with
  | nil => exact .refl s
  | cons p ps ih => exact Seeded.cons (s.note p) rfl rfl rfl rfl (ih (s.note p))

lemma found_foldl_seed (ps : List Param) (s : Search) : (ps.foldl seed s).found = s.found := by
  induction ps generalizing s with
  | nil => rfl
  | cons p ps ih => exact ih (s.seed p)

/-- The sets of the parameters met are found, and no others. -/
lemma mem_found_foldl_note {ps : List Param} {s : Search} {r : ℕ} :
    r ∈ (ps.foldl note s).found ↔
      r ∈ s.found ∨ ∃ p ∈ ps, (ps.foldl note s).store.setOf (.param p) = some r := by
  induction ps generalizing s with
  | nil => simp
  | cons p ps ih =>
    have hfirst : (ps.foldl note (s.note p)).store.setOf (.param p) =
        some (s.store.ensure (.param p)).2 :=
      (seeded_foldl_note ps (s.note p)).grows.setOf (Store.setOf_ensure_self s.store (.param p))
    have hfound : (s.note p).found = Distinct.add s.found (s.store.ensure (.param p)).2 := rfl
    rw [List.foldl_cons, ih, hfound, Distinct.mem_add_iff]
    constructor
    · rintro ((hr | rfl) | ⟨q, hq, hset⟩)
      · exact .inl hr
      · exact .inr ⟨p, List.mem_cons_self, hfirst⟩
      · exact .inr ⟨q, List.mem_cons_of_mem p hq, hset⟩
    · rintro (hr | ⟨q, hq, hset⟩)
      · exact .inl (.inl hr)
      · rcases List.mem_cons.1 hq with rfl | hq
        · exact .inl (.inr (Option.some.inj (hset.symm.trans hfirst)))
        · exact .inr ⟨q, hq, hset⟩

end Search

end WhereClause
