import WhereClause.Proofs.Representative.Finishing
import WhereClause.Proofs.Representative.Seeding

/-!
# Searches come to an end

A search for the sets that parameters lead to looks into each set once.  It may give parameters sets
of their own as it goes on, but only such as were mentioned before the search began: in the members
of sets, or in what the resolver remembers.  So what is left to look into (`Search.remaining`) gets
less with every step, and the number of steps that a closure allows is never used up.
-/

namespace WhereClause

open Resolving Resolver

/-! ## Nested parameters -/

/-- What is collected is among certain mentions, or the cause is of some kind. -/
def Collects (ms : List Param) : Except Cause (List Param) → Prop
  | .ok ps => ps ⊆ ms
  | .error c => c.kind ≠ .general

lemma Collects.nil : Collects [] (.ok []) := List.Subset.refl []

lemma Collects.append {ms ns : List Param} {x y : Except Cause (List Param)} (hx : Collects ms x)
    (hy : Collects ns y) : Collects (ms ++ ns) (do
      let ps ← x
      let qs ← y
      return ps ++ qs) := by
  rcases x with c | ps
  · exact hx
  · rcases y with c | qs
    · exact hy
    · exact List.append_subset.2 ⟨List.Subset.trans hx (List.subset_append_left ms ns),
        List.Subset.trans hy (List.subset_append_right ms ns)⟩

mutual

/-- What is nested in a type is mentioned in it. -/
lemma Ty.collects_nested (t : Ty) : Collects t.mentions t.nested := by
  cases t with
  | tuple ts => rw [Ty.mentions, Ty.nested]; exact Ty.collects_nestedEach ts
  | ref access t l => rw [Ty.mentions, Ty.nested]; exact Ty.collects_nested t
  | path p => rw [Ty.mentions, Ty.nested]; exact Path.collects_nested p
  | param p => rw [Ty.mentions, Ty.nested]; exact List.Subset.refl [p]
  | infer | str | deref _ | dyn _ | data _ _ _ => rw [Ty.nested]; exact List.nil_subset _
termination_by structural t

lemma Ty.collects_nestedEach (ts : List Ty) :
    Collects (Ty.mentionsEach ts) (Ty.nestedEach ts) := by
  cases ts with
  | nil => exact .nil
  | cons t ts =>
    rw [Ty.mentionsEach, Ty.nestedEach]
    exact (Ty.collects_nested t).append (Ty.collects_nestedEach ts)
termination_by structural ts

lemma Path.collects_nested (p : Path) : Collects p.mentions p.nested := by
  obtain ⟨isGlobal, init, last⟩ := p
  rw [Path.mentions, Path.nested]
  exact (Segment.collects_nestedEach _ init).append (Segment.collects_nested _ last)
termination_by structural p

lemma Segment.collects_nested (whole : Path) (s : Segment) :
    Collects s.mentions (s.nested whole) := by
  obtain ⟨name, args⟩ := s
  rw [Segment.mentions, Segment.nested]
  exact Args.collects_nested whole args
termination_by structural s

lemma Segment.collects_nestedEach (whole : Path) (ss : List Segment) :
    Collects (Segment.mentionsEach ss) (Segment.nestedEach whole ss) := by
  cases ss with
  | nil => exact .nil
  | cons s ss =>
    rw [Segment.mentionsEach, Segment.nestedEach]
    exact (Segment.collects_nested whole s).append (Segment.collects_nestedEach whole ss)
termination_by structural ss

lemma Args.collects_nested (whole : Path) (as : Args) : Collects as.mentions (as.nested whole) := by
  cases as with
  | none => exact .nil
  | angle as => rw [Args.mentions, Args.nested]; exact Arg.collects_nestedEach as
  | paren inputs output => rw [Args.nested]; exact nofun
termination_by structural as

lemma Arg.collects_nestedEach (as : List Arg) :
    Collects (Arg.mentionsEach as) (Arg.nestedEach as) := by
  cases as with
  | nil => exact .nil
  | cons a as =>
    cases a with
    | type t =>
      rw [Arg.mentionsEach, Arg.mentions, Arg.nestedEach]
      exact (Ty.collects_nested t).append (Arg.collects_nestedEach as)
    | lifetime l =>
      rw [Arg.mentionsEach, Arg.mentions, Arg.nestedEach]
      exact Arg.collects_nestedEach as
termination_by structural as

end

lemma Ty.collects_nestedParams (t : Ty) : Collects t.mentions t.nestedParams := by
  have hnested := t.collects_nested
  rw [Ty.nestedParams]
  rcases ht : t.nested with c | ps
  · rw [ht] at hnested
    exact hnested
  · rw [ht] at hnested
    exact fun p hp => hnested (Distinct.mem_of_mem_ofList hp)

/-! ## Searches -/

lemma Ty.mem_mentionsEach_iff {p : Param} {ts : List Ty} :
    p ∈ Ty.mentionsEach ts ↔ ∃ t ∈ ts, p ∈ t.mentions := by
  induction ts with
  | nil => simp [Ty.mentionsEach]
  | cons t ts ih => simp [Ty.mentionsEach, ih]

namespace Search

/-- The mentions of parameters in the members of a store and in the representatives remembered. -/
def known (store : Store) (resolver : Resolver) : List Param :=
  store.sets.flatMap Ty.mentionsEach ++
    resolver.memo.entries.flatMap fun e => (e.2.map Ty.mentions).getD []

lemma length_known (store : Store) (resolver : Resolver) :
    (known store resolver).length = mentionCount store resolver := List.length_append

/-- A search that meets no parameters but certain ones, for sets with members. -/
structure Among (ms : List Param) (s : Search) : Prop where
  listed : s.store.Listed
  members : ∀ r, ∀ t ∈ s.store.members r, ∀ p ∈ t.mentions, p ∈ ms
  busy : Busy (· ∈ ms) [] [] s.resolver
  agenda : ∀ r ∈ s.agenda, ∃ t, s.store.setOf t = some r

/-- How many sets a search can still look into, if it meets no parameters but certain ones. -/
def remaining (ms : List Param) (s : Search) : ℕ :=
  (List.range s.store.sets.length).countP (fun r => !s.visited.contains r) +
    ms.countP fun p => !s.store.contains (.param p)

section

variable {ms : List Param} {s : Search}

/-- No more sets are left than there are, and than can be new. -/
lemma remaining_le (ms : List Param) (s : Search) :
    s.remaining ms ≤ s.store.sets.length + ms.length := by
  refine Nat.add_le_add ?_ List.countP_le_length
  exact Nat.le_trans List.countP_le_length (Nat.le_of_eq List.length_range)

lemma contains_ensure_of_contains {store : Store} {t u : Ty} (hu : store.contains u = true) :
    (store.ensure t).1.contains u = true := by
  obtain ⟨r, hr⟩ := (Store.contains_iff _ u).1 hu
  exact (Store.contains_iff _ u).2 ⟨r, Store.setOf_ensure_of_some hr⟩

/-- A set that is new is of a parameter that had none. -/
lemma Among.note (h : s.Among ms) {p : Param} (hp : p ∈ ms) :
    (s.note p).Among ms ∧ (s.note p).remaining ms ≤ s.remaining ms := by
  have hkept : ∀ {t r}, s.store.setOf t = some r → (s.note p).store.setOf t = some r :=
    fun ht => Store.setOf_ensure_of_some ht
  have hself : (s.note p).store.setOf (.param p) = some (s.store.ensure (.param p)).2 :=
    Store.setOf_ensure_self s.store (.param p)
  have hagenda : ∀ r ∈ (s.note p).agenda, ∃ t, (s.note p).store.setOf t = some r := by
    refine List.forall_mem_cons.2 ⟨⟨_, hself⟩, fun r hr => ?_⟩
    obtain ⟨t, ht⟩ := h.agenda r hr
    exact ⟨t, hkept ht⟩
  rcases hset : s.store.setOf (.param p) with _ | r
  · have hstore : (s.note p).store = (s.store.newSet [.param p]).1 := by
      show (s.store.ensure (.param p)).1 = _
      rw [Store.ensure, hset]
    refine ⟨⟨hstore ▸ h.listed.newSet _, fun r t ht => ?_, h.busy, hagenda⟩, ?_⟩
    · rw [hstore, Store.members_newSet] at ht
      split_ifs at ht
      · obtain rfl : t = .param p := List.mem_singleton.1 ht
        rw [Ty.mentions]
        exact List.forall_mem_singleton.2 hp
      · exact h.members r t ht
    · have hfewer : ms.countP (fun q => !(s.note p).store.contains (.param q)) <
          ms.countP fun q => !s.store.contains (.param q) := by
        refine countP_lt_countP (fun q _ hq => ?_) hp ?_ ?_
        · rw [Bool.not_eq_true', ← Bool.not_eq_true] at hq ⊢
          exact fun hin => hq (contains_ensure_of_contains hin)
        · rw [Bool.not_eq_true', Store.contains_eq_false_iff, hset]
        · rw [Bool.not_eq_false', Store.contains_iff]
          exact ⟨_, hself⟩
      have hlength : (s.note p).store.sets.length = s.store.sets.length + 1 := by
        rw [hstore, Store.length_sets_newSet]
      have hmore : (List.range (s.store.sets.length + 1)).countP
            (fun r => !s.visited.contains r) ≤
          (List.range s.store.sets.length).countP (fun r => !s.visited.contains r) + 1 := by
        rw [List.range_succ, List.countP_append]
        exact Nat.add_le_add_left List.countP_le_length _
      have hvisited : (s.note p).visited = s.visited := rfl
      rw [remaining, remaining, hlength, hvisited]
      omega
  · have hstore : (s.note p).store = s.store := by
      show (s.store.ensure (.param p)).1 = _
      rw [Store.ensure, hset]
    refine ⟨⟨hstore ▸ h.listed, hstore ▸ h.members, h.busy, hagenda⟩, Nat.le_of_eq ?_⟩
    have hvisited : (s.note p).visited = s.visited := rfl
    rw [remaining, remaining, hstore, hvisited]

lemma Among.notes (h : s.Among ms) {ps : List Param} (hps : ps ⊆ ms) :
    (ps.foldl Search.note s).Among ms ∧ (ps.foldl Search.note s).remaining ms ≤ s.remaining ms := by
  induction ps generalizing s with
  | nil => exact ⟨h, Nat.le_refl _⟩
  | cons p ps ih =>
    obtain ⟨hp, hps⟩ := List.cons_subset.1 hps
    obtain ⟨hnote, hle⟩ := h.note hp
    obtain ⟨hnotes, hle'⟩ := ih hnote hps
    exact ⟨hnotes, Nat.le_trans hle' hle⟩

/-- A set of the store leads to parameters that were mentioned. -/
lemma finishes_paramsFrom (h : s.Among ms) {r : ℕ} (hr : ∃ t, s.store.setOf t = some r) :
    Finishes (Busy (· ∈ ms) [] []) (· ⊆ ms) (paramsFrom s.store r) := by
  obtain ⟨t, ht⟩ := hr
  rw [paramsFrom]
  refine (compositional_finishes _).bind (finishes_resolve h.listed h.members ht) ?_
  rintro _ ⟨w, rfl, hw⟩
  have hcollects := w.collects_nestedParams
  dsimp only
  rcases hnested : w.nestedParams with c | ps
  · rw [hnested] at hcollects
    exact (compositional_finishes _).failWith hcollects
  · rw [hnested] at hcollects
    exact (compositional_finishes _).pure fun p hp => hw p (hcollects hp)

/-- Looking into a set leaves one set less. -/
lemma Among.look (h : s.Among ms) {r : ℕ} {agenda : List ℕ}
    (hagenda : s.agenda.dropWhile s.visited.contains = r :: agenda) {ρ : Resolver}
    (hρ : Busy (· ∈ ms) [] [] ρ) :
    let s' : Search := { s with resolver := ρ, agenda, visited := r :: s.visited }
    s'.Among ms ∧ s'.remaining ms < s.remaining ms := by
  have hlisted : ∀ q ∈ r :: agenda, q ∈ s.agenda := by
    rw [← hagenda]
    exact List.dropWhile_subset _
  have hnew : s.visited.contains r = false := by
    have hhead := List.head?_dropWhile_not s.visited.contains s.agenda
    rw [hagenda] at hhead
    simpa using hhead
  obtain ⟨t, ht⟩ := h.agenda r (hlisted r List.mem_cons_self)
  have hr := List.mem_range.2 (h.listed.lt_length ht)
  refine ⟨⟨h.listed, h.members, hρ, fun q hq => ?_⟩, ?_⟩
  · exact h.agenda q (hlisted q (List.mem_cons_of_mem r hq))
  · refine Nat.add_lt_add_right (countP_lt_countP (fun q _ hq => ?_) hr ?_ ?_) _
    · rw [Bool.not_eq_true', List.contains_cons, Bool.or_eq_false_iff] at hq
      rw [hq.2]
      rfl
    · rw [hnew]
      rfl
    · rw [List.contains_cons, BEq.rfl]
      rfl

/-- A search with a step for every set that is left finds sets, or fails for a cause of some
kind. -/
lemma run_finishes {steps : ℕ} (h : s.Among ms) (hsteps : s.remaining ms ≤ steps) :
    (∃ s' refs, s.run steps = (s', .ok refs) ∧ s'.Among ms) ∨
      ∃ s' c, s.run steps = (s', .error (.ofCause c)) ∧ c.kind ≠ .general := by
  induction steps generalizing s with
  | zero =>
    rw [run]
    rcases hagenda : s.agenda.dropWhile s.visited.contains with _ | ⟨r, agenda⟩
    · exact .inl ⟨{ s with agenda := [] }, s.found, rfl, h.listed, h.members, h.busy, nofun⟩
    · obtain ⟨-, hlt⟩ := h.look hagenda h.busy
      omega
  | succ steps ih =>
    rw [run]
    rcases hagenda : s.agenda.dropWhile s.visited.contains with _ | ⟨r, agenda⟩
    · exact .inl ⟨{ s with agenda := [] }, s.found, rfl, h.listed, h.members, h.busy, nofun⟩
    · have hnext : r ∈ s.agenda := by
        refine List.dropWhile_subset s.visited.contains ?_
        rw [hagenda]
        exact List.mem_cons_self
      dsimp only
      rcases finishes_paramsFrom h (h.agenda r hnext) h.busy with
        ⟨ps, ρ, hparams, hps, hρ⟩ | ⟨c, ρ, hparams, hc⟩
      · rw [hparams]
        obtain ⟨hlook, hlt⟩ := h.look hagenda hρ
        obtain ⟨hnotes, hle⟩ := hlook.notes hps
        exact ih hnotes (by omega)
      · rw [hparams]
        exact .inr ⟨_, c, rfl, hc⟩

end

/-- A closure comes to an end, if no fold was broken off and no set is being expanded. -/
lemma closure_finishes {store : Store} {ρ : Resolver} (hlisted : store.Listed) (hρ : ρ.AtRest)
    (ps : List Param) :
    (∃ s refs, closure store ρ ps = (s, .ok refs) ∧ s.store.Listed ∧ s.resolver.AtRest) ∨
      ∃ s c, closure store ρ ps = (s, .error (.ofCause c)) ∧ c.kind ≠ .general := by
  rw [closure]
  have hseeded := seeded_foldl_seed ps ⟨store, ρ, [], [], []⟩
  generalize ps.foldl seed ⟨store, ρ, [], [], []⟩ = s at hseeded ⊢
  obtain rfl : s.resolver = ρ := hseeded.resolver
  have hagenda : ∀ r ∈ s.agenda, ∃ t, s.store.setOf t = some r := by
    intro r hr
    obtain ⟨p, -, hp⟩ := (hseeded.only r hr).resolve_left List.not_mem_nil
    exact ⟨_, hp⟩
  have hamong : s.Among (known s.store s.resolver) := by
    refine ⟨hseeded.grows.evolves.listed hlisted, fun r t ht p hp => ?_, hρ.busy ?_, hagenda⟩
    · rw [Store.members] at ht
      rcases hset : s.store.sets[r]? with _ | ts
      · rw [hset] at ht
        cases ht
      · rw [hset] at ht
        have hmem : ts ∈ s.store.sets := List.mem_of_getElem? hset
        exact List.mem_append_left _
          (List.mem_flatMap.2 ⟨ts, hmem, Ty.mem_mentionsEach_iff.2 ⟨t, ht, hp⟩⟩)
    · intro i t ht p hp
      obtain ⟨e, he, -, hvalue⟩ := Table.exists_mem_of_lookup ht
      refine List.mem_append_right _ (List.mem_flatMap.2 ⟨e, he, ?_⟩)
      rw [hvalue]
      exact hp
  have hsteps := remaining_le (known s.store s.resolver) s
  rw [length_known] at hsteps
  rcases run_finishes hamong (Nat.le_succ_of_le hsteps) with ⟨s', refs, hrun, hs'⟩ | hfails
  · exact .inl ⟨s', refs, hrun, hs'.listed, hs'.busy.atRest⟩
  · exact .inr hfails

/-- Whatever comes of a search, all it does to the store is to give types sets of their own. -/
lemma grows_run (steps : ℕ) (s : Search) : Store.Grows s.store (s.run steps).1.store := by
  induction steps generalizing s with
  | zero =>
    rw [run]
    rcases s.agenda.dropWhile s.visited.contains with _ | ⟨r, agenda⟩
    · exact .refl
    · exact .refl
  | succ steps ih =>
    rw [run]
    rcases s.agenda.dropWhile s.visited.contains with _ | ⟨r, agenda⟩
    · exact .refl
    · dsimp only
      rcases paramsFrom s.store r s.resolver with ⟨fault | ps, ρ⟩
      · exact .refl
      · have hseeded := seeded_foldl_note ps
          { s with resolver := ρ, agenda, visited := r :: s.visited }
        exact hseeded.grows.trans (ih _)

lemma grows_closure (store : Store) (ρ : Resolver) (ps : List Param) :
    Store.Grows store (closure store ρ ps).1.store := by
  rw [closure]
  exact (seeded_foldl_seed ps ⟨store, ρ, [], [], []⟩).grows.trans (grows_run _ _)

end Search

end WhereClause
