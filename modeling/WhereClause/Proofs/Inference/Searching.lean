import WhereClause.Proofs.Equality.Classes
import WhereClause.Proofs.Inference.Collecting
import WhereClause.Proofs.Representative.Closing
import WhereClause.Proofs.Representative.Parameters
import WhereClause.Proofs.Representative.Reaching

/-!
# Closures over sets of parameters

Where no type but parameters is of a set, a representative leads nowhere but to its own set.  So the
closure of some parameters is their own sets, and nothing is met that the search could fail for.

A store `Store.Ties` parameters if two of them share a set exactly if pairs of parameters generate
that they are one.  Parameters that get a set of their own in a search are tied to nothing new.
-/

namespace WhereClause

open Relation (EqvGen)
open Resolving Resolver

/-! ## Stores that tie parameters -/

/-- What pairs of parameters say directly: equal parameters are one, and so are those of a pair. -/
def Param.Stated (ties : List (Param × Param)) (p q : Param) : Prop :=
  (p == q) = true ∨ (p, q) ∈ ties

/-- A store of parameters that are one as far as pairs of parameters generate it. -/
structure Store.Ties (s : Store) (ties : List (Param × Param)) : Prop where
  coherent : s.Coherent
  only : s.OnlyParams
  linked_iff : ∀ p q, s.Linked (.param p) (.param q) ↔ EqvGen (Param.Stated ties) p q

lemma Param.eqvGen_of_beq {ties : List (Param × Param)} {p q : Param}
    (h : (Ty.param p == Ty.param q) = true) : EqvGen (Param.Stated ties) p q := by
  have hnumber : p.number = q.number := Param.beq_ty_iff.1 h
  have hpq : (p.number == q.number) = true := beq_iff_eq.2 hnumber
  exact .rel _ _ (.inl hpq)

/-- Types that are one are equal, or are parameters that are one. -/
lemma Param.eqvGen_of_ty {ties : List (Param × Param)} {t u : Ty}
    (h : EqvGen (Ty.Stated (Ty.ofParams ties)) t u) :
    (t == u) = true ∨ ∃ p q, t = .param p ∧ u = .param q ∧ EqvGen (Param.Stated ties) p q := by
  induction h with
  | rel t u hstated =>
    rcases hstated with htu | hmem
    · exact .inl htu
    · obtain ⟨⟨p, q⟩, hpq, heq⟩ := List.mem_map.1 hmem
      obtain ⟨rfl, rfl⟩ := Prod.mk.inj heq
      exact .inr ⟨p, q, rfl, rfl, .rel _ _ (.inr hpq)⟩
  | refl t => exact .inl BEq.rfl
  | symm t u _ ih =>
    rcases ih with htu | ⟨p, q, hp, hq, hpq⟩
    · exact .inl (BEq.symm htu)
    · exact .inr ⟨q, p, hq, hp, hpq.symm⟩
  | trans t u w _ _ ih ih' =>
    rcases ih with htu | ⟨p, q, rfl, rfl, hpq⟩
    · rcases ih' with huw | ⟨q, r, rfl, rfl, hqr⟩
      · exact .inl (BEq.trans htu huw)
      · obtain ⟨p, rfl⟩ := Ty.exists_param_of_beq htu
        have hpq : EqvGen (Param.Stated ties) p q := Param.eqvGen_of_beq htu
        exact .inr ⟨p, r, rfl, rfl, hpq.trans _ _ _ hqr⟩
    · rcases ih' with huw | ⟨q', r, hq', rfl, hqr⟩
      · obtain ⟨r, rfl⟩ := Ty.exists_param_of_beq (BEq.symm huw)
        have hqr : EqvGen (Param.Stated ties) q r := Param.eqvGen_of_beq huw
        exact .inr ⟨p, r, rfl, rfl, hpq.trans _ _ _ hqr⟩
      · obtain rfl : q = q' := Ty.param.inj hq'
        exact .inr ⟨p, r, rfl, rfl, hpq.trans _ _ _ hqr⟩

lemma Param.eqvGen_ty_iff {ties : List (Param × Param)} {p q : Param} :
    EqvGen (Ty.Stated (Ty.ofParams ties)) (.param p) (.param q) ↔
      EqvGen (Param.Stated ties) p q := by
  constructor
  · intro h
    rcases Param.eqvGen_of_ty h with hpq | ⟨p', q', hp, hq, hpq⟩
    · exact Param.eqvGen_of_beq hpq
    · obtain rfl : p = p' := Ty.param.inj hp
      obtain rfl : q = q' := Ty.param.inj hq
      exact hpq
  · intro h
    induction h with
    | rel p q hstated =>
      rcases hstated with hpq | hmem
      · have hsame : (p.number == q.number) = true := hpq
        exact .rel _ _ (.inl (Param.beq_ty_iff.2 (beq_iff_eq.1 hsame)))
      · exact .rel _ _ (.inr (List.mem_map.2 ⟨(p, q), hmem, rfl⟩))
    | refl p => exact .refl _
    | symm _ _ _ ih => exact ih.symm
    | trans _ _ _ _ _ ih ih' => exact ih.trans _ _ _ ih'

namespace Store

lemma Reflects.ties {s : Store} {ties : List (Param × Param)}
    (h : s.Reflects (Ty.ofParams ties)) : s.Ties ties where
  coherent := h.sound.coherent
  only t r ht := by
    have hknown : s.contains t = true := (Store.contains_iff s t).2 ⟨r, ht⟩
    obtain ⟨pair, hpair, hbeq⟩ := (h.contains_iff t).1 hknown
    obtain ⟨⟨p, q⟩, -, rfl⟩ := List.mem_map.1 hpair
    rcases hbeq with hbeq | hbeq
    · exact Ty.exists_param_of_beq hbeq
    · exact Ty.exists_param_of_beq hbeq
  linked_iff p q := by rw [h.linked_iff, Param.eqvGen_ty_iff]

variable {s : Store}

lemma Ties.ensure {ties : List (Param × Param)} (h : s.Ties ties) (p : Param) :
    (s.ensure (.param p)).1.Ties ties where
  coherent := h.coherent.ensure (.param p)
  only t r ht := by
    rw [setOf_ensure] at ht
    split_ifs at ht with hp
    · exact Ty.exists_param_of_beq hp.2
    · exact h.only t r ht
  linked_iff q q' := by rw [linked_ensure_iff h.coherent, h.linked_iff]

end Store

/-! ## Seeds -/

namespace Search

variable {ties : List (Param × Param)}

lemma ties_foldl_seed (ps : List Param) {s : Search} (h : s.store.Ties ties) :
    (ps.foldl seed s).store.Ties ties := by
  induction ps generalizing s with
  | nil => exact h
  | cons p ps ih =>
    have hseed : (s.seed p).store.Ties ties := h.ensure p
    exact ih hseed

/-! ## Looking into one set after another -/

section

variable {store : Store} {s : Search}

/-- The representative of a set of parameters leads to its own set. -/
lemma run_paramsFrom (h : store.Ties ties) {ρ : Resolver} (hρ : Aged store ρ)
    {p : Param} {r : ℕ} (hp : store.setOf (.param p) = some r) :
    ∃ ρ', paramsFrom store r ρ = (.ok [store.low p], ρ') ∧ Aged store ρ' := by
  obtain ⟨ρ', hresolve, hremembers, hsettling⟩ :=
    run_resolve h.coherent h.only hρ.remembers hp
  have hnested : (Ty.param (store.low p)).nestedParams = .ok [store.low p] := by
    unfold Ty.nestedParams Ty.nested
    rfl
  refine ⟨ρ', ?_, hremembers, hsettling.trans hρ.idle⟩
  unfold paramsFrom
  rw [run_bind_of_ok hresolve]
  dsimp only
  rw [hnested]
  rfl

lemma note_of_setOf {p : Param} {r : ℕ} (h : s.store.setOf (.param p) = some r) :
    s.note p = { s with found := Distinct.add s.found r, agenda := r :: s.agenda } := by
  unfold note Store.ensure
  rw [h]

/-- A search over a store of parameters meets no new ones, and nothing that it cannot make sense
of. -/
lemma run_aged (h : store.Ties ties) {steps : ℕ} (hstore : s.store = store)
    (haged : Aged store s.resolver) (hagenda : ∀ r ∈ s.agenda, ∃ p, store.setOf (.param p) = some r)
    {s' : Search} {result : Except Fault (List ℕ)} (hrun : s.run steps = (s', result)) :
    s'.store = store ∧ Aged store s'.resolver ∧ ∀ c, result ≠ .error (.ofCause c) := by
  induction steps generalizing s with
  | zero =>
    rw [run] at hrun
    rcases hnext : s.agenda.dropWhile s.visited.contains with _ | ⟨r, agenda⟩
    · rw [hnext] at hrun
      obtain ⟨rfl, rfl⟩ := Prod.mk.inj hrun
      exact ⟨hstore, haged, fun _ h => by cases h⟩
    · rw [hnext] at hrun
      obtain ⟨rfl, rfl⟩ := Prod.mk.inj hrun
      exact ⟨hstore, haged, fun _ h => by cases h⟩
  | succ steps ih =>
    rw [run] at hrun
    rcases hnext : s.agenda.dropWhile s.visited.contains with _ | ⟨r, agenda⟩
    · rw [hnext] at hrun
      obtain ⟨rfl, rfl⟩ := Prod.mk.inj hrun
      exact ⟨hstore, haged, fun _ h => by cases h⟩
    · rw [hnext] at hrun
      have hlisted : ∀ q ∈ r :: agenda, ∃ p, store.setOf (.param p) = some q := fun q hq =>
        hagenda q (List.dropWhile_subset _ (hnext ▸ hq))
      obtain ⟨p, hset⟩ := hlisted r List.mem_cons_self
      obtain ⟨-, hlow, -⟩ := Store.oldest_spec h.coherent hset
      obtain ⟨ρ, hparams, hρ⟩ := run_paramsFrom h haged hset
      subst hstore
      have hnote := note_of_setOf (s := { s with resolver := ρ, agenda, visited := r :: s.visited })
        hlow
      dsimp only at hrun
      rw [hparams] at hrun
      dsimp only at hrun
      rw [List.foldl_cons, List.foldl_nil, hnote] at hrun
      refine ih ?_ hρ hlisted hrun
      rfl

/-- Among sets of parameters, each leads to itself only. -/
lemma nests_iff (h : store.Ties ties) {ρ : Resolver} (hρ : Aged store ρ) {p : Param} {r q : ℕ}
    (hp : store.setOf (.param p) = some r) :
    Nests store ρ r q ↔ q = r ∧ ∃ t, ρ.Represents r t := by
  obtain ⟨holdest, hlow, -⟩ := Store.oldest_spec h.coherent hp
  have hlead : ∀ t, ρ.Represents r t → t = .param (store.low p) := by
    intro t ht
    obtain ⟨o, ho, heq⟩ := hρ.remembers r _ ht
    obtain rfl := Option.some.inj (ho.symm.trans holdest)
    exact Option.some.inj heq
  have hnested : (Ty.param (store.low p)).nestedParams = .ok [store.low p] := by
    unfold Ty.nestedParams Ty.nested
    rfl
  constructor
  · rintro ⟨t, ps, o, ht, hps, ho, hset⟩
    rw [hlead t ht, hnested] at hps
    obtain rfl := Except.ok.inj hps
    obtain rfl := List.mem_singleton.1 ho
    exact ⟨Option.some.inj (hset.symm.trans hlow), t, ht⟩
  · rintro ⟨rfl, t, ht⟩
    exact ⟨t, [store.low p], store.low p, ht, by rw [hlead t ht, hnested],
      List.mem_singleton_self _, hlow⟩

end

/-- The closure of parameters over a store of parameters is their own sets. -/
lemma run_closure {store : Store} (h : store.Ties ties) (ps : List Param) :
    ∃ search refs, closure store ∅ ps = (search, .ok refs) ∧ search.store.Ties ties ∧
      Aged search.store search.resolver ∧
      (∀ p ∈ ps, ∃ r, search.store.setOf (.param p) = some r) ∧
      ∀ r, r ∈ refs ↔ ∃ p ∈ ps, search.store.setOf (.param p) = some r := by
  have hseeded := seeded_foldl_seed ps ⟨store, ∅, [], [], []⟩
  have hties := ties_foldl_seed ps (s := ⟨store, ∅, [], [], []⟩) h
  have haged : Aged (ps.foldl seed ⟨store, ∅, [], [], []⟩).store
      (ps.foldl seed ⟨store, ∅, [], [], []⟩).resolver := by
    rw [hseeded.resolver]
    exact ⟨nofun, rfl⟩
  have hagenda : ∀ r ∈ (ps.foldl seed ⟨store, ∅, [], [], []⟩).agenda, ∃ p,
      (ps.foldl seed ⟨store, ∅, [], [], []⟩).store.setOf (.param p) = some r := by
    intro r hr
    obtain ⟨p, -, hset⟩ := (hseeded.only r hr).resolve_left List.not_mem_nil
    exact ⟨p, hset⟩
  have hrest : (∅ : Resolver).AtRest := ⟨nofun, rfl⟩
  rcases closure_finishes h.coherent.listed hrest ps with
    ⟨search, refs, hclosure, -, -⟩ | ⟨search, c, hclosure, -⟩
  · obtain ⟨hstore, haged, -⟩ := run_aged hties rfl haged hagenda hclosure
    rw [← hstore] at hties haged
    obtain ⟨hremembered, hrefs⟩ := mem_closure_iff hclosure
    have hseeds : ∀ p ∈ ps, ∃ r, search.store.setOf (.param p) = some r := by
      intro p hp
      obtain ⟨r, -, hset⟩ := hseeded.seeds p hp
      exact ⟨r, hstore ▸ hset⟩
    refine ⟨search, refs, hclosure, hties, haged, hseeds, fun r => (hrefs r).trans ⟨?_, ?_⟩⟩
    · rintro ⟨p, hp, q, hset, hqr⟩
      refine ⟨p, hp, ?_⟩
      induction hqr with
      | single hnests =>
        obtain ⟨rfl, -⟩ := (nests_iff hties haged hset).1 hnests
        exact hset
      | tail _ hnests ih =>
        obtain ⟨rfl, -⟩ := (nests_iff hties haged ih).1 hnests
        exact ih
    · rintro ⟨p, hp, hset⟩
      have ht := hremembered r ⟨p, hp, r, hset, .refl⟩
      exact ⟨p, hp, r, hset, .single ((nests_iff hties haged hset).2 ⟨rfl, ht⟩)⟩
  · obtain ⟨-, -, hno⟩ := run_aged hties rfl haged hagenda hclosure
    exact absurd rfl (hno c)

end Search

end WhereClause
