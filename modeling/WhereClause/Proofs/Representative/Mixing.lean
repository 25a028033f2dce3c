import WhereClause.Proofs.Equality.Components
import WhereClause.Proofs.Representative.Agreeing

/-!
# References of both kinds

A walk looks through a shared and a mutable reference that it meets side by side, and does not find
the two equal.  It does so only there: the tuples, paths and references around them still come to
share a set.  A resolver makes no such allowance and refuses to merge what differs in a kind of
reference, at whatever depth.  So it may refuse what the walk lets pass.

Take two types that differ in nothing but kinds of references and lifetimes.  They do not clash, and
all sets that they lead to have representatives exactly if the two agree below the mixed references
at their top (`Resolver.resolves_iff_agrees`).
-/

namespace WhereClause

namespace Ty

/-- The two types that a walk comes to through mixed references, as long as it meets these alone. -/
def belowMixed : Ty → Ty → Ty × Ty
  | .ref access x l, .ref access' y k =>
    if access = access' then (.ref access x l, .ref access' y k) else belowMixed x y
  | a, b => (a, b)

lemma equalPairs_single (a b : Ty) :
    equalPairs [(a, b)] = equalPairs (parts a b) ++ [(a, b)].filter isEqualPair := by
  rw [equalPairs, metBelow_cons, metBelow_nil, List.filter_append]
  rfl

/-- Mixed references at the top are not found equal, and a walk finds equal what is below them. -/
lemma belowMixed_spec {a b : Ty} (halike : a.Alike b) (hplain : a.isPlain = true) :
    equalPairs [(a, b)] = equalPairs [belowMixed a b] ∧
      (belowMixed a b).1.Alike (belowMixed a b).2 ∧ (belowMixed a b).1.isPlain = true ∧
      areMixedRefs (belowMixed a b).1 (belowMixed a b).2 = false := by
  induction a, b using belowMixed.induct with
  | case1 x l access y k =>
    rw [belowMixed, if_pos rfl]
    exact ⟨rfl, halike, hplain, by simp [areMixedRefs]⟩
  | case2 access x l access' y k hmixed ih =>
    rw [Alike, outline, outline, ref.injEq] at halike
    rw [isPlain] at hplain
    obtain ⟨hpairs, hbelow⟩ := ih halike.2.1 hplain
    have hskipped : isEqualPair (.ref access x l, .ref access' y k) = false := by
      simp [isEqualPair, areMixedRefs, hmixed]
    rw [belowMixed, if_neg hmixed, equalPairs_single, List.filter_cons_of_neg (by simp [hskipped]),
      List.filter_nil, List.append_nil]
    exact ⟨hpairs, hbelow⟩
  | case3 a b hnot =>
    have hsame : belowMixed a b = (a, b) := by
      rw [belowMixed]
      exact hnot
    have hunmixed : areMixedRefs a b = false := by
      cases a <;> cases b <;> first | rfl | exact absurd rfl (hnot _ _ _ _ _ _ rfl)
    rw [hsame]
    exact ⟨rfl, halike, hplain, hunmixed⟩

/-- A walk over plain types with one outline meets types with one outline, and plain ones. -/
lemma outline_of_mem_met {strict : Bool} {a b : Ty} (h : a.outline strict = b.outline strict)
    (hplain : a.isPlain = true) {pair : Ty × Ty} (hpair : pair ∈ met a b) :
    pair.1.outline strict = pair.2.outline strict ∧ pair.1.isPlain = true := by
  rw [met_eq] at hpair
  rcases List.mem_append.1 hpair with hbelow | hself
  · obtain ⟨⟨x, y⟩, hxy, hmet⟩ := List.mem_flatMap.1 hbelow
    obtain ⟨houtline, hxplain⟩ := outline_of_mem_parts h hplain hxy
    exact outline_of_mem_met houtline hxplain hmet
  · obtain rfl := List.mem_singleton.1 hself
    exact ⟨h, hplain⟩
termination_by sizeOf a
decreasing_by exact sizeOf_lt_of_mem_parts hxy

lemma outline_of_mem_equalPairs {strict : Bool} {a b : Ty}
    (h : a.outline strict = b.outline strict) (hplain : a.isPlain = true) {pair : Ty × Ty}
    (hpair : pair ∈ equalPairs [(a, b)]) :
    pair.1.outline strict = pair.2.outline strict ∧ pair.1.isPlain = true := by
  obtain ⟨q, hq, hmet⟩ := List.mem_flatMap.1 (List.mem_filter.1 hpair).1
  obtain rfl := List.mem_singleton.1 hq
  exact outline_of_mem_met h hplain hmet

lemma isDyn_of_isPlain {t : Ty} (h : t.isPlain = true) : t.isDyn = false := by
  cases t <;> first | rfl | cases h

/-- Two plain types are found equal unless they are mixed references. -/
lemma mem_equalPairs_self {a b : Ty} (ha : a.isPlain = true) (hb : b.isPlain = true)
    (hunmixed : areMixedRefs a b = false) : (a, b) ∈ equalPairs [(a, b)] := by
  have hequal : isEqualPair (a, b) = true := by
    simp [isEqualPair, isDyn_of_isPlain ha, isDyn_of_isPlain hb, hunmixed]
  rw [equalPairs_single]
  exact List.mem_append_right _ (List.mem_filter.2 ⟨List.mem_singleton_self _, hequal⟩)

end Ty

namespace Store

variable {s : Store} {pairs : List (Ty × Ty)}

/-- The types of a pair are, maybe in other spellings, members of one set. -/
lemma Reflects.exists_members_of_mem (h : s.Reflects pairs) {pair : Ty × Ty}
    (hpair : pair ∈ pairs) :
    ∃ r, ∃ t ∈ s.members r, ∃ u ∈ s.members r, (pair.1 == t) = true ∧ (pair.2 == u) = true := by
  have hcoherent := h.sound.coherent
  have hlinked : s.Linked pair.1 pair.2 := (h.linked_iff _ _).2 (.rel _ _ (.inr hpair))
  obtain ⟨r, hr⟩ := (Store.contains_iff s pair.1).1 ((h.contains_iff _).2 ⟨_, hpair, .inl BEq.rfl⟩)
  obtain ⟨t, ht, hpt⟩ := hcoherent.exists_mem_of_setOf hr
  obtain ⟨u, hu, hpu⟩ := hcoherent.exists_mem_of_setOf (hlinked.setOf_eq.symm.trans hr)
  exact ⟨r, t, ht, u, hu, hpt, hpu⟩

/-- If the types of all pairs have one outline, so have the members of each set. -/
lemma Reflects.outline_eq (h : s.Reflects pairs) {strict : Bool}
    (hpairs : ∀ pair ∈ pairs, pair.1.outline strict = pair.2.outline strict) {t u : Ty} {r : ℕ}
    (ht : t ∈ s.members r) (hu : u ∈ s.members r) : t.outline strict = u.outline strict := by
  have hlinked : s.Linked t u :=
    .of_setOf (h.sound.coherent.setOf_of_mem ht) (h.sound.coherent.setOf_of_mem hu)
  have hchain := (h.linked_iff t u).1 hlinked
  clear hlinked ht hu
  induction hchain with
  | rel t u hstated =>
    rcases hstated with htu | hmem
    · exact Ty.Agrees.of_beq htu strict
    · exact hpairs (t, u) hmem
  | refl t => rfl
  | symm _ _ _ ih => exact ih.symm
  | trans _ _ _ _ _ ih ih' => exact ih.trans ih'

/-- If the types of all pairs are alike and plain, so are the members of each set. -/
lemma Reflects.alikeSets (h : s.Reflects pairs)
    (hpairs : ∀ pair ∈ pairs, pair.1.Alike pair.2 ∧ pair.1.isPlain = true) : s.AlikeSets where
  plain r t ht := by
    obtain ⟨pair, hpair, ht'⟩ := h.exists_pair_of_mem ht
    obtain ⟨halike, hplain⟩ := hpairs pair hpair
    rcases ht' with ht' | ht'
    · rw [(Ty.Agrees.of_beq ht').alike.isPlain_eq, hplain]
    · rw [(Ty.Agrees.of_beq ht').alike.isPlain_eq, ← halike.isPlain_eq, hplain]
  alike r t ht u hu := h.outline_eq (fun pair hpair => (hpairs pair hpair).1) ht hu

end Store

namespace Resolver

/-- Two types that differ in kinds of references and in lifetimes alone can be found equal.  Then a
new resolver answers for all sets exactly if the types agree below the mixed references at their
top: in all places where types are compared, they have references of one kind, and equal
dereferences and data structures. -/
theorem resolves_iff_agrees {a b : Ty} (hplain : a.isPlain = true)
    (hsame : (a.loosen == b.loosen) = true) :
    ∃ e, (Evidence.empty .union).equate a b = (e, none) ∧
      ((∀ r ∈ e.store.refs, ∃ t, (resolve e.store r ∅).1 = .ok (some t)) ↔
        (Ty.belowMixed a b).1.Agrees (Ty.belowMixed a b).2) := by
  have halike : a.Alike b := .of_loosen hsame
  have hclash := halike.clash_align hplain
  have hequate : (Evidence.empty .union).equate a b =
      (((Evidence.empty .union).equate a b).1, none) := by
    rw [Evidence.equate, Evidence.learn, hclash]
  refine ⟨_, hequate, ?_⟩
  generalize ((Evidence.empty .union).equate a b).1 = e at hequate ⊢
  have hall : (Evidence.empty .union).equateAll [(a, b)] = (e, none) := by
    rw [Evidence.equateAll, hequate]
    rfl
  have hreflects := Evidence.reflects_of_equateAll hall
  obtain ⟨hpairs, hbelow, hbelow_plain, hunmixed⟩ := Ty.belowMixed_spec halike hplain
  rw [hpairs] at hreflects
  generalize Ty.belowMixed a b = below at hreflects hbelow hbelow_plain hunmixed ⊢
  obtain ⟨x, y⟩ := below
  have hsets := hreflects.alikeSets fun pair hpair =>
    Ty.outline_of_mem_equalPairs hbelow hbelow_plain hpair
  rw [resolves_iff_agreeingSets hreflects.sound.coherent hsets]
  constructor
  · intro hagree
    have hy_plain : y.isPlain = true := by rw [← hbelow.isPlain_eq, hbelow_plain]
    have hmem := Ty.mem_equalPairs_self hbelow_plain hy_plain hunmixed
    obtain ⟨r, t, ht, u, hu, hxt, hyu⟩ := hreflects.exists_members_of_mem hmem
    exact (Ty.Agrees.of_beq hxt).trans ((hagree r t ht u hu).trans (Ty.Agrees.of_beq hyu).symm)
  · intro hagrees r t ht u hu strict
    exact hreflects.outline_eq
      (fun pair hpair => (Ty.outline_of_mem_equalPairs (hagrees strict) hbelow_plain hpair).1) ht hu

/-- `Vec` of shared references to `P`. -/
def borrowings (l : Option Lifetime) : Ty :=
  .path ⟨false, [], ⟨"Vec", .angle [.type (.ref .shared (.param ⟨0, "P"⟩) l)]⟩⟩

/-- A shared and a mutable reference side by side, with lifetimes below that are not the same. -/
theorem resolves_borrowings :
    let a := Ty.ref .shared (.tuple [borrowings none]) none
    let b := Ty.ref .mutable (.tuple [borrowings (some ⟨0, "a"⟩)]) none
    a.isPlain = true ∧ (a.loosen == b.loosen) = true ∧
      ∃ e, (Evidence.empty .union).equate a b = (e, none) ∧
        ∀ r ∈ e.store.refs, ∃ t, (resolve e.store r ∅).1 = .ok (some t) := by
  intro a b
  have hplain : a.isPlain = true := by decide +kernel
  have hsame : (a.loosen == b.loosen) = true := by decide +kernel
  obtain ⟨e, hequate, hiff⟩ := resolves_iff_agrees hplain hsame
  refine ⟨hplain, hsame, e, hequate, hiff.2 fun strict => ?_⟩
  cases strict <;> rfl

/-- The two kinds of reference as the elements of tuples. -/
theorem resolve_mixed_tuples :
    let a := Ty.tuple [.ref .shared (.param ⟨0, "P"⟩) none]
    let b := Ty.tuple [.ref .mutable (.param ⟨0, "P"⟩) none]
    a.isPlain = true ∧ (a.loosen == b.loosen) = true ∧
      ((Evidence.empty .union).equate a b).2 = none ∧
      ∃ r ∈ ((Evidence.empty .union).equate a b).1.store.refs,
        (resolve ((Evidence.empty .union).equate a b).1.store r ∅).1 =
          .error (.ofCause (.incompatible (.ref .shared (.param ⟨0, "P"⟩) none)
            (.ref .mutable (.param ⟨0, "P"⟩) none))) := by
  intro a b
  have hplain : a.isPlain = true := by decide +kernel
  have hsame : (a.loosen == b.loosen) = true := by decide +kernel
  have hequate : ((Evidence.empty .union).equate a b).2 = none := by cbv
  have href : 1 ∈ ((Evidence.empty .union).equate a b).1.store.refs := by decide +kernel
  have hrun : (resolve ((Evidence.empty .union).equate a b).1.store (1 : ℕ) ∅).1 =
      .error (.ofCause (.incompatible (.ref .shared (.param ⟨0, "P"⟩) none)
        (.ref .mutable (.param ⟨0, "P"⟩) none))) := by cbv
  exact ⟨hplain, hsame, hequate, 1, href, hrun⟩

end Resolver

end WhereClause
