import WhereClause.Proofs.Equality.Operations
import WhereClause.Proofs.Equality.Walk

/-!
# Equality sets are the classes of an equivalence

A walk over two types meets pairs that say of two types that they are equal (`Ty.isEqualPair`) and
pairs of a trait object and another type.  After calls that all return, two types share a set
exactly if the equal pairs that were met relate them, by way of however many others.

`Store.Reflects` is the invariant: the store links two types exactly if the pairs found equal so far
generate the link, and it knows exactly the types of those pairs.  Finding one more pair equal adds
that pair and nothing else, whatever sets are founded, joined or folded for it.
-/

namespace WhereClause

open Relation (EqvGen)

/-- What pairs of equal types say directly: equal types are one, and so are those of a pair. -/
def Ty.Stated (pairs : List (Ty × Ty)) (t u : Ty) : Prop := (t == u) = true ∨ (t, u) ∈ pairs

lemma Ty.Stated.append {pairs : List (Ty × Ty)} {t u : Ty} (h : Ty.Stated pairs t u)
    (more : List (Ty × Ty)) : Ty.Stated (pairs ++ more) t u :=
  h.imp id fun hmem => List.mem_append_left more hmem

namespace Store

/-! ## What a store reflects -/

/-- A store links what pairs of equal types generate, and knows the types of the pairs. -/
structure Reflects (s : Store) (pairs : List (Ty × Ty)) : Prop where
  sound : s.Sound
  linked_iff : ∀ t u, s.Linked t u ↔ EqvGen (Ty.Stated pairs) t u
  contains_iff : ∀ t, s.contains t = true ↔
    ∃ pair ∈ pairs, (t == pair.1) = true ∨ (t == pair.2) = true

lemma reflects_empty : (empty .union).Reflects [] where
  sound := sound_empty
  linked_iff t u := by
    constructor
    · rintro (h | ⟨r, hr, -⟩)
      · exact .rel _ _ (.inl h)
      · cases hr
    · intro h
      induction h with
      | rel t u h => exact .inl (h.resolve_right List.not_mem_nil)
      | refl t => exact .refl _ t
      | symm _ _ _ ih => exact ih.symm
      | trans _ _ _ _ _ ih ih' => exact ih.trans ih'
  contains_iff t := by simp [contains]

namespace Reflects

variable {s : Store} {pairs : List (Ty × Ty)}

/-- Finding two types equal adds their pair. -/
lemma merge (h : s.Reflects pairs) (a b : Ty) : (s.merge a b).Reflects (pairs ++ [(a, b)]) where
  sound := (Change.merge s a b).sound h.sound
  linked_iff t u := by
    have hold : ∀ {v w : Ty}, s.Linked v w → EqvGen (Ty.Stated (pairs ++ [(a, b)])) v w :=
      fun {v w} hvw => ((h.linked_iff v w).1 hvw).mono fun _ _ hstated => hstated.append _
    have hnew : EqvGen (Ty.Stated (pairs ++ [(a, b)])) a b := .rel _ _ (.inr (by simp))
    have hjoined : ∀ {v : Ty}, s.Linked v a ∨ s.Linked v b →
        EqvGen (Ty.Stated (pairs ++ [(a, b)])) v a := by
      rintro v (hv | hv)
      · exact hold hv
      · exact (hold hv).trans _ _ _ (hnew.symm _ _)
    constructor
    · intro htu
      rcases linked_of_linked_merge h.sound.coherent h.sound.mode a b htu with htu | ⟨ht, hu⟩
      · exact hold htu
      · exact (hjoined ht).trans _ _ _ ((hjoined hu).symm _ _)
    · intro htu
      induction htu with
      | rel t u hstated =>
        rcases hstated with htu | hmem
        · exact .inl htu
        · rcases List.mem_append.1 hmem with hmem | hmem
          · have hlinked : s.Linked t u := (h.linked_iff t u).2 (.rel _ _ (.inr hmem))
            exact hlinked.merge h.sound.coherent h.sound.mode a b
          · obtain ⟨rfl, rfl⟩ := Prod.mk.inj (List.mem_singleton.1 hmem)
            exact linked_merge_self h.sound.coherent h.sound.mode t u
      | refl t => exact .refl _ t
      | symm _ _ _ ih => exact ih.symm
      | trans _ _ _ _ _ ih ih' => exact ih.trans ih'
  contains_iff t := by
    rw [contains_merge h.sound.coherent h.sound.mode, h.contains_iff]
    simp [or_and_right, exists_or]

/-- The call in force does not matter. -/
lemma turn (h : s.Reflects pairs) (current : Option (String × Option Site)) :
    Reflects { s with current } pairs where
  sound := (Change.turn s current).sound h.sound
  linked_iff := h.linked_iff
  contains_iff := h.contains_iff

/-- Two types that are not equal share a set exactly if the pairs generate that they do. -/
lemma exists_members_iff (h : s.Reflects pairs) {t u : Ty} (htu : (t == u) = false) :
    (∃ r, (s.members r).contains t = true ∧ (s.members r).contains u = true) ↔
      EqvGen (Ty.Stated pairs) t u := by
  rw [← h.linked_iff]
  constructor
  · rintro ⟨r, ht, hu⟩
    have htr : s.setOf t = some r := (h.sound.coherent.setOf_iff t r).2 ht
    have hur : s.setOf u = some r := (h.sound.coherent.setOf_iff u r).2 hu
    exact .of_setOf htr hur
  · rintro (heq | ⟨r, ht, hu⟩)
    · simp [htu] at heq
    · exact ⟨r, h.sound.coherent.contains_members ht, h.sound.coherent.contains_members hu⟩

/-- A member of a set is a type of a pair. -/
lemma exists_pair_of_mem (h : s.Reflects pairs) {t : Ty} {r : ℕ} (ht : t ∈ s.members r) :
    ∃ pair ∈ pairs, (t == pair.1) = true ∨ (t == pair.2) = true := by
  have hin : (s.members r).contains t = true :=
    List.contains_iff_exists_mem_beq.2 ⟨t, ht, BEq.rfl⟩
  exact (h.contains_iff t).1
    ((Store.contains_iff s t).2 ⟨r, (h.sound.coherent.setOf_iff t r).2 hin⟩)

end Reflects

end Store

/-! ## Taking the steps of a walk -/

namespace Evidence

lemma takeAll_append (e : Evidence) (xs ys : List Step) :
    e.takeAll (xs ++ ys) = (e.takeAll xs).takeAll ys := List.foldl_append

lemma reflects_takeAll {e : Evidence} {pairs : List (Ty × Ty)} (h : e.store.Reflects pairs)
    (steps : List Step) :
    (e.takeAll steps).store.Reflects (pairs ++ steps.filterMap Step.merged) := by
  induction steps generalizing e pairs with
  | nil => simpa [takeAll] using h
  | cons step steps ih =>
    cases step with
    | merge a b =>
      have hmerged : (e.take (.merge a b)).store.Reflects (pairs ++ [(a, b)]) := by
        rw [store_take_merge]
        exact h.merge a b
      simpa [Step.merged, takeAll] using ih hmerged
    | constrain t bounds =>
      have hkept : (e.take (.constrain t bounds)).store.Reflects pairs := by
        rwa [store_take_constrain]
      rw [List.filterMap_cons_none (show (Step.constrain t bounds).merged = none from rfl)]
      exact ih hkept

lemma candidates_take_merge (e : Evidence) (a b : Ty) :
    (e.take (.merge a b)).candidates = e.candidates := by
  simp only [take, tell]
  split <;> rfl

lemma candidates_take_constrain (e : Evidence) (t : Ty) (bounds : List Bound) :
    (e.take (.constrain t bounds)).candidates.toList =
      Distinct.add e.candidates.toList (.type t bounds []) := by
  by_cases hin : e.candidates.contains (.type t bounds []) = true
  · rw [take, if_pos hin, Distinct.add_of_contains hin]
  · rw [take, if_neg hin]
    rfl

lemma candidates_takeAll (e : Evidence) (steps : List Step) :
    (e.takeAll steps).candidates.toList =
      (steps.filterMap Step.demanded).foldl Distinct.add e.candidates.toList := by
  induction steps generalizing e with
  | nil => rfl
  | cons step steps ih =>
    have hcons : e.takeAll (step :: steps) = (e.take step).takeAll steps := rfl
    cases step with
    | merge a b => rw [hcons, ih, candidates_take_merge]; rfl
    | constrain t bounds => rw [hcons, ih, candidates_take_constrain]; rfl

/-- Types are found equal call by call, up to the first call that fails. -/
def equateAll (e : Evidence) : List (Ty × Ty) → Evidence × Option Cause
  | [] => (e, none)
  | (a, b) :: rest =>
    match e.equate a b with
    | (e, some cause) => (e, some cause)
    | (e, none) => e.equateAll rest

/-- Calls that all return take the lessons of their walks, and no other steps. -/
lemma eq_takeAll_of_equateAll {e e' : Evidence} {pairs : List (Ty × Ty)}
    (h : e.equateAll pairs = (e', none)) : e' = e.takeAll (Ty.lessons pairs) := by
  induction pairs generalizing e with
  | nil => exact (congrArg Prod.fst h).symm
  | cons pair rest ih =>
    obtain ⟨a, b⟩ := pair
    rw [equateAll, equate, learn] at h
    rcases hclash : (a.align b).clash with _ | cause
    · rw [hclash] at h
      rw [ih h, Ty.steps_align a b hclash, ← takeAll_append, ← Ty.lessons_append,
        List.singleton_append]
    · rw [hclash] at h
      cases congrArg Prod.snd h

end Evidence

/-! ## The main result -/

/-- The equal pairs that the walks over several pairs of types meet. -/
def Ty.equalPairs (pairs : List (Ty × Ty)) : List (Ty × Ty) :=
  (Ty.metBelow pairs).filter Ty.isEqualPair

/-- What trait objects demand in the walks over several pairs of types, in the order met. -/
def Ty.demands (pairs : List (Ty × Ty)) : List Constraint :=
  (Ty.metBelow pairs).filterMap Ty.demand

lemma Ty.merged_lessons (pairs : List (Ty × Ty)) :
    (Ty.lessons pairs).filterMap Step.merged = Ty.equalPairs pairs := by
  rw [Ty.lessons, List.filterMap_filterMap, Ty.equalPairs, ← List.filterMap_eq_filter]
  congr 1
  funext pair
  rw [Ty.bind_lesson_merged]
  rfl

lemma Ty.demanded_lessons (pairs : List (Ty × Ty)) :
    (Ty.lessons pairs).filterMap Step.demanded = Ty.demands pairs := by
  rw [Ty.lessons, List.filterMap_filterMap, Ty.demands]
  congr 1
  funext pair
  exact Ty.bind_lesson_demanded pair

lemma Ty.isDyn_congr {t u : Ty} (h : (t == u) = true) : t.isDyn = u.isDyn := by
  have h' : Ty.same t u = true := h
  cases t <;> cases u <;> first | rfl | simp [Ty.same] at h'

/-- A store made by calls reflects the equal pairs of their walks. -/
lemma Evidence.reflects_of_equateAll {e : Evidence} {pairs : List (Ty × Ty)}
    (h : (Evidence.empty .union).equateAll pairs = (e, none)) :
    e.store.Reflects (Ty.equalPairs pairs) := by
  have h0 : (Evidence.empty .union).store.Reflects [] := Store.reflects_empty
  rw [eq_takeAll_of_equateAll h, ← Ty.merged_lessons]
  simpa using reflects_takeAll h0 (Ty.lessons pairs)

/-- After calls that all return, two types that are not equal are members of one set exactly if the
least equivalence that holds of the equal pairs relates them.  The known types are those of equal
pairs, so no trait object is a member of a set.  What trait objects demand of the types lined up
with them is emitted in the order met, without repeats. -/
theorem common_set_iff_eqvGen {pairs : List (Ty × Ty)} {e : Evidence}
    (h : (Evidence.empty .union).equateAll pairs = (e, none)) :
    (∀ t u, (t == u) = false →
      ((∃ r, (e.store.members r).contains t = true ∧ (e.store.members r).contains u = true) ↔
        EqvGen (Ty.Stated (Ty.equalPairs pairs)) t u)) ∧
      (∀ t, e.store.contains t = true ↔
        ∃ pair ∈ Ty.equalPairs pairs, (t == pair.1) = true ∨ (t == pair.2) = true) ∧
      (∀ r, ∀ t ∈ e.store.members r, t.isDyn = false) ∧
      e.candidates.toList = Distinct.ofList (Ty.demands pairs) := by
  have hr := Evidence.reflects_of_equateAll h
  refine ⟨fun t u htu => hr.exists_members_iff htu, hr.contains_iff, ?_, ?_⟩
  · intro r t ht
    obtain ⟨pair, hpair, ht'⟩ := hr.exists_pair_of_mem ht
    have hequal := (List.mem_filter.1 hpair).2
    simp only [Ty.isEqualPair, Bool.and_eq_true, Bool.not_eq_true'] at hequal
    rcases ht' with ht' | ht'
    · rw [Ty.isDyn_congr ht', hequal.1.1]
    · rw [Ty.isDyn_congr ht', hequal.1.2]
  · rw [Evidence.eq_takeAll_of_equateAll h, Evidence.candidates_takeAll, Ty.demanded_lessons]
    rfl

/-- Two tuples of references, paths, and a trait object beside another type. -/
def Ty.walkedTuples : Ty × Ty :=
  (.tuple [.ref .shared (.param ⟨1, "Q"⟩) none,
      .path (.ofName "Vec" [.type (.param ⟨2, "T"⟩)]), .dyn [.trait (.ofName "Clone" []) []]],
    .tuple [.ref .mutable (.param ⟨2, "T"⟩) none,
      .path (.ofName "List" [.type .str]), .param ⟨3, "U"⟩])

/-- Two calls, of which the second leads the walk into all kinds of types. -/
def Ty.walkedCalls : List (Ty × Ty) :=
  [(.param ⟨0, "P"⟩, .param ⟨1, "Q"⟩), Ty.walkedTuples]

/-- `P` and the string type share a set by way of `Q` and `T`, and `U` must satisfy the bound of
the trait object without being a member of a set. -/
theorem common_set_of_walked_calls :
    let e := ((Evidence.empty .union).equateAll Ty.walkedCalls).1
    (Evidence.empty .union).equateAll Ty.walkedCalls = (e, none) ∧
      (∃ r, (e.store.members r).contains (.param ⟨0, "P"⟩) = true ∧
        (e.store.members r).contains .str = true) ∧
      e.store.contains (.param ⟨3, "U"⟩) = false ∧
      e.candidates.toList = [.type (.param ⟨3, "U"⟩) [.trait (.ofName "Clone" []) []] []] := by
  intro e
  have h : (Evidence.empty .union).equateAll Ty.walkedCalls = (e, none) := by
    have hreturns : ((Evidence.empty .union).equateAll Ty.walkedCalls).2.isNone = true := by
      decide +kernel
    rw [← Option.isNone_iff_eq_none.1 hreturns]
  obtain ⟨hcommon, hknown, -, hcandidates⟩ := common_set_iff_eqvGen h
  -- all pairs met are equal pairs except `&Q` with `&mut T` and the object with `U`
  have hpairs : Ty.equalPairs Ty.walkedCalls =
      [(.param ⟨0, "P"⟩, .param ⟨1, "Q"⟩), (.param ⟨1, "Q"⟩, .param ⟨2, "T"⟩),
        (.param ⟨2, "T"⟩, .str),
        (.path (.ofName "Vec" [.type (.param ⟨2, "T"⟩)]), .path (.ofName "List" [.type .str])),
        Ty.walkedTuples] := by
    simp [Ty.equalPairs, Ty.walkedCalls, Ty.walkedTuples, Ty.parts, Args.parts, Path.ofName,
      Arg.bothTypes, Ty.isEqualPair, Ty.areMixedRefs, Ty.isDyn]
  have hchain : EqvGen (Ty.Stated (Ty.equalPairs Ty.walkedCalls)) (.param ⟨0, "P"⟩) .str := by
    have hstated : ∀ {t u : Ty}, (t, u) ∈ Ty.equalPairs Ty.walkedCalls →
        EqvGen (Ty.Stated (Ty.equalPairs Ty.walkedCalls)) t u := fun hmem => .rel _ _ (.inr hmem)
    have hPQ := hstated (t := .param ⟨0, "P"⟩) (u := .param ⟨1, "Q"⟩) (by simp [hpairs])
    have hQT := hstated (t := .param ⟨1, "Q"⟩) (u := .param ⟨2, "T"⟩) (by simp [hpairs])
    exact hPQ.trans _ _ _ (hQT.trans _ _ _ (hstated (by simp [hpairs])))
  refine ⟨h, (hcommon _ _ (by decide +kernel)).2 hchain, ?_, ?_⟩
  · rw [Bool.eq_false_iff, ne_eq, hknown, hpairs]
    decide +kernel
  · rw [hcandidates]
    simp [Ty.demands, Ty.walkedCalls, Ty.walkedTuples, Ty.parts, Args.parts, Path.ofName,
      Arg.bothTypes]
    rfl

end WhereClause
