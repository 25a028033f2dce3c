import Mathlib
import WhereClause.Malformed
import WhereClause.Proofs.Equality.Classes

/-!
# Components of types that share a set

A walk finds the corresponding components of two types equal before it finds the types equal.  So
types of one outer shape whose equality was found by walking them against one another, in however
many steps, have corresponding components in one set (`linked_component_of_matched`).

Nothing is walked when two sets become one, or when a type joins the set of a third.  So types of one
outer shape may share a set while their components have nothing to do with one another: `Vec<T>` and
`Vec<P>` do after both were found equal to a parameter (`not_congruent_of_vectors`).
-/

namespace WhereClause

open Relation (EqvGen)

/-! ## Outer shapes and components -/

/-- Whether two references grant the same access, two tuples have equally many elements, or the last
segments of two paths have equally many arguments in angle brackets. -/
def Ty.SameShape : Ty → Ty → Prop
  | .ref access _ _, .ref access' _ _ => access = access'
  | .tuple xs, .tuple ys => xs.length = ys.length
  | .path p, .path q =>
    match p.last.args, q.last.args with
    | .angle as, .angle bs => as.length = bs.length
    | _, _ => False
  | _, _ => False

def Args.component? : Args → ℕ → Option Ty
  | .angle as, k => as[k]?.bind Arg.type?
  | _, _ => Option.none

/-- What a reference points to, an element of a tuple, or a type among the arguments of the last
segment of a path, by position. -/
def Ty.component? : Ty → ℕ → Option Ty
  | .ref _ t _, 0 => some t
  | .tuple ts, k => ts[k]?
  | .path p, k => p.last.args.component? k
  | _, _ => none

/-- The components that types of one outer shape have in one position are walked against one
another. -/
lemma Ty.mem_parts_of_component? {t u x y : Ty} {k : ℕ} (h : t.SameShape u)
    (hx : t.component? k = some x) (hy : u.component? k = some y) : (x, y) ∈ Ty.parts t u := by
  cases t <;> cases u <;> simp only [Ty.SameShape] at h
  case ref.ref =>
    cases k with
    | zero =>
      obtain rfl := Option.some.inj hx
      obtain rfl := Option.some.inj hy
      exact List.mem_singleton_self _
    | succ k => cases hx
  case tuple.tuple xs ys =>
    rw [Ty.parts, if_pos h]
    exact List.mem_of_getElem? (List.getElem?_zip_eq_some.2 ⟨hx, hy⟩)
  case path.path p q =>
    rw [Ty.parts]
    rw [Ty.component?] at hx hy
    generalize p.last.args = as at h hx ⊢
    generalize q.last.args = bs at h hy ⊢
    cases as <;> cases bs <;> simp only at h
    rename_i as bs
    obtain ⟨a, ha, hax⟩ := Option.bind_eq_some_iff.1 hx
    obtain ⟨b, hb, hby⟩ := Option.bind_eq_some_iff.1 hy
    have hab : (a, b) ∈ as.zip bs := List.mem_of_getElem? (List.getElem?_zip_eq_some.2 ⟨ha, hb⟩)
    cases a <;> cases hax
    cases b <;> cases hby
    rw [Args.parts, if_pos h]
    exact List.mem_filterMap.2 ⟨_, hab, rfl⟩

/-! ## Components are walked where types are -/

lemma Ty.mem_met_self (a b : Ty) : (a, b) ∈ Ty.met a b := by
  rw [Ty.met_eq]
  exact List.mem_append_right _ (List.mem_singleton_self _)

/-- A walk that meets a pair meets what the walk over that pair goes on to. -/
lemma Ty.mem_met_of_mem_parts {a b t u x y : Ty} (h : (t, u) ∈ Ty.met a b)
    (hxy : (x, y) ∈ Ty.parts t u) : (x, y) ∈ Ty.met a b := by
  rw [Ty.met_eq] at h ⊢
  refine List.mem_append_left _ (List.mem_flatMap.2 ?_)
  rcases List.mem_append.1 h with h | h
  · obtain ⟨q, hq, hmet⟩ := List.mem_flatMap.1 h
    have hlt : sizeOf q.1 < sizeOf a := Ty.sizeOf_lt_of_mem_parts hq
    exact ⟨q, hq, Ty.mem_met_of_mem_parts hmet hxy⟩
  · obtain ⟨rfl, rfl⟩ := Prod.mk.inj (List.mem_singleton.1 h)
    exact ⟨(x, y), hxy, Ty.mem_met_self x y⟩
termination_by sizeOf a

lemma Ty.mem_equalPairs_of_mem_parts {pairs : List (Ty × Ty)} {t u x y : Ty}
    (h : (t, u) ∈ Ty.equalPairs pairs) (hxy : (x, y) ∈ Ty.parts t u)
    (hequal : Ty.isEqualPair (x, y) = true) : (x, y) ∈ Ty.equalPairs pairs := by
  obtain ⟨hmet, -⟩ := List.mem_filter.1 h
  obtain ⟨q, hq, hmet⟩ := List.mem_flatMap.1 hmet
  exact List.mem_filter.2 ⟨List.mem_flatMap.2 ⟨q, hq, Ty.mem_met_of_mem_parts hmet hxy⟩, hequal⟩

/-! ## Components of equal types are equal -/

lemma Ty.component?_rename (ρ : Renaming) (t : Ty) (k : ℕ) :
    (t.rename ρ).component? k = (t.component? k).map (Ty.rename ρ) := by
  cases t with
  | ref access t l => cases k <;> simp [Ty.rename, Ty.component?]
  | tuple ts => simp [Ty.rename, Ty.component?, Ty.renameEach_eq_map]
  | path p =>
    obtain ⟨isGlobal, init, ⟨name, as⟩⟩ := p
    cases as with
    | angle as =>
      simp only [Ty.rename, Path.rename, Segment.rename, Args.rename, Ty.component?,
        Args.component?, Arg.renameEach_eq_map, List.getElem?_map]
      rcases as[k]? with _ | (t | l) <;> rfl
    | none | paren _ _ =>
      simp [Ty.rename, Path.rename, Segment.rename, Args.rename, Ty.component?, Args.component?]
  | _ => simp [Ty.rename, Ty.component?]

/-- Of two equal types both have a component in a position, and these are equal, or none has. -/
lemma Ty.rel_component?_of_beq {t u : Ty} (h : (t == u) = true) {R : Ty → Ty → Prop}
    (hR : ∀ {x y}, (x == y) = true → R x y) (k : ℕ) :
    Option.Rel R (t.component? k) (u.component? k) := by
  have hview : (t.component? k).map (Ty.rename .anonymous) =
      (u.component? k).map (Ty.rename .anonymous) := by
    rw [← Ty.component?_rename, ← Ty.component?_rename, (Ty.same_iff t u).1 h]
  generalize t.component? k = x at hview ⊢
  generalize u.component? k = y at hview ⊢
  cases x <;> cases y <;> simp only [Option.map_none, Option.map_some, reduceCtorEq,
    Option.some.injEq] at hview
  · exact .none
  · exact .some (hR ((Ty.same_iff _ _).2 hview))

/-! ## Chains of types of one outer shape -/

/-- Two types are equal, or they are a pair of one outer shape whose components in a position make an
equal pair. -/
def Ty.Matched (pairs : List (Ty × Ty)) (k : ℕ) (t u : Ty) : Prop :=
  (t == u) = true ∨ (t, u) ∈ pairs ∧ t.SameShape u ∧
    ∃ x y, t.component? k = some x ∧ u.component? k = some y ∧ Ty.isEqualPair (x, y) = true

namespace Store

variable {s : Store}

/-- Two members of one set that have one outer shape have their components in one set, unless there
is a trait object among them or they are a shared and a mutable reference. -/
def Congruent (s : Store) : Prop :=
  ∀ r, ∀ t ∈ s.members r, ∀ u ∈ s.members r, t.SameShape u →
    ∀ k x y, t.component? k = some x → u.component? k = some y → Ty.isEqualPair (x, y) = true →
      s.Linked x y

lemma equivalence_rel_linked (s : Store) : Equivalence (Option.Rel s.Linked) where
  refl x := by
    cases x with
    | none => exact .none
    | some x => exact .some (.refl s x)
  symm h := by
    cases h with
    | none => exact .none
    | some h => exact .some h.symm
  trans h h' := by
    cases h with
    | none => exact h'
    | some h =>
      cases h' with
      | some h' => exact .some (h.trans h')

/-- Types that are matched are linked, and so are their components. -/
lemma Reflects.linked_of_matched {calls : List (Ty × Ty)} (h : s.Reflects (Ty.equalPairs calls))
    {k : ℕ} {t u : Ty} (htu : EqvGen (Ty.Matched (Ty.equalPairs calls) k) t u) :
    s.Linked t u ∧ Option.Rel s.Linked (t.component? k) (u.component? k) := by
  have hstated : ∀ {v w : Ty}, (v, w) ∈ Ty.equalPairs calls → s.Linked v w :=
    fun hmem => (h.linked_iff _ _).2 (.rel _ _ (.inr hmem))
  have hequivalence : Equivalence fun t u =>
      s.Linked t u ∧ Option.Rel s.Linked (t.component? k) (u.component? k) :=
    ⟨fun t => ⟨.refl s t, s.equivalence_rel_linked.refl _⟩,
      fun h => ⟨h.1.symm, s.equivalence_rel_linked.symm h.2⟩,
      fun h h' => ⟨h.1.trans h'.1, s.equivalence_rel_linked.trans h.2 h'.2⟩⟩
  refine hequivalence.eqvGen_iff.1 (htu.mono fun t u hmatched => ?_)
  rcases hmatched with htu | ⟨hmem, hshape, x, y, hx, hy, hequal⟩
  · exact ⟨.inl htu, Ty.rel_component?_of_beq htu .inl k⟩
  · have hxy := Ty.mem_parts_of_component? hshape hx hy
    rw [hx, hy]
    exact ⟨hstated hmem, .some (hstated (Ty.mem_equalPairs_of_mem_parts hmem hxy hequal))⟩

end Store

/-! ## What shares a set with what -/

/-- After calls that all return, take two types that a chain connects in which neighbours are equal,
or are a pair of one outer shape that was walked and of which the components in a position are
neither trait objects nor a shared and a mutable reference.  The two types are equal or in one set,
and so are their components in that position. -/
theorem linked_component_of_matched {calls : List (Ty × Ty)} {e : Evidence}
    (h : (Evidence.empty .union).equateAll calls = (e, none)) {k : ℕ} {t u x y : Ty}
    (htu : EqvGen (Ty.Matched (Ty.equalPairs calls) k) t u) (hx : t.component? k = some x)
    (hy : u.component? k = some y) : e.store.Linked t u ∧ e.store.Linked x y := by
  obtain ⟨hlinked, hcomponents⟩ := (Evidence.reflects_of_equateAll h).linked_of_matched htu
  rw [hx, hy] at hcomponents
  cases hcomponents with
  | some hxy => exact ⟨hlinked, hxy⟩

/-- The path `Vec<p>`. -/
def Ty.vectorOf (p : Param) : Ty := .path (.ofName "Vec" [.type (.param p)])

/-- Vectors of `P` and of `Q` go where vectors of `T` are expected. -/
def Ty.vectorCalls : List (Ty × Ty) :=
  [(.vectorOf ⟨0, "T"⟩, .vectorOf ⟨1, "P"⟩), (.vectorOf ⟨0, "T"⟩, .vectorOf ⟨2, "Q"⟩)]

/-- `Vec<P>` and `Vec<Q>` were never walked against one another, but both were against `Vec<T>`. -/
theorem linked_component_of_vectors :
    let e := ((Evidence.empty .union).equateAll Ty.vectorCalls).1
    (Evidence.empty .union).equateAll Ty.vectorCalls = (e, none) ∧
      e.store.Linked (.vectorOf ⟨1, "P"⟩) (.vectorOf ⟨2, "Q"⟩) ∧
      e.store.Linked (.param ⟨1, "P"⟩) (.param ⟨2, "Q"⟩) := by
  intro e
  have h : (Evidence.empty .union).equateAll Ty.vectorCalls = (e, none) := by
    have hreturns : ((Evidence.empty .union).equateAll Ty.vectorCalls).2.isNone = true := by
      decide +kernel
    rw [← Option.isNone_iff_eq_none.1 hreturns]
  have hmatched : ∀ p, (Ty.vectorOf ⟨0, "T"⟩, Ty.vectorOf p) ∈ Ty.vectorCalls →
      Ty.Matched (Ty.equalPairs Ty.vectorCalls) 0 (.vectorOf ⟨0, "T"⟩) (.vectorOf p) := by
    intro p hp
    have hequal : (Ty.vectorOf ⟨0, "T"⟩, Ty.vectorOf p) ∈ Ty.equalPairs Ty.vectorCalls :=
      List.mem_filter.2 ⟨List.mem_flatMap.2 ⟨_, hp, Ty.mem_met_self _ _⟩, rfl⟩
    exact .inr ⟨hequal, rfl, .param ⟨0, "T"⟩, .param p, rfl, rfl, rfl⟩
  have hchain : EqvGen (Ty.Matched (Ty.equalPairs Ty.vectorCalls) 0) (.vectorOf ⟨1, "P"⟩)
      (.vectorOf ⟨2, "Q"⟩) :=
    .trans _ _ _ (.symm _ _ (.rel _ _ (hmatched ⟨1, "P"⟩ (by simp [Ty.vectorCalls]))))
      (.rel _ _ (hmatched ⟨2, "Q"⟩ (by simp [Ty.vectorCalls])))
  obtain ⟨hvectors, hparams⟩ := linked_component_of_matched h hchain rfl rfl
  exact ⟨h, hvectors, hparams⟩

/-- Vectors of `T` and of `P` go where an `X` is expected. -/
def Ty.looseVectorCalls : List (Ty × Ty) :=
  [(.param ⟨2, "X"⟩, .vectorOf ⟨0, "T"⟩), (.param ⟨2, "X"⟩, .vectorOf ⟨1, "P"⟩)]

lemma members_looseVectorCalls :
    ((Evidence.empty .union).equateAll Ty.looseVectorCalls).1.store.members 0 =
      [.param ⟨2, "X"⟩, .vectorOf ⟨0, "T"⟩, .vectorOf ⟨1, "P"⟩] := by cbv

/-- `Vec<T>` and `Vec<P>` share the set of `X`, while `T` and `P` are of no set. -/
theorem not_congruent_of_vectors :
    let e := ((Evidence.empty .union).equateAll Ty.looseVectorCalls).1
    (Evidence.empty .union).equateAll Ty.looseVectorCalls = (e, none) ∧
      e.store.members 0 = [.param ⟨2, "X"⟩, .vectorOf ⟨0, "T"⟩, .vectorOf ⟨1, "P"⟩] ∧
      e.store.contains (.param ⟨0, "T"⟩) = false ∧ e.store.contains (.param ⟨1, "P"⟩) = false ∧
      ¬ e.store.Congruent := by
  intro e
  have hmembers : e.store.members 0 =
      [.param ⟨2, "X"⟩, .vectorOf ⟨0, "T"⟩, .vectorOf ⟨1, "P"⟩] := members_looseVectorCalls
  have hT : e.store.contains (.param ⟨0, "T"⟩) = false := by decide +kernel
  have hP : e.store.contains (.param ⟨1, "P"⟩) = false := by decide +kernel
  refine ⟨?_, hmembers, hT, hP, fun hcongruent => ?_⟩
  · have hreturns : ((Evidence.empty .union).equateAll Ty.looseVectorCalls).2.isNone = true := by
      decide +kernel
    rw [← Option.isNone_iff_eq_none.1 hreturns]
  · have hlinked : e.store.Linked (.param ⟨0, "T"⟩) (.param ⟨1, "P"⟩) :=
      hcongruent 0 (.vectorOf ⟨0, "T"⟩) (by simp [hmembers]) (.vectorOf ⟨1, "P"⟩)
        (by simp [hmembers]) rfl 0 _ _ rfl rfl rfl
    have hnone := (Store.contains_eq_false_iff _ _).1 hP
    exact absurd (hlinked.beq_of_setOf_eq_none hnone) (by decide +kernel)

end WhereClause
