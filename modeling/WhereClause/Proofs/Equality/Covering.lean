import WhereClause.Proofs.Equality.Bookkeeping
import WhereClause.Proofs.Equality.Classes

/-!
# One-sided merging equates no more than folding

Where only the second of two types moves to the set of the first, the other members of its old set
do not hear of it, and there it stays listed.  Such a store tells types apart that a store in which
sets are folded into one another holds for equal.  It never does the reverse.

`Store.Covers` is the invariant that ties two stores made by the same calls, one in each mode.  It
speaks of what the sets list, not of what the index answers: a type that moved is listed beside
those it left, and whatever joins either set later must be equal to all of them in the other store.
The two stores number their sets differently after the first merge across sets, so no position of
one is looked up in the other.
-/

namespace WhereClause

namespace Store

/-! ## What becomes known -/

lemma contains_newSet (s : Store) (ts : List Ty) (u : Ty) :
    (s.newSet ts).1.contains u = (s.contains u || ts.contains u) := by
  rw [contains, setOf_newSet]
  cases ts.contains u with
  | true => simp
  | false => simp [contains]

lemma contains_of_beq {s : Store} {t u : Ty} {r : ℕ} (hu : s.setOf u = some r)
    (htu : (t == u) = true) : s.contains t = true :=
  (contains_iff s t).2 ⟨r, by rw [setOf_congr htu, hu]⟩

/-- Exactly the two types become known, as where sets are folded (`contains_merge`). -/
lemma contains_merge_legacy {s : Store} (hm : s.mode = .legacy) (a b t : Ty) :
    (s.merge a b).contains t = true ↔
      s.contains t = true ∨ (t == a) = true ∨ (t == b) = true := by
  rw [merge, plan, hm]
  rcases ha : s.setOf a with _ | r <;> rcases hb : s.setOf b with _ | q
  · show (s.newSet [a, b]).1.contains t = true ↔ _
    simp [contains_newSet]
  · show (s.add a q).contains t = true ↔ _
    rw [contains_add, Bool.or_eq_true]
    have hknown := contains_of_beq (t := t) hb
    tauto
  · show (s.add b r).contains t = true ↔ _
    rw [contains_add, Bool.or_eq_true]
    have hknown := contains_of_beq (t := t) ha
    tauto
  · have hknowna := contains_of_beq (t := t) ha
    have hknownb := contains_of_beq (t := t) hb
    dsimp only
    split_ifs
    · show s.contains t = true ↔ _
      tauto
    · show (s.add b r).contains t = true ↔ _
      rw [contains_add, Bool.or_eq_true]
      tauto

/-! ## Covering -/

/-- A store in which sets are folded knows the types of one in which single types move, and has
those together that the other lists together. -/
structure Covers (d s : Store) : Prop where
  sound : d.Sound
  mode : s.mode = .legacy
  listed : s.Listed
  contains_eq : ∀ t, s.contains t = d.contains t
  linked : ∀ r t u, (s.members r).contains t = true → (s.members r).contains u = true →
    d.Linked t u

lemma covers_empty : (empty .union).Covers (empty .legacy) where
  sound := sound_empty
  mode := rfl
  listed := listed_empty .legacy
  contains_eq _ := rfl
  linked r t u ht := by simp [members, empty] at ht

namespace Covers

variable {d d' s : Store}

/-- A type that joins the set of another is linked to all that are listed there, if it is linked to
the other. -/
lemma linked_add (h : d.Covers s) (hlater : ∀ {t u}, d.Linked t u → d'.Linked t u) {x y : Ty}
    {r : ℕ} (hy : s.setOf y = some r) (hxy : d'.Linked x y) (q : ℕ) {t u : Ty}
    (ht : ((s.add x r).members q).contains t = true)
    (hu : ((s.add x r).members q).contains u = true) : d'.Linked t u := by
  have hlt : r < s.sets.length := h.listed.lt_length hy
  rw [members_add s x r q hlt] at ht hu
  by_cases hq : r = q
  · have hjoined : ∀ {w}, (Distinct.add (s.members r) x).contains w = true → d'.Linked w y := by
      intro w hw
      rw [Distinct.contains_add, Bool.or_eq_true] at hw
      rcases hw with hw | hw
      · exact hlater (h.linked r w y hw (h.listed y r hy))
      · exact Linked.trans (.inl hw) hxy
    rw [if_pos hq] at ht hu
    exact (hjoined ht).trans (hjoined hu).symm
  · rw [if_neg hq] at ht hu
    exact hlater (h.linked q t u ht hu)

/-- Two types that found a set are linked if they are in the other store. -/
lemma linked_newSet (h : d.Covers s) (hlater : ∀ {t u}, d.Linked t u → d'.Linked t u) {a b : Ty}
    (hab : d'.Linked a b) (q : ℕ) {t u : Ty}
    (ht : ((s.newSet [a, b]).1.members q).contains t = true)
    (hu : ((s.newSet [a, b]).1.members q).contains u = true) : d'.Linked t u := by
  rw [members_newSet] at ht hu
  by_cases hq : s.sets.length = q
  · have hfounder : ∀ {w}, (Distinct.ofList [a, b]).contains w = true → d'.Linked w a := by
      intro w hw
      rw [Distinct.contains_ofList, List.contains_cons, List.contains_cons, List.contains_nil,
        Bool.or_false, Bool.or_eq_true] at hw
      rcases hw with hw | hw
      · exact .inl hw
      · exact Linked.trans (.inl hw) hab.symm
    rw [if_pos hq] at ht hu
    exact (hfounder ht).trans (hfounder hu).symm
  · rw [if_neg hq] at ht hu
    exact hlater (h.linked q t u ht hu)

/-- Two types are found equal in both stores. -/
lemma merge (h : d.Covers s) (a b : Ty) : (d.merge a b).Covers (s.merge a b) where
  sound := (Change.merge d a b).sound h.sound
  mode := by rw [mode_merge, h.mode]
  listed := h.listed.merge a b
  contains_eq t := by
    rw [Bool.eq_iff_iff, contains_merge_legacy h.mode,
      contains_merge h.sound.coherent h.sound.mode, h.contains_eq]
  linked q t u := by
    have hab : (d.merge a b).Linked a b := linked_merge_self h.sound.coherent h.sound.mode a b
    have hlater : ∀ {v w}, d.Linked v w → (d.merge a b).Linked v w :=
      fun hvw => hvw.merge h.sound.coherent h.sound.mode a b
    rw [Store.merge, plan, h.mode]
    rcases ha : s.setOf a with _ | r <;> rcases hb : s.setOf b with _ | r'
    · exact h.linked_newSet hlater hab q
    · exact h.linked_add hlater hb hab q
    · exact h.linked_add hlater ha hab.symm q
    · dsimp only
      split_ifs
      · exact fun ht hu => hlater (h.linked q t u ht hu)
      · exact h.linked_add hlater ha hab.symm q

/-- Types that the index puts in one set are together in the covering store. -/
lemma exists_setOf (h : d.Covers s) {r : ℕ} {t u : Ty} (ht : (s.members r).contains t = true)
    (hu : (s.members r).contains u = true) (hknown : s.contains t = true) :
    ∃ q, d.setOf t = some q ∧ d.setOf u = some q := by
  rw [h.contains_eq, contains_iff] at hknown
  obtain ⟨q, hq⟩ := hknown
  exact ⟨q, hq, (h.linked r t u ht hu).setOf_eq ▸ hq⟩

end Covers

end Store

/-! ## Calls that go on after a clash -/

namespace Evidence

/-- Types are found equal call by call, also after calls that fail.  The answers are the clashes. -/
def equateEach (e : Evidence) : List (Ty × Ty) → Evidence × List (Option Cause)
  | [] => (e, [])
  | (a, b) :: rest =>
    let (e, clash) := e.equate a b
    let (e, clashes) := e.equateEach rest
    (e, clash :: clashes)

/-- Calls take the steps of their walks, one walk after the other, and answer the clashes. -/
lemma equateEach_eq (e : Evidence) (pairs : List (Ty × Ty)) :
    e.equateEach pairs = (e.takeAll (pairs.flatMap fun p => (p.1.align p.2).steps),
      pairs.map fun p => (p.1.align p.2).clash) := by
  induction pairs generalizing e with
  | nil => rfl
  | cons pair rest ih =>
    obtain ⟨a, b⟩ := pair
    rw [equateEach, equate, learn]
    dsimp only
    rw [ih, List.flatMap_cons, takeAll_append]
    rfl

lemma covers_takeAll {d e : Evidence} (h : d.store.Covers e.store) (steps : List Step) :
    (d.takeAll steps).store.Covers (e.takeAll steps).store := by
  induction steps generalizing d e with
  | nil => exact h
  | cons step steps ih =>
    refine ih (d := d.take step) (e := e.take step) ?_
    cases step with
    | merge a b =>
      rw [store_take_merge, store_take_merge]
      exact h.merge a b
    | constrain t bounds => rwa [store_take_constrain, store_take_constrain]

lemma covers_equateEach (pairs : List (Ty × Ty)) :
    ((empty .union).equateEach pairs).1.store.Covers
      ((empty .legacy).equateEach pairs).1.store := by
  rw [equateEach_eq, equateEach_eq]
  exact covers_takeAll Store.covers_empty _

end Evidence

/-- Whatever calls are made, in a store in which only single types move and in one in which sets are
folded, and also after calls that fail: both answer the same call by call, come upon the same
constraints in the same order and know the same types.  Known types that the first has in one set,
or lists in one set, are in one set of the second; and the set that the first answers for a type
lists the type. -/
theorem legacy_sets_within_union_sets (pairs : List (Ty × Ty)) :
    let (e, answers) := (Evidence.empty .legacy).equateEach pairs
    let (d, answers') := (Evidence.empty .union).equateEach pairs
    answers = answers' ∧ e.candidates.toList = d.candidates.toList ∧
      (∀ t, e.store.contains t = d.store.contains t) ∧
      (∀ t u r, e.store.contains t = true → e.store.contains u = true →
        (e.store.setOf t = some r ∧ e.store.setOf u = some r ∨
          (e.store.members r).contains t = true ∧ (e.store.members r).contains u = true) →
        ∃ q, d.store.setOf t = some q ∧ d.store.setOf u = some q) ∧
      ∀ t r, e.store.setOf t = some r → (e.store.members r).contains t = true := by
  have hcovers := Evidence.covers_equateEach pairs
  rw [Evidence.equateEach_eq, Evidence.equateEach_eq] at hcovers ⊢
  dsimp only at hcovers ⊢
  refine ⟨rfl, ?_, hcovers.contains_eq, fun t u r hknown _ htogether => ?_, hcovers.listed⟩
  · rw [Evidence.candidates_takeAll, Evidence.candidates_takeAll]
    rfl
  · rcases htogether with ⟨ht, hu⟩ | ⟨ht, hu⟩
    · exact hcovers.exists_setOf (hcovers.listed t r ht) (hcovers.listed u r hu) hknown
    · exact hcovers.exists_setOf ht hu hknown

/-- `T` moves to the set of `P` and `Q`, and the next call fails after it put `V` beside `U`. -/
def Ty.crossingCalls : List (Ty × Ty) :=
  [(.param ⟨0, "P"⟩, .param ⟨1, "Q"⟩), (.param ⟨2, "T"⟩, .param ⟨3, "U"⟩),
    (.param ⟨1, "Q"⟩, .param ⟨2, "T"⟩),
    (.tuple [.param ⟨4, "V"⟩, .tuple []], .tuple [.param ⟨3, "U"⟩, .tuple [.infer]])]

/-- `T` is still listed beside `U` and so beside `V`, which came later.  Where sets are folded, it
shares a set with them. -/
theorem legacy_sets_of_crossing_calls :
    let e := ((Evidence.empty .legacy).equateEach Ty.crossingCalls).1
    let d := ((Evidence.empty .union).equateEach Ty.crossingCalls).1
    e.store.setOf (.param ⟨2, "T"⟩) = some 0 ∧ e.store.setOf (.param ⟨4, "V"⟩) = some 1 ∧
      (e.store.members 1).contains (.param ⟨2, "T"⟩) = true ∧
      (e.store.members 1).contains (.param ⟨4, "V"⟩) = true ∧
      ∃ q, d.store.setOf (.param ⟨2, "T"⟩) = some q ∧ d.store.setOf (.param ⟨4, "V"⟩) = some q := by
  intro e d
  obtain ⟨-, -, -, htogether, -⟩ := legacy_sets_within_union_sets Ty.crossingCalls
  have hT : (e.store.members 1).contains (.param ⟨2, "T"⟩) = true := by decide +kernel
  have hV : (e.store.members 1).contains (.param ⟨4, "V"⟩) = true := by decide +kernel
  exact ⟨by decide +kernel, by decide +kernel, hT, hV,
    htogether _ _ 1 (by decide +kernel) (by decide +kernel) (.inr ⟨hT, hV⟩)⟩

end WhereClause
