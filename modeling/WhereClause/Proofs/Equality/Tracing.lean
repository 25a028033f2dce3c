import WhereClause.Proofs.Equality.Bookkeeping

/-!
# Where types came in

What joins a set while a call is in force is put down to that call, under a number that was not in
use before, and origins that there were stay (`Store.Records`).  As long as there always was a call in
force, the types that have an origin are the types that are in a set (`Store.Traced`).
-/

namespace WhereClause

namespace Store

variable {s s' s'' : Store}

/-! ## Records of origins -/

/-- What was in a set still is in one, and its origin is what it was. -/
structure Retains (s s' : Store) : Prop where
  contains : ∀ t, s.contains t = true → s'.contains t = true
  originOf : ∀ t o, s.originOf t = some o → s'.originOf t = some o
  size : s.origins.size ≤ s'.origins.size

namespace Retains

lemma refl (s : Store) : Retains s s := ⟨fun _ h => h, fun _ _ h => h, Nat.le_refl _⟩

lemma trans (h : Retains s s') (h' : Retains s' s'') : Retains s s'' :=
  ⟨fun t ht => h'.contains t (h.contains t ht), fun t o ho => h'.originOf t o (h.originOf t o ho),
    Nat.le_trans h.size h'.size⟩

end Retains

/-- Moreover, what has an origin now and had none was put down to the call in force, under a new
number. -/
structure Records (s s' : Store) : Prop extends Retains s s' where
  current : s'.current = s.current
  fresh : ∀ t o, s.originOf t = none → s'.originOf t = some o →
    s.current = some (o.function, o.site) ∧ s.origins.size ≤ o.serial

namespace Records

/-- The lists of members do not matter. -/
lemma relist (s : Store) (sets : List (List Ty)) : Records s { s with sets } where
  contains _ ht := ht
  originOf _ _ ho := ho
  size := Nat.le_refl _
  current := rfl
  fresh _ _ hnone ho := absurd (hnone.symm.trans ho) (by simp)

lemma refl (s : Store) : Records s s := .relist s s.sets

lemma trans (h : Records s s') (h' : Records s' s'') : Records s s'' where
  toRetains := h.toRetains.trans h'.toRetains
  current := h'.current.trans h.current
  fresh t o hnone ho := by
    rcases hmid : s'.originOf t with _ | o'
    · obtain ⟨hcurrent, hserial⟩ := h'.fresh t o hmid ho
      exact ⟨h.current.symm.trans hcurrent, Nat.le_trans h.size hserial⟩
    · obtain rfl : o' = o := Option.some.inj ((h'.originOf t o' hmid).symm.trans ho)
      exact h.fresh t o' hnone hmid

end Records

lemma records_add (s : Store) (t : Ty) (r : ℕ) : Records s (s.add t r) where
  contains u hu := by rw [contains_add, hu, Bool.true_or]
  originOf u o ho := by
    rw [originOf_add, if_neg, ho]
    rintro ⟨-, hnone⟩
    rw [hnone] at ho
    cases ho
  size := by
    rcases s.origins_add t r with ⟨hsame, -⟩ | ⟨hnone, c, -, hadded⟩
    · exact Nat.le_of_eq (by rw [hsame])
    · rw [hadded, Table.size_insert_of_get?_eq_none hnone]
      exact Nat.le_succ _
  current := rfl
  fresh u o hnone ho := by
    rw [originOf_add] at ho
    split_ifs at ho
    · obtain ⟨c, hcurrent, rfl⟩ := Option.map_eq_some_iff.1 ho
      exact ⟨hcurrent, Nat.le_refl _⟩
    · rw [hnone] at ho
      cases ho

lemma Joins.records (h : Joins s s') : Records s s' := by
  induction h with
  | refl => exact .refl s
  | tail _ hlast ih =>
    refine ih.trans ?_
    cases hlast with
    | add t r => exact records_add _ t r
    | relist sets => exact .relist _ sets

/-- With no call in force, origins are what they were. -/
lemma Records.originOf_eq (h : Records s s') (hcurrent : s.current = none) (t : Ty) :
    s'.originOf t = s.originOf t := by
  rcases ht : s.originOf t with _ | o
  · rcases ht' : s'.originOf t with _ | o
    · rfl
    · obtain ⟨hin, -⟩ := h.fresh t o ht ht'
      rw [hcurrent] at hin
      cases hin
  · exact h.originOf t o ht

/-! ## Types with origins -/

/-- The types that have an origin are the types that are in a set. -/
def Traced (s : Store) : Prop := ∀ t, s.contains t = true ↔ ∃ o, s.originOf t = some o

lemma traced_empty (mode : MergeMode) : (empty mode).Traced := by
  intro t
  constructor
  · nofun
  · rintro ⟨o, ho⟩
    cases ho

/-- With a call in force, a type that joins a set has an origin. -/
lemma Traced.add (h : s.Traced) (hcurrent : s.current ≠ none) (t : Ty) (r : ℕ) :
    (s.add t r).Traced := by
  obtain ⟨c, hc⟩ := Option.ne_none_iff_exists'.1 hcurrent
  intro u
  rw [contains_add, Bool.or_eq_true, BEq.comm, originOf_add, hc]
  by_cases hu : ∃ o, s.originOf u = some o
  · obtain ⟨o, ho⟩ := hu
    simp [ho, (h u).2 ⟨o, ho⟩]
  · have hnone : s.originOf u = none := Option.eq_none_iff_forall_ne_some.2 fun o ho => hu ⟨o, ho⟩
    have hout : ¬ s.contains u = true := fun hin => hu ((h u).1 hin)
    by_cases htu : (t == u) = true <;> simp [hnone, hout, htu]

lemma Joins.traced (h : Joins s s') (hs : s.Traced) (hcurrent : s.current ≠ none) :
    s'.Traced := by
  induction h with
  | refl => exact hs
  | tail hfirst hlast ih =>
    have hstill := (Joins.records hfirst).current
    cases hlast with
    | add t r => exact ih.add (hstill ▸ hcurrent) t r
    | relist sets => exact ih

lemma Grows.joins (h : Grows s s') : Joins s s' := by
  induction h with
  | refl => exact .refl
  | @tail s₁ _ _ hlast ih =>
    obtain ⟨p, rfl⟩ := hlast
    rw [Store.ensure]
    rcases s₁.setOf (.param p) with _ | r
    · exact ih.trans (joins_newSet _ _)
    · exact ih

end Store

/-! ## Calls -/

namespace Evidence

open Store

lemma joins_takeAll (e : Evidence) (steps : List Step) :
    Joins e.store (e.takeAll steps).store := by
  refine (e.merges_takeAll steps).lift' id ?_
  rintro s _ ⟨a, b, rfl⟩
  exact joins_merge s a b

/-- Whether a call returns or clashes, types join sets while it is in force. -/
lemma joins_learnCall (e : Evidence) (function : String) (c : Call) :
    Joins (e.store.enter function c.site) (e.learnCall function c).1.store := by
  have htaken := (e.entered function c).joins_takeAll
    (Ty.alignEach c.callee.signature.inputs c.args).steps
  rw [learnCall_eq]
  rcases (Ty.alignEach c.callee.signature.inputs c.args).clash with _ | cause
  · exact htaken
  · exact htaken

end Evidence

end WhereClause
