import Mathlib.Data.List.Perm.Subperm
import Mathlib.Tactic.Common
import WhereClause.ConstraintSet
import WhereClause.Proofs.Distinct
import WhereClause.Proofs.Renaming.Naming

/-!
# What sets of constraints hold

A set is its list (`ConstraintSet.ext`), and insertions build every set there is
(`ConstraintSet.ofList_toList`).

The constraints of a set are sorted by their text for the benefit of code generators, which should
emit one and the same text however the constraints were come upon.  Sorting does not lose or repeat
any (`ConstraintSet.sorted_perm`) and puts the texts in ascending order
(`ConstraintSet.pairwise_sorted`), but texts do not tell constraints apart, and where two agree it
is the order of discovery that decides which comes first.  So equal sets need not be sorted into
equal lists; their texts are the same, in the same order, if no number carries two names
(`ConstraintSet.texts_of_sorted`).
-/

namespace WhereClause

namespace ConstraintSet

/-! ## What a set holds -/

lemma ext {s t : ConstraintSet} (h : s.toList = t.toList) : s = t := by
  cases s
  cases t
  cases h
  rfl

lemma toList_insertAll (s : ConstraintSet) (cs : List Constraint) :
    (s.insertAll cs).toList = cs.foldl Distinct.add s.toList := by
  induction cs generalizing s with
  | nil => rfl
  | cons c cs ih => exact ih (s.insert c)

lemma toList_ofList (cs : List Constraint) : (ofList cs).toList = Distinct.ofList cs :=
  toList_insertAll empty cs

/-- Insertions build every set there is. -/
lemma ofList_toList (s : ConstraintSet) : ofList s.toList = s :=
  ext ((toList_ofList _).trans (Distinct.ofList_eq_self s.distinct))

/-- Sets are equal when they are of one size and one holds what the other does. -/
lemma beq_iff {s t : ConstraintSet} :
    (s == t) = true ↔ s.size = t.size ∧ ∀ c ∈ s.toList, t.contains c = true := by
  show (s.size == t.size && s.toList.all t.contains) = true ↔ _
  rw [Bool.and_eq_true, beq_iff_eq, List.all_eq_true]

/-- No constraint stands twice in a set. -/
lemma nodup_toList (s : ConstraintSet) : s.toList.Nodup := by
  refine s.distinct.imp fun {c d} hcd heq => ?_
  rw [heq, BEq.rfl] at hcd
  exact absurd hcd (by decide)

/-! ## Sorting -/

/-- Sorting only changes the order. -/
theorem sorted_perm (s : ConstraintSet) : s.sorted.Perm s.toList :=
  List.mergeSort_perm _ _

/-- The texts of the sorted constraints ascend. -/
theorem pairwise_sorted (s : ConstraintSet) :
    (s.sorted.map Constraint.render).Pairwise (· ≤ ·) := by
  have htrans : ∀ a b c : Constraint, decide (a.render ≤ b.render) = true →
      decide (b.render ≤ c.render) = true → decide (a.render ≤ c.render) = true := by
    intro a b c hab hbc
    exact decide_eq_true (String.le_trans (of_decide_eq_true hab) (of_decide_eq_true hbc))
  have htotal : ∀ a b : Constraint,
      (decide (a.render ≤ b.render) || decide (b.render ≤ a.render)) = true := by
    intro a b
    simpa only [Bool.or_eq_true, decide_eq_true_eq] using String.le_total a.render b.render
  exact List.pairwise_map.2 ((List.pairwise_mergeSort htrans htotal s.toList).imp of_decide_eq_true)

section

variable {paramName lifetimeName : Int → String} {s t : ConstraintSet}

/-- Equal sets hold the same constraints, and not only equal ones, if each number carries one name
throughout both. -/
lemma perm_of_beq (h : (s == t) = true) (hs : ∀ c ∈ s.toList, c.Named paramName lifetimeName)
    (ht : ∀ c ∈ t.toList, c.Named paramName lifetimeName) : s.toList.Perm t.toList := by
  obtain ⟨hsize, hall⟩ := beq_iff.1 h
  have hsubset : s.toList ⊆ t.toList := by
    intro c hc
    obtain ⟨d, hd, hcd⟩ := List.contains_iff_exists_mem_beq.1 (hall c hc)
    rwa [Constraint.eq_of_beq (hs c hc) (ht d hd) hcd]
  exact (s.nodup_toList.subperm hsubset).perm_of_length_le (Nat.le_of_eq hsize.symm)

/-- What is sorted does not depend on the order of discovery: equal sets, whichever insertions
built them, have the same texts in the same order, if each number carries one name throughout
both. -/
theorem texts_of_sorted (h : (s == t) = true)
    (hs : ∀ c ∈ s.toList, c.Named paramName lifetimeName)
    (ht : ∀ c ∈ t.toList, c.Named paramName lifetimeName) :
    s.sorted.map Constraint.render = t.sorted.map Constraint.render := by
  have hperm : s.sorted.Perm t.sorted :=
    (s.sorted_perm.trans (perm_of_beq h hs ht)).trans t.sorted_perm.symm
  -- ascending lists of the same texts are one list, though two constraints may share a text
  exact (hperm.map Constraint.render).eq_of_pairwise (fun _ _ _ _ => String.le_antisymm)
    s.pairwise_sorted t.pairwise_sorted

/-- Two type parameters of one name, each required to be `Clone` and to outlive one lifetime, found
in this order and, with a repeat, in the other. -/
theorem texts_of_sorted_namesakes :
    let cloneOf (n : Int) : Constraint :=
      .type (.param ⟨n, "P"⟩) [.trait (.ofName "Clone" []) [], .outlives ⟨2, "a"⟩] []
    let s := ofList [cloneOf 0, cloneOf 1]
    let t := ofList [cloneOf 1, cloneOf 0, cloneOf 1]
    (s == t) = true ∧ (∀ c ∈ s.toList, c.Named (fun _ => "P") fun _ => "a") ∧
      (∀ c ∈ t.toList, c.Named (fun _ => "P") fun _ => "a") ∧
      s.sorted.map Constraint.render = t.sorted.map Constraint.render := by
  intro cloneOf s t
  have hs : s.toList = [cloneOf 0, cloneOf 1] := by with_unfolding_all rfl
  have ht : t.toList = [cloneOf 1, cloneOf 0] := by with_unfolding_all rfl
  have hequal : (s == t) = true := by decide +kernel
  have hnamed (n : Int) : (cloneOf n).Named (fun _ => "P") fun _ => "a" := rfl
  have hsNamed : ∀ c ∈ s.toList, c.Named (fun _ => "P") fun _ => "a" := by
    simp only [hs, List.forall_mem_cons, hnamed, List.not_mem_nil, false_implies, implies_true,
      and_self]
  have htNamed : ∀ c ∈ t.toList, c.Named (fun _ => "P") fun _ => "a" := by
    simp only [ht, List.forall_mem_cons, hnamed, List.not_mem_nil, false_implies, implies_true,
      and_self]
  exact ⟨hequal, hsNamed, htNamed, texts_of_sorted hequal hsNamed htNamed⟩

end

end ConstraintSet

end WhereClause
