import WhereClause.Proofs.ConstraintSet
import WhereClause.Proofs.Equality.Joining
import WhereClause.Proofs.Representative.Runs
import WhereClause.Relevance

/-!
# What a filter keeps

A constraint passes in two moves: it is settled, and the result is relevant as it stands.  Relevance
does not look at how a constraint is spelled.  So what a second filter makes of the constraints that
a first one kept is decided by settling alone (`Relevance.filter_beq_iff`): it answers with an equal
set exactly if settling each of them over again answers with an equal set.
-/

namespace WhereClause

open Resolving

/-! ## Relevance as it stands -/

namespace Relevance

variable (v : Relevance) (store : Store)

/-- Whether a constraint is relevant as it stands, rather than in its most concrete form. -/
def Admits : Constraint → Prop
  | .lifetime _ _ => True
  | .type t bs _ =>
    v.isRelevantType store t = true ∧ ∀ b ∈ bs, v.isRelevantBound store b = .ok true

variable {v store}

lemma isRelevantType_congr : ∀ {t u : Ty}, (t == u) = true →
    v.isRelevantType store t = v.isRelevantType store u
  | .ref _ t _, u, h => by
    have h' : Ty.same _ u = true := h
    cases u <;> simp only [Ty.same, Bool.and_eq_true, Bool.false_eq_true] at h'
    have hinner := isRelevantType_congr h'.1.2
    exact hinner
  | .param p, u, h => by
    have h' : Ty.same _ u = true := h
    cases u <;> simp only [Ty.same, Bool.false_eq_true] at h'
    rw [isRelevantType, isRelevantType, isRelevantParam, isRelevantParam, Store.setOf_congr h]
  | .infer, u, h | .str, u, h | .tuple _, u, h | .deref _, u, h | .dyn _, u, h | .data _ _ _, u, h
  | .path _, u, h => by
    have h' : Ty.same _ u = true := h
    cases u <;> first | rfl | simp [Ty.same] at h'

lemma isRelevantArg_congr {a b : Arg} (h : (a == b) = true) :
    v.isRelevantArg store a = v.isRelevantArg store b := by
  have h' : Arg.same a b = true := h
  cases a <;> cases b <;> simp only [Arg.same, Bool.false_eq_true] at h'
  · exact isRelevantType_congr h'
  · rfl

lemma all_isRelevantArg_congr {as bs : List Arg} (h : Arg.sameEach as bs = true) :
    as.all (v.isRelevantArg store) = bs.all (v.isRelevantArg store) := by
  induction as generalizing bs with
  | nil => cases bs <;> simp [Arg.sameEach] at h ⊢
  | cons a as ih =>
    cases bs with
    | nil => simp [Arg.sameEach] at h
    | cons b bs =>
      simp only [Arg.sameEach, Bool.and_eq_true] at h
      rw [List.all_cons, List.all_cons, isRelevantArg_congr h.1, ih h.2]

lemma isRelevantBound_congr {b c : Bound} (h : (b == c) = true)
    (hb : v.isRelevantBound store b = .ok true) : v.isRelevantBound store c = .ok true := by
  have h' : Bound.same b c = true := h
  cases b <;> cases c <;> simp only [Bound.same, Bool.and_eq_true, Bool.false_eq_true] at h'
  · rename_i p ls q ks
    obtain ⟨isGlobal, init, ⟨name, as⟩⟩ := p
    obtain ⟨isGlobal', init', ⟨name', bs⟩⟩ := q
    simp only [Path.same, Segment.same, Bool.and_eq_true] at h'
    simp only [isRelevantBound, isRelevantPath] at hb ⊢
    cases as <;> cases bs <;> simp only [Args.same, Bool.and_eq_true, Bool.false_eq_true, and_false,
      false_and] at h' hb ⊢
    · rw [← all_isRelevantArg_congr h'.1.2.2, hb]
    · cases hb
  · rfl

lemma Admits.congr {c d : Constraint} (h : (c == d) = true) (hc : v.Admits store c) :
    v.Admits store d := by
  have h' : Constraint.same c d = true := h
  cases c <;> cases d <;> simp only [Constraint.same, Bool.and_eq_true, Bool.false_eq_true] at h'
  · rename_i t bs _ u cs _
    refine ⟨(isRelevantType_congr h'.1.1).symm.trans hc.1, ?_⟩
    have heach := h'.1.2
    have hbs := hc.2
    clear h h' hc
    induction bs generalizing cs with
    | nil => cases cs <;> simp [Bound.sameEach] at heach ⊢
    | cons b bs ih =>
      cases cs with
      | nil => simp
      | cons c cs =>
        simp only [Bound.sameEach, Bool.and_eq_true] at heach
        obtain ⟨hb, hrest⟩ := List.forall_mem_cons.1 hbs
        have hc : v.isRelevantBound store c = .ok true := isRelevantBound_congr heach.1 hb
        have hcs := ih cs heach.2 hrest
        exact List.forall_mem_cons.2 ⟨hc, hcs⟩
  · trivial

end Relevance

/-! ## Settling, then looking -/

/-- The most concrete form of a constraint, all the way down. -/
def Resolver.settleConstraint (store : Store) : Constraint → Resolving Constraint
  | .lifetime l ls => return .lifetime l ls
  | .type t bs binder => do
    let t ← settle store t
    let bs ← Bound.settleEach store.setOf (expand store) bs
    return .type t bs binder

namespace Relevance

open Resolver

variable {v : Relevance} {store : Store} {ρ ρ' : Resolver}

lemma keepBounds_eq_some_iff {bs cs : List Bound} :
    v.keepBounds store bs ρ = (.ok (some cs), ρ') ↔
      Bound.settleEach store.setOf (expand store) bs ρ = (.ok cs, ρ') ∧
        ∀ c ∈ cs, v.isRelevantBound store c = .ok true := by
  induction bs generalizing cs ρ with
  | nil =>
    rw [keepBounds, Bound.settleEach, pure_eq_ok_iff, pure_eq_ok_iff, Option.some.injEq]
    constructor
    · rintro ⟨rfl, rfl⟩
      exact ⟨⟨rfl, rfl⟩, by simp⟩
    · rintro ⟨h, -⟩
      exact h
  | cons b bs ih =>
    rw [keepBounds, Bound.settleEach]
    constructor
    · intro h
      obtain ⟨b', ρ₁, hb, hrest⟩ := bind_eq_ok_iff.1 h
      rcases hrelevant : v.isRelevantBound store b' with fault | _ | _
      · rw [hrelevant] at hrest
        cases congrArg Prod.fst hrest
      · rw [hrelevant] at hrest
        cases congrArg Prod.fst hrest
      · rw [hrelevant] at hrest
        obtain ⟨o, ρ₂, ho, hmap⟩ := bind_eq_ok_iff.1 hrest
        obtain ⟨hcs, rfl⟩ := pure_eq_ok_iff.1 hmap
        obtain ⟨cs', rfl, rfl⟩ := Option.map_eq_some_iff.1 hcs
        obtain ⟨hbs, hall⟩ := ih.1 ho
        constructor
        · apply bind_eq_ok_iff.2
          exact ⟨b', ρ₁, hb, bind_eq_ok_iff.2 ⟨cs', ρ₂, hbs, rfl⟩⟩
        · exact List.forall_mem_cons.2 ⟨hrelevant, hall⟩
    · rintro ⟨h, hall⟩
      obtain ⟨b', ρ₁, hb, hrest⟩ := bind_eq_ok_iff.1 h
      obtain ⟨cs', ρ₂, hbs, hcons⟩ := bind_eq_ok_iff.1 hrest
      obtain ⟨rfl, rfl⟩ := pure_eq_ok_iff.1 hcons
      obtain ⟨hrelevant, hall'⟩ := List.forall_mem_cons.1 hall
      refine bind_eq_ok_iff.2 ⟨b', ρ₁, hb, ?_⟩
      rw [hrelevant]
      exact bind_eq_ok_iff.2 ⟨some cs', ρ₂, ih.2 ⟨hbs, hall'⟩, rfl⟩

/-- What passes is the settled constraint, if it is relevant as it then stands. -/
lemma keep_eq_some_iff {c d : Constraint} :
    v.keep store c ρ = (.ok (some d), ρ') ↔
      settleConstraint store c ρ = (.ok d, ρ') ∧ v.Admits store d := by
  cases c with
  | lifetime l ls =>
    rw [keep, settleConstraint, pure_eq_ok_iff, pure_eq_ok_iff, Option.some.injEq]
    constructor
    · rintro ⟨rfl, rfl⟩
      exact ⟨⟨rfl, rfl⟩, trivial⟩
    · rintro ⟨h, -⟩
      exact h
  | type t bs binder =>
    rw [keep, settleConstraint]
    constructor
    · intro h
      obtain ⟨t', ρ₁, ht, hrest⟩ := bind_eq_ok_iff.1 h
      by_cases hrelevant : v.isRelevantType store t' = true
      · rw [if_pos hrelevant] at hrest
        obtain ⟨o, ρ₂, ho, hmap⟩ := bind_eq_ok_iff.1 hrest
        obtain ⟨hd, rfl⟩ := pure_eq_ok_iff.1 hmap
        obtain ⟨cs, rfl, rfl⟩ := Option.map_eq_some_iff.1 hd
        obtain ⟨hbs, hall⟩ := keepBounds_eq_some_iff.1 ho
        constructor
        · apply bind_eq_ok_iff.2
          exact ⟨t', ρ₁, ht, bind_eq_ok_iff.2 ⟨cs, ρ₂, hbs, rfl⟩⟩
        · exact ⟨hrelevant, hall⟩
      · rw [if_neg hrelevant] at hrest
        cases congrArg Prod.fst hrest
    · rintro ⟨h, hadmits⟩
      obtain ⟨t', ρ₁, ht, hrest⟩ := bind_eq_ok_iff.1 h
      obtain ⟨cs, ρ₂, hbs, hd⟩ := bind_eq_ok_iff.1 hrest
      obtain ⟨rfl, rfl⟩ := pure_eq_ok_iff.1 hd
      have hkeep : v.keepBounds store bs ρ₁ = (.ok (some cs), ρ₂) :=
        keepBounds_eq_some_iff.2 ⟨hbs, hadmits.2⟩
      refine bind_eq_ok_iff.2 ⟨t', ρ₁, ht, ?_⟩
      rw [if_pos hadmits.1]
      exact bind_eq_ok_iff.2 ⟨some cs, ρ₂, hkeep, rfl⟩

/-! ## Filtering several constraints -/

/-- One constraint passes, or does not, and what passed before stays. -/
def pass (v : Relevance) (store : Store) (result : ConstraintSet) (c : Constraint) :
    Resolving ConstraintSet :=
  return ((← v.keep store c).map result.insert).getD result

lemma filter_eq (cs : List Constraint) : v.filter store cs = cs.foldlM (v.pass store) ∅ := rfl

lemma pass_returns {result result' : ConstraintSet} {c : Constraint}
    (h : v.pass store result c ρ = (.ok result', ρ')) :
    (v.keep store c ρ = (.ok none, ρ') ∧ result' = result) ∨
      ∃ d, v.keep store c ρ = (.ok (some d), ρ') ∧ result' = result.insert d := by
  obtain ⟨o, ρ₁, ho, hrest⟩ := bind_eq_ok_iff.1 h
  obtain ⟨rfl, rfl⟩ := pure_eq_ok_iff.1 hrest
  rcases o with _ | d
  · exact .inl ⟨ho, rfl⟩
  · exact .inr ⟨d, ho, rfl⟩

lemma pass_of_keep {result : ConstraintSet} {c d : Constraint}
    (h : v.keep store c ρ = (.ok (some d), ρ')) :
    v.pass store result c ρ = (.ok (result.insert d), ρ') :=
  bind_eq_ok_iff.2 ⟨some d, ρ', h, rfl⟩

/-- If settled constraints are all relevant, they all pass. -/
lemma foldlM_pass_of_mapM {cs ds : List Constraint} (result : ConstraintSet)
    (h : cs.mapM (settleConstraint store) ρ = (.ok ds, ρ')) (hds : ∀ d ∈ ds, v.Admits store d) :
    cs.foldlM (v.pass store) result ρ = (.ok (result.insertAll ds), ρ') := by
  induction cs generalizing ds ρ result with
  | nil =>
    obtain ⟨rfl, rfl⟩ := pure_eq_ok_iff.1 h
    rfl
  | cons c cs ih =>
    rw [List.mapM_cons] at h
    obtain ⟨d, ρ₁, hd, hrest⟩ := bind_eq_ok_iff.1 h
    obtain ⟨ds, ρ₂, hcs, hcons⟩ := bind_eq_ok_iff.1 hrest
    obtain ⟨rfl, rfl⟩ := pure_eq_ok_iff.1 hcons
    obtain ⟨hadmits, hadmits'⟩ := List.forall_mem_cons.1 hds
    have hkeep : v.keep store c ρ = (.ok (some d), ρ₁) := keep_eq_some_iff.2 ⟨hd, hadmits⟩
    have hpass : v.pass store result c ρ = (.ok (result.insert d), ρ₁) := pass_of_keep hkeep
    have hrest := ih (result.insert d) hcs hadmits'
    rw [List.foldlM_cons]
    exact bind_eq_ok_iff.2 ⟨result.insert d, ρ₁, hpass, hrest⟩

/-- At most as many constraints pass as there are, and if so many pass that were not there, they are
the settled ones in order. -/
lemma mapM_of_foldlM_pass {cs : List Constraint} {result kept : ConstraintSet}
    (h : cs.foldlM (v.pass store) result ρ = (.ok kept, ρ')) :
    kept.size ≤ result.size + cs.length ∧ (kept.size = result.size + cs.length →
      ∃ ds, cs.mapM (settleConstraint store) ρ = (.ok ds, ρ') ∧
        kept.toList = result.toList ++ ds) := by
  induction cs generalizing result ρ with
  | nil =>
    obtain ⟨rfl, rfl⟩ := pure_eq_ok_iff.1 h
    exact ⟨Nat.le_refl _, fun _ => ⟨[], rfl, (List.append_nil _).symm⟩⟩
  | cons c cs ih =>
    rw [List.foldlM_cons] at h
    obtain ⟨result', ρ₁, hpass, hrest⟩ := bind_eq_ok_iff.1 h
    obtain ⟨hle, hall⟩ := ih hrest
    rw [List.length_cons]
    rcases pass_returns hpass with ⟨-, rfl⟩ | ⟨d, hkeep, rfl⟩
    · exact ⟨by omega, fun hsize => by omega⟩
    · cases hin : result.toList.contains d with
      | true =>
        have hsame : (result.insert d).size = result.size := by
          rw [ConstraintSet.size, ConstraintSet.toList_insert, Distinct.add_of_contains hin]
          rfl
        exact ⟨by omega, fun hsize => by omega⟩
      | false =>
        have hadd : (result.insert d).toList = result.toList ++ [d] := by
          rw [ConstraintSet.toList_insert, Distinct.add_of_not_contains hin]
        have hmore : (result.insert d).size = result.size + 1 := by
          rw [ConstraintSet.size, hadd, List.length_append]
          rfl
        refine ⟨by omega, fun hsize => ?_⟩
        obtain ⟨ds, hds, htoList⟩ := hall (by omega)
        refine ⟨d :: ds, ?_, by rw [htoList, hadd, List.append_assoc]; rfl⟩
        rw [List.mapM_cons]
        exact bind_eq_ok_iff.2 ⟨d, ρ₁, (keep_eq_some_iff.1 hkeep).1,
          bind_eq_ok_iff.2 ⟨ds, ρ', hds, rfl⟩⟩

/-- What a filter makes of constraints that are relevant as they stand is an equal set exactly if
settling each of them over again makes an equal set of them. -/
theorem filter_beq_iff {kept : ConstraintSet} (hkept : ∀ c ∈ kept.toList, v.Admits store c) :
    (∃ again ρ', v.filter store kept.toList ρ = (.ok again, ρ') ∧ (again == kept) = true) ↔
      ∃ cs ρ', kept.toList.mapM (settleConstraint store) ρ = (.ok cs, ρ') ∧
        (ConstraintSet.ofList cs == kept) = true := by
  constructor
  · rintro ⟨again, ρ', hrun, hagain⟩
    rw [filter_eq] at hrun
    obtain ⟨hsize, -⟩ := ConstraintSet.beq_iff.1 hagain
    obtain ⟨cs, hcs, htoList⟩ := (mapM_of_foldlM_pass hrun).2
      (hsize.trans (Nat.zero_add _).symm)
    have hlist : again.toList = cs := htoList
    refine ⟨cs, ρ', hcs, ?_⟩
    rwa [← hlist, ConstraintSet.ofList_toList]
  · rintro ⟨cs, ρ', hrun, hcs⟩
    refine ⟨.ofList cs, ρ', foldlM_pass_of_mapM ∅ hrun fun d hd => ?_, hcs⟩
    have hin : (ConstraintSet.ofList cs).toList.contains d = true := by
      rw [ConstraintSet.toList_ofList, Distinct.contains_ofList]
      exact List.contains_iff_exists_mem_beq.2 ⟨d, hd, BEq.rfl⟩
    obtain ⟨e, he, hde⟩ := List.contains_iff_exists_mem_beq.1 hin
    obtain ⟨c, hc, hec⟩ :=
      List.contains_iff_exists_mem_beq.1 ((ConstraintSet.beq_iff.1 hcs).2 e he)
    exact (hkept c hc).congr (BEq.symm (BEq.trans hde hec))

end Relevance

end WhereClause
