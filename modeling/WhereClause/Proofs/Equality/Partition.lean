import Mathlib.Data.Set.Card
import WhereClause.Proofs.Equality.Operations

/-!
# Sets are disjoint at all times

Whatever is done to equality sets, in whatever order, and also where it breaks off at a clash, the
sets partition the known types: the index and the lists agree, no type is lost or listed twice,
types once together stay together, and a set that has lost its members to another is gone for good.
-/

namespace WhereClause

namespace Store

lemma nodup_refs (s : Store) : s.refs.Nodup := List.nodup_range.filter _

lemma Coherent.mem_refs_iff {s : Store} (h : s.Coherent) (r : ℕ) :
    r ∈ s.refs ↔ ∃ t, s.setOf t = some r := by
  have hfilled : (!(s.members r).isEmpty) = true ↔ ∃ t, s.setOf t = some r := by
    rw [Bool.not_eq_true', List.isEmpty_eq_false_iff, ne_eq, h.members_eq_nil_iff]
    push Not
    rfl
  rw [refs, List.mem_filter, List.mem_range, hfilled]
  exact ⟨fun hr => hr.2, fun ⟨t, ht⟩ => ⟨h.lt_length ht, t, ht⟩⟩

/-- As many sets are counted as there are answers to the question for the set of a type. -/
lemma Coherent.size_eq_ncard {s : Store} (h : s.Coherent) :
    s.size = {r | ∃ t, s.setOf t = some r}.ncard := by
  have hrefs : {r | ∃ t, s.setOf t = some r} = (s.refs.toFinset : Set ℕ) := by
    ext r
    simp [h.mem_refs_iff]
  rw [hrefs, Set.ncard_coe_finset, List.toFinset_card_of_nodup s.nodup_refs, size]

lemma Coherent.existsUnique_members {s : Store} (h : s.Coherent) {t : Ty}
    (ht : s.contains t = true) : ∃! r, (s.members r).contains t = true := by
  obtain ⟨r, hr⟩ := (contains_iff s t).1 ht
  refine ⟨r, h.contains_members hr, fun q hq => ?_⟩
  have hq' : s.setOf t = some q := (h.setOf_iff t q).2 hq
  exact Option.some.inj (hq'.symm.trans hr)

end Store

/-- The equality sets partition the known types after every sequence of operations, and every
further sequence keeps known types known and types of one set together, and leaves a set that is
empty without members for good. -/
theorem sets_partition_known_types {before later : List Operation} {e e' : Evidence}
    (h : (Evidence.empty .union).Leads before e) (h' : e.Leads later e') :
    (∀ t r, e.store.setOf t = some r ↔ (e.store.members r).contains t = true) ∧
      (∀ t, e.store.contains t = true → ∃! r, (e.store.members r).contains t = true) ∧
      (∀ r, Distinct.Apart (e.store.members r)) ∧
      e.store.size = {r | ∃ t, e.store.setOf t = some r}.ncard ∧
      (∀ t, e.store.contains t = true → e'.store.contains t = true) ∧
      (∀ t u r, e.store.setOf t = some r → e.store.setOf u = some r →
        ∃ q, e'.store.setOf t = some q ∧ e'.store.setOf u = some q) ∧
      (∀ r < e.store.sets.length, e.store.members r = [] →
        e'.store.members r = [] ∧ ∀ t, e'.store.setOf t ≠ some r) := by
  have hs : e.store.Sound := h.evolves.sound Store.sound_empty
  have hs' : e'.store.Sound := h'.evolves.sound hs
  refine ⟨hs.coherent.setOf_iff, fun t ht => hs.coherent.existsUnique_members ht,
    hs.coherent.apart, hs.coherent.size_eq_ncard, fun t ht => h'.evolves.contains hs ht, ?_, ?_⟩
  · intro t u r ht hu
    have hknown : e'.store.contains t = true :=
      h'.evolves.contains hs ((Store.contains_iff _ t).2 ⟨r, ht⟩)
    obtain ⟨q, hq⟩ := (Store.contains_iff _ t).1 hknown
    have hlinked : e'.store.Linked t u := h'.evolves.linked hs (.of_setOf ht hu)
    exact ⟨q, hq, hlinked.setOf_eq ▸ hq⟩
  · intro r hr hnil
    have hnil' := h'.evolves.members_eq_nil hs hr hnil
    exact ⟨hnil', (hs'.coherent.members_eq_nil_iff r).1 hnil'⟩

/-- Three calls, of which the last folds the set at `1` into the set at `0`. -/
def Operation.foldingCalls : List Operation :=
  [.equate (.param ⟨0, "P"⟩) (.param ⟨1, "Q"⟩), .equate (.param ⟨2, "T"⟩) (.param ⟨3, "U"⟩),
    .equate (.param ⟨1, "Q"⟩) (.param ⟨2, "T"⟩)]

/-- A call that breaks off at a clash after it found `V` and `P` equal, and a new set. -/
def Operation.clashingCall : List Operation :=
  [.equate (.tuple [.param ⟨4, "V"⟩, .tuple []]) (.tuple [.param ⟨0, "P"⟩, .tuple [.infer]]),
    .newSet [.param ⟨5, "W"⟩, .param ⟨5, "W"⟩]]

/-- The set that was folded into another stays empty after a clash, and those it held stay with
their like. -/
theorem sets_partition_after_fold_and_clash :
    let e := (Evidence.empty .union).performAll Operation.foldingCalls
    let e' := e.performAll Operation.clashingCall
    (Evidence.empty .union).Leads Operation.foldingCalls e ∧ e.Leads Operation.clashingCall e' ∧
      e'.store.contains (.param ⟨4, "V"⟩) = true ∧ e.store.members 1 = [] ∧
      e'.store.members 1 = [] ∧ (∀ t, e'.store.setOf t ≠ some 1) ∧
      e.store.size = {r | ∃ t, e.store.setOf t = some r}.ncard ∧
      ∃ q, e'.store.setOf (.param ⟨1, "Q"⟩) = some q ∧
        e'.store.setOf (.param ⟨3, "U"⟩) = some q := by
  intro e e'
  have h : (Evidence.empty .union).Leads Operation.foldingCalls e :=
    .cons trivial (.cons trivial (.cons trivial (.nil _)))
  have h' : e.Leads Operation.clashingCall e' :=
    .cons trivial (.cons (by simp only [Evidence.Permits]; decide +kernel) (.nil _))
  have hnil : e.store.members 1 = [] := by decide +kernel
  obtain ⟨-, -, -, hsize, -, htogether, hempty⟩ := sets_partition_known_types h h'
  obtain ⟨hnil', hgone⟩ := hempty 1 (by decide +kernel) hnil
  exact ⟨h, h', by decide +kernel, hnil, hnil', hgone, hsize,
    htogether _ _ 0 (by decide +kernel) (by decide +kernel)⟩

end WhereClause
