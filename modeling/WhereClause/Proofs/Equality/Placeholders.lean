import WhereClause.Proofs.Equality.Classes

/-!
# What the placeholder links

To the equality sets `_` is a type like any other, and all placeholders are one type.  So a pair of a
type and `_` puts the type into the set of `_`, where it meets every other type that stood beside
some `_`.  `eqvGen_stated_iff` splits what pairs of equal types generate accordingly: two types are
related by the pairs without placeholders, or each of them is so related to a type that a pair puts
beside `_`.  For calls on parameters and placeholders this decides which parameters share a set
(`common_set_of_params_iff`).
-/

namespace WhereClause

open Relation (EqvGen)

namespace Ty

/-- Whether something is known of a type. -/
def isKnown : Ty → Bool
  | .infer => false
  | _ => true

def isParamOrInfer : Ty → Bool
  | .infer | .param _ => true
  | _ => false

/-- The pairs of two types of which something is known. -/
def knownPairs (pairs : List (Ty × Ty)) : List (Ty × Ty) :=
  pairs.filter fun pair => pair.1.isKnown && pair.2.isKnown

/-- Pairs of known types relate a type to one that a pair puts beside `_`. -/
def MeetsInfer (pairs : List (Ty × Ty)) (t : Ty) : Prop :=
  ∃ u, EqvGen (Stated (knownPairs pairs)) t u ∧ ((u, .infer) ∈ pairs ∨ (.infer, u) ∈ pairs)

/-! ## Splitting what pairs generate -/

lemma eq_infer_iff (t : Ty) : t = .infer ↔ t.isKnown = false := by
  cases t <;> simp [isKnown]

lemma isKnown_congr {t u : Ty} (h : (t == u) = true) : t.isKnown = u.isKnown := by
  have h' : Ty.same t u = true := h
  cases t <;> cases u <;> first | rfl | simp [Ty.same] at h'

variable {pairs : List (Ty × Ty)} {t u v : Ty}

lemma isKnown_of_eqvGen (h : EqvGen (Stated (knownPairs pairs)) t u) :
    t.isKnown = u.isKnown := by
  induction h with
  | rel t u h =>
    rcases h with h | h
    · exact isKnown_congr h
    · obtain ⟨ht, hu⟩ := Bool.and_eq_true_iff.1 (List.mem_filter.1 h).2
      rw [ht, hu]
  | refl t => rfl
  | symm _ _ _ ih => exact ih.symm
  | trans _ _ _ _ _ ih ih' => exact ih.trans ih'

namespace MeetsInfer

lemma of_eqvGen (h : MeetsInfer pairs u) (htu : EqvGen (Stated (knownPairs pairs)) t u) :
    MeetsInfer pairs t := by
  obtain ⟨v, huv, hv⟩ := h
  exact ⟨v, htu.trans _ _ _ huv, hv⟩

lemma eqvGen_infer (h : MeetsInfer pairs t) : EqvGen (Stated pairs) t .infer := by
  obtain ⟨u, htu, hu⟩ := h
  have hknown : EqvGen (Stated pairs) t u :=
    htu.mono fun _ _ hstated => hstated.imp id fun hmem => (List.mem_filter.1 hmem).1
  rcases hu with hu | hu
  · exact hknown.trans _ _ _ (.rel _ _ (.inr hu))
  · exact hknown.trans _ _ _ (.symm _ _ (.rel _ _ (.inr hu)))

end MeetsInfer

/-- Whether types are related that are not known: only `_` itself, and what meets it. -/
private lemma split_of_eqvGen (h : EqvGen (Stated pairs) t u) :
    EqvGen (Stated (knownPairs pairs)) t u ∨
      (t = .infer ∨ MeetsInfer pairs t) ∧ (u = .infer ∨ MeetsInfer pairs u) := by
  -- what meets `_` is closed under the pairs of known types
  have hclosed : ∀ {v w : Ty}, EqvGen (Stated (knownPairs pairs)) v w →
      w = .infer ∨ MeetsInfer pairs w → v = .infer ∨ MeetsInfer pairs v := by
    rintro v w hvw (rfl | hw)
    · exact .inl ((eq_infer_iff v).2 (isKnown_of_eqvGen hvw))
    · exact .inr (hw.of_eqvGen hvw)
  induction h with
  | rel t u h =>
    rcases h with h | h
    · exact .inl (.rel _ _ (.inl h))
    · by_cases hknown : (t.isKnown && u.isKnown) = true
      · exact .inl (.rel _ _ (.inr (List.mem_filter.2 ⟨h, hknown⟩)))
      · rw [Bool.not_eq_true, Bool.and_eq_false_iff, ← eq_infer_iff, ← eq_infer_iff] at hknown
        rcases hknown with rfl | rfl
        · exact .inr ⟨.inl rfl, .inr ⟨u, .refl _, .inr h⟩⟩
        · exact .inr ⟨.inr ⟨t, .refl _, .inl h⟩, .inl rfl⟩
  | refl t => exact .inl (.refl _)
  | symm t u _ ih =>
    rcases ih with h | ⟨ht, hu⟩
    · exact .inl (.symm _ _ h)
    · exact .inr ⟨hu, ht⟩
  | trans t u v _ _ ih ih' =>
    rcases ih with h | ⟨ht, hu⟩
    · rcases ih' with h' | ⟨hu, hv⟩
      · exact .inl (.trans _ _ _ h h')
      · exact .inr ⟨hclosed h hu, hv⟩
    · rcases ih' with h' | ⟨_, hv⟩
      · exact .inr ⟨ht, hclosed (.symm _ _ h') hu⟩
      · exact .inr ⟨ht, hv⟩

/-- Two known types are equal by pairs of equal types if they are by those of known types, or if
both meet `_`. -/
theorem eqvGen_stated_iff (ht : t.isKnown = true) (hu : u.isKnown = true) :
    EqvGen (Stated pairs) t u ↔
      EqvGen (Stated (knownPairs pairs)) t u ∨ MeetsInfer pairs t ∧ MeetsInfer pairs u := by
  constructor
  · intro h
    rcases split_of_eqvGen h with h | ⟨ht', hu'⟩
    · exact .inl h
    · have hmeets : ∀ {v : Ty}, v.isKnown = true → v = .infer ∨ MeetsInfer pairs v →
          MeetsInfer pairs v := by
        rintro v hv (rfl | hv')
        · cases hv
        · exact hv'
      exact .inr ⟨hmeets ht ht', hmeets hu hu'⟩
  · rintro (h | ⟨ht', hu'⟩)
    · exact h.mono fun _ _ hstated => hstated.imp id fun hmem => (List.mem_filter.1 hmem).1
    · exact ht'.eqvGen_infer.trans _ _ _ (.symm _ _ hu'.eqvGen_infer)

/-! ## Calls on parameters and placeholders -/

lemma eq_of_isParamOrInfer {a : Ty} (h : a.isParamOrInfer = true) :
    a = .infer ∨ ∃ p, a = .param p := by
  cases a <;> simp [isParamOrInfer] at h ⊢

/-- There is nothing below a parameter or a placeholder, and nothing to clash with. -/
lemma align_of_isParamOrInfer {a : Ty} (ha : a.isParamOrInfer = true) (b : Ty) :
    (a.align b).clash = none ∧ parts a b = [] := by
  rcases eq_of_isParamOrInfer ha with rfl | ⟨p, rfl⟩
  · cases b <;> simp [align, Alignment.step, parts]
  · cases b <;> simp [align, Alignment.step, parts]

lemma isEqualPair_of_isParamOrInfer {pair : Ty × Ty} (ha : pair.1.isParamOrInfer = true)
    (hb : pair.2.isParamOrInfer = true) : isEqualPair pair = true := by
  obtain ⟨a, b⟩ := pair
  rcases eq_of_isParamOrInfer ha with rfl | ⟨p, rfl⟩ <;>
    rcases eq_of_isParamOrInfer hb with rfl | ⟨q, rfl⟩ <;> rfl

/-- Walks over parameters and placeholders meet no other pairs than those they begin with. -/
lemma equalPairs_of_isParamOrInfer
    (h : ∀ pair ∈ pairs, pair.1.isParamOrInfer = true ∧ pair.2.isParamOrInfer = true) :
    equalPairs pairs = pairs := by
  have hmet : metBelow pairs = pairs := by
    induction pairs with
    | nil => rfl
    | cons pair rest ih =>
      obtain ⟨hpair, hrest⟩ := List.forall_mem_cons.1 h
      rw [metBelow_cons, (align_of_isParamOrInfer hpair.1 _).2, metBelow_nil,
        List.nil_append, ih hrest]
  rw [equalPairs, hmet, List.filter_eq_self]
  exact fun pair hpair => isEqualPair_of_isParamOrInfer (h pair hpair).1 (h pair hpair).2

end Ty

/-- Calls return if no pair of types that they lay side by side clashes. -/
lemma Evidence.equateAll_returns {pairs : List (Ty × Ty)} (e : Evidence)
    (h : ∀ pair ∈ pairs, (pair.1.align pair.2).clash = none) : (e.equateAll pairs).2 = none := by
  induction pairs generalizing e with
  | nil => rfl
  | cons pair rest ih =>
    obtain ⟨a, b⟩ := pair
    obtain ⟨hpair, hrest⟩ := List.forall_mem_cons.1 h
    have hclash : (a.align b).clash = none := hpair
    rw [equateAll, equate, learn, hclash]
    exact ih _ hrest

/-- Calls in which parameters and placeholders meet all return.  Afterwards two parameters share a
set if and only if calls on parameters alone connect them, or connect each of them to a parameter
that some call put beside `_`. -/
theorem common_set_of_params_iff {pairs : List (Ty × Ty)}
    (h : ∀ pair ∈ pairs, pair.1.isParamOrInfer = true ∧ pair.2.isParamOrInfer = true) :
    ∃ e, (Evidence.empty .union).equateAll pairs = (e, none) ∧
      ∀ p q : Param, p.number ≠ q.number →
        ((∃ r, (e.store.members r).contains (.param p) = true ∧
            (e.store.members r).contains (.param q) = true) ↔
          EqvGen (Ty.Stated (Ty.knownPairs pairs)) (.param p) (.param q) ∨
            Ty.MeetsInfer pairs (.param p) ∧ Ty.MeetsInfer pairs (.param q)) := by
  have hreturns : ((Evidence.empty .union).equateAll pairs).2 = none :=
    Evidence.equateAll_returns _ fun pair hpair =>
      (Ty.align_of_isParamOrInfer (h pair hpair).1 pair.2).1
  have hall : (Evidence.empty .union).equateAll pairs =
      (((Evidence.empty .union).equateAll pairs).1, none) := by rw [← hreturns]
  refine ⟨_, hall, fun p q hpq => ?_⟩
  have hreflects := Evidence.reflects_of_equateAll hall
  rw [Ty.equalPairs_of_isParamOrInfer h] at hreflects
  have hne : (Ty.param p == Ty.param q) = false := by
    rw [← Bool.not_eq_true, Param.beq_ty_iff]
    exact hpq
  rw [hreflects.exists_members_iff hne, Ty.eqvGen_stated_iff rfl rfl]

/-- `P` stands beside `_`, and so does `R`; `Q` goes where a `P` is expected. -/
def Ty.placeholderCalls : List (Ty × Ty) :=
  [(.param ⟨0, "P"⟩, .infer), (.param ⟨0, "P"⟩, .param ⟨1, "Q"⟩), (.infer, .param ⟨2, "R"⟩)]

/-- `Q` and `R` share a set, `Q` by way of `P`. -/
theorem common_set_of_placeholderCalls :
    ∃ e, (Evidence.empty .union).equateAll Ty.placeholderCalls = (e, none) ∧
      ∃ r, (e.store.members r).contains (.param ⟨1, "Q"⟩) = true ∧
        (e.store.members r).contains (.param ⟨2, "R"⟩) = true := by
  have hparams : ∀ pair ∈ Ty.placeholderCalls,
      pair.1.isParamOrInfer = true ∧ pair.2.isParamOrInfer = true := by decide
  obtain ⟨e, he, hiff⟩ := common_set_of_params_iff hparams
  refine ⟨e, he, (hiff ⟨1, "Q"⟩ ⟨2, "R"⟩ (by decide)).2 (.inr ⟨?_, ?_⟩)⟩
  · have hcall : (Ty.param ⟨0, "P"⟩, Ty.param ⟨1, "Q"⟩) ∈ Ty.knownPairs Ty.placeholderCalls := by
      simp [Ty.knownPairs, Ty.placeholderCalls, Ty.isKnown]
    refine ⟨.param ⟨0, "P"⟩, .symm _ _ (.rel _ _ (.inr hcall)), .inl ?_⟩
    simp [Ty.placeholderCalls]
  · exact ⟨.param ⟨2, "R"⟩, .refl _, .inr (by simp [Ty.placeholderCalls])⟩

/-- `P` and `Q` go where nothing is known of what is expected. -/
def Ty.unknownCalls : List (Ty × Ty) :=
  [(.infer, .param ⟨0, "P"⟩), (.infer, .param ⟨1, "Q"⟩)]

/-- `P` and `Q` share a set, and no call is on two parameters. -/
theorem common_set_of_unknownCalls :
    let e := ((Evidence.empty .union).equateAll Ty.unknownCalls).1
    (Evidence.empty .union).equateAll Ty.unknownCalls = (e, none) ∧
      (e.store.members 0).contains (.param ⟨0, "P"⟩) = true ∧
      (e.store.members 0).contains (.param ⟨1, "Q"⟩) = true ∧
      ¬ EqvGen (Ty.Stated (Ty.knownPairs Ty.unknownCalls)) (.param ⟨0, "P"⟩)
        (.param ⟨1, "Q"⟩) := by
  intro e
  refine ⟨?_, by decide +kernel, by decide +kernel, fun h => ?_⟩
  · have hreturns : ((Evidence.empty .union).equateAll Ty.unknownCalls).2.isNone = true := by
      decide +kernel
    rw [← Option.isNone_iff_eq_none.1 hreturns]
  · have hlinked := (Store.reflects_empty.linked_iff _ _).2 h
    exact absurd (hlinked.beq_of_setOf_eq_none rfl) (by decide +kernel)

end WhereClause
