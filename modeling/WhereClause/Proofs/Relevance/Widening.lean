import Mathlib
import WhereClause.Proofs.Relevance.Consulting

/-!
# The more matters, the more is kept

A filter stops settling a constraint as soon as something in it is not relevant.  A filter for fewer
sets stops earlier, so it asks its resolver fewer questions.  Once a resolver has an answer for each
set with members this makes no difference: it is left as it is by every question that returns
(`Resolver.Unmoved`).  Then both filters see the same settled constraints, and the one for fewer
sets passes over more of them (`Relevance.filter_mono`).
-/

namespace WhereClause

open Resolving

/-! ## Resolvers that know all sets -/

namespace Resolver

/-- Each set with members has a representative that is remembered. -/
def Answered (store : Store) (ρ : Resolver) : Prop :=
  ∀ r : ℕ, store.members r ≠ [] → ∃ t, ρ.memo.get? (r : ℤ) = some (some t)

/-- A resolver that knows all sets is left as it is. -/
def Unmoved (store : Store) (ρ ρ' : Resolver) : Prop := Answered store ρ → ρ' = ρ

variable {store : Store}

instance : Std.Refl (Unmoved store) := ⟨fun _ _ => rfl⟩

instance : Trans (Unmoved store) (Unmoved store) (Unmoved store) where
  trans h h' := by
    intro hρ
    obtain rfl := h hρ
    exact h' hρ

lemma Unmoved.pop {ρ ρ' : Resolver} {r : ℕ} (h : Unmoved store (ρ.push r) ρ') :
    Unmoved store ρ (ρ'.pop r) := by
  intro hρ
  obtain rfl : ρ' = ρ.push r := h hρ
  rw [Resolver.pop, push, List.erase_cons_head]

/-- What is not remembered has no members, so asking for it does not return. -/
lemma unmoved_concrete (t : Ty) : Keeps (Unmoved store) (concrete store t) := by
  intro ρ w ρ' hrun hρ
  rw [concrete_eq] at hrun
  rcases concreteWithin_returns hrun with ⟨-, -, rfl⟩ | ⟨r, o, -, ho, -⟩
  · rfl
  · rcases resolveWithin_returns ho with ⟨-, rfl⟩ | ⟨_, u, us, _, _, hunasked, -, hmembers, -⟩
    · rfl
    · have hne : store.members r ≠ [] := by
        rw [(Store.members_of_members? hmembers).2]
        exact List.cons_ne_nil u us
      obtain ⟨known, hknown⟩ := hρ r hne
      rw [hunasked] at hknown
      cases hknown

lemma unmoved_expandWithin (depth r : ℕ) (t : Ty) :
    Keeps (Unmoved store) (expandWithin store depth r t) :=
  keeps_expandWithin_of_concrete unmoved_concrete Unmoved.pop depth r t

lemma filtering_unmoved (store : Store) :
    Filtering (fun _ Q x => Returns (Unmoved store) Q x) store :=
  { compositional_returns (Unmoved store) with
    settle := fun t => (Ty.keeps_settlePart (unmoved_expandWithin _) t).returns
    settleBound := fun b => (Bound.keeps_settle (unmoved_expandWithin _) b).returns }

end Resolver

namespace Relevance

open Resolver

/-! ## One constraint -/

variable {v v' : Relevance} {store : Store}

section

variable (hv : ∀ r ∈ v.sets, r ∈ v'.sets)

include hv

lemma isRelevantType_mono : ∀ {t : Ty}, v.isRelevantType store t = true →
    v'.isRelevantType store t = true
  | .param p, h => by
    rw [isRelevantType, isRelevantParam] at h ⊢
    cases hset : store.setOf (.param p) with
    | none =>
      rw [hset, Option.map_none, isRelevantSet] at h
      cases h
    | some r =>
      rw [hset, Option.map_some, isRelevantSet, List.contains_iff_mem] at h
      rw [Option.map_some, isRelevantSet, List.contains_iff_mem]
      exact hv _ h
  | .ref _ t _, h => isRelevantType_mono (t := t) h
  | .infer, h | .str, h | .tuple _, h | .deref _, h | .dyn _, h | .data _ _ _, h | .path _, h => by
    cases h

lemma isRelevantArg_mono {a : Arg} (h : v.isRelevantArg store a = true) :
    v'.isRelevantArg store a = true := by
  cases a with
  | type t => exact isRelevantType_mono hv h
  | lifetime l => rfl

/-- Whether a bound is understood does not depend on what matters. -/
lemma isRelevantBound_mono (store : Store) (b : Bound) :
    (∃ fault, v.isRelevantBound store b = .error fault ∧
        v'.isRelevantBound store b = .error fault) ∨
      ∃ relevant relevant', v.isRelevantBound store b = .ok relevant ∧
        v'.isRelevantBound store b = .ok relevant' ∧ (relevant = true → relevant' = true) := by
  cases b with
  | outlives l => exact .inr ⟨true, true, rfl, rfl, id⟩
  | trait p binder =>
    obtain ⟨isGlobal, init, ⟨name, as⟩⟩ := p
    cases as with
    | none => exact .inr ⟨true, true, rfl, rfl, id⟩
    | angle as =>
      refine .inr ⟨as.all (v.isRelevantArg store), as.all (v'.isRelevantArg store), rfl, rfl, ?_⟩
      simp only [List.all_eq_true]
      intro hall a ha
      exact isRelevantArg_mono hv (hall a ha)
    | paren inputs output => exact .inl ⟨_, rfl, rfl⟩

lemma Admits.mono {c : Constraint} (h : v.Admits store c) : v'.Admits store c := by
  cases c with
  | lifetime l ls => trivial
  | type t bs binder =>
    refine ⟨isRelevantType_mono hv h.1, fun b hb => ?_⟩
    rcases isRelevantBound_mono hv store b with
      ⟨fault, hb', -⟩ | ⟨relevant, relevant', hb', hb'', himp⟩
    · rw [h.2 b hb] at hb'
      cases hb'
    · rw [h.2 b hb] at hb'
      rw [hb'', himp (Except.ok.inj hb').symm]

variable {ρ ρ' : Resolver} (hρ : Answered store ρ)

include hρ

/-- As long as all bounds are relevant to the filter for fewer sets, both go on alike. -/
lemma exists_keepBounds {bs : List Bound} {o' : Option (List Bound)}
    (h : v'.keepBounds store bs ρ = (.ok o', ρ')) :
    ∃ o, v.keepBounds store bs ρ = (.ok o, ρ) := by
  induction bs generalizing o' ρ' with
  | nil => exact ⟨some [], rfl⟩
  | cons b bs ih =>
    rw [keepBounds] at h ⊢
    obtain ⟨b', ρ₁, hb, hrest⟩ := bind_eq_ok_iff.1 h
    obtain rfl : ρ₁ = ρ := ((filtering_unmoved store).settleBound b).keeps hb hρ
    rcases isRelevantBound_mono hv store b' with
      ⟨fault, -, hrelevant'⟩ | ⟨relevant, relevant', hrelevant, hrelevant', himp⟩
    · rw [hrelevant'] at hrest
      cases congrArg Prod.fst hrest
    · cases relevant with
      | false =>
        refine ⟨none, bind_eq_ok_iff.2 ⟨b', ρ₁, hb, ?_⟩⟩
        rw [hrelevant]
        rfl
      | true =>
        rw [hrelevant', himp rfl] at hrest
        obtain ⟨o₁, ρ₂, ho₁, -⟩ := bind_eq_ok_iff.1 hrest
        obtain ⟨o, ho⟩ := ih ho₁
        refine ⟨o.map (b' :: ·), bind_eq_ok_iff.2 ⟨b', ρ₁, hb, ?_⟩⟩
        rw [hrelevant]
        exact bind_eq_ok_iff.2 ⟨o, ρ₁, ho, rfl⟩

lemma exists_keep {c : Constraint} {o' : Option Constraint}
    (h : v'.keep store c ρ = (.ok o', ρ')) : ∃ o, v.keep store c ρ = (.ok o, ρ) := by
  cases c with
  | lifetime l ls => exact ⟨_, rfl⟩
  | type t bs binder =>
    rw [keep] at h ⊢
    obtain ⟨t', ρ₁, ht, hrest⟩ := bind_eq_ok_iff.1 h
    obtain rfl : ρ₁ = ρ := ((filtering_unmoved store).settle t).keeps ht hρ
    by_cases hrelevant : v.isRelevantType store t' = true
    · rw [if_pos (isRelevantType_mono hv hrelevant)] at hrest
      obtain ⟨o₁, ρ₂, ho₁, -⟩ := bind_eq_ok_iff.1 hrest
      obtain ⟨o, ho⟩ := exists_keepBounds hv hρ ho₁
      refine ⟨o.map (.type t' · binder), bind_eq_ok_iff.2 ⟨t', ρ₁, ht, ?_⟩⟩
      rw [if_pos hrelevant]
      exact bind_eq_ok_iff.2 ⟨o, ρ₁, ho, rfl⟩
    · refine ⟨none, bind_eq_ok_iff.2 ⟨t', ρ₁, ht, ?_⟩⟩
      rw [if_neg hrelevant]
      rfl

end

/-! ## Filtering several constraints -/

/-- What has passed a filter for fewer sets, of what has passed one for more: whatever is relevant
to it, in the same order. -/
structure Selects (v : Relevance) (store : Store) (result result' : ConstraintSet) : Prop where
  sublist : result.toList.Sublist result'.toList
  contains_eq : ∀ c, v.Admits store c → result.contains c = result'.contains c

namespace Selects

variable {result result' : ConstraintSet} {d : Constraint}

/-- A settled constraint passes both filters. -/
lemma insert (h : Selects v store result result') (hd : v.Admits store d) :
    Selects v store (result.insert d) (result'.insert d) := by
  have hin := h.contains_eq d hd
  refine ⟨?_, fun c hc => ?_⟩
  · rw [ConstraintSet.toList_insert, ConstraintSet.toList_insert]
    cases hcontains : result.toList.contains d with
    | true =>
      rw [Distinct.add_of_contains hcontains, Distinct.add_of_contains (hin.symm.trans hcontains)]
      exact h.sublist
    | false =>
      rw [Distinct.add_of_not_contains hcontains,
        Distinct.add_of_not_contains (hin.symm.trans hcontains)]
      exact h.sublist.append (.refl [d])
  · have hadd : ∀ s : ConstraintSet, (s.insert d).contains c = (s.contains c || c == d) := by
      intro s
      exact Distinct.contains_add s.toList d c
    rw [hadd, hadd, h.contains_eq c hc]

/-- A settled constraint passes the filter for more sets alone, and with it nothing equal to what
is relevant to the other. -/
lemma insert_right (h : Selects v store result result') (hd : ¬ v.Admits store d) :
    Selects v store result (result'.insert d) := by
  refine ⟨?_, fun c hc => ?_⟩
  · obtain ⟨ds, hds⟩ := Distinct.exists_add_eq_append result'.toList d
    rw [ConstraintSet.toList_insert, hds]
    exact h.sublist.trans (List.sublist_append_left _ _)
  · have hne : (c == d) = false := by
      by_contra heq
      exact hd (hc.congr (by simpa using heq))
    have hadd : (result'.insert d).contains c = (result'.contains c || c == d) :=
      Distinct.contains_add result'.toList d c
    rw [hadd, hne, Bool.or_false, h.contains_eq c hc]

end Selects

variable {ρ ρ' : Resolver}

/-- One constraint is settled alike for both filters. -/
lemma Selects.pass {result result' next' : ConstraintSet} {c : Constraint}
    (hselects : Selects v store result result') (hv : ∀ r ∈ v.sets, r ∈ v'.sets)
    (hρ : Answered store ρ) (h : v'.pass store result' c ρ = (.ok next', ρ')) :
    ρ' = ρ ∧ ∃ next, v.pass store result c ρ = (.ok next, ρ) ∧ Selects v store next next' := by
  obtain ⟨o', ρ₁, hkeep', hrest⟩ := bind_eq_ok_iff.1 h
  obtain rfl : ρ₁ = ρ := ((filtering_unmoved store).keep v' c).keeps hkeep' hρ
  obtain ⟨rfl, rfl⟩ := pure_eq_ok_iff.1 hrest
  obtain ⟨o, hkeep⟩ := exists_keep hv hρ hkeep'
  refine ⟨rfl, (o.map result.insert).getD result, bind_eq_ok_iff.2 ⟨o, ρ₁, hkeep, rfl⟩, ?_⟩
  cases o with
  | some d =>
    -- what is relevant to the filter for fewer sets passes the other as well
    obtain ⟨hsettle, hadmits⟩ := keep_eq_some_iff.1 hkeep
    have hboth := keep_eq_some_iff.2 ⟨hsettle, hadmits.mono hv⟩
    obtain ⟨ho', -⟩ := Prod.mk.inj (hkeep'.symm.trans hboth)
    rw [Except.ok.inj ho']
    exact hselects.insert hadmits
  | none =>
    cases o' with
    | none => exact hselects
    | some d =>
      refine hselects.insert_right fun hadmits => ?_
      obtain ⟨hsettle, -⟩ := keep_eq_some_iff.1 hkeep'
      have hboth := keep_eq_some_iff.2 ⟨hsettle, hadmits⟩
      cases congrArg Prod.fst (hkeep.symm.trans hboth)

lemma Selects.foldlM_pass {cs : List Constraint} {result result' kept' : ConstraintSet}
    (hselects : Selects v store result result') (hv : ∀ r ∈ v.sets, r ∈ v'.sets)
    (hρ : Answered store ρ) (h : cs.foldlM (v'.pass store) result' ρ = (.ok kept', ρ')) :
    ρ' = ρ ∧ ∃ kept, cs.foldlM (v.pass store) result ρ = (.ok kept, ρ) ∧
      Selects v store kept kept' := by
  induction cs generalizing result result' with
  | nil =>
    obtain ⟨rfl, rfl⟩ := pure_eq_ok_iff.1 h
    exact ⟨rfl, result, rfl, hselects⟩
  | cons c cs ih =>
    rw [List.foldlM_cons] at h
    obtain ⟨next', ρ₁, hpass', hrest⟩ := bind_eq_ok_iff.1 h
    obtain ⟨rfl, next, hpass, hnext⟩ := hselects.pass hv hρ hpass'
    obtain ⟨hsame, kept, hkept, hselected⟩ := ih hnext hrest
    refine ⟨hsame, kept, ?_, hselected⟩
    rw [List.foldlM_cons]
    exact bind_eq_ok_iff.2 ⟨next, ρ₁, hpass, hkept⟩

/-- If the filter for more sets returns, then so does the filter for fewer, on the same resolver,
and what it keeps is among what the other keeps, in the same order. -/
theorem filter_mono (hv : ∀ r ∈ v.sets, r ∈ v'.sets) (hρ : Answered store ρ)
    {cs : List Constraint} {kept' : ConstraintSet}
    (h : v'.filter store cs ρ = (.ok kept', ρ')) :
    ρ' = ρ ∧ ∃ kept, v.filter store cs ρ = (.ok kept, ρ) ∧ kept.toList.Sublist kept'.toList := by
  have hempty : Selects v store ∅ ∅ := ⟨.refl _, fun _ _ => rfl⟩
  obtain ⟨hsame, kept, hkept, hselects⟩ := hempty.foldlM_pass hv hρ h
  exact ⟨hsame, kept, hkept, hselects.sublist⟩

/-- Two calls, after which `P` and `X` are one type, and `Q` and `Y` another. -/
def twoClasses : Store :=
  ((Evidence.empty .union).performAll
    [.equate (.param ⟨0, "P"⟩) (.param ⟨2, "X"⟩),
      .equate (.param ⟨1, "Q"⟩) (.param ⟨3, "Y"⟩)]).store

/-- A resolver that was asked for both sets. -/
def afterBothClasses : Resolver :=
  ((Query.resolve 1).ask twoClasses ((Query.resolve 0).ask twoClasses ∅).2).2

/-- That a parameter can be cloned. -/
def clones (p : Param) : Constraint := .type (.param p) [.trait (.ofName "Clone" []) []] []

/-- The constraint on `X` is kept as one on `P` if the first set matters, and that on `Y` is kept if
the second does. -/
theorem filter_mono_twoClasses :
    let cs := [clones ⟨3, "Y"⟩, clones ⟨2, "X"⟩]
    let kept' := ConstraintSet.ofList [clones ⟨1, "Q"⟩, clones ⟨0, "P"⟩]
    (∀ r ∈ (ofRefs [0]).sets, r ∈ (ofRefs [0, 1]).sets) ∧
      Answered twoClasses afterBothClasses ∧
      (ofRefs [0, 1]).filter twoClasses cs afterBothClasses = (.ok kept', afterBothClasses) ∧
      ∃ kept, (ofRefs [0]).filter twoClasses cs afterBothClasses = (.ok kept, afterBothClasses) ∧
        kept.toList.Sublist kept'.toList := by
  have hsets : ∀ r ∈ (ofRefs [0]).sets, r ∈ (ofRefs [0, 1]).sets := by decide
  have hanswered : Answered twoClasses afterBothClasses := by
    intro r hr
    rcases r with _ | _ | r
    · exact ⟨.param ⟨0, "P"⟩, by cbv⟩
    · exact ⟨.param ⟨1, "Q"⟩, by cbv⟩
    · have hlength : twoClasses.sets.length = 2 := by cbv
      exact absurd (Store.members_of_length_le (by omega)) hr
  have hkept' : ((ofRefs [0, 1]).filter twoClasses [clones ⟨3, "Y"⟩, clones ⟨2, "X"⟩]
      afterBothClasses).1 = .ok (.ofList [clones ⟨1, "Q"⟩, clones ⟨0, "P"⟩]) := by cbv
  obtain ⟨hsame, hkept⟩ := filter_mono hsets hanswered (Prod.ext hkept' rfl)
  exact ⟨hsets, hanswered, Prod.ext hkept' hsame, hkept⟩

end Relevance

end WhereClause
