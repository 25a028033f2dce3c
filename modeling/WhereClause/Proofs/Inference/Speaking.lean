import WhereClause.Proofs.Inference.Concluding
import WhereClause.Proofs.Inference.Ending
import WhereClause.Proofs.Representative.Reaching

/-!
# What an answer speaks of

Each constraint on a type that an answer holds is on a parameter, maybe under references.  That
parameter need not be one that the implementation declares.  It is the representative of its
equality set, which is the oldest parameter of the set, whoever declared it; and the set may be one
that the declared parameters only lead to, by way of the parameters nested in representatives
(`Implementation.bounded_by_infer`).  The parameter is a declared one exactly if the oldest of its
set is.
-/

namespace WhereClause

open Resolving Resolver

namespace Implementation

/-- An inference that answers filtered the candidates after all calls and the search went well. -/
lemma infer_returns {i : Implementation} {events : List Event} {kept : ConstraintSet}
    (h : i.infer .union = (events, .ok kept)) :
    ∃ refs ρ, (i.evidence .union).2 = none ∧
      closure (i.evidence .union).1.store.leave ∅ i.ownParams =
        (i.searched .union, .ok refs) ∧
      (Relevance.ofRefs refs).filter (i.searched .union).store
        (i.evidence .union).1.candidates.toList (i.searched .union).resolver = (.ok kept, ρ) := by
  unfold infer at h
  unfold searched
  rcases hevidence : i.evidence .union with ⟨e, _ | failure⟩
  · rw [hevidence] at h
    dsimp only [Evidence.conclude, Evidence.tell] at h ⊢
    rcases hclosure : closure e.store.leave ∅ i.ownParams with ⟨s, fault | refs⟩
    · rw [hclosure] at h
      cases congrArg Prod.snd h
    · rw [hclosure] at h
      dsimp only at h ⊢
      rcases hfilter : (Relevance.ofRefs refs).filter s.store e.candidates.toList s.resolver with
        ⟨fault | kept', ρ⟩
      · rw [hfilter] at h
        cases congrArg Prod.snd h
      · rw [hfilter] at h
        obtain rfl : kept' = kept := Except.ok.inj (congrArg Prod.snd h)
        exact ⟨refs, ρ, rfl, rfl, hfilter⟩
  · rw [hevidence] at h
    cases congrArg Prod.snd h

lemma sound_evidence (i : Implementation) : (i.evidence .union).1.store.leave.Sound :=
  (i.evolves_evidence .union).sound Store.sound_empty

end Implementation

lemma Ty.mentions_of_pointee : ∀ {t : Ty} {p : Param}, t.pointee = .param p → t.mentions = [p]
  | .ref _ t _, p, h => by
    rw [Ty.mentions]
    exact mentions_of_pointee (t := t) h
  | .param q, p, h => by
    obtain rfl : q = p := Ty.param.inj h
    rw [Ty.mentions]
  | .infer, _, h | .str, _, h | .tuple _, _, h | .deref _, _, h | .dyn _, _, h | .data _ _ _, _, h
  | .path _, _, h => by cases h

namespace Implementation

/-- Let an inference answer.  The bounded type of a constraint in the answer is a type parameter,
maybe under references.  This parameter is the representative of its equality set, to which the
declared parameters lead through nested parameters, and the oldest parameter of the set.  It has the
number of a declared parameter exactly if a declared parameter is the oldest of the set. -/
theorem bounded_by_infer {i : Implementation} {events : List Event} {kept : ConstraintSet}
    (h : i.infer .union = (events, .ok kept)) {t : Ty} {bs : List Bound} {binder : List Lifetime}
    (hc : .type t bs binder ∈ kept.toList) :
    let s := i.searched .union
    ∃ p r, t.pointee = .param p ∧ t.mentions = [p] ∧ s.store.setOf (.param p) = some r ∧
      s.Meets i.ownParams r ∧ s.resolver.Represents r (.param p) ∧
      (∀ q, s.store.setOf (.param q) = some r → p.number ≤ q.number) ∧
      ((∃ o ∈ i.ownParams, o.number = p.number) ↔
        ∃ o ∈ i.ownParams, s.store.setOf (.param o) = some r ∧
          ∀ q, s.store.setOf (.param q) = some r → o.number ≤ q.number) := by
  intro s
  obtain ⟨refs, ρ, -, hclosure, hfilter⟩ := infer_returns h
  have hfresh : Trusty (i.evidence .union).1.store.leave ∅ := .fresh i.sound_evidence.coherent
  have hs : Trusty s.store s.resolver := Search.trusty_closure hfresh hclosure
  obtain ⟨hremembered, hrefs⟩ := Search.mem_closure_iff hclosure
  have hlater : Later s.store s.resolver ρ :=
    Relevance.keeps_filter hs.coherent _ _ hfilter
  obtain ⟨hadmits, hanchored⟩ := Relevance.anchored_filter hs hfilter _ hc
  obtain ⟨p, hp, hrelevant⟩ := Relevance.isRelevantType_iff.1 hadmits.1
  obtain ⟨r, hr, hset⟩ := Relevance.isRelevantParam_ofRefs_iff.1 hrelevant
  have hmeets : s.Meets i.ownParams r := (hrefs r).1 hr
  -- what the filter remembers of the set was remembered before
  have hmemo : ρ.memo.get? (r : ℤ) = some (some (.param p)) :=
    hanchored t List.mem_cons_self p r hp hset
  obtain ⟨w, hw⟩ := hremembered r hmeets.leadsTo
  have hrepresents : s.resolver.Represents r (.param p) := by
    have hkept : ρ.Represents r w := hlater.kept _ _ hw
    obtain rfl := hkept.eq hmemo
    exact hw
  have hstands := (hs.faithful r _ hrepresents).2
  have holdest : ∀ q, s.store.setOf (.param q) = some r → p.number ≤ q.number :=
    fun q hq => hstands.oldest p rfl q (hs.coherent.contains_members hq)
  refine ⟨p, r, hp, Ty.mentions_of_pointee hp, hset, hmeets, hrepresents, holdest, ?_, ?_⟩
  · rintro ⟨o, ho, hnumber⟩
    refine ⟨o, ho, ?_, fun q hq => ?_⟩
    · rw [Store.setOf_congr (Param.beq_ty_iff.2 hnumber), hset]
    · rw [hnumber]
      exact holdest q hq
  · rintro ⟨o, ho, hoset, hle⟩
    exact ⟨o, ho, Int.le_antisymm (hle p hset) (holdest o hoset)⟩

/-- That a type parameter can be cloned. -/
def cloned (p : Param) : Constraint := .type (.param p) [.trait (.ofName "Clone" []) []] []

/-- A function of `Pair<P, Q>` passes a `P` for a `T`, which is older, and a `Q` for vectors of `U`.
The callee wants to clone both `T` and `U`. -/
def storing : Implementation where
  ty := .data "Pair" ⟨[.type (.param ⟨1, "P"⟩), .type (.param ⟨2, "Q"⟩)], []⟩ []
  trait := none
  functions := [⟨"store", [{
    callee := {
      signature := ⟨[.param ⟨0, "T"⟩, .path (.ofName "Vec" [.type (.param ⟨3, "U"⟩)])],
        some ⟨[.type (.param ⟨0, "T"⟩), .type (.param ⟨3, "U"⟩)],
          [cloned ⟨0, "T"⟩, cloned ⟨3, "U"⟩]⟩⟩
      parent := none }
    args := [.param ⟨1, "P"⟩, .param ⟨2, "Q"⟩]
    place := none }]⟩]

lemma infer_storing :
    (storing.infer .union).2 = .ok (.ofList [cloned ⟨0, "T"⟩, cloned ⟨3, "U"⟩]) := by cbv

/-- The answer may speak of parameters of callees only. -/
theorem storing_bounds_foreign_params :
    storing.ownParams = [⟨1, "P"⟩, ⟨2, "Q"⟩] ∧
      (storing.infer .union).2 = .ok (.ofList [cloned ⟨0, "T"⟩, cloned ⟨3, "U"⟩]) ∧
      ¬ ∀ t bs binder,
        .type t bs binder ∈ (ConstraintSet.ofList [cloned ⟨0, "T"⟩, cloned ⟨3, "U"⟩]).toList →
          ∀ p ∈ t.mentions, ∃ o ∈ storing.ownParams, o.number = p.number := by
  have hown : storing.ownParams = [⟨1, "P"⟩, ⟨2, "Q"⟩] := by cbv
  have htoList : (ConstraintSet.ofList [cloned ⟨0, "T"⟩, cloned ⟨3, "U"⟩]).toList =
      [cloned ⟨0, "T"⟩, cloned ⟨3, "U"⟩] := by cbv
  refine ⟨hown, infer_storing, fun hall => ?_⟩
  rw [htoList, hown] at hall
  obtain ⟨o, ho, hnumber⟩ := hall (.param ⟨0, "T"⟩) _ [] List.mem_cons_self ⟨0, "T"⟩
    (by rw [Ty.mentions]; exact List.mem_cons_self)
  simp at ho
  rcases ho with rfl | rfl
  · cases hnumber
  · cases hnumber

/-- `T` stands for its set, which `P` leads to, and is older than `P`. -/
theorem bounded_by_infer_storing :
    let s := storing.searched .union
    ∃ events kept, storing.infer .union = (events, .ok kept) ∧
      cloned ⟨0, "T"⟩ ∈ kept.toList ∧
      ∃ p r, Ty.pointee (.param ⟨0, "T"⟩) = .param p ∧ Ty.mentions (.param ⟨0, "T"⟩) = [p] ∧
        s.store.setOf (.param p) = some r ∧
        s.Meets storing.ownParams r ∧ s.resolver.Represents r (.param p) ∧
        (∀ q, s.store.setOf (.param q) = some r → p.number ≤ q.number) ∧
        ((∃ o ∈ storing.ownParams, o.number = p.number) ↔
          ∃ o ∈ storing.ownParams, s.store.setOf (.param o) = some r ∧
            ∀ q, s.store.setOf (.param q) = some r → o.number ≤ q.number) := by
  have hinfer : storing.infer .union = ((storing.infer .union).1,
      .ok (.ofList [cloned ⟨0, "T"⟩, cloned ⟨3, "U"⟩])) := Prod.ext rfl infer_storing
  have hin : cloned ⟨0, "T"⟩ ∈
      (ConstraintSet.ofList [cloned ⟨0, "T"⟩, cloned ⟨3, "U"⟩]).toList := by
    have htoList : (ConstraintSet.ofList [cloned ⟨0, "T"⟩, cloned ⟨3, "U"⟩]).toList =
        [cloned ⟨0, "T"⟩, cloned ⟨3, "U"⟩] := by cbv
    rw [htoList]
    exact List.mem_cons_self
  exact ⟨_, _, hinfer, hin, bounded_by_infer hinfer hin⟩

end Implementation

end WhereClause
