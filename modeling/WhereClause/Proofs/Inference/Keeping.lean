import WhereClause.Proofs.Inference.Speaking
import WhereClause.Proofs.Relevance.Passing

/-!
# What an inference does not lose

A set of nothing but parameters and placeholders, with a parameter of the implementation's own among
them, is pure.  Whatever else the calls tell, such a set is represented by its oldest parameter, and
it matters.  So a constraint on a parameter of a pure set, of which the bounds have nothing but such
parameters and lifetimes for arguments, is in the answer, with each parameter replaced by the oldest
of its set (`Implementation.contains_of_onParams_isPure`).  The search gives sets to parameters that
had none, but a set that there was is still what it was.
-/

namespace WhereClause

open Resolving Resolver

/-! ## Pure sets -/

namespace Store

/-- No members but parameters and placeholders, and a parameter that is the implementation's own. -/
structure Pure (s : Store) (own : List Param) (r : ℕ) : Prop where
  only : ∀ t ∈ s.members r, t = .infer ∨ ∃ p, t = .param p
  owned : ∃ o ∈ own, (s.members r).contains (.param o) = true

/-- The set of the parameter is pure.  An own parameter of no set counts as a set by itself. -/
def IsPure (s : Store) (own : List Param) (p : Param) : Prop :=
  match s.setOf (.param p) with
  | some r => s.Pure own r
  | none => ∃ o ∈ own, o.number = p.number

variable {s s' : Store} {own : List Param}

lemma isPure_congr {p q : Param} (h : p.number = q.number) :
    s.IsPure own p ↔ s.IsPure own q := by
  rw [IsPure, IsPure, setOf_congr (Param.beq_ty_iff.2 h), h]

/-- The call in force does not matter. -/
lemma isPure_leave {p : Param} : s.leave.IsPure own p ↔ s.IsPure own p := by
  have hset : s.leave.setOf (.param p) = s.setOf (.param p) := rfl
  rw [IsPure, IsPure, hset]
  rcases s.setOf (.param p) with _ | r
  · rfl
  · exact ⟨fun h => ⟨h.only, h.owned⟩, fun h => ⟨h.only, h.owned⟩⟩

/-- A type that is one with a parameter of a pure set is a placeholder or a parameter. -/
lemma IsPure.of_linked (hs : s.Coherent) {p : Param} (hp : s.IsPure own p) {t : Ty}
    (ht : s.Linked t (.param p)) : t = .infer ∨ ∃ q, t = .param q := by
  rw [IsPure] at hp
  rcases hset : s.setOf (.param p) with _ | r
  · exact .inr (Ty.exists_param_of_beq (ht.beq_of_setOf_eq_none hset))
  · rw [hset] at hp
    obtain ⟨u, hu, htu⟩ := hs.exists_mem_of_setOf (ht.setOf_eq.trans hset)
    rcases hp.only u hu with rfl | ⟨q, rfl⟩
    · have hsame : Ty.same t .infer = true := htu
      cases t <;> simp [Ty.same] at hsame ⊢
    · exact .inr (Ty.exists_param_of_beq htu)

/-- A pure set is pure still when other types have got sets of their own, and an own parameter that
had no set has a pure one now. -/
lemma IsPure.grown (hs : s.Coherent) (hgrows : Grows s s')
    (hown : ∀ o ∈ own, ∃ r, s'.setOf (.param o) = some r) {p : Param} (hp : s.IsPure own p) :
    ∃ r, s'.setOf (.param p) = some r ∧ s'.Pure own r := by
  have hs' := hgrows.coherent hs
  obtain ⟨r, o, hr, ho, hor⟩ : ∃ r o, s'.setOf (.param p) = some r ∧ o ∈ own ∧
      s'.setOf (.param o) = some r := by
    have hp' := hp
    rw [IsPure] at hp'
    rcases hset : s.setOf (.param p) with _ | r
    · rw [hset] at hp'
      obtain ⟨o, ho, hnumber⟩ := hp'
      obtain ⟨r, hr⟩ := hown o ho
      exact ⟨r, o, by rw [← setOf_congr (Param.beq_ty_iff.2 hnumber), hr], ho, hr⟩
    · rw [hset] at hp'
      obtain ⟨o, ho, hin⟩ := hp'.owned
      exact ⟨r, o, hgrows.setOf hset, ho, hgrows.setOf ((hs.setOf_iff _ r).2 hin)⟩
  refine ⟨r, hr, fun t ht => ?_, o, ho, hs'.contains_members hor⟩
  have hlinked : s'.Linked t (.param p) := .of_setOf (hs'.setOf_of_mem ht) hr
  exact hp.of_linked hs ((hgrows.linked_iff hs _ _).1 hlinked)

/-- The oldest parameter of a set is the oldest still when other types have got sets. -/
lemma low_grown (hs : s.Coherent) (hgrows : Grows s s') {p : Param} {r : ℕ}
    (hp : s'.setOf (.param p) = some r) :
    s'.setOf (.param (s.low p)) = some r ∧
      ∀ q, s'.setOf (.param q) = some r → (s.low p).number ≤ q.number := by
  have hlinked : ∀ q, s'.setOf (.param q) = some r → s.Linked (.param q) (.param p) :=
    fun q hq => (hgrows.linked_iff hs _ _).1 (.of_setOf hq hp)
  rcases hset : s.setOf (.param p) with _ | r₀
  · rw [low_of_setOf_eq_none hset]
    refine ⟨hp, fun q hq => ?_⟩
    have hsame := (hlinked q hq).beq_of_setOf_eq_none hset
    exact Int.le_of_eq (Param.beq_ty_iff.1 hsame).symm
  · obtain ⟨-, hlow, hleast⟩ := oldest_spec hs hset
    have hgrown := hgrows.setOf hset
    obtain rfl : r₀ = r := Option.some.inj (hgrown.symm.trans hp)
    exact ⟨hgrows.setOf hlow, fun q hq => hleast q ((hlinked q hq).setOf_eq.trans hset)⟩

end Store

/-! ## Representatives of pure sets -/

namespace Resolver

variable {store : Store} {own : List Param} {ρ : Resolver}

/-- What represents a pure set is the oldest parameter of it. -/
lemma Represents.of_pure (hρ : Trusty store ρ) {r : ℕ} (hr : store.Pure own r) {t : Ty}
    (ht : ρ.Represents r t) :
    ∃ p, t = .param p ∧ store.setOf (.param p) = some r ∧
      ∀ q, store.setOf (.param q) = some r → p.number ≤ q.number := by
  have hstands := (hρ.faithful r t ht).2
  have hvague : t.isSolid = false := by
    by_contra hsolid
    obtain ⟨u, hu, husolid⟩ := hstands.solid (by simpa using hsolid)
    rcases hr.only u hu with rfl | ⟨p, rfl⟩
    · cases husolid
    · cases husolid
  obtain ⟨o, -, ho⟩ := hr.owned
  obtain ⟨p, rfl⟩ := (hstands.yields _ ho).exists_param hvague
  exact ⟨p, rfl, (hρ.coherent.setOf_iff _ r).2 (hstands.member hvague),
    fun q hq => hstands.oldest p rfl q (hρ.coherent.contains_members hq)⟩

/-- A parameter of a set that is represented by a parameter is settled on it. -/
lemma ensures_settle_param (hρ : Trusty store ρ) {p q : Param} {r : ℕ}
    (hp : store.setOf (.param p) = some r) (hq : ρ.Represents r (.param q)) :
    Ensures (Later store ρ) (fun u => u = .param q) (settle store (.param p)) := by
  intro ρ₁ u ρ' hρ₁ h
  refine ⟨?_, Trans.trans hρ₁ (keeps_settle hρ.coherent _ h)⟩
  have hrest := hρ₁.atRest hρ.atRest
  rw [settle, hp] at h
  rcases expandWithin_returns h with ⟨hr, -, -⟩ | ⟨d, w, ρ₂, ρ₃, -, -, hw, hu, -⟩
  · rw [hrest.idle] at hr
    cases hr
  · -- the representative was known, so that is what was found
    have hpushed : ∀ i, (ρ₁.push r).memo.get? i ≠ some none := hrest.complete
    have hfound : ρ₂.Represents r w := get?_of_concrete hρ.coherent hpushed hp hw
    have hknown : ρ₂.Represents r (.param q) :=
      (keeps_concrete hρ.coherent _ hw).kept _ _ (hρ₁.kept _ _ hq)
    obtain rfl := hfound.eq hknown
    rw [Ty.settleParts] at hu
    exact (pure_eq_ok_iff.1 hu).1.symm

end Resolver

/-! ## Constraints on pure sets -/

namespace Implementation

variable {i : Implementation}

/-- A search gives every own parameter a set. -/
lemma exists_setOf_searched (i : Implementation) (mode : MergeMode) :
    ∀ o ∈ i.ownParams, ∃ r, (i.searched mode).store.setOf (.param o) = some r := by
  intro o ho
  have hseeded := Search.seeded_foldl_seed i.ownParams
    ⟨(i.evidence mode).1.store.leave, ∅, [], [], []⟩
  obtain ⟨r, -, hr⟩ := hseeded.seeds o ho
  exact ⟨r, (Search.grows_run _ _).setOf hr⟩

/-- After a search that went well, a parameter of a pure set is settled on one with the number of
the oldest of the set, which is relevant. -/
lemma settles_of_isPure {refs : List ℕ}
    (hclosure : closure (i.evidence .union).1.store.leave ∅ i.ownParams =
      (i.searched .union, .ok refs))
    {p : Param} (hp : (i.evidence .union).1.store.leave.IsPure i.ownParams p) :
    Ensures (Later (i.searched .union).store (i.searched .union).resolver)
        (fun u => (u == .param ((i.evidence .union).1.store.leave.low p)) = true)
        (settle (i.searched .union).store (.param p)) ∧
      (Relevance.ofRefs refs).isRelevantParam (i.searched .union).store
        ((i.evidence .union).1.store.leave.low p) = true := by
  have hcoherent := i.sound_evidence.coherent
  have htrusty := Search.trusty_closure (.fresh hcoherent) hclosure
  obtain ⟨hremembered, hrefs⟩ := Search.mem_closure_iff hclosure
  have hgrows : Store.Grows (i.evidence .union).1.store.leave (i.searched .union).store :=
    Search.grows_closure _ _ _
  obtain ⟨r, hr, hset⟩ := hp.grown hcoherent hgrows (i.exists_setOf_searched .union)
  obtain ⟨o, ho, hin⟩ := hset.owned
  have hor : (i.searched .union).store.setOf (.param o) = some r :=
    (htrusty.coherent.setOf_iff _ r).2 hin
  obtain ⟨t, ht⟩ := hremembered r ⟨o, ho, r, hor, .refl⟩
  obtain ⟨q, rfl, hqr, holdest⟩ := ht.of_pure htrusty hset
  obtain ⟨hlow, hleast⟩ := Store.low_grown hcoherent hgrows hr
  constructor
  · intro ρ u ρ' hρ hrun
    obtain ⟨rfl, hlater⟩ := ensures_settle_param htrusty hr ht hρ hrun
    exact ⟨Param.beq_ty_iff.2 (Int.le_antisymm (holdest _ hlow) (hleast q hqr)), hlater⟩
  · -- the set of a parameter that represents it leads to itself
    have hnested : (Ty.param q).nestedParams = .ok [q] := by
      rw [Ty.nestedParams, Ty.nested]
      rfl
    have hmeets : (i.searched .union).Meets i.ownParams r :=
      ⟨o, ho, r, hor, .single ⟨_, [q], q, ht, hnested, List.mem_singleton_self q, hqr⟩⟩
    exact Relevance.isRelevantParam_ofRefs_iff.2 ⟨r, (hrefs r).2 hmeets, hlow⟩

/-- Let an inference answer.  If a constraint that is declared or demanded is on a parameter of a
pure set, and its bounds have nothing but such parameters and lifetimes for arguments, then the
answer holds it, with each parameter replaced by the oldest of its set.  In particular, if the
constraint is declared and on an own parameter of which the calls tell nothing, then the answer
holds it for that parameter. -/
theorem contains_of_onParams_isPure {events : List Event} {kept : ConstraintSet}
    (h : i.infer .union = (events, .ok kept)) :
    let s := (i.evidence .union).1.store
    (∀ c ∈ i.offered, c.OnParams (s.IsPure i.ownParams) →
      kept.contains (c.mapParams s.low) = true) ∧
      (∀ p, s.setOf (.param p) = none → s.low p = p) ∧
      (∀ p r, s.setOf (.param p) = some r → s.setOf (.param (s.low p)) = some r ∧
        ∀ q, s.setOf (.param q) = some r → (s.low p).number ≤ q.number) ∧
      ∀ o ∈ i.ownParams, s.setOf (.param o) = none → ∀ bs binder,
        .type (.param o) bs binder ∈ i.declaredGenerics.flatMap Generics.constraints →
          (∀ b ∈ bs, b.OnParams (s.IsPure i.ownParams)) →
            kept.contains (.type (.param o) (Bound.mapParamsEach s.low bs) binder) = true := by
  intro s
  obtain ⟨refs, ρ, hevidence, hclosure, hfilter⟩ := infer_returns h
  have hcoherent : s.leave.Coherent := i.sound_evidence.coherent
  have htrusty := Search.trusty_closure (.fresh hcoherent) hclosure
  have hall : ∀ c ∈ i.offered, c.OnParams (s.IsPure i.ownParams) →
      kept.contains (c.mapParams s.low) = true := by
    intro c hc honly
    have hcandidate : (i.evidence .union).1.candidates.toList.contains c = true := by
      rw [candidates_evidence hevidence, Distinct.contains_ofList]
      exact List.contains_iff_exists_mem_beq.2 ⟨c, hc, BEq.rfl⟩
    -- the candidate may be spelled in another way
    obtain ⟨d, hd, hcd⟩ := List.contains_iff_exists_mem_beq.1 hcandidate
    have hkeep := Relevance.ensures_keep
      (fun p hp => (settles_of_isPure hclosure (Store.isPure_leave.2 hp)).1)
      (fun p hp => (settles_of_isPure hclosure (Store.isPure_leave.2 hp)).2)
      (honly.congr (fun _ _ => Store.isPure_congr) hcd)
    have hin := Relevance.contains_of_filter
      (fun c ρ₁ o ρ' hρ₁ hrun =>
        ⟨trivial, Trans.trans hρ₁ (Relevance.keeps_keep htrusty.coherent _ c hrun)⟩)
      hd hkeep (Std.Refl.refl _) hfilter
    have hmapped := Constraint.mapParams_congr s.nameless_low hcd
    rw [ConstraintSet.contains] at hin ⊢
    rwa [List.contains_congr hmapped]
  refine ⟨hall, fun p hp => Store.low_of_setOf_eq_none hp, fun p r hp => ?_, ?_⟩
  · exact (Store.oldest_spec (s := s.leave) hcoherent hp).2
  · intro o ho hnone bs binder hdeclared hbs
    have hopure : s.IsPure i.ownParams o := by
      rw [Store.IsPure, hnone]
      exact ⟨o, ho, rfl⟩
    have hkept := hall _ (List.mem_append_left _ hdeclared) ⟨hopure, hbs⟩
    rwa [Constraint.mapParams, Ty.mapParams, Store.low_of_setOf_eq_none hnone] at hkept

/-- That values of a type can be compared with those of another. -/
def compared (p q : Param) : Constraint :=
  .type (.param p) [.trait (.ofName "PartialEq" [.type (.param q)]) []] []

/-- A function of `Pair<P, Q>`, which declares that a `Q` can be compared with a `P`, passes a `P`
and an unknown type for a `T`, which is older, and has to be cloned. -/
def comparing : Implementation where
  ty := .data "Pair" ⟨[.type (.param ⟨1, "P"⟩), .type (.param ⟨2, "Q"⟩)],
    [compared ⟨2, "Q"⟩ ⟨1, "P"⟩]⟩ []
  trait := none
  functions := [⟨"compare", [{
    callee := {
      signature := ⟨[.param ⟨0, "T"⟩, .param ⟨0, "T"⟩],
        some ⟨[.type (.param ⟨0, "T"⟩)], [cloned ⟨0, "T"⟩]⟩⟩
      parent := none }
    args := [.param ⟨1, "P"⟩, .infer]
    place := none }]⟩]

/-- `T`, `P` and the unknown type make a pure set, and no call touches `Q`. -/
lemma isPure_comparing :
    (comparing.evidence .union).1.store.IsPure comparing.ownParams ⟨0, "T"⟩ ∧
      (comparing.evidence .union).1.store.IsPure comparing.ownParams ⟨1, "P"⟩ ∧
      (comparing.evidence .union).1.store.setOf (.param ⟨2, "Q"⟩) = none := by
  have hown : comparing.ownParams = [⟨1, "P"⟩, ⟨2, "Q"⟩] := by cbv
  have hmembers : (comparing.evidence .union).1.store.members 0 =
      [.param ⟨0, "T"⟩, .param ⟨1, "P"⟩, .infer] := by cbv
  have hset : (comparing.evidence .union).1.store.Pure comparing.ownParams 0 := by
    refine ⟨?_, ⟨1, "P"⟩, by rw [hown]; exact List.mem_cons_self, by rw [hmembers]; cbv⟩
    rw [hmembers]
    simp
  have hT : (comparing.evidence .union).1.store.setOf (.param ⟨0, "T"⟩) = some 0 := by cbv
  have hP : (comparing.evidence .union).1.store.setOf (.param ⟨1, "P"⟩) = some 0 := by cbv
  refine ⟨?_, ?_, by cbv⟩
  · rw [Store.IsPure, hT]
    exact hset
  · rw [Store.IsPure, hP]
    exact hset

/-- `T` stands for `P` in what is declared of `Q`, and has to be cloned. -/
theorem contains_of_onParams_isPure_comparing :
    ∃ events kept, comparing.infer .union = (events, .ok kept) ∧
      kept.contains (cloned ⟨0, "T"⟩) = true ∧
      kept.contains (compared ⟨2, "Q"⟩ ⟨0, "T"⟩) = true := by
  obtain ⟨kept, hkept⟩ : ∃ kept, (comparing.infer .union).2 = .ok kept :=
    ⟨.ofList [compared ⟨2, "Q"⟩ ⟨0, "T"⟩, cloned ⟨0, "T"⟩], by cbv⟩
  have hinfer : comparing.infer .union = ((comparing.infer .union).1, .ok kept) :=
    Prod.ext rfl hkept
  obtain ⟨hall, -, -, hdeclared⟩ := contains_of_onParams_isPure hinfer
  obtain ⟨hT, hP, hQ⟩ := isPure_comparing
  have hlowT : (comparing.evidence .union).1.store.low ⟨0, "T"⟩ = ⟨0, "T"⟩ := by cbv
  have hlowP : (comparing.evidence .union).1.store.low ⟨1, "P"⟩ = ⟨0, "T"⟩ := by cbv
  have hoffered : comparing.offered = [compared ⟨2, "Q"⟩ ⟨1, "P"⟩, cloned ⟨0, "T"⟩] := by cbv
  have hown : comparing.ownParams = [⟨1, "P"⟩, ⟨2, "Q"⟩] := by cbv
  refine ⟨_, kept, hinfer, ?_, ?_⟩
  · have hclone : (cloned ⟨0, "T"⟩).OnParams
        ((comparing.evidence .union).1.store.IsPure comparing.ownParams) :=
      ⟨hT, by simp [Bound.OnParams, Path.ofName, Path.segments, Args.OnParams]⟩
    have hkept := hall (cloned ⟨0, "T"⟩) (by rw [hoffered]; simp) hclone
    rwa [cloned, Constraint.mapParams, Ty.mapParams, hlowT] at hkept
  · have hkept := hdeclared ⟨2, "Q"⟩ (by rw [hown]; simp) hQ _ [] (List.mem_singleton_self _)
      (by simp [Bound.OnParams, Path.ofName, Path.segments, Args.OnParams, Arg.OnParams, hP])
    simpa [compared, Bound.mapParamsEach, Bound.mapParams, Path.ofName, Path.mapParams,
      Segment.mapParamsEach, Segment.mapParams, Args.mapParams, Arg.mapParamsEach, Arg.mapParams,
      Ty.mapParams, hlowP] using hkept

end Implementation

end WhereClause
