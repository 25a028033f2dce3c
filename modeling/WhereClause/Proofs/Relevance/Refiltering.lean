import Mathlib
import WhereClause.Malformed
import WhereClause.Proofs.Relevance.Consulting
import WhereClause.Proofs.Representative.Untouched

/-!
# Filtering twice

What a filter keeps is meant to be left alone by a second filter.  The parameters that relevance
looks at are left alone indeed: each is the most concrete form of its own set.  But a settled
reference, or a type among the arguments of an earlier segment of a path, may happen to be a member
of another set, and is then expanded over again.  `Resolver.refreshConstraint` does no more than
that, and the second filter answers with an equal set exactly if it does.
-/

namespace WhereClause

open Resolving Resolver

/-! ## Expanding composite types over again -/

/-- The set of a type that is no parameter. -/
def Store.setOfComposite (s : Store) : Ty → Option ℕ
  | .param _ => none
  | t => s.setOf t

namespace Resolver

/-- Settles a type, but leaves parameters as they are. -/
def refresh (store : Store) (t : Ty) : Resolving Ty :=
  t.settlePart store.setOfComposite (expand store)

/-- Settles a path, but leaves parameters among the arguments of its last segment as they are. -/
def refreshPath (store : Store) : Path → Resolving Path
  | ⟨isGlobal, init, last⟩ => do
    let init ← Segment.settleEach store.setOf (expand store) init
    let last ← last.settle store.setOfComposite (expand store)
    return ⟨isGlobal, init, last⟩

def refreshBound (store : Store) : Bound → Resolving Bound
  | .trait p binder => do
    let path ← refreshPath store p
    return .trait path binder
  | .outlives l => return .outlives l

/-- Settles a constraint, but leaves the parameters that relevance looks at as they are. -/
def refreshConstraint (store : Store) : Constraint → Resolving Constraint
  | .lifetime l ls => return .lifetime l ls
  | .type t bs binder => do
    let t ← refresh store t
    let bs ← bs.mapM (refreshBound store)
    return .type t bs binder

end Resolver

/-! ## What relevance looks at -/

/-- The types among the arguments of a segment. -/
def Args.types : Args → List Ty
  | .angle as => as.filterMap Arg.type?
  | _ => []

/-- The types that decide whether a bound is relevant. -/
def Bound.inspected : Bound → List Ty
  | .trait p _ => p.last.args.types
  | .outlives _ => []

/-- The types that decide whether a constraint is relevant. -/
def Constraint.inspected : Constraint → List Ty
  | .lifetime _ _ => []
  | .type t bs _ => t :: bs.flatMap Bound.inspected

namespace Relevance

variable {v : Relevance} {store : Store}

lemma exists_pointee_of_isRelevantType : ∀ {t : Ty}, v.isRelevantType store t = true →
    ∃ p, t.pointee = .param p
  | .param p, _ => ⟨p, rfl⟩
  | .ref _ t _, h => exists_pointee_of_isRelevantType (t := t) h
  | .infer, h | .str, h | .tuple _, h | .deref _, h | .dyn _, h | .data _ _ _, h | .path _, h => by
    cases h

/-- What relevance admits are parameters under references. -/
lemma Admits.exists_pointee {c : Constraint} (h : v.Admits store c) {u : Ty}
    (hu : u ∈ c.inspected) : ∃ p, u.pointee = .param p := by
  cases c with
  | lifetime l ls => cases hu
  | type t bs binder =>
    rcases List.mem_cons.1 hu with rfl | hu
    · exact exists_pointee_of_isRelevantType h.1
    · obtain ⟨b, hb, hu⟩ := List.mem_flatMap.1 hu
      have hrelevant := h.2 b hb
      cases b with
      | outlives l => cases hu
      | trait p ls =>
        obtain ⟨isGlobal, init, ⟨name, as⟩⟩ := p
        cases as with
        | angle as =>
          obtain ⟨a, ha, hau⟩ := List.mem_filterMap.1 hu
          simp only [isRelevantBound, isRelevantPath, Except.ok.injEq, List.all_eq_true]
            at hrelevant
          cases a with
          | type t =>
            obtain rfl : t = u := Option.some.inj hau
            exact exists_pointee_of_isRelevantType (hrelevant _ ha)
          | lifetime l => cases hau
        | none => cases hu
        | paren inputs output => cases hu

end Relevance

/-! ## Settled constraints are anchored -/

namespace Resolver

variable {store : Store} {ρ ρ' : Resolver}

/-- The parameters that relevance looks at are the most concrete forms of their sets. -/
def AnchoredConstraint (store : Store) (ρ : Resolver) (c : Constraint) : Prop :=
  ∀ u ∈ c.inspected, Anchored store ρ u

lemma anchored_settleArgs {as bs : List Arg} (hρ : Trusty store ρ)
    (h : Arg.settleEach store.setOf (expand store) as ρ = (.ok bs, ρ')) :
    ∀ u ∈ bs.filterMap Arg.type?, Anchored store ρ' u := by
  induction as generalizing bs ρ with
  | nil =>
    rw [Arg.settleEach] at h
    obtain ⟨rfl, -⟩ := pure_eq_ok_iff.1 h
    simp
  | cons a as ih =>
    have hkeeps : Keeps (Later store) (Arg.settleEach store.setOf (expand store) as) :=
      Arg.keeps_settleEach (keeps_expandWithin hρ.coherent _) as
    cases a with
    | type t =>
      rw [Arg.settleEach_cons_type] at h
      obtain ⟨w, ρ₁, ht, hrest⟩ := bind_eq_ok_iff.1 h
      obtain ⟨bs, ρ₂, has, hcons⟩ := bind_eq_ok_iff.1 hrest
      obtain ⟨rfl, rfl⟩ := pure_eq_ok_iff.1 hcons
      have hw : Anchored store ρ₁ w := anchored_settle hρ.coherent hρ.faithful hρ.atRest ht
      rw [List.filterMap_cons_some (show (Arg.type w).type? = some w from rfl)]
      exact List.forall_mem_cons.2 ⟨(hkeeps has).anchored hw,
        ih (hρ.later (keeps_settle hρ.coherent t ht)) has⟩
    | lifetime l =>
      rw [Arg.settleEach] at h
      obtain ⟨bs, ρ₂, has, hcons⟩ := bind_eq_ok_iff.1 h
      obtain ⟨rfl, rfl⟩ := pure_eq_ok_iff.1 hcons
      rw [List.filterMap_cons_none (show (Arg.lifetime l).type? = none from rfl)]
      exact ih hρ has

lemma anchored_settleBound {b c : Bound} (hρ : Trusty store ρ)
    (h : settleBound store b ρ = (.ok c, ρ')) : ∀ u ∈ c.inspected, Anchored store ρ' u := by
  cases b with
  | outlives l =>
    rw [settleBound, Bound.settle] at h
    obtain ⟨rfl, -⟩ := pure_eq_ok_iff.1 h
    exact nofun
  | trait p binder =>
    obtain ⟨isGlobal, init, ⟨name, as⟩⟩ := p
    rw [settleBound, Bound.settle, Path.settle, Segment.settle] at h
    obtain ⟨q, ρ₁, hpath, hc⟩ := bind_eq_ok_iff.1 h
    obtain ⟨rfl, rfl⟩ := pure_eq_ok_iff.1 hc
    obtain ⟨init', ρ₂, hinit, hrest⟩ := bind_eq_ok_iff.1 hpath
    obtain ⟨last, ρ₃, hlast, hq⟩ := bind_eq_ok_iff.1 hrest
    obtain ⟨rfl, rfl⟩ := pure_eq_ok_iff.1 hq
    obtain ⟨bs, ρ₄, hargs, hlast⟩ := bind_eq_ok_iff.1 hlast
    obtain ⟨rfl, rfl⟩ := pure_eq_ok_iff.1 hlast
    have hlater := Segment.keeps_settleEach (keeps_expandWithin hρ.coherent _) init hinit
    cases as with
    | angle as =>
      rw [Args.settle] at hargs
      obtain ⟨bs, ρ₅, has, hbs⟩ := bind_eq_ok_iff.1 hargs
      obtain ⟨rfl, rfl⟩ := pure_eq_ok_iff.1 hbs
      exact anchored_settleArgs (hρ.later hlater) has
    | none | paren _ _ =>
      rw [Args.settle] at hargs
      obtain ⟨rfl, -⟩ := pure_eq_ok_iff.1 hargs
      exact nofun

lemma anchored_settleBounds {bs cs : List Bound} (hρ : Trusty store ρ)
    (h : Bound.settleEach store.setOf (expand store) bs ρ = (.ok cs, ρ')) :
    ∀ u ∈ cs.flatMap Bound.inspected, Anchored store ρ' u := by
  induction bs generalizing cs ρ with
  | nil =>
    rw [Bound.settleEach] at h
    obtain ⟨rfl, -⟩ := pure_eq_ok_iff.1 h
    simp
  | cons b bs ih =>
    rw [Bound.settleEach] at h
    obtain ⟨c, ρ₁, hb, hrest⟩ := bind_eq_ok_iff.1 h
    obtain ⟨cs, ρ₂, hbs, hcons⟩ := bind_eq_ok_iff.1 hrest
    obtain ⟨rfl, rfl⟩ := pure_eq_ok_iff.1 hcons
    have hlater := Bound.keeps_settleEach (keeps_expandWithin hρ.coherent _) bs hbs
    have hρ₁ : Trusty store ρ₁ := hρ.later (keeps_settleBound hρ.coherent b hb)
    rw [List.flatMap_cons, List.forall_mem_append]
    constructor
    · intro u hu
      exact hlater.anchored (anchored_settleBound hρ hb u hu)
    · exact ih hρ₁ hbs

lemma anchored_settleConstraint {c d : Constraint} (hρ : Trusty store ρ)
    (h : settleConstraint store c ρ = (.ok d, ρ')) : AnchoredConstraint store ρ' d := by
  cases c with
  | lifetime l ls =>
    obtain ⟨rfl, -⟩ := pure_eq_ok_iff.1 h
    exact nofun
  | type t bs binder =>
    obtain ⟨u, ρ₁, ht, hrest⟩ := bind_eq_ok_iff.1 h
    obtain ⟨cs, ρ₂, hbs, hd⟩ := bind_eq_ok_iff.1 hrest
    obtain ⟨rfl, rfl⟩ := pure_eq_ok_iff.1 hd
    have hu : Anchored store ρ₁ u := anchored_settle hρ.coherent hρ.faithful hρ.atRest ht
    have hlater := Bound.keeps_settleEach (keeps_expandWithin hρ.coherent _) bs hbs
    exact List.forall_mem_cons.2 ⟨hlater.anchored hu,
      anchored_settleBounds (hρ.later (keeps_settle hρ.coherent t ht)) hbs⟩

/-! ## Settling anchored types over again -/

/-- An anchored parameter is its own most concrete form, and asking for it changes nothing. -/
lemma settle_param_of_anchored (hρ : Trusty store ρ) {p : Param}
    (h : Anchored store ρ (.param p)) :
    settle store (.param p) ρ = (.ok (.param p), ρ) := by
  rw [settle_eq, Ty.settlePart]
  rcases hset : store.setOf (.param p) with _ | r
  · dsimp only
    rw [Ty.settleParts]
    rfl
  · have hmemo := h p r rfl hset
    have hlt := hρ.coherent.lt_length hset
    obtain ⟨d, hd⟩ : ∃ d, store.sets.length = d + 1 := ⟨store.sets.length - 1, by omega⟩
    have hresolve : resolveWithin store (store.sets.length + 1) r (ρ.push r) =
        (.ok (some (.param p)), ρ.push r) := by
      have hpushed : (ρ.push r).memo.get? (r : Int) = some (some (.param p)) := hmemo
      exact resolveWithin_of_asked hpushed _
    have hconcrete : concrete store (.param p) (ρ.push r) = (.ok (.param p), ρ.push r) := by
      rw [concrete_eq, concreteWithin, concreteBy, hset]
      exact bind_eq_ok_iff.2 ⟨some (.param p), ρ.push r, hresolve, rfl⟩
    have hpop : (ρ.push r).pop r = ρ := by
      rw [pop, push, List.erase_cons_head]
    have hexpand : expandWithin store (d + 1) r (.param p) ρ = (.ok (.param p), ρ) := by
      rw [expandWithin, run_get_bind, if_neg (by simp [hρ.atRest.idle]), run_whileSettling,
        run_bind_of_ok hconcrete, Ty.settleParts, run_pure, hpop]
    show expandWithin store store.sets.length r (.param p) ρ = _
    rw [hd, hexpand]

lemma run_bind_congr {α β : Type} {x y : Resolving α} {f g : α → Resolving β} (hx : x ρ = y ρ)
    (hf : ∀ a ρ', y ρ = (.ok a, ρ') → f a ρ' = g a ρ') : (x >>= f) ρ = (y >>= g) ρ := by
  rcases hy : y ρ with ⟨fault | a, ρ'⟩
  · rw [run_bind_of_error (hx.trans hy), run_bind_of_error hy]
  · rw [run_bind_of_ok (hx.trans hy), run_bind_of_ok hy, hf a ρ' hy]

/-- Settling an anchored type that leads to a parameter expands its composite parts only. -/
lemma settle_eq_refresh (hρ : Trusty store ρ) {t : Ty} (hpointee : ∃ p, t.pointee = .param p)
    (h : Anchored store ρ t) : settle store t ρ = refresh store t ρ := by
  cases t with
  | param p =>
    rw [settle_param_of_anchored hρ h, refresh, Ty.settlePart, Store.setOfComposite]
    dsimp only
    rw [Ty.settleParts]
    rfl
  | ref access t l =>
    have hsame : store.setOfComposite (.ref access t l) = store.setOf (.ref access t l) := rfl
    rw [settle_eq, refresh, Ty.settlePart, Ty.settlePart, hsame]
    rcases store.setOf (.ref access t l) with _ | r
    · dsimp only
      rw [Ty.settleParts_ref, Ty.settleParts_ref]
      exact run_bind_congr (settle_eq_refresh hρ hpointee h) fun _ _ _ => rfl
    · rfl
  | infer | str | tuple _ | deref _ | dyn _ | data _ _ _ | path _ =>
    obtain ⟨p, hp⟩ := hpointee
    cases hp

lemma keeps_refresh (hcoherent : store.Coherent) (t : Ty) : Keeps (Later store) (refresh store t) :=
  Ty.keeps_settlePart (keeps_expandWithin hcoherent _) t

lemma settleArgs_eq_refresh {as : List Arg} (hρ : Trusty store ρ)
    (hpointee : ∀ u ∈ as.filterMap Arg.type?, ∃ p, u.pointee = .param p)
    (h : ∀ u ∈ as.filterMap Arg.type?, Anchored store ρ u) :
    Arg.settleEach store.setOf (expand store) as ρ =
      Arg.settleEach store.setOfComposite (expand store) as ρ := by
  induction as generalizing ρ with
  | nil => rw [Arg.settleEach, Arg.settleEach]
  | cons a as ih =>
    cases a with
    | type t =>
      rw [List.filterMap_cons_some (show (Arg.type t).type? = some t from rfl)] at hpointee h
      obtain ⟨ht, hpointees⟩ := List.forall_mem_cons.1 hpointee
      obtain ⟨hanchored, has⟩ := List.forall_mem_cons.1 h
      rw [Arg.settleEach_cons_type, Arg.settleEach_cons_type]
      refine run_bind_congr (settle_eq_refresh hρ ht hanchored) fun u ρ' hu => ?_
      have hlater := keeps_refresh hρ.coherent t hu
      have hstill : ∀ w ∈ as.filterMap Arg.type?, Anchored store ρ' w := by
        intro w hw
        exact hlater.anchored (has w hw)
      exact run_bind_congr (ih (hρ.later hlater) hpointees hstill) fun _ _ _ => rfl
    | lifetime l =>
      rw [List.filterMap_cons_none (show (Arg.lifetime l).type? = none from rfl)] at hpointee h
      rw [Arg.settleEach, Arg.settleEach]
      exact run_bind_congr (ih hρ hpointee h) fun _ _ _ => rfl

lemma settleBound_eq_refresh {b : Bound} (hρ : Trusty store ρ)
    (hpointee : ∀ u ∈ b.inspected, ∃ p, u.pointee = .param p)
    (h : ∀ u ∈ b.inspected, Anchored store ρ u) :
    settleBound store b ρ = refreshBound store b ρ := by
  cases b with
  | outlives l => rw [settleBound, Bound.settle, refreshBound]
  | trait p binder =>
    obtain ⟨isGlobal, init, ⟨name, as⟩⟩ := p
    rw [settleBound, Bound.settle, refreshBound, Path.settle, refreshPath]
    refine run_bind_congr (run_bind_congr rfl fun init' ρ' hinit => ?_) fun _ _ _ => rfl
    have hlater := Segment.keeps_settleEach (keeps_expandWithin hρ.coherent _) init hinit
    refine run_bind_congr ?_ fun _ _ _ => rfl
    rw [Segment.settle, Segment.settle]
    refine run_bind_congr ?_ fun _ _ _ => rfl
    cases as with
    | angle as =>
      rw [Args.settle, Args.settle]
      exact run_bind_congr (settleArgs_eq_refresh (hρ.later hlater) hpointee
        fun u hu => hlater.anchored (h u hu)) fun _ _ _ => rfl
    | none | paren _ _ => rw [Args.settle, Args.settle]

lemma keeps_refreshBound (hcoherent : store.Coherent) (b : Bound) :
    Keeps (Later store) (refreshBound store b) := by
  cases b with
  | outlives l => exact .pure _
  | trait p binder =>
    obtain ⟨isGlobal, init, last⟩ := p
    rw [refreshBound, refreshPath]
    exact ((Segment.keeps_settleEach (keeps_expandWithin hcoherent _) init).bind fun _ =>
      (Segment.keeps_settle (keeps_expandWithin hcoherent _) last).bind fun _ => .pure _).bind
        fun _ => .pure _

lemma settleBounds_eq_refresh {bs : List Bound} (hρ : Trusty store ρ)
    (hpointee : ∀ u ∈ bs.flatMap Bound.inspected, ∃ p, u.pointee = .param p)
    (h : ∀ u ∈ bs.flatMap Bound.inspected, Anchored store ρ u) :
    Bound.settleEach store.setOf (expand store) bs ρ = bs.mapM (refreshBound store) ρ := by
  induction bs generalizing ρ with
  | nil => rw [Bound.settleEach, List.mapM_nil]
  | cons b bs ih =>
    rw [List.flatMap_cons, List.forall_mem_append] at hpointee h
    rw [Bound.settleEach, List.mapM_cons]
    refine run_bind_congr (settleBound_eq_refresh hρ hpointee.1 h.1) fun c ρ' hc => ?_
    have hlater := keeps_refreshBound hρ.coherent b hc
    have hstill : ∀ u ∈ bs.flatMap Bound.inspected, Anchored store ρ' u := by
      intro u hu
      exact hlater.anchored (h.2 u hu)
    exact run_bind_congr (ih (hρ.later hlater) hpointee.2 hstill) fun _ _ _ => rfl

/-- Settling a constraint over again expands its composite types only, if the parameters that
relevance looks at are anchored. -/
lemma settleConstraint_eq_refresh {c : Constraint} (hρ : Trusty store ρ)
    (hpointee : ∀ u ∈ c.inspected, ∃ p, u.pointee = .param p)
    (h : AnchoredConstraint store ρ c) :
    settleConstraint store c ρ = refreshConstraint store c ρ := by
  cases c with
  | lifetime l ls => rfl
  | type t bs binder =>
    obtain ⟨hparam, hparams⟩ := List.forall_mem_cons.1 hpointee
    obtain ⟨ht, hbs⟩ := List.forall_mem_cons.1 h
    rw [settleConstraint, refreshConstraint]
    refine run_bind_congr (settle_eq_refresh hρ hparam ht) fun u ρ' hu => ?_
    have hlater := keeps_refresh hρ.coherent t hu
    exact run_bind_congr (settleBounds_eq_refresh (hρ.later hlater) hparams
      fun w hw => hlater.anchored (hbs w hw)) fun _ _ _ => rfl

lemma keeps_refreshConstraint (hcoherent : store.Coherent) (c : Constraint) :
    Keeps (Later store) (refreshConstraint store c) := by
  cases c with
  | lifetime l ls => exact .pure _
  | type t bs binder =>
    exact (keeps_refresh hcoherent t).bind fun _ =>
      (Keeps.mapM (keeps_refreshBound hcoherent) bs).bind fun _ => .pure _

lemma mapM_settleConstraint_eq {cs : List Constraint} (hρ : Trusty store ρ)
    (hpointee : ∀ c ∈ cs, ∀ u ∈ c.inspected, ∃ p, u.pointee = .param p)
    (h : ∀ c ∈ cs, AnchoredConstraint store ρ c) :
    cs.mapM (settleConstraint store) ρ = cs.mapM (refreshConstraint store) ρ := by
  induction cs generalizing ρ with
  | nil => rfl
  | cons c cs ih =>
    obtain ⟨hparams, hpointees⟩ := List.forall_mem_cons.1 hpointee
    obtain ⟨hc, hcs⟩ := List.forall_mem_cons.1 h
    rw [List.mapM_cons, List.mapM_cons]
    refine run_bind_congr (settleConstraint_eq_refresh hρ hparams hc) fun d ρ' hd => ?_
    have hlater := keeps_refreshConstraint hρ.coherent c hd
    exact run_bind_congr (ih (hρ.later hlater) hpointees
      fun d hd u hu => hlater.anchored (hcs d hd u hu)) fun _ _ _ => rfl

end Resolver

/-! ## The main result -/

namespace Relevance

variable {v : Relevance} {store : Store} {ρ ρ' : Resolver}

/-- What a filter keeps is relevant as it stands, and anchored. -/
lemma anchored_filter (hρ : Trusty store ρ) {cs : List Constraint} {kept : ConstraintSet}
    (h : v.filter store cs ρ = (.ok kept, ρ')) :
    ∀ c ∈ kept.toList, v.Admits store c ∧ AnchoredConstraint store ρ' c := by
  suffices hfold : ∀ {result : ConstraintSet}, Trusty store ρ →
      (∀ c ∈ result.toList, v.Admits store c ∧ AnchoredConstraint store ρ c) →
      cs.foldlM (v.pass store) result ρ = (.ok kept, ρ') →
      ∀ c ∈ kept.toList, v.Admits store c ∧ AnchoredConstraint store ρ' c from
    hfold hρ (fun c hc => absurd hc List.not_mem_nil) h
  clear h hρ
  induction cs generalizing ρ with
  | nil =>
    intro result _ hresult h
    obtain ⟨rfl, rfl⟩ := pure_eq_ok_iff.1 h
    exact hresult
  | cons c cs ih =>
    intro result hρ hresult h
    rw [List.foldlM_cons] at h
    obtain ⟨result', ρ₁, hpass, hrest⟩ := bind_eq_ok_iff.1 h
    have hlater : Later store ρ ρ₁ := ((keeps_keep hρ.coherent v c).bind fun _ => .pure _) hpass
    have hresult₁ : ∀ c ∈ result.toList, v.Admits store c ∧ AnchoredConstraint store ρ₁ c := by
      intro c hc
      obtain ⟨hadmits, hanchored⟩ := hresult c hc
      exact ⟨hadmits, fun u hu => hlater.anchored (hanchored u hu)⟩
    rcases pass_returns hpass with ⟨-, rfl⟩ | ⟨d, hkeep, rfl⟩
    · exact ih (hρ.later hlater) hresult₁ hrest
    · obtain ⟨hd, hadmits⟩ := keep_eq_some_iff.1 hkeep
      have hanchored := anchored_settleConstraint hρ hd
      refine ih (hρ.later hlater) (fun e he => ?_) hrest
      rw [ConstraintSet.toList_insert] at he
      rcases Distinct.mem_or_eq_of_mem_add he with he | rfl
      · exact hresult₁ e he
      · exact ⟨hadmits, hanchored⟩

end Relevance

/-- No composite type that a second settling of a path asks about is of a set, and no parameter
among the arguments of its earlier segments is. -/
def Path.Untied (store : Store) (p : Path) : Prop :=
  (∀ u ∈ Segment.askedEach p.init, store.setOf u = none) ∧
    ∀ u ∈ p.last.asked, store.setOfComposite u = none

def Bound.Untied (store : Store) : Bound → Prop
  | .trait p _ => p.Untied store
  | .outlives _ => True

/-- No composite type that a second settling of a constraint asks about is of a set. -/
def Constraint.Untied (store : Store) : Constraint → Prop
  | .lifetime _ _ => True
  | .type t bs _ =>
    (∀ u ∈ t :: t.asked, store.setOfComposite u = none) ∧ ∀ b ∈ bs, b.Untied store

namespace Resolver

variable {store : Store} {ρ : Resolver}

lemma refreshBound_eq_pure {b : Bound} (h : b.Untied store) :
    refreshBound store b = pure b := by
  cases b with
  | outlives l => rfl
  | trait p binder =>
    obtain ⟨isGlobal, init, last⟩ := p
    rw [refreshBound, refreshPath, Segment.settleEach_eq_pure init h.1, pure_bind,
      Segment.settle_eq_pure last h.2, pure_bind, pure_bind]

lemma mapM_eq_pure {α : Type} {f : α → Resolving α} {as : List α}
    (h : ∀ a ∈ as, f a = pure a) : as.mapM f = pure as := by
  induction as with
  | nil => rfl
  | cons a as ih =>
    obtain ⟨ha, has⟩ := List.forall_mem_cons.1 h
    rw [List.mapM_cons, ha, pure_bind, ih has, pure_bind]

/-- Where composite types are of no set, a constraint is left alone. -/
lemma refreshConstraint_eq_pure {c : Constraint} (h : c.Untied store) :
    refreshConstraint store c = pure c := by
  cases c with
  | lifetime l ls => rfl
  | type t bs binder =>
    obtain ⟨ht, hparts⟩ := List.forall_mem_cons.1 h.1
    have hrefresh : refresh store t = pure t := by
      rw [refresh, Ty.settlePart, ht]
      exact Ty.settleParts_eq_pure t hparts
    rw [refreshConstraint, hrefresh, pure_bind,
      mapM_eq_pure fun b hb => refreshBound_eq_pure (h.2 b hb), pure_bind]

end Resolver

open Relevance

/-- Of a store made by any operations, and a resolver in use in which nothing has failed, let a
filter keep some constraints.  Filtering these over again answers with an equal set exactly if
expanding the composite types in them over again does, and leaves everything as it is if no such
type is of a set. -/
theorem refilter_beq_iff {os : List Operation} {e : Evidence} {store : Store} {ρ₀ ρ : Resolver}
    {v : Relevance} {cs : List Constraint} {kept : ConstraintSet}
    (hbuilt : (Evidence.empty .union).Leads os e) (hused : Consulted e.store store ρ₀)
    (hkept : v.filter store cs ρ₀ = (.ok kept, ρ)) :
    ((∃ again ρ', v.filter store kept.toList ρ = (.ok again, ρ') ∧ (again == kept) = true) ↔
        ∃ ds ρ', kept.toList.mapM (refreshConstraint store) ρ = (.ok ds, ρ') ∧
          (ConstraintSet.ofList ds == kept) = true) ∧
      ((∀ c ∈ kept.toList, c.Untied store) → v.filter store kept.toList ρ = (.ok kept, ρ)) := by
  have hcoherent : e.store.Coherent := (hbuilt.evolves.sound Store.sound_empty).coherent
  have hρ₀ : Trusty store ρ₀ := hused.trusty hcoherent
  have hρ : Trusty store ρ := hρ₀.later (keeps_filter hρ₀.coherent v cs hkept)
  have hfiltered := anchored_filter hρ₀ hkept
  have hadmits : ∀ c ∈ kept.toList, v.Admits store c := by
    intro c hc
    exact (hfiltered c hc).1
  have hanchored : ∀ c ∈ kept.toList, AnchoredConstraint store ρ c := by
    intro c hc
    exact (hfiltered c hc).2
  have hagain : kept.toList.mapM (settleConstraint store) ρ =
      kept.toList.mapM (refreshConstraint store) ρ :=
    mapM_settleConstraint_eq hρ (fun c hc u hu => (hadmits c hc).exists_pointee hu) hanchored
  refine ⟨?_, fun huntied => ?_⟩
  · rw [filter_beq_iff hadmits, hagain]
  · have halone : ∀ c ∈ kept.toList, refreshConstraint store c = pure c := by
      intro c hc
      exact refreshConstraint_eq_pure (huntied c hc)
    have hleft : kept.toList.mapM (settleConstraint store) ρ = (.ok kept.toList, ρ) := by
      rw [hagain, mapM_eq_pure halone]
      rfl
    have hpass := foldlM_pass_of_mapM ∅ hleft hadmits
    rw [filter_eq, hpass]
    exact congrArg (fun s => (Except.ok s, ρ)) kept.ofList_toList

/-- Two calls, after which `&P` and `Foo` are one type, and `P` and `X` another. -/
def Operation.borrowingCalls : List Operation :=
  [.equate (.param ⟨0, "P"⟩) (.param ⟨1, "X"⟩),
    .equate (.ref .shared (.param ⟨0, "P"⟩) none) (.path (.ofName "Foo" []))]

/-- That references to a parameter can be cloned. -/
def Constraint.borrowedClone (p : Param) : Constraint :=
  .type (.ref .shared (.param p) none) [.trait (.ofName "Clone" []) []] []

/-- What calls come to. -/
def Evidence.after (os : List Operation) : Evidence := (empty .union).performAll os

/-- The search for the sets that `P` leads to after calls. -/
def Search.after (os : List Operation) : Search :=
  (closure (Evidence.after os).store ∅ [⟨0, "P"⟩]).1

/-- What is kept after calls of the constraint on `X`, if the first set is what matters. -/
def Relevance.keptAfter (os : List Operation) : Except Fault ConstraintSet × Resolver :=
  (ofRefs [0]).filter (Search.after os).store [.borrowedClone ⟨1, "X"⟩] (Search.after os).resolver

/-- A second filter drops a settled reference that is of a set itself. -/
theorem refilter_drops_borrowedClone :
    let os := Operation.borrowingCalls
    let kept := ConstraintSet.ofList [.borrowedClone ⟨0, "P"⟩]
    (Evidence.empty .union).Leads os (.after os) ∧
      closure (Evidence.after os).store ∅ [⟨0, "P"⟩] = (.after os, .ok [0]) ∧
      Relevance.keptAfter os = (.ok kept, (Relevance.keptAfter os).2) ∧
      ((Relevance.ofRefs [0]).filter (Search.after os).store kept.toList
        (Relevance.keptAfter os).2).1 = .ok ∅ ∧ (∅ == kept) = false := by
  have hclosure : (closure (Evidence.after Operation.borrowingCalls).store ∅ [⟨0, "P"⟩]).2 =
      .ok [0] := by cbv
  have hkept : (Relevance.keptAfter Operation.borrowingCalls).1 =
      .ok (.ofList [.borrowedClone ⟨0, "P"⟩]) := by cbv
  refine ⟨.cons trivial (.cons trivial (.nil _)), Prod.ext rfl hclosure, Prod.ext hkept rfl,
    ?_, ?_⟩
  · cbv
  · cbv

/-- Nothing is dropped if no reference was found equal to anything. -/
theorem refilter_keeps_borrowedClone :
    let os := Operation.borrowingCalls.take 1
    let kept := ConstraintSet.ofList [.borrowedClone ⟨0, "P"⟩]
    (Evidence.empty .union).Leads os (.after os) ∧
      Consulted (Evidence.after os).store (Search.after os).store (Search.after os).resolver ∧
      Relevance.keptAfter os = (.ok kept, (Relevance.keptAfter os).2) ∧
      (Relevance.ofRefs [0]).filter (Search.after os).store kept.toList
        (Relevance.keptAfter os).2 = (.ok kept, (Relevance.keptAfter os).2) := by
  intro os kept
  have hbuilt : (Evidence.empty .union).Leads os (.after os) := .cons trivial (.nil _)
  have hclosure :
      (closure (Evidence.after (Operation.borrowingCalls.take 1)).store ∅ [⟨0, "P"⟩]).2 =
        .ok [0] := by cbv
  have hkept : (Relevance.keptAfter (Operation.borrowingCalls.take 1)).1 =
      .ok (.ofList [.borrowedClone ⟨0, "P"⟩]) := by cbv
  have hused : Consulted (Evidence.after os).store (Search.after os).store
      (Search.after os).resolver := .closed .fresh (Prod.ext rfl hclosure)
  have hkept' : Relevance.keptAfter os = (.ok kept, (Relevance.keptAfter os).2) :=
    Prod.ext hkept rfl
  refine ⟨hbuilt, hused, hkept', (refilter_beq_iff hbuilt hused hkept').2 ?_⟩
  have htoList : kept.toList = [.borrowedClone ⟨0, "P"⟩] := by cbv
  rw [htoList]
  refine List.forall_mem_singleton.2 ⟨?_, List.forall_mem_singleton.2
    ⟨List.forall_mem_nil _, List.forall_mem_nil _⟩⟩
  have hasked : Ty.asked (.ref .shared (.param ⟨0, "P"⟩) none) = [.param ⟨0, "P"⟩] := by cbv
  rw [hasked]
  refine List.forall_mem_cons.2 ⟨?_, List.forall_mem_singleton.2 rfl⟩
  cbv

end WhereClause
