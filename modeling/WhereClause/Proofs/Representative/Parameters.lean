import WhereClause.Proofs.Inference.Rewriting
import WhereClause.Proofs.Representative.Settling

/-!
# Sets of parameters

Where no type but parameters is of a set, the representative of a set is its oldest parameter, and
settling a type replaces each parameter by the oldest of its set (`Store.low`).  Nothing can fail
then, and no expansion leads to another.

`Resolver.Aged` is the invariant of a resolver on such a store: what it remembers are the oldest
parameters, and nothing is under way.
-/

namespace WhereClause

open Resolving

/-! ## The oldest parameter of a set -/

/-- The parameter that a type is, if it is one. -/
def Ty.param? : Ty → Option Param
  | .param p => some p
  | _ => none

namespace Store

/-- No type but parameters is of a set. -/
def OnlyParams (s : Store) : Prop := ∀ t r, s.setOf t = some r → ∃ p, t = .param p

/-- The oldest parameter of a set. -/
def oldest (s : Store) (r : ℕ) : Option Param :=
  match (s.members r).filterMap Ty.param? with
  | [] => none
  | p :: ps => some (ps.foldl Param.older p)

/-- The oldest parameter of the set of a parameter, and the parameter itself if it has none. -/
def low (s : Store) (p : Param) : Param := ((s.setOf (.param p)).bind s.oldest).getD p

variable {s : Store}

lemma exists_params_of_coherent (hs : s.Coherent) (honly : s.OnlyParams) (r : ℕ) :
    ∃ ps : List Param, s.members r = ps.map .param := by
  have hmem : ∀ t ∈ s.members r, ∃ p, t = .param p := by
    intro t ht
    exact honly t r (hs.setOf_of_mem ht)
  generalize s.members r = ts at hmem
  induction ts with
  | nil => exact ⟨[], rfl⟩
  | cons t ts ih =>
    obtain ⟨p, rfl⟩ := hmem t List.mem_cons_self
    obtain ⟨ps, rfl⟩ := ih fun u hu => hmem u (List.mem_cons_of_mem _ hu)
    exact ⟨p :: ps, rfl⟩

lemma filterMap_param? (ps : List Param) : (ps.map Ty.param).filterMap Ty.param? = ps := by
  induction ps with
  | nil => rfl
  | cons p ps ih =>
    rw [List.map_cons, List.filterMap_cons_some (show (Ty.param p).param? = some p from rfl), ih]

/-- A set with members has an oldest parameter, which the fold over the members comes to. -/
lemma exists_oldest (hs : s.Coherent) (honly : s.OnlyParams) {t : Ty} {r : ℕ}
    (ht : s.setOf t = some r) :
    ∃ (p : Param) (ps : List Param), s.members r = .param p :: ps.map .param ∧
      s.oldest r = some (ps.foldl Param.older p) := by
  obtain ⟨qs, hqs⟩ := exists_params_of_coherent hs honly r
  rcases qs with _ | ⟨p, ps⟩
  · have hin := hs.contains_members ht
    rw [hqs] at hin
    cases hin
  · refine ⟨p, ps, hqs, ?_⟩
    rw [oldest, hqs, filterMap_param?]

end Store

lemma Param.foldl_older_mem (p : Param) (ps : List Param) : ps.foldl Param.older p ∈ p :: ps := by
  induction ps generalizing p with
  | nil => exact List.mem_singleton.2 rfl
  | cons q ps ih =>
    have hih := ih (p.older q)
    rw [List.foldl_cons]
    rcases List.mem_cons.1 hih with h | h
    · rw [h, Param.older]
      split_ifs
      · exact List.mem_cons_of_mem _ List.mem_cons_self
      · exact List.mem_cons_self
    · exact List.mem_cons_of_mem _ (List.mem_cons_of_mem _ h)

lemma Param.foldl_older_le (p : Param) (ps : List Param) :
    ∀ q ∈ p :: ps, (ps.foldl Param.older p).number ≤ q.number := by
  induction ps generalizing p with
  | nil =>
    intro q hq
    obtain rfl := List.mem_singleton.1 hq
    exact Int.le_refl _
  | cons q ps ih =>
    have hle := ih (p.older q) _ List.mem_cons_self
    have holder := Param.older_le p q
    rw [List.foldl_cons]
    intro x hx
    rcases List.mem_cons.1 hx with rfl | hx
    · exact Int.le_trans hle holder.1
    · rcases List.mem_cons.1 hx with rfl | hx
      · exact Int.le_trans hle holder.2
      · exact ih (p.older q) x (List.mem_cons_of_mem _ hx)

namespace Store

variable {s : Store}

lemma low_of_setOf_eq_none {p : Param} (h : s.setOf (.param p) = none) : s.low p = p := by
  rw [low, h]
  rfl

lemma mem_filterMap_param?_iff {ts : List Ty} {p : Param} :
    p ∈ ts.filterMap Ty.param? ↔ .param p ∈ ts := by
  rw [List.mem_filterMap]
  constructor
  · rintro ⟨t, ht, hp⟩
    cases t with
    | param q =>
      obtain rfl : q = p := Option.some.inj hp
      exact ht
    | _ => cases hp
  · intro hp
    exact ⟨.param p, hp, rfl⟩

/-- The oldest parameter of a set is of the set, and no other is older. -/
lemma oldest_spec (hs : s.Coherent) {p : Param} {r : ℕ} (hp : s.setOf (.param p) = some r) :
    s.oldest r = some (s.low p) ∧ s.setOf (.param (s.low p)) = some r ∧
      ∀ q, s.setOf (.param q) = some r → (s.low p).number ≤ q.number := by
  -- each parameter of the set is listed, maybe in another spelling
  have hlisted : ∀ q, s.setOf (.param q) = some r →
      ∃ q' ∈ (s.members r).filterMap Ty.param?, q.number = q'.number := by
    intro q hq
    obtain ⟨u, hu, hqu⟩ := hs.exists_mem_of_setOf hq
    obtain ⟨q', rfl⟩ := Ty.exists_param_of_beq (BEq.symm hqu)
    exact ⟨q', mem_filterMap_param?_iff.2 hu, Param.beq_ty_iff.1 hqu⟩
  have hmember : ∀ q ∈ (s.members r).filterMap Ty.param?, s.setOf (.param q) = some r :=
    fun q hq => hs.setOf_of_mem (mem_filterMap_param?_iff.1 hq)
  have holdest : s.oldest r = some (s.low p) := by
    obtain ⟨q, hq, -⟩ := hlisted p hp
    rw [low, hp, Option.bind_some, oldest]
    rcases hps : (s.members r).filterMap Ty.param? with _ | ⟨o, os⟩
    · rw [hps] at hq
      cases hq
    · rfl
  rcases hps : (s.members r).filterMap Ty.param? with _ | ⟨o, os⟩
  · rw [oldest, hps] at holdest
    cases holdest
  · have hlow : os.foldl Param.older o = s.low p := by
      rw [oldest, hps] at holdest
      exact Option.some.inj holdest
    rw [hps] at hlisted hmember
    rw [← hlow] at holdest ⊢
    refine ⟨holdest, hmember _ (Param.foldl_older_mem o os), fun q hq => ?_⟩
    obtain ⟨q', hq', hnumber⟩ := hlisted q hq
    rw [hnumber]
    exact Param.foldl_older_le o os q' hq'

/-- The oldest parameter of a set does not depend on how a parameter of the set is spelled. -/
lemma nameless_low (s : Store) : Param.Nameless s.low := by
  intro p q h
  have hpq : (Ty.param p == Ty.param q) = true := Param.beq_ty_iff.2 h
  rw [low, low, setOf_congr hpq]
  rcases (s.setOf (.param q)).bind s.oldest with _ | o
  · exact h
  · rfl

end Store

/-! ## What a resolver comes to -/

namespace Resolver

variable {store : Store}

/-- What is remembered of a set is its oldest parameter. -/
def Remembers (store : Store) (ρ : Resolver) : Prop :=
  ∀ (r : ℕ) (o : Option Ty), ρ.memo.get? (r : ℤ) = some o →
    ∃ p, store.oldest r = some p ∧ o = some (.param p)

/-- A resolver at rest that remembers the oldest parameters of some sets. -/
structure Aged (store : Store) (ρ : Resolver) : Prop where
  remembers : Remembers store ρ
  idle : ρ.settling = []

/-- Of two parameters of the set that is being folded, the older is taken. -/
lemma run_mostConcrete_param {depth r : ℕ} {ρ : Resolver} {p q : Param}
    (hfold : ρ.memo.get? (r : ℤ) = some none) (hp : store.setOf (.param p) = some r) :
    Ty.mostConcrete (concreteWithin store depth) (.param p) (.param q) ρ =
      (.ok (.param (p.older q)), ρ) := by
  rw [Ty.mostConcrete.eq_def]
  split_ifs with hpq
  · have hresolve : resolveWithin store depth r ρ = (.ok none, ρ) := resolveWithin_of_asked hfold _
    have holder : p.older q = p := by
      have hnumber : p.number = q.number := Param.beq_ty_iff.1 hpq
      rw [Param.older, if_neg (by omega)]
    rw [concreteWithin, concreteBy, hp, holder]
    exact run_bind_of_ok hresolve _
  · rfl

/-- The fold over the parameters of a set comes to the oldest. -/
lemma run_foldlM_param {depth r : ℕ} {ρ : Resolver} (hfold : ρ.memo.get? (r : ℤ) = some none)
    (p : Param) (ps : List Param)
    (hps : ∀ q ∈ p :: ps, store.setOf (.param q) = some r) :
    (ps.map Ty.param).foldlM (Ty.mostConcrete (concreteWithin store depth)) (.param p) ρ =
      (.ok (.param (ps.foldl Param.older p)), ρ) := by
  induction ps generalizing p with
  | nil => rfl
  | cons q ps ih =>
    rw [List.map_cons, List.foldlM_cons, List.foldl_cons,
      run_bind_of_ok (run_mostConcrete_param hfold (hps p List.mem_cons_self))]
    refine ih (p.older q) fun x hx => ?_
    rcases List.mem_cons.1 hx with rfl | hx
    · unfold Param.older
      split_ifs
      · exact hps q (List.mem_cons_of_mem _ List.mem_cons_self)
      · exact hps p List.mem_cons_self
    · exact hps x (List.mem_cons_of_mem _ (List.mem_cons_of_mem _ hx))

lemma Remembers.insert {ρ : Resolver} (h : Remembers store ρ) {r : ℕ} {p : Param}
    (hp : store.oldest r = some p) :
    Remembers store ((ρ.remember r none).remember r (some (.param p))) := by
  intro q o ho
  by_cases hq : (r : ℤ) = q
  · obtain rfl : r = q := Int.ofNat.inj hq
    rw [get?_remember_self] at ho
    exact ⟨p, hp, (Option.some.inj ho).symm⟩
  · rw [get?_remember_of_ne hq, get?_remember_of_ne hq] at ho
    exact h q o ho

/-- Whatever is under way, the representative of a set with members is its oldest parameter. -/
lemma run_resolve (hcoherent : store.Coherent) (honly : store.OnlyParams) {ρ : Resolver}
    (h : Remembers store ρ) {p : Param} {r : ℕ} (hp : store.setOf (.param p) = some r) :
    ∃ ρ', resolve store r ρ = (.ok (some (.param (store.low p))), ρ') ∧ Remembers store ρ' ∧
      ρ'.settling = ρ.settling := by
  obtain ⟨holdest, -, -⟩ := Store.oldest_spec hcoherent hp
  rcases hmemo : ρ.memo.get? (r : ℤ) with _ | o
  · obtain ⟨q, qs, hmembers, hfirst⟩ := Store.exists_oldest hcoherent honly hp
    have hlow : qs.foldl Param.older q = store.low p :=
      Option.some.inj (hfirst.symm.trans holdest)
    have hget : store.members? (r : ℤ) = some (.param q :: qs.map .param) :=
      Store.members?_of_members hmembers
    have hqs : ∀ x ∈ q :: qs, store.setOf (.param x) = some r := by
      intro x hx
      apply hcoherent.setOf_of_mem
      rw [hmembers, ← List.map_cons]
      exact List.mem_map.2 ⟨x, hx, rfl⟩
    have hfold : (qs.map Ty.param).foldlM
        (Ty.mostConcrete (concreteWithin store store.sets.length)) (.param q)
        (ρ.remember r none) = (.ok (.param (qs.foldl Param.older q)), ρ.remember r none) :=
      run_foldlM_param (get?_remember_self ρ (r : ℤ) none) q qs hqs
    rw [hlow] at hfold
    exact ⟨_, resolveWithin_of_fold hmemo hget hfold, h.insert holdest, rfl⟩
  · obtain ⟨q, hq, rfl⟩ := h r o hmemo
    obtain rfl : q = store.low p := Option.some.inj (hq.symm.trans holdest)
    exact ⟨ρ, resolveWithin_of_asked hmemo _, h, rfl⟩

end Resolver

/-! ## Settling replaces parameters -/

/-- What is known of settling where no type but parameters is of a set: expanding a parameter gives
another, and one that is of no set is its own replacement. -/
structure Replaces (I : Resolver → Prop) (setOf : Ty → Option ℕ) (expand : ℕ → Ty → Resolving Ty)
    (f : Param → Param) : Prop where
  only : ∀ t r, setOf t = some r → ∃ p, t = .param p
  expand : ∀ p r, setOf (.param p) = some r → Gives I (expand r (.param p)) (.param (f p))
  alone : ∀ p, setOf (.param p) = none → f p = p

namespace Replaces

variable {I : Resolver → Prop} {setOf : Ty → Option ℕ} {expand : ℕ → Ty → Resolving Ty}
  {f : Param → Param}

lemma settlePart_eq (h : Replaces I setOf expand f) {t : Ty} (ht : t.param? = none) :
    t.settlePart setOf expand = t.settleParts setOf expand := by
  rw [Ty.settlePart]
  rcases hset : setOf t with _ | r
  · rfl
  · obtain ⟨p, rfl⟩ := h.only t r hset
    cases ht

mutual

/-- Settling a part of a type replaces the parameters in it. -/
lemma settlePart (h : Replaces I setOf expand f) (t : Ty) :
    Gives I (t.settlePart setOf expand) (t.mapParams f) := by
  cases t with
  | param p =>
    rw [Ty.settlePart, Ty.mapParams]
    rcases hset : setOf (.param p) with _ | r
    · dsimp only
      rw [Ty.settleParts, h.alone p hset]
      exact .pure _
    · exact h.expand p r hset
  | tuple ts =>
    rw [h.settlePart_eq rfl, Ty.settleParts, Ty.mapParams]
    exact (h.settleEach ts).bind (.pure _)
  | ref access t l =>
    rw [h.settlePart_eq rfl, Ty.settleParts_ref, Ty.mapParams]
    exact (h.settlePart t).bind (.pure _)
  | dyn bs =>
    rw [h.settlePart_eq rfl, Ty.settleParts, Ty.mapParams]
    exact (h.settleBounds bs).bind (.pure _)
  | path p =>
    rw [h.settlePart_eq rfl, Ty.settleParts, Ty.mapParams]
    exact (h.settlePath p).bind (.pure _)
  | infer | str | deref _ | data _ _ _ =>
    rw [h.settlePart_eq rfl, Ty.settleParts, Ty.mapParams]
    exact .pure _
termination_by structural t

lemma settleEach (h : Replaces I setOf expand f) (ts : List Ty) :
    Gives I (Ty.settleEach setOf expand ts) (Ty.mapParamsEach f ts) := by
  cases ts with
  | nil =>
    rw [Ty.settleEach, Ty.mapParamsEach]
    exact .pure _
  | cons t ts =>
    rw [Ty.settleEach_cons, Ty.mapParamsEach]
    exact (h.settlePart t).bind ((h.settleEach ts).bind (.pure _))
termination_by structural ts

lemma settlePath (h : Replaces I setOf expand f) (p : Path) :
    Gives I (p.settle setOf expand) (p.mapParams f) := by
  obtain ⟨isGlobal, init, last⟩ := p
  rw [Path.settle, Path.mapParams]
  exact (h.settleSegments init).bind ((h.settleSegment last).bind (.pure _))
termination_by structural p

lemma settleSegment (h : Replaces I setOf expand f) (s : Segment) :
    Gives I (s.settle setOf expand) (s.mapParams f) := by
  obtain ⟨name, args⟩ := s
  rw [Segment.settle, Segment.mapParams]
  exact (h.settleArgs args).bind (.pure _)
termination_by structural s

lemma settleSegments (h : Replaces I setOf expand f) (ss : List Segment) :
    Gives I (Segment.settleEach setOf expand ss) (Segment.mapParamsEach f ss) := by
  cases ss with
  | nil =>
    rw [Segment.settleEach, Segment.mapParamsEach]
    exact .pure _
  | cons s ss =>
    rw [Segment.settleEach, Segment.mapParamsEach]
    exact (h.settleSegment s).bind ((h.settleSegments ss).bind (.pure _))
termination_by structural ss

lemma settleArgs (h : Replaces I setOf expand f) (as : Args) :
    Gives I (as.settle setOf expand) (as.mapParams f) := by
  cases as with
  | angle as =>
    rw [Args.settle, Args.mapParams]
    exact (h.settleArgEach as).bind (.pure _)
  | none | paren _ _ =>
    rw [Args.settle, Args.mapParams]
    exact .pure _
termination_by structural as

lemma settleArgEach (h : Replaces I setOf expand f) (as : List Arg) :
    Gives I (Arg.settleEach setOf expand as) (Arg.mapParamsEach f as) := by
  cases as with
  | nil =>
    rw [Arg.settleEach, Arg.mapParamsEach]
    exact .pure _
  | cons a as =>
    cases a with
    | type t =>
      rw [Arg.settleEach_cons_type, Arg.mapParamsEach, Arg.mapParams]
      exact (h.settlePart t).bind ((h.settleArgEach as).bind (.pure _))
    | lifetime l =>
      rw [Arg.settleEach, Arg.mapParamsEach, Arg.mapParams]
      exact (h.settleArgEach as).bind (.pure _)
termination_by structural as

lemma settleBound (h : Replaces I setOf expand f) (b : Bound) :
    Gives I (b.settle setOf expand) (b.mapParams f) := by
  cases b with
  | trait p binder =>
    rw [Bound.settle, Bound.mapParams]
    exact (h.settlePath p).bind (.pure _)
  | outlives l =>
    rw [Bound.settle, Bound.mapParams]
    exact .pure _
termination_by structural b

lemma settleBounds (h : Replaces I setOf expand f) (bs : List Bound) :
    Gives I (Bound.settleEach setOf expand bs) (Bound.mapParamsEach f bs) := by
  cases bs with
  | nil =>
    rw [Bound.settleEach, Bound.mapParamsEach]
    exact .pure _
  | cons b bs =>
    rw [Bound.settleEach, Bound.mapParamsEach]
    exact (h.settleBound b).bind ((h.settleBounds bs).bind (.pure _))
termination_by structural bs

end

end Replaces

namespace Resolver

variable {store : Store}

/-- Expanding the set of a parameter gives the oldest parameter of the set. -/
lemma gives_expand (hcoherent : store.Coherent) (honly : store.OnlyParams) {p : Param} {r : ℕ}
    (hp : store.setOf (.param p) = some r) :
    Gives (Aged store) (expand store r (.param p)) (.param (store.low p)) := by
  intro ρ hρ
  have hlt := hcoherent.lt_length hp
  obtain ⟨d, hd⟩ : ∃ d, store.sets.length = d + 1 := ⟨store.sets.length - 1, by omega⟩
  have hpushed : Remembers store (ρ.push r) := hρ.remembers
  obtain ⟨ρ₁, hresolve, hremembers, hsettling⟩ := run_resolve hcoherent honly hpushed hp
  have hconcrete : concrete store (.param p) (ρ.push r) = (.ok (.param (store.low p)), ρ₁) := by
    rw [concrete, concreteBy, hp]
    exact run_bind_of_ok hresolve _
  refine ⟨ρ₁.pop r, ?_, hremembers, ?_⟩
  · show expandWithin store store.sets.length r (.param p) ρ = _
    rw [hd, expandWithin, run_get_bind, if_neg (by simp [hρ.idle]), run_whileSettling,
      run_bind_of_ok hconcrete, Ty.settleParts, run_pure]
  · rw [pop, hsettling, push, List.erase_cons_head, hρ.idle]

lemma replaces_low (hcoherent : store.Coherent) (honly : store.OnlyParams) :
    Replaces (Aged store) store.setOf (expand store) store.low :=
  ⟨honly, fun _ _ hp => gives_expand hcoherent honly hp, fun _ hp => Store.low_of_setOf_eq_none hp⟩

end Resolver

end WhereClause
