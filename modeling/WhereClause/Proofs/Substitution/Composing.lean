import WhereClause.Proofs.Distinct
import WhereClause.Proofs.Substitution.Filling
import WhereClause.Ty.Params

/-!
# One substitution after another

Where no data structure occurs, collecting the parameters of a term and filling them in visit the
same places in the same order.  So what a filled term mentions is what the types mention that were
put in the place of its parameters, one after the other (`Ty.mentions_fill`), and two fillings in a
row are one (`Ty.fill_fill`).  Of substitutions this says that instances have the parameters that
one expects, and that one substitution after another is a substitution again
(`Ty.subst_agrees`).

## Main declarations

* `Ty.mentions_fill`, `Ty.hasData_fill`, `Ty.fill_fill`: what occurs in a filled term.
* `Substitution.followedBy`: the one substitution that does what two do in a row.
* `Ty.subst_agrees`: substitution and the collection of parameters agree.
-/

namespace WhereClause

/-! ## What a filled term mentions -/

section

variable (φ : Filling)

mutual

/-- Where no data structure occurs, the types that are filled in are all that is mentioned. -/
lemma Ty.mentions_fill (t : Ty) (h : t.hasData = false) :
    (t.fill φ).mentions = t.mentions.flatMap fun p => (φ.onParam p).mentions := by
  cases t with
  | infer | str => simp only [Ty.fill, Ty.mentions, List.flatMap_nil]
  | tuple ts => rw [Ty.fill, Ty.mentions, Ty.mentions, Ty.mentionsEach_fill ts h]
  | ref access t l => rw [Ty.fill, Ty.mentions, Ty.mentions, Ty.mentions_fill t h]
  | deref t => rw [Ty.fill, Ty.mentions, Ty.mentions, Ty.mentions_fill t h]
  | dyn bs => rw [Ty.fill, Ty.mentions, Ty.mentions, Bound.mentionsEach_fill bs h]
  | data name g fields => cases h
  | path p => rw [Ty.fill, Ty.mentions, Ty.mentions, Path.mentions_fill p h]
  | param p => rw [Ty.fill, Ty.mentions, List.flatMap_singleton]
termination_by structural t

lemma Ty.mentionsEach_fill (ts : List Ty) (h : Ty.hasDataEach ts = false) :
    Ty.mentionsEach (Ty.fillEach φ ts) =
      (Ty.mentionsEach ts).flatMap fun p => (φ.onParam p).mentions := by
  cases ts with
  | nil => simp only [Ty.fillEach, Ty.mentionsEach, List.flatMap_nil]
  | cons t ts =>
    obtain ⟨ht, hts⟩ := Bool.or_eq_false_iff.1 h
    rw [Ty.fillEach, Ty.mentionsEach, Ty.mentionsEach, Ty.mentions_fill t ht,
      Ty.mentionsEach_fill ts hts, List.flatMap_append]
termination_by structural ts

lemma Path.mentions_fill (p : Path) (h : p.hasData = false) :
    (p.fill φ).mentions = p.mentions.flatMap fun p => (φ.onParam p).mentions := by
  obtain ⟨isGlobal, init, last⟩ := p
  obtain ⟨hinit, hlast⟩ := Bool.or_eq_false_iff.1 h
  rw [Path.fill, Path.mentions, Path.mentions, Segment.mentionsEach_fill init hinit,
    Segment.mentions_fill last hlast, List.flatMap_append]
termination_by structural p

lemma Segment.mentions_fill (s : Segment) (h : s.hasData = false) :
    (s.fill φ).mentions = s.mentions.flatMap fun p => (φ.onParam p).mentions := by
  obtain ⟨name, args⟩ := s
  rw [Segment.fill, Segment.mentions, Segment.mentions, Args.mentions_fill args h]
termination_by structural s

lemma Segment.mentionsEach_fill (ss : List Segment) (h : Segment.hasDataEach ss = false) :
    Segment.mentionsEach (Segment.fillEach φ ss) =
      (Segment.mentionsEach ss).flatMap fun p => (φ.onParam p).mentions := by
  cases ss with
  | nil => simp only [Segment.fillEach, Segment.mentionsEach, List.flatMap_nil]
  | cons s ss =>
    obtain ⟨hs, hss⟩ := Bool.or_eq_false_iff.1 h
    rw [Segment.fillEach, Segment.mentionsEach, Segment.mentionsEach, Segment.mentions_fill s hs,
      Segment.mentionsEach_fill ss hss, List.flatMap_append]
termination_by structural ss

lemma Args.mentions_fill (as : Args) (h : as.hasData = false) :
    (as.fill φ).mentions = as.mentions.flatMap fun p => (φ.onParam p).mentions := by
  cases as with
  | none => simp only [Args.fill, Args.mentions, List.flatMap_nil]
  | angle as => rw [Args.fill, Args.mentions, Args.mentions, Arg.mentionsEach_fill as h]
  | paren inputs output =>
    cases output with
    | none => rw [Args.fill, Args.mentions, Args.mentions, Ty.mentionsEach_fill inputs h]
    | some output =>
      obtain ⟨houtput, hinputs⟩ := Bool.or_eq_false_iff.1 h
      rw [Args.fill, Args.mentions, Args.mentions, Ty.mentionsEach_fill inputs hinputs,
        Ty.mentions_fill output houtput, List.flatMap_append]
termination_by structural as

lemma Arg.mentions_fill (a : Arg) (h : a.hasData = false) :
    (a.fill φ).mentions = a.mentions.flatMap fun p => (φ.onParam p).mentions := by
  cases a with
  | type t => rw [Arg.fill, Arg.mentions, Arg.mentions, Ty.mentions_fill t h]
  | lifetime l => simp only [Arg.fill, Arg.mentions, List.flatMap_nil]
termination_by structural a

lemma Arg.mentionsEach_fill (as : List Arg) (h : Arg.hasDataEach as = false) :
    Arg.mentionsEach (Arg.fillEach φ as) =
      (Arg.mentionsEach as).flatMap fun p => (φ.onParam p).mentions := by
  cases as with
  | nil => simp only [Arg.fillEach, Arg.mentionsEach, List.flatMap_nil]
  | cons a as =>
    obtain ⟨ha, has⟩ := Bool.or_eq_false_iff.1 h
    rw [Arg.fillEach, Arg.mentionsEach, Arg.mentionsEach, Arg.mentions_fill a ha,
      Arg.mentionsEach_fill as has, List.flatMap_append]
termination_by structural as

lemma Bound.mentions_fill (b : Bound) (h : b.hasData = false) :
    (b.fill φ).mentions = b.mentions.flatMap fun p => (φ.onParam p).mentions := by
  cases b with
  | trait p binder => rw [Bound.fill, Bound.mentions, Bound.mentions, Path.mentions_fill p h]
  | outlives l => simp only [Bound.fill, Bound.mentions, List.flatMap_nil]
termination_by structural b

lemma Bound.mentionsEach_fill (bs : List Bound) (h : Bound.hasDataEach bs = false) :
    Bound.mentionsEach (Bound.fillEach φ bs) =
      (Bound.mentionsEach bs).flatMap fun p => (φ.onParam p).mentions := by
  cases bs with
  | nil => simp only [Bound.fillEach, Bound.mentionsEach, List.flatMap_nil]
  | cons b bs =>
    obtain ⟨hb, hbs⟩ := Bool.or_eq_false_iff.1 h
    rw [Bound.fillEach, Bound.mentionsEach, Bound.mentionsEach, Bound.mentions_fill b hb,
      Bound.mentionsEach_fill bs hbs, List.flatMap_append]
termination_by structural bs

end

end

/-! ## Data structures in a filled term -/

section

variable {φ : Filling}

mutual

/-- As long as none is filled in, a filled type has the data structures that it had before. -/
lemma Ty.hasData_fill (hφ : ∀ p, (φ.onParam p).hasData = false) (t : Ty) :
    (t.fill φ).hasData = t.hasData := by
  cases t with
  | infer | str => simp only [Ty.fill]
  | tuple ts => simp only [Ty.fill, Ty.hasData, Ty.hasDataEach_fill hφ ts]
  | ref access t l => simp only [Ty.fill, Ty.hasData, Ty.hasData_fill hφ t]
  | deref t => simp only [Ty.fill, Ty.hasData, Ty.hasData_fill hφ t]
  | dyn bs => simp only [Ty.fill, Ty.hasData, Bound.hasDataEach_fill hφ bs]
  | data name g fields => simp only [Ty.fill]
  | path p => simp only [Ty.fill, Ty.hasData, Path.hasData_fill hφ p]
  | param p => simp only [Ty.fill, Ty.hasData, hφ]
termination_by structural t

lemma Ty.hasDataEach_fill (hφ : ∀ p, (φ.onParam p).hasData = false) (ts : List Ty) :
    Ty.hasDataEach (Ty.fillEach φ ts) = Ty.hasDataEach ts := by
  cases ts with
  | nil => simp only [Ty.fillEach]
  | cons t ts =>
    simp only [Ty.fillEach, Ty.hasDataEach, Ty.hasData_fill hφ t, Ty.hasDataEach_fill hφ ts]
termination_by structural ts

lemma Path.hasData_fill (hφ : ∀ p, (φ.onParam p).hasData = false) (p : Path) :
    (p.fill φ).hasData = p.hasData := by
  obtain ⟨isGlobal, init, last⟩ := p
  simp only [Path.fill, Path.hasData, Segment.hasDataEach_fill hφ init,
    Segment.hasData_fill hφ last]
termination_by structural p

lemma Segment.hasData_fill (hφ : ∀ p, (φ.onParam p).hasData = false) (s : Segment) :
    (s.fill φ).hasData = s.hasData := by
  obtain ⟨name, args⟩ := s
  simp only [Segment.fill, Segment.hasData, Args.hasData_fill hφ args]
termination_by structural s

lemma Segment.hasDataEach_fill (hφ : ∀ p, (φ.onParam p).hasData = false) (ss : List Segment) :
    Segment.hasDataEach (Segment.fillEach φ ss) = Segment.hasDataEach ss := by
  cases ss with
  | nil => simp only [Segment.fillEach]
  | cons s ss =>
    simp only [Segment.fillEach, Segment.hasDataEach, Segment.hasData_fill hφ s,
      Segment.hasDataEach_fill hφ ss]
termination_by structural ss

lemma Args.hasData_fill (hφ : ∀ p, (φ.onParam p).hasData = false) (as : Args) :
    (as.fill φ).hasData = as.hasData := by
  cases as with
  | none => simp only [Args.fill]
  | angle as => simp only [Args.fill, Args.hasData, Arg.hasDataEach_fill hφ as]
  | paren inputs output =>
    cases output with
    | none => simp only [Args.fill, Args.hasData, Ty.hasDataEach_fill hφ inputs]
    | some output =>
      simp only [Args.fill, Args.hasData, Ty.hasDataEach_fill hφ inputs,
        Ty.hasData_fill hφ output]
termination_by structural as

lemma Arg.hasData_fill (hφ : ∀ p, (φ.onParam p).hasData = false) (a : Arg) :
    (a.fill φ).hasData = a.hasData := by
  cases a with
  | type t => simp only [Arg.fill, Arg.hasData, Ty.hasData_fill hφ t]
  | lifetime l => simp only [Arg.fill, Arg.hasData]
termination_by structural a

lemma Arg.hasDataEach_fill (hφ : ∀ p, (φ.onParam p).hasData = false) (as : List Arg) :
    Arg.hasDataEach (Arg.fillEach φ as) = Arg.hasDataEach as := by
  cases as with
  | nil => simp only [Arg.fillEach]
  | cons a as =>
    simp only [Arg.fillEach, Arg.hasDataEach, Arg.hasData_fill hφ a, Arg.hasDataEach_fill hφ as]
termination_by structural as

lemma Bound.hasData_fill (hφ : ∀ p, (φ.onParam p).hasData = false) (b : Bound) :
    (b.fill φ).hasData = b.hasData := by
  cases b with
  | trait p binder => simp only [Bound.fill, Bound.hasData, Path.hasData_fill hφ p]
  | outlives l => simp only [Bound.fill, Bound.hasData]
termination_by structural b

lemma Bound.hasDataEach_fill (hφ : ∀ p, (φ.onParam p).hasData = false) (bs : List Bound) :
    Bound.hasDataEach (Bound.fillEach φ bs) = Bound.hasDataEach bs := by
  cases bs with
  | nil => simp only [Bound.fillEach]
  | cons b bs =>
    simp only [Bound.fillEach, Bound.hasDataEach, Bound.hasData_fill hφ b,
      Bound.hasDataEach_fill hφ bs]
termination_by structural bs

end

end

/-! ## Two fillings in a row -/

/-- One filling after another: what the first fills in is filled in by the second. -/
def Filling.andThen (φ ψ : Filling) : Filling where
  onParam p := (φ.onParam p).fill ψ
  onLifetime l := ψ.onLifetime (φ.onLifetime l)

section

variable (φ ψ : Filling)

mutual

/-- Two fillings in a row are one. -/
lemma Ty.fill_fill (t : Ty) : (t.fill φ).fill ψ = t.fill (φ.andThen ψ) := by
  cases t with
  | infer | str => simp only [Ty.fill]
  | tuple ts => simp only [Ty.fill, Ty.fillEach_fillEach ts]
  | ref access t l =>
    simp only [Ty.fill, Ty.fill_fill t, Option.map_map, Filling.andThen, Function.comp_def]
  | deref t => simp only [Ty.fill, Ty.fill_fill t]
  | dyn bs => simp only [Ty.fill, Bound.fillEach_fillEach bs]
  | data name g fields => simp only [Ty.fill]
  | path p => simp only [Ty.fill, Path.fill_fill p]
  | param p => simp only [Ty.fill, Filling.andThen]
termination_by structural t

lemma Ty.fillEach_fillEach (ts : List Ty) :
    Ty.fillEach ψ (Ty.fillEach φ ts) = Ty.fillEach (φ.andThen ψ) ts := by
  cases ts with
  | nil => simp only [Ty.fillEach]
  | cons t ts => simp only [Ty.fillEach, Ty.fill_fill t, Ty.fillEach_fillEach ts]
termination_by structural ts

lemma Path.fill_fill (p : Path) : (p.fill φ).fill ψ = p.fill (φ.andThen ψ) := by
  obtain ⟨isGlobal, init, last⟩ := p
  simp only [Path.fill, Segment.fillEach_fillEach init, Segment.fill_fill last]
termination_by structural p

lemma Segment.fill_fill (s : Segment) : (s.fill φ).fill ψ = s.fill (φ.andThen ψ) := by
  obtain ⟨name, args⟩ := s
  simp only [Segment.fill, Args.fill_fill args]
termination_by structural s

lemma Segment.fillEach_fillEach (ss : List Segment) :
    Segment.fillEach ψ (Segment.fillEach φ ss) = Segment.fillEach (φ.andThen ψ) ss := by
  cases ss with
  | nil => simp only [Segment.fillEach]
  | cons s ss => simp only [Segment.fillEach, Segment.fill_fill s, Segment.fillEach_fillEach ss]
termination_by structural ss

lemma Args.fill_fill (as : Args) : (as.fill φ).fill ψ = as.fill (φ.andThen ψ) := by
  cases as with
  | none => simp only [Args.fill]
  | angle as => simp only [Args.fill, Arg.fillEach_fillEach as]
  | paren inputs output =>
    cases output with
    | none => simp only [Args.fill, Ty.fillEach_fillEach inputs]
    | some output => simp only [Args.fill, Ty.fillEach_fillEach inputs, Ty.fill_fill output]
termination_by structural as

lemma Arg.fill_fill (a : Arg) : (a.fill φ).fill ψ = a.fill (φ.andThen ψ) := by
  cases a with
  | type t => simp only [Arg.fill, Ty.fill_fill t]
  | lifetime l => simp only [Arg.fill, Filling.andThen]
termination_by structural a

lemma Arg.fillEach_fillEach (as : List Arg) :
    Arg.fillEach ψ (Arg.fillEach φ as) = Arg.fillEach (φ.andThen ψ) as := by
  cases as with
  | nil => simp only [Arg.fillEach]
  | cons a as => simp only [Arg.fillEach, Arg.fill_fill a, Arg.fillEach_fillEach as]
termination_by structural as

lemma Bound.fill_fill (b : Bound) : (b.fill φ).fill ψ = b.fill (φ.andThen ψ) := by
  cases b with
  | trait p binder =>
    simp only [Bound.fill, Path.fill_fill p, List.map_map, Filling.andThen, Function.comp_def]
  | outlives l => simp only [Bound.fill, Filling.andThen]
termination_by structural b

lemma Bound.fillEach_fillEach (bs : List Bound) :
    Bound.fillEach ψ (Bound.fillEach φ bs) = Bound.fillEach (φ.andThen ψ) bs := by
  cases bs with
  | nil => simp only [Bound.fillEach]
  | cons b bs => simp only [Bound.fillEach, Bound.fill_fill b, Bound.fillEach_fillEach bs]
termination_by structural bs

end

end

/-! ## One substitution after another -/

lemma GenericParam.Takes.congr {j k : GenericParam} {a : Arg} (hjk : (j == k) = true)
    (h : k.Takes a) : j.Takes a := by
  cases j with
  | type p =>
    cases k with
    | type q => cases a <;> exact h
    | lifetime l => cases hjk
  | lifetime l =>
    cases k with
    | type q => cases hjk
    | lifetime k => cases a <;> exact h

lemma GenericParam.Takes.fill {k : GenericParam} {a : Arg} (h : k.Takes a) (φ : Filling) :
    k.Takes (a.fill φ) := by
  cases k <;> cases a <;> exact h

namespace Substitution

/-- The one substitution that does what two do in a row.  In the place of a parameter it puts what
the second makes of what the first puts there, and what the second puts there where the first has
no entry. -/
def followedBy (σ τ : Substitution) : Except Refusal Substitution :=
  σ.entries.foldrM (fun e υ => do return υ.insert e.1 (← e.2.subst τ)) τ

variable {σ τ υ : Substitution}

/-- Where what the first substitution puts holds no data structure, there is a substitution that
does what two do in a row, and it is read off the two. -/
lemma exists_followedBy (hσ : σ.RespectsSorts) (hdata : ∀ e ∈ σ.entries, e.2.hasData = false)
    (hτ : τ.RespectsSorts) :
    ∃ υ, σ.followedBy τ = .ok υ ∧ υ.RespectsSorts ∧
      ∀ k, υ.get? k = ((σ.get? k).map (Arg.fill τ.filling)).or (τ.get? k) := by
  obtain ⟨es⟩ := σ
  show ∃ υ : Substitution, es.foldrM (fun e υ => do return υ.insert e.1 (← e.2.subst τ)) τ = .ok υ ∧
    υ.RespectsSorts ∧ ∀ k, υ.get? k = ((Table.lookup k es).map (Arg.fill τ.filling)).or (τ.get? k)
  -- an entry hides those behind it, and is the last to be put among those of the second
  induction es with
  | nil => exact ⟨τ, rfl, hτ, fun k => rfl⟩
  | cons e es ih =>
    obtain ⟨hsort, hsorts⟩ := List.forall_mem_cons.1 hσ
    obtain ⟨hfree, hrest⟩ := List.forall_mem_cons.1 hdata
    obtain ⟨υ, hυ, hυSorts, hget⟩ := ih hsorts hrest
    have hvalue : e.2.subst τ = .ok (e.2.fill τ.filling) :=
      (Arg.subst_refusedIf hτ e.2).eq_ok hfree
    refine ⟨υ.insert e.1 (e.2.fill τ.filling), ?_, fun e' he' => ?_, fun k => ?_⟩
    · rw [List.foldrM_cons, hυ]
      show (do return υ.insert e.1 (← e.2.subst τ)) = _
      rw [hvalue]
      rfl
    · rcases Table.mem_or_of_mem_put he' with hin | ⟨hkey, hfilled⟩
      · exact hυSorts e' hin
      · rw [hfilled]
        exact (hsort.fill τ.filling).congr hkey
    · rw [Table.get?_insert, Table.lookup]
      split_ifs with hk
      · rfl
      · exact hget k

/-- Such a substitution fills in what the two fill in one after the other. -/
lemma filling_followedBy (hσ : σ.RespectsSorts) (hτ : τ.RespectsSorts) (hυ : υ.RespectsSorts)
    (hget : ∀ k, υ.get? k = ((σ.get? k).map (Arg.fill τ.filling)).or (τ.get? k)) :
    υ.filling = σ.filling.andThen τ.filling := by
  have hparam : ∀ p, υ.filling.onParam p = (σ.filling.onParam p).fill τ.filling := by
    intro p
    have h : υ.onParam p = (σ.onParam p).fill τ.filling := by
      rw [onParam, hget, onParam]
      cases σ.get? (.type p) with
      | none => exact hτ.onParam p
      | some a => rfl
    rw [hυ.onParam, hσ.onParam] at h
    exact Arg.type.inj h
  have hlifetime : ∀ l, υ.filling.onLifetime l = τ.filling.onLifetime (σ.filling.onLifetime l) := by
    intro l
    have h : υ.onLifetimeArg l = (σ.onLifetimeArg l).fill τ.filling := by
      rw [onLifetimeArg, hget, onLifetimeArg]
      cases σ.get? (.lifetime l) with
      | none => exact hτ.onLifetimeArg l
      | some a => rfl
    rw [hυ.onLifetimeArg, hσ.onLifetimeArg] at h
    exact Arg.lifetime.inj h
  show Filling.mk υ.filling.onParam υ.filling.onLifetime = _
  rw [funext hparam, funext hlifetime]
  rfl

/-- Nothing that is filled in holds a data structure, if no entry does. -/
lemma hasData_filling (h : ∀ e ∈ σ.entries, e.2.hasData = false) (p : Param) :
    (σ.filling.onParam p).hasData = false := by
  show ((σ.onParam p).typeOr (.param p)).hasData = false
  rw [onParam]
  cases hp : σ.get? (.type p) with
  | none => rfl
  | some a =>
    obtain ⟨e, he, -, rfl⟩ := Table.exists_mem_of_lookup hp
    have hfree := h e he
    cases hvalue : e.2 with
    | type t => rwa [hvalue, Arg.hasData] at hfree
    | lifetime l => rfl

/-- Equal parameters are filled in with types that mention equal parameters. -/
lemma mentions_filling {p q : Param} (hpq : (p == q) = true) :
    ∀ r ∈ (σ.filling.onParam p).mentions, (σ.filling.onParam q).mentions.contains r = true := by
  have hget : σ.get? (.type p) = σ.get? (.type q) :=
    Table.get?_congr (show (GenericParam.type p == .type q) = true from hpq) σ
  -- parameters that stand for themselves
  have hself : ∀ r ∈ (Ty.param p).mentions, (Ty.param q).mentions.contains r = true := by
    intro r hr
    obtain rfl := List.mem_singleton.1 hr
    exact List.contains_iff_exists_mem_beq.2 ⟨q, List.mem_singleton.2 rfl, hpq⟩
  show ∀ r ∈ ((σ.onParam p).typeOr (.param p)).mentions,
    ((σ.onParam q).typeOr (.param q)).mentions.contains r = true
  rw [onParam, onParam, hget]
  cases σ.get? (.type q) with
  | none => exact hself
  | some a =>
    cases a with
    | type t => exact fun r hr => List.contains_iff_exists_mem_beq.2 ⟨r, hr, BEq.rfl⟩
    | lifetime l => exact hself

end Substitution

/-- The parameters of an instance are those of the types that were put in the place of the
parameters, without repeats. -/
lemma Ty.params_fill (σ : Substitution) {t : Ty} (h : t.hasData = false) :
    (t.fill σ.filling).params =
      Distinct.ofList (t.params.flatMap fun p => (σ.filling.onParam p).params) :=
  calc (t.fill σ.filling).params
      = Distinct.ofList (t.mentions.flatMap fun p => (σ.filling.onParam p).mentions) := by
        rw [Ty.params, Ty.mentions_fill σ.filling t h]
    _ = Distinct.ofList (t.params.flatMap fun p => (σ.filling.onParam p).params) :=
        (Distinct.ofList_flatMap_ofList
          (fun _ _ hpq => Substitution.mentions_filling hpq) t.mentions).symm

/-- Substitution and the collection of parameters agree.  The instance of a type is refused as
unsupported if, and only if, a data structure occurs in the type.  Otherwise it is a type, and its
parameters are those of what stands for the parameters of the type, one after the other and
without repeats.  And two substitutions in a row are one, if no data structure is involved. -/
theorem Ty.subst_agrees {σ : Substitution} (hσ : σ.RespectsSorts) (t : Ty) :
    ((∃ cause, t.subst σ = .error (.failed cause) ∧ cause.kind = .unsupported) ↔
      t.hasData = true) ∧
    (t.hasData = false → ∃ u, t.subst σ = .ok (.type u) ∧
      u.params = Distinct.ofList (t.params.flatMap fun p => (σ.filling.onParam p).params)) ∧
    ∀ τ : Substitution, τ.RespectsSorts → t.hasData = false →
      (∀ e ∈ σ.entries, e.2.hasData = false) →
      ∃ υ u, σ.followedBy τ = .ok υ ∧ (do let a ← t.subst σ; a.subst τ) = .ok (.type u) ∧
        t.subst υ = .ok (.type u) := by
  have hinstance := Ty.subst_refusedIf hσ t
  refine ⟨hinstance.unsupported_iff, fun hfree => ?_, fun τ hτ hfree hvalues => ?_⟩
  · exact ⟨t.fill σ.filling, hinstance.eq_ok hfree, Ty.params_fill σ hfree⟩
  · obtain ⟨υ, hυ, hυSorts, hget⟩ := Substitution.exists_followedBy hσ hvalues hτ
    have hstill : (t.fill σ.filling).hasData = false := by
      rw [Ty.hasData_fill (Substitution.hasData_filling hvalues), hfree]
    refine ⟨υ, (t.fill σ.filling).fill τ.filling, hυ, ?_, ?_⟩
    · rw [hinstance.eq_ok hfree]
      exact (Ty.subst_refusedIf hτ (t.fill σ.filling)).eq_ok hstill
    · rw [Ty.fill_fill, ← Substitution.filling_followedBy hσ hτ hυSorts hget]
      exact (Ty.subst_refusedIf hυSorts t).eq_ok hfree

/-- In `(P, &'a Q)` put `Vec<Q>` for `P` and `'b` for `'a`, and then `str` for `Q`. -/
theorem Ty.subst_agrees_tuple :
    let t : Ty := .tuple [.param ⟨0, "P"⟩, .ref .shared (.param ⟨1, "Q"⟩) (some ⟨2, "a"⟩)]
    let vec : Ty := .path (.ofName "Vec" [.type (.param ⟨1, "Q"⟩)])
    let σ : Substitution :=
      ⟨[(.type ⟨0, "P"⟩, .type vec), (.lifetime ⟨2, "a"⟩, .lifetime ⟨3, "b"⟩)]⟩
    let τ : Substitution := ⟨[(.type ⟨1, "Q"⟩, .type .str)]⟩
    σ.RespectsSorts ∧ τ.RespectsSorts ∧ t.hasData = false ∧
      (∀ e ∈ σ.entries, e.2.hasData = false) ∧
      (¬∃ cause, t.subst σ = .error (.failed cause) ∧ cause.kind = .unsupported) ∧
      (∃ u, t.subst σ = .ok (.type u) ∧
        u.params = Distinct.ofList (t.params.flatMap fun p => (σ.filling.onParam p).params)) ∧
      ∃ υ u, σ.followedBy τ = .ok υ ∧ (do let a ← t.subst σ; a.subst τ) = .ok (.type u) ∧
        t.subst υ = .ok (.type u) := by
  intro t vec σ τ
  have hσ : σ.RespectsSorts :=
    List.forall_mem_cons.2 ⟨trivial, List.forall_mem_cons.2 ⟨trivial, List.forall_mem_nil _⟩⟩
  have hτ : τ.RespectsSorts := List.forall_mem_cons.2 ⟨trivial, List.forall_mem_nil _⟩
  have ht : t.hasData = false := rfl
  have hvalues : ∀ e ∈ σ.entries, e.2.hasData = false :=
    List.forall_mem_cons.2 ⟨rfl, List.forall_mem_cons.2 ⟨rfl, List.forall_mem_nil _⟩⟩
  obtain ⟨hrefused, hparams, hboth⟩ := Ty.subst_agrees hσ t
  refine ⟨hσ, hτ, ht, hvalues, fun h => ?_, hparams ht, hboth τ hτ ht hvalues⟩
  have hdata := hrefused.1 h
  rw [ht] at hdata
  cases hdata

end WhereClause
