import WhereClause.Proofs.Renaming.Substitution

/-!
# Renamings that are undone

What occurs in a renamed term are the renamed parameters, so what is known of those that occur is
known of the renamed ones (`Ty.Over.rename`).  A renaming that is undone at each parameter that
occurs in a term is undone as a whole, up to names (`Ty.same_rename_rename`).
-/

namespace WhereClause

/-! ## What occurs in a renamed term -/

section

variable {ρ : Renaming} {P Q : GenericParam → Prop}

lemma Renaming.forall_mem_lifetimes (hρ : ∀ p, P p → Q (p.rename ρ)) {ls : List Lifetime}
    (h : ∀ l ∈ ls, P (.lifetime l)) : ∀ l ∈ ls.map ρ.onLifetime, Q (.lifetime l) :=
  List.forall_mem_map.2 fun l hl => hρ _ (h l hl)

mutual

/-- The parameters and lifetimes that occur in a renamed type are the renamed ones. -/
lemma Ty.Over.rename (hρ : ∀ p, P p → Q (p.rename ρ)) {t : Ty} (h : t.Over P) :
    (t.rename ρ).Over Q := by
  cases t with
  | infer | str =>
    rw [Ty.rename]
    trivial
  | tuple ts =>
    rw [Ty.rename]
    exact Ty.OverEach.rename hρ h
  | ref access t l =>
    rw [Ty.rename]
    refine ⟨Ty.Over.rename hρ h.1, fun k hk => ?_⟩
    obtain ⟨l, hl, rfl⟩ := Option.mem_map.1 hk
    exact hρ _ (h.2 l hl)
  | deref t =>
    rw [Ty.rename]
    exact Ty.Over.rename hρ (show t.Over P from h)
  | dyn bs =>
    rw [Ty.rename]
    exact Bound.OverEach.rename hρ h
  | data name g fields => exact h.elim
  | path p =>
    rw [Ty.rename]
    exact Path.Over.rename hρ h
  | param p =>
    rw [Ty.rename]
    exact hρ _ h
termination_by structural t

lemma Ty.OverEach.rename (hρ : ∀ p, P p → Q (p.rename ρ)) {ts : List Ty} (h : Ty.OverEach P ts) :
    Ty.OverEach Q (Ty.renameEach ρ ts) := by
  cases ts with
  | nil => trivial
  | cons t ts => exact ⟨Ty.Over.rename hρ h.1, Ty.OverEach.rename hρ h.2⟩
termination_by structural ts

lemma Path.Over.rename (hρ : ∀ p, P p → Q (p.rename ρ)) {p : Path} (h : p.Over P) :
    (p.rename ρ).Over Q := by
  obtain ⟨isGlobal, init, last⟩ := p
  rw [Path.rename]
  exact ⟨Segment.OverEach.rename hρ h.1, Segment.Over.rename hρ h.2⟩
termination_by structural p

lemma Segment.Over.rename (hρ : ∀ p, P p → Q (p.rename ρ)) {s : Segment} (h : s.Over P) :
    (s.rename ρ).Over Q := by
  obtain ⟨name, args⟩ := s
  rw [Segment.rename]
  exact Args.Over.rename hρ (show args.Over P from h)
termination_by structural s

lemma Segment.OverEach.rename (hρ : ∀ p, P p → Q (p.rename ρ)) {ss : List Segment}
    (h : Segment.OverEach P ss) : Segment.OverEach Q (Segment.renameEach ρ ss) := by
  cases ss with
  | nil => trivial
  | cons s ss => exact ⟨Segment.Over.rename hρ h.1, Segment.OverEach.rename hρ h.2⟩
termination_by structural ss

lemma Args.Over.rename (hρ : ∀ p, P p → Q (p.rename ρ)) {as : Args} (h : as.Over P) :
    (as.rename ρ).Over Q := by
  cases as with
  | none =>
    rw [Args.rename]
    trivial
  | angle as =>
    rw [Args.rename]
    exact Arg.OverEach.rename hρ h
  | paren inputs output =>
    cases output with
    | none =>
      rw [Args.rename, Ty.renameOption]
      exact Ty.OverEach.rename hρ (show Ty.OverEach P inputs from h)
    | some output =>
      rw [Args.rename, Ty.renameOption]
      exact ⟨Ty.OverEach.rename hρ h.1, Ty.Over.rename hρ h.2⟩
termination_by structural as

lemma Arg.Over.rename (hρ : ∀ p, P p → Q (p.rename ρ)) {a : Arg} (h : a.Over P) :
    (a.rename ρ).Over Q := by
  cases a with
  | type t =>
    rw [Arg.rename]
    exact Ty.Over.rename hρ (show t.Over P from h)
  | lifetime l =>
    rw [Arg.rename]
    exact hρ _ h
termination_by structural a

lemma Arg.OverEach.rename (hρ : ∀ p, P p → Q (p.rename ρ)) {as : List Arg}
    (h : Arg.OverEach P as) : Arg.OverEach Q (Arg.renameEach ρ as) := by
  cases as with
  | nil => trivial
  | cons a as => exact ⟨Arg.Over.rename hρ h.1, Arg.OverEach.rename hρ h.2⟩
termination_by structural as

lemma Bound.Over.rename (hρ : ∀ p, P p → Q (p.rename ρ)) {b : Bound} (h : b.Over P) :
    (b.rename ρ).Over Q := by
  cases b with
  | trait p binder =>
    rw [Bound.rename]
    exact ⟨Path.Over.rename hρ h.1, Renaming.forall_mem_lifetimes hρ h.2⟩
  | outlives l =>
    rw [Bound.rename]
    exact hρ _ h
termination_by structural b

lemma Bound.OverEach.rename (hρ : ∀ p, P p → Q (p.rename ρ)) {bs : List Bound}
    (h : Bound.OverEach P bs) : Bound.OverEach Q (Bound.renameEach ρ bs) := by
  cases bs with
  | nil => trivial
  | cons b bs => exact ⟨Bound.Over.rename hρ h.1, Bound.OverEach.rename hρ h.2⟩
termination_by structural bs

end

lemma Constraint.Over.rename (hρ : ∀ p, P p → Q (p.rename ρ)) {c : Constraint} (h : c.Over P) :
    (c.rename ρ).Over Q := by
  cases c with
  | type t bs binder =>
    rw [Constraint.rename]
    exact ⟨h.1.rename hρ, Bound.OverEach.rename hρ h.2.1, Renaming.forall_mem_lifetimes hρ h.2.2⟩
  | lifetime l ls =>
    rw [Constraint.rename]
    exact ⟨hρ _ h.1, Renaming.forall_mem_lifetimes hρ h.2⟩

lemma Generics.Over.rename (hρ : ∀ p, P p → Q (p.rename ρ)) {g : Generics} (h : g.Over P) :
    (g.rename ρ).Over Q := by
  obtain ⟨params, constraints⟩ := g
  rw [Generics.rename, Constraint.renameEach_eq_map]
  exact ⟨Arg.OverEach.rename hρ h.1, List.forall_mem_map.2 fun c hc => (h.2 c hc).rename hρ⟩

lemma Value.Over.rename (hρ : ∀ p, P p → Q (p.rename ρ)) {v : Value} (h : v.Over P) :
    (v.rename ρ).Over Q := by
  cases v with
  | type t => exact Ty.Over.rename hρ (show t.Over P from h)
  | lifetime l => exact hρ _ h
  | bound b => exact Bound.Over.rename hρ (show b.Over P from h)
  | constraint c => exact Constraint.Over.rename hρ (show c.Over P from h)
  | path p => exact Path.Over.rename hρ (show p.Over P from h)
  | segment s => exact Segment.Over.rename hρ (show s.Over P from h)
  | args as => exact Args.Over.rename hρ (show as.Over P from h)

end

/-! ## A renaming that is undone -/

section

/-- One renaming undoes another at a parameter, up to names. -/
def Renaming.Undoes (ρ' ρ : Renaming) (p : GenericParam) : Prop :=
  ((p.rename ρ).rename ρ' == p) = true

variable {ρ ρ' : Renaming} {P : GenericParam → Prop}

lemma Renaming.beq_lifetimes (hρ : ∀ p, P p → ρ'.Undoes ρ p) {ls : List Lifetime}
    (h : ∀ l ∈ ls, P (.lifetime l)) :
    ((ls.map ρ.onLifetime).map ρ'.onLifetime == ls) = true := by
  induction ls with
  | nil => rfl
  | cons l ls ih =>
    obtain ⟨hl, hls⟩ := List.forall_mem_cons.1 h
    rw [List.map_cons, List.map_cons, List.cons_beq_cons, ih hls, Bool.and_true]
    exact hρ _ hl

lemma Renaming.beq_lifetime? (hρ : ∀ p, P p → ρ'.Undoes ρ p) {o : Option Lifetime}
    (h : ∀ l ∈ o, P (.lifetime l)) :
    ((o.map ρ.onLifetime).map ρ'.onLifetime == o) = true := by
  cases o with
  | none => rfl
  | some l => exact hρ _ (h l rfl)

mutual

/-- What is undone wherever a parameter or a lifetime occurs is undone in the type. -/
lemma Ty.same_rename_rename (hρ : ∀ p, P p → ρ'.Undoes ρ p) (t : Ty) (h : t.Over P) :
    Ty.same ((t.rename ρ).rename ρ') t = true := by
  cases t with
  | infer | str => simp only [Ty.rename, Ty.same]
  | tuple ts =>
    rw [Ty.rename, Ty.rename, Ty.same]
    exact Ty.sameEach_rename_rename hρ ts h
  | ref access t l =>
    rw [Ty.rename, Ty.rename, Ty.same, Ty.same_rename_rename hρ t h.1,
      Renaming.beq_lifetime? hρ h.2, BEq.rfl]
    rfl
  | deref t =>
    rw [Ty.rename, Ty.rename, Ty.same]
    exact Ty.same_rename_rename hρ t h
  | dyn bs =>
    rw [Ty.rename, Ty.rename, Ty.same]
    exact Bound.sameEach_rename_rename hρ bs h
  | data name g fields => exact h.elim
  | path p =>
    rw [Ty.rename, Ty.rename, Ty.same]
    exact Path.same_rename_rename hρ p h
  | param p =>
    rw [Ty.rename, Ty.rename, Ty.same]
    exact hρ _ h
termination_by structural t

lemma Ty.sameEach_rename_rename (hρ : ∀ p, P p → ρ'.Undoes ρ p) (ts : List Ty)
    (h : Ty.OverEach P ts) :
    Ty.sameEach (Ty.renameEach ρ' (Ty.renameEach ρ ts)) ts = true := by
  cases ts with
  | nil => rw [Ty.renameEach, Ty.renameEach, Ty.sameEach]
  | cons t ts =>
    rw [Ty.renameEach, Ty.renameEach, Ty.sameEach, Ty.same_rename_rename hρ t h.1,
      Ty.sameEach_rename_rename hρ ts h.2]
    rfl
termination_by structural ts

lemma Path.same_rename_rename (hρ : ∀ p, P p → ρ'.Undoes ρ p) (p : Path) (h : p.Over P) :
    Path.same ((p.rename ρ).rename ρ') p = true := by
  obtain ⟨isGlobal, init, last⟩ := p
  rw [Path.rename, Path.rename, Path.same, Segment.sameEach_rename_rename hρ init h.1,
    Segment.same_rename_rename hρ last h.2, BEq.rfl]
  rfl
termination_by structural p

lemma Segment.same_rename_rename (hρ : ∀ p, P p → ρ'.Undoes ρ p) (s : Segment) (h : s.Over P) :
    Segment.same ((s.rename ρ).rename ρ') s = true := by
  obtain ⟨name, args⟩ := s
  rw [Segment.rename, Segment.rename, Segment.same, Args.same_rename_rename hρ args h, BEq.rfl]
  rfl
termination_by structural s

lemma Segment.sameEach_rename_rename (hρ : ∀ p, P p → ρ'.Undoes ρ p) (ss : List Segment)
    (h : Segment.OverEach P ss) :
    Segment.sameEach (Segment.renameEach ρ' (Segment.renameEach ρ ss)) ss = true := by
  cases ss with
  | nil => rw [Segment.renameEach, Segment.renameEach, Segment.sameEach]
  | cons s ss =>
    rw [Segment.renameEach, Segment.renameEach, Segment.sameEach,
      Segment.same_rename_rename hρ s h.1, Segment.sameEach_rename_rename hρ ss h.2]
    rfl
termination_by structural ss

lemma Args.same_rename_rename (hρ : ∀ p, P p → ρ'.Undoes ρ p) (as : Args) (h : as.Over P) :
    Args.same ((as.rename ρ).rename ρ') as = true := by
  cases as with
  | none => simp only [Args.rename, Args.same]
  | angle as =>
    rw [Args.rename, Args.rename, Args.same]
    exact Arg.sameEach_rename_rename hρ as h
  | paren inputs output =>
    cases output with
    | none =>
      rw [Args.rename, Args.rename, Ty.renameOption, Ty.renameOption, Args.same, Ty.sameOption,
        Ty.sameEach_rename_rename hρ inputs h]
      rfl
    | some output =>
      rw [Args.rename, Args.rename, Ty.renameOption, Ty.renameOption, Args.same, Ty.sameOption,
        Ty.sameEach_rename_rename hρ inputs h.1, Ty.same_rename_rename hρ output h.2]
      rfl
termination_by structural as

lemma Arg.same_rename_rename (hρ : ∀ p, P p → ρ'.Undoes ρ p) (a : Arg) (h : a.Over P) :
    Arg.same ((a.rename ρ).rename ρ') a = true := by
  cases a with
  | type t =>
    rw [Arg.rename, Arg.rename, Arg.same]
    exact Ty.same_rename_rename hρ t h
  | lifetime l =>
    rw [Arg.rename, Arg.rename, Arg.same]
    exact hρ _ h
termination_by structural a

lemma Arg.sameEach_rename_rename (hρ : ∀ p, P p → ρ'.Undoes ρ p) (as : List Arg)
    (h : Arg.OverEach P as) :
    Arg.sameEach (Arg.renameEach ρ' (Arg.renameEach ρ as)) as = true := by
  cases as with
  | nil => rw [Arg.renameEach, Arg.renameEach, Arg.sameEach]
  | cons a as =>
    rw [Arg.renameEach, Arg.renameEach, Arg.sameEach, Arg.same_rename_rename hρ a h.1,
      Arg.sameEach_rename_rename hρ as h.2]
    rfl
termination_by structural as

lemma Bound.same_rename_rename (hρ : ∀ p, P p → ρ'.Undoes ρ p) (b : Bound) (h : b.Over P) :
    Bound.same ((b.rename ρ).rename ρ') b = true := by
  cases b with
  | trait p binder =>
    rw [Bound.rename, Bound.rename, Bound.same, Path.same_rename_rename hρ p h.1,
      Renaming.beq_lifetimes hρ h.2]
    rfl
  | outlives l =>
    rw [Bound.rename, Bound.rename, Bound.same]
    exact hρ _ h
termination_by structural b

lemma Bound.sameEach_rename_rename (hρ : ∀ p, P p → ρ'.Undoes ρ p) (bs : List Bound)
    (h : Bound.OverEach P bs) :
    Bound.sameEach (Bound.renameEach ρ' (Bound.renameEach ρ bs)) bs = true := by
  cases bs with
  | nil => rw [Bound.renameEach, Bound.renameEach, Bound.sameEach]
  | cons b bs =>
    rw [Bound.renameEach, Bound.renameEach, Bound.sameEach, Bound.same_rename_rename hρ b h.1,
      Bound.sameEach_rename_rename hρ bs h.2]
    rfl
termination_by structural bs

end

lemma Constraint.same_rename_rename (hρ : ∀ p, P p → ρ'.Undoes ρ p) {c : Constraint}
    (h : c.Over P) : Constraint.same ((c.rename ρ).rename ρ') c = true := by
  cases c with
  | type t bs binder =>
    rw [Constraint.rename, Constraint.rename, Constraint.same, Ty.same_rename_rename hρ t h.1,
      Bound.sameEach_rename_rename hρ bs h.2.1, Renaming.beq_lifetimes hρ h.2.2]
    rfl
  | lifetime l ls =>
    rw [Constraint.rename, Constraint.rename, Constraint.same, Renaming.beq_lifetimes hρ h.2,
      Bool.and_true]
    exact hρ _ h.1

lemma Generics.same_rename_rename (hρ : ∀ p, P p → ρ'.Undoes ρ p) {g : Generics} (h : g.Over P) :
    Generics.same ((g.rename ρ).rename ρ') g = true := by
  obtain ⟨params, constraints⟩ := g
  have hconstraints : ∀ cs : List Constraint, (∀ c ∈ cs, c.Over P) →
      Constraint.sameEach (Constraint.renameEach ρ' (Constraint.renameEach ρ cs)) cs = true := by
    intro cs hcs
    induction cs with
    | nil => rw [Constraint.renameEach, Constraint.renameEach, Constraint.sameEach]
    | cons c cs ih =>
      obtain ⟨hc, hrest⟩ := List.forall_mem_cons.1 hcs
      rw [Constraint.renameEach, Constraint.renameEach, Constraint.sameEach,
        Constraint.same_rename_rename hρ hc, ih hrest]
      rfl
  rw [Generics.rename, Generics.rename, Generics.same, Arg.sameEach_rename_rename hρ params h.1,
    hconstraints constraints h.2]
  rfl

lemma Value.beq_rename_rename (hρ : ∀ p, P p → ρ'.Undoes ρ p) {v : Value} (h : v.Over P) :
    ((v.rename ρ).rename ρ' == v) = true := by
  cases v with
  | type t => exact Ty.same_rename_rename hρ t h
  | lifetime l => exact hρ _ h
  | bound b => exact Bound.same_rename_rename hρ b h
  | constraint c => exact Constraint.same_rename_rename hρ h
  | path p => exact Path.same_rename_rename hρ p h
  | segment s => exact Segment.same_rename_rename hρ s h
  | args as => exact Args.same_rename_rename hρ as h

end

end WhereClause
