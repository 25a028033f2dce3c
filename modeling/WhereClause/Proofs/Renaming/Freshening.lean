import Mathlib
import WhereClause.Proofs.Renaming.Undoing
import WhereClause.Proofs.Table
import WhereClause.Scope.Numbering

/-!
# Fresh parameters

A numbering hands out each number once, to a type parameter or to a lifetime (`Numbering.Bounded`).
So what `Numbering.refresh` puts in the place of the listed parameters was never handed out before,
and no two of the replacements are the same (`Numbering.Freshens`), however often a parameter is
listed.  Such a replacement takes the listed parameters out of any term over what was handed out,
and is undone by its inverse (`Numbering.refresh_undoes`).
-/

namespace WhereClause

/-! ## Parameters by sort and number -/

namespace GenericParam

def isType : GenericParam → Bool
  | .type _ => true
  | .lifetime _ => false

lemma isType_eq_of_beq {p q : GenericParam} (h : (p == q) = true) : p.isType = q.isType := by
  cases p <;> cases q <;> first
    | rfl
    | cases h

lemma number_eq_of_beq {p q : GenericParam} (h : (p == q) = true) : p.number = q.number := by
  cases p with
  | type p =>
    cases q with
    | type q => exact of_decide_eq_true h
    | lifetime k => cases h
  | lifetime l =>
    cases q with
    | type q => cases h
    | lifetime k => exact of_decide_eq_true h

end GenericParam

/-! ## Numberings in use -/

namespace Numbering

/-- A numbering that came about by handing out parameters and by refreshing lists of them. -/
inductive Arises : Numbering → Prop
  | empty : Arises ∅
  | addType {n : Numbering} (name : String) : Arises n → Arises (n.addType name).1
  | addLifetime {n : Numbering} (name : String) : Arises n → Arises (n.addLifetime name).1
  | refresh {n : Numbering} (params : List GenericParam) :
      Arises n → Arises (n.refresh params).1

/-- Only numbers below the next were handed out. -/
def Bounded (n : Numbering) : Prop := ∀ p ∈ n.handedOut, p.number < n.next

variable {n : Numbering}

/-- The parameter that is handed out next bears the next number. -/
lemma Bounded.concat (h : n.Bounded) {p : GenericParam} (hp : p.number = n.next) :
    Bounded ⟨n.handedOut ++ [p]⟩ := by
  have hnext : (Numbering.mk (n.handedOut ++ [p])).next = n.next + 1 := List.length_append
  intro q hq
  rw [hnext]
  rcases List.mem_append.1 hq with hin | hin
  · have hlt := h q hin
    omega
  · obtain rfl := List.mem_singleton.1 hin
    omega

lemma next_addLike (n : Numbering) (p : GenericParam) : (n.addLike p).1.next = n.next + 1 := by
  cases p with
  | type p => exact next_addType n p.name
  | lifetime l => exact next_addLifetime n l.name

lemma number_addLike (n : Numbering) (p : GenericParam) : (n.addLike p).2.number = n.next := by
  cases p <;> rfl

lemma handedOut_addLike (n : Numbering) (p : GenericParam) :
    (n.addLike p).1.handedOut = n.handedOut ++ [(n.addLike p).2] := by
  cases p <;> rfl

lemma isType_addLike (n : Numbering) (p : GenericParam) :
    (n.addLike p).2.isType = p.isType := by
  cases p <;> rfl

lemma Bounded.addLike (h : n.Bounded) (p : GenericParam) : (n.addLike p).1.Bounded := by
  cases p with
  | type p => exact h.concat (p := .type ⟨n.next, p.name⟩) rfl
  | lifetime l => exact h.concat (p := .lifetime ⟨n.next, lifetimeName l.name⟩) rfl

lemma refresh_concat (n : Numbering) (params : List GenericParam) (p : GenericParam) :
    n.refresh (params ++ [p]) = (((n.refresh params).1.addLike p).1,
      (n.refresh params).2.insert p ((n.refresh params).1.addLike p).2) := by
  rw [refresh, List.foldl_append]
  rfl

lemma Bounded.refresh (h : n.Bounded) (params : List GenericParam) :
    (n.refresh params).1.Bounded := by
  induction params using List.reverseRecOn with
  | nil => exact h
  | append_singleton params p ih =>
    rw [refresh_concat]
    exact ih.addLike p

lemma Arises.bounded (h : n.Arises) : n.Bounded := by
  induction h with
  | empty => exact List.forall_mem_nil _
  | addType name _ ih => exact ih.addLike (.type ⟨0, name⟩)
  | addLifetime name _ ih => exact ih.addLike (.lifetime ⟨0, name⟩)
  | refresh params _ ih => exact ih.refresh params

lemma Bounded.number_lt (h : n.Bounded) {p : GenericParam}
    (hp : n.handedOut.contains p = true) : p.number < n.next := by
  obtain ⟨q, hq, hpq⟩ := List.contains_iff_exists_mem_beq.1 hp
  rw [GenericParam.number_eq_of_beq hpq]
  exact h q hq

/-! ## Refreshing a list -/

/-- A table with a fresh parameter, handed out from one number up to another, for each of a list. -/
structure Freshens (m : Table GenericParam GenericParam) (low high : ℕ)
    (params : List GenericParam) : Prop where
  covers : ∀ p ∈ params, ∃ q, m.get? p = some q
  isType_eq : ∀ e ∈ m.entries, e.2.isType = e.1.isType
  fresh : ∀ e ∈ m.entries, (low : ℤ) ≤ e.2.number ∧ e.2.number < high
  apart : m.entries.Pairwise fun e e' => e.2.number ≠ e'.2.number

/-- One more parameter is listed, and replaced by one with the next number. -/
lemma Freshens.insert {m : Table GenericParam GenericParam} {low high : ℕ}
    {params : List GenericParam} (h : Freshens m low high params) (hle : low ≤ high)
    {p q : GenericParam} (hnumber : q.number = high) (hsort : q.isType = p.isType) :
    Freshens (m.insert p q) low (high + 1) (params ++ [p]) where
  covers := by
    intro r hr
    rw [Table.get?_insert]
    split_ifs with hpr
    · exact ⟨q, rfl⟩
    · rcases List.mem_append.1 hr with hin | hin
      · exact h.covers r hin
      · obtain rfl := List.mem_singleton.1 hin
        exact absurd BEq.rfl hpr
  isType_eq := by
    intro e he
    rcases Table.mem_or_of_mem_put he with hin | ⟨hkey, hvalue⟩
    · exact h.isType_eq e hin
    · rw [hvalue, hsort, GenericParam.isType_eq_of_beq hkey]
  fresh := by
    intro e he
    rcases Table.mem_or_of_mem_put he with hin | ⟨-, hvalue⟩
    · have hbounds := h.fresh e hin
      omega
    · rw [hvalue, hnumber]
      omega
  apart := by
    refine Table.pairwise_put (R := fun q q' : GenericParam => q.number ≠ q'.number) h.apart
      fun e he => ?_
    have hbounds := h.fresh e he
    rw [hnumber]
    omega

lemma freshens_refresh (n : Numbering) (params : List GenericParam) :
    n.next ≤ (n.refresh params).1.next ∧
      Freshens (n.refresh params).2 n.next (n.refresh params).1.next params := by
  induction params using List.reverseRecOn with
  | nil =>
    exact ⟨le_rfl, List.forall_mem_nil _, List.forall_mem_nil _, List.forall_mem_nil _, .nil⟩
  | append_singleton params p ih =>
    obtain ⟨hle, hm⟩ := ih
    rw [refresh_concat, next_addLike]
    exact ⟨Nat.le_succ_of_le hle, hm.insert hle (number_addLike _ p) (isType_addLike _ p)⟩

namespace Freshens

variable {m : Table GenericParam GenericParam} {low high : ℕ} {params : List GenericParam}
  {p : GenericParam} (h : Freshens m low high params)

include h

/-- What is put in the place of a parameter is not listed: a fresh one is new, and what is kept was
not replaced. -/
lemma image_not_listed (hparams : ∀ q ∈ params, q.number < low) :
    params.contains (m.image p) = false := by
  by_contra hlisted
  obtain ⟨q, hq, hsame⟩ := List.contains_iff_exists_mem_beq.1 (by simpa using hlisted)
  cases hvalue : m.get? p with
  | none =>
    rw [Table.image, hvalue, Option.getD_none] at hsame
    obtain ⟨v, hv⟩ := h.covers q hq
    rw [← Table.get?_congr hsame, hvalue] at hv
    cases hv
  | some v =>
    rw [Table.image, hvalue, Option.getD_some] at hsame
    obtain ⟨e, he, -, rfl⟩ := Table.exists_mem_of_lookup hvalue
    have hfresh := (h.fresh e he).1
    have hold := hparams q hq
    rw [← GenericParam.number_eq_of_beq hsame] at hold
    omega

/-- An old parameter is none of the fresh ones, so the inverse leads back to it. -/
lemma inverse_image (hp : p.number < low) : (m.inverse.image (m.image p) == p) = true := by
  refine Table.image_inverse_image (h.apart.imp fun hne => ?_) fun e he => ?_
  · by_contra hsame
    exact hne (GenericParam.number_eq_of_beq (by simpa using hsame))
  · by_contra hsame
    have hnumber := GenericParam.number_eq_of_beq (p := e.2) (q := p) (by simpa using hsame)
    have hfresh := (h.fresh e he).1
    omega

lemma isType_eq_inverse : ∀ e ∈ m.inverse.entries, e.2.isType = e.1.isType := by
  intro e he
  obtain ⟨e', he', hkey, hvalue⟩ := Table.exists_mem_of_mem_ofPairs he
  obtain ⟨e'', he'', rfl⟩ := List.mem_map.1 he'
  rw [← hvalue, ← GenericParam.isType_eq_of_beq hkey]
  exact (h.isType_eq e'' he'').symm

end Freshens

/-! ## Tables of parameters as renamings -/

/-- The renaming by a table that keeps parameters and lifetimes apart. -/
def renamingOf (m : Table GenericParam GenericParam) : Renaming where
  onParam p :=
    match m.image (.type p) with
    | .type q => q
    | .lifetime _ => p
  onLifetime l :=
    match m.image (.lifetime l) with
    | .lifetime k => k
    | .type _ => l

section

variable {m : Table GenericParam GenericParam} (hm : ∀ e ∈ m.entries, e.2.isType = e.1.isType)

include hm

lemma isType_image (p : GenericParam) : (m.image p).isType = p.isType := by
  cases hvalue : m.get? p with
  | none => rw [Table.image, hvalue, Option.getD_none]
  | some v =>
    obtain ⟨e, he, hkey, rfl⟩ := Table.exists_mem_of_lookup hvalue
    rw [Table.image, hvalue, Option.getD_some, hm e he, GenericParam.isType_eq_of_beq hkey]

lemma rename_renamingOf (p : GenericParam) : p.rename (renamingOf m) = m.image p := by
  have hsort := isType_image hm p
  cases p with
  | type p =>
    cases himage : m.image (.type p) with
    | type q => simp only [GenericParam.rename, renamingOf, himage]
    | lifetime k =>
      rw [himage] at hsort
      cases hsort
  | lifetime l =>
    cases himage : m.image (.lifetime l) with
    | type q =>
      rw [himage] at hsort
      cases hsort
    | lifetime k => simp only [GenericParam.rename, renamingOf, himage]

lemma renames_substitutionOf : (substitutionOf m).Renames (renamingOf m) := by
  have hget : ∀ p, (substitutionOf m).get? p = (m.get? p).map GenericParam.toArg :=
    Table.get?_map (f := id) (fun _ _ => rfl) m
  have himage : ∀ p, (m.image p).toArg = ((substitutionOf m).get? p).getD p.toArg := by
    intro p
    rw [hget, Table.image]
    cases m.get? p <;> rfl
  constructor
  · intro p
    have hrename := congrArg GenericParam.toArg (rename_renamingOf hm (.type p))
    rw [himage] at hrename
    exact hrename.symm
  · intro l
    have hrename := congrArg GenericParam.toArg (rename_renamingOf hm (.lifetime l))
    rw [himage] at hrename
    exact hrename.symm

end

/-! ## The main result -/

/-- Refreshing a list of parameters takes them out of any term over what was handed out before, and
putting them back in the place of the fresh ones makes an equal term. -/
theorem refresh_undoes (hn : n.Arises) {params : List GenericParam}
    (hparams : ∀ p ∈ params, n.handedOut.contains p = true) :
    let m := (n.refresh params).2
    let known : GenericParam → Prop := fun p => n.handedOut.contains p = true
    let unlisted : GenericParam → Prop := fun p => params.contains p = false
    (∀ v : Value, v.Over known → ∃ v' v'', v.subst (substitutionOf m) = .ok v' ∧
        v'.Over unlisted ∧ v'.subst (substitutionOf m.inverse) = .ok v'' ∧ (v'' == v) = true) ∧
      ∀ g : Generics, g.Over known → ∃ g' g'', g.subst (substitutionOf m) = .ok g' ∧
        g'.Over unlisted ∧ g'.subst (substitutionOf m.inverse) = .ok g'' ∧ (g'' == g) = true := by
  intro m known unlisted
  have hm : Freshens m n.next (n.refresh params).1.next params := (freshens_refresh n params).2
  have hthere := renames_substitutionOf hm.isType_eq
  have hback := renames_substitutionOf hm.isType_eq_inverse
  have hunlisted : ∀ p, known p → unlisted (p.rename (renamingOf m)) := by
    intro p _
    rw [rename_renamingOf hm.isType_eq]
    exact hm.image_not_listed fun q hq => hn.bounded.number_lt (hparams q hq)
  have hundoes : ∀ p, known p → (renamingOf m.inverse).Undoes (renamingOf m) p := by
    intro p hp
    rw [Renaming.Undoes, rename_renamingOf hm.isType_eq, rename_renamingOf hm.isType_eq_inverse]
    exact hm.inverse_image (hn.bounded.number_lt hp)
  constructor
  · intro v hv
    have hv' := Value.Over.rename hunlisted hv
    exact ⟨_, _, Value.subst_eq_rename hthere hv, hv', Value.subst_eq_rename hback hv',
      Value.beq_rename_rename hundoes hv⟩
  · intro g hg
    have hg' := Generics.Over.rename hunlisted hg
    exact ⟨_, _, Generics.subst_eq_rename hthere hg, hg', Generics.subst_eq_rename hback hg',
      Generics.same_rename_rename hundoes hg⟩

/-- A numbering that handed out `T`, `'a` and `U`. -/
def threeParams : Numbering := (((∅ : Numbering).addType "T").1.addLifetime "a").1.addType "U" |>.1

/-- That a reference can be turned into a `U`, whatever its lifetime. -/
def intoConstraint : Constraint :=
  .type (.ref .shared (.param ⟨0, "T"⟩) (some ⟨1, "a"⟩))
    [.trait (.ofName "Into" [.type (.param ⟨2, "U"⟩)]) []] [⟨1, "a"⟩]

/-- A parameter may be listed repeatedly, and a lifetime may be bound. -/
theorem refresh_undoes_intoConstraint :
    let n := threeParams
    let params : List GenericParam := [.type ⟨0, "T"⟩, .lifetime ⟨1, "a"⟩, .type ⟨0, "T"⟩]
    let m := (n.refresh params).2
    let v : Value := .constraint intoConstraint
    n.Arises ∧ (∀ p ∈ params, n.handedOut.contains p = true) ∧
      v.Over (fun p => n.handedOut.contains p = true) ∧
      ∃ v' v'', v.subst (substitutionOf m) = .ok v' ∧
        v'.Over (fun p => params.contains p = false) ∧
        v'.subst (substitutionOf m.inverse) = .ok v'' ∧ (v'' == v) = true := by
  intro n params m v
  have hn : n.Arises := .addType "U" (.addLifetime "a" (.addType "T" .empty))
  have hparams : ∀ p ∈ params, n.handedOut.contains p = true := by decide
  have hv : v.Over (fun p => n.handedOut.contains p = true) :=
    ⟨⟨rfl, by rintro k ⟨⟩; rfl⟩, ⟨⟨⟨trivial, rfl, trivial⟩, by simp⟩, trivial⟩,
      List.forall_mem_singleton.2 rfl⟩
  exact ⟨hn, hparams, hv, (refresh_undoes hn hparams).1 v hv⟩

end Numbering

end WhereClause
