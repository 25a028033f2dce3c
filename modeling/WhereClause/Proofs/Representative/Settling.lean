import WhereClause.Proofs.Representative.Memo

/-!
# Parameters in settled types

Settling expands one set inside another, and a type of a set that is being expanded stands as it
is.  So a parameter in a settled type need not be the most concrete form of itself, in general.  It
is if nothing but references leads to it (`Resolver.anchored_settle`): along references the number
of layers never grows again, while a type of a set that is being expanded would have as many layers
as when the expansion began.

`Store.Guards` is the invariant of that argument.  It says of the sets under way that what was
reached below them is a path or the string type, or a parameter with fewer layers than any member
had.
-/

namespace WhereClause

open Resolving

namespace Resolver

variable {store : Store}

/-! ## Questions that a resolver answers -/

lemma concrete_eq (store : Store) :
    concrete store = concreteWithin store (store.sets.length + 1) := by
  rfl

/-- A resolver is at rest if no fold was broken off and no set is being expanded. -/
structure AtRest (ρ : Resolver) : Prop where
  complete : ∀ i, ρ.memo.get? i ≠ some none
  idle : ρ.settling = []

lemma Onward.atRest {ρ ρ' : Resolver} (h : Onward ρ ρ') (hρ : ρ.AtRest) : ρ'.AtRest :=
  ⟨fun i hi => hρ.complete i (h.fresh i hi), h.settling.trans hρ.idle⟩

lemma Later.complete {ρ ρ' : Resolver} (h : Later store ρ ρ')
    (hρ : ∀ i, ρ.memo.get? i ≠ some none) : ∀ i, ρ'.memo.get? i ≠ some none :=
  fun i hi => hρ i (h.fresh i hi)

lemma Later.atRest {ρ ρ' : Resolver} (h : Later store ρ ρ') (hρ : ρ.AtRest) : ρ'.AtRest :=
  h.onward.atRest hρ

/-- Where no fold was broken off, the most concrete form of a type is remembered of its set. -/
lemma get?_of_concrete (hcoherent : store.Coherent) {ρ ρ' : Resolver} {t w : Ty} {r : ℕ}
    (hρ : ∀ i, ρ.memo.get? i ≠ some none) (ht : store.setOf t = some r)
    (h : concrete store t ρ = (.ok w, ρ')) : ρ'.memo.get? (r : ℤ) = some (some w) := by
  rw [concrete_eq] at h
  rcases concreteWithin_returns h with ⟨hnone, -⟩ | ⟨q, o, hq, ho, hw⟩
  · rw [ht] at hnone
    cases hnone
  · obtain rfl : r = q := Option.some.inj (ht.symm.trans hq)
    have hmemo := (answers hcoherent _ ho).2
    rcases resolveWithin_returns ho with ⟨hknown, -⟩ | ⟨_, _, _, v, _, -, -, -, -, rfl, -⟩
    · rcases o with _ | v
      · exact absurd hknown (hρ r)
      · obtain rfl : w = v := hw
        exact hmemo w rfl
    · obtain rfl : w = v := hw
      exact hmemo w rfl

/-! ## Expanding a set -/

/-- The resolver while a set is being expanded. -/
def push (r : ℕ) (ρ : Resolver) : Resolver := { ρ with settling := r :: ρ.settling }

/-- The resolver when a set is done with. -/
def pop (r : ℕ) (ρ : Resolver) : Resolver := { ρ with settling := ρ.settling.erase r }

lemma run_whileSettling {α : Type} (r : ℕ) (x : Resolving α) (ρ : Resolver) :
    whileSettling r x ρ = ((x (ρ.push r)).1, (x (ρ.push r)).2.pop r) := rfl

lemma whileSettling_returns {α : Type} {r : ℕ} {x : Resolving α} {a : α} {ρ ρ' : Resolver}
    (h : whileSettling r x ρ = (.ok a, ρ')) : ∃ ρ₂, x (ρ.push r) = (.ok a, ρ₂) ∧ ρ' = ρ₂.pop r := by
  rw [run_whileSettling] at h
  obtain ⟨hvalue, rfl⟩ := Prod.mk.inj h
  exact ⟨_, Prod.ext hvalue rfl, rfl⟩

section

variable {ρ : Resolver} {r : ℕ}

/-- A type of a set that is being expanded stands as it is. -/
lemma expandWithin_of_mem (h : r ∈ ρ.settling) (depth : ℕ) (t : Ty) :
    expandWithin store depth r t ρ = (.ok t, ρ) := by
  rw [expandWithin.eq_def, run_get_bind, if_pos (List.contains_iff_mem.2 h)]
  rfl

lemma expandWithin_of_not_mem (h : r ∉ ρ.settling) (depth : ℕ) (t : Ty) :
    expandWithin store (depth + 1) r t ρ = whileSettling r (do
      let representative ← concrete store t
      representative.settleParts store.setOf (expandWithin store depth)) ρ := by
  rw [expandWithin.eq_def, run_get_bind, if_neg (mt List.contains_iff_mem.1 h)]

lemma expandWithin_zero_of_not_mem (h : r ∉ ρ.settling) (t : Ty) :
    expandWithin store 0 r t ρ = (.error (.unresolved r), ρ) := by
  rw [expandWithin.eq_def, run_get_bind, if_neg (mt List.contains_iff_mem.1 h)]
  rfl

end

/-- A type of a set stands as it is while the set is being expanded, or has its representative
settled. -/
lemma expandWithin_returns {depth r : ℕ} {t u : Ty} {ρ ρ' : Resolver}
    (h : expandWithin store depth r t ρ = (.ok u, ρ')) :
    (r ∈ ρ.settling ∧ u = t ∧ ρ' = ρ) ∨
      ∃ d w ρ₁ ρ₂, r ∉ ρ.settling ∧ depth = d + 1 ∧ concrete store t (ρ.push r) = (.ok w, ρ₁) ∧
        w.settleParts store.setOf (expandWithin store d) ρ₁ = (.ok u, ρ₂) ∧ ρ' = ρ₂.pop r := by
  by_cases hr : r ∈ ρ.settling
  · rw [expandWithin_of_mem hr] at h
    obtain ⟨hu, rfl⟩ := Prod.mk.inj h
    exact .inl ⟨hr, (Except.ok.inj hu).symm, rfl⟩
  · rcases depth with _ | d
    · rw [expandWithin_zero_of_not_mem hr] at h
      cases congrArg Prod.fst h
    · rw [expandWithin_of_not_mem hr] at h
      obtain ⟨ρ₂, hinside, rfl⟩ := whileSettling_returns h
      obtain ⟨w, ρ₁, hw, hu⟩ := bind_eq_ok_iff.1 hinside
      exact .inr ⟨d, w, ρ₁, ρ₂, hr, rfl, hw, hu, rfl⟩

lemma settle_eq (store : Store) (t : Ty) :
    settle store t = t.settlePart store.setOf (expand store) := rfl

/-! ## What any question does to a resolver -/

/-- What is kept where a type is made concrete is kept where a set is expanded, unless it matters
that the set is. -/
lemma keeps_expandWithin_of_concrete {R : Resolver → Resolver → Prop} [Std.Refl R] [Trans R R R]
    (hconcrete : ∀ t, Keeps R (concrete store t))
    (hpop : ∀ {ρ ρ' : Resolver} {r : ℕ}, R (ρ.push r) ρ' → R ρ (ρ'.pop r)) (depth r : ℕ) (t : Ty) :
    Keeps R (expandWithin store depth r t) := by
  induction depth generalizing r t with
  | zero =>
    intro ρ u ρ' hrun
    rcases expandWithin_returns hrun with ⟨-, -, rfl⟩ | ⟨_, _, _, _, -, h0, -⟩
    · exact Std.Refl.refl _
    · cases h0
  | succ depth ih =>
    intro ρ u ρ' hrun
    rcases expandWithin_returns hrun with ⟨-, -, rfl⟩ | ⟨d, w, ρ₁, ρ₂, -, hd, hw, hu, rfl⟩
    · exact Std.Refl.refl _
    · obtain rfl : depth = d := Nat.succ.inj hd
      exact hpop (Trans.trans (hconcrete t hw) (Ty.keeps_settleParts ih w hu))

/-- A relation of the resolver before a computation to the one after is steady if folds keep it and
if it does not matter to it that a set is being expanded. -/
structure Steady (store : Store) (R : Resolver → Resolver → Prop) : Prop where
  resolveWithin : ∀ depth position, Keeps R (resolveWithin store depth position)
  pop : ∀ {ρ ρ' : Resolver} {r : ℕ}, R (ρ.push r) ρ' → R ρ (ρ'.pop r)

lemma settling_pop {ρ ρ' : Resolver} {r : ℕ} (h : ρ'.settling = (ρ.push r).settling) :
    (ρ'.pop r).settling = ρ.settling := by
  rw [pop, h, push, List.erase_cons_head]

lemma steady_onward (store : Store) : Steady store Onward where
  resolveWithin := keeps_resolveWithin
  pop h := ⟨h.kept, h.fresh, settling_pop h.settling⟩

lemma steady_later (hcoherent : store.Coherent) : Steady store (Later store) where
  resolveWithin depth _ _ _ _ hrun := (answers hcoherent depth hrun).1
  pop h := ⟨h.kept, h.fresh, settling_pop h.settling, h.faithful⟩

namespace Steady

variable {R : Resolver → Resolver → Prop} [Std.Refl R] (h : Steady store R)

include h

lemma concrete (t : Ty) : Keeps R (concrete store t) := by
  rw [concrete_eq]
  exact keeps_concreteWithin (h.resolveWithin _) t

variable [Trans R R R]

lemma pair (a b : Ty) : Keeps R (pair store a b) := Ty.keeps_mostConcrete h.concrete a b

lemma expandWithin (depth r : ℕ) (t : Ty) : Keeps R (expandWithin store depth r t) :=
  keeps_expandWithin_of_concrete h.concrete h.pop depth r t

lemma settle (t : Ty) : Keeps R (settle store t) := Ty.keeps_settlePart (h.expandWithin _) t

lemma settlePath (p : Path) : Keeps R (settlePath store p) := Path.keeps_settle (h.expandWithin _) p

lemma settleBound (b : Bound) : Keeps R (settleBound store b) :=
  Bound.keeps_settle (h.expandWithin _) b

end Steady

lemma keeps_concrete (hcoherent : store.Coherent) (t : Ty) :
    Keeps (Later store) (concrete store t) := (steady_later hcoherent).concrete t

lemma keeps_expandWithin (hcoherent : store.Coherent) (depth r : ℕ) (t : Ty) :
    Keeps (Later store) (expandWithin store depth r t) :=
  (steady_later hcoherent).expandWithin depth r t

lemma keeps_settle (hcoherent : store.Coherent) (t : Ty) : Keeps (Later store) (settle store t) :=
  (steady_later hcoherent).settle t

lemma keeps_settleBound (hcoherent : store.Coherent) (b : Bound) :
    Keeps (Later store) (settleBound store b) := (steady_later hcoherent).settleBound b

end Resolver

/-! ## Along references -/

/-- Below the sets that are being expanded, a member of which leads to a parameter, a type was
reached that leads to a string or path, or to a parameter through fewer references. -/
def Store.Guards (store : Store) (expanding : List ℕ) (fewer : ℕ) (t : Ty) : Prop :=
  ∀ r ∈ expanding, ∀ u p, store.setOf u = some r → u.pointee = .param p →
    t.pointee.isNamed = true ∨ (∃ q, t.pointee = .param q) ∧ t.layers + fewer ≤ u.layers

lemma Store.Guards.weaken {store : Store} {expanding : List ℕ} {fewer : ℕ} {t : Ty}
    (h : store.Guards expanding (fewer + 1) t) : store.Guards expanding fewer t := by
  intro r hr u p hu hp
  rcases h r hr u p hu hp with hnamed | ⟨hparam, hlayers⟩
  · exact .inl hnamed
  · exact .inr ⟨hparam, by omega⟩

namespace Resolver

variable {store : Store}

/-- A parameter of a set that a type leads to is what is remembered of the set. -/
def Anchored (store : Store) (ρ : Resolver) (u : Ty) : Prop :=
  ∀ p r, u.pointee = .param p → store.setOf (.param p) = some r →
    ρ.memo.get? (r : ℤ) = some (some (.param p))

lemma anchored_param {ρ : Resolver} {p : Param}
    (h : ∀ r, store.setOf (.param p) = some r → ρ.memo.get? (r : ℤ) = some (some (.param p))) :
    Anchored store ρ (.param p) := by
  intro q r hq hr
  obtain rfl : p = q := Ty.param.inj hq
  exact h r hr

/-- Nothing is to be remembered of a parameter that is of no set. -/
lemma anchored_of_setOf_eq_none {ρ : Resolver} {t : Ty} (ht : store.setOf t = none) :
    ∀ p, t = .param p → Anchored store ρ t := by
  rintro p rfl
  refine anchored_param fun r hr => ?_
  rw [ht] at hr
  cases hr

lemma Later.anchored {ρ ρ' : Resolver} (h : Later store ρ ρ') {u : Ty}
    (hu : Anchored store ρ u) : Anchored store ρ' u :=
  fun p r hp hr => h.kept _ _ (hu p r hp hr)

/-- A resolver while sets are expanded inside one another. -/
structure Underway (store : Store) (ρ : Resolver) : Prop where
  faithful : Faithful store ρ
  complete : ∀ i, ρ.memo.get? i ≠ some none

lemma Underway.later {ρ ρ' : Resolver} (h : Underway store ρ) (hlater : Later store ρ ρ') :
    Underway store ρ' :=
  ⟨hlater.faithful h.faithful, hlater.complete h.complete⟩

lemma Underway.push {ρ : Resolver} (h : Underway store ρ) (r : ℕ) : Underway store (ρ.push r) :=
  ⟨h.faithful, h.complete⟩

/-- What is known of expansions at some depth: what they lead to is anchored, and what leads to a
string or path still does. -/
def Expands (store : Store) (depth : ℕ) : Prop :=
  ∀ ⦃r t u ρ ρ'⦄, Underway store ρ → store.Guards ρ.settling 1 t → store.setOf t = some r →
    expandWithin store depth r t ρ = (.ok u, ρ') →
    Anchored store ρ' u ∧ (t.pointee.isNamed = true → u.pointee.isNamed = true)

/-- Settling the parts of a type goes down its references until one leads to a type of a set. -/
lemma Expands.settleParts {depth : ℕ} (h : Expands store depth) {t u : Ty} {ρ ρ' : Resolver}
    (hρ : Underway store ρ) (hguards : store.Guards ρ.settling 0 t)
    (hparam : ∀ p, t = .param p → Anchored store ρ t)
    (hrun : t.settleParts store.setOf (expandWithin store depth) ρ = (.ok u, ρ')) :
    Anchored store ρ' u ∧ (t.pointee.isNamed = true → u.pointee.isNamed = true) := by
  cases t with
  | ref access t l =>
    rw [Ty.settleParts_ref] at hrun
    obtain ⟨x, ρ₁, hpart, hrest⟩ := bind_eq_ok_iff.1 hrun
    obtain ⟨rfl, rfl⟩ := pure_eq_ok_iff.1 hrest
    have hbelow : store.Guards ρ.settling 1 t := hguards
    have hx : Anchored store ρ₁ x ∧ (t.pointee.isNamed = true → x.pointee.isNamed = true) := by
      rw [Ty.settlePart] at hpart
      rcases ht : store.setOf t with _ | r
      · rw [ht] at hpart
        exact h.settleParts hρ hbelow.weaken (anchored_of_setOf_eq_none ht) hpart
      · rw [ht] at hpart
        exact h hρ hbelow ht hpart
    exact hx
  | param p =>
    rw [Ty.settleParts] at hrun
    obtain ⟨rfl, rfl⟩ := pure_eq_ok_iff.1 hrun
    exact ⟨hparam p rfl, id⟩
  | tuple ts =>
    rw [Ty.settleParts] at hrun
    obtain ⟨elements, ρ₁, -, hrest⟩ := bind_eq_ok_iff.1 hrun
    obtain ⟨rfl, -⟩ := pure_eq_ok_iff.1 hrest
    exact ⟨nofun, nofun⟩
  | dyn bs =>
    rw [Ty.settleParts] at hrun
    obtain ⟨bounds, ρ₁, -, hrest⟩ := bind_eq_ok_iff.1 hrun
    obtain ⟨rfl, -⟩ := pure_eq_ok_iff.1 hrest
    exact ⟨nofun, nofun⟩
  | path p =>
    rw [Ty.settleParts] at hrun
    obtain ⟨path, ρ₁, -, hrest⟩ := bind_eq_ok_iff.1 hrun
    obtain ⟨rfl, -⟩ := pure_eq_ok_iff.1 hrest
    exact ⟨nofun, fun _ => rfl⟩
  | infer | str | deref _ | data _ _ _ =>
    rw [Ty.settleParts] at hrun
    obtain ⟨rfl, -⟩ := pure_eq_ok_iff.1 hrun
    exact ⟨nofun, id⟩
termination_by sizeOf t

/-- Of what was reached below a set that is being expanded, only types that lead to no parameter
are members of the set. -/
lemma anchored_of_mem {ρ : Resolver} {expanding : List ℕ} {r : ℕ} {t : Ty}
    (hguards : store.Guards expanding 1 t) (hr : r ∈ expanding) (ht : store.setOf t = some r) :
    Anchored store ρ t := by
  intro p q hp _
  rcases hguards r hr t p ht hp with hnamed | ⟨-, hlayers⟩
  · rw [hp] at hnamed
    cases hnamed
  · omega

/-- Expanding a set goes on below its representative, which has as many layers as the members, and
the layers that remain below a reference are fewer. -/
lemma expands (hcoherent : store.Coherent) (depth : ℕ) : Expands store depth := by
  induction depth with
  | zero =>
    intro r t u ρ ρ' hρ hguards ht hrun
    rcases expandWithin_returns hrun with ⟨hr, rfl, rfl⟩ | ⟨_, _, _, _, -, h0, -⟩
    · exact ⟨anchored_of_mem hguards hr ht, id⟩
    · cases h0
  | succ depth ih =>
    intro r t u ρ ρ' hρ hguards ht hrun
    rcases expandWithin_returns hrun with ⟨hr, rfl, rfl⟩ | ⟨d, w, ρ₁, ρ₂, -, hd, hw, hu, rfl⟩
    · exact ⟨anchored_of_mem hguards hr ht, id⟩
    · obtain rfl : depth = d := Nat.succ.inj hd
      have hlater := keeps_concrete hcoherent t hw
      have hpushed := hρ.push r
      have hρ₁ := hpushed.later hlater
      have hmemo := get?_of_concrete hcoherent hpushed.complete ht hw
      obtain ⟨-, hstands⟩ := hρ₁.faithful r w hmemo
      have htw : t.YieldsTo w := hstands.yields t (hcoherent.contains_members ht)
      have hguards' : store.Guards ρ₁.settling 0 w := by
        rw [hlater.settling]
        intro q hq v p hv hp
        rcases List.mem_cons.1 hq with rfl | hq
        · obtain ⟨-, hyields, -⟩ := hstands.yields v (hcoherent.contains_members hv)
          rcases hyields p hp with hnamed | ⟨hparam, hlayers⟩
          · exact .inl hnamed
          · exact .inr ⟨hparam, by omega⟩
        · rcases hguards q hq v p hv hp with hnamed | ⟨⟨p', hp'⟩, hlayers⟩
          · exact .inl (htw.named hnamed)
          · rcases htw.param p' hp' with hnamed | ⟨hparam, heq⟩
            · exact .inl hnamed
            · exact .inr ⟨hparam, by omega⟩
      have hparam : ∀ p, w = .param p → Anchored store ρ₁ w := by
        rintro p rfl
        refine anchored_param fun q hq => ?_
        have hmember : store.setOf (.param p) = some r :=
          (hcoherent.setOf_iff _ r).2 (hstands.member rfl)
        obtain rfl : r = q := Option.some.inj (hmember.symm.trans hq)
        exact hmemo
      obtain ⟨hanchored, hnamed⟩ := ih.settleParts hρ₁ hguards' hparam hu
      exact ⟨hanchored, hnamed ∘ htw.named⟩

/-- A parameter that a settled type leads to is the most concrete form of its set. -/
lemma anchored_settle (hcoherent : store.Coherent) {ρ ρ' : Resolver} (hfaithful : Faithful store ρ)
    (hrest : ρ.AtRest) {t u : Ty} (h : settle store t ρ = (.ok u, ρ')) : Anchored store ρ' u := by
  have hρ : Underway store ρ := ⟨hfaithful, hrest.complete⟩
  have hguards : ∀ fewer, store.Guards ρ.settling fewer t := by
    intro fewer r hr
    rw [hrest.idle] at hr
    cases hr
  rw [settle_eq, Ty.settlePart] at h
  rcases ht : store.setOf t with _ | r
  · rw [ht] at h
    have hexpands := expands hcoherent store.sets.length
    exact (hexpands.settleParts hρ (hguards 0) (anchored_of_setOf_eq_none ht) h).1
  · rw [ht] at h
    exact (expands hcoherent _ hρ (hguards 1) ht h).1

end Resolver

end WhereClause
