import Mathlib
import WhereClause.Proofs.Representative.Standing

/-!
# The order of members

As long as there are no paths, trait objects and string types, types are ordered by how concrete
they are (`Ty.Below`): the placeholder is below everything, a parameter below the older ones, and
tuples and references are compared part by part.  Up to names this is a partial order, and the more
concrete of two types is their least upper bound in it.  There is none exactly if no type is above
both, and then the two are found incompatible.

So a fold over types finds the least type above all of them, wherever each of them stands
(`Resolver.foldlM_pair_perm`).
-/

namespace WhereClause

open Resolving

/-! ## How concrete types are -/

mutual

/-- Whether a type is made up without paths, trait objects and the string type.  Dereferences and
data structures are compared as a whole, so what they hold does not matter. -/
def Ty.isBare : Ty → Bool
  | .str => false
  | .path _ => false
  | .dyn _ => false
  | .tuple ts => Ty.isBareEach ts
  | .ref _ t _ => t.isBare
  | .infer => true
  | .deref _ => true
  | .data _ _ _ => true
  | .param _ => true

def Ty.isBareEach : List Ty → Bool
  | [] => true
  | t :: ts => t.isBare && Ty.isBareEach ts

end

mutual

/-- A type is below another if the other is at least as concrete.  A reference keeps its lifetime
only as long as it stays what it is. -/
def Ty.Below : Ty → Ty → Prop
  | .infer, _ => True
  | .tuple xs, .tuple ys => Ty.BelowEach xs ys
  | .ref access x l, .ref access' y k =>
    access = access' ∧ Ty.Below x y ∧ (k = none ∨ (x == y) = true ∧ (l == k) = true)
  | .param p, .param q => q.number ≤ p.number
  | t, u => (t == u) = true

def Ty.BelowEach : List Ty → List Ty → Prop
  | [], [] => True
  | x :: xs, y :: ys => Ty.Below x y ∧ Ty.BelowEach xs ys
  | _, _ => False

end

namespace Ty

lemma beq_eq (t u : Ty) : (t == u) = same t u := rfl

/-- Apart from the placeholder, types are only below types of the same form. -/
lemma Below.ctorIdx_eq {t u : Ty} (h : t.Below u) (ht : t ≠ .infer) : t.ctorIdx = u.ctorIdx := by
  cases t <;> cases u <;> first
    | rfl
    | exact absurd rfl ht
    | simp [Below, beq_eq, same] at h

mutual

lemma Below.of_beq {t u : Ty} (h : (t == u) = true) : t.Below u := by
  have hsame : same t u = true := h
  cases t with
  | infer => exact trivial
  | tuple xs =>
    cases u <;> simp only [same, Bool.false_eq_true] at hsame
    exact BelowEach.of_sameEach hsame
  | ref access x l =>
    cases u <;> simp only [same, Bool.and_eq_true, Bool.false_eq_true, beq_iff_eq] at hsame
    obtain ⟨⟨haccess, hinner⟩, hlifetime⟩ := hsame
    exact ⟨haccess, Below.of_beq hinner, .inr ⟨hinner, hlifetime⟩⟩
  | param p =>
    cases u <;> simp only [same, Bool.false_eq_true] at hsame
    exact Int.le_of_eq (Param.beq_ty_iff.1 h).symm
  | str | deref _ | dyn _ | data _ _ _ | path _ => cases u <;> exact h
termination_by structural t

lemma BelowEach.of_sameEach {xs ys : List Ty} (h : sameEach xs ys = true) : BelowEach xs ys := by
  cases xs with
  | nil => cases ys <;> simp [sameEach, BelowEach] at h ⊢
  | cons x xs =>
    cases ys with
    | nil => simp [sameEach] at h
    | cons y ys =>
      rw [sameEach, Bool.and_eq_true] at h
      exact ⟨Below.of_beq h.1, BelowEach.of_sameEach h.2⟩
termination_by structural xs

end

lemma Below.refl (t : Ty) : t.Below t := .of_beq BEq.rfl

mutual

lemma Below.trans {t u v : Ty} (h : t.Below u) (h' : u.Below v) : t.Below v := by
  cases t with
  | infer => exact trivial
  | tuple xs =>
    cases u <;> simp only [Below, beq_eq, same, Bool.false_eq_true] at h
    cases v <;> simp only [Below, beq_eq, same, Bool.false_eq_true] at h' ⊢
    exact BelowEach.trans h h'
  | ref access x l =>
    cases u <;> simp only [Below, beq_eq, same, Bool.false_eq_true] at h
    cases v <;> simp only [Below, beq_eq, same, Bool.false_eq_true] at h' ⊢
    obtain ⟨haccess, hinner, hlifetime⟩ := h
    obtain ⟨haccess', hinner', hlifetime'⟩ := h'
    refine ⟨haccess.trans haccess', hinner.trans hinner', ?_⟩
    rcases hlifetime' with rfl | ⟨hpointee', hkept'⟩
    · exact .inl rfl
    · rcases hlifetime with rfl | ⟨hpointee, hkept⟩
      · rw [Lifetime.option_beq_iff] at hkept'
        exact .inl (Option.map_eq_none_iff.1 hkept'.symm)
      · rw [Lifetime.option_beq_iff] at hkept hkept'
        refine .inr ⟨BEq.trans (α := Ty) hpointee hpointee', ?_⟩
        exact (Lifetime.option_beq_iff _ _).2 (hkept.trans hkept')
  | param p =>
    cases u <;> simp only [Below, beq_eq, same, Bool.false_eq_true] at h
    cases v <;> simp only [Below, beq_eq, same, Bool.false_eq_true] at h' ⊢
    exact Int.le_trans h' h
  | str | deref _ | dyn _ | data _ _ _ | path _ =>
    cases u <;> first
      | exact BEq.trans (α := Ty) h h'
      | simp [Below, beq_eq, same] at h
termination_by structural t

lemma BelowEach.trans {xs ys zs : List Ty} (h : BelowEach xs ys) (h' : BelowEach ys zs) :
    BelowEach xs zs := by
  cases xs <;> cases ys <;> cases zs <;> simp only [BelowEach] at h h' ⊢
  exact ⟨h.1.trans h'.1, BelowEach.trans h.2 h'.2⟩
termination_by structural xs

end

mutual

/-- Types that are below one another are equal. -/
lemma Below.antisymm {t u : Ty} (h : t.Below u) (h' : u.Below t) : (t == u) = true := by
  cases t with
  | infer => cases u <;> simp [Below, beq_eq, same] at h' ⊢
  | tuple xs =>
    cases u <;> simp only [Below, beq_eq, same, Bool.false_eq_true] at h h' ⊢
    exact BelowEach.antisymm h h'
  | ref access x l =>
    cases u <;> simp only [Below, beq_eq, same, Bool.false_eq_true] at h h' ⊢
    obtain ⟨haccess, hinner, hlifetime⟩ := h
    obtain ⟨-, hinner', hlifetime'⟩ := h'
    simp only [Bool.and_eq_true, beq_iff_eq]
    refine ⟨⟨haccess, hinner.antisymm hinner'⟩, ?_⟩
    rcases hlifetime with rfl | ⟨-, hkept⟩
    · rcases hlifetime' with rfl | ⟨-, hkept'⟩
      · rfl
      · rw [Lifetime.option_beq_iff] at hkept' ⊢
        exact hkept'.symm
    · exact hkept
  | param p =>
    cases u <;> simp only [Below, beq_eq, same, Bool.false_eq_true] at h
    exact Param.beq_ty_iff.2 (Int.le_antisymm h' h)
  | str | deref _ | dyn _ | data _ _ _ | path _ =>
    cases u <;> simp only [Below, beq_eq, same, Bool.false_eq_true] at h ⊢
    all_goals exact h
termination_by structural t

lemma BelowEach.antisymm {xs ys : List Ty} (h : BelowEach xs ys) (h' : BelowEach ys xs) :
    sameEach xs ys = true := by
  cases xs <;> cases ys <;> simp only [BelowEach, sameEach, Bool.and_eq_true] at h h' ⊢
  exact ⟨h.1.antisymm h'.1, BelowEach.antisymm h.2 h'.2⟩
termination_by structural xs

end

lemma BelowEach.length_eq {xs ys : List Ty} (h : BelowEach xs ys) : xs.length = ys.length := by
  induction xs generalizing ys with
  | nil => cases ys <;> simp [BelowEach] at h ⊢
  | cons x xs ih =>
    cases ys with
    | nil => simp [BelowEach] at h
    | cons y ys => simp [ih h.2]

end Ty

/-! ## Least upper bounds -/

/-- A bare type such that the types above it are those with some property. -/
structure Ty.IsLeast (P : Ty → Prop) (t : Ty) : Prop where
  bare : t.isBare = true
  below_iff : ∀ v, t.Below v ↔ P v

namespace Ty

lemma IsLeast.self {P : Ty → Prop} {t : Ty} (h : IsLeast P t) : P t :=
  (h.below_iff t).1 (.refl t)

/-- The least type with a property is determined up to names. -/
lemma IsLeast.beq {P : Ty → Prop} {t u : Ty} (ht : IsLeast P t) (hu : IsLeast P u) :
    (t == u) = true :=
  Below.antisymm ((ht.below_iff u).2 hu.self) ((hu.below_iff t).2 ht.self)

/-- Nothing is above both of two types of different forms, unless one is the placeholder. -/
lemma not_below_both {a b : Ty} (ha : a ≠ .infer) (hb : b ≠ .infer) (h : a.ctorIdx ≠ b.ctorIdx)
    (v : Ty) : ¬ (a.Below v ∧ b.Below v) := by
  rintro ⟨hav, hbv⟩
  exact h ((hav.ctorIdx_eq ha).trans (hbv.ctorIdx_eq hb).symm)

end Ty

namespace Resolving

variable {α β : Type}

/-- Whatever the resolver, the computation leaves it alone, and it returns a value with a property,
or fails, and then a condition holds. -/
def Decides (Q : α → Prop) (N : Prop) (x : Resolving α) : Prop :=
  ∀ ρ, (∃ a, x ρ = (.ok a, ρ) ∧ Q a) ∨ ∃ fault, x ρ = (.error fault, ρ) ∧ N

namespace Decides

variable {Q : α → Prop} {P : β → Prop} {N : Prop}

lemma pure {a : α} (ha : Q a) : Decides Q N (Pure.pure a) := fun _ => .inl ⟨a, rfl, ha⟩

lemma failWith (c : Cause) (hN : N) : Decides Q N (WhereClause.failWith c) :=
  fun _ => .inr ⟨.ofCause c, rfl, hN⟩

lemma bind {M : Prop} {x : Resolving α} {f : α → Resolving β} (hx : Decides Q M x) (hM : M → N)
    (hf : ∀ a, Q a → Decides P N (f a)) : Decides P N (x >>= f) := by
  intro ρ
  rcases hx ρ with ⟨a, hrun, ha⟩ | ⟨fault, hrun, hfails⟩
  · rw [run_bind_of_ok hrun]
    exact hf a ha ρ
  · exact .inr ⟨fault, run_bind_of_error hrun f, hM hfails⟩

end Decides

/-- The computation finds the least type with a property, and fails only if there is none. -/
abbrev FindsLeast (P : Ty → Prop) (x : Resolving Ty) : Prop :=
  Decides (Ty.IsLeast P) (∀ v, ¬ P v) x

end Resolving

/-! ## The more concrete of two types is their least upper bound -/

section

open Ty

lemma Ty.below_ref_iff {access : Access} {x y w : Ty} {l k : Option Lifetime}
    (hne : (Ty.ref access x l == Ty.ref access y k) = false)
    (hw : ∀ v, w.Below v ↔ x.Below v ∧ y.Below v) (v : Ty) :
    (Ty.ref access w none).Below v ↔
      (Ty.ref access x l).Below v ∧ (Ty.ref access y k).Below v := by
  cases v with
  | ref access' z m =>
    simp only [Below, hw z]
    constructor
    · rintro ⟨haccess, ⟨hx, hy⟩, hlifetime⟩
      obtain rfl : m = none := by
        rcases hlifetime with rfl | ⟨-, hkept⟩
        · rfl
        · rw [Lifetime.option_beq_iff] at hkept
          exact Option.map_eq_none_iff.1 hkept.symm
      exact ⟨⟨haccess, hx, .inl rfl⟩, haccess, hy, .inl rfl⟩
    · rintro ⟨⟨haccess, hx, hl⟩, -, hy, hk⟩
      refine ⟨haccess, ⟨hx, hy⟩, .inl ?_⟩
      rcases hl with rfl | ⟨hxz, hlm⟩
      · rfl
      · rcases hk with rfl | ⟨hyz, hkm⟩
        · rfl
        · -- both are what they were, so they are equal
          have hxy : (x == y) = true := BEq.trans hxz (BEq.symm hyz)
          have hlk : (l == k) = true := by
            rw [Lifetime.option_beq_iff] at hlm hkm ⊢
            exact hlm.trans hkm.symm
          have heq : same (.ref access x l) (.ref access y k) = true := by
            simp only [same, Bool.and_eq_true, beq_iff_eq]
            exact ⟨⟨trivial, hxy⟩, hlk⟩
          rw [beq_eq, heq] at hne
          cases hne
  | _ => simp only [Below, beq_eq, same, Bool.false_eq_true, and_self]

lemma Ty.below_param_iff (p q : Param) (v : Ty) :
    (Ty.param (p.older q)).Below v ↔ (Ty.param p).Below v ∧ (Ty.param q).Below v := by
  cases v <;> simp only [Below, beq_eq, same, Bool.false_eq_true, and_self]
  unfold Param.older
  split <;> omega

/-- References are merged by what they point to. -/
lemma Ty.findsLeast_ref {access : Access} {x y : Ty} {l k : Option Lifetime}
    (hne : (Ty.ref access x l == Ty.ref access y k) = false)
    (h : FindsLeast (fun v => x.Below v ∧ y.Below v) (Ty.mostConcrete pure x y)) :
    FindsLeast (fun v => (Ty.ref access x l).Below v ∧ (Ty.ref access y k).Below v) (do
      let pointee ← Ty.mostConcrete pure x y
      return Ty.ref access pointee none) := by
  refine h.bind (fun hnone v => ?_) fun w hw => .pure ⟨hw.bare, Ty.below_ref_iff hne hw.below_iff⟩
  cases v with
  | ref access' z m =>
    rintro ⟨hx, hy⟩
    exact hnone z ⟨hx.2.1, hy.2.1⟩
  | _ => simp only [Below, beq_eq, same, Bool.false_eq_true, and_self, not_false_iff]

mutual

/-- The more concrete of two types is the least that is above both. -/
lemma Ty.findsLeast_mostConcrete {a b : Ty} (ha : a.isBare = true) (hb : b.isBare = true) :
    FindsLeast (fun v => a.Below v ∧ b.Below v) (Ty.mostConcrete pure a b) := by
  rw [Ty.mostConcrete.eq_def]
  split
  case isTrue heq =>
    refine .pure ⟨ha, fun v => ⟨fun h => ⟨h, ?_⟩, And.left⟩⟩
    exact (Below.of_beq (BEq.symm heq)).trans h
  case isFalse hne =>
    split
    case h_1 => exact .pure ⟨hb, fun v => ⟨fun h => ⟨trivial, h⟩, And.right⟩⟩
    case h_2 => exact .pure ⟨ha, fun v => ⟨fun h => ⟨h, trivial⟩, And.left⟩⟩
    case h_3 | h_5 | h_6 | h_11 => cases ha
    case h_4 | h_7 | h_13 => cases hb
    case h_8 xs ys =>
      rw [isBare] at ha hb
      split
      case isTrue hlength =>
        refine (Ty.decides_mostConcreteEach ha hb hlength).bind (fun hnone v => ?_)
          fun ts hts => .pure ⟨hts.1, fun v => ?_⟩
        · cases v <;> simp only [Below, beq_eq, same, Bool.false_eq_true, and_self, not_false_iff]
          exact hnone _
        · cases v <;> simp only [Below, beq_eq, same, Bool.false_eq_true, and_self]
          exact hts.2 _
      case isFalse hlength =>
        refine .failWith _ fun v => ?_
        cases v <;> simp only [Below, beq_eq, same, Bool.false_eq_true, and_self, not_false_iff]
        rintro ⟨hxs, hys⟩
        exact hlength (hxs.length_eq.trans hys.length_eq.symm)
    case h_9 | h_10 =>
      exact Ty.findsLeast_ref (by simpa using hne) (Ty.findsLeast_mostConcrete ha hb)
    case h_12 p q => exact .pure ⟨rfl, Ty.below_param_iff p q⟩
    case h_14 hinfer hstr hpath hdyn hinfer' _ _ _ _ htuples hshared hmutable hparams =>
      have hrefs : ∀ access x l y k, a = .ref access x l → b = .ref access y k → False := by
        rintro (_ | _)
        · exact hshared
        · exact hmutable
      refine .failWith _ fun v => ?_
      by_cases hform : a.ctorIdx = b.ctorIdx
      · rintro ⟨hav, hbv⟩
        cases a <;> cases b <;> try (cases hform; done)
        case infer.infer => exact hinfer rfl
        case str.str => exact hstr rfl
        case tuple.tuple => exact htuples _ _ rfl rfl
        case ref.ref =>
          cases v <;> simp only [Below, beq_eq, same, Bool.false_eq_true] at hav hbv
          obtain rfl := hav.1.trans hbv.1.symm
          exact hrefs _ _ _ _ _ rfl rfl
        case deref.deref => exact hne (BEq.trans (α := Ty) hav (BEq.symm (α := Ty) hbv))
        case dyn.dyn => exact hdyn _ rfl
        case data.data => exact hne (BEq.trans (α := Ty) hav (BEq.symm (α := Ty) hbv))
        case path.path => exact hpath _ rfl
        case param.param => exact hparams _ _ rfl rfl
      · exact not_below_both hinfer hinfer' hform v
termination_by sizeOf a

lemma Ty.decides_mostConcreteEach {xs ys : List Ty} (hxs : isBareEach xs = true)
    (hys : isBareEach ys = true) (hlength : xs.length = ys.length) :
    Decides (fun ts => isBareEach ts = true ∧
        ∀ vs, BelowEach ts vs ↔ BelowEach xs vs ∧ BelowEach ys vs)
      (∀ vs, ¬ (BelowEach xs vs ∧ BelowEach ys vs)) (Ty.mostConcreteEach pure xs ys) := by
  cases xs with
  | nil =>
    cases ys with
    | nil => exact .pure ⟨rfl, fun vs => (and_self_iff).symm⟩
    | cons y ys => cases hlength
  | cons x xs =>
    cases ys with
    | nil => cases hlength
    | cons y ys =>
      rw [isBareEach, Bool.and_eq_true] at hxs hys
      rw [Ty.mostConcreteEach]
      refine (Ty.findsLeast_mostConcrete hxs.1 hys.1).bind (fun hnone vs => ?_) fun t ht => ?_
      · rintro ⟨hxvs, hyvs⟩
        cases vs with
        | nil => cases hxvs
        | cons v vs => exact hnone v ⟨hxvs.1, hyvs.1⟩
      · refine (Ty.decides_mostConcreteEach hxs.2 hys.2 (Nat.succ.inj hlength)).bind
          (fun hnone vs => ?_) fun ts hts => .pure ⟨?_, fun vs => ?_⟩
        · rintro ⟨hxvs, hyvs⟩
          cases vs with
          | nil => cases hxvs
          | cons v vs => exact hnone vs ⟨hxvs.2, hyvs.2⟩
        · rw [isBareEach, ht.bare, hts.1]
          rfl
        · cases vs with
          | nil => simp only [BelowEach, and_self]
          | cons v vs =>
            simp only [BelowEach, ht.below_iff v, hts.2 vs]
            exact and_and_and_comm
termination_by sizeOf xs

end

/-- Folding bare types from the first of them on finds the least type above them all. -/
lemma Ty.findsLeast_foldlM {t : Ty} {ts : List Ty} (h : ∀ u ∈ t :: ts, u.isBare = true) :
    FindsLeast (fun v => ∀ u ∈ t :: ts, u.Below v) (ts.foldlM (Ty.mostConcrete pure) t) := by
  induction ts generalizing t with
  | nil =>
    refine .pure ⟨h t List.mem_cons_self, fun v => ?_⟩
    rw [List.forall_mem_singleton]
  | cons x xs ih =>
    obtain ⟨ht, hrest⟩ := List.forall_mem_cons.1 h
    obtain ⟨hx, hxs⟩ := List.forall_mem_cons.1 hrest
    rw [List.foldlM_cons]
    refine (Ty.findsLeast_mostConcrete ht hx).bind (fun hnone v hv => ?_) fun w hw => ?_
    · have hboth : ∀ u ∈ t :: x :: xs, u.Below v := hv
      rw [List.forall_mem_cons, List.forall_mem_cons] at hboth
      exact hnone v ⟨hboth.1, hboth.2.1⟩
    · -- what is above the first two is above the first alone
      have habove : ∀ v, (∀ u ∈ w :: xs, u.Below v) ↔ ∀ u ∈ t :: x :: xs, u.Below v := by
        intro v
        rw [List.forall_mem_cons, List.forall_mem_cons, List.forall_mem_cons, hw.below_iff,
          and_assoc]
      have hfold := ih (List.forall_mem_cons.2 ⟨hw.bare, hxs⟩)
      simpa only [habove] using hfold

end

namespace Resolver

/-- In a store without sets, a fold over types without paths, trait objects and string types does
not depend on their order: whatever the resolvers, it fails in any order or in none, and all results
are equal. -/
theorem foldlM_pair_perm {store : Store} (hstore : ∀ t, store.setOf t = none) {t u : Ty}
    {ts us : List Ty} (hperm : (t :: ts).Perm (u :: us))
    (hbare : ∀ w ∈ t :: ts, w.isBare = true) (ρ ρ' : Resolver) :
    (∃ v w, ts.foldlM (pair store) t ρ = (.ok v, ρ) ∧ us.foldlM (pair store) u ρ' = (.ok w, ρ') ∧
        (v == w) = true) ∨
      ∃ fault fault', ts.foldlM (pair store) t ρ = (.error fault, ρ) ∧
        us.foldlM (pair store) u ρ' = (.error fault', ρ') := by
  have hpair : pair store = Ty.mostConcrete pure := by
    have hconcrete : concrete store = pure := by
      funext x
      rw [concrete, concreteBy, hstore x]
    unfold pair
    rw [hconcrete]
  have habove : ∀ v, (∀ w ∈ u :: us, w.Below v) ↔ ∀ w ∈ t :: ts, w.Below v := by
    intro v
    simp only [hperm.mem_iff]
  have hbare' : ∀ w ∈ u :: us, w.isBare = true := by
    intro w hw
    exact hbare w (hperm.mem_iff.2 hw)
  have hfold := Ty.findsLeast_foldlM hbare
  have hfold' := Ty.findsLeast_foldlM hbare'
  simp only [habove] at hfold'
  rw [hpair]
  rcases hfold ρ with ⟨v, hv, hleast⟩ | ⟨fault, hfault, hnone⟩ <;>
    rcases hfold' ρ' with ⟨w, hw, hleast'⟩ | ⟨fault', hfault', hnone'⟩
  · exact .inl ⟨v, w, hv, hw, hleast.beq hleast'⟩
  · exact absurd hleast.self (hnone' v)
  · exact absurd hleast'.self (hnone w)
  · exact .inr ⟨fault, fault', hfault, hfault'⟩

/-- A lifetime that a reference loses on its way comes back in no order. -/
theorem foldlM_pair_perm_references :
    let store : Store := .empty .union
    let p : Ty := .ref .shared (.param ⟨0, "P"⟩) (some ⟨2, "a"⟩)
    let q : Ty := .ref .shared (.param ⟨1, "Q"⟩) (some ⟨2, "a"⟩)
    (∀ t, store.setOf t = none) ∧ [p, q, p].Perm [p, p, q] ∧ (∀ w ∈ [p, q, p], w.isBare = true) ∧
      ∃ v w, [q, p].foldlM (pair store) p ∅ = (.ok v, ∅) ∧
        [p, q].foldlM (pair store) p ∅ = (.ok w, ∅) ∧ (v == w) = true := by
  intro store p q
  have hstore : ∀ t, store.setOf t = none := fun _ => rfl
  have hperm : [p, q, p].Perm [p, p, q] := .cons p (.swap p q [])
  have hbare : ∀ w ∈ [p, q, p], w.isBare = true := by
    simp only [List.forall_mem_cons]
    exact ⟨rfl, rfl, rfl, List.forall_mem_nil _⟩
  have hrun : ([q, p].foldlM (pair store) p ∅).1 = .ok (.ref .shared (.param ⟨0, "P"⟩) none) := by
    cbv
  rcases foldlM_pair_perm hstore hperm hbare ∅ ∅ with hok | ⟨fault, _, hfault, -⟩
  · exact ⟨hstore, hperm, hbare, hok⟩
  · rw [hfault] at hrun
    cases hrun

end Resolver

end WhereClause
