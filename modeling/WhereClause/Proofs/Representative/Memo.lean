import Mathlib.Data.Int.Notation
import WhereClause.Proofs.Representative.Standing

/-!
# What a memo may say

A representative stands for its set: all members yield to it, and unless it is solid it is a member
itself.  `Resolver.Faithful` is the invariant that everything remembered does so.  `Resolver.Later`
relates the resolver before a computation to the one after: what was remembered stays, nothing is
left half done, and a faithful resolver is faithful still.

The invariant has to hold in the middle of a fold, with placeholders in the memo.  A member of the
set that is being folded is then its own most concrete form, which is why the result of the fold is
a member where it is not solid.
-/

namespace WhereClause

open Resolving

/-- What makes a type a representative of a set. -/
structure Ty.StandsFor (t : Ty) (ms : List Ty) : Prop where
  yields : ∀ u, ms.contains u = true → u.YieldsTo t
  member : t.isSolid = false → ms.contains t = true
  solid : t.isSolid = true → ∃ u ∈ ms, u.isSolid = true
  /-- A parameter stands for no older ones. -/
  oldest : ∀ p, t = .param p → ∀ q, ms.contains (.param q) = true → p.number ≤ q.number

/-- All members yield to what a fold comes to.  If none is solid, it is one of them, and of
parameters the oldest. -/
lemma Ty.StandsFor.of_fold {t : Ty} {ms : List Ty} (hyields : ∀ u ∈ ms, u.YieldsTo t)
    (htaken : (∀ u ∈ ms, u.isSolid = false) →
      t ∈ ms ∧ ∀ p q, t = .param p → .param q ∈ ms → p.number ≤ q.number) :
    t.StandsFor ms where
  yields u hu := by
    obtain ⟨x, hx, hux⟩ := List.contains_iff_exists_mem_beq.1 hu
    exact (Ty.YieldsTo.of_beq hux).trans (hyields x hx)
  member ht := by
    obtain ⟨hin, -⟩ := htaken fun u hu => (hyields u hu).vague ht
    exact List.contains_iff_exists_mem_beq.2 ⟨t, hin, BEq.rfl⟩
  solid ht := by
    by_contra hnone
    have hall : ∀ u ∈ ms, u.isSolid = false := by
      intro u hu
      by_contra hsolid
      exact hnone ⟨u, hu, by simpa using hsolid⟩
    rw [hall t (htaken hall).1] at ht
    cases ht
  oldest p hp q hq := by
    have hvague : t.isSolid = false := by rw [hp]; rfl
    obtain ⟨-, holdest⟩ := htaken fun u hu => (hyields u hu).vague hvague
    obtain ⟨x, hx, hqx⟩ := List.contains_iff_exists_mem_beq.1 hq
    obtain ⟨q', rfl⟩ := Ty.exists_param_of_beq (BEq.symm hqx)
    exact Int.le_trans (holdest p q' hp hx) (Int.le_of_eq (Param.beq_ty_iff.1 hqx).symm)

namespace Resolver

/-- Everything that is remembered of a set stands for it. -/
def Faithful (store : Store) (ρ : Resolver) : Prop :=
  ∀ (r : ℕ) (t : Ty), ρ.memo.get? (r : ℤ) = some (some t) →
    r < store.sets.length ∧ t.StandsFor (store.members r)

/-- What computations that return do to a resolver, whatever the store: what was remembered stays,
and nothing is left half done. -/
structure Onward (ρ ρ' : Resolver) : Prop where
  kept : ∀ i v, ρ.memo.get? i = some v → ρ'.memo.get? i = some v
  fresh : ∀ i, ρ'.memo.get? i = some none → ρ.memo.get? i = some none
  settling : ρ'.settling = ρ.settling

instance : Std.Refl Onward := ⟨fun _ => ⟨fun _ _ h => h, fun _ h => h, rfl⟩⟩

instance : Trans Onward Onward Onward where
  trans h h' := ⟨fun i v hv => h'.kept i v (h.kept i v hv), fun i hi => h.fresh i (h'.fresh i hi),
    h'.settling.trans h.settling⟩

/-- What computations that return do to a resolver. -/
structure Later (store : Store) (ρ ρ' : Resolver) : Prop where
  kept : ∀ i v, ρ.memo.get? i = some v → ρ'.memo.get? i = some v
  fresh : ∀ i, ρ'.memo.get? i = some none → ρ.memo.get? i = some none
  settling : ρ'.settling = ρ.settling
  faithful : Faithful store ρ → Faithful store ρ'

variable {store : Store}

lemma Later.onward {ρ ρ' : Resolver} (h : Later store ρ ρ') : Onward ρ ρ' :=
  ⟨h.kept, h.fresh, h.settling⟩

instance : Std.Refl (Later store) := ⟨fun _ => ⟨fun _ _ h => h, fun _ h => h, rfl, id⟩⟩

instance : Trans (Later store) (Later store) (Later store) where
  trans h h' := ⟨fun i v hv => h'.kept i v (h.kept i v hv), fun i hi => h.fresh i (h'.fresh i hi),
    h'.settling.trans h.settling, h'.faithful ∘ h.faithful⟩

lemma get?_remember (ρ : Resolver) (i j : ℤ) (v : Option Ty) :
    (ρ.remember i v).memo.get? j = if i == j then some v else ρ.memo.get? j :=
  Table.get?_insert _ _ _ _

lemma get?_remember_self (ρ : Resolver) (i : ℤ) (v : Option Ty) :
    (ρ.remember i v).memo.get? i = some v := by
  rw [get?_remember, if_pos BEq.rfl]

lemma get?_remember_of_ne {i j : ℤ} (h : i ≠ j) (ρ : Resolver) (v : Option Ty) :
    (ρ.remember i v).memo.get? j = ρ.memo.get? j := by
  rw [get?_remember, if_neg (by simpa using h)]

/-! ## One fold -/

/-- The most concrete form of a type where a fold at some depth asks for it. -/
abbrev concreteWithin (store : Store) (depth : ℕ) (t : Ty) : Resolving Ty :=
  concreteBy store (resolveWithin store depth) t

/-- The fold of a set, once the placeholder is in the memo. -/
abbrev foldWithin (store : Store) (depth : ℕ) (position : ℤ) : Resolving (Option Ty) :=
  foldBy store (resolveWithin store depth) position

/-- A set that was asked for before is not folded. -/
lemma resolveWithin_of_asked {ρ : Resolver} {position : ℤ} {known : Option Ty}
    (h : ρ.memo.get? position = some known) (depth : ℕ) :
    resolveWithin store depth position ρ = (.ok known, ρ) := by
  rw [resolveWithin, resolveNoting.eq_def, run_get_bind, h]
  rfl

/-- A set that was not asked for is folded, with a placeholder in the memo. -/
lemma resolveWithin_of_unasked {ρ : Resolver} {position : ℤ} (h : ρ.memo.get? position = none)
    (depth : ℕ) :
    resolveWithin store (depth + 1) position ρ =
      foldWithin store depth position (ρ.remember position none) := by
  rw [resolveWithin, resolveNoting.eq_def, run_get_bind, h]
  rfl

lemma resolveWithin_zero_of_unasked {ρ : Resolver} {position : ℤ}
    (h : ρ.memo.get? position = none) :
    resolveWithin store 0 position ρ = (.error (.unresolved position.toNat), ρ) := by
  rw [resolveWithin, resolveNoting.eq_def, run_get_bind, h]
  rfl

/-- What a fold comes to is answered and remembered. -/
lemma resolveWithin_of_fold {depth : ℕ} {position : ℤ} {ρ ρ₁ : Resolver} {t w : Ty} {ts : List Ty}
    (hmemo : ρ.memo.get? position = none) (hmembers : store.members? position = some (t :: ts))
    (hfold : ts.foldlM (Ty.mostConcrete (concreteWithin store depth)) t
      (ρ.remember position none) = (.ok w, ρ₁)) :
    resolveWithin store (depth + 1) position ρ =
      (.ok (some w), ρ₁.remember position (some w)) := by
  rw [resolveWithin_of_unasked hmemo, foldWithin, foldBy, hmembers]
  exact run_bind_of_ok hfold _

/-- A position that was asked for is in the memo, or the members of the set there are folded while a
placeholder is in the memo. -/
lemma resolveWithin_returns {depth : ℕ} {position : ℤ} {ρ ρ' : Resolver} {o : Option Ty}
    (h : resolveWithin store depth position ρ = (.ok o, ρ')) :
    (ρ.memo.get? position = some o ∧ ρ' = ρ) ∨
      ∃ d t ts w ρ₁, ρ.memo.get? position = none ∧ depth = d + 1 ∧
        store.members? position = some (t :: ts) ∧
        ts.foldlM (Ty.mostConcrete (concreteWithin store d)) t (ρ.remember position none) =
          (.ok w, ρ₁) ∧
        o = some w ∧ ρ' = ρ₁.remember position (some w) := by
  rcases hmemo : ρ.memo.get? position with _ | known
  · rcases depth with _ | d
    · rw [resolveWithin_zero_of_unasked hmemo] at h
      cases congrArg Prod.fst h
    · rw [resolveWithin_of_unasked hmemo, foldWithin, foldBy] at h
      rcases hmembers : store.members? position with _ | _ | ⟨t, ts⟩
      · rw [hmembers] at h
        cases congrArg Prod.fst h
      · rw [hmembers] at h
        cases congrArg Prod.fst h
      · rw [hmembers] at h
        obtain ⟨w, ρ₁, hfold, hrest⟩ := bind_eq_ok_iff.1 h
        rw [run_modify_bind] at hrest
        obtain ⟨rfl, rfl⟩ := pure_eq_ok_iff.1 hrest
        exact .inr ⟨d, t, ts, w, ρ₁, rfl, rfl, rfl, hfold, rfl, rfl⟩
  · rw [resolveWithin_of_asked hmemo] at h
    obtain ⟨ho, rfl⟩ := Prod.mk.inj h
    exact .inl ⟨congrArg some (Except.ok.inj ho), rfl⟩

/-- To keep a relation, questions have to keep it where they fold a set, and may take for granted
that the questions on the way do. -/
lemma keeps_of_folds {R : Resolver → Resolver → Prop} [Std.Refl R]
    (hfolds : ∀ depth, (∀ position, Keeps R (resolveWithin store depth position)) →
      ∀ {position ρ t ts w ρ₁}, ρ.memo.get? position = none →
        store.members? position = some (t :: ts) →
        ts.foldlM (Ty.mostConcrete (concreteWithin store depth)) t (ρ.remember position none) =
          (.ok w, ρ₁) →
        R ρ (ρ₁.remember position (some w)))
    (depth : ℕ) (position : ℤ) : Keeps R (resolveWithin store depth position) := by
  induction depth generalizing position with
  | zero =>
    intro ρ o ρ' hrun
    rcases resolveWithin_returns hrun with ⟨-, rfl⟩ | ⟨_, _, _, _, _, -, h0, -⟩
    · exact Std.Refl.refl _
    · cases h0
  | succ depth ih =>
    intro ρ o ρ' hrun
    rcases resolveWithin_returns hrun with
      ⟨-, rfl⟩ | ⟨d, t, ts, w, ρ₁, hnone, hd, hmembers, hfold, -, rfl⟩
    · exact Std.Refl.refl _
    · obtain rfl : depth = d := Nat.succ.inj hd
      exact hfolds depth ih hnone hmembers hfold

/-- What is known of questions at some depth: the memo may only grow, by the answer at least. -/
def Answers (store : Store) (depth : ℕ) : Prop :=
  ∀ ⦃position ρ o ρ'⦄, resolveWithin store depth position ρ = (.ok o, ρ') →
    Later store ρ ρ' ∧ ∀ w, o = some w → ρ'.memo.get? position = some (some w)

section

variable {depth : ℕ} {ρ ρ' : Resolver}

lemma concreteWithin_returns {x w : Ty}
    (h : concreteWithin store depth x ρ = (.ok w, ρ')) :
    (store.setOf x = none ∧ w = x ∧ ρ' = ρ) ∨ ∃ r o, store.setOf x = some r ∧
      resolveWithin store depth r ρ = (.ok o, ρ') ∧ w = o.getD x := by
  rw [concreteWithin, concreteBy] at h
  rcases hx : store.setOf x with _ | r
  · rw [hx] at h
    obtain ⟨rfl, rfl⟩ := pure_eq_ok_iff.1 h
    exact .inl ⟨rfl, rfl, rfl⟩
  · rw [hx] at h
    obtain ⟨o, ρ₁, ho, hrest⟩ := bind_eq_ok_iff.1 h
    obtain ⟨rfl, rfl⟩ := pure_eq_ok_iff.1 hrest
    exact .inr ⟨r, o, rfl, ho, rfl⟩

lemma keeps_concreteWithin {R : Resolver → Resolver → Prop} [Std.Refl R]
    (h : ∀ position, Keeps R (resolveWithin store depth position)) (x : Ty) :
    Keeps R (concreteWithin store depth x) := by
  intro ρ w ρ' hrun
  rcases concreteWithin_returns hrun with ⟨-, -, rfl⟩ | ⟨r, o, -, ho, -⟩
  · exact Std.Refl.refl _
  · exact h r ho

lemma Answers.keeps_concreteWithin (h : Answers store depth) (x : Ty) :
    Keeps (Later store) (concreteWithin store depth x) :=
  Resolver.keeps_concreteWithin (fun _ _ _ _ hrun => (h hrun).1) x

/-- In a faithful resolver every type yields to its most concrete form. -/
lemma Answers.makesConcrete (h : Answers store depth) (hcoherent : store.Coherent)
    (hρ : Faithful store ρ) : MakesConcrete (concreteWithin store depth) ρ := by
  intro x w ρ' hrun
  rcases concreteWithin_returns hrun with ⟨-, rfl, -⟩ | ⟨r, _ | t, hx, ho, hw⟩
  · exact .refl _
  · obtain rfl : w = x := hw
    exact .refl _
  · obtain rfl : w = t := hw
    obtain ⟨hlater, hmemo⟩ := h ho
    obtain ⟨-, hstands⟩ := hlater.faithful hρ r w (hmemo w rfl)
    exact hstands.yields x (hcoherent.contains_members hx)

/-- While a set is folded, its members are their own most concrete forms. -/
lemma eq_of_concreteWithin {r : ℕ} (hfold : ρ.memo.get? (r : ℤ) = some none) {x w : Ty}
    (hx : store.setOf x = some r) (h : concreteWithin store depth x ρ = (.ok w, ρ')) : w = x := by
  rcases concreteWithin_returns h with ⟨hnone, -, -⟩ | ⟨q, o, hq, ho, rfl⟩
  · rw [hx] at hnone
    cases hnone
  · obtain rfl : r = q := Option.some.inj (hx.symm.trans hq)
    rcases resolveWithin_returns ho with ⟨hmemo, -⟩ | ⟨_, _, _, _, _, hmemo, -⟩
    · obtain rfl : none = o := Option.some.inj (hfold.symm.trans hmemo)
      rfl
    · rw [hfold] at hmemo
      cases hmemo

/-- The fold over members of a set goes from one type that all so far yield to to the next.  Where
none is solid, one of them is taken, and of parameters the oldest. -/
lemma Answers.foldlM_returns (h : Answers store depth) (hcoherent : store.Coherent) {r : ℕ}
    (ts : List Ty) {acc w : Ty} (hρ : Faithful store ρ) (hfold : ρ.memo.get? (r : ℤ) = some none)
    (hts : ∀ t ∈ ts, store.setOf t = some r)
    (hacc : acc.isSolid = false → store.setOf acc = some r)
    (hrun : ts.foldlM (Ty.mostConcrete (concreteWithin store depth)) acc ρ = (.ok w, ρ')) :
    (∀ t ∈ acc :: ts, t.YieldsTo w) ∧ ((∀ t ∈ acc :: ts, t.isSolid = false) →
      w ∈ acc :: ts ∧ ∀ p q, w = .param p → .param q ∈ acc :: ts → p.number ≤ q.number) := by
  induction ts generalizing acc ρ with
  | nil =>
    obtain ⟨rfl, rfl⟩ := pure_eq_ok_iff.1 hrun
    refine ⟨List.forall_mem_singleton.2 (.refl _), fun _ => ⟨List.mem_singleton_self _, ?_⟩⟩
    rintro p q rfl hq
    obtain rfl := Ty.param.inj (List.mem_singleton.1 hq)
    exact Int.le_refl _
  | cons t ts ih =>
    rw [List.foldlM_cons] at hrun
    obtain ⟨acc', ρ₁, hpair, hrest⟩ := bind_eq_ok_iff.1 hrun
    have hmakes := h.makesConcrete hcoherent hρ
    have hlater : Later store ρ ρ₁ :=
      Ty.keeps_mostConcrete (fun x => h.keeps_concreteWithin x) acc t hpair
    obtain ⟨hacc', ht⟩ := Ty.yieldsTo_mostConcrete hmakes hpair
    obtain ⟨ht', hts'⟩ := List.forall_mem_cons.1 hts
    -- what is not solid is not lost, since members are their own most concrete forms
    have hvague : acc.isSolid = false → t.isSolid = false → (acc' = acc ∨ acc' = t) ∧
        ∀ p q, acc' = .param p → (acc = .param q ∨ t = .param q) → p.number ≤ q.number := by
      intro hacc_vague ht_vague
      exact Ty.vague_mostConcrete hacc_vague ht_vague
        (fun hc => eq_of_concreteWithin hfold (hacc hacc_vague) hc)
        (fun hc => eq_of_concreteWithin hfold ht' hc) hpair
    have hkept : acc'.isSolid = false → store.setOf acc' = some r := by
      intro hacc_vague
      have hvagues : acc.isSolid = false ∧ t.isSolid = false := by
        constructor
        · exact hacc'.vague hacc_vague
        · exact ht.vague hacc_vague
      rcases (hvague hvagues.1 hvagues.2).1 with rfl | rfl
      · exact hacc hvagues.1
      · exact ht'
    obtain ⟨hyields, htaken⟩ := ih (hlater.faithful hρ) (hlater.kept _ _ hfold) hts' hkept hrest
    obtain ⟨hw, hws⟩ := List.forall_mem_cons.1 hyields
    refine ⟨List.forall_mem_cons.2 ⟨hacc'.trans hw, List.forall_mem_cons.2 ⟨ht.trans hw, hws⟩⟩,
      fun hall => ?_⟩
    obtain ⟨hacc_vague, hall⟩ := List.forall_mem_cons.1 hall
    obtain ⟨ht_vague, hts_vague⟩ := List.forall_mem_cons.1 hall
    obtain ⟨hone, hle⟩ := hvague hacc_vague ht_vague
    have hone_vague : acc'.isSolid = false := by
      rcases hone with rfl | rfl
      · exact hacc_vague
      · exact ht_vague
    obtain ⟨hin, holdest⟩ := htaken (List.forall_mem_cons.2 ⟨hone_vague, hts_vague⟩)
    constructor
    · rcases List.mem_cons.1 hin with rfl | hin
      · rcases hone with rfl | rfl
        · exact List.mem_cons_self
        · exact List.mem_cons_of_mem _ List.mem_cons_self
      · exact List.mem_cons_of_mem _ (List.mem_cons_of_mem _ hin)
    · -- an older one among the first two is accounted for by the next type
      have hfirst : ∀ p q, w = .param p → (acc = .param q ∨ t = .param q) →
          p.number ≤ q.number := by
        intro p q hp hq
        have hyields : (Ty.param q).YieldsTo acc' := by
          rcases hq with rfl | rfl
          · exact hacc'
          · exact ht
        obtain ⟨o, rfl⟩ := hyields.exists_param hone_vague
        exact Int.le_trans (holdest p o hp List.mem_cons_self) (hle o q rfl hq)
      intro p q hp hq
      rcases List.mem_cons.1 hq with hq | hq
      · exact hfirst p q hp (.inl hq.symm)
      · rcases List.mem_cons.1 hq with hq | hq
        · exact hfirst p q hp (.inr hq.symm)
        · exact holdest p q hp (List.mem_cons_of_mem _ hq)

lemma Faithful.remember_none {ρ : Resolver} (h : Faithful store ρ) (position : ℤ) :
    Faithful store (ρ.remember position none) := by
  intro r t ht
  rw [get?_remember] at ht
  split_ifs at ht
  · cases ht
  · exact h r t ht

/-- A finished fold leaves a resolver behind that differs by what was remembered meanwhile. -/
lemma Onward.of_fold {position : ℤ} {ρ ρ₁ : Resolver} {w : Ty}
    (hposition : ρ.memo.get? position = none) (h : Onward (ρ.remember position none) ρ₁) :
    Onward ρ (ρ₁.remember position (some w)) where
  kept i v hv := by
    have hne : position ≠ i := by
      rintro rfl
      rw [hposition] at hv
      cases hv
    rw [get?_remember_of_ne hne]
    exact h.kept i v (by rwa [get?_remember_of_ne hne])
  fresh i hi := by
    have hne : position ≠ i := by
      rintro rfl
      rw [get?_remember_self] at hi
      cases hi
    rw [get?_remember_of_ne hne] at hi
    have hbefore := h.fresh i hi
    rwa [get?_remember_of_ne hne] at hbefore
  settling := h.settling

/-- If the result of a finished fold stands for the set, the resolver is as faithful as before. -/
lemma Later.of_fold {position : ℤ} {ρ ρ₁ : Resolver} {w : Ty}
    (hposition : ρ.memo.get? position = none) (h : Later store (ρ.remember position none) ρ₁)
    (hw : ∀ r : ℕ, position = r → Faithful store ρ →
      r < store.sets.length ∧ w.StandsFor (store.members r)) :
    Later store ρ (ρ₁.remember position (some w)) where
  kept := (Onward.of_fold hposition h.onward).kept
  fresh := (Onward.of_fold hposition h.onward).fresh
  settling := h.settling
  faithful hρ := by
    have hstart := hρ.remember_none position
    intro r t ht
    by_cases hr : position = r
    · rw [hr, get?_remember_self] at ht
      obtain rfl : w = t := by simpa using ht
      exact hw r hr hρ
    · rw [get?_remember_of_ne hr] at ht
      exact h.faithful hstart r t ht

/-- Whatever the store, a question that is answered leaves no fold broken off. -/
lemma keeps_resolveWithin (depth : ℕ) (position : ℤ) :
    Keeps Onward (resolveWithin store depth position) := by
  apply keeps_of_folds
  intro depth ih position ρ t ts w ρ₁ hnone _ hfold
  have honward : Onward (ρ.remember position none) ρ₁ :=
    Keeps.foldlM (fun acc x => Ty.keeps_mostConcrete (keeps_concreteWithin ih) acc x) ts t hfold
  exact .of_fold hnone honward

/-- An answer is remembered. -/
lemma get?_of_resolveWithin {position : ℤ} {w : Ty}
    (h : resolveWithin store depth position ρ = (.ok (some w), ρ')) :
    ρ'.memo.get? position = some (some w) := by
  rcases resolveWithin_returns h with ⟨hmemo, rfl⟩ | ⟨_, _, _, w', _, -, -, -, -, hw, rfl⟩
  · exact hmemo
  · rw [get?_remember_self, hw]

/-- A question that is answered leaves the resolver as faithful as it was. -/
lemma keeps_later (hcoherent : store.Coherent) (depth : ℕ) (position : ℤ) :
    Keeps (Later store) (resolveWithin store depth position) := by
  apply keeps_of_folds
  intro depth ih position ρ t ts w ρ₁ hnone hmembers hfold
  have hanswers : Answers store depth := by
    intro position ρ o ρ' hrun
    exact ⟨ih position hrun, fun w hw => get?_of_resolveWithin (hw ▸ hrun)⟩
  have hlater : Later store (ρ.remember position none) ρ₁ :=
    Keeps.foldlM (fun acc x => Ty.keeps_mostConcrete (keeps_concreteWithin ih) acc x) ts t hfold
  refine .of_fold hnone hlater ?_
  rintro r rfl hρ
  obtain ⟨hlt, hmembers'⟩ := Store.members_of_members? hmembers
  have hin : ∀ u ∈ t :: ts, store.setOf u = some r := by
    intro u hu
    rw [← hmembers'] at hu
    exact hcoherent.setOf_of_mem hu
  have hstands := hanswers.foldlM_returns hcoherent ts (hρ.remember_none r)
    (get?_remember_self ρ r none) (fun u hu => hin u (List.mem_cons_of_mem t hu))
    (fun _ => hin t List.mem_cons_self) hfold
  rw [← hmembers'] at hstands
  exact ⟨hlt, .of_fold hstands.1 hstands.2⟩

/-- Whatever the depth, what is remembered stands for its set. -/
lemma answers (hcoherent : store.Coherent) (depth : ℕ) : Answers store depth := by
  intro position ρ o ρ' hrun
  exact ⟨keeps_later hcoherent depth position hrun, fun w hw => get?_of_resolveWithin (hw ▸ hrun)⟩

end

end Resolver

end WhereClause
