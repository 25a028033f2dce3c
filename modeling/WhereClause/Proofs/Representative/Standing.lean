import WhereClause.Proofs.Equality.Operations
import WhereClause.Proofs.Representative.Runs

/-!
# What a representative may be

A fold makes types more concrete, and of what it does to them three things matter.  A type that
leads to a string or a path through references still does; a type that leads to a parameter either
still does, through as many references, or leads to a string or a path; and a type that says
something of its own does not become a placeholder, a parameter or a trait object.
`Ty.YieldsTo` says that one type may become another in this way.

A representative stands for a set if all members yield to it, and if it is a member itself unless
it is solid.  `Resolver.Faithful` is the invariant of the memo: everything remembered stands for its
set.  It is kept by whatever a resolver is asked and answers, and survives questions that have yet
to be answered, whose placeholders are found in the memo meanwhile (`Resolver.Later`).
-/

namespace WhereClause

/-! ## Shapes of types -/

namespace Ty

/-- What a type leads to through references. -/
def pointee : Ty → Ty
  | .ref _ t _ => pointee t
  | t => t

/-- How many references lead to the pointee. -/
def layers : Ty → ℕ
  | .ref _ t _ => layers t + 1
  | _ => 0

/-- The string type and paths have names of their own. -/
def isNamed : Ty → Bool
  | .str => true
  | .path _ => true
  | _ => false

/-- Whether a type is more than a placeholder, a trait object or a parameter. -/
def isSolid : Ty → Bool
  | .infer => false
  | .dyn _ => false
  | .param _ => false
  | _ => true

lemma pointee_congr : ∀ {t u : Ty}, (t == u) = true → (t.pointee == u.pointee) = true
  | .ref _ t _, u, h => by
    have h' : same _ u = true := h
    cases u <;> simp only [same, Bool.and_eq_true, Bool.false_eq_true] at h'
    have hinner := pointee_congr h'.1.2
    exact hinner
  | .infer, u, h | .str, u, h | .tuple _, u, h | .deref _, u, h | .dyn _, u, h | .data _ _ _, u, h
  | .path _, u, h | .param _, u, h => by
    have h' : same _ u = true := h
    cases u <;> first | exact h | simp [same] at h'

lemma layers_congr : ∀ {t u : Ty}, (t == u) = true → t.layers = u.layers
  | .ref _ t _, u, h => by
    have h' : same _ u = true := h
    cases u <;> simp only [same, Bool.and_eq_true, Bool.false_eq_true] at h'
    exact congrArg (· + 1) (layers_congr (t := t) h'.1.2)
  | .infer, u, h | .str, u, h | .tuple _, u, h | .deref _, u, h | .dyn _, u, h | .data _ _ _, u, h
  | .path _, u, h | .param _, u, h => by
    have h' : same _ u = true := h
    cases u <;> first | rfl | simp [same] at h'

lemma isNamed_congr {t u : Ty} (h : (t == u) = true) : t.isNamed = u.isNamed := by
  have h' : same t u = true := h
  cases t <;> cases u <;> first | rfl | simp [same] at h'

lemma isSolid_congr {t u : Ty} (h : (t == u) = true) : t.isSolid = u.isSolid := by
  have h' : same t u = true := h
  cases t <;> cases u <;> first | rfl | simp [same] at h'

lemma exists_param_of_beq {t : Ty} {p : Param} (h : (t == .param p) = true) :
    ∃ q, t = .param q := by
  have h' : same t (.param p) = true := h
  cases t <;> first | exact ⟨_, rfl⟩ | simp [same] at h'

end Ty

lemma Param.older_le (p q : Param) :
    (p.older q).number ≤ p.number ∧ (p.older q).number ≤ q.number := by
  unfold Param.older
  split_ifs with h
  · exact ⟨Int.le_of_lt h, Int.le_refl _⟩
  · exact ⟨Int.le_refl _, Int.not_lt.1 h⟩

/-! ## Types that yield to others -/

/-- What is kept of a type where another stands for it. -/
structure Ty.YieldsTo (u t : Ty) : Prop where
  named : u.pointee.isNamed = true → t.pointee.isNamed = true
  param : ∀ p, u.pointee = .param p →
    t.pointee.isNamed = true ∨ (∃ q, t.pointee = .param q) ∧ t.layers = u.layers
  solid : u.isSolid = true → t.isSolid = true

namespace Ty.YieldsTo

lemma refl (t : Ty) : t.YieldsTo t := ⟨id, fun p hp => .inr ⟨⟨p, hp⟩, rfl⟩, id⟩

lemma trans {t u v : Ty} (h : t.YieldsTo u) (h' : u.YieldsTo v) : t.YieldsTo v where
  named := h'.named ∘ h.named
  param p hp := by
    rcases h.param p hp with hnamed | ⟨⟨q, hq⟩, hlayers⟩
    · exact .inl (h'.named hnamed)
    · rw [← hlayers]
      exact h'.param q hq
  solid := h'.solid ∘ h.solid

lemma of_beq {t u : Ty} (h : (t == u) = true) : t.YieldsTo u where
  named ht := by rwa [← isNamed_congr (pointee_congr h)]
  param p hp := by
    have hpointee := pointee_congr h
    rw [hp] at hpointee
    exact .inr ⟨exists_param_of_beq (BEq.symm hpointee), (layers_congr h).symm⟩
  solid ht := by rwa [← isSolid_congr h]

/-- Everything yields to a path or the string type. -/
lemma of_isNamed {t : Ty} (u : Ty) (h : t.isNamed = true) : u.YieldsTo t := by
  have hpointee : t.pointee.isNamed = true := by cases t <;> first | exact h | cases h
  exact ⟨fun _ => hpointee, fun _ _ => .inl hpointee, fun _ => by cases t <;> first | rfl | cases h⟩

/-- A placeholder or a trait object yields to everything. -/
lemma of_vague {u : Ty} (t : Ty) (h : u = .infer ∨ ∃ bs, u = .dyn bs) : u.YieldsTo t := by
  rcases h with rfl | ⟨bs, rfl⟩ <;> exact ⟨nofun, nofun, nofun⟩

lemma ref {access access' : Access} {t u : Ty} {l l' : Option Lifetime} (h : u.YieldsTo t) :
    (Ty.ref access u l).YieldsTo (.ref access' t l') where
  named := h.named
  param p hp := (h.param p hp).imp id fun ⟨hq, hlayers⟩ => ⟨hq, congrArg (· + 1) hlayers⟩
  solid := id

lemma tuple (ts us : List Ty) : (Ty.tuple us).YieldsTo (.tuple ts) := ⟨nofun, nofun, id⟩

lemma vague {t u : Ty} (h : u.YieldsTo t) (ht : t.isSolid = false) : u.isSolid = false := by
  by_contra hu
  rw [h.solid (by simpa using hu)] at ht
  cases ht

/-- A parameter yields to what is not solid only if that is a parameter. -/
lemma exists_param {p : Param} {t : Ty} (h : (Ty.param p).YieldsTo t) (ht : t.isSolid = false) :
    ∃ q, t = .param q := by
  cases t with
  | param q => exact ⟨q, rfl⟩
  | infer | dyn _ => rcases h.param p rfl with hnamed | ⟨⟨q, hq⟩, -⟩ <;> contradiction
  | _ => cases ht

lemma param_param (p r : Param) : (Ty.param p).YieldsTo (.param r) :=
  ⟨nofun, fun _ _ => .inr ⟨⟨r, rfl⟩, rfl⟩, nofun⟩

end Ty.YieldsTo

section

open Resolving

variable {concrete : Ty → Resolving Ty} {ρ : Resolver}

/-- What is made concrete yields to the result. -/
def MakesConcrete (concrete : Ty → Resolving Ty) (ρ : Resolver) : Prop :=
  ∀ ⦃x w ρ'⦄, concrete x ρ = (.ok w, ρ') → x.YieldsTo w

/-- A path or the string type yields to the more concrete of two paths. -/
lemma Path.exists_isNamed_yieldsTo (hconcrete : MakesConcrete concrete ρ) {p q : Path} {w : Ty}
    {ρ' : Resolver} (h : Path.mostConcrete concrete p q ρ = (.ok w, ρ')) :
    ∃ t : Ty, t.isNamed = true ∧ t.YieldsTo w := by
  have houtcome := Path.outcome_mostConcrete concrete p q
  generalize Path.mostConcrete concrete p q = x at houtcome h
  cases houtcome with
  | @kept r _ =>
    obtain ⟨rfl, -⟩ := pure_eq_ok_iff.1 h
    exact ⟨.path r, rfl, .refl _⟩
  | @whole r _ => exact ⟨.path r, rfl, hconcrete h⟩
  | merged _ _ =>
    obtain ⟨args, ρ₁, -, hargs⟩ := bind_eq_ok_iff.1 h
    obtain ⟨rfl, -⟩ := pure_eq_ok_iff.1 hargs
    exact ⟨.path _, rfl, .refl _⟩
  | clash _ => cases congrArg Prod.fst h

/-- Two types yield to the more concrete of them. -/
lemma Ty.yieldsTo_mostConcrete (hconcrete : MakesConcrete concrete ρ) {a b w : Ty} {ρ' : Resolver}
    (h : Ty.mostConcrete concrete a b ρ = (.ok w, ρ')) : a.YieldsTo w ∧ b.YieldsTo w := by
  have houtcome := Ty.outcome_mostConcrete concrete a b
  generalize Ty.mostConcrete concrete a b = x at houtcome h
  cases houtcome with
  | equal hab => exact ⟨hconcrete h, .trans (.of_beq (BEq.symm hab)) (hconcrete h)⟩
  | first hwins =>
    refine ⟨hconcrete h, .trans (u := a) ?_ (hconcrete h)⟩
    rcases hwins with hb | hb | ⟨p, rfl⟩
    · exact .of_vague a (.inl hb)
    · exact .of_vague a (.inr hb)
    · exact .of_isNamed b rfl
  | second hwins =>
    refine ⟨.trans (u := b) ?_ (hconcrete h), hconcrete h⟩
    rcases hwins with ha | ha | ⟨p, rfl⟩
    · exact .of_vague b (.inl ha)
    · exact .of_vague b (.inr ha)
    · exact .of_isNamed a rfl
  | str _ =>
    obtain ⟨rfl, -⟩ := pure_eq_ok_iff.1 h
    exact ⟨.of_isNamed a rfl, .of_isNamed b rfl⟩
  | paths _ _ =>
    obtain ⟨t, ht, hw⟩ := Path.exists_isNamed_yieldsTo hconcrete h
    exact ⟨.trans (.of_isNamed a ht) hw, .trans (.of_isNamed b ht) hw⟩
  | tuples ha hb =>
    obtain ⟨elements, ρ₁, -, helements⟩ := bind_eq_ok_iff.1 h
    obtain ⟨rfl, -⟩ := pure_eq_ok_iff.1 helements
    rw [ha, hb]
    exact ⟨.tuple _ _, .tuple _ _⟩
  | refs ha hb =>
    obtain ⟨pointee, ρ₁, hpointee, hw⟩ := bind_eq_ok_iff.1 h
    obtain ⟨rfl, -⟩ := pure_eq_ok_iff.1 hw
    obtain ⟨hx, hy⟩ := Ty.yieldsTo_mostConcrete hconcrete hpointee
    rw [ha, hb]
    exact ⟨.ref hx, .ref hy⟩
  | params ha hb =>
    obtain ⟨rfl, -⟩ := pure_eq_ok_iff.1 h
    rw [ha, hb]
    exact ⟨.param_param _ _, .param_param _ _⟩
  | clash _ => cases congrArg Prod.fst h
termination_by sizeOf a

/-- Of two types that are not solid and their own most concrete forms, one is taken, and of two
parameters the older. -/
lemma Ty.vague_mostConcrete {a b w : Ty} {ρ' : Resolver} (ha : a.isSolid = false)
    (hb : b.isSolid = false) (hselfa : ∀ {w ρ'}, concrete a ρ = (.ok w, ρ') → w = a)
    (hselfb : ∀ {w ρ'}, concrete b ρ = (.ok w, ρ') → w = b)
    (h : Ty.mostConcrete concrete a b ρ = (.ok w, ρ')) :
    (w = a ∨ w = b) ∧
      ∀ p q, w = .param p → (a = .param q ∨ b = .param q) → p.number ≤ q.number := by
  have houtcome := Ty.outcome_mostConcrete concrete a b
  generalize Ty.mostConcrete concrete a b = x at houtcome h
  cases houtcome with
  | equal hab =>
    obtain rfl := hselfa h
    refine ⟨.inl rfl, ?_⟩
    rintro p q rfl (hq | rfl)
    · obtain rfl := Ty.param.inj hq
      exact Int.le_refl _
    · exact Int.le_of_eq (Param.beq_ty_iff.1 hab)
  | first hwins =>
    obtain rfl := hselfa h
    refine ⟨.inl rfl, ?_⟩
    rintro p q rfl (hq | rfl)
    · obtain rfl := Ty.param.inj hq
      exact Int.le_refl _
    · rcases hwins with hwins | ⟨_, hwins⟩ | ⟨_, hwins⟩ <;> cases hwins
  | second hwins =>
    obtain rfl := hselfb h
    refine ⟨.inr rfl, ?_⟩
    rintro p q rfl (rfl | hq)
    · rcases hwins with hwins | ⟨_, hwins⟩ | ⟨_, hwins⟩ <;> cases hwins
    · obtain rfl := Ty.param.inj hq
      exact Int.le_refl _
  | str hwins => rcases hwins with rfl | rfl <;> contradiction
  | paths hp hq =>
    rw [hp] at ha
    cases ha
  | tuples hx hy =>
    rw [hx] at ha
    cases ha
  | refs hx hy =>
    rw [hx] at ha
    cases ha
  | params hp hq =>
    obtain ⟨rfl, -⟩ := pure_eq_ok_iff.1 h
    subst hp hq
    refine ⟨?_, ?_⟩
    · rw [Param.older]
      split_ifs
      · exact .inr rfl
      · exact .inl rfl
    · intro r q hr hq
      obtain rfl := Ty.param.inj hr
      obtain ⟨hle, hle'⟩ := Param.older_le _ _
      rcases hq with hq | hq
      · obtain rfl := Ty.param.inj hq
        exact hle
      · obtain rfl := Ty.param.inj hq
        exact hle'
  | clash _ => cases congrArg Prod.fst h

end

end WhereClause
