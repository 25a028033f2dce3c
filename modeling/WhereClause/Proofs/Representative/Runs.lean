import Mathlib.Tactic.Common
import WhereClause.Representative.Settled
import WhereClause.Ty.Params

/-!
# Computations that return

A resolving computation threads a resolver and may fail.  Two things are said of such computations
throughout.  `Resolving.Keeps R` says that whenever one returns, the resolver before and that after
are in a relation `R`; nothing is said about a failure.  `Resolving.Gives I x a` says that `x` does
return, with the value `a`, and keeps an invariant of the resolver.

What goes through sequences of computations (`Resolving.Compositional`) goes through the two
traversals that make types concrete, `Ty.settleParts` and `Ty.mostConcrete`, from what is known of
the computation that they are given for single types.
-/

namespace WhereClause

namespace Resolving

variable {α β : Type}

/-! ## Running computations one after the other -/

section

variable {σ : Type} {s s' : σ}

@[simp] lemma run_pure (a : α) (s : σ) : (pure a : ExceptT Fault (StateM σ) α) s = (.ok a, s) := rfl

lemma run_bind_of_ok {x : ExceptT Fault (StateM σ) α} {a : α} (h : x s = (.ok a, s'))
    (f : α → ExceptT Fault (StateM σ) β) : (x >>= f) s = f a s' := by
  show ExceptT.bindCont f (x s).1 (x s).2 = f a s'
  rw [h]
  rfl

lemma run_bind_of_error {x : ExceptT Fault (StateM σ) α} {fault : Fault}
    (h : x s = (.error fault, s')) (f : α → ExceptT Fault (StateM σ) β) :
    (x >>= f) s = (.error fault, s') := by
  show ExceptT.bindCont f (x s).1 (x s).2 = _
  rw [h]
  rfl

/-- A sequence returns if both parts do. -/
lemma bind_eq_ok_iff {x : ExceptT Fault (StateM σ) α} {f : α → ExceptT Fault (StateM σ) β}
    {b : β} :
    (x >>= f) s = (.ok b, s') ↔ ∃ a s₁, x s = (.ok a, s₁) ∧ f a s₁ = (.ok b, s') := by
  constructor
  · intro h
    rcases hx : x s with ⟨fault | a, s₁⟩
    · rw [run_bind_of_error hx] at h
      cases congrArg Prod.fst h
    · exact ⟨a, s₁, rfl, by rwa [run_bind_of_ok hx] at h⟩
  · rintro ⟨a, s₁, hx, hf⟩
    rw [run_bind_of_ok hx, hf]

lemma pure_eq_ok_iff {a b : α} :
    (pure a : ExceptT Fault (StateM σ) α) s = (.ok b, s') ↔ a = b ∧ s = s' := by
  rw [run_pure, Prod.mk.injEq, Except.ok.injEq]

lemma run_get_bind (f : σ → ExceptT Fault (StateM σ) β) (s : σ) : (get >>= f) s = f s s := rfl

lemma run_modify_bind (g : σ → σ) (f : PUnit → ExceptT Fault (StateM σ) β) (s : σ) :
    (modify g >>= f) s = f ⟨⟩ (g s) := rfl

end

/-! ## What a computation does to the resolver when it returns -/

/-- Whenever the computation returns, the resolvers before and after are related. -/
def Keeps (R : Resolver → Resolver → Prop) (x : Resolving α) : Prop :=
  ∀ ⦃ρ a ρ'⦄, x ρ = (.ok a, ρ') → R ρ ρ'

/-- A property of the resolver before is one of the resolver after. -/
def Upholds (P : Resolver → Prop) (ρ ρ' : Resolver) : Prop := P ρ → P ρ'

instance (P : Resolver → Prop) : Std.Refl (Upholds P) := ⟨fun _ => id⟩

instance (P : Resolver → Prop) : Trans (Upholds P) (Upholds P) (Upholds P) where
  trans h h' := h' ∘ h

/-- The computation returns a value and keeps an invariant. -/
def Gives (I : Resolver → Prop) (x : Resolving α) (a : α) : Prop :=
  ∀ ⦃ρ⦄, I ρ → ∃ ρ', x ρ = (.ok a, ρ') ∧ I ρ'

namespace Keeps

variable {R : Resolver → Resolver → Prop}

lemma throw (fault : Fault) : Keeps R (MonadExcept.throw fault : Resolving α) := by
  intro ρ a ρ' h
  cases congrArg Prod.fst h

lemma pure [Std.Refl R] (a : α) : Keeps R (Pure.pure a : Resolving α) := by
  intro ρ b ρ' h
  obtain ⟨-, rfl⟩ := pure_eq_ok_iff.1 h
  exact Std.Refl.refl ρ

lemma bind [Trans R R R] {x : Resolving α} {f : α → Resolving β} (hx : Keeps R x)
    (hf : ∀ a, Keeps R (f a)) : Keeps R (x >>= f) := by
  intro ρ b ρ' h
  obtain ⟨a, ρ₁, hrun, hrest⟩ := bind_eq_ok_iff.1 h
  exact Trans.trans (hx hrun) (hf a hrest)

lemma foldlM [Std.Refl R] [Trans R R R] {f : β → α → Resolving β} (hf : ∀ b a, Keeps R (f b a))
    (as : List α) (b : β) : Keeps R (as.foldlM f b) := by
  induction as generalizing b with
  | nil => exact pure b
  | cons a as ih =>
    rw [List.foldlM_cons]
    exact (hf b a).bind ih

lemma mapM [Std.Refl R] [Trans R R R] {f : α → Resolving β} (hf : ∀ a, Keeps R (f a))
    (as : List α) : Keeps R (as.mapM f) := by
  induction as with
  | nil => exact pure []
  | cons a as ih =>
    rw [List.mapM_cons]
    exact (hf a).bind fun _ => ih.bind fun _ => pure _

end Keeps

/-! ## What goes through sequences -/

/-- A way to say that computations behave, and what values they return, which goes through sequences
and holds of failures for a cause of some kind. -/
structure Compositional (S : (α : Type) → (α → Prop) → Resolving α → Prop) : Prop where
  pure : ∀ {α : Type} {Q : α → Prop} {a : α}, Q a → S α Q (Pure.pure a)
  bind : ∀ {α β : Type} {Q : α → Prop} {P : β → Prop} {x : Resolving α} {f : α → Resolving β},
    S α Q x → (∀ a, Q a → S β P (f a)) → S β P (x >>= f)
  failWith : ∀ {α : Type} {Q : α → Prop} {c : Cause}, c.kind ≠ .general →
    S α Q (WhereClause.failWith c)

/-- What goes through sequences goes through a fold, from one value with a property to the next. -/
lemma Compositional.foldlM {S : (α : Type) → (α → Prop) → Resolving α → Prop}
    (h : Compositional S) {Q : β → Prop} {P : α → Prop} {f : β → α → Resolving β}
    (hf : ∀ b a, Q b → P a → S β Q (f b a)) {as : List α} (has : ∀ a ∈ as, P a) {b : β}
    (hb : Q b) : S β Q (as.foldlM f b) := by
  induction as generalizing b with
  | nil => exact h.pure hb
  | cons a as ih =>
    obtain ⟨ha, has⟩ := List.forall_mem_cons.1 has
    rw [List.foldlM_cons]
    exact h.bind (hf b a hb ha) fun _ hb' => ih has hb'

/-- Whenever the computation returns, the resolvers before and after are related, and the value has
a property. -/
def Returns (R : Resolver → Resolver → Prop) (Q : α → Prop) (x : Resolving α) : Prop :=
  ∀ ⦃ρ a ρ'⦄, x ρ = (.ok a, ρ') → R ρ ρ' ∧ Q a

lemma Keeps.returns {R : Resolver → Resolver → Prop} {x : Resolving α} (h : Keeps R x) :
    Returns R (fun _ => True) x := fun _ _ _ hrun => ⟨h hrun, trivial⟩

lemma Returns.keeps {R : Resolver → Resolver → Prop} {Q : α → Prop} {x : Resolving α}
    (h : Returns R Q x) : Keeps R x := fun _ _ _ hrun => (h hrun).1

lemma compositional_returns (R : Resolver → Resolver → Prop) [Std.Refl R] [Trans R R R] :
    Compositional fun _ Q x => Returns R Q x where
  pure ha := by
    intro ρ b ρ' h
    obtain ⟨rfl, rfl⟩ := pure_eq_ok_iff.1 h
    exact ⟨Std.Refl.refl ρ, ha⟩
  bind hx hf := by
    intro ρ b ρ' h
    obtain ⟨a, ρ₁, hrun, hrest⟩ := bind_eq_ok_iff.1 h
    obtain ⟨hfirst, ha⟩ := hx hrun
    obtain ⟨hsecond, hb⟩ := hf a ha hrest
    exact ⟨Trans.trans hfirst hsecond, hb⟩
  failWith _ := by
    intro ρ a ρ' h
    cases congrArg Prod.fst h

namespace Gives

variable {I : Resolver → Prop}

lemma pure (a : α) : Gives I (Pure.pure a : Resolving α) a := fun ρ hρ => ⟨ρ, rfl, hρ⟩

lemma bind {x : Resolving α} {f : α → Resolving β} {a : α} {b : β} (hx : Gives I x a)
    (hf : Gives I (f a) b) : Gives I (x >>= f) b := by
  intro ρ hρ
  obtain ⟨ρ₁, hrun, hρ₁⟩ := hx hρ
  obtain ⟨ρ', hrest, hρ'⟩ := hf hρ₁
  exact ⟨ρ', bind_eq_ok_iff.2 ⟨a, ρ₁, hrun, hrest⟩, hρ'⟩

end Gives

end Resolving

open Resolving

/-! ## Settling the parts of a type -/

section

variable {m : Type → Type} [Monad m] (setOf : Ty → Option ℕ) (expand : ℕ → Ty → m Ty)

/-- Settles a part of a type, which is expanded if it is of a set. -/
def Ty.settlePart (t : Ty) : m Ty :=
  match setOf t with
  | some r => expand r t
  | none => t.settleParts setOf expand

lemma Ty.settleParts_ref (access : Access) (t : Ty) (l : Option Lifetime) :
    (Ty.ref access t l).settleParts setOf expand = do
      let pointee ← t.settlePart setOf expand
      return .ref access pointee l := by
  rw [Ty.settleParts, Ty.settlePart]
  cases setOf t <;> rfl

lemma Ty.settleEach_cons (t : Ty) (ts : List Ty) :
    Ty.settleEach setOf expand (t :: ts) = do
      let u ← t.settlePart setOf expand
      let us ← Ty.settleEach setOf expand ts
      return u :: us := by
  rw [Ty.settleEach, Ty.settlePart]
  cases setOf t <;> rfl

lemma Arg.settleEach_cons_type (t : Ty) (as : List Arg) :
    Arg.settleEach setOf expand (.type t :: as) = do
      let u ← t.settlePart setOf expand
      let as ← Arg.settleEach setOf expand as
      return .type u :: as := by
  rw [Arg.settleEach, Ty.settlePart]
  cases setOf t <;> rfl

end

namespace Resolving

/-- What is known of expanding the types of sets goes through sequences. -/
structure Settling (S : (α : Type) → (α → Prop) → Resolving α → Prop) (setOf : Ty → Option ℕ)
    (expand : ℕ → Ty → Resolving Ty) : Prop extends Compositional S where
  expand : ∀ r t, setOf t = some r → S Ty (fun _ => True) (expand r t)

namespace Settling

variable {S : (α : Type) → (α → Prop) → Resolving α → Prop} {setOf : Ty → Option ℕ}
  {expand : ℕ → Ty → Resolving Ty}

lemma settlePart (h : Settling S setOf expand) {t : Ty}
    (ht : S Ty (fun _ => True) (t.settleParts setOf expand)) :
    S Ty (fun _ => True) (t.settlePart setOf expand) := by
  rw [Ty.settlePart]
  split
  · exact h.expand _ t ‹_›
  · exact ht

mutual

/-- What holds of expanding the types of sets holds of settling the parts of a type. -/
lemma settleParts (h : Settling S setOf expand) (t : Ty) :
    S Ty (fun _ => True) (t.settleParts setOf expand) := by
  cases t with
  | tuple ts =>
    rw [Ty.settleParts]
    exact h.bind (h.settleEach ts) fun _ _ => h.pure trivial
  | ref access t l =>
    rw [Ty.settleParts_ref]
    exact h.bind (h.settlePart (h.settleParts t)) fun _ _ => h.pure trivial
  | dyn bs =>
    rw [Ty.settleParts]
    exact h.bind (h.settleBounds bs) fun _ _ => h.pure trivial
  | path p =>
    rw [Ty.settleParts]
    exact h.bind (h.settlePath p) fun _ _ => h.pure trivial
  | _ => rw [Ty.settleParts]; exact h.pure trivial
termination_by structural t

lemma settleEach (h : Settling S setOf expand) (ts : List Ty) :
    S _ (fun _ => True) (Ty.settleEach setOf expand ts) := by
  cases ts with
  | nil => rw [Ty.settleEach]; exact h.pure trivial
  | cons t ts =>
    rw [Ty.settleEach_cons]
    exact h.bind (h.settlePart (h.settleParts t)) fun _ _ =>
      h.bind (h.settleEach ts) fun _ _ => h.pure trivial
termination_by structural ts

lemma settlePath (h : Settling S setOf expand) (p : Path) :
    S _ (fun _ => True) (p.settle setOf expand) := by
  obtain ⟨isGlobal, init, last⟩ := p
  rw [Path.settle]
  exact h.bind (h.settleSegments init) fun _ _ =>
    h.bind (h.settleSegment last) fun _ _ => h.pure trivial
termination_by structural p

lemma settleSegment (h : Settling S setOf expand) (s : Segment) :
    S _ (fun _ => True) (s.settle setOf expand) := by
  obtain ⟨name, args⟩ := s
  rw [Segment.settle]
  exact h.bind (h.settleArgs args) fun _ _ => h.pure trivial
termination_by structural s

lemma settleSegments (h : Settling S setOf expand) (ss : List Segment) :
    S _ (fun _ => True) (Segment.settleEach setOf expand ss) := by
  cases ss with
  | nil => rw [Segment.settleEach]; exact h.pure trivial
  | cons s ss =>
    rw [Segment.settleEach]
    exact h.bind (h.settleSegment s) fun _ _ =>
      h.bind (h.settleSegments ss) fun _ _ => h.pure trivial
termination_by structural ss

lemma settleArgs (h : Settling S setOf expand) (as : Args) :
    S _ (fun _ => True) (as.settle setOf expand) := by
  cases as with
  | angle as =>
    rw [Args.settle]
    exact h.bind (h.settleArgEach as) fun _ _ => h.pure trivial
  | _ => rw [Args.settle]; exact h.pure trivial
termination_by structural as

lemma settleArgEach (h : Settling S setOf expand) (as : List Arg) :
    S _ (fun _ => True) (Arg.settleEach setOf expand as) := by
  cases as with
  | nil => rw [Arg.settleEach]; exact h.pure trivial
  | cons a as =>
    cases a with
    | type t =>
      rw [Arg.settleEach_cons_type]
      exact h.bind (h.settlePart (h.settleParts t)) fun _ _ =>
        h.bind (h.settleArgEach as) fun _ _ => h.pure trivial
    | lifetime l =>
      rw [Arg.settleEach]
      exact h.bind (h.settleArgEach as) fun _ _ => h.pure trivial
termination_by structural as

lemma settleBound (h : Settling S setOf expand) (b : Bound) :
    S _ (fun _ => True) (b.settle setOf expand) := by
  cases b with
  | trait p binder =>
    rw [Bound.settle]
    exact h.bind (h.settlePath p) fun _ _ => h.pure trivial
  | outlives l => rw [Bound.settle]; exact h.pure trivial
termination_by structural b

lemma settleBounds (h : Settling S setOf expand) (bs : List Bound) :
    S _ (fun _ => True) (Bound.settleEach setOf expand bs) := by
  cases bs with
  | nil => rw [Bound.settleEach]; exact h.pure trivial
  | cons b bs =>
    rw [Bound.settleEach]
    exact h.bind (h.settleBound b) fun _ _ =>
      h.bind (h.settleBounds bs) fun _ _ => h.pure trivial
termination_by structural bs

end

end Settling

end Resolving

/-! ## The more concrete of two types -/

section

variable (concrete : Ty → Resolving Ty)

/-- The ways in which the more concrete of two types is found. -/
inductive Ty.Outcome (a b : Ty) : Resolving Ty → Prop
  | equal : (a == b) = true → Outcome a b (concrete a)
  | first : (b = .infer ∨ (∃ bs, b = .dyn bs) ∨ ∃ p, a = .path p) → Outcome a b (concrete a)
  | second : (a = .infer ∨ (∃ bs, a = .dyn bs) ∨ ∃ p, b = .path p) → Outcome a b (concrete b)
  | str : (a = .str ∨ b = .str) → Outcome a b (pure .str)
  | paths {p q : Path} : a = .path p → b = .path q → Outcome a b (Path.mostConcrete concrete p q)
  | tuples {xs ys : List Ty} : a = .tuple xs → b = .tuple ys → Outcome a b (do
      let elements ← Ty.mostConcreteEach concrete xs ys
      return .tuple elements)
  | refs {access : Access} {x y : Ty} {l k : Option Lifetime} :
      a = .ref access x l → b = .ref access y k → Outcome a b (do
        let pointee ← Ty.mostConcrete concrete x y
        return .ref access pointee none)
  | params {p q : Param} : a = .param p → b = .param q →
      Outcome a b (pure (.param (p.older q)))
  | clash {c : Cause} : c.kind ≠ .general → Outcome a b (failWith c)

lemma Ty.outcome_mostConcrete (a b : Ty) :
    Ty.Outcome concrete a b (Ty.mostConcrete concrete a b) := by
  rw [Ty.mostConcrete.eq_def]
  split
  case isTrue heq => exact .equal heq
  case isFalse =>
    split
    case h_1 => exact .second (.inl rfl)
    case h_2 => exact .first (.inl rfl)
    case h_3 => exact .str (.inl rfl)
    case h_4 => exact .str (.inr rfl)
    case h_5 => exact .paths rfl rfl
    case h_6 => exact .first (.inr (.inr ⟨_, rfl⟩))
    case h_7 => exact .second (.inr (.inr ⟨_, rfl⟩))
    case h_8 =>
      split
      · exact .tuples rfl rfl
      · exact .clash nofun
    case h_9 => exact .refs rfl rfl
    case h_10 => exact .refs rfl rfl
    case h_11 => exact .second (.inr (.inl ⟨_, rfl⟩))
    case h_12 => exact .params rfl rfl
    case h_13 => exact .first (.inr (.inl ⟨_, rfl⟩))
    case h_14 => exact .clash nofun

/-- The ways in which the more concrete of two paths is found. -/
inductive Path.Outcome (p q : Path) : Resolving Ty → Prop
  | kept {r : Path} : (r = p ∨ r = q) → Outcome p q (pure (.path r))
  | whole {r : Path} : (r = p ∨ r = q) → Outcome p q (concrete (.path r))
  | merged {as bs : List Arg} : p.last.args = .angle as → q.last.args = .angle bs →
      Outcome p q (do
        let merged ← Arg.mostConcreteEach concrete as bs
        return .path (p.withMergedArgs q merged))
  | clash {c : Cause} : c.kind ≠ .general → Outcome p q (failWith c)

lemma Path.outcome_mostConcrete (p q : Path) :
    Path.Outcome concrete p q (Path.mostConcrete concrete p q) := by
  obtain ⟨isGlobal, init, ⟨name, args⟩⟩ := p
  rw [Path.mostConcrete.eq_def]
  dsimp only
  split
  · exact .kept (.inl rfl)
  · exact .kept (.inr rfl)
  case h_3 hargs =>
    split_ifs
    · exact .whole (.inl rfl)
    · exact .whole (.inr rfl)
    · exact .merged rfl hargs
  · exact .clash nofun

end

/-! ## Merged paths -/

lemma Path.args_withMergedArgs (p q : Path) (args : List Arg) :
    (p.withMergedArgs q args).last.args = .angle args := by
  unfold Path.withMergedArgs
  split_ifs
  · rfl
  · rfl

/-- A merged path mentions what the paths and the merged arguments do. -/
lemma Path.mentions_withMergedArgs {p q : Path} {args : List Arg} {x : Param}
    (hx : x ∈ (p.withMergedArgs q args).mentions) :
    x ∈ p.mentions ∨ x ∈ q.mentions ∨ x ∈ Arg.mentionsEach args := by
  have hwith : ∀ r : Path, x ∈ (r.withArgs (.angle args)).mentions →
      x ∈ r.mentions ∨ x ∈ Arg.mentionsEach args := by
    rintro ⟨isGlobal, init, ⟨name, as⟩⟩ hr
    simp only [Path.withArgs, Path.mentions, Segment.mentions, Args.mentions,
      List.mem_append] at hr ⊢
    tauto
  rw [Path.withMergedArgs] at hx
  split_ifs at hx
  · exact (hwith p hx).imp id .inr
  · exact .inr (hwith q hx)

namespace Resolving

/-- What is known of making one type concrete goes through sequences, and no parameters are
mentioned that were not. -/
structure Merging (S : (α : Type) → (α → Prop) → Resolving α → Prop) (M : Param → Prop)
    (concrete : Ty → Resolving Ty) : Prop extends Compositional S where
  concrete : ∀ t : Ty, (∀ p ∈ t.mentions, M p) → S Ty (fun u => ∀ p ∈ u.mentions, M p) (concrete t)

namespace Merging

variable {S : (α : Type) → (α → Prop) → Resolving α → Prop} {M : Param → Prop}
  {concrete : Ty → Resolving Ty}

mutual

/-- What holds of making one type concrete holds of finding the more concrete of two. -/
lemma mostConcrete (h : Merging S M concrete) (a b : Ty) (ha : ∀ p ∈ a.mentions, M p)
    (hb : ∀ p ∈ b.mentions, M p) :
    S _ (fun u => ∀ p ∈ u.mentions, M p) (Ty.mostConcrete concrete a b) := by
  have houtcome := Ty.outcome_mostConcrete concrete a b
  generalize Ty.mostConcrete concrete a b = x at houtcome ⊢
  cases houtcome with
  | equal _ => exact h.concrete a ha
  | first _ => exact h.concrete a ha
  | second _ => exact h.concrete b hb
  | str _ => exact h.pure nofun
  | paths hp hq =>
    subst hp hq
    rw [Ty.mentions] at ha hb
    exact h.mostConcretePath _ _ ha hb
  | tuples hxs hys =>
    subst hxs hys
    rw [Ty.mentions] at ha hb
    refine h.bind (h.mostConcreteEach _ _ ha hb) fun elements helements => h.pure ?_
    rwa [Ty.mentions]
  | refs hx hy =>
    subst hx hy
    rw [Ty.mentions] at ha hb
    refine h.bind (h.mostConcrete _ _ ha hb) fun pointee hpointee => h.pure ?_
    rwa [Ty.mentions]
  | @params p q hp hq =>
    subst hp hq
    rw [Ty.mentions] at ha hb
    refine h.pure ?_
    rw [Ty.mentions, List.forall_mem_singleton, Param.older]
    split_ifs
    · exact List.forall_mem_singleton.1 hb
    · exact List.forall_mem_singleton.1 ha
  | clash hc => exact h.failWith hc
termination_by sizeOf a

lemma mostConcreteEach (h : Merging S M concrete) (xs ys : List Ty)
    (hxs : ∀ p ∈ Ty.mentionsEach xs, M p) (hys : ∀ p ∈ Ty.mentionsEach ys, M p) :
    S _ (fun us => ∀ p ∈ Ty.mentionsEach us, M p) (Ty.mostConcreteEach concrete xs ys) := by
  rw [Ty.mostConcreteEach.eq_def]
  split
  · rw [Ty.mentionsEach, List.forall_mem_append] at hxs hys
    refine h.bind (h.mostConcrete _ _ hxs.1 hys.1) fun t ht =>
      h.bind (h.mostConcreteEach _ _ hxs.2 hys.2) fun ts hts => h.pure ?_
    rw [Ty.mentionsEach, List.forall_mem_append]
    exact ⟨ht, hts⟩
  · exact h.pure nofun
termination_by sizeOf xs

lemma mostConcretePath (h : Merging S M concrete) (p q : Path) (hp : ∀ x ∈ p.mentions, M x)
    (hq : ∀ x ∈ q.mentions, M x) :
    S _ (fun u => ∀ x ∈ u.mentions, M x) (Path.mostConcrete concrete p q) := by
  have houtcome := Path.outcome_mostConcrete concrete p q
  generalize Path.mostConcrete concrete p q = x at houtcome ⊢
  have heither : ∀ {r : Path}, r = p ∨ r = q → ∀ x ∈ (Ty.path r).mentions, M x := by
    intro r hr
    rw [Ty.mentions]
    rcases hr with rfl | rfl
    · exact hp
    · exact hq
  cases houtcome with
  | kept hr => exact h.pure (heither hr)
  | whole hr => exact h.concrete _ (heither hr)
  | merged hpargs hqargs =>
    have has : ∀ x ∈ Args.mentions p.last.args, M x := by
      obtain ⟨isGlobal, init, ⟨name, args⟩⟩ := p
      rw [Path.mentions, Segment.mentions, List.forall_mem_append] at hp
      exact hp.2
    have hbs : ∀ x ∈ Args.mentions q.last.args, M x := by
      obtain ⟨isGlobal, init, ⟨name, args⟩⟩ := q
      rw [Path.mentions, Segment.mentions, List.forall_mem_append] at hq
      exact hq.2
    rw [hpargs, Args.mentions] at has
    rw [hqargs, Args.mentions] at hbs
    refine h.bind (h.mostConcreteArgs _ _ has hbs) fun args hargs => h.pure ?_
    rw [Ty.mentions]
    intro x hx
    rcases Path.mentions_withMergedArgs hx with hx | hx | hx
    · exact hp x hx
    · exact hq x hx
    · exact hargs x hx
  | clash hc => exact h.failWith hc
termination_by sizeOf p
decreasing_by
  obtain ⟨isGlobal, init, ⟨name, args⟩⟩ := p
  obtain rfl : args = .angle _ := hpargs
  simp only [Path.mk.sizeOf_spec, Segment.mk.sizeOf_spec, Args.angle.sizeOf_spec]
  omega

lemma mostConcreteArg (h : Merging S M concrete) (a b : Arg) (ha : ∀ p ∈ a.mentions, M p)
    (hb : ∀ p ∈ b.mentions, M p) :
    S _ (fun c => ∀ p ∈ c.mentions, M p) (Arg.mostConcrete concrete a b) := by
  rw [Arg.mostConcrete.eq_def]
  split
  · rw [Arg.mentions] at ha hb
    refine h.bind (h.mostConcrete _ _ ha hb) fun t ht => h.pure ?_
    rwa [Arg.mentions]
  · exact h.pure ha
  · exact h.failWith nofun
termination_by sizeOf a

lemma mostConcreteArgs (h : Merging S M concrete) (as bs : List Arg)
    (has : ∀ p ∈ Arg.mentionsEach as, M p) (hbs : ∀ p ∈ Arg.mentionsEach bs, M p) :
    S _ (fun cs => ∀ p ∈ Arg.mentionsEach cs, M p) (Arg.mostConcreteEach concrete as bs) := by
  rw [Arg.mostConcreteEach.eq_def]
  split
  · rw [Arg.mentionsEach, List.forall_mem_append] at has hbs
    refine h.bind (h.mostConcreteArg _ _ has.1 hbs.1) fun c hc =>
      h.bind (h.mostConcreteArgs _ _ has.2 hbs.2) fun cs hcs => h.pure ?_
    rw [Arg.mentionsEach, List.forall_mem_append]
    exact ⟨hc, hcs⟩
  · exact h.pure nofun
termination_by sizeOf as

end

end Merging

end Resolving

/-! ## Relations that the traversals keep -/

section

variable {R : Resolver → Resolver → Prop} [Std.Refl R] [Trans R R R]

/-- Making two types concrete keeps what making one concrete keeps. -/
lemma Ty.keeps_mostConcrete {concrete : Ty → Resolving Ty} (hconcrete : ∀ t, Keeps R (concrete t))
    (a b : Ty) : Keeps R (Ty.mostConcrete concrete a b) := by
  have hmerging : Merging (fun _ Q x => Returns R Q x) (fun _ => True) concrete :=
    { compositional_returns R with
      concrete := fun t _ _ _ _ hrun => ⟨hconcrete t hrun, fun _ _ => trivial⟩ }
  exact (hmerging.mostConcrete a b (fun _ _ => trivial) fun _ _ => trivial).keeps

variable {setOf : Ty → Option ℕ} {expand : ℕ → Ty → Resolving Ty}
  (hexpand : ∀ r t, Keeps R (expand r t))

include hexpand

/-- Settling keeps what expanding a type of a set keeps. -/
lemma settling_of_keeps : Settling (fun _ Q x => Returns R Q x) setOf expand :=
  { compositional_returns R with expand := fun r t _ => (hexpand r t).returns }

lemma Ty.keeps_settleParts (t : Ty) : Keeps R (t.settleParts setOf expand) :=
  ((settling_of_keeps hexpand).settleParts t).keeps

lemma Ty.keeps_settlePart (t : Ty) : Keeps R (t.settlePart setOf expand) :=
  ((settling_of_keeps hexpand).settlePart (Ty.keeps_settleParts hexpand t).returns).keeps

lemma Path.keeps_settle (p : Path) : Keeps R (p.settle setOf expand) :=
  ((settling_of_keeps hexpand).settlePath p).keeps

lemma Segment.keeps_settle (s : Segment) : Keeps R (s.settle setOf expand) :=
  ((settling_of_keeps hexpand).settleSegment s).keeps

lemma Segment.keeps_settleEach (ss : List Segment) :
    Keeps R (Segment.settleEach setOf expand ss) :=
  ((settling_of_keeps hexpand).settleSegments ss).keeps

lemma Arg.keeps_settleEach (as : List Arg) : Keeps R (Arg.settleEach setOf expand as) :=
  ((settling_of_keeps hexpand).settleArgEach as).keeps

lemma Bound.keeps_settle (b : Bound) : Keeps R (b.settle setOf expand) :=
  ((settling_of_keeps hexpand).settleBound b).keeps

lemma Bound.keeps_settleEach (bs : List Bound) : Keeps R (Bound.settleEach setOf expand bs) :=
  ((settling_of_keeps hexpand).settleBounds bs).keeps

end

end WhereClause
