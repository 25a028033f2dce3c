import WhereClause.Proofs.Renaming.Calls
import WhereClause.Proofs.Representative.Settling

/-!
# Resolvers under a renaming

What a resolver is asked about a renamed store, it answers with the renamed types, and remembers the
renamed ones.  `Resolving.Follows` says this of two computations: from a renamed resolver, the
second does what the first does, renamed.  It goes through sequences, so it goes through the
traversals, and by induction on the depths through folds and expansions.
-/

namespace WhereClause

open Resolving Resolver

/-- The resolver that remembers renamed types. -/
def Resolver.rename (ρ : Renaming) (s : Resolver) : Resolver where
  memo := s.memo.map id (Option.map (Ty.rename ρ))
  settling := s.settling

namespace Resolver

lemma get?_memo_rename (ρ : Renaming) (s : Resolver) (position : ℤ) :
    (s.rename ρ).memo.get? position = (s.memo.get? position).map (Option.map (Ty.rename ρ)) :=
  Table.get?_map (fun _ _ => rfl) s.memo position

lemma remember_rename (ρ : Renaming) (s : Resolver) (position : ℤ) (o : Option Ty) :
    (s.rename ρ).remember position (o.map (Ty.rename ρ)) = (s.remember position o).rename ρ :=
  congrArg (Resolver.mk · s.settling)
    (Table.insert_map (fun _ _ => rfl) s.memo position o)

end Resolver

namespace Resolving

variable {α β α' β' : Type}

/-- Started from a renamed resolver, the second computation ends as the first does, renamed. -/
def Follows (ρ : Renaming) (f : α → α') (x : Resolving α) (x' : Resolving α') : Prop :=
  ∀ s, x' (s.rename ρ) = (Except.mapBoth (Fault.rename ρ) f (x s).1, (x s).2.rename ρ)

namespace Follows

variable {ρ : Renaming} {f : α → α'} {g : β → β'}

lemma pure {a : α} {a' : α'} (h : a' = f a) : Follows ρ f (Pure.pure a) (Pure.pure a') :=
  h ▸ fun _ => rfl

lemma throw (ρ : Renaming) (f : α → α') (fault : Fault) :
    Follows ρ f (MonadExcept.throw fault) (MonadExcept.throw (fault.rename ρ)) := fun _ => rfl

lemma failWith {c c' : Cause} (h : c' = c.rename ρ) :
    Follows ρ f (WhereClause.failWith c) (WhereClause.failWith c') := h ▸ fun _ => rfl

lemma bind {x : Resolving α} {x' : Resolving α'} {k : α → Resolving β} {k' : α' → Resolving β'}
    (hx : Follows ρ f x x') (hk : ∀ a, Follows ρ g (k a) (k' (f a))) :
    Follows ρ g (x >>= k) (x' >>= k') := by
  intro s
  have hrun := hx s
  rcases hxs : x s with ⟨fault | a, s₁⟩
  · rw [hxs] at hrun
    rw [run_bind_of_error hxs, run_bind_of_error hrun]
    rfl
  · rw [hxs] at hrun
    rw [run_bind_of_ok hxs, run_bind_of_ok hrun]
    exact hk a s₁

/-- A value that follows is passed on to what comes next. -/
lemma map {x : Resolving α} {x' : Resolving α'} {k : α → β} {k' : α' → β'}
    (hx : Follows ρ f x x') (hk : ∀ a, k' (f a) = g (k a)) :
    Follows ρ g (do let a ← x; return k a) (do let a ← x'; return k' a) := by
  exact hx.bind fun a => .pure (hk a)

lemma whileSettling {x : Resolving α} {x' : Resolving α'} (hx : Follows ρ f x x') (r : ℕ) :
    Follows ρ f (Resolver.whileSettling r x) (Resolver.whileSettling r x') := by
  intro s
  have hpush : (s.push r).rename ρ = (s.rename ρ).push r := rfl
  rw [run_whileSettling, run_whileSettling, ← hpush, hx]
  rfl

lemma foldlM {γ γ' : Type} {k : β → γ → Resolving β} {k' : β' → γ' → Resolving β'} {e : γ → γ'}
    (hk : ∀ b c, Follows ρ g (k b c) (k' (g b) (e c))) (cs : List γ) (b : β) :
    Follows ρ g (cs.foldlM k b) ((cs.map e).foldlM k' (g b)) := by
  induction cs generalizing b with
  | nil => exact .pure rfl
  | cons c cs ih =>
    rw [List.map_cons, List.foldlM_cons, List.foldlM_cons]
    exact (hk b c).bind ih

end Follows

end Resolving

/-! ## The more concrete of two renamed types -/

lemma Path.segments_length_rename (ρ : Renaming) (p : Path) :
    (p.rename ρ).segments.length = p.segments.length := by
  rw [Path.segments_rename, List.length_map]

lemma Path.withArgs_rename (ρ : Renaming) (p : Path) (as : Args) :
    (p.rename ρ).withArgs (as.rename ρ) = (p.withArgs as).rename ρ := by
  obtain ⟨isGlobal, init, ⟨name, args⟩⟩ := p
  simp only [Path.withArgs, Path.rename, Segment.rename]

lemma Path.withMergedArgs_rename (ρ : Renaming) (p q : Path) (as : List Arg) :
    (p.rename ρ).withMergedArgs (q.rename ρ) (Arg.renameEach ρ as) =
      (p.withMergedArgs q as).rename ρ := by
  have hangle : Args.angle (Arg.renameEach ρ as) = (Args.angle as).rename ρ := by rw [Args.rename]
  have hglobal : (p.rename ρ).isGlobal = p.isGlobal := by
    obtain ⟨isGlobal, init, last⟩ := p
    rw [Path.rename]
  rw [Path.withMergedArgs, Path.withMergedArgs, hangle, hglobal, Path.segments_length_rename,
    Path.segments_length_rename, Path.withArgs_rename, Path.withArgs_rename]
  split_ifs <;> rfl

section

variable {ρ : Renaming} {concrete concrete' : Ty → Resolving Ty}

mutual

/-- The more concrete of two renamed types is the renamed one. -/
lemma Ty.follows_mostConcrete (h : ρ.Orderly)
    (hconcrete : ∀ t, Follows ρ (Ty.rename ρ) (concrete t) (concrete' (t.rename ρ))) (a b : Ty) :
    Follows ρ (Ty.rename ρ) (Ty.mostConcrete concrete a b)
      (Ty.mostConcrete concrete' (a.rename ρ) (b.rename ρ)) := by
  rw [Ty.mostConcrete.eq_def, Ty.mostConcrete.eq_def, Ty.beq_rename h]
  split_ifs
  · exact hconcrete a
  have ha := hconcrete a
  have hb := hconcrete b
  have hstr : Follows ρ (Ty.rename ρ) (pure .str) (pure .str) := .pure (by rw [Ty.rename])
  have hclash : Follows ρ (Ty.rename ρ) (failWith (.incompatible a b))
      (failWith (.incompatible (a.rename ρ) (b.rename ρ))) := .failWith (by rw [Cause.rename])
  cases a with
  | infer => cases b <;> exact hb
  | str =>
    cases b with
    | infer => exact ha
    | _ => exact hstr
  | path p =>
    cases b with
    | str => exact hstr
    | path q => exact Path.follows_mostConcrete h hconcrete p q
    | _ => exact ha
  | tuple xs =>
    cases b with
    | infer | dyn _ => exact ha
    | str => exact hstr
    | path q => exact hb
    | tuple ys =>
      simp only [Ty.rename, Ty.length_renameEach]
      split_ifs
      · exact (Ty.follows_mostConcreteEach h hconcrete xs ys).map fun ts => by rw [Ty.rename]
      · exact .failWith (by simp only [Cause.rename, Ty.rename])
    | _ => exact hclash
  | ref access x l =>
    cases b with
    | infer | dyn _ => exact ha
    | str => exact hstr
    | path q => exact hb
    | ref access' y k =>
      have hpointee : ∀ access : Access, Follows ρ (Ty.rename ρ)
          (do let t ← Ty.mostConcrete concrete x y; return Ty.ref access t none)
          (do
            let t ← Ty.mostConcrete concrete' (x.rename ρ) (y.rename ρ)
            return Ty.ref access t none) := fun access =>
        (Ty.follows_mostConcrete h hconcrete x y).map fun t => by
          rw [Ty.rename, Option.map_none]
      cases access <;> cases access'
      · exact hpointee .shared
      · exact hclash
      · exact hclash
      · exact hpointee .mutable
    | _ => exact hclash
  | dyn bs =>
    cases b with
    | infer => exact ha
    | str => exact hstr
    | _ => exact hb
  | param p =>
    cases b with
    | infer | dyn _ => exact ha
    | str => exact hstr
    | path q => exact hb
    | param q =>
      simp only [Ty.rename]
      exact .pure (by rw [Ty.rename, h.older_onParam])
    | _ => exact hclash
  | deref _ | data _ _ _ =>
    cases b with
    | infer | dyn _ => exact ha
    | str => exact hstr
    | path q => exact hb
    | _ => exact hclash
termination_by structural a

lemma Ty.follows_mostConcreteEach (h : ρ.Orderly)
    (hconcrete : ∀ t, Follows ρ (Ty.rename ρ) (concrete t) (concrete' (t.rename ρ)))
    (xs ys : List Ty) :
    Follows ρ (Ty.renameEach ρ) (Ty.mostConcreteEach concrete xs ys)
      (Ty.mostConcreteEach concrete' (Ty.renameEach ρ xs) (Ty.renameEach ρ ys)) := by
  cases xs with
  | nil =>
    simp only [Ty.renameEach, Ty.mostConcreteEach]
    exact .pure (by rw [Ty.renameEach])
  | cons x xs =>
    cases ys with
    | nil =>
      simp only [Ty.renameEach, Ty.mostConcreteEach]
      exact .pure (by rw [Ty.renameEach])
    | cons y ys =>
      simp only [Ty.renameEach, Ty.mostConcreteEach]
      exact (Ty.follows_mostConcrete h hconcrete x y).bind fun t =>
        (Ty.follows_mostConcreteEach h hconcrete xs ys).map fun ts => by rw [Ty.renameEach]
termination_by structural xs

lemma Path.follows_mostConcrete (h : ρ.Orderly)
    (hconcrete : ∀ t, Follows ρ (Ty.rename ρ) (concrete t) (concrete' (t.rename ρ))) (p q : Path) :
    Follows ρ (Ty.rename ρ) (Path.mostConcrete concrete p q)
      (Path.mostConcrete concrete' (p.rename ρ) (q.rename ρ)) := by
  have hpath : ∀ p : Path, (Ty.path p).rename ρ = .path (p.rename ρ) := fun p => by rw [Ty.rename]
  have hkept : ∀ p : Path, Follows ρ (Ty.rename ρ) (pure (.path p)) (pure (.path (p.rename ρ))) :=
    fun p => .pure (hpath p).symm
  have hwhole : ∀ p : Path, Follows ρ (Ty.rename ρ) (concrete (.path p))
      (concrete' (.path (p.rename ρ))) := fun p => hpath p ▸ hconcrete (.path p)
  have hclash : Follows ρ (Ty.rename ρ)
      (failWith (.parenthesized [.type (.path p), .type (.path q)]))
      (failWith (.parenthesized [.type (.path (p.rename ρ)), .type (.path (q.rename ρ))])) :=
    .failWith (by simp only [Cause.rename, List.map_cons, List.map_nil, Value.rename, hpath])
  have hq := Path.args_last_rename ρ q
  obtain ⟨isGlobal, init, ⟨name, args⟩⟩ := p
  have hp : (Path.mk isGlobal init ⟨name, args⟩).rename ρ =
      ⟨isGlobal, Segment.renameEach ρ init, ⟨name, args.rename ρ⟩⟩ := by
    rw [Path.rename, Segment.rename]
  rw [hp, Path.mostConcrete.eq_def, Path.mostConcrete.eq_def]
  dsimp only
  rw [← hp, hq]
  cases args with
  | none => exact hkept _
  | paren inputs output =>
    cases q.last.args with
    | none => exact hkept q
    | _ => exact hclash
  | angle as =>
    cases q.last.args with
    | none => exact hkept q
    | paren inputs output => exact hclash
    | angle bs =>
      simp only [Args.rename, Arg.length_renameEach]
      split_ifs
      · exact hwhole _
      · exact hwhole q
      · exact (Arg.follows_mostConcreteEach h hconcrete as bs).map fun merged => by
          rw [hpath, Path.withMergedArgs_rename]
termination_by structural p

lemma Arg.follows_mostConcrete (h : ρ.Orderly)
    (hconcrete : ∀ t, Follows ρ (Ty.rename ρ) (concrete t) (concrete' (t.rename ρ))) (a b : Arg) :
    Follows ρ (Arg.rename ρ) (Arg.mostConcrete concrete a b)
      (Arg.mostConcrete concrete' (a.rename ρ) (b.rename ρ)) := by
  have hclash : Follows ρ (Arg.rename ρ) (failWith (.typeAgainstLifetime a b))
      (failWith (.typeAgainstLifetime (a.rename ρ) (b.rename ρ))) :=
    .failWith (by rw [Cause.rename])
  cases a with
  | type x =>
    cases b with
    | type y =>
      simp only [Arg.rename, Arg.mostConcrete]
      exact (Ty.follows_mostConcrete h hconcrete x y).map fun t => by rw [Arg.rename]
    | lifetime k =>
      simp only [Arg.rename, Arg.mostConcrete] at hclash ⊢
      exact hclash
  | lifetime l =>
    cases b with
    | type y =>
      simp only [Arg.rename, Arg.mostConcrete] at hclash ⊢
      exact hclash
    | lifetime k =>
      simp only [Arg.rename, Arg.mostConcrete]
      exact .pure (by rw [Arg.rename])
termination_by structural a

lemma Arg.follows_mostConcreteEach (h : ρ.Orderly)
    (hconcrete : ∀ t, Follows ρ (Ty.rename ρ) (concrete t) (concrete' (t.rename ρ)))
    (as bs : List Arg) :
    Follows ρ (Arg.renameEach ρ) (Arg.mostConcreteEach concrete as bs)
      (Arg.mostConcreteEach concrete' (Arg.renameEach ρ as) (Arg.renameEach ρ bs)) := by
  cases as with
  | nil =>
    simp only [Arg.renameEach, Arg.mostConcreteEach]
    exact .pure (by rw [Arg.renameEach])
  | cons a as =>
    cases bs with
    | nil =>
      simp only [Arg.renameEach, Arg.mostConcreteEach]
      exact .pure (by rw [Arg.renameEach])
    | cons b bs =>
      simp only [Arg.renameEach, Arg.mostConcreteEach]
      exact (Arg.follows_mostConcrete h hconcrete a b).bind fun c =>
        (Arg.follows_mostConcreteEach h hconcrete as bs).map fun cs => by rw [Arg.renameEach]
termination_by structural as

end

end

/-! ## Folds -/

namespace Resolver

variable {ρ : Renaming} (h : ρ.Orderly) (store : Store)

include h

/-- What is known of questions at some depth goes for making types concrete. -/
lemma follows_concreteWithin {depth : ℕ}
    (hresolve : ∀ position, Follows ρ (Option.map (Ty.rename ρ))
      (resolveWithin store depth position) (resolveWithin (store.rename ρ) depth position))
    (t : Ty) :
    Follows ρ (Ty.rename ρ) (concreteWithin store depth t)
      (concreteWithin (store.rename ρ) depth (t.rename ρ)) := by
  rw [concreteWithin, concreteWithin, concreteBy, concreteBy, Store.setOf_rename h]
  rcases store.setOf t with _ | r
  · exact .pure rfl
  · exact (hresolve r).map fun o => by cases o <;> rfl

/-- A fold follows if the questions on the way do. -/
lemma follows_foldWithin {depth : ℕ}
    (hresolve : ∀ position, Follows ρ (Option.map (Ty.rename ρ))
      (resolveWithin store depth position) (resolveWithin (store.rename ρ) depth position))
    (position : ℤ) :
    Follows ρ (Option.map (Ty.rename ρ)) (foldWithin store depth position)
      (foldWithin (store.rename ρ) depth position) := by
  rw [foldWithin, foldWithin, foldBy, foldBy, Store.members?_rename]
  rcases store.members? position with _ | _ | ⟨t, ts⟩
  · exact fun _ => rfl
  · exact fun _ => rfl
  · have hmerging := Ty.follows_mostConcrete h (follows_concreteWithin h store hresolve)
    refine (Follows.foldlM hmerging ts t).bind fun w s => ?_
    rw [run_modify_bind, run_modify_bind]
    exact congrArg (Prod.mk _) (remember_rename ρ s position (some w))

lemma follows_resolveWithin (depth : ℕ) (position : ℤ) :
    Follows ρ (Option.map (Ty.rename ρ)) (resolveWithin store depth position)
      (resolveWithin (store.rename ρ) depth position) := by
  induction depth generalizing position with
  | zero =>
    intro s
    have hmemo := get?_memo_rename ρ s position
    rcases hs : s.memo.get? position with _ | known
    · rw [hs] at hmemo
      rw [resolveWithin_zero_of_unasked hs, resolveWithin_zero_of_unasked hmemo]
      rfl
    · rw [hs] at hmemo
      rw [resolveWithin_of_asked hs, resolveWithin_of_asked hmemo]
      rfl
  | succ depth ih =>
    intro s
    have hmemo := get?_memo_rename ρ s position
    rcases hs : s.memo.get? position with _ | known
    · rw [hs] at hmemo
      -- the placeholder of the renamed resolver is the renamed placeholder
      have hbegun : (s.rename ρ).remember position none = (s.remember position none).rename ρ :=
        remember_rename ρ s position none
      rw [resolveWithin_of_unasked hs, resolveWithin_of_unasked hmemo, hbegun]
      exact follows_foldWithin h store ih position (s.remember position none)
    · rw [hs] at hmemo
      rw [resolveWithin_of_asked hs, resolveWithin_of_asked hmemo]
      rfl

lemma follows_resolve (position : ℤ) :
    Follows ρ (Option.map (Ty.rename ρ)) (resolve store position)
      (resolve (store.rename ρ) position) := by
  rw [resolve, resolve, Store.length_sets_rename]
  exact follows_resolveWithin h store _ position

lemma follows_concrete (t : Ty) :
    Follows ρ (Ty.rename ρ) (concrete store t) (concrete (store.rename ρ) (t.rename ρ)) := by
  rw [concrete_eq, concrete_eq, Store.length_sets_rename]
  exact follows_concreteWithin h store (follows_resolveWithin h store _) t

end Resolver

/-! ## Settling -/

section

variable {ρ : Renaming} {setOf setOf' : Ty → Option ℕ} {expand expand' : ℕ → Ty → Resolving Ty}

/-- Sets and expansions of renamed types. -/
structure Resolving.Expanding (ρ : Renaming) (setOf setOf' : Ty → Option ℕ)
    (expand expand' : ℕ → Ty → Resolving Ty) : Prop where
  setOf : ∀ t, setOf' (t.rename ρ) = setOf t
  expand : ∀ r t, Follows ρ (Ty.rename ρ) (expand r t) (expand' r (t.rename ρ))

namespace Resolving.Expanding

lemma settlePart (h : Expanding ρ setOf setOf' expand expand') {t : Ty}
    (ht : Follows ρ (Ty.rename ρ) (t.settleParts setOf expand)
      ((t.rename ρ).settleParts setOf' expand')) :
    Follows ρ (Ty.rename ρ) (t.settlePart setOf expand)
      ((t.rename ρ).settlePart setOf' expand') := by
  rw [Ty.settlePart, Ty.settlePart, h.setOf]
  rcases setOf t with _ | r
  · exact ht
  · exact h.expand r t

mutual

/-- Settling a renamed type settles it as the type is settled, renamed. -/
lemma settleParts (h : Expanding ρ setOf setOf' expand expand') (t : Ty) :
    Follows ρ (Ty.rename ρ) (t.settleParts setOf expand)
      ((t.rename ρ).settleParts setOf' expand') := by
  cases t with
  | tuple ts =>
    simp only [Ty.rename, Ty.settleParts]
    exact (h.settleEach ts).map fun us => by rw [Ty.rename]
  | ref access t l =>
    rw [Ty.rename, Ty.settleParts_ref, Ty.settleParts_ref]
    exact (h.settlePart (h.settleParts t)).map fun u => by rw [Ty.rename]
  | dyn bs =>
    simp only [Ty.rename, Ty.settleParts]
    exact (h.settleBounds bs).map fun cs => by rw [Ty.rename]
  | path p =>
    simp only [Ty.rename, Ty.settleParts]
    exact (h.settlePath p).map fun q => by rw [Ty.rename]
  | infer | str | deref _ | data _ _ _ | param _ =>
    simp only [Ty.rename, Ty.settleParts]
    exact .pure (by rw [Ty.rename])
termination_by structural t

lemma settleEach (h : Expanding ρ setOf setOf' expand expand') (ts : List Ty) :
    Follows ρ (Ty.renameEach ρ) (Ty.settleEach setOf expand ts)
      (Ty.settleEach setOf' expand' (Ty.renameEach ρ ts)) := by
  cases ts with
  | nil =>
    simp only [Ty.renameEach, Ty.settleEach]
    exact .pure (by rw [Ty.renameEach])
  | cons t ts =>
    rw [Ty.renameEach, Ty.settleEach_cons, Ty.settleEach_cons]
    exact (h.settlePart (h.settleParts t)).bind fun u =>
      (h.settleEach ts).map fun us => by rw [Ty.renameEach]
termination_by structural ts

lemma settlePath (h : Expanding ρ setOf setOf' expand expand') (p : Path) :
    Follows ρ (Path.rename ρ) (p.settle setOf expand) ((p.rename ρ).settle setOf' expand') := by
  obtain ⟨isGlobal, init, last⟩ := p
  rw [Path.rename, Path.settle, Path.settle]
  exact (h.settleSegments init).bind fun ss =>
    (h.settleSegment last).map fun s => by rw [Path.rename]
termination_by structural p

lemma settleSegment (h : Expanding ρ setOf setOf' expand expand') (s : Segment) :
    Follows ρ (Segment.rename ρ) (s.settle setOf expand)
      ((s.rename ρ).settle setOf' expand') := by
  obtain ⟨name, args⟩ := s
  rw [Segment.rename, Segment.settle, Segment.settle]
  exact (h.settleArgs args).map fun as => by rw [Segment.rename]
termination_by structural s

lemma settleSegments (h : Expanding ρ setOf setOf' expand expand') (ss : List Segment) :
    Follows ρ (Segment.renameEach ρ) (Segment.settleEach setOf expand ss)
      (Segment.settleEach setOf' expand' (Segment.renameEach ρ ss)) := by
  cases ss with
  | nil =>
    simp only [Segment.renameEach, Segment.settleEach]
    exact .pure (by rw [Segment.renameEach])
  | cons s ss =>
    simp only [Segment.renameEach, Segment.settleEach]
    exact (h.settleSegment s).bind fun u =>
      (h.settleSegments ss).map fun us => by rw [Segment.renameEach]
termination_by structural ss

lemma settleArgs (h : Expanding ρ setOf setOf' expand expand') (as : Args) :
    Follows ρ (Args.rename ρ) (as.settle setOf expand) ((as.rename ρ).settle setOf' expand') := by
  cases as with
  | angle as =>
    rw [Args.rename, Args.settle, Args.settle]
    exact (h.settleArgEach as).map fun bs => by rw [Args.rename]
  | none | paren _ _ =>
    simp only [Args.rename, Args.settle]
    exact .pure (by rw [Args.rename])
termination_by structural as

lemma settleArgEach (h : Expanding ρ setOf setOf' expand expand') (as : List Arg) :
    Follows ρ (Arg.renameEach ρ) (Arg.settleEach setOf expand as)
      (Arg.settleEach setOf' expand' (Arg.renameEach ρ as)) := by
  cases as with
  | nil =>
    simp only [Arg.renameEach, Arg.settleEach]
    exact .pure (by rw [Arg.renameEach])
  | cons a as =>
    cases a with
    | type t =>
      rw [Arg.renameEach, Arg.rename, Arg.settleEach_cons_type, Arg.settleEach_cons_type]
      exact (h.settlePart (h.settleParts t)).bind fun u =>
        (h.settleArgEach as).map fun us => by rw [Arg.renameEach, Arg.rename]
    | lifetime l =>
      simp only [Arg.renameEach, Arg.rename, Arg.settleEach]
      exact (h.settleArgEach as).map fun us => by rw [Arg.renameEach, Arg.rename]
termination_by structural as

lemma settleBound (h : Expanding ρ setOf setOf' expand expand') (b : Bound) :
    Follows ρ (Bound.rename ρ) (b.settle setOf expand) ((b.rename ρ).settle setOf' expand') := by
  cases b with
  | trait p binder =>
    rw [Bound.rename, Bound.settle, Bound.settle]
    exact (h.settlePath p).map fun q => by rw [Bound.rename]
  | outlives l =>
    simp only [Bound.rename, Bound.settle]
    exact .pure (by rw [Bound.rename])
termination_by structural b

lemma settleBounds (h : Expanding ρ setOf setOf' expand expand') (bs : List Bound) :
    Follows ρ (Bound.renameEach ρ) (Bound.settleEach setOf expand bs)
      (Bound.settleEach setOf' expand' (Bound.renameEach ρ bs)) := by
  cases bs with
  | nil =>
    simp only [Bound.renameEach, Bound.settleEach]
    exact .pure (by rw [Bound.renameEach])
  | cons b bs =>
    simp only [Bound.renameEach, Bound.settleEach]
    exact (h.settleBound b).bind fun c =>
      (h.settleBounds bs).map fun cs => by rw [Bound.renameEach]
termination_by structural bs

end

end Resolving.Expanding

end

namespace Resolver

variable {ρ : Renaming} (h : ρ.Orderly) (store : Store)

include h

lemma follows_expandWithin (depth r : ℕ) (t : Ty) :
    Follows ρ (Ty.rename ρ) (expandWithin store depth r t)
      (expandWithin (store.rename ρ) depth r (t.rename ρ)) := by
  induction depth generalizing r t with
  | zero =>
    intro s
    rw [expandWithin.eq_def, expandWithin.eq_def, run_get_bind, run_get_bind]
    have hsettling : (s.rename ρ).settling = s.settling := rfl
    rw [hsettling]
    split_ifs <;> rfl
  | succ depth ih =>
    intro s
    rw [expandWithin.eq_def, expandWithin.eq_def, run_get_bind, run_get_bind]
    have hsettling : (s.rename ρ).settling = s.settling := rfl
    rw [hsettling]
    split_ifs
    · rfl
    · have hexpanding : Expanding ρ store.setOf (store.rename ρ).setOf (expandWithin store depth)
          (expandWithin (store.rename ρ) depth) := ⟨store.setOf_rename h, ih⟩
      have hinside := (follows_concrete h store t).bind fun w => hexpanding.settleParts w
      exact hinside.whileSettling r s

lemma expanding_expand :
    Expanding ρ store.setOf (store.rename ρ).setOf (expand store) (expand (store.rename ρ)) where
  setOf := store.setOf_rename h
  expand r t := by
    rw [expand, expand, Store.length_sets_rename]
    exact follows_expandWithin h store _ r t

lemma follows_settle (t : Ty) :
    Follows ρ (Ty.rename ρ) (settle store t) (settle (store.rename ρ) (t.rename ρ)) :=
  (expanding_expand h store).settlePart ((expanding_expand h store).settleParts t)

lemma follows_settleBound (b : Bound) :
    Follows ρ (Bound.rename ρ) (settleBound store b)
      (settleBound (store.rename ρ) (b.rename ρ)) :=
  (expanding_expand h store).settleBound b

end Resolver

end WhereClause
