import Mathlib
import WhereClause.Malformed
import WhereClause.Proofs.Relevance.Consulting

/-!
# Which kind of type wins

Of the members of a set the string type wins over everything, a path over what is no path, and fewer
arguments over more, and where there is nothing but parameters the oldest wins
(`Resolver.resolve_wins`).  A fold need not stay within its set: a merged path can be of another
set, the representative of which it then becomes.  So this is an invariant of the memo
(`Resolver.Heeds`): members give way to what is remembered of their set (`Ty.GivesWayTo`), and what
gives way to a member gives way to that as well.
-/

namespace WhereClause

open Resolving

/-! ## Giving way -/

lemma Ty.isNamed_eq_false {t : Ty} (hstr : t ≠ .str) (hpath : ∀ p, t ≠ .path p) :
    t.isNamed = false := by
  cases t with
  | str => exact absurd rfl hstr
  | path p => exact absurd rfl (hpath p)
  | _ => rfl

/-- There are no more arguments than there were, and arguments in angle brackets stay in these. -/
def Args.NoMore : Args → Args → Prop
  | .none, _ => True
  | .angle as, .angle bs => as.length ≤ bs.length
  | .paren _ _, .paren _ _ => True
  | _, _ => False

namespace Args.NoMore

lemma refl (as : Args) : as.NoMore as := by
  cases as with
  | angle as => exact Nat.le_refl as.length
  | none | paren _ _ => exact trivial

lemma trans {as bs cs : Args} (h : as.NoMore bs) (h' : bs.NoMore cs) : as.NoMore cs := by
  cases as with
  | none => exact trivial
  | angle as =>
    cases bs with
    | none | paren _ _ => cases h
    | angle bs =>
      cases cs with
      | none | paren _ _ => cases h'
      | angle cs => exact Nat.le_trans h h'
  | paren _ _ =>
    cases bs with
    | none | angle _ => cases h
    | paren _ _ =>
      cases cs with
      | none | angle _ => cases h'
      | paren _ _ => exact trivial

lemma of_same {as bs : Args} (h : Args.same as bs = true) : as.NoMore bs := by
  cases as with
  | none => exact trivial
  | angle as =>
    cases bs with
    | none | paren _ _ => simp [Args.same] at h
    | angle bs =>
      rw [Args.same] at h
      have hlength := congrArg List.length ((Arg.sameEach_iff as bs).1 h)
      rw [Arg.renameEach_eq_map, Arg.renameEach_eq_map, List.length_map, List.length_map] at hlength
      exact Nat.le_of_eq hlength
  | paren _ _ =>
    cases bs with
    | none | angle _ => simp [Args.same] at h
    | paren _ _ => exact trivial

end Args.NoMore

/-- What is kept of the string type and of paths where another type stands for them. -/
structure Ty.GivesWayTo (u t : Ty) : Prop where
  str : u = .str → t = .str
  path : ∀ p, u = .path p → t = .str ∨ ∃ q, t = .path q ∧ q.last.args.NoMore p.last.args

namespace Ty.GivesWayTo

lemma refl (t : Ty) : t.GivesWayTo t := ⟨id, fun p hp => .inr ⟨p, hp, .refl p.last.args⟩⟩

lemma trans {t u v : Ty} (h : t.GivesWayTo u) (h' : u.GivesWayTo v) : t.GivesWayTo v where
  str := h'.str ∘ h.str
  path p hp := by
    rcases h.path p hp with hstr | ⟨q, hq, hargs⟩
    · exact .inl (h'.str hstr)
    · rcases h'.path q hq with hstr | ⟨r, hr, hargs'⟩
      · exact .inl hstr
      · exact .inr ⟨r, hr, hargs'.trans hargs⟩

/-- Everything gives way to the string type. -/
lemma to_str (t : Ty) : t.GivesWayTo .str := ⟨fun _ => rfl, fun _ _ => .inl rfl⟩

/-- What is neither the string type nor a path gives way to everything. -/
lemma of_not_named {u : Ty} (h : u.isNamed = false) (t : Ty) : u.GivesWayTo t where
  str hu := by rw [hu] at h; cases h
  path p hp := by rw [hp] at h; cases h

lemma of_noMore {p q : Path} (h : q.last.args.NoMore p.last.args) :
    (Ty.path p).GivesWayTo (.path q) where
  str := nofun
  path r hr := by
    obtain rfl := Ty.path.inj hr
    exact .inr ⟨q, rfl, h⟩

lemma of_beq {t u : Ty} (h : (t == u) = true) : t.GivesWayTo u := by
  have hsame : same t u = true := h
  cases t with
  | str =>
    cases u with
    | str => exact .refl .str
    | _ => simp [same] at hsame
  | path p =>
    cases u with
    | path q =>
      have hpath : Path.same q p = true := by
        rw [same] at hsame
        exact (Path.same_iff q p).2 ((Path.same_iff p q).1 hsame).symm
      obtain ⟨isGlobal, init, ⟨name, as⟩⟩ := p
      obtain ⟨isGlobal', init', ⟨name', bs⟩⟩ := q
      simp only [Path.same, Segment.same, Bool.and_eq_true] at hpath
      exact of_noMore (.of_same hpath.2.2)
    | _ => simp [same] at hsame
  | _ => exact of_not_named rfl u

end Ty.GivesWayTo

/-! ## Both of a pair give way -/

namespace Resolving

/-- From a resolver with an invariant, whenever the computation returns, it keeps the invariant and
the value has a property. -/
def ReturnsFrom (I : Resolver → Prop) {α : Type} (Q : α → Prop) (x : Resolving α) : Prop :=
  ∀ ⦃ρ a ρ'⦄, I ρ → x ρ = (.ok a, ρ') → I ρ' ∧ Q a

lemma ReturnsFrom.imp {I : Resolver → Prop} {α : Type} {Q P : α → Prop} {x : Resolving α}
    (h : ReturnsFrom I Q x) (himp : ∀ a, Q a → P a) : ReturnsFrom I P x :=
  fun _ a _ hρ hrun => ⟨(h hρ hrun).1, himp a (h hρ hrun).2⟩

lemma compositional_returnsFrom (I : Resolver → Prop) :
    Compositional fun _ Q x => ReturnsFrom I Q x where
  pure ha := by
    intro ρ b ρ' hρ hrun
    obtain ⟨rfl, rfl⟩ := pure_eq_ok_iff.1 hrun
    exact ⟨hρ, ha⟩
  bind hx hf := by
    intro ρ b ρ' hρ hrun
    obtain ⟨a, ρ₁, hfirst, hrest⟩ := bind_eq_ok_iff.1 hrun
    obtain ⟨hρ₁, ha⟩ := hx hρ hfirst
    exact hf a ha hρ₁ hrest
  failWith _ := by
    intro ρ a ρ' _ hrun
    cases congrArg Prod.fst hrun

section

variable {I : Resolver → Prop} {concrete : Ty → Resolving Ty}
  (h : ∀ t : Ty, ReturnsFrom I (fun w => t.GivesWayTo w) (concrete t))

include h

/-- Nothing is asked of the parts of a type. -/
lemma merging_returnsFrom : Merging (fun _ Q x => ReturnsFrom I Q x) (fun _ => True) concrete :=
  { compositional_returnsFrom I with
    concrete := fun t _ => (h t).imp fun _ _ _ _ => trivial }

lemma returnsFrom_mostConcreteArgs (as bs : List Arg) :
    ReturnsFrom I (fun cs => cs.length ≤ as.length ∧ cs.length ≤ bs.length)
      (Arg.mostConcreteEach concrete as bs) := by
  have hcompositional := compositional_returnsFrom I
  induction as generalizing bs with
  | nil =>
    rw [Arg.mostConcreteEach.eq_def]
    exact hcompositional.pure ⟨Nat.le_refl _, Nat.zero_le _⟩
  | cons a as ih =>
    cases bs with
    | nil =>
      rw [Arg.mostConcreteEach.eq_def]
      exact hcompositional.pure ⟨Nat.zero_le _, Nat.le_refl _⟩
    | cons b bs =>
      rw [Arg.mostConcreteEach]
      have hfirst := (merging_returnsFrom h).mostConcreteArg a b (fun _ _ => trivial)
        fun _ _ => trivial
      apply hcompositional.bind hfirst
      intro c _
      apply hcompositional.bind (ih bs)
      intro cs hcs
      exact hcompositional.pure ⟨Nat.succ_le_succ hcs.1, Nat.succ_le_succ hcs.2⟩

/-- Two paths give way to the more concrete of them. -/
lemma returnsFrom_mostConcretePath (p q : Path) :
    ReturnsFrom I (fun w => (Ty.path p).GivesWayTo w ∧ (Ty.path q).GivesWayTo w)
      (Path.mostConcrete concrete p q) := by
  have hcompositional := compositional_returnsFrom I
  obtain ⟨isGlobal, init, ⟨name, args⟩⟩ := p
  rw [Path.mostConcrete.eq_def]
  dsimp only
  split
  case h_1 => exact hcompositional.pure ⟨.refl _, .of_noMore trivial⟩
  case h_2 hargs =>
    refine hcompositional.pure ⟨.of_noMore ?_, .refl _⟩
    rw [hargs]
    exact trivial
  case h_3 as bs hargs =>
    split_ifs with hfewer hmore
    · -- the other path has more arguments, so it gives way to the first as well
      have hq : (Ty.path q).GivesWayTo (.path ⟨isGlobal, init, ⟨name, .angle as⟩⟩) := by
        apply Ty.GivesWayTo.of_noMore
        rw [hargs]
        exact Nat.le_of_lt hfewer
      exact (h _).imp fun w hw => ⟨hw, hq.trans hw⟩
    · have hp : (Ty.path ⟨isGlobal, init, ⟨name, .angle as⟩⟩).GivesWayTo (.path q) := by
        apply Ty.GivesWayTo.of_noMore
        rw [hargs]
        exact Nat.le_of_lt hmore
      exact (h _).imp fun w hw => ⟨hp.trans hw, hw⟩
    · apply hcompositional.bind (returnsFrom_mostConcreteArgs h as bs)
      intro merged hlength
      refine hcompositional.pure ⟨.of_noMore ?_, .of_noMore ?_⟩
      · rw [Path.args_withMergedArgs]
        exact hlength.1
      · rw [Path.args_withMergedArgs, hargs]
        exact hlength.2
  case h_4 => exact hcompositional.failWith (by simp [Cause.kind])

/-- Two types give way to the more concrete of them. -/
lemma returnsFrom_mostConcrete (a b : Ty) :
    ReturnsFrom I (fun w => a.GivesWayTo w ∧ b.GivesWayTo w) (Ty.mostConcrete concrete a b) := by
  have hcompositional := compositional_returnsFrom I
  have hmerging := merging_returnsFrom h
  -- a type that is neither the string type nor a path gives way to whatever the other becomes
  have hfirst (hb : b.isNamed = false) :
      ReturnsFrom I (fun w => a.GivesWayTo w ∧ b.GivesWayTo w) (concrete a) :=
    (h a).imp fun w hw => ⟨hw, .of_not_named hb w⟩
  have hsecond (ha : a.isNamed = false) :
      ReturnsFrom I (fun w => a.GivesWayTo w ∧ b.GivesWayTo w) (concrete b) :=
    (h b).imp fun w hw => ⟨.of_not_named ha w, hw⟩
  rw [Ty.mostConcrete.eq_def]
  split
  case isTrue heq =>
    exact (h a).imp fun w hw => ⟨hw, (Ty.GivesWayTo.of_beq (BEq.symm heq)).trans hw⟩
  case isFalse =>
    split
    case h_1 => exact hsecond rfl
    case h_2 => exact hfirst rfl
    case h_3 => exact hcompositional.pure ⟨.to_str _, .to_str _⟩
    case h_4 => exact hcompositional.pure ⟨.to_str _, .to_str _⟩
    case h_5 => exact returnsFrom_mostConcretePath h _ _
    case h_6 hstr hpath => exact hfirst (Ty.isNamed_eq_false hstr hpath)
    case h_7 hstr hpath _ => exact hsecond (Ty.isNamed_eq_false hstr hpath)
    case h_8 =>
      split
      · exact hcompositional.bind
          (hmerging.mostConcreteEach _ _ (fun _ _ => trivial) fun _ _ => trivial) fun _ _ =>
            hcompositional.pure ⟨.of_not_named rfl _, .of_not_named rfl _⟩
      · exact hcompositional.failWith (by simp [Cause.kind])
    case h_9 | h_10 =>
      exact hcompositional.bind
        (hmerging.mostConcrete _ _ (fun _ _ => trivial) fun _ _ => trivial) fun _ _ =>
          hcompositional.pure ⟨.of_not_named rfl _, .of_not_named rfl _⟩
    case h_11 => exact hsecond rfl
    case h_12 => exact hcompositional.pure ⟨.of_not_named rfl _, .of_not_named rfl _⟩
    case h_13 => exact hfirst rfl
    case h_14 => exact hcompositional.failWith (by simp [Cause.kind])

end

end Resolving

namespace Resolver

variable {store : Store}

/-! ## Members give way to what is remembered -/

/-- All members of a set give way to what is remembered of it. -/
def Heeds (store : Store) (ρ : Resolver) : Prop :=
  ∀ (r : ℕ) (t : Ty), ρ.memo.get? (r : ℤ) = some (some t) →
    r < store.sets.length ∧ ∀ u, (store.members r).contains u = true → u.GivesWayTo t

lemma Heeds.remember_none {ρ : Resolver} (h : Heeds store ρ) (position : ℤ) :
    Heeds store (ρ.remember position none) := by
  intro r t ht
  rw [get?_remember] at ht
  split_ifs at ht
  · cases ht
  · exact h r t ht

lemma Heeds.remember_some {ρ : Resolver} (h : Heeds store ρ) {position : ℤ} {w : Ty}
    (hw : ∀ r : ℕ, position = r →
      r < store.sets.length ∧ ∀ u, (store.members r).contains u = true → u.GivesWayTo w) :
    Heeds store (ρ.remember position (some w)) := by
  intro r t ht
  by_cases hr : position = r
  · rw [hr, get?_remember_self] at ht
    obtain rfl : w = t := by simpa using ht
    exact hw r hr
  · rw [get?_remember_of_ne hr] at ht
    exact h r t ht

/-- A type gives way to the most concrete form of it. -/
lemma returnsFrom_concreteWithin (hcoherent : store.Coherent) {depth : ℕ}
    (h : ∀ position, Keeps (Upholds (Heeds store)) (resolveWithin store depth position)) (t : Ty) :
    ReturnsFrom (Heeds store) (fun w => t.GivesWayTo w) (concreteWithin store depth t) := by
  intro ρ w ρ' hρ hrun
  rcases concreteWithin_returns hrun with ⟨-, rfl, rfl⟩ | ⟨r, _ | v, hset, hanswer, hw⟩
  · exact ⟨hρ, .refl w⟩
  · obtain rfl : w = t := hw
    exact ⟨h r hanswer hρ, .refl w⟩
  · obtain rfl : w = v := hw
    have hρ' := h r hanswer hρ
    have hmemo := get?_of_resolveWithin hanswer
    exact ⟨hρ', (hρ' r w hmemo).2 t (hcoherent.contains_members hset)⟩

/-- Types that are folded give way to what the fold comes to. -/
lemma returnsFrom_foldlM {concrete : Ty → Resolving Ty}
    (h : ∀ t : Ty, ReturnsFrom (Heeds store) (fun w => t.GivesWayTo w) (concrete t)) (ts : List Ty)
    (acc : Ty) :
    ReturnsFrom (Heeds store) (fun w => ∀ u ∈ acc :: ts, u.GivesWayTo w)
      (ts.foldlM (Ty.mostConcrete concrete) acc) := by
  induction ts generalizing acc with
  | nil =>
    exact (compositional_returnsFrom _).pure (List.forall_mem_singleton.2 (.refl acc))
  | cons t ts ih =>
    rw [List.foldlM_cons]
    apply (compositional_returnsFrom _).bind (returnsFrom_mostConcrete h acc t)
    intro next hnext
    apply (ih next).imp
    intro w hw
    obtain ⟨hnext_w, hts⟩ := List.forall_mem_cons.1 hw
    exact List.forall_mem_cons.2
      ⟨hnext.1.trans hnext_w, List.forall_mem_cons.2 ⟨hnext.2.trans hnext_w, hts⟩⟩

lemma steady_heeds (hcoherent : store.Coherent) : Steady store (Upholds (Heeds store)) where
  resolveWithin := by
    apply keeps_of_folds
    intro depth ih position ρ t ts w ρ₁ _ hmembers hfold hρ
    have hconcrete := returnsFrom_concreteWithin hcoherent ih
    obtain ⟨hρ₁, hgives⟩ := returnsFrom_foldlM hconcrete ts t (hρ.remember_none position) hfold
    apply hρ₁.remember_some
    rintro r rfl
    obtain ⟨hlt, hmembers'⟩ := Store.members_of_members? hmembers
    refine ⟨hlt, fun u hu => ?_⟩
    rw [hmembers'] at hu
    obtain ⟨v, hv, huv⟩ := List.contains_iff_exists_mem_beq.1 hu
    exact (Ty.GivesWayTo.of_beq huv).trans (hgives v hv)
  pop h := h

/-- A new set changes none that there was. -/
lemma Heeds.ensure {ρ : Resolver} (h : Heeds store ρ) (t : Ty) : Heeds (store.ensure t).1 ρ := by
  unfold Store.ensure
  rcases store.setOf t with _ | r
  · intro r u hu
    obtain ⟨hlt, hgives⟩ := h r u hu
    rw [Store.length_sets_newSet, Store.members_newSet, if_neg (Nat.ne_of_gt hlt)]
    exact ⟨Nat.lt_succ_of_lt hlt, hgives⟩
  · exact h

/-- In a history of questions and closures all members give way to what is remembered. -/
lemma heeds_of_moves {x y : Store × Resolver} (hmoves : Moves x y) (htrusty : Trusty x.1 x.2)
    (h : Heeds x.1 x.2) : Heeds y.1 y.2 := by
  induction hmoves with
  | refl => exact h
  | tail hbefore hlast ih =>
    have hcoherent := (htrusty.moves hbefore).coherent
    cases hlast with
    | answer q hask => exact (steady_heeds hcoherent).ask q hask ih
    | ensure store ρ t => exact ih.ensure t

end Resolver

/-! ## Winners -/

/-- What a type is that wins over the members of a set. -/
structure Ty.Wins (t : Ty) (ms : List Ty) : Prop where
  /-- The string type wins over everything. -/
  str : .str ∈ ms → t = .str
  /-- A path wins over everything but the string type. -/
  path : ∀ p, .path p ∈ ms → t = .str ∨ ∃ q, t = .path q
  /-- A path without arguments wins over those with arguments. -/
  bare : ∀ p q, .path p ∈ ms → p.last.args = .none → t = .path q → q.last.args = .none
  /-- Of paths with arguments in angle brackets none has fewer than the one that wins. -/
  fewest : (∃ p, .path p ∈ ms) → (∀ p, .path p ∈ ms → ∃ as, p.last.args = .angle as) →
    ∀ q, t = .path q → q.last.args = .none ∨ ∃ as, q.last.args = .angle as ∧
      ∀ p bs, .path p ∈ ms → p.last.args = .angle bs → as.length ≤ bs.length
  /-- Where all is parameters and placeholders, the oldest parameter wins. -/
  oldest : (∃ p, .param p ∈ ms) → (∀ u ∈ ms, u = .infer ∨ ∃ p, u = .param p) →
    ∃ p, t = .param p ∧ ms.contains (.param p) = true ∧ ∀ q, .param q ∈ ms → p.number ≤ q.number

lemma Args.NoMore.eq_none {as : Args} (h : as.NoMore .none) : as = .none := by
  cases as with
  | none => rfl
  | angle _ | paren _ _ => cases h

lemma Args.NoMore.none_or_angle {as : Args} {bs : List Arg} (h : as.NoMore (.angle bs)) :
    as = .none ∨ ∃ cs, as = .angle cs := by
  cases as with
  | none => exact .inl rfl
  | angle cs => exact .inr ⟨cs, rfl⟩
  | paren _ _ => cases h

/-- A type that stands for a set, and that all members give way to, wins. -/
lemma Ty.StandsFor.wins {t : Ty} {ms : List Ty} (h : t.StandsFor ms)
    (hgives : ∀ u ∈ ms, u.GivesWayTo t) : t.Wins ms where
  str hstr := (hgives _ hstr).str rfl
  path p hp := by
    rcases (hgives _ hp).path p rfl with hstr | ⟨q, hq, -⟩
    · exact .inl hstr
    · exact .inr ⟨q, hq⟩
  bare p q hp hargs hq := by
    rcases (hgives _ hp).path p rfl with hstr | ⟨q', hq', hmore⟩
    · rw [hstr] at hq
      cases hq
    · obtain rfl := Ty.path.inj (hq.symm.trans hq')
      rw [hargs] at hmore
      exact hmore.eq_none
  fewest hsome hangle q hq := by
    have hmore : ∀ p bs, .path p ∈ ms → p.last.args = .angle bs →
        q.last.args.NoMore (.angle bs) := by
      intro p bs hp hbs
      rcases (hgives _ hp).path p rfl with hstr | ⟨q', hq', hmore⟩
      · rw [hstr] at hq
        cases hq
      · obtain rfl := Ty.path.inj (hq.symm.trans hq')
        rwa [hbs] at hmore
    obtain ⟨p, hp⟩ := hsome
    obtain ⟨bs, hbs⟩ := hangle p hp
    rcases (hmore p bs hp hbs).none_or_angle with hnone | ⟨as, has⟩
    · exact .inl hnone
    · rw [has] at hmore
      exact .inr ⟨as, has, fun p' bs' hp' hbs' => hmore p' bs' hp' hbs'⟩
  oldest hsome hall := by
    -- nothing is solid in the set, so what stands for it is a member
    have hvague : t.isSolid = false := by
      by_contra hsolid
      obtain ⟨u, hu, husolid⟩ := h.solid (by simpa using hsolid)
      rcases hall u hu with rfl | ⟨p, rfl⟩ <;> cases husolid
    obtain ⟨p, hp⟩ := hsome
    have hyields := h.yields (.param p) (List.contains_iff_exists_mem_beq.2 ⟨_, hp, BEq.rfl⟩)
    obtain ⟨q, rfl⟩ := hyields.exists_param hvague
    refine ⟨q, rfl, h.member hvague, fun o ho => ?_⟩
    exact h.oldest q rfl o (List.contains_iff_exists_mem_beq.2 ⟨_, ho, BEq.rfl⟩)

namespace Resolver

/-- Whatever types were found equal, in whatever order, and whatever a resolver was asked before,
what it answers for a set wins over the members. -/
theorem resolve_wins {os : List Operation} {e : Evidence} {store : Store} {ρ ρ' : Resolver}
    {r : ℕ} {o : Option Ty} (hbuilt : (Evidence.empty .union).Leads os e)
    (hused : Consulted e.store store ρ) (hrun : resolve store r ρ = (.ok o, ρ')) :
    ∃ t, o = some t ∧ t.Wins (store.members r) := by
  have hcoherent : e.store.Coherent := (hbuilt.evolves.sound Store.sound_empty).coherent
  have hfresh : Trusty e.store ∅ := .fresh hcoherent
  have hmove : Move (store, ρ) (store, ρ') :=
    .answer (.resolve r) (bind_eq_ok_iff.2 ⟨o, ρ', hrun, rfl⟩)
  have hmoves : Moves (e.store, ∅) (store, ρ') := hused.moves.tail hmove
  have htrusty : Trusty store ρ' := hfresh.moves hmoves
  have hheeds : Heeds store ρ' := heeds_of_moves hmoves hfresh nofun
  rcases o with _ | t
  · -- there is no answer only where a fold was broken off before
    have hρ : Trusty store ρ := hfresh.moves hused.moves
    rcases resolveWithin_returns hrun with ⟨hmemo, -⟩ | ⟨_, _, _, w, _, -, -, -, -, hw, -⟩
    · exact absurd hmemo (hρ.atRest.complete r)
    · cases hw
  · have hmemo := get?_of_resolveWithin hrun
    refine ⟨t, rfl, (htrusty.faithful r t hmemo).2.wins fun u hu => ?_⟩
    exact (hheeds r t hmemo).2 u (List.contains_iff_exists_mem_beq.2 ⟨u, hu, BEq.rfl⟩)

/-- Calls after which a parameter is a map, a box and a placeholder. -/
def boxingCalls : List Operation :=
  let x : Ty := .param ⟨2, "X"⟩
  [.equate x (.path (.ofName "Map" [.type (.param ⟨0, "K"⟩), .type (.param ⟨1, "V"⟩)])),
    .equate x (.path (.ofName "Box" [.type .infer])), .equate x .infer]

theorem resolve_wins_boxed :
    let e := (Evidence.empty .union).performAll boxingCalls
    let ρ := ((Query.settle (.ref .shared .infer none)).ask e.store ∅).2
    let box : Ty := .path (.ofName "Box" [.type .infer])
    (Evidence.empty .union).Leads boxingCalls e ∧ Consulted e.store e.store ρ ∧
      (∃ ρ', resolve e.store (0 : ℕ) ρ = (.ok (some box), ρ')) ∧ box.Wins (e.store.members 0) := by
  intro e ρ box
  have hbuilt : (Evidence.empty .union).Leads boxingCalls e :=
    .cons trivial (.cons trivial (.cons trivial (.nil _)))
  have hsettle : ((Query.settle (.ref .shared .infer none)).ask
      ((Evidence.empty .union).performAll boxingCalls).store ∅).1 = .ok () := by cbv
  have hused : Consulted e.store e.store ρ := .asked _ .fresh (Prod.ext hsettle rfl)
  have hbox : (resolve ((Evidence.empty .union).performAll boxingCalls).store (0 : ℕ)
      ((Query.settle (.ref .shared .infer none)).ask
        ((Evidence.empty .union).performAll boxingCalls).store ∅).2).1 =
      .ok (some (.path (.ofName "Box" [.type .infer]))) := by cbv
  have hrun : resolve e.store (0 : ℕ) ρ = (.ok (some box), (resolve e.store (0 : ℕ) ρ).2) :=
    Prod.ext hbox rfl
  obtain ⟨t, ht, hwins⟩ := resolve_wins hbuilt hused hrun
  obtain rfl := Option.some.inj ht
  exact ⟨hbuilt, hused, ⟨_, hrun⟩, hwins⟩

end Resolver

end WhereClause
