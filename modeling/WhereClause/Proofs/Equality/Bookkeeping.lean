import Mathlib.Data.Int.Notation
import WhereClause.Proofs.Equality.Operations

/-!
# What holds of a store in either mode

A store in which only one type at a time moves between sets is not coherent: a type stays listed in
the set that it left.  Two things hold all the same.  The set that the index names for a type lists
that type (`Store.Listed`), so no set that is ever asked for is empty.  And every origin has a
number of its own (`Store.Dated`), so of several types that have origins it is settled which came
last.
-/

namespace WhereClause

namespace Store

/-! ## Types are listed where the index says -/

/-- The set of a type lists the type. -/
def Listed (s : Store) : Prop := ∀ t r, s.setOf t = some r → (s.members r).contains t = true

lemma listed_empty (mode : MergeMode) : (empty mode).Listed := nofun

lemma Coherent.listed {s : Store} (h : s.Coherent) : s.Listed := fun _ _ => h.contains_members

namespace Listed

variable {s : Store}

lemma lt_length (h : s.Listed) {t : Ty} {r : ℕ} (ht : s.setOf t = some r) : r < s.sets.length :=
  lt_length_of_contains (h t r ht)

/-- The set of a type has a first member. -/
lemma exists_members? (h : s.Listed) {t : Ty} {r : ℕ} (ht : s.setOf t = some r) :
    ∃ u us, s.members? (r : ℤ) = some (u :: us) ∧ s.members r = u :: us := by
  rcases hm : s.members r with _ | ⟨u, us⟩
  · have hin := h t r ht
    simp [hm] at hin
  · exact ⟨u, us, members?_of_members hm, rfl⟩

lemma add (h : s.Listed) (t : Ty) {r : ℕ} (hr : r < s.sets.length) : (s.add t r).Listed := by
  intro u q hu
  rw [setOf_add] at hu
  rw [members_add s t r q hr]
  split_ifs at hu with htu
  · obtain rfl : r = q := Option.some.inj hu
    rw [if_pos rfl, Distinct.contains_add, BEq.symm htu, Bool.or_true]
  · split_ifs with hq
    · subst hq
      rw [Distinct.contains_add, h u r hu, Bool.true_or]
    · exact h u q hu

lemma newSet (h : s.Listed) (ts : List Ty) : (s.newSet ts).1.Listed := by
  intro u q hu
  rw [setOf_newSet] at hu
  rw [members_newSet]
  split_ifs at hu with hin
  · rw [if_pos (Option.some.inj hu), Distinct.contains_ofList, hin]
  · rw [if_neg (Nat.ne_of_gt (h.lt_length hu))]
    exact h u q hu

lemma absorb (h : s.Listed) {source target : ℕ} (ht : target < s.sets.length)
    (hne : source ≠ target) : (s.absorb source target).Listed := by
  intro u q hu
  rw [setOf_absorb] at hu
  rw [members_absorb s ht hne]
  split_ifs at hu with hin
  · rw [if_pos (Option.some.inj hu), Distinct.contains_foldl_add, hin, Bool.or_true]
  · split_ifs with htq hsq
    · subst htq
      rw [Distinct.contains_foldl_add, h u target hu, Bool.true_or]
    · subst hsq
      exact absurd (h u source hu) hin
    · exact h u q hu

lemma merge (h : s.Listed) (a b : Ty) : (s.merge a b).Listed := by
  rw [Store.merge, plan]
  rcases ha : s.setOf a with _ | r <;> rcases hb : s.setOf b with _ | q
  · exact h.newSet [a, b]
  · exact h.add a (h.lt_length hb)
  · exact h.add b (h.lt_length ha)
  · dsimp only
    by_cases hrq : r = q
    · rw [if_pos hrq]
      exact h
    · rw [if_neg hrq]
      cases s.mode with
      | legacy => exact h.add b (h.lt_length ha)
      | union =>
        dsimp only
        split_ifs
        · exact h.absorb (h.lt_length hb) hrq
        · exact h.absorb (h.lt_length ha) (Ne.symm hrq)

end Listed

/-! ## Types join sets one by one -/

lemma contains_add (s : Store) (t : Ty) (r : ℕ) (u : Ty) :
    (s.add t r).contains u = (s.contains u || u == t) := by
  rw [contains, setOf_add, BEq.comm]
  cases u == t with
  | true => simp
  | false => simp [contains]

/-- A type joins a set, or the lists of members change and nothing else does. -/
inductive Join (s : Store) : Store → Prop
  | add (t : Ty) (r : ℕ) : Join s (s.add t r)
  | relist (sets : List (List Ty)) : Join s { s with sets }

/-- Types join sets, one after the other. -/
abbrev Joins : Store → Store → Prop := Relation.ReflTransGen Join

lemma joins_addAll (s : Store) (ts : List Ty) (r : ℕ) : Joins s (s.addAll ts r) := by
  induction ts generalizing s with
  | nil => exact .refl
  | cons t ts ih => exact .head (.add t r) (ih (s.add t r))

lemma joins_newSet (s : Store) (ts : List Ty) : Joins s (s.newSet ts).1 :=
  .head (.relist _) (joins_addAll _ ts _)

lemma joins_merge (s : Store) (a b : Ty) : Joins s (s.merge a b) := by
  rw [Store.merge]
  cases s.plan a b with
  | found a b => exact joins_newSet s [a, b]
  | join t r => exact .single (.add t r)
  | fold source target => exact .head (.relist _) (joins_addAll _ _ target)
  | nothing => exact .refl

/-! ## Origins are numbered -/

/-- With a call in force, a type that joins a set and has no origin gets one; otherwise the origins
are left alone. -/
lemma origins_add (s : Store) (t : Ty) (r : ℕ) :
    (s.add t r).origins = s.origins ∧ (s.current = none ∨ ∃ o, s.originOf t = some o) ∨
      s.originOf t = none ∧ ∃ c, s.current = some c ∧
        (s.add t r).origins = s.origins.insert t ⟨s.origins.size, c.1, c.2⟩ := by
  have horigins : (s.add t r).origins = s.originsWith t := rfl
  rw [horigins, originsWith]
  rcases s.current with _ | ⟨function, site⟩
  · exact .inl ⟨rfl, .inl rfl⟩
  · dsimp only
    rw [Table.contains, originOf]
    rcases s.origins.get? t with _ | o
    · exact .inr ⟨rfl, _, rfl, rfl⟩
    · exact .inl ⟨rfl, .inr ⟨o, rfl⟩⟩

lemma originOf_congr {t u : Ty} (h : (t == u) = true) (s : Store) : s.originOf t = s.originOf u :=
  Table.get?_congr h s.origins

/-- A type that joins a set is put down to the call in force, unless it has an origin. -/
lemma originOf_add (s : Store) (t u : Ty) (r : ℕ) : (s.add t r).originOf u =
    if (t == u) = true ∧ s.originOf u = none then
      s.current.map fun c => ⟨s.origins.size, c.1, c.2⟩
    else s.originOf u := by
  have hequal : (t == u) = true → s.originOf u = s.originOf t := fun htu =>
    originOf_congr (BEq.symm htu) s
  rcases s.origins_add t r with ⟨hsame, hknown⟩ | ⟨hnone, c, hcurrent, hadded⟩
  · have hkept : (s.add t r).originOf u = s.originOf u := by rw [originOf, hsame, originOf]
    rw [hkept]
    split_ifs with hnew
    · rcases hknown with hcurrent | ⟨o, ho⟩
      · rw [hcurrent, hnew.2, Option.map_none]
      · rw [hequal hnew.1, ho] at hnew
        cases hnew.2
    · rfl
  · rw [originOf, hadded, Table.get?_insert, hcurrent, Option.map_some]
    by_cases htu : (t == u) = true
    · rw [if_pos htu, if_pos ⟨htu, (hequal htu).trans hnone⟩]
    · rw [if_neg htu, if_neg fun h => htu h.1, originOf]

/-- Every origin has a number of its own. -/
structure Dated (s : Store) : Prop where
  serial_lt : ∀ t o, s.originOf t = some o → o.serial < s.origins.size
  beq_of_serial : ∀ t u o o', s.originOf t = some o → s.originOf u = some o' →
    o.serial = o'.serial → (t == u) = true

lemma dated_empty (mode : MergeMode) : (empty mode).Dated := ⟨nofun, nofun⟩

namespace Dated

variable {s : Store}

lemma of_origins_eq (h : s.Dated) {s' : Store} (hsame : s'.origins = s.origins) : s'.Dated := by
  have horigin : ∀ t, s'.originOf t = s.originOf t := fun t => by rw [originOf, hsame, originOf]
  refine ⟨fun t o => ?_, fun t u o o' => ?_⟩
  · rw [horigin, hsame]
    exact h.serial_lt t o
  · rw [horigin, horigin]
    exact h.beq_of_serial t u o o'

/-- A type that joins a set keeps its origin, or gets a number higher than any. -/
lemma add (h : s.Dated) (t : Ty) (r : ℕ) : (s.add t r).Dated := by
  rcases s.origins_add t r with ⟨hsame, -⟩ | ⟨hnone, c, -, hadded⟩
  · exact h.of_origins_eq hsame
  · have hsize := Table.size_insert_of_get?_eq_none hnone (⟨s.origins.size, c.1, c.2⟩ : Origin)
    -- an origin is the new one, of `t`, or an old one, with a lower number
    have hcases : ∀ u o, (s.add t r).originOf u = some o →
        (t == u) = true ∧ o.serial = s.origins.size ∨
          s.originOf u = some o ∧ o.serial < s.origins.size := by
      intro u o ho
      rw [originOf, hadded, Table.get?_insert] at ho
      split_ifs at ho with htu
      · obtain rfl := Option.some.inj ho
        exact .inl ⟨htu, rfl⟩
      · exact .inr ⟨ho, h.serial_lt u o ho⟩
    refine ⟨fun u o ho => ?_, fun u v o o' ho ho' hserial => ?_⟩
    · rw [hadded, hsize]
      rcases hcases u o ho with ⟨-, hnew⟩ | ⟨-, hold⟩
      · omega
      · omega
    · rcases hcases u o ho with ⟨htu, hu⟩ | ⟨hu, hlt⟩ <;>
        rcases hcases v o' ho' with ⟨htv, hv⟩ | ⟨hv, hlt'⟩
      · exact BEq.trans (BEq.symm htu) htv
      · omega
      · omega
      · exact h.beq_of_serial u v o o' hu hv hserial

end Dated

lemma Joins.dated {s s' : Store} (h : Joins s s') (hs : s.Dated) : s'.Dated := by
  induction h with
  | refl => exact hs
  | tail _ hlast ih =>
    cases hlast with
    | add t r => exact ih.add t r
    | relist sets => exact ih.of_origins_eq rfl

/-! ## Both last -/

namespace Evolves

variable {s s' : Store}

lemma listed (h : Evolves s s') (hs : s.Listed) : s'.Listed := by
  induction h with
  | refl => exact hs
  | tail _ hlast ih =>
    cases hlast with
    | merge a b => exact ih.merge a b
    | found ts _ => exact ih.newSet ts
    | turn current => exact ih

lemma dated (h : Evolves s s') (hs : s.Dated) : s'.Dated := by
  induction h with
  | refl => exact hs
  | tail _ hlast ih =>
    cases hlast with
    | merge a b => exact (joins_merge _ a b).dated ih
    | found ts _ => exact (joins_newSet _ ts).dated ih
    | turn current => exact ih.of_origins_eq rfl

end Evolves

/-! ## Parameters that get sets of their own -/

/-- Parameters without a set are given sets of their own, one after the other. -/
abbrev Grows : Store → Store → Prop :=
  Relation.ReflTransGen fun s s' => ∃ p : Param, s' = (s.ensure (.param p)).1

namespace Grows

variable {s s' : Store}

lemma ensure (s : Store) (p : Param) : Grows s (s.ensure (.param p)).1 := .single ⟨p, rfl⟩

lemma evolves (h : Grows s s') : Evolves s s' := by
  induction h with
  | refl => exact .refl
  | @tail s₁ _ _ hlast ih =>
    obtain ⟨p, rfl⟩ := hlast
    rw [Store.ensure]
    rcases hp : s₁.setOf (.param p) with _ | r
    · exact ih.trans (.single (.found s₁ [.param p] (by simpa using hp)))
    · exact ih

lemma setOf (h : Grows s s') {t : Ty} {r : ℕ} (ht : s.setOf t = some r) :
    s'.setOf t = some r := by
  induction h with
  | refl => exact ht
  | tail _ hlast ih =>
    obtain ⟨p, rfl⟩ := hlast
    exact setOf_ensure_of_some ih

lemma coherent (h : Grows s s') (hs : s.Coherent) : s'.Coherent := by
  induction h with
  | refl => exact hs
  | tail _ hlast ih =>
    obtain ⟨p, rfl⟩ := hlast
    exact ih.ensure _

lemma linked_iff (h : Grows s s') (hs : s.Coherent) (t u : Ty) :
    s'.Linked t u ↔ s.Linked t u := by
  induction h with
  | refl => rfl
  | tail hfirst hlast ih =>
    obtain ⟨p, rfl⟩ := hlast
    rw [linked_ensure_iff (Grows.coherent hfirst hs), ih]

end Grows

/-- The sets that a store has gained are of one parameter each, which had no set before.  Whatever is
equal to none of these parameters is where it was. -/
structure Gains (s : Store) (news : List Param) (s' : Store) : Prop where
  mode : s'.mode = s.mode
  current : s'.current = s.current
  sets : s'.sets = s.sets ++ news.map fun p => [.param p]
  fresh : ∀ p ∈ news, s.setOf (.param p) = none
  setOf_new : ∀ k p, news[k]? = some p → s'.setOf (.param p) = some (s.sets.length + k)
  setOf_old : ∀ t, (∀ p ∈ news, (Ty.param p == t) = false) → s'.setOf t = s.setOf t
  originOf : ∀ t, (∀ p ∈ news, (Ty.param p == t) = false) → s'.originOf t = s.originOf t

namespace Gains

variable {s s' : Store} {news : List Param}

lemma refl (s : Store) : Gains s [] s :=
  ⟨rfl, rfl, (List.append_nil _).symm, nofun, nofun, fun _ _ => rfl, fun _ _ => rfl⟩

/-- One more parameter without a set is given one. -/
lemma newSet (h : Gains s news s') {p : Param} (hp : s'.setOf (.param p) = none) :
    Gains s (news ++ [p]) (s'.newSet [.param p]).1 := by
  have hsetOf : ∀ t, (s'.newSet [.param p]).1.setOf t =
      if (Ty.param p == t) = true then some s'.sets.length else s'.setOf t := by
    intro t
    rw [setOf_newSet, List.contains_cons, List.contains_nil, Bool.or_false, BEq.comm]
  have hapart : ∀ q ∈ news, (Ty.param q == Ty.param p) = false := by
    intro q hq
    obtain ⟨k, hk⟩ := List.getElem?_of_mem hq
    rw [← Bool.not_eq_true]
    intro hqp
    rw [← setOf_congr hqp, h.setOf_new k q hk] at hp
    cases hp
  have hlength : s'.sets.length = s.sets.length + news.length := by
    rw [h.sets, List.length_append, List.length_map]
  refine ⟨h.mode, h.current, ?_, ?_, fun k q hq => ?_, fun t ht => ?_, fun t ht => ?_⟩
  · have hopened : (s'.newSet [.param p]).1.sets = s'.sets ++ [[.param p]] := by
      show (s'.sets ++ [[]]).modify s'.sets.length (Distinct.add · (.param p)) = _
      rw [List.modify_eq_take_drop, List.take_left, List.drop_left]
      rfl
    rw [hopened, h.sets, List.map_append, List.append_assoc, List.map_singleton]
  · refine List.forall_mem_append.2 ⟨h.fresh, List.forall_mem_singleton.2 ?_⟩
    rw [← h.setOf_old _ hapart, hp]
  · rw [hsetOf]
    obtain hold | ⟨rfl, rfl⟩ := getElem?_concat_eq_some_iff.1 hq
    · have hqp : (Ty.param p == Ty.param q) = false := by
        rw [BEq.comm]
        exact hapart q (List.mem_of_getElem? hold)
      rw [hqp, if_neg Bool.false_ne_true, h.setOf_new k q hold]
    · rw [if_pos BEq.rfl, hlength]
  · obtain ⟨hold, hnew⟩ := List.forall_mem_append.1 ht
    rw [hsetOf, List.forall_mem_singleton.1 hnew, if_neg Bool.false_ne_true, h.setOf_old t hold]
  · obtain ⟨hold, hnew⟩ := List.forall_mem_append.1 ht
    have hadded : (s'.newSet [.param p]).1.originOf t = s'.originOf t := by
      refine (originOf_add _ _ _ _).trans (if_neg ?_)
      rw [List.forall_mem_singleton.1 hnew]
      exact fun h => Bool.false_ne_true h.1
    rw [hadded, h.originOf t hold]

end Gains

lemma Grows.gains {s s' : Store} (h : Grows s s') : ∃ news, Gains s news s' := by
  induction h with
  | refl => exact ⟨[], .refl s⟩
  | @tail s₁ _ _ hlast ih =>
    obtain ⟨p, rfl⟩ := hlast
    obtain ⟨news, hgains⟩ := ih
    rw [Store.ensure]
    rcases hp : s₁.setOf (.param p) with _ | r
    · exact ⟨news ++ [p], hgains.newSet hp⟩
    · exact ⟨news, hgains⟩

end Store

namespace Evidence

open Store

/-! ## Any operations -/

/-- Also a set that takes in types from other sets is listed right. -/
lemma listed_perform {e : Evidence} (h : e.store.Listed) (o : Operation) :
    (e.perform o).store.Listed := by
  cases o with
  | newSet ts => exact h.newSet ts
  | equate a b => exact (e.evolves_takeAll _).listed h
  | equateArgs p q => exact (e.evolves_takeAll _).listed h
  | ensure t => exact (evolves_perform (o := .ensure t) trivial).listed h
  | enter function site => exact h
  | leave => exact h
  | collect candidates => exact h

lemma listed_performAll {e : Evidence} (h : e.store.Listed) (os : List Operation) :
    (e.performAll os).store.Listed := by
  unfold performAll
  induction os generalizing e with
  | nil => exact h
  | cons o os ih => exact ih (listed_perform h o)

/-! ## Learning from calls -/

lemma evolves_learnCall (e : Evidence) (function : String) (c : Call) :
    Evolves e.store (e.learnCall function c).1.store := by
  have hentered : Evolves e.store (e.entered function c).store := .single (.turn _ _)
  have htaken := (e.entered function c).evolves_takeAll
    (Ty.alignEach c.callee.signature.inputs c.args).steps
  rw [learnCall_eq]
  rcases (Ty.alignEach c.callee.signature.inputs c.args).clash with _ | cause
  · exact hentered.trans htaken
  · exact hentered.trans htaken

lemma evolves_learnCalls (e : Evidence) (calls : List (String × Call)) :
    Evolves e.store (e.learnCalls calls).1.store := by
  induction calls generalizing e with
  | nil => exact .refl
  | cons call rest ih =>
    obtain ⟨function, c⟩ := call
    have hcall := e.evolves_learnCall function c
    rw [learnCalls]
    rcases hlearn : e.learnCall function c with ⟨e₁, _ | failure⟩
    · rw [hlearn] at hcall
      exact hcall.trans (ih e₁)
    · rw [hlearn] at hcall
      exact hcall

end Evidence

end WhereClause
