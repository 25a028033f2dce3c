import WhereClause.Equality.Store
import WhereClause.Proofs.Distinct
import WhereClause.Proofs.Table

/-!
# How types join sets

`Store.Coherent` is what ties the two halves of a store together: the index answers a set for a type
exactly if the set lists the type, and no set lists a type twice.  The index and the lists are
updated at different moments, and folding a set into another leaves them apart until its last
member has moved.  So the operations are first described as a whole, by what the index answers
afterwards (`setOf_addAll`, `setOf_absorb`) and what the sets list (`members_addAll`,
`members_absorb`), and that they keep the store coherent follows from these equations.

## What finding two types equal does

`Store.Linked` relates two types that are equal or belong to one set.  The result on which all
others about equality sets rest is `exists_gathers_merge`: after two types were found equal, exactly
the types linked to one of them are in one common set, and every other type is where it was.
-/

namespace WhereClause

/-- Parameters are one type if they have one number. -/
lemma Param.beq_ty_iff {p q : Param} :
    (Ty.param p == Ty.param q) = true ↔ p.number = q.number := by
  have hsame : (Ty.param p == Ty.param q) = (p.number == q.number) := by
    show Ty.same (.param p) (.param q) = _
    rw [Ty.same]
    rfl
  rw [hsame, beq_iff_eq]

namespace Store

open Distinct (Apart apart_nil apart_add apart_foldl_add apart_ofList contains_add ofList
  contains_foldl_add contains_ofList)

/-! ## What the operations show -/

lemma setOf_congr {t u : Ty} (h : (t == u) = true) (s : Store) : s.setOf t = s.setOf u :=
  Table.get?_congr h s.index

lemma contains_iff (s : Store) (t : Ty) : s.contains t = true ↔ ∃ r, s.setOf t = some r := by
  rw [contains, Option.isSome_iff_exists]

lemma contains_eq_false_iff (s : Store) (t : Ty) : s.contains t = false ↔ s.setOf t = none := by
  rw [contains, Option.isSome_eq_false_iff, Option.isNone_iff_eq_none]

lemma members_of_length_le {s : Store} {r : ℕ} (h : s.sets.length ≤ r) : s.members r = [] := by
  rw [members, List.getElem?_eq_none h, Option.getD_none]

/-- The members at a position are those of the set, if it is there. -/
lemma members_of_members? {s : Store} {r : ℕ} {ts : List Ty}
    (h : s.members? (r : Int) = some ts) : r < s.sets.length ∧ s.members r = ts := by
  have hset : s.sets[r]? = some ts := h
  refine ⟨(List.getElem?_eq_some_iff.1 hset).1, ?_⟩
  rw [members, hset, Option.getD_some]

lemma members?_of_members {s : Store} {r : ℕ} {t : Ty} {ts : List Ty}
    (h : s.members r = t :: ts) : s.members? (r : Int) = some (t :: ts) := by
  rw [members] at h
  show s.sets[r]? = some (t :: ts)
  rcases hset : s.sets[r]? with _ | us
  · rw [hset] at h
    cases h
  · rw [hset] at h
    exact congrArg some h

lemma lt_length_of_contains {s : Store} {r : ℕ} {t : Ty} (h : (s.members r).contains t = true) :
    r < s.sets.length := by
  by_contra hr
  rw [members_of_length_le (Nat.le_of_not_lt hr)] at h
  simp at h

@[simp] lemma addAll_nil (s : Store) (r : ℕ) : s.addAll [] r = s := rfl

@[simp] lemma addAll_cons (s : Store) (t : Ty) (ts : List Ty) (r : ℕ) :
    s.addAll (t :: ts) r = (s.add t r).addAll ts r := rfl

lemma setOf_addAll (s : Store) (ts : List Ty) (r : ℕ) (u : Ty) :
    (s.addAll ts r).setOf u = if ts.contains u then some r else s.setOf u := by
  induction ts generalizing s with
  | nil => simp
  | cons t ts ih =>
    rw [addAll_cons, ih, setOf_add, List.contains_cons]
    cases htu : u == t with
    | true => simp [BEq.symm htu]
    | false =>
      have hut : (t == u) = false := by rwa [BEq.comm]
      simp [hut]

lemma members_addAll (s : Store) (ts : List Ty) {r : ℕ} (hr : r < s.sets.length) (q : ℕ) :
    (s.addAll ts r).members q =
      if r = q then ts.foldl Distinct.add (s.members r) else s.members q := by
  induction ts generalizing s with
  | nil => by_cases h : r = q <;> simp [h]
  | cons t ts ih =>
    rw [addAll_cons, ih (s.add t r) (by simpa using hr), members_add s t r r hr,
      members_add s t r q hr]
    by_cases h : r = q <;> simp [h]

@[simp] lemma length_sets_newSet (s : Store) (ts : List Ty) :
    (s.newSet ts).1.sets.length = s.sets.length + 1 := by simp [newSet]

lemma setOf_newSet (s : Store) (ts : List Ty) (u : Ty) :
    (s.newSet ts).1.setOf u = if ts.contains u then some s.sets.length else s.setOf u := by
  rw [newSet, setOf_addAll]; rfl

lemma members_newSet (s : Store) (ts : List Ty) (q : ℕ) :
    (s.newSet ts).1.members q = if s.sets.length = q then ofList ts else s.members q := by
  have hopened : ∀ p, Store.members { s with sets := s.sets ++ [[]] } p = s.members p := by
    intro p
    simp only [members, List.getElem?_append]
    by_cases hp : p < s.sets.length
    · simp [hp]
    · rw [if_neg hp, List.getElem?_eq_none (Nat.le_of_not_lt hp)]
      cases p - s.sets.length <;> simp
  rw [newSet, members_addAll _ _ (by simp), hopened, hopened,
    members_of_length_le (Nat.le_refl s.sets.length)]
  rfl

lemma setOf_ensure (s : Store) (t u : Ty) : (s.ensure t).1.setOf u =
    if s.setOf t = none ∧ (u == t) = true then some s.sets.length else s.setOf u := by
  rw [ensure]
  rcases ht : s.setOf t with _ | r
  · dsimp only
    rw [setOf_newSet, List.contains_cons, List.contains_nil, Bool.or_false]
    simp
  · simp

lemma setOf_ensure_self (s : Store) (t : Ty) :
    (s.ensure t).1.setOf t = some (s.ensure t).2 := by
  rw [setOf_ensure, ensure]
  rcases s.setOf t with _ | r
  · simp [newSet]
  · simp

/-- A set that is new takes none of the types that were of a set. -/
lemma setOf_ensure_of_some {s : Store} {t u : Ty} {r : ℕ} (hu : s.setOf u = some r) :
    (s.ensure t).1.setOf u = some r := by
  have hne : ¬ (s.setOf t = none ∧ (u == t) = true) := by
    rintro ⟨ht, hut⟩
    rw [setOf_congr hut, ht] at hu
    cases hu
  rw [setOf_ensure, if_neg hne, hu]

lemma setOf_absorb (s : Store) (source target : ℕ) (u : Ty) :
    (s.absorb source target).setOf u =
      if (s.members source).contains u then some target else s.setOf u := by
  rw [absorb, setOf_addAll]; rfl

lemma members_absorb (s : Store) {source target : ℕ} (ht : target < s.sets.length)
    (hne : source ≠ target) (q : ℕ) :
    (s.absorb source target).members q =
      if target = q then (s.members source).foldl Distinct.add (s.members target)
      else if source = q then [] else s.members q := by
  have hemptied : ∀ p, Store.members { s with sets := s.sets.set source [] } p =
      if source = p then [] else s.members p := by
    intro p
    simp only [members, List.getElem?_set]
    by_cases hp : source = p
    · subst hp
      by_cases hs : source < s.sets.length <;> simp [hs]
    · simp [hp]
  rw [absorb, members_addAll _ _ (by simpa using ht), hemptied, hemptied, if_neg hne]

/-! ## The store is coherent -/

/-- The index and the lists of a store agree. -/
structure Coherent (s : Store) : Prop where
  /-- A type belongs to the set that lists it. -/
  setOf_iff : ∀ t r, s.setOf t = some r ↔ (s.members r).contains t = true
  /-- No set lists a type twice. -/
  apart : ∀ r, Apart (s.members r)

lemma coherent_empty (mode : MergeMode) : (empty mode).Coherent where
  setOf_iff t r := by
    rw [setOf_empty]
    simp [members, empty]
  apart r := by simp [members, empty]

namespace Coherent

variable {s : Store}

lemma contains_members (h : s.Coherent) {t : Ty} {r : ℕ} (hr : s.setOf t = some r) :
    (s.members r).contains t = true := (h.setOf_iff t r).1 hr

/-- A type is listed in its set, maybe in another spelling. -/
lemma exists_mem_of_setOf (h : s.Coherent) {t : Ty} {r : ℕ} (hr : s.setOf t = some r) :
    ∃ u ∈ s.members r, (t == u) = true :=
  List.contains_iff_exists_mem_beq.1 (h.contains_members hr)

lemma setOf_of_mem (h : s.Coherent) {t : Ty} {r : ℕ} (ht : t ∈ s.members r) :
    s.setOf t = some r := by
  have hin : (s.members r).contains t = true :=
    List.contains_iff_exists_mem_beq.2 ⟨t, ht, BEq.rfl⟩
  exact (h.setOf_iff t r).2 hin

lemma lt_length (h : s.Coherent) {t : Ty} {r : ℕ} (hr : s.setOf t = some r) :
    r < s.sets.length := lt_length_of_contains (h.contains_members hr)

/-- A set without members is the set of no type. -/
lemma members_eq_nil_iff (h : s.Coherent) (r : ℕ) :
    s.members r = [] ↔ ∀ t, s.setOf t ≠ some r := by
  constructor
  · intro hr t ht
    have hin := h.contains_members ht
    simp [hr] at hin
  · intro hr
    rcases hm : s.members r with _ | ⟨t, ts⟩
    · rfl
    · have hin : (s.members r).contains t = true := by simp [hm]
      exact absurd ((h.setOf_iff t r).2 hin) (hr t)

/-- A type without a set joins one. -/
lemma add (h : s.Coherent) {t : Ty} {r : ℕ} (hr : r < s.sets.length)
    (ht : s.setOf t = none) : (s.add t r).Coherent where
  setOf_iff u q := by
    rw [setOf_add, members_add s t r q hr]
    by_cases hq : r = q
    · subst hq
      rw [if_pos rfl, contains_add, Bool.or_eq_true, ← h.setOf_iff]
      cases htu : t == u with
      | true => simp [BEq.symm htu]
      | false =>
        have hut : (u == t) = false := by rwa [BEq.comm]
        simp [hut]
    · rw [if_neg hq, ← h.setOf_iff]
      cases htu : t == u with
      | true => simp [hq, setOf_congr (BEq.symm htu), ht]
      | false => simp
  apart q := by
    rw [members_add s t r q hr]
    by_cases hq : r = q
    · rw [if_pos hq]; exact apart_add (h.apart r) t
    · rw [if_neg hq]; exact h.apart q

/-- Types without a set found one. -/
lemma newSet (h : s.Coherent) {ts : List Ty} (hts : ∀ t ∈ ts, s.setOf t = none) :
    (s.newSet ts).1.Coherent where
  setOf_iff u q := by
    rw [setOf_newSet, members_newSet]
    cases hu : ts.contains u with
    | true =>
      obtain ⟨t, ht, hut⟩ := List.contains_iff_exists_mem_beq.1 hu
      have hnone : s.setOf u = none := by rw [setOf_congr hut, hts t ht]
      by_cases hq : s.sets.length = q
      · simpa [hq] using hu
      · simp [hq, ← h.setOf_iff, hnone]
    | false =>
      by_cases hq : s.sets.length = q
      · subst hq
        have hne : s.setOf u ≠ some s.sets.length := fun he =>
          absurd (h.lt_length he) (Nat.lt_irrefl _)
        simp [hne]
        simpa using hu
      · simp [hq, h.setOf_iff]
  apart q := by
    rw [members_newSet]
    by_cases hq : s.sets.length = q
    · rw [if_pos hq]; exact apart_ofList ts
    · rw [if_neg hq]; exact h.apart q

/-- A type is given a set if it has none. -/
lemma ensure (h : s.Coherent) (t : Ty) : (s.ensure t).1.Coherent := by
  unfold Store.ensure
  rcases ht : s.setOf t with _ | r
  · exact h.newSet (by simpa using ht)
  · exact h

/-- A set is folded into another. -/
lemma absorb (h : s.Coherent) {source target : ℕ} (ht : target < s.sets.length)
    (hne : source ≠ target) : (s.absorb source target).Coherent where
  setOf_iff u q := by
    rw [setOf_absorb, members_absorb s ht hne]
    cases hu : (s.members source).contains u with
    | true =>
      have hsource : s.setOf u = some source := (h.setOf_iff u source).2 hu
      by_cases hq : target = q
      · simp [hq]
        simpa using Or.inr hu
      · by_cases hs : source = q
        · simp [hs, hq]
        · simp [hs, hq, ← h.setOf_iff, hsource]
    | false =>
      have hsource : s.setOf u ≠ some source := fun he => by
        simp [h.contains_members he] at hu
      by_cases hq : target = q
      · subst hq
        rw [if_neg (by simp), if_pos rfl, contains_foldl_add, hu, Bool.or_false, h.setOf_iff]
      · by_cases hs : source = q
        · subst hs; simpa [hq] using hsource
        · simp [hs, hq, h.setOf_iff]
  apart q := by
    rw [members_absorb s ht hne]
    split_ifs
    · exact apart_foldl_add (h.apart target) _
    · exact apart_nil
    · exact h.apart q

end Coherent

/-! ## Linked types -/

/-- Two types are equal or belong to one set. -/
def Linked (s : Store) (t u : Ty) : Prop :=
  (t == u) = true ∨ ∃ r, s.setOf t = some r ∧ s.setOf u = some r

namespace Linked

variable {s : Store} {t u v : Ty}

lemma setOf_eq (h : s.Linked t u) : s.setOf t = s.setOf u := by
  rcases h with h | ⟨r, ht, hu⟩
  · exact setOf_congr h s
  · rw [ht, hu]

lemma of_setOf {r : ℕ} (ht : s.setOf t = some r) (hu : s.setOf u = some r) : s.Linked t u :=
  .inr ⟨r, ht, hu⟩

lemma refl (s : Store) (t : Ty) : s.Linked t t := .inl BEq.rfl

lemma symm (h : s.Linked t u) : s.Linked u t := by
  rcases h with h | ⟨r, ht, hu⟩
  · exact .inl (BEq.symm h)
  · exact .inr ⟨r, hu, ht⟩

lemma trans (h : s.Linked t u) (h' : s.Linked u v) : s.Linked t v := by
  rcases h with h | ⟨r, ht, hu⟩
  · rcases h' with h' | ⟨r, hu, hv⟩
    · exact .inl (BEq.trans h h')
    · exact .inr ⟨r, by rw [setOf_congr h, hu], hv⟩
  · exact .inr ⟨r, ht, by rw [← h'.setOf_eq, hu]⟩

/-- A type without a set is linked to nothing but itself. -/
lemma beq_of_setOf_eq_none (h : s.Linked t u) (hu : s.setOf u = none) : (t == u) = true := by
  rcases h with h | ⟨r, -, hr⟩
  · exact h
  · simp [hu] at hr

end Linked

/-- Types that get sets of their own are linked to nothing new. -/
lemma linked_ensure_iff {s : Store} (hs : s.Coherent) (t u w : Ty) :
    (s.ensure t).1.Linked u w ↔ s.Linked u w := by
  constructor
  · rintro (huw | ⟨r, hu, hw⟩)
    · exact .inl huw
    · rw [setOf_ensure] at hu hw
      split_ifs at hu hw with hut hwt hwt
      · exact .inl (BEq.trans hut.2 (BEq.symm hwt.2))
      · obtain rfl : s.sets.length = r := Option.some.inj hu
        exact absurd (hs.lt_length hw) (Nat.lt_irrefl _)
      · obtain rfl : s.sets.length = r := Option.some.inj hw
        exact absurd (hs.lt_length hu) (Nat.lt_irrefl _)
      · exact .of_setOf hu hw
  · rintro (huw | ⟨r, hu, hw⟩)
    · exact .inl huw
    · exact .of_setOf (setOf_ensure_of_some hu) (setOf_ensure_of_some hw)

/-! ## Finding two types equal -/

/-- The types of `P` come together in the set at `r`, which before held none but those, and all
other types stay where they are. -/
structure Gathers (s s' : Store) (P : Ty → Prop) (r : ℕ) : Prop where
  inside : ∀ t, P t → s'.setOf t = some r
  outside : ∀ t, ¬ P t → s'.setOf t = s.setOf t
  only : ∀ t, s.setOf t = some r → P t
  /-- The set is a new one or has members already. -/
  place : r = s.sets.length ∨ ∃ t, s.setOf t = some r

namespace Gathers

variable {s : Store} {a b : Ty}

lemma found (h : s.Coherent) (ha : s.setOf a = none) (hb : s.setOf b = none) :
    s.Gathers (s.newSet [a, b]).1 (fun t => s.Linked t a ∨ s.Linked t b) s.sets.length where
  inside t ht := by
    have hin : [a, b].contains t = true := by
      rcases ht with ht | ht
      · simp [ht.beq_of_setOf_eq_none ha]
      · simp [ht.beq_of_setOf_eq_none hb]
    rw [setOf_newSet, hin, if_pos rfl]
  outside t ht := by
    have hout : [a, b].contains t = false := by
      have hta : ¬ (t == a) = true := fun he => ht (.inl (.inl he))
      have htb : ¬ (t == b) = true := fun he => ht (.inr (.inl he))
      simp [hta, htb]
    rw [setOf_newSet, hout, if_neg (by decide)]
  only t ht := absurd (h.lt_length ht) (Nat.lt_irrefl _)
  place := .inl rfl

lemma join {t : Ty} {r : ℕ} (ht : s.setOf t = none) (ha : s.setOf a = some r) :
    s.Gathers (s.add t r) (fun u => s.Linked u a ∨ s.Linked u t) r where
  inside u hu := by
    rw [setOf_add]
    rcases hu with hu | hu
    · simp [hu.setOf_eq, ha]
    · simp [BEq.symm (hu.beq_of_setOf_eq_none ht)]
  outside u hu := by
    have hut : ¬ (t == u) = true := fun he => hu (.inr (.inl (BEq.symm he)))
    rw [setOf_add, if_neg hut]
  only u hu := .inl (.of_setOf hu ha)
  place := .inr ⟨a, ha⟩

lemma fold (h : s.Coherent) {source target : ℕ} (ha : s.setOf a = some source)
    (hb : s.setOf b = some target) :
    s.Gathers (s.absorb source target) (fun t => s.Linked t a ∨ s.Linked t b) target where
  inside t ht := by
    rw [setOf_absorb]
    rcases ht with ht | ht
    · rw [if_pos ((h.setOf_iff t source).1 (by rw [ht.setOf_eq, ha]))]
    · simp [ht.setOf_eq, hb]
  outside t ht := by
    have hout : ¬ (s.members source).contains t = true := fun hin =>
      ht (.inl (.of_setOf ((h.setOf_iff t source).2 hin) ha))
    rw [setOf_absorb, if_neg hout]
  only t ht := .inr (.of_setOf ht hb)
  place := .inr ⟨b, hb⟩

/-- It does not matter which of the two types is named first. -/
lemma swap {s' : Store} {r : ℕ} (h : s.Gathers s' (fun t => s.Linked t a ∨ s.Linked t b) r) :
    s.Gathers s' (fun t => s.Linked t b ∨ s.Linked t a) r where
  inside t ht := h.inside t ht.symm
  outside t ht := h.outside t fun ht' => ht ht'.symm
  only t ht := (h.only t ht).symm
  place := h.place

end Gathers

/-- Finding two types equal brings what is linked to either of them into one set, and keeps the
store coherent. -/
lemma exists_gathers_merge {s : Store} (h : s.Coherent) (hm : s.mode = .union) (a b : Ty) :
    (s.merge a b).Coherent ∧
      ∃ r, s.Gathers (s.merge a b) (fun t => s.Linked t a ∨ s.Linked t b) r := by
  rw [merge, plan, hm]
  rcases ha : s.setOf a with _ | r <;> rcases hb : s.setOf b with _ | q
  · have hnone : ∀ t ∈ [a, b], s.setOf t = none := by simp [ha, hb]
    exact ⟨h.newSet hnone, _, .found h ha hb⟩
  · exact ⟨h.add (h.lt_length hb) ha, _, (Gathers.join ha hb).swap⟩
  · exact ⟨h.add (h.lt_length ha) hb, _, .join hb ha⟩
  · by_cases hrq : r = q
    · subst hrq
      simp only [if_true]
      refine ⟨h, r, ?_, ?_, ?_, .inr ⟨a, ha⟩⟩
      · rintro t (ht | ht)
        · exact ht.setOf_eq.trans ha
        · exact ht.setOf_eq.trans hb
      · intro t _
        rfl
      · exact fun t ht => .inl (.of_setOf ht ha)
    · -- the smaller set is folded into the larger, so either may be the one that goes
      simp only [hrq, if_false]
      split_ifs
      · exact ⟨h.absorb (h.lt_length hb) hrq, _, .fold h ha hb⟩
      · exact ⟨h.absorb (h.lt_length ha) (Ne.symm hrq), _, (Gathers.fold h hb ha).swap⟩

@[simp] lemma mode_addAll (s : Store) (ts : List Ty) (r : ℕ) : (s.addAll ts r).mode = s.mode := by
  induction ts generalizing s with
  | nil => rfl
  | cons t ts ih => rw [addAll_cons, ih]; rfl

@[simp] lemma mode_newSet (s : Store) (ts : List Ty) : (s.newSet ts).1.mode = s.mode := by
  rw [newSet, mode_addAll]

@[simp] lemma mode_merge (s : Store) (a b : Ty) : (s.merge a b).mode = s.mode := by
  rw [merge]
  cases s.plan a b with
  | found a b => exact mode_newSet s [a, b]
  | join t r => rfl
  | fold source target => exact mode_addAll _ _ _
  | nothing => rfl

lemma Coherent.merge {s : Store} (h : s.Coherent) (hm : s.mode = .union) (a b : Ty) :
    (s.merge a b).Coherent := (exists_gathers_merge h hm a b).1

section Merge

variable {s : Store} (h : s.Coherent) (hm : s.mode = .union) (a b : Ty)

include h hm

lemma linked_merge_self : (s.merge a b).Linked a b := by
  obtain ⟨-, r, hr⟩ := exists_gathers_merge h hm a b
  exact .of_setOf (hr.inside a (.inl (.refl s a))) (hr.inside b (.inr (.refl s b)))

/-- Types stay linked. -/
lemma Linked.merge {t u : Ty} (htu : s.Linked t u) : (s.merge a b).Linked t u := by
  obtain ⟨-, r, hr⟩ := exists_gathers_merge h hm a b
  rcases htu with htu | ⟨q, ht, hu⟩
  · exact .inl htu
  · have htu : s.Linked t u := .of_setOf ht hu
    by_cases hin : s.Linked t a ∨ s.Linked t b
    · have hin' : s.Linked u a ∨ s.Linked u b := hin.imp htu.symm.trans htu.symm.trans
      exact .of_setOf (hr.inside t hin) (hr.inside u hin')
    · have hout : ¬ (s.Linked u a ∨ s.Linked u b) := fun hu' =>
        hin (hu'.imp htu.trans htu.trans)
      exact .of_setOf ((hr.outside t hin).trans ht) ((hr.outside u hout).trans hu)

/-- Finding two types equal links what was linked to one to what was linked to the other, and
nothing else. -/
lemma linked_of_linked_merge {t u : Ty} (htu : (s.merge a b).Linked t u) :
    s.Linked t u ∨ (s.Linked t a ∨ s.Linked t b) ∧ (s.Linked u a ∨ s.Linked u b) := by
  obtain ⟨-, r, hr⟩ := exists_gathers_merge h hm a b
  rcases htu with htu | ⟨q, ht, hu⟩
  · exact .inl (.inl htu)
  · by_cases hint : s.Linked t a ∨ s.Linked t b
    · by_cases hinu : s.Linked u a ∨ s.Linked u b
      · exact .inr ⟨hint, hinu⟩
      · have hq : r = q := Option.some.inj ((hr.inside t hint).symm.trans ht)
        exact absurd (hr.only u (by rw [← hr.outside u hinu, hu, hq])) hinu
    · by_cases hinu : s.Linked u a ∨ s.Linked u b
      · have hq : r = q := Option.some.inj ((hr.inside u hinu).symm.trans hu)
        exact absurd (hr.only t (by rw [← hr.outside t hint, ht, hq])) hint
      · exact .inl (.of_setOf ((hr.outside t hint).symm.trans ht)
          ((hr.outside u hinu).symm.trans hu))

/-- Exactly the two types become known. -/
lemma contains_merge (t : Ty) :
    (s.merge a b).contains t = true ↔
      s.contains t = true ∨ (t == a) = true ∨ (t == b) = true := by
  obtain ⟨-, r, hr⟩ := exists_gathers_merge h hm a b
  rw [contains_iff, contains_iff]
  by_cases hin : s.Linked t a ∨ s.Linked t b
  · have hleft : ∃ q, (s.merge a b).setOf t = some q := ⟨r, hr.inside t hin⟩
    refine iff_of_true hleft ?_
    rcases hin with (he | ⟨q, ht, -⟩) | (he | ⟨q, ht, -⟩)
    · exact .inr (.inl he)
    · exact .inl ⟨q, ht⟩
    · exact .inr (.inr he)
    · exact .inl ⟨q, ht⟩
  · rw [hr.outside t hin]
    refine ⟨.inl, ?_⟩
    rintro (ht | he | he)
    · exact ht
    · exact absurd (.inl (.inl he)) hin
    · exact absurd (.inr (.inl he)) hin

/-- A set that has been emptied, or was never filled, stays empty. -/
lemma members_merge_eq_nil {r : ℕ} (hr : r < s.sets.length) (hnil : s.members r = []) :
    (s.merge a b).members r = [] := by
  obtain ⟨hc, q, hq⟩ := exists_gathers_merge h hm a b
  rw [h.members_eq_nil_iff] at hnil
  refine (hc.members_eq_nil_iff r).2 fun t ht => ?_
  by_cases hin : s.Linked t a ∨ s.Linked t b
  · have hqr : q = r := Option.some.inj ((hq.inside t hin).symm.trans ht)
    rcases hq.place with hplace | ⟨u, hu⟩
    · omega
    · exact hnil u (hu.trans (by rw [hqr]))
  · exact hnil t ((hq.outside t hin).symm.trans ht)

end Merge

end Store

end WhereClause
