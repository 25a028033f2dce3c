import Mathlib
import WhereClause.Proofs.Equality.Tracing

/-!
# Which call a type is put down to

A type joins a set when it is first met, and again whenever it moves from one set to another.  The
log of a sequence of operations (`Evidence.log`) has an entry, an `Arrival`, for each time, with the
call that was in force.

A store gives a type an origin when the type joins a set during a call and has none yet.  So it keeps
the first arrivals among those during calls, and numbers them in order.  The law one would expect is
another: of the first arrivals of all types, those during calls count.  The two lists,
`ofList (log.filter Arrival.isDuringCall)` and `(ofList log).filter Arrival.isDuringCall`, differ as
soon as a type that was first met outside of calls moves while a call is in force: then that call is
blamed for a type which was there before.  `originOf_performAll` says when this happens.
-/

namespace WhereClause

open Distinct (Apart apart_ofList add_of_contains add_of_not_contains eq_of_apart
  exists_foldl_add_eq_append mem_of_mem_ofList ofList ofList_concat ofList_filter)

/-- A type joins a set, while a call is in force or while none is. -/
structure Arrival where
  ty : Ty
  call : Option (String × Option Site)

namespace Arrival

/-- Two arrivals are alike if they are of one type. -/
instance : BEq Arrival := ⟨fun a b => a.ty == b.ty⟩

lemma beq_iff {a b : Arrival} : (a == b) = true ↔ (a.ty == b.ty) = true := Iff.rfl

instance : EquivBEq Arrival where
  rfl {a} := beq_iff.2 (BEq.refl a.ty)
  symm h := beq_iff.2 (BEq.symm (beq_iff.1 h))
  trans h h' := beq_iff.2 (BEq.trans (beq_iff.1 h) (beq_iff.1 h'))

def isDuringCall (a : Arrival) : Bool := a.call.isSome

/-- The first arrivals of types among those during calls. -/
abbrev firsts (log : List Arrival) : List Arrival := ofList (log.filter isDuringCall)

lemma isDuringCall_of_mem_firsts {log : List Arrival} {a : Arrival} (h : a ∈ firsts log) :
    a ∈ log ∧ a.isDuringCall = true := List.mem_filter.1 (mem_of_mem_ofList h)

/-- Exactly the types that arrived during a call have a first arrival of this kind. -/
lemma exists_mem_firsts_iff (log : List Arrival) (t : Ty) :
    (∃ a ∈ firsts log, (t == a.ty) = true) ↔
      ∃ a ∈ log, a.isDuringCall = true ∧ (t == a.ty) = true := by
  have hcontains := Distinct.contains_ofList (log.filter isDuringCall) ⟨t, none⟩
  constructor
  · rintro ⟨a, ha, hta⟩
    obtain ⟨hin, hduring⟩ := isDuringCall_of_mem_firsts ha
    exact ⟨a, hin, hduring, hta⟩
  · rintro ⟨a, ha, hduring, hta⟩
    have hin : (log.filter isDuringCall).contains ⟨t, none⟩ = true :=
      List.contains_iff_exists_mem_beq.2 ⟨a, List.mem_filter.2 ⟨ha, hduring⟩, hta⟩
    rw [← hcontains] at hin
    exact List.contains_iff_exists_mem_beq.1 hin

end Arrival

open Arrival

/-! ## Logs -/

/-- The types that join a set, in order, when something is done to the sets of two types. -/
def Store.arrivals (s : Store) : Store.Merge → List Ty
  | .found a b => [a, b]
  | .join t _ => [t]
  | .fold source _ => s.members source
  | .nothing => []

namespace Evidence

/-- The types that join a set, in order, while the steps of a walk are taken. -/
def walkArrivals (e : Evidence) : List Step → List Ty
  | [] => []
  | .merge a b :: steps =>
    e.store.arrivals (e.store.plan a b) ++ (e.take (.merge a b)).walkArrivals steps
  | .constrain t bounds :: steps => (e.take (.constrain t bounds)).walkArrivals steps

/-- The types that join a set, in order, during an operation. -/
def arrivals (e : Evidence) : Operation → List Ty
  | .equate a b => e.walkArrivals (a.align b).steps
  | .equateArgs p q => e.walkArrivals (p.align q).steps
  | .ensure t => if e.store.contains t then [] else [t]
  | .newSet ts => ts
  | .enter _ _ | .leave | .collect _ => []

/-- The arrivals during a sequence of operations, each with the call that is in force. -/
def log (e : Evidence) : List Operation → List Arrival
  | [] => []
  | o :: os => (e.arrivals o).map (⟨·, e.store.current⟩) ++ (e.perform o).log os

end Evidence

/-! ## What a store keeps of its log -/

namespace Store

/-- The types with origins are those in a list, and their position is their number. -/
def Numbers (s : Store) (as : List Arrival) : Prop :=
  ∀ t o, s.originOf t = some o ↔
    ∃ a, as[o.serial]? = some a ∧ (t == a.ty) = true ∧ a.call = some (o.function, o.site)

/-- A store has taken in the types of a log. -/
structure Logged (s : Store) (log : List Arrival) : Prop where
  contains_iff : ∀ t, s.contains t = true ↔ ∃ a ∈ log, (t == a.ty) = true
  size : s.origins.size = (firsts log).length
  numbers : s.Numbers (firsts log)

lemma logged_empty (mode : MergeMode) : (empty mode).Logged [] where
  contains_iff t := by simp [contains]
  size := rfl
  numbers t o := by
    constructor
    · intro h
      cases h
    · rintro ⟨a, ha, -⟩
      cases ha

namespace Logged

variable {s : Store} {log : List Arrival}

/-- Neither the lists of members matter nor the call in force. -/
lemma relist (h : s.Logged log) (sets : List (List Ty)) (current : Option (String × Option Site)) :
    Logged { s with sets, current } log := ⟨h.contains_iff, h.size, h.numbers⟩

lemma exists_originOf_iff (h : s.Logged log) (t : Ty) :
    (∃ o, s.originOf t = some o) ↔ ∃ a ∈ log, a.isDuringCall = true ∧ (t == a.ty) = true := by
  rw [← exists_mem_firsts_iff]
  constructor
  · rintro ⟨o, ho⟩
    obtain ⟨a, ha, hta, -⟩ := (h.numbers t o).1 ho
    exact ⟨a, List.mem_of_getElem? ha, hta⟩
  · rintro ⟨a, ha, hta⟩
    obtain ⟨serial, hserial⟩ := List.getElem?_of_mem ha
    obtain ⟨c, hc⟩ := Option.isSome_iff_exists.1 (isDuringCall_of_mem_firsts ha).2
    exact ⟨⟨serial, c.1, c.2⟩, (h.numbers t ⟨serial, c.1, c.2⟩).2 ⟨a, hserial, hta, hc⟩⟩

lemma originOf_eq_none_iff (h : s.Logged log) (a : Arrival) :
    s.originOf a.ty = none ↔ (firsts log).contains a = false := by
  have hcontains : (firsts log).contains a = true ↔ ∃ b ∈ firsts log, (a.ty == b.ty) = true :=
    List.contains_iff_exists_mem_beq
  rw [← Bool.not_eq_true, hcontains, exists_mem_firsts_iff, ← h.exists_originOf_iff,
    Option.eq_none_iff_forall_ne_some, not_exists]

/-- A type joins a set. -/
lemma add (h : s.Logged log) (t : Ty) (r : ℕ) :
    (s.add t r).Logged (log ++ [⟨t, s.current⟩]) := by
  have hcontains : ∀ u, (s.add t r).contains u = true ↔
      ∃ a ∈ log ++ [⟨t, s.current⟩], (u == a.ty) = true := by
    intro u
    rw [contains_add, Bool.or_eq_true, h.contains_iff]
    simp only [List.mem_append, List.mem_singleton, or_and_right, exists_or, exists_eq_left]
  rcases s.origins_add t r with ⟨hsame, hknown⟩ | ⟨hnone, c, hcurrent, hadded⟩
  · -- neither the origins change nor the first arrivals
    have hfirsts : firsts (log ++ [⟨t, s.current⟩]) = firsts log := by
      rw [firsts, List.filter_append]
      rcases hcurrent : s.current with _ | c
      · rw [List.filter_cons_of_neg (by simp [isDuringCall]), List.filter_nil, List.append_nil]
      · have hin : (firsts log).contains ⟨t, some c⟩ = true := by
          have hsome : ¬ s.originOf t = none := by
            rcases hknown with hknown | ⟨o, ho⟩
            · simp [hcurrent] at hknown
            · simp [ho]
          by_contra hout
          exact hsome ((h.originOf_eq_none_iff ⟨t, some c⟩).2 (by simpa using hout))
        rw [List.filter_cons_of_pos (by simp [isDuringCall]), List.filter_nil, ofList_concat,
          add_of_contains hin]
    refine ⟨hcontains, ?_, fun u o => ?_⟩
    · rw [hsame, hfirsts, h.size]
    · rw [hfirsts, originOf, hsame]
      exact h.numbers u o
  · -- the type gets the number after the last
    have hfirsts : firsts (log ++ [⟨t, s.current⟩]) = firsts log ++ [⟨t, some c⟩] := by
      have hout : (firsts log).contains ⟨t, some c⟩ = false :=
        (h.originOf_eq_none_iff ⟨t, some c⟩).1 hnone
      rw [firsts, List.filter_append, hcurrent, List.filter_cons_of_pos (by simp [isDuringCall]),
        List.filter_nil, ofList_concat, add_of_not_contains hout]
    refine ⟨hcontains, ?_, fun u o => ?_⟩
    · rw [hadded, Table.size_insert_of_get?_eq_none hnone, hfirsts, h.size, List.length_append,
        List.length_singleton]
    · rw [hfirsts, originOf, hadded, Table.get?_insert]
      simp only [getElem?_concat_eq_some_iff, or_and_right, exists_or, and_assoc]
      rw [← h.numbers u o, h.size]
      by_cases htu : (t == u) = true
      · have hu : s.originOf u = none := (originOf_congr (BEq.symm htu) s).trans hnone
        rw [if_pos htu, hu]
        constructor
        · intro ho
          obtain rfl := Option.some.inj ho
          exact .inr ⟨_, rfl, rfl, BEq.symm htu, rfl⟩
        · rintro (ho | ⟨a, hserial, rfl, -, hc⟩)
          · cases ho
          · obtain rfl := Option.some.inj hc
            rw [← hserial]
      · rw [if_neg htu]
        constructor
        · exact .inl
        · rintro (ho | ⟨a, -, rfl, hut, -⟩)
          · exact ho
          · exact absurd (BEq.symm hut) htu

lemma addAll (h : s.Logged log) (ts : List Ty) (r : ℕ) :
    (s.addAll ts r).Logged (log ++ ts.map (⟨·, s.current⟩)) := by
  induction ts generalizing s log with
  | nil => rwa [List.map_nil, List.append_nil]
  | cons t ts ih =>
    have hrest := ih (h.add t r)
    rwa [List.append_assoc] at hrest

lemma newSet (h : s.Logged log) (ts : List Ty) :
    (s.newSet ts).1.Logged (log ++ ts.map (⟨·, s.current⟩)) :=
  (h.relist (s.sets ++ [[]]) s.current).addAll ts s.sets.length

/-- Something is done to the sets of two types; moves count as arrivals. -/
lemma perform (h : s.Logged log) (merge : Store.Merge) :
    (s.perform merge).Logged (log ++ (s.arrivals merge).map (⟨·, s.current⟩)) := by
  cases merge with
  | found a b => exact h.newSet [a, b]
  | join t r => exact h.add t r
  | fold source target =>
    exact (h.relist (s.sets.set source []) s.current).addAll (s.members source) target
  | nothing => simpa [Store.perform, arrivals] using h

/-- The first arrivals of all types number the types with origins, where they were during calls,
exactly if no type that first arrived outside of calls ever arrives during one. -/
lemma numbers_filter_iff (h : s.Logged log) :
    s.Numbers ((ofList log).filter isDuringCall) ↔
      ∀ a ∈ ofList log, a.call = none → ∀ b ∈ log, (b.ty == a.ty) = true → b.call = none := by
  constructor
  · intro hnumbers a ha hnone b hb hba
    by_contra hduring
    have hb' : b.isDuringCall = true := Option.isSome_iff_ne_none.2 hduring
    obtain ⟨o, ho⟩ := (h.exists_originOf_iff a.ty).2 ⟨b, hb, hb', BEq.symm hba⟩
    obtain ⟨c, hc, hac, -⟩ := (hnumbers a.ty o).1 ho
    obtain ⟨hin, hc'⟩ := List.mem_filter.1 (List.mem_of_getElem? hc)
    obtain rfl : a = c := eq_of_apart (apart_ofList log) ha hin hac
    simp [isDuringCall, hnone] at hc'
  · intro hfirst
    have hsame : firsts log = (ofList log).filter isDuringCall := by
      refine ofList_filter fun a ha hnone b hb hba => ?_
      have hcall := hfirst a ha (Option.isSome_eq_false_iff.1 hnone |> Option.isNone_iff_eq_none.1)
        b hb hba
      simp [isDuringCall, hcall]
    rw [← hsame]
    exact h.numbers

/-- The origin that a type has stays; a type without one gets one as soon as it arrives during a
call, whether or not it was in a set before. -/
lemma originOf_ne_iff {s' : Store} {later : List Arrival} (h : s.Logged log)
    (h' : s'.Logged (log ++ later)) (t : Ty) :
    s'.originOf t ≠ s.originOf t ↔
      s.originOf t = none ∧ ∃ a ∈ later, a.isDuringCall = true ∧ (t == a.ty) = true := by
  have hsome := h.exists_originOf_iff t
  have hsome' := h'.exists_originOf_iff t
  rcases ho : s.originOf t with _ | o
  · have hearlier : ¬ ∃ a ∈ log, a.isDuringCall = true ∧ (t == a.ty) = true := by
      rw [← hsome, ho]
      simp
    rw [← Option.isSome_iff_ne_none, Option.isSome_iff_exists, hsome']
    simp only [List.mem_append, or_and_right, exists_or, hearlier, false_or, true_and]
  · have hkept : s'.originOf t = some o := by
      obtain ⟨a, ha, hta, hcall⟩ := (h.numbers t o).1 ho
      have hfirsts : firsts (log ++ later) =
          (later.filter isDuringCall).foldl Distinct.add (firsts log) := by
        rw [firsts, List.filter_append]
        exact List.foldl_append
      obtain ⟨more, hmore⟩ := exists_foldl_add_eq_append (firsts log) (later.filter isDuringCall)
      refine (h'.numbers t o).2 ⟨a, ?_, hta, hcall⟩
      rw [hfirsts, hmore, List.getElem?_append_left (List.getElem?_eq_some_iff.1 ha).1, ha]
    simp [hkept]

end Logged

end Store

/-! ## Any operations -/

namespace Evidence

open Store

lemma logged_takeAll {e : Evidence} {log : List Arrival} (h : e.store.Logged log)
    (steps : List Step) :
    (e.takeAll steps).store.Logged
      (log ++ (e.walkArrivals steps).map (⟨·, e.store.current⟩)) := by
  induction steps generalizing e log with
  | nil => rwa [walkArrivals, List.map_nil, List.append_nil]
  | cons step steps ih =>
    cases step with
    | merge a b =>
      have htaken : (e.take (.merge a b)).store = e.store.merge a b := e.store_take_merge a b
      have hrest := ih (e := e.take (.merge a b)) (by rw [htaken]; exact h.perform _)
      rw [htaken, (Joins.records (joins_merge e.store a b)).current] at hrest
      rwa [walkArrivals, List.map_append, ← List.append_assoc]
    | constrain t bounds =>
      have htaken := e.store_take_constrain t bounds
      have hrest := ih (e := e.take (.constrain t bounds)) (by rw [htaken]; exact h)
      rw [htaken] at hrest
      exact hrest

/-- An operation adds what arrives during it, also if it meets a clash midway. -/
lemma logged_perform {e : Evidence} {log : List Arrival} (h : e.store.Logged log)
    (o : Operation) :
    (e.perform o).store.Logged (log ++ (e.arrivals o).map (⟨·, e.store.current⟩)) := by
  cases o with
  | equate a b => exact logged_takeAll h _
  | equateArgs p q => exact logged_takeAll h _
  | ensure t =>
    rw [perform, Store.ensure, arrivals, Store.contains]
    rcases e.store.setOf t with _ | r
    · exact h.newSet [t]
    · simpa using h
  | newSet ts => exact h.newSet ts
  | enter function site =>
    rw [arrivals, List.map_nil, List.append_nil]
    exact h.relist e.store.sets (some (function, site))
  | leave =>
    rw [arrivals, List.map_nil, List.append_nil]
    exact h.relist e.store.sets none
  | collect candidates =>
    rw [arrivals, List.map_nil, List.append_nil]
    exact h

lemma logged_performAll {e : Evidence} {log : List Arrival} (h : e.store.Logged log)
    (os : List Operation) : (e.performAll os).store.Logged (log ++ e.log os) := by
  induction os generalizing e log with
  | nil => rwa [Evidence.log, List.append_nil]
  | cons o os ih =>
    rw [Evidence.log, ← List.append_assoc]
    exact ih (logged_perform h o)

/-- A type that is in a set has joined one, and its origin is the call of its first arrival during a
call; the number counts the types of which this happened earlier.  That is the call of its first
arrival of all, and `none` if there was no call then, for all types if and only if no type that first
arrived outside of calls ever arrives during one.  Whatever is done next, an origin never changes,
and a type without an origin gets one if and only if it joins a set during a call, be it that it only
moves. -/
theorem originOf_performAll (mode : MergeMode) (os later : List Operation) :
    let log := (empty mode).log os
    let e := (empty mode).performAll os
    (∀ t, e.store.contains t = true ↔ ∃ a ∈ log, (t == a.ty) = true) ∧
      e.store.Numbers (ofList (log.filter isDuringCall)) ∧
      (e.store.Numbers ((ofList log).filter isDuringCall) ↔
        ∀ a ∈ ofList log, a.call = none → ∀ b ∈ log, (b.ty == a.ty) = true → b.call = none) ∧
      ∀ t, (e.performAll later).store.originOf t ≠ e.store.originOf t ↔
        e.store.originOf t = none ∧
          ∃ a ∈ e.log later, a.isDuringCall = true ∧ (t == a.ty) = true := by
  intro log e
  have hempty : (empty mode).store.Logged [] := logged_empty mode
  have hlogged : e.store.Logged log := logged_performAll hempty os
  have hlater : (e.performAll later).store.Logged (log ++ e.log later) :=
    logged_performAll hlogged later
  exact ⟨hlogged.contains_iff, hlogged.numbers, hlogged.numbers_filter_iff,
    hlogged.originOf_ne_iff hlater⟩

/-- `T` and `P` are found equal outside of calls. -/
def earlyFind : List Operation := [.equate (.param ⟨0, "T"⟩) (.param ⟨1, "P"⟩)]

/-- Then, during a call, `Q` meets `U` and the string type, and `T` meets `Q`. -/
def lateFinds : List Operation :=
  [.enter "g" (some (.place (.text "lib.rs:2"))),
    .equate (.param ⟨2, "Q"⟩) (.param ⟨3, "U"⟩), .equate (.param ⟨2, "Q"⟩) .str,
    .equate (.param ⟨0, "T"⟩) (.param ⟨2, "Q"⟩)]

/-- `T` is in a set and has no origin before the call.  The set of `Q` is the larger one, so `T`
moves, and then it is put down to the call, as the fourth type. -/
theorem originOf_lateFinds :
    let e := (empty .union).performAll earlyFind
    let e' := (empty .union).performAll (earlyFind ++ lateFinds)
    e.store.contains (.param ⟨0, "T"⟩) = true ∧
      e.store.originOf (.param ⟨0, "T"⟩) = none ∧
      e'.store.originOf (.param ⟨0, "T"⟩) =
        some ⟨3, "g", some (.place (.text "lib.rs:2"))⟩ ∧
      ¬ e'.store.Numbers
        ((ofList ((empty .union).log (earlyFind ++ lateFinds))).filter isDuringCall) := by
  intro e e'
  have horigin : ((empty .union).performAll (earlyFind ++ lateFinds)).store.originOf
      (.param ⟨0, "T"⟩) = some ⟨3, "g", some (.place (.text "lib.rs:2"))⟩ := by cbv
  have hearly : ((empty .union).performAll earlyFind).store.originOf (.param ⟨0, "T"⟩) = none := by
    cbv
  refine ⟨by decide +kernel, hearly, horigin, fun hnumbers => ?_⟩
  obtain ⟨a, ha, -⟩ := (hnumbers _ _).1 horigin
  -- only three types first arrived during the call
  have hnone : ((ofList ((empty .union).log (earlyFind ++ lateFinds))).filter isDuringCall)[3]? =
      none := by cbv
  rw [hnone] at ha
  cases ha

end Evidence

end WhereClause
