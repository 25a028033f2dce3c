import Mathlib
import WhereClause.Proofs.Equality.Tracing
import WhereClause.Proofs.Inference.Ending

/-!
# Which call is to blame

A failure is put down to a call (`Implementation.infer_blames`).  If the walk over the types that a
call declares and the types of its arguments met a clash, it is that call.  If all calls went well
and the search or the filter failed afterwards, it is the call during which the latest of the
operands came into the equality sets, or no call if no operand came in during one.

That the latest operand is the one with the highest number, and that its origin is the call during
which it came in, rests on what a single call does to the origins (`Store.Records`): it adds some,
all of them its own, under numbers higher than any before.
-/

namespace WhereClause

open Resolver Store

/-! ## The latest origin -/

lemma Value.type?_eq_some_iff {v : Value} {t : Ty} : v.type? = some t ↔ v = .type t := by
  cases v <;> simp [Value.type?]

lemma Origin.later_spec (a b : Origin) :
    (a.later b = a ∨ a.later b = b) ∧ a.serial ≤ (a.later b).serial ∧
      b.serial ≤ (a.later b).serial := by
  rw [Origin.later]
  split_ifs with h
  · exact ⟨.inr rfl, Nat.le_of_lt h, Nat.le_refl _⟩
  · exact ⟨.inl rfl, Nat.le_refl _, Nat.le_of_not_lt h⟩

/-- Of several origins, the latest has the highest number. -/
lemma Origin.foldl_later_spec (o : Origin) (os : List Origin) :
    os.foldl Origin.later o ∈ o :: os ∧
      ∀ x ∈ o :: os, x.serial ≤ (os.foldl Origin.later o).serial := by
  induction os generalizing o with
  | nil => exact ⟨List.mem_singleton_self o, List.forall_mem_singleton.2 (Nat.le_refl _)⟩
  | cons b os ih =>
    obtain ⟨hmem, hle⟩ := ih (o.later b)
    obtain ⟨heither, ho, hb⟩ := o.later_spec b
    obtain ⟨hfirst, hrest⟩ := List.forall_mem_cons.1 hle
    rw [List.foldl_cons]
    refine ⟨?_, List.forall_mem_cons.2 ⟨Nat.le_trans ho hfirst,
      List.forall_mem_cons.2 ⟨Nat.le_trans hb hfirst, hrest⟩⟩⟩
    rcases List.mem_cons.1 hmem with hmem | hmem
    · rw [hmem]
      rcases heither with heq | heq <;> simp [heq]
    · exact List.mem_cons_of_mem o (List.mem_cons_of_mem b hmem)

namespace Store

variable {s : Store} {operands : List Value}

lemma mem_filterMap_originOf_iff {o : Origin} :
    o ∈ operands.filterMap (fun v => v.type?.bind s.originOf) ↔
      ∃ t, .type t ∈ operands ∧ s.originOf t = some o := by
  simp only [List.mem_filterMap, Option.bind_eq_some_iff, Value.type?_eq_some_iff]
  constructor
  · rintro ⟨_, hv, t, rfl, ho⟩
    exact ⟨t, hv, ho⟩
  · rintro ⟨t, ht, ho⟩
    exact ⟨_, ht, t, rfl, ho⟩

lemma originOf_of_latestOrigin_eq_none (h : s.latestOrigin operands = none) {t : Ty}
    (ht : .type t ∈ operands) : s.originOf t = none := by
  rw [Option.eq_none_iff_forall_ne_some]
  intro o ho
  have hmem := mem_filterMap_originOf_iff.2 ⟨t, ht, ho⟩
  rw [latestOrigin] at h
  split at h
  · rename_i hnil
    rw [hnil] at hmem
    cases hmem
  · cases h

/-- The latest origin is that of an operand, and no operand has one with a higher number. -/
lemma latestOrigin_spec {o : Origin} (h : s.latestOrigin operands = some o) :
    (∃ t, .type t ∈ operands ∧ s.originOf t = some o) ∧
      ∀ u o', .type u ∈ operands → s.originOf u = some o' → o'.serial ≤ o.serial := by
  rw [latestOrigin] at h
  split at h
  · cases h
  · rename_i first rest horigins
    obtain rfl := Option.some.inj h
    obtain ⟨hmem, hle⟩ := Origin.foldl_later_spec first rest
    rw [← horigins] at hmem hle
    exact ⟨mem_filterMap_originOf_iff.1 hmem,
      fun u o' hu ho' => hle o' (mem_filterMap_originOf_iff.2 ⟨u, hu, ho'⟩)⟩

end Store

/-! ## Calls and what comes in with them -/

namespace Implementation

variable {i : Implementation} {mode : MergeMode} {n : ℕ} {t : Ty}

/-- What is known after the first calls. -/
def evidenceAfter (i : Implementation) (mode : MergeMode) (n : ℕ) : Evidence :=
  ((i.declaredEvidence mode).learnCalls (i.calls.take n)).1

/-- The type comes into the equality sets during a call. -/
structure EntersAt (i : Implementation) (mode : MergeMode) (n : ℕ) (t : Ty) : Prop where
  before : (i.evidenceAfter mode n).store.contains t = false
  after : (i.evidenceAfter mode (n + 1)).store.contains t = true

lemma evidenceAfter_of_length_le (h : i.calls.length ≤ n) :
    i.evidenceAfter mode n = (i.evidence mode).1 := by
  rw [evidenceAfter, List.take_of_length_le h, evidence]

lemma dated_evidenceAfter (i : Implementation) (mode : MergeMode) (n : ℕ) :
    (i.evidenceAfter mode n).store.Dated :=
  ((i.declaredEvidence mode).evolves_learnCalls _).dated (dated_empty mode)

section

variable (hreturns : (i.evidence mode).2 = none)

include hreturns

/-- During a call, types join sets while that call is in force.  After the last call, nothing more is
known. -/
lemma joins_evidenceAfter (n : ℕ) :
    (i.evidenceAfter mode (n + 1)).store = (i.evidenceAfter mode n).store ∨
      ∃ function c, i.calls[n]? = some (function, c) ∧
        Joins ((i.evidenceAfter mode n).store.enter function c.site)
          (i.evidenceAfter mode (n + 1)).store := by
  rcases hcall : i.calls[n]? with _ | ⟨function, c⟩
  · have hlength := List.getElem?_eq_none_iff.1 hcall
    rw [evidenceAfter_of_length_le hlength, evidenceAfter_of_length_le (Nat.le_succ_of_le hlength)]
    exact .inl rfl
  · have hsucc : i.evidenceAfter mode (n + 1) = _ :=
      Evidence.learnCalls_take_succ (Evidence.learnCalls_take hreturns n) hcall
    rw [hsucc]
    exact .inr ⟨function, c, rfl, Evidence.joins_learnCall _ function c⟩

lemma traced_evidenceAfter (n : ℕ) : (i.evidenceAfter mode n).store.Traced := by
  induction n with
  | zero => exact traced_empty mode
  | succ n ih =>
    rcases joins_evidenceAfter hreturns n with hsame | ⟨function, c, -, hjoins⟩
    · rw [hsame]
      exact ih
    · have hentered : ((i.evidenceAfter mode n).store.enter function c.site).Traced := ih
      exact hjoins.traced hentered (Option.some_ne_none _)

lemma retains_evidenceAfter {m n : ℕ} (hmn : m ≤ n) :
    Retains (i.evidenceAfter mode m).store (i.evidenceAfter mode n).store := by
  induction hmn with
  | refl => exact .refl _
  | @step n _ ih =>
    rcases joins_evidenceAfter hreturns n with hsame | ⟨function, c, -, hjoins⟩
    · rw [hsame]
      exact ih
    · have hcall := hjoins.records.toRetains
      exact ih.trans ⟨hcall.contains, hcall.originOf, hcall.size⟩

/-- A type that comes in during a call is put down to it, under a number given during the call. -/
lemma EntersAt.origin (h : i.EntersAt mode n t) :
    ∃ function c o, i.calls[n]? = some (function, c) ∧
      (i.evidenceAfter mode (n + 1)).store.originOf t = some o ∧
      o.function = function ∧ o.site = some c.site ∧
      (i.evidenceAfter mode n).store.origins.size ≤ o.serial ∧
      o.serial < (i.evidenceAfter mode (n + 1)).store.origins.size := by
  obtain ⟨o, ho⟩ := (traced_evidenceAfter hreturns (n + 1) t).1 h.after
  have hnone : (i.evidenceAfter mode n).store.originOf t = none := by
    refine Option.eq_none_iff_forall_ne_some.2 fun o' ho' => ?_
    have hin := (traced_evidenceAfter hreturns n t).2 ⟨o', ho'⟩
    rw [h.before] at hin
    cases hin
  rcases joins_evidenceAfter hreturns n with hsame | ⟨function, c, hcall, hjoins⟩
  · rw [hsame, hnone] at ho
    cases ho
  · obtain ⟨hcurrent, hserial⟩ := hjoins.records.fresh t o hnone ho
    obtain ⟨hfunction, hsite⟩ := Prod.mk.inj (Option.some.inj hcurrent)
    exact ⟨function, c, o, hcall, ho, hfunction.symm, hsite.symm, hserial,
      (dated_evidenceAfter i mode (n + 1)).serial_lt t o ho⟩

omit hreturns in
/-- A type that is in a set came in during some call. -/
lemma exists_entersAt (h : (i.evidenceAfter mode n).store.contains t = true) :
    ∃ m < n, i.EntersAt mode m t := by
  induction n with
  | zero => cases h
  | succ n ih =>
    rcases hbefore : (i.evidenceAfter mode n).store.contains t with _ | _
    · exact ⟨n, Nat.lt_succ_self n, hbefore, h⟩
    · obtain ⟨m, hm, henters⟩ := ih hbefore
      exact ⟨m, Nat.lt_succ_of_lt hm, henters⟩

end

/-! ## After the last call -/

/-- The search for the sets that matter adds no origins. -/
lemma originOf_searched (i : Implementation) (mode : MergeMode) (t : Ty) :
    (i.searched mode).store.originOf t =
      (i.evidenceAfter mode i.calls.length).store.originOf t := by
  have hgrows : Grows (i.evidence mode).1.store.leave (i.searched mode).store :=
    Search.grows_closure _ ∅ i.ownParams
  rw [hgrows.joins.records.originOf_eq rfl, evidenceAfter_of_length_le (Nat.le_refl _)]
  rfl

section

variable (hreturns : (i.evidence mode).2 = none)

include hreturns

/-- In the end, the origin of a type is what it became during the call that brought the type in. -/
lemma EntersAt.originOf_searched {o : Origin} (h : i.EntersAt mode n t)
    (ho : (i.evidenceAfter mode (n + 1)).store.originOf t = some o) :
    (i.searched mode).store.originOf t = some o := by
  obtain ⟨_, _, _, hcall, -⟩ := h.origin hreturns
  have hlt : n < i.calls.length := (List.getElem?_eq_some_iff.1 hcall).1
  rw [Implementation.originOf_searched]
  exact (retains_evidenceAfter hreturns hlt).originOf t o ho

lemma exists_entersAt_of_originOf {o : Origin}
    (ho : (i.searched mode).store.originOf t = some o) : ∃ n, i.EntersAt mode n t := by
  rw [originOf_searched] at ho
  obtain ⟨n, -, h⟩ := exists_entersAt ((traced_evidenceAfter hreturns _ t).2 ⟨o, ho⟩)
  exact ⟨n, h⟩

/-- Of two types, the one with the higher number came in during the same call as the other or a
later one. -/
lemma EntersAt.le_of_serial_le {m : ℕ} {u : Ty} {o o' : Origin} (h : i.EntersAt mode n t)
    (h' : i.EntersAt mode m u) (ho : (i.searched mode).store.originOf t = some o)
    (ho' : (i.searched mode).store.originOf u = some o') (hle : o'.serial ≤ o.serial) : m ≤ n := by
  obtain ⟨_, _, p, -, hp, -, -, -, hlt⟩ := h.origin hreturns
  obtain ⟨_, _, p', -, hp', -, -, hge, -⟩ := h'.origin hreturns
  obtain rfl := Option.some.inj (ho.symm.trans (h.originOf_searched hreturns hp))
  obtain rfl := Option.some.inj (ho'.symm.trans (h'.originOf_searched hreturns hp'))
  by_contra hnm
  have hlater : n + 1 ≤ m := Nat.lt_of_not_le hnm
  have hsize := (retains_evidenceAfter hreturns hlater).size
  omega

end

/-! ## Blame -/

/-- The calls before a call return, and the walk over the types that it declares and the types of
its arguments meets the clash. -/
structure ClashesAt (i : Implementation) (mode : MergeMode) (n : ℕ) (function : String) (c : Call)
    (cause : Cause) : Prop where
  call : i.calls[n]? = some (function, c)
  before : ((i.declaredEvidence mode).learnCalls (i.calls.take n)).2 = none
  clash : (Ty.alignEach c.callee.signature.inputs c.args).clash = some cause

/-- What is known when all calls were looked at, and no call is in force any more. -/
def gathered (i : Implementation) (mode : MergeMode) : Evidence :=
  { (i.evidence mode).1 with store := (i.evidence mode).1.store.leave }

/-- All calls return, and then the search for the sets that matter or the filter fails. -/
structure FailsLate (i : Implementation) (mode : MergeMode) (cause : Cause) : Prop where
  returns : (i.evidence mode).2 = none
  fails : (i.gathered mode).FailsFor i.ownParams cause

end Implementation

/-- The failure names the function, and the place of the call, or the call itself if no place is
known. -/
structure Failure.PutDownTo (f : Failure) (function : String) (c : Call) : Prop where
  function : f.function = some function
  place : ∀ p, c.place = some p → f.site = some (.place p)
  itself : c.place = none → f.site = some (.call c)

lemma Failure.putDownTo_of_site {f : Failure} {function : String} {c : Call}
    (hfunction : f.function = some function) (hsite : f.site = some c.site) :
    f.PutDownTo function c := by
  rw [Call.site] at hsite
  refine ⟨hfunction, fun p hp => ?_, fun hnone => ?_⟩
  · rw [hsite, hp]
  · rw [hsite, hnone]

namespace Implementation

variable {i : Implementation} {mode : MergeMode} {f : Failure}

/-- The failure is put down to the call during which the last of its operands came in, and to no call
if none of them came in during one. -/
def BlamesLatest (i : Implementation) (mode : MergeMode) (f : Failure) : Prop :=
  (f.function = none ∧ f.site = none ∧
      ∀ t, .type t ∈ f.cause.operands → ∀ n, ¬ i.EntersAt mode n t) ∨
    ∃ n function c, i.calls[n]? = some (function, c) ∧ f.PutDownTo function c ∧
      (∃ t, .type t ∈ f.cause.operands ∧ i.EntersAt mode n t) ∧
      ∀ u m, .type u ∈ f.cause.operands → i.EntersAt mode m u → m ≤ n

/-- Blame by the origins that there are in the end is blame by the calls. -/
lemma blamesLatest_of_blame (hreturns : (i.evidence mode).2 = none)
    (hf : f = (i.searched mode).store.blame (.ofCause f.cause)) : i.BlamesLatest mode f := by
  have hoperands : (Failure.ofCause f.cause).cause.operands = f.cause.operands := rfl
  rw [Store.blame, hoperands] at hf
  rcases hlatest : (i.searched mode).store.latestOrigin f.cause.operands with _ | o
  · rw [hlatest] at hf
    refine .inl ⟨by rw [hf]; rfl, by rw [hf]; rfl, fun t ht n henters => ?_⟩
    obtain ⟨_, _, o, -, ho, -⟩ := henters.origin hreturns
    have hnone := originOf_of_latestOrigin_eq_none hlatest ht
    rw [henters.originOf_searched hreturns ho] at hnone
    cases hnone
  · rw [hlatest] at hf
    obtain ⟨⟨t, ht, ho⟩, hgreatest⟩ := latestOrigin_spec hlatest
    obtain ⟨n, henters⟩ := exists_entersAt_of_originOf hreturns ho
    obtain ⟨function, c, o', hcall, ho', hfunction, hsite, -⟩ := henters.origin hreturns
    obtain rfl := Option.some.inj (ho.symm.trans (henters.originOf_searched hreturns ho'))
    have hput : f.PutDownTo function c := by
      refine Failure.putDownTo_of_site ?_ ?_
      · rw [hf, ← hfunction]
        rfl
      · rw [hf, ← hsite]
        rfl
    refine .inr ⟨n, function, c, hcall, hput, ⟨t, ht, henters⟩, fun u m hu henters' => ?_⟩
    obtain ⟨_, _, p, -, hp, -⟩ := henters'.origin hreturns
    have hlast := henters'.originOf_searched hreturns hp
    exact henters.le_of_serial_le hreturns henters' ho hlast (hgreatest u p hu hlast)

/-- In either mode, take an inference that fails.  If a call met a clash, the failure is put down to
that call.  Otherwise all calls returned, and the search or the filter failed: the failure is put
down to no call if none of its operands came into the equality sets during a call, and else to the
call during which the last of them came in. -/
theorem infer_blames (h : (i.infer mode).2 = .error (.failure f)) :
    (∃ n function c, i.ClashesAt mode n function c f.cause ∧ f.PutDownTo function c) ∨
      (i.FailsLate mode f.cause ∧ i.BlamesLatest mode f) := by
  rcases hevidence : i.evidence mode with ⟨e, _ | failure⟩
  · right
    have hreturns : (i.evidence mode).2 = none := by rw [hevidence]
    have hlisted : (i.gathered mode).store.Listed :=
      (i.evolves_evidence mode).listed (listed_empty mode)
    have hconclude : ((i.gathered mode).conclude i.ownParams).2 = .error (.failure f) := by
      rw [infer, hevidence] at h
      rw [gathered, hevidence]
      exact h
    rcases Evidence.conclude_cases hlisted i.ownParams with ⟨kept, hkept⟩ | ⟨cause, -, hfails, hf⟩
    · cases hkept.symm.trans hconclude
    · have hblame := Fault.failure.inj (Except.error.inj (hconclude.symm.trans hf))
      obtain rfl : f.cause = cause := by rw [hblame, Store.cause_blame]; rfl
      exact ⟨⟨hreturns, hfails⟩, blamesLatest_of_blame hreturns hblame⟩
  · left
    rw [infer, hevidence] at h
    obtain rfl : failure = f := Fault.failure.inj (Except.error.inj h)
    obtain ⟨n, function, c, hcall, hbefore, hclash, hfunction, hsite⟩ :=
      Evidence.learnCalls_fails hevidence
    exact ⟨n, function, c, ⟨hcall, hbefore, hclash⟩,
      Failure.putDownTo_of_site hfunction hsite⟩

/-- A call of a function that takes a `T`. -/
def duplicate (arg : Ty) (place : String) : Call where
  callee := { signature := ⟨[.param ⟨0, "T"⟩], none⟩, parent := none }
  args := [arg]
  place := some (.text place)

/-- A function of `Struct<P>` passes a `P` for a `T`, and then a `&P`. -/
def duplicating : Implementation where
  ty := .data "Struct" ⟨[.type (.param ⟨1, "P"⟩)], []⟩ []
  trait := none
  functions := [⟨"f", [duplicate (.param ⟨1, "P"⟩) "lib.rs:1",
    duplicate (.ref .shared (.param ⟨1, "P"⟩) none) "lib.rs:2"]⟩]

lemma infer_duplicating : (duplicating.infer .union).2 = .error (.failure
    ⟨.incompatible (.param ⟨0, "T"⟩) (.ref .shared (.param ⟨1, "P"⟩) none), some "f",
      some (.place (.text "lib.rs:2"))⟩) := by cbv

/-- Neither call clashes, but a parameter and a reference cannot be one type.  The reference came in
last, with the second call. -/
theorem infer_blames_duplicating :
    ∃ f, (duplicating.infer .union).2 = .error (.failure f) ∧
      duplicating.FailsLate .union f.cause ∧
      f.PutDownTo "f" (duplicate (.ref .shared (.param ⟨1, "P"⟩) none) "lib.rs:2") := by
  have hclash : ∀ call ∈ duplicating.calls,
      (Ty.alignEach call.2.callee.signature.inputs call.2.args).clash.isNone = true := by
    decide +kernel
  have henters : duplicating.EntersAt .union 1 (.ref .shared (.param ⟨1, "P"⟩) none) :=
    ⟨by decide +kernel, by decide +kernel⟩
  refine ⟨_, infer_duplicating, ?_⟩
  rcases infer_blames infer_duplicating with
    ⟨n, function, c, hclashes, -⟩ | ⟨hlate, ⟨hnone, -⟩ | ⟨n, function, c, hcall, hput, -, hlast⟩⟩
  · have hnone := hclash _ (List.mem_of_getElem? hclashes.call)
    rw [hclashes.clash] at hnone
    cases hnone
  · cases hnone
  · -- nothing came in after the second call, and that is the last
    have hlength : n < 2 := (List.getElem?_eq_some_iff.1 hcall).1
    have hn : 1 ≤ n := hlast _ 1 (List.mem_cons_of_mem _ List.mem_cons_self) henters
    obtain rfl : n = 1 := by omega
    obtain ⟨rfl, rfl⟩ := Prod.mk.inj (Option.some.inj hcall)
    exact ⟨hlate, hput⟩

end Implementation

end WhereClause
