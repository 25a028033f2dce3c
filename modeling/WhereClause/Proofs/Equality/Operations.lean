import Mathlib.Logic.Relation
import WhereClause.Equality.Evidence
import WhereClause.Proofs.Equality.Joining

/-!
# Sequences of operations

What a user can do to equality sets, one operation after another.  An operation that meets a clash
leaves behind what it did until then, and the sequence goes on from there.

Whatever an operation does to the store is a sequence of `Store.Change`s: two types are found equal,
types that belong to no set found one, or the call in force changes.  A property of stores is kept
by every sequence of operations if a single change keeps it; `Store.Sound` is the first such
property, and `Store.Evolves` collects the changes in between.
-/

namespace WhereClause

/-- Something that can be done to equality sets. -/
inductive Operation where
  | equate (a b : Ty)
  | equateArgs (p q : Path)
  | ensure (t : Ty)
  | newSet (ts : List Ty)
  | enter (function : String) (site : Option Site)
  | leave
  /-- What is found from here on is added to other candidates. -/
  | collect (candidates : ConstraintSet)

namespace Evidence

/-- What an operation leaves behind, also if it meets a clash midway. -/
def perform (e : Evidence) : Operation → Evidence
  | .equate a b => (e.equate a b).1
  | .equateArgs p q => (e.equateArgs p q).1
  | .ensure t => { e with store := (e.store.ensure t).1 }
  | .newSet ts => { e with store := (e.store.newSet ts).1 }
  | .enter function site => { e with store := e.store.enter function site }
  | .leave => { e with store := e.store.leave }
  | .collect candidates => { e with candidates }

def performAll (e : Evidence) (os : List Operation) : Evidence := os.foldl perform e

/-- A set is only ever founded by types that belong to none. -/
def Permits (e : Evidence) : Operation → Prop
  | .newSet ts => ∀ t ∈ ts, e.store.contains t = false
  | _ => True

/-- A sequence of operations leads from one state of the evidence to another. -/
inductive Leads : Evidence → List Operation → Evidence → Prop
  | nil (e : Evidence) : Leads e [] e
  | cons {e : Evidence} {o : Operation} {os : List Operation} {e' : Evidence} :
      e.Permits o → Leads (e.perform o) os e' → Leads e (o :: os) e'

end Evidence

namespace Store

/-! ## Changes of a store -/

/-- The least that can happen to a store. -/
inductive Change : Store → Store → Prop
  | merge (s : Store) (a b : Ty) : Change s (s.merge a b)
  | found (s : Store) (ts : List Ty) : (∀ t ∈ ts, s.setOf t = none) → Change s (s.newSet ts).1
  | turn (s : Store) (current : Option (String × Option Site)) : Change s { s with current }

/-- A store becomes another by changes one after the other. -/
abbrev Evolves : Store → Store → Prop := Relation.ReflTransGen Change

/-- A coherent store in which sets are folded into one another. -/
structure Sound (s : Store) : Prop where
  coherent : s.Coherent
  mode : s.mode = .union

lemma sound_empty : (empty .union).Sound := ⟨coherent_empty _, rfl⟩

namespace Change

variable {s s' : Store}

lemma sound (h : Change s s') (hs : s.Sound) : s'.Sound := by
  cases h with
  | merge a b => exact ⟨hs.coherent.merge hs.mode a b, by rw [mode_merge, hs.mode]⟩
  | found ts hts => exact ⟨hs.coherent.newSet hts, by rw [mode_newSet, hs.mode]⟩
  | turn current => exact ⟨⟨hs.coherent.setOf_iff, hs.coherent.apart⟩, hs.mode⟩

lemma length_le (h : Change s s') : s.sets.length ≤ s'.sets.length := by
  cases h with
  | merge a b => exact length_sets_le_merge s a b
  | found ts _ => rw [length_sets_newSet]; exact Nat.le_succ _
  | turn current => exact Nat.le_refl _

/-- A known type stays known. -/
lemma contains (h : Change s s') (hs : s.Sound) {t : Ty} (ht : s.contains t = true) :
    s'.contains t = true := by
  cases h with
  | merge a b => exact (contains_merge hs.coherent hs.mode a b t).2 (.inl ht)
  | found ts _ =>
    rw [contains_iff] at ht ⊢
    obtain ⟨r, hr⟩ := ht
    rw [setOf_newSet]
    split_ifs
    · exact ⟨_, rfl⟩
    · exact ⟨r, hr⟩
  | turn current => exact ht

/-- Two types of one set stay together. -/
lemma linked (h : Change s s') (hs : s.Sound) {t u : Ty} (htu : s.Linked t u) :
    s'.Linked t u := by
  cases h with
  | merge a b => exact htu.merge hs.coherent hs.mode a b
  | found ts hts =>
    -- types of a set are not among those that found the new one
    have hkept : ∀ {v : Ty} {r : ℕ}, s.setOf v = some r → (s.newSet ts).1.setOf v = some r := by
      intro v r hv
      have hout : ¬ ts.contains v = true := fun hin => by
        obtain ⟨w, hw, hvw⟩ := List.contains_iff_exists_mem_beq.1 hin
        rw [setOf_congr hvw, hts w hw] at hv
        cases hv
      rw [setOf_newSet, if_neg hout, hv]
    rcases htu with htu | ⟨r, ht, hu⟩
    · exact .inl htu
    · exact .of_setOf (hkept ht) (hkept hu)
  | turn current => exact htu

/-- A set without members gets none. -/
lemma members_eq_nil (h : Change s s') (hs : s.Sound) {r : ℕ} (hr : r < s.sets.length)
    (hnil : s.members r = []) : s'.members r = [] := by
  cases h with
  | merge a b => exact members_merge_eq_nil hs.coherent hs.mode a b hr hnil
  | found ts _ => rw [members_newSet, if_neg (Nat.ne_of_gt hr), hnil]
  | turn current => exact hnil

end Change

namespace Evolves

variable {s s' : Store}

lemma sound (h : Evolves s s') (hs : s.Sound) : s'.Sound := by
  induction h with
  | refl => exact hs
  | tail _ hlast ih => exact hlast.sound ih

lemma length_le (h : Evolves s s') : s.sets.length ≤ s'.sets.length := by
  induction h with
  | refl => exact Nat.le_refl _
  | tail _ hlast ih => exact Nat.le_trans ih hlast.length_le

lemma contains (h : Evolves s s') (hs : s.Sound) {t : Ty} (ht : s.contains t = true) :
    s'.contains t = true := by
  induction h with
  | refl => exact ht
  | tail hfirst hlast ih => exact hlast.contains (Evolves.sound hfirst hs) ih

lemma linked (h : Evolves s s') (hs : s.Sound) {t u : Ty} (htu : s.Linked t u) :
    s'.Linked t u := by
  induction h with
  | refl => exact htu
  | tail hfirst hlast ih => exact hlast.linked (Evolves.sound hfirst hs) ih

lemma members_eq_nil (h : Evolves s s') (hs : s.Sound) {r : ℕ} (hr : r < s.sets.length)
    (hnil : s.members r = []) : s'.members r = [] := by
  induction h with
  | refl => exact hnil
  | tail hfirst hlast ih =>
    exact hlast.members_eq_nil (Evolves.sound hfirst hs)
      (Nat.lt_of_lt_of_le hr (Evolves.length_le hfirst)) ih

end Evolves

end Store

/-! ## What operations do to the store -/

namespace Evidence

open Store

/-- Taking the steps of a walk, types are found equal, and that is all. -/
lemma merges_takeAll (e : Evidence) (steps : List Step) :
    Relation.ReflTransGen (fun s s' => ∃ a b, s' = s.merge a b) e.store
      (e.takeAll steps).store := by
  induction steps generalizing e with
  | nil => exact .refl
  | cons step steps ih =>
    cases step with
    | merge a b => exact .head ⟨a, b, e.store_take_merge a b⟩ (ih (e.take (.merge a b)))
    | constrain t bounds =>
      have hstep := ih (e.take (.constrain t bounds))
      rwa [store_take_constrain] at hstep

lemma evolves_takeAll (e : Evidence) (steps : List Step) :
    Evolves e.store (e.takeAll steps).store := by
  refine Relation.ReflTransGen.mono ?_ _ _ (e.merges_takeAll steps)
  rintro s _ ⟨a, b, rfl⟩
  exact .merge s a b

lemma evolves_perform {e : Evidence} {o : Operation} (h : e.Permits o) :
    Evolves e.store (e.perform o).store := by
  cases o with
  | equate a b => exact e.evolves_takeAll _
  | equateArgs p q => exact e.evolves_takeAll _
  | ensure t =>
    rcases ht : e.store.setOf t with _ | r
    · simp only [perform, Store.ensure, ht]
      exact .single (.found _ [t] (by simpa using ht))
    · simp only [perform, Store.ensure, ht]
      exact .refl
  | newSet ts => exact .single (.found _ ts fun t ht => (contains_eq_false_iff _ t).1 (h t ht))
  | enter function site => exact .single (.turn _ _)
  | leave => exact .single (.turn _ _)
  | collect candidates => exact .refl

lemma Leads.evolves {e e' : Evidence} {os : List Operation} (h : e.Leads os e') :
    Evolves e.store e'.store := by
  induction h with
  | nil e => exact .refl
  | cons hpermits _ ih => exact (evolves_perform hpermits).trans ih

/-! ## Calls -/

/-- The evidence when a call is about to be looked at. -/
def entered (e : Evidence) (function : String) (c : Call) : Evidence :=
  { e.tell (.called function c.callee.name c.args) with store := e.store.enter function c.site }

/-- The steps of the walk over the declared types and the arguments are taken.  If there is no
clash, what the callee requires is added. -/
lemma learnCall_eq (e : Evidence) (function : String) (c : Call) :
    e.learnCall function c =
      match (Ty.alignEach c.callee.signature.inputs c.args).clash with
      | some cause =>
        ((e.entered function c).takeAll (Ty.alignEach c.callee.signature.inputs c.args).steps,
          some ((Failure.ofCause cause).pin function c.site))
      | none =>
        let learnt :=
          (e.entered function c).takeAll (Ty.alignEach c.callee.signature.inputs c.args).steps
        ({ learnt with candidates := learnt.candidates.insertAll c.callee.constraints }, none) := by
  unfold learnCall learn
  rcases hclash : (Ty.alignEach c.callee.signature.inputs c.args).clash with _ | cause
  · rfl
  · rfl

lemma learnCalls_append (e : Evidence) (xs ys : List (String × Call)) :
    e.learnCalls (xs ++ ys) =
      match e.learnCalls xs with
      | (e', some failure) => (e', some failure)
      | (e', none) => e'.learnCalls ys := by
  induction xs generalizing e with
  | nil => rfl
  | cons call xs ih =>
    obtain ⟨function, c⟩ := call
    rw [List.cons_append, learnCalls, learnCalls]
    rcases e.learnCall function c with ⟨e₁, _ | failure⟩
    · exact ih e₁
    · rfl

/-- If all calls return, the first of them do. -/
lemma learnCalls_take {e : Evidence} {calls : List (String × Call)}
    (h : (e.learnCalls calls).2 = none) (n : ℕ) : (e.learnCalls (calls.take n)).2 = none := by
  rw [← List.take_append_drop n calls, learnCalls_append] at h
  rcases hfirst : e.learnCalls (calls.take n) with ⟨e', _ | failure⟩
  · rfl
  · rw [hfirst] at h
    cases h

/-- One more call is looked at. -/
lemma learnCalls_take_succ {e : Evidence} {calls : List (String × Call)} {n : ℕ}
    (h : (e.learnCalls (calls.take n)).2 = none) {function : String} {c : Call}
    (hcall : calls[n]? = some (function, c)) :
    (e.learnCalls (calls.take (n + 1))).1 =
      ((e.learnCalls (calls.take n)).1.learnCall function c).1 := by
  rw [List.take_add_one, hcall, learnCalls_append]
  rcases hfirst : e.learnCalls (calls.take n) with ⟨e', _ | failure⟩
  · dsimp only [Option.toList]
    rw [learnCalls]
    rcases e'.learnCall function c with ⟨e₁, _ | failure⟩ <;> rfl
  · rw [hfirst] at h
    cases h

/-- Calls fail at the first that meets a clash, and the failure is pinned to that call. -/
lemma learnCalls_fails {e e' : Evidence} {calls : List (String × Call)} {f : Failure}
    (h : e.learnCalls calls = (e', some f)) :
    ∃ n function c, calls[n]? = some (function, c) ∧ (e.learnCalls (calls.take n)).2 = none ∧
      (Ty.alignEach c.callee.signature.inputs c.args).clash = some f.cause ∧
      f.function = some function ∧ f.site = some c.site := by
  induction calls generalizing e with
  | nil => cases congrArg Prod.snd h
  | cons call rest ih =>
    obtain ⟨function, c⟩ := call
    rw [learnCalls] at h
    rcases hlearn : e.learnCall function c with ⟨e₁, _ | failure⟩
    · rw [hlearn] at h
      obtain ⟨n, function', c', hcall, hreturns, hblame⟩ := ih h
      refine ⟨n + 1, function', c', hcall, ?_, hblame⟩
      rw [List.take_succ_cons, learnCalls, hlearn]
      exact hreturns
    · rw [hlearn] at h
      obtain rfl : failure = f := Option.some.inj (congrArg Prod.snd h)
      refine ⟨0, function, c, rfl, rfl, ?_⟩
      rw [learnCall_eq] at hlearn
      rcases hclash : (Ty.alignEach c.callee.signature.inputs c.args).clash with _ | cause
      · rw [hclash] at hlearn
        cases congrArg Prod.snd hlearn
      · rw [hclash] at hlearn
        obtain rfl := Option.some.inj (congrArg Prod.snd hlearn)
        exact ⟨rfl, rfl, rfl⟩

end Evidence

end WhereClause
