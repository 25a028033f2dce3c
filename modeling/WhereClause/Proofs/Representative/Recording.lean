import Mathlib.Data.List.Nodup
import WhereClause.Proofs.Equality.Operations
import WhereClause.Proofs.Representative.Enduring

/-!
# The folds that begin in the life of a resolver

What a resolver is asked about sets and types (`Resolver.Demand`) comes to an end, in any state of
the resolver, on any store.  To say how often sets are folded on the way, the traversal is run in a
monad that keeps a record beside the resolver (`Resolver.Recording`).  It notes each set when the
fold begins, and nothing else changes (`Resolver.Recording.Records`).

A life of a resolver is a sequence of demands, with operations on the store in between as they come.
Each set is noted once at most in it, and only if it was not asked for before.
-/

namespace WhereClause

open Resolving

namespace Resolver

/-! ## Demands -/

/-- What may be asked of a resolver about sets and types. -/
inductive Demand where
  | resolve (r : ℕ)
  | concrete (t : Ty)
  | pair (a b : Ty)

/-- The answer to a demand; none only for a set that is still being worked out. -/
def Demand.meet (store : Store) : Demand → Resolving (Option Ty)
  | .resolve r => Resolver.resolve store r
  | .concrete t => do return some (← Resolver.concrete store t)
  | .pair a b => do return some (← Resolver.pair store a b)

/-- The answer by what is answered for sets, whatever the monad. -/
def Demand.meetBy {m : Type → Type} [Monad m] [MonadExceptOf Fault m] (store : Store)
    (answer : ℤ → m (Option Ty)) : Demand → m (Option Ty)
  | .resolve r => answer r
  | .concrete t => do return some (← concreteBy store answer t)
  | .pair a b => do return some (← Ty.mostConcrete (concreteBy store answer) a b)

/-- The answer, if no more folds than so many have to begin inside one another. -/
def Demand.meetWithin (store : Store) (depth : ℕ) : Demand → Resolving (Option Ty) :=
  meetBy store (resolveWithin store depth)

section

variable {store : Store}

lemma Demand.meet_eq (store : Store) (d : Demand) :
    d.meet store = d.meetWithin store (store.sets.length + 1) := by
  cases d <;> rfl

/-- What relates answers for sets relates answers to demands. -/
lemma Demand.parametric_meetBy {m n : Type → Type} [Monad m] [MonadExceptOf Fault m] [Monad n]
    [MonadExceptOf Fault n] {S : (α : Type) → m α → n α → Prop} (h : Parametric S)
    {f : ℤ → m (Option Ty)} {g : ℤ → n (Option Ty)} (hfg : ∀ r : ℕ, S (Option Ty) (f r) (g r))
    (d : Demand) : S (Option Ty) (d.meetBy store f) (d.meetBy store g) := by
  cases d with
  | resolve r => exact hfg r
  | concrete t => exact h.bind (h.concreteBy store hfg t) fun _ => h.pure _
  | pair a b => exact h.bind (h.mostConcrete (h.concreteBy store hfg) a b) fun _ => h.pure _

/-- Every demand endures, if there is room for the sets that were not asked for. -/
lemma Demand.endures_meetWithin (n : ℕ) (d : Demand) :
    Endures store n (fun _ => True) (d.meetWithin store (n + 1)) := by
  have hcompositional := compositional_endures store n
  have hanswer (r : ℕ) : Endures store n (fun _ => True) (resolveWithin store (n + 1) r) :=
    endures_resolveWithin n r
  have hconcrete := endures_concreteWithin hanswer
  cases d with
  | resolve r => exact hanswer r
  | concrete t => exact hcompositional.bind (hconcrete t) fun _ _ => hcompositional.pure trivial
  | pair a b =>
    exact hcompositional.bind (endures_mostConcrete hconcrete a b) fun _ _ =>
      hcompositional.pure trivial

lemma Demand.endures_meet (store : Store) (d : Demand) (ρ : Resolver) :
    Retains ρ (d.meet store ρ).2 ∧ ∀ r, (d.meet store ρ).1 ≠ .error (.unresolved r) := by
  rw [meet_eq]
  obtain ⟨hretains, hunmet, -⟩ := d.endures_meetWithin store.sets.length (unasked_le store ρ)
  exact ⟨hretains, hunmet⟩

lemma Demand.boundedBy_meetWithin {depth depth' : ℕ} (h : depth ≤ depth') (d : Demand) :
    BoundedBy (d.meetWithin store depth) (d.meetWithin store depth') :=
  d.parametric_meetBy parametric_boundedBy (boundedBy_resolveWithin h)

/-- An answer leaves no fold broken off that was not before. -/
lemma Demand.keeps_meet (d : Demand) : Keeps Onward (d.meet store) := by
  have hsteady := steady_onward store
  cases d with
  | resolve r => exact hsteady.resolveWithin _ r
  | concrete t => exact (hsteady.concrete t).bind fun _ => .pure _
  | pair a b => exact (hsteady.pair a b).bind fun _ => .pure _

end

/-! ## Keeping a record -/

/-- A computation that resolves, with a record of the sets whose folds began, the latest first. -/
abbrev Recording := ExceptT Fault (StateM (Resolver × List ℕ))

namespace Recording

/-- What resolves sees the resolver, and not the record. -/
instance : MonadStateOf Resolver Recording where
  get := fun s => (.ok s.1, s)
  set ρ := fun s => (.ok ⟨⟩, ρ, s.2)
  modifyGet f := fun s => (.ok (f s.1).1, (f s.1).2, s.2)

/-- Notes that the fold of a set begins. -/
def note (position : ℤ) : Recording Unit := fun s => (.ok (), s.1, position.toNat :: s.2)

/-- Meets a demand, with a note of each fold that begins. -/
def meet (store : Store) (d : Demand) : Recording (Option Ty) :=
  d.meetBy store (resolveNoting note store (store.sets.length + 1))

/-- The folds that began between two states of a resolver: each once, of a set that was not asked
for before and was by then. -/
structure Begun (ρ ρ' : Resolver) (news : List ℕ) : Prop where
  nodup : news.Nodup
  unasked : ∀ r ∈ news, ρ.memo.get? (r : ℤ) = none
  asked : ∀ r ∈ news, ρ'.memo.get? (r : ℤ) ≠ none
  kept : ∀ i, ρ.memo.get? i ≠ none → ρ'.memo.get? i ≠ none

namespace Begun

variable {ρ ρ₁ ρ' : Resolver} {news : List ℕ}

lemma nil (ρ : Resolver) : Begun ρ ρ [] := ⟨.nil, nofun, nofun, fun _ h => h⟩

lemma append {later : List ℕ} (h : Begun ρ ρ₁ news) (h' : Begun ρ₁ ρ' later) :
    Begun ρ ρ' (later ++ news) where
  nodup := by
    rw [List.nodup_append']
    refine ⟨h'.nodup, h.nodup, fun r hlater hr => ?_⟩
    exact h.asked r hr (h'.unasked r hlater)
  unasked r hr := by
    rcases List.mem_append.1 hr with hr | hr
    · by_contra hasked
      exact h.kept r hasked (h'.unasked r hr)
    · exact h.unasked r hr
  asked r hr := by
    rcases List.mem_append.1 hr with hr | hr
    · exact h'.asked r hr
    · exact h'.kept r (h.asked r hr)
  kept i hi := h'.kept i (h.kept i hi)

lemma remember (ρ : Resolver) (i : ℤ) (o : Option Ty) : Begun ρ (ρ.remember i o) [] where
  nodup := .nil
  unasked := nofun
  asked := nofun
  kept j hj := by
    rw [get?_remember]
    split_ifs
    · exact Option.some_ne_none o
    · exact hj

lemma singleton {r : ℕ} (h : ρ.memo.get? (r : ℤ) = none) : Begun ρ (ρ.remember r none) [r] where
  nodup := List.nodup_singleton r
  unasked := List.forall_mem_singleton.2 h
  asked := by
    rw [List.forall_mem_singleton, get?_remember_self]
    exact Option.some_ne_none none
  kept := (remember ρ r none).kept

end Begun

/-- The first computation does what the second does, and keeps the record right. -/
def Records {α : Type} (x : Recording α) (y : Resolving α) : Prop :=
  ∀ ρ begun, ∃ news, x (ρ, begun) = ((y ρ).1, (y ρ).2, news ++ begun) ∧ Begun ρ (y ρ).2 news

lemma parametric_records :
    Parametric (m := Recording) (n := Resolving) fun _ x y => Records x y where
  pure a := fun ρ begun => ⟨[], rfl, .nil ρ⟩
  bind {α β x y f g} hxy hfg := by
    intro ρ begun
    obtain ⟨news, hx, hnews⟩ := hxy ρ begun
    rcases hy : y ρ with ⟨fault | a, ρ₁⟩
    · rw [hy] at hx hnews
      rw [run_bind_of_error hx, run_bind_of_error hy]
      exact ⟨news, rfl, hnews⟩
    · rw [hy] at hx hnews
      rw [run_bind_of_ok hx, run_bind_of_ok hy]
      obtain ⟨later, hf, hlater⟩ := hfg a ρ₁ (news ++ begun)
      refine ⟨later ++ news, ?_, hnews.append hlater⟩
      rw [hf, List.append_assoc]
  failWith c := fun ρ begun => ⟨[], rfl, .nil ρ⟩

lemma run_get_bind {β : Type} (f : Resolver → Recording β) (ρ : Resolver) (begun : List ℕ) :
    (get >>= f) (ρ, begun) = f ρ (ρ, begun) := rfl

variable {store : Store}

/-- The record is of the traversal that there is. -/
lemma records_resolveNoting (depth r : ℕ) :
    Records (resolveNoting note store depth r) (resolveWithin store depth r) := by
  induction depth generalizing r with
  | zero =>
    intro ρ begun
    rw [resolveNoting, run_get_bind]
    rcases hmemo : ρ.memo.get? (r : ℤ) with _ | known
    · rw [resolveWithin_zero_of_unasked hmemo]
      exact ⟨[], rfl, .nil ρ⟩
    · rw [resolveWithin_of_asked hmemo]
      exact ⟨[], rfl, .nil ρ⟩
  | succ depth ih =>
    intro ρ begun
    rw [resolveNoting, run_get_bind]
    rcases hmemo : ρ.memo.get? (r : ℤ) with _ | known
    · rw [resolveWithin_of_unasked hmemo]
      have hfold : Records (foldBy store (resolveNoting note store depth) r)
          (foldWithin store depth r) :=
        parametric_records.foldBy store ih (fun _ ρ begun => ⟨[], rfl, .nil ρ⟩)
          fun w ρ begun => ⟨[], rfl, .remember ρ r (some w)⟩
      obtain ⟨news, hrun, hnews⟩ := hfold (ρ.remember r none) (r :: begun)
      refine ⟨news ++ [r], ?_, (Begun.singleton hmemo).append hnews⟩
      rw [List.append_assoc]
      exact hrun
    · rw [resolveWithin_of_asked hmemo]
      exact ⟨[], rfl, .nil ρ⟩

lemma records_meet (store : Store) (d : Demand) : Records (meet store d) (d.meet store) := by
  rw [Demand.meet_eq]
  exact d.parametric_meetBy parametric_records (records_resolveNoting _)

end Recording

/-! ## The life of a resolver -/

/-- What happens in the life of a resolver: it is asked something, or an operation is performed on
the evidence. -/
inductive Happening where
  | demand (d : Demand)
  | operation (o : Operation)

/-- The operation that happens, if it is one. -/
def Happening.operation? : Happening → Option Operation
  | .demand _ => none
  | .operation o => some o

/-- A resolver, the evidence that it is on, and a record of the folds that began. -/
structure Life where
  evidence : Evidence
  resolver : Resolver
  /-- The sets whose folds began, latest first. -/
  begun : List ℕ

namespace Life

def next (l : Life) : Happening → Life
  | .operation o => { l with evidence := l.evidence.perform o }
  | .demand d =>
    let (_, resolver, begun) := Recording.meet l.evidence.store d (l.resolver, l.begun)
    { l with resolver, begun }

def go (l : Life) (hs : List Happening) : Life := hs.foldl next l

/-- What a stretch of life does: folds begin, types that were remembered are remembered still, and
the evidence is what the operations make of it. -/
structure Passes (l l' : Life) (hs : List Happening) : Prop where
  evidence : l'.evidence = l.evidence.performAll (hs.filterMap Happening.operation?)
  begun : ∃ news, l'.begun = news ++ l.begun ∧ Recording.Begun l.resolver l'.resolver news
  retains : Retains l.resolver l'.resolver

lemma passes_next (l : Life) (h : Happening) : l.Passes (l.next h) [h] := by
  cases h with
  | operation o => exact ⟨rfl, ⟨[], rfl, .nil _⟩, Std.Refl.refl l.resolver⟩
  | demand d =>
    obtain ⟨news, hmeet, hnews⟩ :=
      Recording.records_meet l.evidence.store d l.resolver l.begun
    have hnext : l.next (.demand d) =
        ⟨l.evidence, (d.meet l.evidence.store l.resolver).2, news ++ l.begun⟩ := by
      rw [next, hmeet]
    rw [hnext]
    exact ⟨rfl, ⟨news, rfl, hnews⟩, (d.endures_meet l.evidence.store l.resolver).1⟩

/-- What one happening does, a whole stretch of life does. -/
lemma passes_go (l : Life) (hs : List Happening) : l.Passes (l.go hs) hs := by
  induction hs generalizing l with
  | nil => exact ⟨rfl, ⟨[], rfl, .nil _⟩, Std.Refl.refl l.resolver⟩
  | cons h hs ih =>
    have hfirst := l.passes_next h
    have hrest := ih (l.next h)
    obtain ⟨news, hbegun, hnews⟩ := hfirst.begun
    obtain ⟨later, hbegun', hlater⟩ := hrest.begun
    refine ⟨?_, ⟨later ++ news, ?_, hnews.append hlater⟩, Trans.trans hfirst.retains hrest.retains⟩
    · have happend : (h :: hs).filterMap Happening.operation? =
          [h].filterMap Happening.operation? ++ hs.filterMap Happening.operation? :=
        List.filterMap_append (l := [h])
      have hevidence := hrest.evidence
      rw [hfirst.evidence] at hevidence
      rw [happend, Evidence.performAll, List.foldl_append]
      exact hevidence
    · rw [go, List.foldl_cons, List.append_assoc, ← hbegun]
      exact hbegun'

end Life

/-- What a demand comes to on a store, in some state of the resolver. -/
structure Demand.Ends (store : Store) (ρ : Resolver) (d : Demand) : Prop where
  /-- No bound on the folds inside one another is ever met. -/
  unmet : ∀ r, (d.meet store ρ).1 ≠ .error (.unresolved r)
  /-- The bound is no part of the answer. -/
  room : ∀ depth, store.sets.length < depth → d.meetWithin store depth ρ = d.meet store ρ
  /-- Folds begin once at most, and never of a set that was asked for before. -/
  recorded : ∀ begun, ∃ news, Recording.Begun ρ (d.meet store ρ).2 news ∧
    Recording.meet store d (ρ, begun) = ((d.meet store ρ).1, (d.meet store ρ).2, news ++ begun)
  /-- A type that is remembered is remembered still, also if there is no answer. -/
  remembered : ∀ i t, ρ.memo.get? i = some (some t) →
    (d.meet store ρ).2.memo.get? i = some (some t)
  /-- Where no fold was broken off before, an answer leaves none broken off. -/
  complete : ∀ o ρ', d.meet store ρ = (.ok o, ρ') → (∀ i, ρ.memo.get? i ≠ some none) →
    ∀ i, ρ'.memo.get? i ≠ some none

/-- Whatever a store is like, and whatever state a resolver is in, it meets demands and comes to an
end.  In its life each set is folded once at most, types that it remembers are never replaced, and
demands leave the evidence as it is. -/
theorem demands_end (e : Evidence) (ρ : Resolver) (d : Demand) (hs : List Happening) :
    d.Ends e.store ρ ∧
      let l := (⟨e, ρ, []⟩ : Life).go hs
      l.begun.Nodup ∧ (∀ r ∈ l.begun, ρ.memo.get? (r : ℤ) = none) ∧
        (∀ i t, ρ.memo.get? i = some (some t) → l.resolver.memo.get? i = some (some t)) ∧
        l.evidence = e.performAll (hs.filterMap Happening.operation?) := by
  constructor
  · obtain ⟨hretains, hunmet⟩ := d.endures_meet e.store ρ
    refine ⟨hunmet, fun depth hdepth => ?_, fun begun => ?_, hretains.known, ?_⟩
    · rw [Demand.meet_eq] at hunmet ⊢
      exact Demand.boundedBy_meetWithin hdepth d hunmet
    · obtain ⟨news, hmeet, hnews⟩ := Recording.records_meet e.store d ρ begun
      exact ⟨news, hnews, hmeet⟩
    · intro o ρ' hanswer hcomplete i hi
      exact hcomplete i ((d.keeps_meet hanswer).fresh i hi)
  · obtain ⟨hevidence, ⟨news, hbegun, hnews⟩, hretains⟩ := (⟨e, ρ, []⟩ : Life).passes_go hs
    rw [List.append_nil] at hbegun
    dsimp only
    rw [hbegun]
    exact ⟨hnews.nodup, hnews.unasked, hretains.known, hevidence⟩

end Resolver

end WhereClause
