import Mathlib.Data.List.Basic
import WhereClause.Proofs.Renaming.Freshening

/-!
# Numbers read off a catalogue

A numbering can leave its books to a classifier, which catalogues what it is shown and keeps an
exemplar of each item.  The next number is then the size of the catalogue.  This is right only as
long as all that is shown to the classifier is new to it, and the catalogue tells parameters apart
by sort and number: the numbers so far must be right for the next one to be so.

The invariant that carries itself through this circle is `Classifier.Keeps`: all that is in the
catalogue has an earlier number than the next.  With it, it is enough to know what a classifier does
with new items (`Classifier.Consecutive`), and it answers as the `Numbering` does that lists what it
handed out (`Classifier.Mirrors`).
-/

namespace WhereClause

/-- Something that is shown parameters, and keeps a catalogue of them with a number for each, and
exemplars in order. -/
structure Classifier (σ : Type) where
  start : σ
  catalog : σ → Table GenericParam ℕ
  exemplars : σ → List GenericParam
  /-- The state after a parameter was shown. -/
  classify : σ → GenericParam → σ

namespace Classifier

variable {σ : Type} (c : Classifier σ)

/-- What a numbering may rely on: an item unlike all in the catalogue is given the next consecutive
number and appended to the exemplars.  What is done with any other item is left open. -/
structure Consecutive : Prop where
  catalog_start : c.catalog c.start = ∅
  exemplars_start : c.exemplars c.start = []
  catalog_classify : ∀ s p, (c.catalog s).contains p = false →
    c.catalog (c.classify s p) = (c.catalog s).insert p (c.catalog s).size
  exemplars_classify : ∀ s p, (c.catalog s).contains p = false →
    c.exemplars (c.classify s p) = c.exemplars s ++ [p]

/-! ## Handing out parameters -/

/-- The number that the next parameter gets. -/
def next (s : σ) : ℕ := (c.catalog s).size

/-- Hands out a type parameter. -/
def addType (s : σ) (name : String) : σ × Param :=
  let p : Param := ⟨c.next s, name⟩
  (c.classify s (.type p), p)

/-- Hands out a lifetime. -/
def addLifetime (s : σ) (name : String) : σ × Lifetime :=
  let l : Lifetime := ⟨c.next s, Numbering.lifetimeName name⟩
  (c.classify s (.lifetime l), l)

/-- Hands out a parameter of the sort of a given one, under its name. -/
def addLike (s : σ) : GenericParam → σ × GenericParam
  | .type p => let (s, q) := c.addType s p.name; (s, .type q)
  | .lifetime l => let (s, k) := c.addLifetime s l.name; (s, .lifetime k)

/-- Hands out a fresh parameter for each of a list.  Entered into a table one after the other, the
pairs say what to put in the place of which parameter. -/
def refresh (s : σ) (params : List GenericParam) : σ × List (GenericParam × GenericParam) :=
  params.foldl
    (fun (s, pairs) p =>
      let (s, q) := c.addLike s p
      (s, pairs ++ [(p, q)]))
    (s, [])

/-- The parameter that was handed out with a number; a negative one counts from the last. -/
def exemplar? (s : σ) (number : Int) : Option GenericParam :=
  itemAt? (c.exemplars s) number

/-- The name that the bearer of a parameter's number was handed out with. -/
def nameOf? (s : σ) (p : GenericParam) : Option String :=
  (c.exemplar? s p.number).map GenericParam.name

lemma refresh_concat (s : σ) (params : List GenericParam) (p : GenericParam) :
    c.refresh s (params ++ [p]) = ((c.addLike (c.refresh s params).1 p).1,
      (c.refresh s params).2 ++ [(p, (c.addLike (c.refresh s params).1 p).2)]) := by
  rw [refresh, List.foldl_append]
  rfl

/-! ## Keeping the books of a numbering -/

/-- The classifier has what the numbering handed out for exemplars.  Numbers are positions, and
whatever the catalogue holds has an earlier number than the next parameter. -/
structure Keeps (s : σ) (n : Numbering) : Prop where
  size_eq : (c.catalog s).size = n.next
  exemplars_eq : c.exemplars s = n.handedOut
  number_lt : ∀ p, (c.catalog s).contains p = true → p.number < n.next
  numbered : ∀ (k : ℕ) p, n.handedOut[k]? = some p → p.number = k

/-- The same answer, with the books kept. -/
def Mirrors {α : Type} (r : σ × α) (r' : Numbering × α) : Prop :=
  c.Keeps r.1 r'.1 ∧ r.2 = r'.2

variable {c} (hc : c.Consecutive) {s : σ} {n : Numbering}

include hc

lemma Consecutive.keeps_start : c.Keeps c.start ∅ where
  size_eq := by
    rw [hc.catalog_start]
    rfl
  exemplars_eq := hc.exemplars_start
  number_lt := by
    intro p hp
    rw [hc.catalog_start] at hp
    cases hp
  numbered := by
    rintro k p ⟨⟩

/-- Whoever bears the next number is new to the catalogue, so it is catalogued. -/
lemma Keeps.classify (h : c.Keeps s n) {p : GenericParam} (hp : p.number = n.next) :
    c.Keeps (c.classify s p) ⟨n.handedOut ++ [p]⟩ := by
  have hnext : (Numbering.mk (n.handedOut ++ [p])).next = n.next + 1 := List.length_append
  -- the laws are about new items only, and all that was catalogued has an earlier number
  have hunseen : (c.catalog s).contains p = false := by
    by_contra hseen
    have hlt := h.number_lt p (by simpa using hseen)
    omega
  have hnone : (c.catalog s).get? p = none := by
    rwa [Table.contains, Option.isSome_eq_false_iff, Option.isNone_iff_eq_none] at hunseen
  constructor
  · rw [hc.catalog_classify s p hunseen, Table.size_insert_of_get?_eq_none hnone, h.size_eq, hnext]
  · rw [hc.exemplars_classify s p hunseen, h.exemplars_eq]
  · intro q hq
    rw [hc.catalog_classify s p hunseen, Table.contains, Table.get?_insert] at hq
    rw [hnext]
    split_ifs at hq with hpq
    · rw [← GenericParam.number_eq_of_beq hpq]
      omega
    · have hlt := h.number_lt q hq
      omega
  · intro k q hq
    obtain hold | ⟨rfl, rfl⟩ := getElem?_concat_eq_some_iff.1 hq
    · exact h.numbered k q hold
    · exact hp

namespace Keeps

variable (h : c.Keeps s n)

include h

lemma addType (name : String) : c.Mirrors (c.addType s name) (n.addType name) := by
  rw [Classifier.addType, next, h.size_eq]
  exact ⟨h.classify hc rfl, rfl⟩

lemma addLifetime (name : String) : c.Mirrors (c.addLifetime s name) (n.addLifetime name) := by
  rw [Classifier.addLifetime, next, h.size_eq]
  exact ⟨h.classify hc rfl, rfl⟩

lemma addLike (p : GenericParam) : c.Mirrors (c.addLike s p) (n.addLike p) := by
  cases p with
  | type p => exact ⟨(h.addType hc p.name).1, congrArg _ (h.addType hc p.name).2⟩
  | lifetime l => exact ⟨(h.addLifetime hc l.name).1, congrArg _ (h.addLifetime hc l.name).2⟩

/-- The table of the pairs is the one that the numbering makes, and the fresh parameters are what it
hands out. -/
lemma refresh (params : List GenericParam) :
    c.Keeps (c.refresh s params).1 (n.refresh params).1 ∧
      Table.ofPairs (c.refresh s params).2 = (n.refresh params).2 ∧
      (n.refresh params).1.handedOut = n.handedOut ++ (c.refresh s params).2.map Prod.snd := by
  induction params using List.reverseRecOn with
  | nil => exact ⟨h, rfl, (List.append_nil _).symm⟩
  | append_singleton params p ih =>
    obtain ⟨hkeeps, htable, hout⟩ := ih
    obtain ⟨hkeeps', hfresh⟩ := hkeeps.addLike hc p
    rw [refresh_concat, Numbering.refresh_concat]
    refine ⟨hkeeps', ?_, ?_⟩
    · rw [Table.ofPairs_concat, htable, hfresh]
    · rw [Numbering.handedOut_addLike, hout, hfresh, List.map_append, List.append_assoc]
      rfl

end Keeps

end Classifier

end WhereClause
