import WhereClause.Indexing
import WhereClause.Table
import WhereClause.Distinct
import WhereClause.Ty.Renaming
import WhereClause.Failure.Basic

/-!
# Equality sets

The store keeps types that were found equal in one set. Sets are known by their position, and an
index tells for each type the set that it belongs to. When two types belong to different sets, the
smaller set is folded into the larger, so that sets stay disjoint; its position stays, empty.

The store also remembers which call brought a type in: the call that was being looked at when the
type first joined a set.

## Main declarations

* `Store`: the sets, the index and the origins.
* `Store.add`: how a type joins a set; all other operations go through it.
* `Store.plan`, `Store.merge`: what finding two types equal does.
-/

namespace WhereClause

/-- How two sets become one. -/
inductive MergeMode where
  /-- All members of the smaller set move to the larger. -/
  | union
  /-- Only the second of the two types joins the set of the first. The other members of its old set
  stay behind, and there it stays listed. -/
  | legacy
  deriving DecidableEq

/-- How a type first came into the store. -/
structure Origin where
  /-- How many types with an origin came before it. -/
  serial : Nat
  function : String
  site : Option Site

/-- Sets of types that were found equal. -/
structure Store where
  mode : MergeMode
  sets : List (List Ty)
  index : Table Ty Nat
  origins : Table Ty Origin
  /-- The function and the site that new types are put down to. -/
  current : Option (String × Option Site)

namespace Store

def empty (mode : MergeMode) : Store := ⟨mode, [], ∅, ∅, none⟩

/-! ## Looking things up -/

/-- The set that a type belongs to. -/
def setOf (s : Store) (t : Ty) : Option Nat := s.index.get? t

def contains (s : Store) (t : Ty) : Bool := (s.setOf t).isSome

/-- The members listed at a position, which may be counted from the end. -/
def members? (s : Store) (position : Int) : Option (List Ty) := itemAt? s.sets position

/-- The members of a set. -/
def members (s : Store) (r : Nat) : List Ty := (s.sets[r]?).getD []

/-- The sets that have members, by position. -/
def refs (s : Store) : List Nat :=
  (List.range s.sets.length).filter fun r => !(s.members r).isEmpty

/-- How many sets have members. -/
def size (s : Store) : Nat := s.refs.length

def originOf (s : Store) (t : Ty) : Option Origin := s.origins.get? t

/-! ## Joining sets -/

/-- Types that first turn up from here on are put down to this call. -/
def enter (s : Store) (function : String) (site : Option Site) : Store :=
  { s with current := some (function, site) }

/-- Types that turn up from here on are put down to no call. -/
def leave (s : Store) : Store := { s with current := none }

/-- The origins after a type joined a set: a type keeps the first it has. -/
def originsWith (s : Store) (t : Ty) : Table Ty Origin :=
  match s.current with
  | none => s.origins
  | some (function, site) =>
    if s.origins.contains t then s.origins
    else s.origins.insert t ⟨s.origins.size, function, site⟩

/-- A type joins a set. Where an equal one is listed already, that one stays. -/
def add (s : Store) (t : Ty) (r : Nat) : Store :=
  { s with
    sets := s.sets.modify r (Distinct.add · t)
    index := s.index.insert t r
    origins := s.originsWith t }

/-- Types join a set one after the other. -/
def addAll (s : Store) (ts : List Ty) (r : Nat) : Store :=
  ts.foldl (fun s t => s.add t r) s

/-- A new set of the types given; the answer is its position. -/
def newSet (s : Store) (ts : List Ty) : Store × Nat :=
  (addAll { s with sets := s.sets ++ [[]] } ts s.sets.length, s.sets.length)

/-- The set of a type, which is a new one if it has none. -/
def ensure (s : Store) (t : Ty) : Store × Nat :=
  match s.setOf t with
  | some r => (s, r)
  | none => s.newSet [t]

/-- Moves all members of one set to the end of another, one by one, and leaves the first empty. -/
def absorb (s : Store) (source target : Nat) : Store :=
  addAll { s with sets := s.sets.set source [] } (s.members source) target

/-! ## Finding types equal -/

/-- What is to be done when two types are found equal. -/
inductive Merge where
  | found (a b : Ty)
  | join (t : Ty) (r : Nat)
  | fold (source target : Nat)
  | nothing

/-- Neither type known, they found a set; one known, the other joins it; in two sets, the smaller is
folded into the larger, and of two of one size the second into the first. -/
def plan (s : Store) (a b : Ty) : Merge :=
  match s.setOf a, s.setOf b with
  | none, none => .found a b
  | some r, none => .join b r
  | none, some r => .join a r
  | some r, some q =>
    if r = q then .nothing
    else
      match s.mode with
      | .legacy => .join b r
      | .union => if (s.members r).length < (s.members q).length then .fold r q else .fold q r

def perform (s : Store) : Merge → Store
  | .found a b => (s.newSet [a, b]).1
  | .join t r => s.add t r
  | .fold source target => s.absorb source target
  | .nothing => s

/-- Two types are found equal. -/
def merge (s : Store) (a b : Ty) : Store := s.perform (s.plan a b)

/-! ## What joining a set shows -/

@[simp] theorem setOf_empty (mode : MergeMode) (t : Ty) : (empty mode).setOf t = none := rfl

theorem setOf_add (s : Store) (t u : Ty) (r : Nat) :
    (s.add t r).setOf u = if t == u then some r else s.setOf u :=
  Table.get?_insert s.index t u r

theorem members_add (s : Store) (t : Ty) (r q : Nat) (hr : r < s.sets.length) :
    (s.add t r).members q = if r = q then Distinct.add (s.members r) t else s.members q := by
  by_cases h : r = q
  · subst h
    simp [members, add, List.getElem?_eq_getElem hr]
  · simp [members, add, h]

@[simp] theorem length_sets_add (s : Store) (t : Ty) (r : Nat) :
    (s.add t r).sets.length = s.sets.length := by simp [add]

@[simp] theorem length_sets_addAll (s : Store) (ts : List Ty) (r : Nat) :
    (s.addAll ts r).sets.length = s.sets.length := by
  unfold addAll
  induction ts generalizing s with
  | nil => rfl
  | cons t ts ih => rw [List.foldl_cons, ih, length_sets_add]

/-- The position of a set is never taken back. -/
theorem length_sets_le_merge (s : Store) (a b : Ty) :
    s.sets.length ≤ (s.merge a b).sets.length := by
  unfold merge
  cases s.plan a b <;> simp [perform, newSet, absorb]

end Store

end WhereClause
