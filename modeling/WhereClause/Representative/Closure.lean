import WhereClause.Ty.Nested
import WhereClause.Representative.Resolver

/-!
# Sets that a list of parameters leads to

Each parameter leads to the representative of its set, that one to the parameters nested in it,
those to the representatives of their own sets, and so on until nothing new turns up. The closure is
the sets of all nested parameters that are met. A parameter that belongs to no set gets a new one
for itself alone, which is the only change to the store.

The search goes depth first: of the parameters nested in a representative, the last is looked into
first.
-/

namespace WhereClause

/-- A search under way. -/
structure Search where
  store : Store
  resolver : Resolver
  /-- The sets found, in the order found. -/
  found : List Nat
  /-- The sets looked into. -/
  visited : List Nat
  /-- The sets to look into, next one first. -/
  agenda : List Nat

namespace Search

/-- Gives a parameter a set if it has none, and puts the set on the agenda. -/
def seed (s : Search) (p : Param) : Search :=
  let (store, r) := s.store.ensure (.param p)
  { s with store, agenda := r :: s.agenda }

/-- Notes that a parameter was met: its set is found, and is to be looked into. -/
def note (s : Search) (p : Param) : Search :=
  let (store, r) := s.store.ensure (.param p)
  { s with store, found := Distinct.add s.found r, agenda := r :: s.agenda }

/-- The parameters that lead on from a set, found through its representative. -/
def paramsFrom (store : Store) (r : Nat) : Resolving (List Param) := do
  match ← Resolver.resolve store r with
  | none => throw (.unresolved r)
  | some representative =>
    match representative.nestedParams with
    | .error cause => throw (.ofCause cause)
    | .ok params => return params

/-- Looks into one set after another, at most as many as `steps`, until nothing is on the agenda
that was not looked into. -/
def run : Nat → Search → Search × Except Fault (List Nat)
  | 0, s =>
    match s.agenda.dropWhile s.visited.contains with
    | [] => ({ s with agenda := [] }, .ok s.found)
    | r :: _ => (s, .error (.unresolved r))
  | steps + 1, s =>
    match s.agenda.dropWhile s.visited.contains with
    | [] => ({ s with agenda := [] }, .ok s.found)
    | r :: agenda =>
      match paramsFrom s.store r s.resolver with
      | (.error fault, resolver) => ({ s with resolver, agenda }, .error fault)
      | (.ok params, resolver) =>
        run steps (params.foldl note { s with resolver, agenda, visited := r :: s.visited })

/-- How many mentions of parameters the members of a store and the representatives that are
remembered hold. No more sets than that can be new in a search. -/
def mentionCount (store : Store) (resolver : Resolver) : Nat :=
  (store.sets.flatMap Ty.mentionsEach).length +
    (resolver.memo.entries.flatMap fun e => (e.2.map Ty.mentions).getD []).length

end Search

/-- The sets that parameters lead to, with the store and the resolver after the search. What the
search did to both stands also if it fails. -/
def closure (store : Store) (resolver : Resolver) (params : List Param) :
    Search × Except Fault (List Nat) :=
  let s := params.foldl Search.seed ⟨store, resolver, [], [], []⟩
  s.run (s.store.sets.length + Search.mentionCount s.store s.resolver + 1)

end WhereClause
