import Mathlib.Data.List.Basic
import WhereClause.Proofs.Renaming.Freshening
import WhereClause.Scope.ParamMap

/-!
# Runs over the scopes of one numbering

What can be done to scopes, one act after another, and what the acts of a run make known: inside
which scope each was opened, and which name was declared where and as what (`Scopes.History`).  A
name can be declared at any time, in a scope that has others inside it as well, and parameters may
be handed out without being declared.

All that scopes hold can be read off the history of the run that led to them
(`Scopes.Leads.recorded`).
-/

namespace WhereClause.Scopes

/-! ## Acts and what they make known -/

/-- Something that can be done to scopes, or to the numbering that they share. -/
inductive Act where
  | openMap (outer : Option ℕ)
  | declare (i : ℕ) (name : String)
  | declareAll (i : ℕ) (names : List String)
  | addType (name : String)
  | addLifetime (name : String)
  | refresh (params : List GenericParam)

/-- The parameter that a name was declared to be, and in which scope. -/
structure Declaration where
  scope : ℕ
  name : String
  param : GenericParam

/-- What is known of a run: for each scope, in the order of opening, the scope around it, and the
declarations in the order in which they were made. -/
structure History where
  outers : List (Option ℕ)
  declarations : List Declaration

namespace History

/-- One history after another. -/
def append (h h' : History) : History :=
  ⟨h.outers ++ h'.outers, h.declarations ++ h'.declarations⟩

instance : Append History := ⟨append⟩

instance : EmptyCollection History := ⟨⟨[], []⟩⟩

@[simp] lemma outers_append (h h' : History) : (h ++ h').outers = h.outers ++ h'.outers := rfl

@[simp] lemma declarations_append (h h' : History) :
    (h ++ h').declarations = h.declarations ++ h'.declarations := rfl

@[simp] lemma append_empty (h : History) : h ++ (∅ : History) = h := by
  show History.mk (h.outers ++ []) (h.declarations ++ []) = h
  rw [List.append_nil, List.append_nil]

lemma append_assoc (h h' h'' : History) : h ++ h' ++ h'' = h ++ (h' ++ h'') := by
  show History.mk (h.outers ++ h'.outers ++ h''.outers)
    (h.declarations ++ h'.declarations ++ h''.declarations) = _
  rw [List.append_assoc, List.append_assoc]
  rfl

/-- Whether a name was declared in a scope. -/
def Declares (h : History) (i : ℕ) (name : String) : Prop :=
  ∃ d ∈ h.declarations, d.scope = i ∧ d.name = name

instance (h : History) (i : ℕ) (name : String) : Decidable (h.Declares i name) :=
  inferInstanceAs (Decidable (∃ d ∈ h.declarations, d.scope = i ∧ d.name = name))

end History

/-- What names declare in a scope, up to the first that cannot be declared. -/
def declarations (s : Scopes) (i : ℕ) : List String → List Declaration
  | [] => []
  | name :: names =>
    match s.declare i name with
    | .ok (s, p) => ⟨i, name, p⟩ :: s.declarations i names
    | .error _ => []

/-- What an act leaves behind, also if it fails midway. -/
def perform (s : Scopes) : Act → Scopes
  | .openMap outer => (s.openMap outer).1
  | .declare i name =>
    match s.declare i name with
    | .ok (s, _) => s
    | .error _ => s
  | .declareAll i names => (s.declareAll i names).1
  | .addType name => { s with numbering := (s.numbering.addType name).1 }
  | .addLifetime name => { s with numbering := (s.numbering.addLifetime name).1 }
  | .refresh params => { s with numbering := (s.numbering.refresh params).1 }

/-- What an act makes known. -/
def noted (s : Scopes) : Act → History
  | .openMap outer => ⟨[outer], []⟩
  | .declare i name => ⟨[], s.declarations i [name]⟩
  | .declareAll i names => ⟨[], s.declarations i names⟩
  | .addType _ | .addLifetime _ | .refresh _ => ∅

/-- Only scopes that were opened can be spoken of. -/
def Permits (s : Scopes) : Act → Prop
  | .openMap outer => ∀ j ∈ outer, j < s.maps.length
  | .declare i _ => i < s.maps.length
  | .declareAll i _ => i < s.maps.length
  | .addType _ | .addLifetime _ | .refresh _ => True

instance (s : Scopes) (a : Act) : Decidable (s.Permits a) :=
  match a with
  | .openMap outer => inferInstanceAs (Decidable (∀ j ∈ outer, j < s.maps.length))
  | .declare i _ => inferInstanceAs (Decidable (i < s.maps.length))
  | .declareAll i _ => inferInstanceAs (Decidable (i < s.maps.length))
  | .addType _ => isTrue trivial
  | .addLifetime _ => isTrue trivial
  | .refresh _ => isTrue trivial

/-- Acts one after the other lead from some scopes to others, with what they make known. -/
inductive Leads : Scopes → History → Scopes → Prop
  | nil (s : Scopes) : Leads s ∅ s
  | cons {s : Scopes} (a : Act) {h : History} {s' : Scopes} :
      s.Permits a → Leads (s.perform a) h s' → Leads s (s.noted a ++ h) s'

/-! ## Scopes by number -/

section

variable {maps : List ParamMap} {i j : ℕ}

lemma exists_mapAt? (h : i < maps.length) : ∃ m, mapAt? i maps = some m := by
  induction maps with
  | nil => cases h
  | cons m older ih =>
    rw [mapAt?]
    split_ifs with hi
    · exact ⟨m, rfl⟩
    · rw [List.length_cons] at h
      exact ih (by omega)

lemma lt_length_of_mapAt? {m : ParamMap} (h : mapAt? i maps = some m) : i < maps.length := by
  induction maps with
  | nil => cases h
  | cons m' older ih =>
    rw [mapAt?] at h
    rw [List.length_cons]
    split_ifs at h with hi
    · omega
    · exact Nat.lt_succ_of_lt (ih h)

lemma mapAt?_cons (m : ParamMap) (h : i < maps.length) :
    mapAt? i (m :: maps) = mapAt? i maps := by
  rw [mapAt?, if_neg (Nat.ne_of_lt h)]

lemma lookupIn_cons (name : String) (m : ParamMap) (h : i < maps.length) :
    lookupIn name i (m :: maps) = lookupIn name i maps := by
  rw [lookupIn, if_neg (Nat.ne_of_lt h)]

lemma length_modifyAt (i : ℕ) (f : Table String GenericParam → Table String GenericParam)
    (maps : List ParamMap) : (modifyAt i f maps).length = maps.length := by
  induction maps with
  | nil => rfl
  | cons m older ih =>
    rw [modifyAt]
    split_ifs
    · rfl
    · rw [List.length_cons, List.length_cons, ih]

/-- One scope is changed, and it keeps its place. -/
lemma mapAt?_modifyAt (f : Table String GenericParam → Table String GenericParam) :
    mapAt? j (modifyAt i f maps) =
      (mapAt? j maps).map fun m => if j = i then { m with bindings := f m.bindings } else m := by
  induction maps with
  | nil => rfl
  | cons m older ih =>
    rw [modifyAt, mapAt?]
    by_cases hi : i = older.length <;> by_cases hj : j = older.length
    · rw [if_pos hi, if_pos hj, mapAt?, if_pos hj, Option.map_some, if_pos (hj.trans hi.symm)]
    · have hji : j ≠ i := fun hji => hj (hji.trans hi)
      rw [if_pos hi, if_neg hj, mapAt?, if_neg hj]
      simp only [if_neg hji, Option.map_id_fun', id_eq]
    · rw [if_neg hi, if_pos hj, mapAt?, length_modifyAt, if_pos hj, Option.map_some,
        if_neg fun hji => hi (hji.symm.trans hj)]
    · rw [if_neg hi, if_neg hj, mapAt?, length_modifyAt, if_neg hj, ih]

/-- What a name means in a scope is what it was declared to be there, or else what it means in the
scope around it. -/
lemma lookupIn_eq (name : String)
    (houter : ∀ k m, mapAt? k maps = some m → ∀ j ∈ m.outer, j < k) {m : ParamMap}
    (hm : mapAt? i maps = some m) :
    lookupIn name i maps =
      (m.bindings.get? name).or (m.outer.bind fun j => lookupIn name j maps) := by
  induction maps with
  | nil => cases hm
  | cons newest older ih =>
    have holder : ∀ k m, mapAt? k older = some m → ∀ j ∈ m.outer, j < k := by
      intro k m hk
      refine houter k m ?_
      rwa [mapAt?_cons newest (lt_length_of_mapAt? hk)]
    -- whatever stands around a scope is older than the newest
    have hskip : ∀ j ∈ m.outer, lookupIn name j (newest :: older) = lookupIn name j older := by
      intro j hj
      have hji := houter i m hm j hj
      have hi := lt_length_of_mapAt? hm
      rw [List.length_cons] at hi
      exact lookupIn_cons name newest (by omega)
    have hbind : (m.outer.bind fun j => lookupIn name j (newest :: older)) =
        m.outer.bind fun j => lookupIn name j older := Option.bind_congr hskip
    rw [hbind]
    rw [mapAt?] at hm
    rw [lookupIn]
    split_ifs at hm ⊢ with hi
    · obtain rfl := Option.some.inj hm
      cases newest.bindings.get? name with
      | some p => rfl
      | none => cases newest.outer <;> rfl
    · exact ih holder hm

end

/-! ## Declarations -/

section

variable {s t : Scopes} {i : ℕ} {name : String} {p : GenericParam}

lemma number_addNamed (n : Numbering) (name : String) : (addNamed n name).2.number = n.next := by
  rw [addNamed]
  split_ifs <;> rfl

lemma next_addNamed (n : Numbering) (name : String) : (addNamed n name).1.next = n.next + 1 := by
  rw [addNamed]
  split_ifs
  · exact Numbering.next_addLifetime n name
  · exact Numbering.next_addType n name

lemma handedOut_addNamed (n : Numbering) (name : String) :
    (addNamed n name).1.handedOut = n.handedOut ++ [(addNamed n name).2] := by
  rw [addNamed]
  split_ifs <;> rfl

lemma declare_eq_error_iff {e : ScopeError} :
    s.declare i name = .error e ↔
      (s.bindings i).contains name = true ∧ e = .declaredTwice name := by
  rw [declare]
  split_ifs with hc
  · simp [hc, eq_comm]
  · simp [hc]

/-- What a declaration does, and when it is made. -/
lemma declare_eq_ok_iff :
    s.declare i name = .ok (t, p) ↔ (s.bindings i).get? name = none ∧
      addNamed s.numbering name = (t.numbering, p) ∧
        t.maps = modifyAt i (fun b => b.insert name p) s.maps := by
  have hcontains : (s.bindings i).contains name = true ↔ ¬ (s.bindings i).get? name = none := by
    rw [Table.contains, Option.isSome_iff_ne_none]
  obtain ⟨numbering, maps⟩ := t
  rw [declare]
  split_ifs with hc
  · simp [hcontains.1 hc]
  · rw [hcontains, not_not] at hc
    simp only [hc, true_and, Except.ok.injEq, Scopes.mk.injEq, Prod.ext_iff]
    constructor
    · rintro ⟨⟨rfl, rfl⟩, rfl⟩
      exact ⟨⟨rfl, rfl⟩, rfl⟩
    · rintro ⟨⟨rfl, rfl⟩, rfl⟩
      exact ⟨⟨rfl, rfl⟩, rfl⟩

/-- A declaration binds one name in one scope. -/
lemma get?_bindings_declare (hi : i < s.maps.length) (h : s.declare i name = .ok (t, p)) (j : ℕ)
    (x : String) :
    (t.bindings j).get? x = if j = i ∧ x = name then some p else (s.bindings j).get? x := by
  obtain ⟨-, -, hmaps⟩ := declare_eq_ok_iff.1 h
  rw [bindings, bindings, hmaps, mapAt?_modifyAt]
  by_cases hj : j = i
  · subst hj
    obtain ⟨m, hm⟩ := exists_mapAt? hi
    rw [hm, Option.map_some, if_pos rfl, Option.map_some, Option.getD_some, Table.get?_insert,
      Option.map_some, Option.getD_some]
    simp only [true_and, beq_iff_eq, @eq_comm _ name x]
  · simp only [hj, if_false, false_and, Option.map_id_fun', id_eq]

/-- One name is a list of names. -/
lemma perform_declare (s : Scopes) (i : ℕ) (name : String) :
    s.perform (.declare i name) = (s.declareAll i [name]).1 := by
  rw [perform, declareAll]
  cases s.declare i name <;> rfl

lemma length_maps_declare (h : s.declare i name = .ok (t, p)) :
    t.maps.length = s.maps.length := by
  obtain ⟨-, -, hmaps⟩ := declare_eq_ok_iff.1 h
  rw [hmaps, length_modifyAt]

/-- A scope that is opened brings no bindings with it. -/
lemma bindings_openMap (s : Scopes) (outer : Option ℕ) (i : ℕ) :
    (s.openMap outer).1.bindings i = s.bindings i := by
  rw [openMap, bindings, bindings, mapAt?]
  split_ifs with hi
  · have hnone : mapAt? i s.maps = none := by
      by_contra hsome
      obtain ⟨m, hm⟩ := Option.ne_none_iff_exists'.1 hsome
      exact Nat.ne_of_lt (lt_length_of_mapAt? hm) hi
    rw [hnone]
    rfl
  · rfl

end

/-! ## What scopes hold -/

/-- All that scopes hold is known from a history. -/
structure Recorded (h : History) (s : Scopes) : Prop where
  length_eq : s.maps.length = h.outers.length
  outer_eq : ∀ i m, mapAt? i s.maps = some m → h.outers[i]? = some m.outer
  outer_lt : ∀ i j : ℕ, h.outers[i]? = some (some j) → j < i
  bound_iff : ∀ i name p, (s.bindings i).get? name = some p ↔ ⟨i, name, p⟩ ∈ h.declarations
  ascending : h.declarations.Pairwise fun d e => d.param.number < e.param.number
  number_lt : ∀ d ∈ h.declarations, d.param.number < s.numbering.next

lemma recorded_start (n : Numbering) : Recorded ∅ ⟨n, []⟩ where
  length_eq := rfl
  outer_eq := by
    rintro i m ⟨⟩
  outer_lt := by
    rintro i j ⟨⟩
  bound_iff := fun i name p => ⟨fun h => (by cases h), fun h => absurd h List.not_mem_nil⟩
  ascending := .nil
  number_lt := List.forall_mem_nil _

namespace Recorded

variable {h : History} {s : Scopes} (hr : Recorded h s)

include hr

/-- Parameters may be handed out without being declared. -/
lemma handOut {n : Numbering} (hn : s.numbering.next ≤ n.next) :
    Recorded h { s with numbering := n } where
  length_eq := hr.length_eq
  outer_eq := hr.outer_eq
  outer_lt := hr.outer_lt
  bound_iff := hr.bound_iff
  ascending := hr.ascending
  number_lt := fun d hd => (hr.number_lt d hd).trans_le (by exact_mod_cast hn)

lemma openMap {outer : Option ℕ} (houter : ∀ j ∈ outer, j < s.maps.length) :
    Recorded (h ++ ⟨[outer], []⟩) (s.openMap outer).1 where
  length_eq := by
    rw [History.outers_append, List.length_append, ← hr.length_eq]
    rfl
  outer_eq := by
    intro i m hm
    rw [History.outers_append]
    rw [Scopes.openMap, mapAt?] at hm
    split_ifs at hm with hi
    · rw [hi, hr.length_eq, List.getElem?_concat_length, ← Option.some.inj hm]
    · have hlt := lt_length_of_mapAt? hm
      rw [hr.length_eq] at hlt
      rw [List.getElem?_append_left hlt, hr.outer_eq i m hm]
  outer_lt := by
    intro i j hij
    rw [History.outers_append, getElem?_concat_eq_some_iff] at hij
    obtain hold | ⟨rfl, hlast⟩ := hij
    · exact hr.outer_lt i j hold
    · rw [← hr.length_eq]
      exact houter j hlast
  bound_iff := by
    intro i name p
    rw [bindings_openMap, hr.bound_iff, History.declarations_append, List.append_nil]
  ascending := by
    rw [History.declarations_append, List.append_nil]
    exact hr.ascending
  number_lt := by
    rw [History.declarations_append, List.append_nil]
    exact hr.number_lt

lemma declare {i : ℕ} {name : String} {t : Scopes} {p : GenericParam} (hi : i < s.maps.length)
    (hd : s.declare i name = .ok (t, p)) : Recorded (h ++ ⟨[], [⟨i, name, p⟩]⟩) t := by
  obtain ⟨hnew, hadd, hmaps⟩ := declare_eq_ok_iff.1 hd
  have hnumber : p.number = s.numbering.next := by
    rw [← number_addNamed s.numbering name, hadd]
  have hnext : t.numbering.next = s.numbering.next + 1 := by
    rw [← next_addNamed s.numbering name, hadd]
  have houters : (h ++ ⟨[], [⟨i, name, p⟩]⟩ : History).outers = h.outers := List.append_nil _
  constructor
  · rw [length_maps_declare hd, houters, hr.length_eq]
  · intro j m hm
    rw [hmaps, mapAt?_modifyAt] at hm
    obtain ⟨m', hm', rfl⟩ := Option.map_eq_some_iff.1 hm
    rw [houters, hr.outer_eq j m' hm']
    split_ifs <;> rfl
  · rw [houters]
    exact hr.outer_lt
  · intro j x q
    rw [get?_bindings_declare hi hd, History.declarations_append, List.mem_append,
      List.mem_singleton, ← hr.bound_iff, Declaration.mk.injEq]
    by_cases hjx : j = i ∧ x = name
    · obtain ⟨rfl, rfl⟩ := hjx
      simp [hnew, eq_comm]
    · rw [if_neg hjx]
      simp only [← and_assoc, hjx, false_and, or_false]
  · refine List.pairwise_append.2 ⟨hr.ascending, List.pairwise_singleton _ _, ?_⟩
    intro d hd' e he
    obtain rfl := List.mem_singleton.1 he
    rw [hnumber]
    exact hr.number_lt d hd'
  · intro d hd'
    rw [hnext]
    rcases List.mem_append.1 hd' with hin | hin
    · have hlt := hr.number_lt d hin
      omega
    · obtain rfl := List.mem_singleton.1 hin
      rw [hnumber]
      omega

lemma declareAll {i : ℕ} (hi : i < s.maps.length) (names : List String) :
    Recorded (h ++ ⟨[], s.declarations i names⟩) (s.declareAll i names).1 := by
  induction names generalizing h s with
  | nil =>
    rw [declarations, Scopes.declareAll]
    exact (History.append_empty h).symm ▸ hr
  | cons name names ih =>
    rw [declarations, Scopes.declareAll]
    cases hd : s.declare i name with
    | error e => exact (History.append_empty h).symm ▸ hr
    | ok answer =>
      obtain ⟨t, p⟩ := answer
      have hrest := ih (hr.declare hi hd) (length_maps_declare hd ▸ hi)
      rw [History.append_assoc] at hrest
      exact hrest

/-- Whatever is done, what the scopes hold afterwards is known from what was known before and what
the act makes known. -/
lemma perform (a : Act) (ha : s.Permits a) : Recorded (h ++ s.noted a) (s.perform a) := by
  cases a with
  | openMap outer => exact hr.openMap ha
  | declare i name =>
    rw [perform_declare]
    exact hr.declareAll ha [name]
  | declareAll i names => exact hr.declareAll ha names
  | addType name =>
    rw [noted, History.append_empty]
    exact hr.handOut (by rw [Numbering.next_addType]; exact Nat.le_succ _)
  | addLifetime name =>
    rw [noted, History.append_empty]
    exact hr.handOut (by rw [Numbering.next_addLifetime]; exact Nat.le_succ _)
  | refresh params =>
    rw [noted, History.append_empty]
    exact hr.handOut (Numbering.freshens_refresh s.numbering params).1

end Recorded

lemma Leads.recorded {s s' : Scopes} {h h' : History} (hl : Leads s h' s') (hr : Recorded h s) :
    Recorded (h ++ h') s' := by
  induction hl generalizing h with
  | nil s => rwa [History.append_empty]
  | cons a ha _ ih =>
    have hrest := ih (hr.perform a ha)
    rwa [History.append_assoc] at hrest

end WhereClause.Scopes
