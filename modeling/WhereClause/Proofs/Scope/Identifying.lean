import WhereClause.Proofs.Scope.Cataloguing
import WhereClause.Proofs.Scope.Running

/-!
# Parameters identified by their numbers

There are four ways to a new parameter: it is asked for as a type parameter or as a lifetime, it
replaces another one, or a scope declares it.  Whichever are taken, and in whatever order, the
parameters that a run hands out bear the numbers `0, 1, 2, …`, and each is found again under its
number (`Classifier.numbers_identify`).

The scopes of this module have their parameters numbered by a classifier, of which only
`Classifier.Consecutive` is known.  A run logs what it hands out, with the name that was asked for
(`Allocation`), and it goes along with the run of `Scopes` under the same acts
(`Classifier.Tracks`).
-/

namespace WhereClause

/-- Scopes, newest first, with the state of the classifier that numbers their parameters. -/
structure ClassifiedScopes (σ : Type) where
  state : σ
  maps : List ParamMap

/-- A parameter that was handed out, and the name that was asked for. -/
structure Allocation where
  asked : String
  param : GenericParam

/-- The name that a parameter is given: that of a lifetime does without leading apostrophes. -/
def Allocation.name (a : Allocation) : String :=
  match a.param with
  | .type _ => a.asked
  | .lifetime _ => Numbering.lifetimeName a.asked

namespace Classifier

variable {σ : Type} (c : Classifier σ)

/-! ## Runs that log what they hand out -/

/-- Hands out the parameter that a name declares: a lifetime if it is written with an
apostrophe. -/
def addNamed (s : σ) (name : String) : σ × GenericParam :=
  if name.toList.head? == some '\x27' then
    let (s, l) := c.addLifetime s name; (s, .lifetime l)
  else
    let (s, p) := c.addType s name; (s, .type p)

/-- Declares a name in a scope, which must not have declared it before. -/
def declare (t : ClassifiedScopes σ) (i : ℕ) (name : String) :
    Except ScopeError (ClassifiedScopes σ × GenericParam) :=
  if (((Scopes.mapAt? i t.maps).map ParamMap.bindings).getD ∅).contains name then
    .error (.declaredTwice name)
  else
    let (s, p) := c.addNamed t.state name
    .ok (⟨s, Scopes.modifyAt i (·.insert name p) t.maps⟩, p)

/-- Declares names in order, up to the first that cannot be declared. -/
def declareAll (t : ClassifiedScopes σ) (i : ℕ) :
    List String → ClassifiedScopes σ × List Allocation
  | [] => (t, [])
  | name :: names =>
    match c.declare t i name with
    | .error _ => (t, [])
    | .ok (t, p) =>
      let (t, rest) := declareAll t i names
      (t, ⟨name, p⟩ :: rest)

/-- What an act leaves behind, and what it hands out in order. -/
def perform (t : ClassifiedScopes σ) : Scopes.Act → ClassifiedScopes σ × List Allocation
  | .openMap outer => ({ t with maps := ⟨outer, ∅⟩ :: t.maps }, [])
  | .declare i name => c.declareAll t i [name]
  | .declareAll i names => c.declareAll t i names
  | .addType name =>
    let (s, p) := c.addType t.state name
    ({ t with state := s }, [⟨name, .type p⟩])
  | .addLifetime name =>
    let (s, l) := c.addLifetime t.state name
    ({ t with state := s }, [⟨name, .lifetime l⟩])
  | .refresh params =>
    let (s, pairs) := c.refresh t.state params
    ({ t with state := s }, pairs.map fun e => ⟨e.1.name, e.2⟩)

/-- What acts one after the other leave behind and hand out. -/
def run (t : ClassifiedScopes σ) : List Scopes.Act → ClassifiedScopes σ × List Allocation
  | [] => (t, [])
  | a :: acts =>
    let (t, out) := c.perform t a
    let (t, rest) := run t acts
    (t, out ++ rest)

/-! ## Going along with the scopes of a numbering -/

/-- The scopes are the same, and the classifier keeps the books of the numbering.  It handed out
what is logged since it was at `n`, each parameter under the name that was asked for. -/
structure Tracks (n : Numbering) (r : ClassifiedScopes σ × List Allocation) (s : Scopes) :
    Prop where
  keeps : c.Keeps r.1.state s.numbering
  maps_eq : r.1.maps = s.maps
  handedOut_eq : s.numbering.handedOut = n.handedOut ++ r.2.map Allocation.param
  named : ∀ a ∈ r.2, a.param.name = a.name

namespace Tracks

variable {c} {n : Numbering} {t : ClassifiedScopes σ} {s : Scopes}

lemma nil (hkeeps : c.Keeps t.state s.numbering) (hmaps : t.maps = s.maps) :
    c.Tracks s.numbering (t, []) s where
  keeps := hkeeps
  maps_eq := hmaps
  handedOut_eq := (List.append_nil _).symm
  named := List.forall_mem_nil _

lemma append {t' : ClassifiedScopes σ} {out out' : List Allocation} {s' : Scopes}
    (h : c.Tracks n (t, out) s) (h' : c.Tracks s.numbering (t', out') s') :
    c.Tracks n (t', out ++ out') s' where
  keeps := h'.keeps
  maps_eq := h'.maps_eq
  handedOut_eq := by
    rw [h'.handedOut_eq, h.handedOut_eq, List.map_append, List.append_assoc]
  named := List.forall_mem_append.2 ⟨h.named, h'.named⟩

/-- One parameter is handed out. -/
lemma single {state : σ} {n' : Numbering} {maps : List ParamMap} {a : Allocation}
    (hkeeps : c.Keeps state n') (hout : n'.handedOut = n.handedOut ++ [a.param])
    (hname : a.param.name = a.name) : c.Tracks n (⟨state, maps⟩, [a]) ⟨n', maps⟩ where
  keeps := hkeeps
  maps_eq := rfl
  handedOut_eq := hout
  named := List.forall_mem_singleton.2 hname

end Tracks

lemma name_addNamed (s : σ) (name : String) :
    (c.addNamed s name).2.name = Allocation.name ⟨name, (c.addNamed s name).2⟩ := by
  rw [addNamed]
  split_ifs <;> rfl

/-- Fresh parameters go by the names of those that they replace. -/
lemma named_refresh (s : σ) (params : List GenericParam) :
    ∀ e ∈ (c.refresh s params).2, e.2.name = Allocation.name ⟨e.1.name, e.2⟩ := by
  induction params using List.reverseRecOn with
  | nil => exact List.forall_mem_nil _
  | append_singleton params p ih =>
    rw [refresh_concat]
    refine List.forall_mem_append.2 ⟨ih, List.forall_mem_singleton.2 ?_⟩
    cases p <;> rfl

section

variable {c} (hc : c.Consecutive)

include hc

lemma Keeps.addNamed {s : σ} {n : Numbering} (h : c.Keeps s n) (name : String) :
    c.Mirrors (c.addNamed s name) (Scopes.addNamed n name) := by
  rw [Classifier.addNamed, Scopes.addNamed]
  split_ifs
  · exact ⟨(h.addLifetime hc name).1, congrArg _ (h.addLifetime hc name).2⟩
  · exact ⟨(h.addType hc name).1, congrArg _ (h.addType hc name).2⟩

variable {t : ClassifiedScopes σ} {s : Scopes} (hkeeps : c.Keeps t.state s.numbering)
  (hmaps : t.maps = s.maps)

include hkeeps hmaps

/-- A name can be declared in both scopes, and is then the same parameter, or in neither. -/
lemma tracks_declare (i : ℕ) (name : String) :
    (∃ e, c.declare t i name = .error e ∧ s.declare i name = .error e) ∨
      ∃ t' s' p, c.declare t i name = .ok (t', p) ∧ s.declare i name = .ok (s', p) ∧
        c.Tracks s.numbering (t', [⟨name, p⟩]) s' := by
  have hmirrors := hkeeps.addNamed hc name
  have hout := Scopes.handedOut_addNamed s.numbering name
  have hname := name_addNamed c t.state name
  rw [declare, Scopes.declare, Scopes.bindings, hmaps]
  generalize c.addNamed t.state name = r at hmirrors hname ⊢
  generalize Scopes.addNamed s.numbering name = r' at hmirrors hout ⊢
  obtain ⟨state, p⟩ := r
  obtain ⟨n, q⟩ := r'
  obtain ⟨hkeeps', rfl⟩ : c.Keeps state n ∧ p = q := hmirrors
  split_ifs
  · exact .inl ⟨_, rfl, rfl⟩
  · exact .inr ⟨_, _, p, rfl, rfl, .single hkeeps' hout hname⟩

lemma tracks_declareAll (i : ℕ) (names : List String) :
    c.Tracks s.numbering (c.declareAll t i names) (s.declareAll i names).1 := by
  induction names generalizing t s with
  | nil => exact .nil hkeeps hmaps
  | cons name names ih =>
    rw [declareAll, Scopes.declareAll]
    obtain ⟨e, hd, hd'⟩ | ⟨t', s', p, hd, hd', hone⟩ := tracks_declare hc hkeeps hmaps i name
    · rw [hd, hd']
      exact .nil hkeeps hmaps
    · rw [hd, hd']
      exact hone.append (ih hone.keeps hone.maps_eq)

lemma tracks_refresh (params : List GenericParam) :
    c.Tracks s.numbering (c.perform t (.refresh params)) (s.perform (.refresh params)) where
  keeps := (hkeeps.refresh hc params).1
  maps_eq := hmaps
  handedOut_eq := by
    obtain ⟨-, -, hout⟩ := hkeeps.refresh hc params
    rw [Scopes.perform, perform, hout, List.map_map]
    rfl
  named := List.forall_mem_map.2 (named_refresh c t.state params)

/-- Whatever is done, the same is handed out. -/
lemma tracks_perform (a : Scopes.Act) :
    c.Tracks s.numbering (c.perform t a) (s.perform a) := by
  obtain ⟨state, maps⟩ := t
  obtain ⟨n, maps'⟩ := s
  obtain rfl : maps = maps' := hmaps
  cases a with
  | openMap outer =>
    let opened : List ParamMap := ⟨outer, ∅⟩ :: maps
    exact .nil (t := ⟨state, opened⟩) (s := ⟨n, opened⟩) hkeeps rfl
  | declare i name =>
    rw [Scopes.perform_declare]
    exact tracks_declareAll hc hkeeps rfl i [name]
  | declareAll i names => exact tracks_declareAll hc hkeeps rfl i names
  | addType name =>
    obtain ⟨hkeeps', hsame⟩ := hkeeps.addType hc name
    have hout := congrArg (fun p => n.handedOut ++ [GenericParam.type p]) hsame.symm
    exact .single hkeeps' hout rfl
  | addLifetime name =>
    obtain ⟨hkeeps', hsame⟩ := hkeeps.addLifetime hc name
    have hout := congrArg (fun l => n.handedOut ++ [GenericParam.lifetime l]) hsame.symm
    exact .single hkeeps' hout rfl
  | refresh params => exact tracks_refresh hc hkeeps rfl params

lemma tracks_run (acts : List Scopes.Act) :
    c.Tracks s.numbering (c.run t acts) (acts.foldl Scopes.perform s) := by
  induction acts generalizing t s with
  | nil => exact .nil hkeeps hmaps
  | cons a acts ih =>
    have hone := tracks_perform hc hkeeps hmaps a
    exact hone.append (ih hone.keeps hone.maps_eq)

end

/-! ## The main result -/

/-- The parameters that a run hands out bear the numbers `0, 1, 2, …`.  The `k`-th is the exemplar
of `k`, and whoever equals it goes by the name that it was handed out with.  They are the parameters
of `Scopes` under the same acts. -/
theorem numbers_identify {c : Classifier σ} (hc : c.Consecutive) (acts : List Scopes.Act) :
    let r := c.run ⟨c.start, []⟩ acts
    let s := acts.foldl Scopes.perform ∅
    (∀ (k : ℕ) a, r.2[k]? = some a → a.param.number = k) ∧
      r.2.Pairwise (fun a b => a.param.number ≠ b.param.number) ∧
      (∀ k : ℕ, c.exemplar? r.1.state k = r.2[k]?.map Allocation.param) ∧
      (∀ a ∈ r.2, ∀ p, (p == a.param) = true → c.nameOf? r.1.state p = some a.name) ∧
      c.exemplars r.1.state = s.numbering.handedOut ∧ r.1.maps = s.maps ∧
      ∀ params, Table.ofPairs (c.refresh r.1.state params).2 = (s.numbering.refresh params).2 := by
  intro r s
  have htracks : c.Tracks (∅ : Scopes).numbering r s := tracks_run hc hc.keeps_start rfl acts
  have hout : s.numbering.handedOut = r.2.map Allocation.param := htracks.handedOut_eq
  have hnumber : ∀ (k : ℕ) a, r.2[k]? = some a → a.param.number = k := by
    intro k a ha
    refine htracks.keeps.numbered k a.param ?_
    rw [hout, List.getElem?_map, ha]
    rfl
  have hexemplar : ∀ k : ℕ, c.exemplar? r.1.state k = r.2[k]?.map Allocation.param := by
    intro k
    rw [exemplar?, htracks.keeps.exemplars_eq, hout, ← List.getElem?_map]
    rfl
  refine ⟨hnumber, ?_, hexemplar, ?_, htracks.keeps.exemplars_eq, htracks.maps_eq, fun params =>
    (htracks.keeps.refresh hc params).2.1⟩
  · rw [List.pairwise_iff_getElem]
    intro i j hi hj hij
    rw [hnumber i _ (List.getElem?_eq_getElem hi), hnumber j _ (List.getElem?_eq_getElem hj)]
    omega
  · intro a ha p hp
    obtain ⟨k, hk⟩ := List.mem_iff_getElem?.1 ha
    rw [nameOf?, GenericParam.number_eq_of_beq hp, hnumber k a hk, hexemplar k, hk]
    exact congrArg some (htracks.named a ha)

/-- The classifier that looks each item up in its table, and changes nothing where it finds it. -/
def tabulating : Classifier (Table GenericParam ℕ × List GenericParam) where
  start := (∅, [])
  catalog := Prod.fst
  exemplars := Prod.snd
  classify s p := if s.1.contains p then s else (s.1.insert p s.1.size, s.2 ++ [p])

lemma consecutive_tabulating : tabulating.Consecutive where
  catalog_start := rfl
  exemplars_start := rfl
  catalog_classify := by
    intro s p hnew
    rw [tabulating] at hnew ⊢
    simp only [hnew, Bool.false_eq_true, if_false]
  exemplars_classify := by
    intro s p hnew
    rw [tabulating] at hnew ⊢
    simp only [hnew, Bool.false_eq_true, if_false]

/-- The second declaration of a lifetime fails and takes no number; of a parameter that is listed
twice for replacement, each is handed out. -/
theorem numbers_identify_tabulated :
    let acts : List Scopes.Act := [.addType "B", .openMap none, .declare 0 "\x27a",
      .declare 0 "\x27a", .refresh [.type ⟨0, "B"⟩, .lifetime ⟨1, "a"⟩, .type ⟨0, "C"⟩],
      .addLifetime "\x27\x27life"]
    let r := tabulating.run ⟨tabulating.start, []⟩ acts
    tabulating.Consecutive ∧ r.2.length = 6 ∧
      tabulating.exemplar? r.1.state 4 = some (.type ⟨4, "C"⟩) ∧
      tabulating.nameOf? r.1.state (.lifetime ⟨5, "x"⟩) = some "life" := by
  intro acts r
  obtain ⟨-, -, hexemplar, hname, -⟩ := numbers_identify consecutive_tabulating acts
  refine ⟨consecutive_tabulating, rfl, hexemplar 4, ?_⟩
  exact hname ⟨"\x27\x27life", .lifetime ⟨5, "life"⟩⟩ (List.mem_of_getElem? (i := 5) rfl) _ rfl

end Classifier

end WhereClause
