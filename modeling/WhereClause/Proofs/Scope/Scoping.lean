import WhereClause.Proofs.Scope.Running

/-!
# What a name means in a scope

A name means what the nearest scope declared it to be, looking outward from a scope, no matter when
the declaration was made (`Scopes.History.Means`).  A scope declares a name at most once, and what
is declared stays as it is.  Of a list of names, those before the first that cannot be declared are
declared, and no others.

All of this holds after every run over the scopes of one numbering (`Scopes.lexically_scoped`).
-/

namespace WhereClause.Scopes

/-! ## Looking outward -/

/-- What a name means in a scope, by what is known of a run: what it was declared to be there, or
else what it means in the scope around. -/
inductive History.Means (h : History) (name : String) : ℕ → Option GenericParam → Prop
  | declared {i : ℕ} {p : GenericParam} : ⟨i, name, p⟩ ∈ h.declarations → h.Means name i (some p)
  | around {i j : ℕ} {r : Option GenericParam} :
      ¬ h.Declares i name → h.outers[i]? = some (some j) → h.Means name j r → h.Means name i r
  | nowhere {i : ℕ} : ¬ h.Declares i name → h.outers[i]? = some none → h.Means name i none

namespace Recorded

variable {h : History} {s : Scopes} (hr : Recorded h s)

include hr

lemma declares_iff (i : ℕ) (name : String) :
    h.Declares i name ↔ (s.bindings i).contains name = true := by
  rw [Table.contains, Option.isSome_iff_exists]
  constructor
  · rintro ⟨d, hd, rfl, rfl⟩
    exact ⟨d.param, (hr.bound_iff _ _ _).2 hd⟩
  · rintro ⟨p, hp⟩
    exact ⟨⟨i, name, p⟩, (hr.bound_iff i name p).1 hp, rfl, rfl⟩

lemma get?_eq_none_iff (i : ℕ) (name : String) :
    (s.bindings i).get? name = none ↔ ¬ h.Declares i name := by
  rw [hr.declares_iff, Table.contains, Bool.not_eq_true, Option.isSome_eq_false_iff,
    Option.isNone_iff_eq_none]

/-- One step outward. -/
lemma lookup_eq {i : ℕ} {outer : Option ℕ} (hi : h.outers[i]? = some outer) (name : String) :
    s.lookup i name =
      ((s.bindings i).get? name).or (outer.bind fun j => s.lookup j name) := by
  have hlt : i < s.maps.length := by
    rw [hr.length_eq]
    exact (List.getElem?_eq_some_iff.1 hi).1
  obtain ⟨m, hm⟩ := exists_mapAt? hlt
  have houter : m.outer = outer := by
    rw [hr.outer_eq i m hm] at hi
    exact Option.some.inj hi
  have hbindings : s.bindings i = m.bindings := by
    rw [bindings, hm]
    rfl
  have holder : ∀ k m, mapAt? k s.maps = some m → ∀ j ∈ m.outer, j < k := by
    intro k m hk j hj
    refine hr.outer_lt k j ?_
    rw [hr.outer_eq k m hk, Option.mem_def.1 hj]
  rw [hbindings, ← houter]
  exact lookupIn_eq name holder hm

lemma means_lookup (name : String) {i : ℕ} (hi : i < s.maps.length) :
    h.Means name i (s.lookup i name) := by
  induction i using Nat.strong_induction_on with
  | _ i ih =>
    obtain ⟨outer, houter⟩ : ∃ outer, h.outers[i]? = some outer := by
      rw [hr.length_eq] at hi
      exact ⟨_, List.getElem?_eq_getElem hi⟩
    rw [hr.lookup_eq houter]
    cases hbound : (s.bindings i).get? name with
    | some p => exact .declared ((hr.bound_iff i name p).1 hbound)
    | none =>
      have hnot := (hr.get?_eq_none_iff i name).1 hbound
      cases outer with
      | none => exact .nowhere hnot houter
      | some j =>
        have hji := hr.outer_lt i j houter
        exact .around hnot houter (ih j hji (hji.trans hi))

lemma lookup_eq_of_means {name : String} {i : ℕ} {r : Option GenericParam}
    (hmeans : h.Means name i r) : s.lookup i name = r := by
  induction hmeans with
  | @declared i p hp =>
    have hbound := (hr.bound_iff i name p).2 hp
    have hlt : i < s.maps.length := by
      by_contra hge
      have hnone : mapAt? i s.maps = none := by
        by_contra hsome
        obtain ⟨m, hm⟩ := Option.ne_none_iff_exists'.1 hsome
        exact hge (lt_length_of_mapAt? hm)
      rw [bindings, hnone] at hbound
      cases hbound
    rw [hr.length_eq] at hlt
    rw [hr.lookup_eq (List.getElem?_eq_getElem hlt), hbound, Option.some_or]
  | around hnot houter _ ih =>
    rw [hr.lookup_eq houter, (hr.get?_eq_none_iff _ name).2 hnot, Option.none_or]
    exact ih
  | nowhere hnot houter =>
    rw [hr.lookup_eq houter, (hr.get?_eq_none_iff _ name).2 hnot]
    rfl

lemma lookup_iff_means (name : String) {i : ℕ} (hi : i < s.maps.length)
    (r : Option GenericParam) : s.lookup i name = r ↔ h.Means name i r :=
  ⟨fun hr' => hr' ▸ hr.means_lookup name hi, hr.lookup_eq_of_means⟩

lemma declare_fails_iff (i : ℕ) (name : String) :
    (∃ e, s.declare i name = .error e) ↔ h.Declares i name := by
  rw [hr.declares_iff]
  exact ⟨fun ⟨e, he⟩ => (declare_eq_error_iff.1 he).1,
    fun hc => ⟨_, declare_eq_error_iff.2 ⟨hc, rfl⟩⟩⟩

end Recorded

/-! ## Declaring lists of names -/

/-- Of the names listed for a scope, `name` is the first that the scope declared already or that is
listed a second time, and `before` are those that stand before it. -/
structure History.StopsAt (h : History) (i : ℕ) (names before : List String) (name : String) :
    Prop where
  split : ∃ after, names = before ++ name :: after
  nodup : before.Nodup
  new : ∀ b ∈ before, ¬ h.Declares i b
  again : h.Declares i name ∨ name ∈ before

section

variable {h : History} {s s₁ t : Scopes} {i : ℕ} {x name : String} {names before : List String}
  {p : GenericParam}

lemma declares_append_singleton :
    (h ++ ⟨[], [⟨i, x, p⟩]⟩ : History).Declares i name ↔ h.Declares i name ∨ name = x := by
  simp only [History.Declares, History.declarations_append, List.mem_append, List.mem_singleton,
    or_and_right, exists_or, exists_eq_left, true_and, @eq_comm _ x]

lemma not_stopsAt_nil : ¬ h.StopsAt i [] before name := by
  rintro ⟨⟨after, hsplit⟩, -, -, -⟩
  cases before <;> cases hsplit

/-- The first name is declared already. -/
lemma stopsAt_cons_of_declares (hx : h.Declares i x) :
    h.StopsAt i (x :: names) before name ↔ before = [] ∧ name = x := by
  constructor
  · rintro ⟨⟨after, hsplit⟩, -, hnew, -⟩
    cases before with
    | nil => exact ⟨rfl, (List.cons.inj hsplit).1.symm⟩
    | cons b before =>
      obtain ⟨rfl, -⟩ := List.cons.inj hsplit
      exact absurd hx (hnew x List.mem_cons_self)
  · rintro ⟨rfl, rfl⟩
    exact ⟨⟨names, rfl⟩, .nil, List.forall_mem_nil _, .inl hx⟩

/-- The first name is new, and it is declared when the others are looked at. -/
lemma stopsAt_cons_of_not_declares (hx : ¬ h.Declares i x) :
    h.StopsAt i (x :: names) before name ↔
      ∃ rest, before = x :: rest ∧ (h ++ ⟨[], [⟨i, x, p⟩]⟩).StopsAt i names rest name := by
  constructor
  · rintro ⟨⟨after, hsplit⟩, hnodup, hnew, hagain⟩
    cases before with
    | nil =>
      obtain ⟨rfl, -⟩ := List.cons.inj hsplit
      exact absurd (hagain.resolve_right List.not_mem_nil) hx
    | cons b rest =>
      obtain ⟨rfl, hsplit'⟩ := List.cons.inj hsplit
      obtain ⟨hfirst, hnodup'⟩ := List.nodup_cons.1 hnodup
      refine ⟨rest, rfl, ⟨after, hsplit'⟩, hnodup', fun b hb => ?_, ?_⟩
      · rw [declares_append_singleton]
        rintro (hdeclared | rfl)
        · exact hnew b (List.mem_cons_of_mem x hb) hdeclared
        · exact hfirst hb
      · rw [declares_append_singleton, or_assoc, ← List.mem_cons]
        exact hagain
  · rintro ⟨rest, rfl, ⟨after, rfl⟩, hnodup, hnew, hagain⟩
    simp only [declares_append_singleton, not_or] at hnew hagain
    refine ⟨⟨after, rfl⟩, List.nodup_cons.2 ⟨fun hin => (hnew x hin).2 rfl, hnodup⟩, ?_, ?_⟩
    · exact List.forall_mem_cons.2 ⟨hx, fun b hb => (hnew b hb).1⟩
    · rw [List.mem_cons, ← or_assoc]
      exact hagain

lemma declareAll_cons (hd : s.declare i x = .ok (s₁, p)) (names : List String) :
    s.declareAll i (x :: names) =
      ((s₁.declareAll i names).1, (s₁.declareAll i names).2.map (p :: ·)) := by
  rw [declareAll, hd]

lemma declarations_cons (hd : s.declare i x = .ok (s₁, p)) (names : List String) :
    s.declarations i (x :: names) = ⟨i, x, p⟩ :: s₁.declarations i names := by
  rw [declarations, hd]

lemma declareAll_cons_eq_error_iff (hd : s.declare i x = .ok (s₁, p)) {e : ScopeError} :
    s.declareAll i (x :: names) = (t, .error e) ↔ s₁.declareAll i names = (t, .error e) := by
  rw [declareAll_cons hd]
  rcases s₁.declareAll i names with ⟨u, _ | ps⟩ <;> simp [Except.map]

lemma declareAll_cons_eq_ok_iff (hd : s.declare i x = .ok (s₁, p)) {ps : List GenericParam} :
    s.declareAll i (x :: names) = (t, .ok ps) ↔
      ∃ qs, ps = p :: qs ∧ s₁.declareAll i names = (t, .ok qs) := by
  rw [declareAll_cons hd]
  rcases s₁.declareAll i names with ⟨u, _ | qs⟩ <;> simp [Except.map, and_comm, eq_comm]

/-- What a list of names declares, where all of them can be declared. -/
lemma declarations_of_declareAll {ps : List GenericParam}
    (hall : s.declareAll i names = (t, .ok ps)) :
    s.declarations i names = List.zipWith (Declaration.mk i) names ps := by
  induction names generalizing s ps with
  | nil =>
    rw [declarations]
    rfl
  | cons x names ih =>
    cases hd : s.declare i x with
    | error e =>
      rw [declareAll, hd] at hall
      cases hall
    | ok answer =>
      obtain ⟨s₁, p⟩ := answer
      obtain ⟨qs, rfl, hrest⟩ := (declareAll_cons_eq_ok_iff hd).1 hall
      rw [declarations_cons hd, List.zipWith_cons_cons, ih hrest]

end

/-- The names of a list are declared up to the first that was declared before, be it in the same
list. -/
lemma Recorded.declareAll_fails_iff {h : History} {s : Scopes} (hr : Recorded h s) {i : ℕ}
    (hi : i < s.maps.length) {names : List String} {t : Scopes} {e : ScopeError} :
    s.declareAll i names = (t, .error e) ↔
      ∃ before name ps, h.StopsAt i names before name ∧ e = .declaredTwice name ∧
        s.declareAll i before = (t, .ok ps) ∧
        s.declarations i names = List.zipWith (Declaration.mk i) before ps := by
  induction names generalizing h s with
  | nil => simp [Scopes.declareAll, not_stopsAt_nil]
  | cons x xs ih =>
    cases hd : s.declare i x with
    | error e' =>
      have hx : h.Declares i x := (hr.declare_fails_iff i x).1 ⟨e', hd⟩
      obtain ⟨-, rfl⟩ := declare_eq_error_iff.1 hd
      have hall : s.declareAll i (x :: xs) = (s, .error (.declaredTwice x)) := by
        rw [Scopes.declareAll, hd]
      have hnone : s.declarations i (x :: xs) = [] := by
        rw [declarations, hd]
      rw [hall]
      constructor
      · rintro ⟨⟩
        exact ⟨[], x, [], (stopsAt_cons_of_declares hx).2 ⟨rfl, rfl⟩, rfl, rfl, hnone⟩
      · rintro ⟨before, name, ps, hstops, rfl, hbefore, -⟩
        obtain ⟨rfl, rfl⟩ := (stopsAt_cons_of_declares hx).1 hstops
        obtain ⟨rfl, -⟩ := Prod.mk.inj hbefore
        rfl
    | ok answer =>
      obtain ⟨s₁, p⟩ := answer
      have hx : ¬ h.Declares i x := by
        rw [← hr.declare_fails_iff i x, hd]
        rintro ⟨e', ⟨⟩⟩
      rw [declareAll_cons_eq_error_iff hd, ih (hr.declare hi hd) (length_maps_declare hd ▸ hi)]
      rw [declarations_cons hd]
      constructor
      · rintro ⟨rest, name, qs, hstops, rfl, hrest, hmade⟩
        exact ⟨x :: rest, name, p :: qs, (stopsAt_cons_of_not_declares hx).2 ⟨rest, rfl, hstops⟩,
          rfl, (declareAll_cons_eq_ok_iff hd).2 ⟨qs, rfl, hrest⟩, congrArg _ hmade⟩
      · rintro ⟨before, name, ps, hstops, rfl, hbefore, hmade⟩
        obtain ⟨rest, rfl, hstops'⟩ := (stopsAt_cons_of_not_declares hx).1 hstops
        obtain ⟨qs, rfl, hrest⟩ := (declareAll_cons_eq_ok_iff hd).1 hbefore
        exact ⟨rest, name, qs, hstops', rfl, hrest, (List.cons.inj hmade).2⟩

/-! ## The main result -/

/-- After every run, a name means what the nearest scope declared it to be, looking outward.  No
further run changes what is declared, and all declarations have different parameters.  A name can be
declared unless its scope did so before, and a list of names up to the first for which this fails;
a failure leaves all else as it is. -/
theorem lexically_scoped {n : Numbering} {h h' : History} {s s' : Scopes}
    (hs : Leads ⟨n, []⟩ h s) (hs' : Leads s h' s') :
    (∀ i < s.maps.length, ∀ name r, s.lookup i name = r ↔ h.Means name i r) ∧
      (∀ i name p, (s.bindings i).get? name = some p → (s'.bindings i).get? name = some p) ∧
      h.declarations.Pairwise (fun d e => (d.param == e.param) = false) ∧
      (∀ i name, (∃ e, s.declare i name = .error e) ↔ h.Declares i name) ∧
      (∀ i name e, s.declare i name = .error e →
        e = .declaredTwice name ∧ s.perform (.declare i name) = s) ∧
      (∀ i names t ps, s.declareAll i names = (t, .ok ps) →
        s.declarations i names = List.zipWith (Declaration.mk i) names ps) ∧
      ∀ i < s.maps.length, ∀ names t e, s.declareAll i names = (t, .error e) ↔
        ∃ before name ps, h.StopsAt i names before name ∧ e = .declaredTwice name ∧
          s.declareAll i before = (t, .ok ps) ∧
          s.declarations i names = List.zipWith (Declaration.mk i) before ps := by
  have hr : Recorded h s := hs.recorded (recorded_start n)
  have hr' : Recorded (h ++ h') s' := hs'.recorded hr
  refine ⟨fun i hi name => hr.lookup_iff_means name hi, ?_, ?_, hr.declare_fails_iff, ?_,
    fun i names t ps => declarations_of_declareAll,
    fun i hi names t e => hr.declareAll_fails_iff hi⟩
  · intro i name p hp
    exact (hr'.bound_iff i name p).2 (List.mem_append_left _ ((hr.bound_iff i name p).1 hp))
  · refine hr.ascending.imp fun {d e} hlt => ?_
    by_contra hsame
    exact Int.ne_of_lt hlt (GenericParam.number_eq_of_beq (by simpa using hsame))
  · intro i name e he
    rw [perform, he]
    exact ⟨(declare_eq_error_iff.1 he).2, rfl⟩

/-- The scope of a method inside that of its implementation, in which `T` is declared after the
method's scope was opened.  Of what the method lists, all before the second `U` is declared. -/
theorem lexically_scoped_method :
    let s : Scopes := [Act.openMap none, .openMap (some 0), .declareAll 0 ["T", "\x27a"],
      .declareAll 1 ["U", "U", "V"]].foldl perform ∅
    let s' : Scopes := s.perform (.declare 1 "T")
    let h : History := ⟨[none, some 0],
      [⟨0, "T", .type ⟨0, "T"⟩⟩, ⟨0, "\x27a", .lifetime ⟨1, "a"⟩⟩, ⟨1, "U", .type ⟨2, "U"⟩⟩]⟩
    let h' : History := ⟨[], [⟨1, "T", .type ⟨3, "T"⟩⟩]⟩
    Leads ∅ h s ∧ Leads s h' s' ∧ s.lookup 1 "T" = some (.type ⟨0, "T"⟩) ∧
      s.lookup 1 "V" = none ∧ (∃ e, s.declare 1 "U" = .error e) ∧
      (s'.bindings 0).get? "T" = some (.type ⟨0, "T"⟩) := by
  intro s s' h h'
  have hs : Leads ∅ h s := .cons (.openMap none) (by decide) <|
    .cons (.openMap (some 0)) (by decide) <| .cons (.declareAll 0 ["T", "\x27a"]) (by decide) <|
    .cons (.declareAll 1 ["U", "U", "V"]) (by decide) <| .nil _
  have hs' : Leads s h' s' := .cons (.declare 1 "T") (by decide) <| .nil _
  obtain ⟨hmeans, hkept, -, hfails, -⟩ := lexically_scoped hs hs'
  refine ⟨hs, hs', ?_, ?_, ?_, ?_⟩
  · exact (hmeans 1 (by decide) _ _).2 (.around (by decide) rfl (.declared List.mem_cons_self))
  · exact (hmeans 1 (by decide) _ _).2 (.around (by decide) rfl (.nowhere (by decide) rfl))
  · exact (hfails 1 "U").2 (by decide)
  · exact hkept 0 "T" _ rfl

end WhereClause.Scopes
