import Mathlib.Data.List.Intervals
import WhereClause.Proofs.Text.Splitting
import WhereClause.Ty.Render

/-!
# Plain names and their spellings

A plain qualified name is spelled as its identifiers with double colons between them, after a double
colon of its own if it is global.  Blanks may stand around it, and around every identifier
(`Path.Spells`).  No identifier is empty, and none holds a blank or a colon, so a text spells one
name at most.

Reading a text finds that name or complains of a piece of the text, and a name is read back from
what is written for it (`Path.ofText_spells`).
-/

namespace WhereClause

namespace Text

/-! ## Characters of identifiers -/

/-- The spans of code points from a change at which a set begins to the next, at which it
ceases. -/
def spans : List ℕ → List (ℕ × ℕ)
  | first :: next :: rest => (first, next) :: spans rest
  | _ => []

lemma exists_mem_spans {changes : List ℕ} {n : ℕ} (heven : changes.length % 2 = 0)
    (h : changesContain false changes n = true) : ∃ s ∈ spans changes, n ∈ List.Ico s.1 s.2 := by
  fun_induction spans changes with
  | case1 first next rest ih =>
    rw [changesContain] at h
    split_ifs at h with hfirst
    rw [changesContain] at h
    split_ifs at h with hnext
    · exact ⟨(first, next), List.mem_cons_self, List.Ico.mem.2 ⟨not_lt.1 hfirst, hnext⟩⟩
    · simp only [List.length_cons] at heven
      obtain ⟨s, hs, hn⟩ := ih (by omega) h
      exact ⟨s, List.mem_cons_of_mem _ hs, hn⟩
  | case2 changes hshort =>
    cases changes with
    | nil => cases h
    | cons first rest =>
      cases rest with
      | nil => cases heven
      | cons next rest => exact (hshort first next rest rfl).elim

/-- No blank begins or continues an identifier. -/
lemma not_identifier_of_isBlank {c : Char} (h : isBlank c = true) :
    startsIdentifier c = false ∧ continuesIdentifier c = false := by
  have hspans : ∀ s ∈ spans blanks.changes, ∀ n ∈ List.Ico s.1 s.2,
      changesContain false identifierStarts.changes n = false ∧
        changesContain false identifierContinues.changes n = false := by
    decide +kernel
  obtain ⟨s, hs, hc⟩ := exists_mem_spans (by decide) h
  obtain ⟨hstarts, hcontinues⟩ := hspans s hs _ hc
  have hne : c ≠ '_' := by
    rintro rfl
    exact absurd h (by decide)
  refine ⟨?_, hcontinues⟩
  rw [startsIdentifier, CodePoints.contains, hstarts, Bool.or_false]
  exact beq_eq_false_iff_ne.2 hne

lemma isIdentifier_cons {c : Char} {cs : List Char} (h : isIdentifier (c :: cs) = true) :
    startsIdentifier c = true ∧ ∀ d ∈ cs, continuesIdentifier d = true := by
  rw [isIdentifier, Bool.and_eq_true, List.all_eq_true] at h
  exact h

/-- Each character of an identifier begins or continues one. -/
lemma forall_mem_of_isIdentifier {name : List Char} (h : isIdentifier name = true) :
    ∀ c ∈ name, startsIdentifier c = true ∨ continuesIdentifier c = true := by
  cases name with
  | nil => exact List.forall_mem_nil _
  | cons c cs =>
    obtain ⟨hc, hcs⟩ := isIdentifier_cons h
    exact List.forall_mem_cons.2 ⟨.inl hc, fun d hd => .inr (hcs d hd)⟩

lemma isBlank_eq_false_of_isIdentifier {name : List Char} (h : isIdentifier name = true) :
    ∀ c ∈ name, isBlank c = false := by
  intro c hc
  by_contra hblank
  obtain ⟨hstarts, hcontinues⟩ := not_identifier_of_isBlank (by simpa using hblank)
  rcases forall_mem_of_isIdentifier h c hc with hin | hin
  · rw [hstarts] at hin
    cases hin
  · rw [hcontinues] at hin
    cases hin

lemma not_mem_colon_of_isIdentifier {name : List Char} (h : isIdentifier name = true) :
    ':' ∉ name := by
  intro hc
  rcases forall_mem_of_isIdentifier h ':' hc with hin | hin
  · exact absurd hin (by decide)
  · exact absurd hin (by decide)

/-! ## Identifiers with double colons between them -/

/-- A text of identifiers with double colons between them, and with blanks around each. -/
inductive SpellsNames : List (List Char) → List Char → Prop
  | last {before name after : List Char} :
      Blank before → isIdentifier name = true → Blank after →
        SpellsNames [name] (before ++ name ++ after)
  | more {before name after text : List Char} {names : List (List Char)} :
      Blank before → isIdentifier name = true → Blank after → SpellsNames names text →
        SpellsNames (name :: names) (before ++ name ++ after ++ [':', ':'] ++ text)

section

variable {before name after : List Char}

lemma not_mem_colon_of_spaced (hb : Blank before) (hn : isIdentifier name = true)
    (ha : Blank after) : ':' ∉ before ++ name ++ after := by
  simp only [List.mem_append, not_or]
  exact ⟨⟨hb.not_mem_colon, not_mem_colon_of_isIdentifier hn⟩, ha.not_mem_colon⟩

lemma trim_spaced (hb : Blank before) (hn : isIdentifier name = true) (ha : Blank after) :
    trim (before ++ name ++ after) = name := by
  rw [trim_append_right ha, trim_append_left hb,
    trim_of_forall_not_blank (isBlank_eq_false_of_isIdentifier hn)]

end

lemma SpellsNames.map_trim_split {names : List (List Char)} {text : List Char}
    (h : SpellsNames names text) :
    (splitDoubleColon text).map trim = names ∧ ∀ name ∈ names, isIdentifier name = true := by
  induction h with
  | last hb hn ha =>
    rw [splitDoubleColon_of_not_mem (not_mem_colon_of_spaced hb hn ha), List.map_singleton,
      trim_spaced hb hn ha]
    exact ⟨rfl, List.forall_mem_singleton.2 hn⟩
  | more hb hn ha _ ih =>
    rw [List.append_assoc, splitDoubleColon_append (not_mem_colon_of_spaced hb hn ha),
      List.cons_append, List.singleton_append, splitDoubleColon_colons, List.modifyHead_cons,
      List.append_nil, List.map_cons, trim_spaced hb hn ha, ih.1]
    exact ⟨rfl, List.forall_mem_cons.2 ⟨hn, ih.2⟩⟩

lemma spellsNames_intercalate {piece : List Char} {pieces : List (List Char)}
    (h : ∀ p ∈ piece :: pieces, isIdentifier (trim p) = true) :
    SpellsNames ((piece :: pieces).map trim) (List.intercalate [':', ':'] (piece :: pieces)) := by
  induction pieces generalizing piece with
  | nil =>
    obtain ⟨before, after, hb, ha, heq⟩ := exists_eq_append_trim piece
    rw [List.intercalate_singleton, List.map_singleton]
    have hlast := SpellsNames.last hb (h piece List.mem_cons_self) ha
    rwa [← heq] at hlast
  | cons next pieces ih =>
    obtain ⟨before, after, hb, ha, heq⟩ := exists_eq_append_trim piece
    obtain ⟨hpiece, hpieces⟩ := List.forall_mem_cons.1 h
    rw [List.intercalate_cons_cons, List.map_cons]
    have hmore := SpellsNames.more hb hpiece ha (ih hpieces)
    rwa [← heq] at hmore

/-- A text spells what its pieces are once they are trimmed, if all of them are identifiers. -/
lemma spellsNames_iff {names : List (List Char)} {text : List Char} :
    SpellsNames names text ↔
      (splitDoubleColon text).map trim = names ∧ ∀ name ∈ names, isIdentifier name = true := by
  refine ⟨SpellsNames.map_trim_split, ?_⟩
  rintro ⟨rfl, hnames⟩
  have hpieces := List.forall_mem_map.1 hnames
  have htext := intercalate_splitDoubleColon text
  cases hsplit : splitDoubleColon text with
  | nil => exact absurd hsplit (splitDoubleColon_ne_nil text)
  | cons piece pieces =>
    rw [hsplit] at hpieces htext
    have hspells := spellsNames_intercalate hpieces
    rwa [htext] at hspells

section

variable {names : List (List Char)} {before after text : List Char}

lemma spellsNames_append_left (h : Blank before) :
    SpellsNames names (before ++ text) ↔ SpellsNames names text := by
  rw [spellsNames_iff, spellsNames_iff, map_trim_splitDoubleColon_append_left h]

lemma spellsNames_append_right (h : Blank after) :
    SpellsNames names (text ++ after) ↔ SpellsNames names text := by
  rw [spellsNames_iff, spellsNames_iff, map_trim_splitDoubleColon_append_right h]

lemma spellsNames_trim : SpellsNames names (trim text) ↔ SpellsNames names text := by
  obtain ⟨before, after, hb, ha, htext⟩ := exists_eq_append_trim text
  conv_rhs => rw [htext, spellsNames_append_right ha, spellsNames_append_left hb]

/-- There is an identifier before the first double colon. -/
lemma not_spellsNames_colons : ¬ SpellsNames names (':' :: ':' :: text) := by
  rw [spellsNames_iff, splitDoubleColon_colons]
  rintro ⟨rfl, hnames⟩
  exact absurd (hnames _ List.mem_cons_self) (by decide)

end

end Text

namespace Path

open Text

/-! ## Spellings of plain names -/

/-- A text spells a plain name: after blanks, a double colon if the name is global, and then its
identifiers. -/
def Spells (isGlobal : Bool) (names : List (List Char)) (text : List Char) : Prop :=
  ∃ before rest, Blank before ∧ SpellsNames names rest ∧
    text = before ++ (if isGlobal then [':', ':'] else []) ++ rest

/-- A segment of a plain name. -/
def plainSegment (name : List Char) : Segment := ⟨String.ofList name, .none⟩

/-- A name none of whose segments has arguments. -/
def IsPlain (p : Path) : Prop :=
  ∀ s ∈ p.segments, isIdentifier s.name.toList = true ∧ s.args = .none

lemma dropDoubleColon_cases (cs : List Char) :
    (∃ rest, cs = ':' :: ':' :: rest ∧ dropDoubleColon cs = (true, rest)) ∨
      (¬ ∃ rest, cs = ':' :: ':' :: rest) ∧ dropDoubleColon cs = (false, cs) := by
  rw [dropDoubleColon.eq_def]
  split
  · exact .inl ⟨_, rfl, rfl⟩
  · rename_i hne
    exact .inr ⟨fun ⟨rest, hrest⟩ => hne rest hrest, rfl⟩

/-- What is left of a text without blanks and leading double colon spells the identifiers. -/
lemma spells_iff {isGlobal : Bool} {names : List (List Char)} {text : List Char} :
    Spells isGlobal names text ↔ (dropDoubleColon (trim text)).1 = isGlobal ∧
      SpellsNames names (dropDoubleColon (trim text)).2 := by
  constructor
  · rintro ⟨before, rest, hb, hrest, htext⟩
    cases isGlobal with
    | false =>
      have hspells : SpellsNames names (trim text) := by
        rw [spellsNames_trim, htext, if_neg Bool.false_ne_true, List.append_nil,
          spellsNames_append_left hb]
        exact hrest
      rcases dropDoubleColon_cases (trim text) with ⟨rest', hcolons, -⟩ | ⟨-, hdrop⟩
      · rw [hcolons] at hspells
        exact absurd hspells not_spellsNames_colons
      · rw [hdrop]
        exact ⟨rfl, hspells⟩
    | true =>
      have hcolons : trim text = ':' :: ':' :: rest.rdropWhile isBlank := by
        rw [htext, if_pos rfl, List.append_assoc, trim_append_left hb]
        exact trim_colons rest
      have htail : Blank (rest.rtakeWhile isBlank) := fun c => List.mem_rtakeWhile_imp
      rw [hcolons, dropDoubleColon]
      refine ⟨rfl, (spellsNames_append_right htail).1 ?_⟩
      rwa [List.rdropWhile_append_rtakeWhile]
  · obtain ⟨before, after, hb, ha, htext⟩ := exists_eq_append_trim text
    rcases dropDoubleColon_cases (trim text) with ⟨rest, hcolons, hdrop⟩ | ⟨-, hdrop⟩
    · rw [hdrop]
      rintro ⟨rfl, hrest⟩
      refine ⟨before, rest ++ after, hb, (spellsNames_append_right ha).2 hrest, ?_⟩
      rw [htext, hcolons]
      simp
    · rw [hdrop]
      rintro ⟨rfl, hspells⟩
      exact ⟨[], text, blank_nil, spellsNames_trim.1 hspells, rfl⟩

/-! ## Reading names -/

lemma ofSegments_eq_ok_iff {isGlobal : Bool} {segments : List Segment} {p : Path} :
    ofSegments isGlobal segments = .ok p ↔ p.isGlobal = isGlobal ∧ p.segments = segments := by
  obtain ⟨g, init, last⟩ := p
  rw [ofSegments, Path.segments]
  cases segments using List.reverseRecOn with
  | nil => simp
  | append_singleton segments s => simp [eq_comm]

section

variable {isGlobal : Bool} {text : List Char} {names : List (List Char)}

/-- Names that are all identifiers make a path. -/
lemma ofNames_eq_ok_iff {p : Path} :
    ofNames isGlobal text names = .ok p ↔ (∀ name ∈ names, isIdentifier name = true) ∧
      p.isGlobal = isGlobal ∧ p.segments = names.map plainSegment := by
  rw [ofNames]
  split
  · rename_i name hfind
    have hname := List.find?_some hfind
    refine ⟨fun h => (by cases h), fun ⟨hall, _⟩ => ?_⟩
    rw [hall name (List.mem_of_find?_eq_some hfind)] at hname
    cases hname
  · rename_i hfind
    have hall : ∀ name ∈ names, isIdentifier name = true := by
      simpa using List.find?_eq_none.1 hfind
    rw [ofSegments_eq_ok_iff]
    exact ⟨fun h => ⟨hall, h⟩, fun h => h.2⟩

/-- Names can only be refused for one of them. -/
lemma exists_of_ofNames_eq_error {e : Malformed} (hnames : names ≠ [])
    (h : ofNames isGlobal text names = .error e) :
    ∃ name, e = .badSegment (String.ofList text) name := by
  rw [ofNames] at h
  split at h
  · exact ⟨_, (Except.error.inj h).symm⟩
  · rw [ofSegments, List.getLast?_eq_some_getLast (by simpa using hnames)] at h
    cases h

end

lemma ofText_eq_ofNames (s : String) :
    ofText s = ofNames (dropDoubleColon (trim s.toList)).1 (dropDoubleColon (trim s.toList)).2
      ((splitDoubleColon (dropDoubleColon (trim s.toList)).2).map trim) := rfl

/-- A text is read as the name that it spells. -/
lemma ofText_eq_ok_iff {s : String} {p : Path} :
    ofText s = .ok p ↔
      ∃ names, Spells p.isGlobal names s.toList ∧ p.segments = names.map plainSegment := by
  rw [ofText_eq_ofNames, ofNames_eq_ok_iff]
  simp only [spells_iff, spellsNames_iff]
  constructor
  · rintro ⟨hall, hglobal, hsegments⟩
    exact ⟨_, ⟨hglobal.symm, rfl, hall⟩, hsegments⟩
  · rintro ⟨names, ⟨hglobal, rfl, hall⟩, hsegments⟩
    exact ⟨hall, hglobal.symm, hsegments⟩

lemma exists_of_ofText_eq_error {s : String} {e : Malformed} (h : ofText s = .error e) :
    ∃ text segment, e = .badSegment text segment := by
  rw [ofText_eq_ofNames] at h
  refine ⟨_, exists_of_ofNames_eq_error (fun hnil => ?_) h⟩
  exact splitDoubleColon_ne_nil _ (List.map_eq_nil_iff.1 hnil)

/-! ## Written names -/

lemma toList_joined (separator : String) (items : List String) :
    (joined separator items).toList =
      List.intercalate separator.toList (items.map String.toList) := by
  induction items with
  | nil => rfl
  | cons item items ih =>
    cases items with
    | nil => simp [joined]
    | cons next items =>
      rw [joined.eq_3 _ _ _ (List.cons_ne_nil _ _), String.toList_append, String.toList_append, ih]
      simp

lemma spellsNames_of_forall_isIdentifier {name : List Char} {names : List (List Char)}
    (h : ∀ n ∈ name :: names, isIdentifier n = true) :
    SpellsNames (name :: names) (List.intercalate [':', ':'] (name :: names)) := by
  have htrim : ∀ n ∈ name :: names, trim n = n := fun n hn =>
    trim_of_forall_not_blank (isBlank_eq_false_of_isIdentifier (h n hn))
  have hspells : SpellsNames ((name :: names).map trim) _ :=
    spellsNames_intercalate fun n hn => (htrim n hn).symm ▸ h n hn
  rwa [List.map_congr_left htrim, List.map_id'] at hspells

lemma Segment.renderEach_eq_map (ss : List Segment) :
    Segment.renderEach ss = ss.map Segment.render := by
  induction ss with
  | nil => rw [Segment.renderEach, List.map_nil]
  | cons s ss ih => rw [Segment.renderEach, List.map_cons, ih]

lemma render_eq (p : Path) :
    p.render =
      (if p.isGlobal then "::" else "") ++ joined "::" (p.segments.map Segment.render) := by
  obtain ⟨isGlobal, init, last⟩ := p
  rw [Path.render, Segment.renderEach_eq_map, Path.segments, List.map_append, List.map_singleton]

section

variable {p : Path} (h : p.IsPlain)

include h

lemma IsPlain.segments_eq :
    p.segments = (p.segments.map fun s => s.name.toList).map plainSegment := by
  rw [List.map_map]
  conv_lhs => rw [← List.map_id p.segments]
  refine List.map_congr_left fun s hs => ?_
  obtain ⟨name, args⟩ := s
  obtain ⟨-, rfl⟩ := h _ hs
  rw [id_eq, Function.comp_apply, plainSegment, String.ofList_toList]

lemma IsPlain.map_render :
    (p.segments.map Segment.render).map String.toList = p.segments.map fun s => s.name.toList := by
  rw [List.map_map]
  refine List.map_congr_left fun s hs => ?_
  obtain ⟨name, args⟩ := s
  obtain ⟨-, rfl⟩ := h _ hs
  rw [Function.comp_apply, Segment.render, Args.render, String.append_empty]

/-- A plain name is written as one of its spellings. -/
lemma IsPlain.spells_render :
    Spells p.isGlobal (p.segments.map fun s => s.name.toList) p.render.toList := by
  have hnames : ∀ n ∈ p.segments.map fun s => s.name.toList, isIdentifier n = true :=
    List.forall_mem_map.2 fun s hs => (h s hs).1
  refine ⟨[], List.intercalate [':', ':'] (p.segments.map fun s => s.name.toList), blank_nil,
    ?_, ?_⟩
  · cases hsegments : p.segments.map fun s => s.name.toList with
    | nil => exact absurd (List.map_eq_nil_iff.1 hsegments) (by simp [Path.segments])
    | cons name names => exact spellsNames_of_forall_isIdentifier (hsegments ▸ hnames)
  · rw [render_eq, String.toList_append, toList_joined, h.map_render]
    cases p.isGlobal <;> rfl

end

/-! ## The main result -/

/-- A text is read exactly if it spells a plain name, and as that name; any other is refused for one
of its pieces.  A name without arguments is read back from what is written for it. -/
theorem ofText_spells :
    (∀ s p, ofText s = .ok p ↔
        ∃ names, Spells p.isGlobal names s.toList ∧ p.segments = names.map plainSegment) ∧
      (∀ s e, ofText s = .error e → ∃ text segment, e = .badSegment text segment) ∧
      ∀ p : Path, p.IsPlain → ofText p.render = .ok p := by
  refine ⟨fun s p => ofText_eq_ok_iff, fun s e => exists_of_ofText_eq_error, fun p hp => ?_⟩
  exact ofText_eq_ok_iff.2 ⟨_, hp.spells_render, hp.segments_eq⟩

/-- A global name is read back, and it may be spelled with blanks in every place. -/
theorem ofText_spells_display :
    let p : Path := ⟨true, [⟨"std", .none⟩, ⟨"fmt", .none⟩], ⟨"Display", .none⟩⟩
    p.IsPlain ∧ ofText p.render = .ok p ∧ ofText " :: std\t::fmt :: Display\n" = .ok p := by
  intro p
  have hp : p.IsPlain := by
    refine List.forall_mem_cons.2 ⟨⟨?_, rfl⟩, List.forall_mem_cons.2 ⟨⟨?_, rfl⟩,
      List.forall_mem_singleton.2 ⟨?_, rfl⟩⟩⟩ <;> decide
  have hnames : SpellsNames ["std".toList, "fmt".toList, "Display".toList]
      " std\t::fmt :: Display\n".toList :=
    @SpellsNames.more [' '] _ ['\t'] _ _ (by decide) (by decide) (by decide) <|
      @SpellsNames.more [] _ [' '] _ _ (by decide) (by decide) (by decide) <|
        @SpellsNames.last [' '] _ ['\n'] (by decide) (by decide) (by decide)
  have hspells : Spells true ["std".toList, "fmt".toList, "Display".toList]
      " :: std\t::fmt :: Display\n".toList := ⟨[' '], _, by decide, hnames, rfl⟩
  exact ⟨hp, ofText_spells.2.2 p hp, (ofText_spells.1 _ p).2 ⟨_, hspells, rfl⟩⟩

end Path

end WhereClause
