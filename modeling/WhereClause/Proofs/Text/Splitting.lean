import Mathlib.Data.List.DropRight
import Mathlib.Data.List.Intervals
import WhereClause.Path.Name

/-!
# Trimming and splitting text

Trimming takes off what is blank at either end and nothing else.  Splitting at double colons cuts a
text into pieces that give the text back when they are joined, and a piece without a colon is never
cut (`splitDoubleColon_append`).  Blanks at either end of a text thus come to stand at the ends of
its pieces, where trimming takes them off (`map_trim_splitDoubleColon_append_left`,
`map_trim_splitDoubleColon_append_right`).
-/

namespace WhereClause.Text

/-- All characters are blank. -/
def Blank (cs : List Char) : Prop := ∀ c ∈ cs, isBlank c = true

instance (cs : List Char) : Decidable (Blank cs) :=
  decidable_of_iff (cs.all isBlank = true) List.all_eq_true

lemma blank_nil : Blank [] := List.forall_mem_nil _

lemma Blank.not_mem_colon {cs : List Char} (h : Blank cs) : ':' ∉ cs := fun hin =>
  absurd (h ':' hin) (by decide)

/-! ## Trimming -/

section

variable {before after cs : List Char}

lemma rdropWhile_append_of_blank (h : Blank after) :
    (cs ++ after).rdropWhile isBlank = cs.rdropWhile isBlank := by
  rw [List.rdropWhile, List.reverse_append, List.dropWhile_append_of_pos, List.rdropWhile]
  exact fun c hc => h c (List.mem_reverse.1 hc)

lemma trim_append_left (h : Blank before) : trim (before ++ cs) = trim cs := by
  rw [trim, List.dropWhile_append_of_pos h, trim]

lemma trim_append_right (h : Blank after) : trim (cs ++ after) = trim cs := by
  show ((cs ++ after).dropWhile isBlank).rdropWhile isBlank =
    (cs.dropWhile isBlank).rdropWhile isBlank
  rw [List.dropWhile_append]
  split_ifs with hempty
  · rw [List.isEmpty_iff.1 hempty, List.dropWhile_eq_nil_iff.2 h]
  · exact rdropWhile_append_of_blank h

lemma trim_of_forall_not_blank (h : ∀ c ∈ cs, isBlank c = false) : trim cs = cs := by
  have hdrop : ∀ ds : List Char, (∀ c ∈ ds, isBlank c = false) → ds.dropWhile isBlank = ds := by
    intro ds hds
    cases ds with
    | nil => rfl
    | cons d ds => rw [List.dropWhile_cons_of_neg (by simp [hds d List.mem_cons_self])]
  rw [trim, hdrop cs h, hdrop _ fun c hc => h c (List.mem_reverse.1 hc), List.reverse_reverse]

/-- A double colon at the beginning stays. -/
lemma trim_colons (cs : List Char) :
    trim (':' :: ':' :: cs) = ':' :: ':' :: cs.rdropWhile isBlank := by
  have hcolon : ¬ isBlank ':' = true := by decide
  rw [trim, List.dropWhile_cons_of_neg hcolon, List.reverse_cons, List.reverse_cons,
    List.append_assoc, List.dropWhile_append, List.rdropWhile]
  split_ifs with hempty
  · rw [List.isEmpty_iff.1 hempty, List.singleton_append, List.dropWhile_cons_of_neg hcolon]
    rfl
  · rw [List.reverse_append]
    rfl

lemma exists_eq_append_trim (cs : List Char) :
    ∃ before after, Blank before ∧ Blank after ∧ cs = before ++ trim cs ++ after := by
  refine ⟨cs.takeWhile isBlank, (cs.dropWhile isBlank).rtakeWhile isBlank,
    fun c => List.mem_takeWhile_imp, fun c => List.mem_rtakeWhile_imp, ?_⟩
  have htrim : trim cs = (cs.dropWhile isBlank).rdropWhile isBlank := rfl
  rw [htrim, List.append_assoc, List.rdropWhile_append_rtakeWhile, List.takeWhile_append_dropWhile]

end

/-! ## Splitting -/

section

variable {before after : List Char}

lemma splitDoubleColon_colons (cs : List Char) :
    splitDoubleColon (':' :: ':' :: cs) = [] :: splitDoubleColon cs := by
  rw [splitDoubleColon, if_pos ⟨rfl, rfl⟩]

lemma splitDoubleColon_ne_nil (cs : List Char) : splitDoubleColon cs ≠ [] := by
  fun_cases splitDoubleColon cs <;> simp_all

/-- A character that does not belong to a double colon belongs to the first piece. -/
lemma splitDoubleColon_cons {c : Char} {cs : List Char} (h : ¬ (c = ':' ∧ cs.head? = some ':')) :
    splitDoubleColon (c :: cs) = (splitDoubleColon cs).modifyHead (c :: ·) := by
  cases cs with
  | nil => rfl
  | cons d cs =>
    rw [splitDoubleColon, if_neg (by simpa using h)]
    cases hsplit : splitDoubleColon (d :: cs) with
    | nil => exact absurd hsplit (splitDoubleColon_ne_nil _)
    | cons piece pieces => rfl

/-- What holds no colon is not cut. -/
lemma splitDoubleColon_append (h : ':' ∉ before) (cs : List Char) :
    splitDoubleColon (before ++ cs) = (splitDoubleColon cs).modifyHead (before ++ ·) := by
  induction before with
  | nil =>
    rw [List.nil_append]
    cases splitDoubleColon cs <;> rfl
  | cons c before ih =>
    rw [List.mem_cons, not_or] at h
    rw [List.cons_append, splitDoubleColon_cons fun hcolons => h.1 hcolons.1.symm, ih h.2]
    cases splitDoubleColon cs <;> rfl

lemma splitDoubleColon_of_not_mem {cs : List Char} (h : ':' ∉ cs) : splitDoubleColon cs = [cs] := by
  have hsplit := splitDoubleColon_append h []
  rwa [List.append_nil, splitDoubleColon, List.modifyHead_cons, List.append_nil] at hsplit

/-- The last piece goes on where the text does. -/
lemma exists_splitDoubleColon_append (h : ':' ∉ after) (cs : List Char) :
    ∃ pieces piece, splitDoubleColon cs = pieces ++ [piece] ∧
      splitDoubleColon (cs ++ after) = pieces ++ [piece ++ after] := by
  fun_induction splitDoubleColon cs with
  | case1 => exact ⟨[], [], rfl, splitDoubleColon_of_not_mem h⟩
  | case2 c =>
    refine ⟨[], [c], rfl, ?_⟩
    have hhead : ¬ (c = ':' ∧ after.head? = some ':') := fun hcolons =>
      h (List.mem_of_mem_head? hcolons.2)
    rw [List.singleton_append, splitDoubleColon_cons hhead, splitDoubleColon_of_not_mem h]
    rfl
  | case3 c d cs hcolons ih =>
    obtain ⟨rfl, rfl⟩ := hcolons
    obtain ⟨pieces, piece, hsplit, happend⟩ := ih
    refine ⟨[] :: pieces, piece, by rw [hsplit]; rfl, ?_⟩
    rw [List.cons_append, List.cons_append, splitDoubleColon_colons, happend]
    rfl
  | case4 c d cs hcolons hnil ih => exact absurd hnil (splitDoubleColon_ne_nil _)
  | case5 c d cs hcolons piece pieces hsplit ih =>
    obtain ⟨pieces', last, hlast, happend⟩ := ih
    have hgoes : splitDoubleColon (c :: d :: cs ++ after) =
        (pieces' ++ [last ++ after]).modifyHead (c :: ·) := by
      rw [← happend]
      exact splitDoubleColon_cons (by simpa using hcolons)
    rw [hsplit] at hlast
    cases pieces' with
    | nil =>
      obtain ⟨rfl, rfl⟩ := List.cons.inj hlast
      exact ⟨[], c :: piece, rfl, hgoes⟩
    | cons first pieces' =>
      obtain ⟨rfl, rfl⟩ := List.cons.inj hlast
      exact ⟨(c :: piece) :: pieces', last, rfl, hgoes⟩

/-- The pieces joined by double colons give the text back. -/
lemma intercalate_splitDoubleColon (cs : List Char) :
    List.intercalate [':', ':'] (splitDoubleColon cs) = cs := by
  fun_induction splitDoubleColon cs with
  | case1 => rfl
  | case2 c => rfl
  | case3 c d cs hcolons ih =>
    obtain ⟨rfl, rfl⟩ := hcolons
    cases hsplit : splitDoubleColon cs with
    | nil => exact absurd hsplit (splitDoubleColon_ne_nil _)
    | cons piece pieces =>
      rw [List.intercalate_cons_cons, ← hsplit, ih]
      rfl
  | case4 c d cs hcolons hnil ih => exact absurd hnil (splitDoubleColon_ne_nil _)
  | case5 c d cs hcolons piece pieces hsplit ih =>
    rw [hsplit] at ih
    cases pieces with
    | nil => rw [List.intercalate_singleton] at ih ⊢; rw [ih]
    | cons piece' pieces =>
      rw [List.intercalate_cons_cons] at ih ⊢
      rw [← ih]
      rfl

/-! ## Blanks around a text -/

lemma map_trim_splitDoubleColon_append_left (h : Blank before) (cs : List Char) :
    (splitDoubleColon (before ++ cs)).map trim = (splitDoubleColon cs).map trim := by
  rw [splitDoubleColon_append h.not_mem_colon]
  cases splitDoubleColon cs with
  | nil => rfl
  | cons piece pieces =>
    rw [List.modifyHead_cons, List.map_cons, List.map_cons, trim_append_left h]

lemma map_trim_splitDoubleColon_append_right (h : Blank after) (cs : List Char) :
    (splitDoubleColon (cs ++ after)).map trim = (splitDoubleColon cs).map trim := by
  obtain ⟨pieces, piece, hsplit, happend⟩ := exists_splitDoubleColon_append h.not_mem_colon cs
  rw [hsplit, happend, List.map_append, List.map_append, List.map_singleton, List.map_singleton,
    trim_append_right h]

end

end WhereClause.Text
