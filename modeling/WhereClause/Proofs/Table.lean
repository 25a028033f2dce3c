import Mathlib.Data.List.Induction
import Mathlib.Tactic.Common
import WhereClause.Table

/-!
# What tables hold

A look-up finds what was last put under an equal key, so tables are read by equality alone.  A table
from keys to keys replaces some of them.  Where no value repeats, the inverse table undoes this for
all keys that are no values themselves (`Table.image_inverse_image`).
-/

namespace WhereClause.Table

/-! ## Look-ups -/

section

variable {κ ν : Type} [BEq κ]

lemma lookup_congr [EquivBEq κ] {j k : κ} (h : (j == k) = true) (es : List (κ × ν)) :
    lookup j es = lookup k es := by
  induction es with
  | nil => rfl
  | cons e rest ih => rw [lookup, lookup, BEq.congr_right h, ih]

/-- Equal keys have the same value. -/
lemma get?_congr [EquivBEq κ] {j k : κ} (h : (j == k) = true) (t : Table κ ν) :
    t.get? j = t.get? k :=
  lookup_congr h t.entries

lemma exists_mem_of_lookup {k : κ} {v : ν} {es : List (κ × ν)} (h : lookup k es = some v) :
    ∃ e ∈ es, (e.1 == k) = true ∧ e.2 = v := by
  induction es with
  | nil => cases h
  | cons e rest ih =>
    rw [lookup] at h
    split_ifs at h with hk
    · exact ⟨e, List.mem_cons_self, hk, Option.some.inj h⟩
    · obtain ⟨e', he', hfound⟩ := ih h
      exact ⟨e', List.mem_cons_of_mem e he', hfound⟩

/-! ## Insertions -/

lemma length_put_of_lookup_eq_none {k : κ} {v : ν} {es : List (κ × ν)} (h : lookup k es = none) :
    (put k v es).length = es.length + 1 := by
  induction es with
  | nil => rfl
  | cons e rest ih =>
    rw [lookup] at h
    split_ifs at h with hk
    rw [put, if_neg hk, List.length_cons, List.length_cons, ih h]

lemma size_insert_of_get?_eq_none {t : Table κ ν} {k : κ} (h : t.get? k = none) (v : ν) :
    (t.insert k v).size = t.size + 1 := length_put_of_lookup_eq_none h

/-- What is put under a key is the one entry that changes. -/
lemma mem_or_of_mem_put [ReflBEq κ] {k : κ} {v : ν} {es : List (κ × ν)} {e : κ × ν}
    (h : e ∈ put k v es) : e ∈ es ∨ (e.1 == k) = true ∧ e.2 = v := by
  induction es with
  | nil =>
    obtain rfl := List.mem_singleton.1 h
    exact .inr ⟨BEq.rfl, rfl⟩
  | cons e' rest ih =>
    rw [put] at h
    split_ifs at h with hk
    · rcases List.mem_cons.1 h with rfl | hrest
      · exact .inr ⟨hk, rfl⟩
      · exact .inl (List.mem_cons_of_mem e' hrest)
    · rcases List.mem_cons.1 h with rfl | hrest
      · exact .inl List.mem_cons_self
      · exact (ih hrest).imp_left (List.mem_cons_of_mem e')

/-- Values stay apart if the new one is apart from all others. -/
lemma pairwise_put [ReflBEq κ] {R : ν → ν → Prop} {k : κ} {v : ν} {es : List (κ × ν)}
    (h : es.Pairwise fun e e' => R e.2 e'.2) (hv : ∀ e ∈ es, R e.2 v ∧ R v e.2) :
    (put k v es).Pairwise fun e e' => R e.2 e'.2 := by
  induction es with
  | nil => exact List.pairwise_singleton _ _
  | cons e rest ih =>
    obtain ⟨hfirst, hrest⟩ := List.pairwise_cons.1 h
    obtain ⟨he, hothers⟩ := List.forall_mem_cons.1 hv
    rw [put]
    split_ifs with hk
    · exact List.pairwise_cons.2 ⟨fun e' he' => (hothers e' he').2, hrest⟩
    · refine List.pairwise_cons.2 ⟨fun e' he' => ?_, ih hrest hothers⟩
      rcases mem_or_of_mem_put he' with hin | ⟨-, hvalue⟩
      · exact hfirst e' hin
      · rw [hvalue]
        exact he.1

end

/-! ## Tables of pairs -/

section

variable {κ ν : Type} [BEq κ]

lemma ofPairs_concat (ps : List (κ × ν)) (p : κ × ν) :
    ofPairs (ps ++ [p]) = (ofPairs ps).insert p.1 p.2 := List.foldl_append

/-- What a table of pairs holds comes of a pair under an equal key. -/
lemma exists_mem_of_mem_ofPairs [EquivBEq κ] {ps : List (κ × ν)} {e : κ × ν}
    (h : e ∈ (ofPairs ps).entries) : ∃ p ∈ ps, (p.1 == e.1) = true ∧ p.2 = e.2 := by
  induction ps using List.reverseRecOn with
  | nil => cases h
  | append_singleton ps p ih =>
    rw [ofPairs_concat] at h
    rcases mem_or_of_mem_put h with hin | ⟨hkey, hvalue⟩
    · obtain ⟨p', hp', hpair⟩ := ih hin
      exact ⟨p', List.mem_append_left _ hp', hpair⟩
    · exact ⟨p, by simp, BEq.symm hkey, hvalue.symm⟩

lemma get?_ofPairs_eq_none [EquivBEq κ] {ps : List (κ × ν)} {k : κ}
    (h : ∀ p ∈ ps, (p.1 == k) = false) : (ofPairs ps).get? k = none := by
  induction ps using List.reverseRecOn with
  | nil => rfl
  | append_singleton ps p ih =>
    obtain ⟨hps, hp⟩ := List.forall_mem_append.1 h
    rw [ofPairs_concat, get?_insert, List.forall_mem_singleton.1 hp, ih hps]
    rfl

/-- Where no key repeats, each pair is found under its key. -/
lemma get?_ofPairs_of_mem [EquivBEq κ] {ps : List (κ × ν)} {p : κ × ν}
    (hapart : ps.Pairwise fun p p' => (p.1 == p'.1) = false) (hp : p ∈ ps) :
    (ofPairs ps).get? p.1 = some p.2 := by
  induction ps using List.reverseRecOn with
  | nil => cases hp
  | append_singleton ps q ih =>
    obtain ⟨hps, -, hlast⟩ := List.pairwise_append.1 hapart
    rw [ofPairs_concat, get?_insert]
    rcases List.mem_append.1 hp with hin | hin
    · have hne : (q.1 == p.1) = false := by
        rw [BEq.comm]
        exact hlast p hin q List.mem_cons_self
      rw [hne, ih hps hin]
      rfl
    · obtain rfl := List.mem_singleton.1 hin
      rw [BEq.rfl, if_pos rfl]

end

/-! ## Tables as replacements -/

section

variable {κ : Type} [BEq κ] (t : Table κ κ)

/-- What a table puts in the place of a key, which is the key itself where it has none like it. -/
def image (k : κ) : κ := (t.get? k).getD k

/-- The table that leads back from values to keys. -/
def inverse : Table κ κ := ofPairs (t.entries.map Prod.swap)

variable {t}

/-- Where no value repeats, and for a key that is itself no value, the inverse leads back. -/
lemma image_inverse_image [EquivBEq κ] {k : κ}
    (hapart : t.entries.Pairwise fun e e' => (e.2 == e'.2) = false)
    (hk : ∀ e ∈ t.entries, (e.2 == k) = false) : (t.inverse.image (t.image k) == k) = true := by
  have hswap : (t.entries.map Prod.swap).Pairwise fun p p' => (p.1 == p'.1) = false :=
    List.pairwise_map.2 hapart
  cases hvalue : t.get? k with
  | none =>
    have hnone : t.inverse.get? k = none := get?_ofPairs_eq_none (List.forall_mem_map.2 hk)
    rw [image, image, hvalue, Option.getD_none, hnone, Option.getD_none]
    exact BEq.rfl
  | some v =>
    obtain ⟨e, he, hkey, rfl⟩ := exists_mem_of_lookup hvalue
    have hback : t.inverse.get? e.2 = some e.1 :=
      get?_ofPairs_of_mem hswap (List.mem_map_of_mem (f := Prod.swap) he)
    rw [image, image, hvalue, Option.getD_some, hback, Option.getD_some]
    exact hkey

end

/-! ## Tables with other keys and values -/

section

variable {κ ν κ' ν' : Type}

/-- A table with other keys and values in the same places. -/
def map (f : κ → κ') (g : ν → ν') (t : Table κ ν) : Table κ' ν' :=
  ⟨t.entries.map fun e => (f e.1, g e.2)⟩

@[simp] lemma size_map (f : κ → κ') (g : ν → ν') (t : Table κ ν) : (t.map f g).size = t.size :=
  List.length_map _

variable [BEq κ] [BEq κ'] {f : κ → κ'} {g : ν → ν'} (hf : ∀ j k, (f j == f k) = (j == k))

include hf

lemma get?_map (t : Table κ ν) (k : κ) : (t.map f g).get? (f k) = (t.get? k).map g := by
  rw [get?, get?, map]
  induction t.entries with
  | nil => rfl
  | cons e es ih =>
    rw [List.map_cons, lookup, lookup, ih, hf]
    split_ifs <;> rfl

lemma insert_map (t : Table κ ν) (k : κ) (v : ν) :
    (t.map f g).insert (f k) (g v) = (t.insert k v).map f g := by
  have hput : ∀ es : List (κ × ν), put (f k) (g v) (es.map fun e => (f e.1, g e.2)) =
      (put k v es).map fun e => (f e.1, g e.2) := by
    intro es
    induction es with
    | nil => rfl
    | cons e es ih =>
      rw [List.map_cons, put, put, ih, hf]
      split_ifs <;> rfl
  exact congrArg Table.mk (hput t.entries)

lemma contains_map (t : Table κ ν) (k : κ) : (t.map f g).contains (f k) = t.contains k := by
  rw [contains, contains, get?_map hf, Option.isSome_map]

end

end WhereClause.Table
