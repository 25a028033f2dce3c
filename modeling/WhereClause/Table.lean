/-!
# Tables

A finite map whose entries stand in the order in which their keys were first inserted. Inserting
under an equal key replaces the value and leaves the key, its spelling and its place alone.
-/

namespace WhereClause

/-- A finite map with entries in the order of first insertion. -/
structure Table (κ ν : Type) where
  entries : List (κ × ν)

namespace Table

variable {κ ν : Type}

def empty : Table κ ν := ⟨[]⟩

instance : EmptyCollection (Table κ ν) := ⟨empty⟩

instance : Inhabited (Table κ ν) := ⟨empty⟩

def size (t : Table κ ν) : Nat := t.entries.length

variable [BEq κ]

/-- The value under the first key equal to `k`. -/
def lookup (k : κ) : List (κ × ν) → Option ν
  | [] => none
  | e :: rest => if e.1 == k then some e.2 else lookup k rest

/-- Replaces the value under the first key equal to `k`, or adds an entry at the end. -/
def put (k : κ) (v : ν) : List (κ × ν) → List (κ × ν)
  | [] => [(k, v)]
  | e :: rest => if e.1 == k then (e.1, v) :: rest else e :: put k v rest

def get? (t : Table κ ν) (k : κ) : Option ν := lookup k t.entries

def contains (t : Table κ ν) (k : κ) : Bool := (t.get? k).isSome

def insert (t : Table κ ν) (k : κ) (v : ν) : Table κ ν := ⟨put k v t.entries⟩

/-- The table that results from inserting pairs one after the other: later pairs win. -/
def ofPairs (pairs : List (κ × ν)) : Table κ ν :=
  pairs.foldl (fun t p => t.insert p.1 p.2) empty

/-! ## Reading what was inserted -/

theorem lookup_put [EquivBEq κ] (k j : κ) (v : ν) (es : List (κ × ν)) :
    lookup j (put k v es) = if k == j then some v else lookup j es := by
  induction es with
  | nil => simp [put, lookup]
  | cons e rest ih =>
    by_cases hk : (e.1 == k) = true
    · simp only [put, hk, if_true, lookup]
      rw [BEq.congr_left hk]
      split <;> rfl
    · simp only [put, hk, if_false, lookup, ih, Bool.false_eq_true]
      by_cases hj : (e.1 == j) = true
      · have : (k == j) = false := by
          cases hkj : (k == j) with
          | false => rfl
          | true => exact absurd (BEq.trans hj (BEq.symm hkj)) hk
        simp [hj, this]
      · simp [hj]

theorem get?_insert [EquivBEq κ] (t : Table κ ν) (k j : κ) (v : ν) :
    (t.insert k v).get? j = if k == j then some v else t.get? j :=
  lookup_put k j v t.entries

end Table

end WhereClause
