import Mathlib.Data.List.Basic
import Mathlib.Data.List.Induction
import Mathlib.Tactic.Common
import WhereClause.Distinct

/-!
# What a list without repeats holds

Facts about `Distinct.add` and `Distinct.ofList` over any equality that is an equivalence.  What
such a list holds is best said with `List.contains`, which looks for an equal item: the item that
stands in the list may be spelled in another way.
-/

namespace WhereClause.Distinct

variable {α : Type} [BEq α]

/-- No item is equal to an earlier one. -/
def Apart (xs : List α) : Prop := xs.Pairwise fun earlier later => (later == earlier) = false

@[simp] lemma apart_nil : Apart ([] : List α) := List.Pairwise.nil

section Holding

variable [EquivBEq α]

@[simp] lemma contains_add (xs : List α) (x y : α) :
    (add xs x).contains y = (xs.contains y || y == x) := by
  cases h : xs.contains x with
  | true =>
    rw [add_of_contains h]
    cases hyx : y == x with
    | false => simp
    | true => rw [List.contains_congr hyx, h]; rfl
  | false =>
    rw [add_of_not_contains h, List.contains_append]
    simp

@[simp] lemma contains_foldl_add (xs ys : List α) (y : α) :
    (ys.foldl add xs).contains y = (xs.contains y || ys.contains y) := by
  induction ys generalizing xs with
  | nil => simp
  | cons z zs ih => rw [List.foldl_cons, ih, contains_add, List.contains_cons, Bool.or_assoc]

@[simp] lemma contains_ofList (xs : List α) (y : α) : (ofList xs).contains y = xs.contains y := by
  simp [ofList]

end Holding

lemma apart_add {xs : List α} (h : Apart xs) (x : α) : Apart (add xs x) := by
  cases hx : xs.contains x with
  | true => rwa [add_of_contains hx]
  | false =>
    rw [add_of_not_contains hx]
    refine List.pairwise_append.2 ⟨h, List.pairwise_singleton _ _, ?_⟩
    intro earlier he later hl
    obtain rfl := List.mem_singleton.1 hl
    by_contra hne
    have hin : xs.contains later = true :=
      List.contains_iff_exists_mem_beq.2 ⟨earlier, he, by simpa using hne⟩
    simp [hx] at hin

lemma apart_foldl_add {xs : List α} (h : Apart xs) (ys : List α) : Apart (ys.foldl add xs) := by
  induction ys generalizing xs with
  | nil => exact h
  | cons y ys ih => exact ih (apart_add h y)

lemma apart_ofList (xs : List α) : Apart (ofList xs) := apart_foldl_add apart_nil xs

/-- Adding items none of which is there yet, and none of which repeats, appends them. -/
lemma foldl_add_eq_append {xs ys : List α} (h : Apart (xs ++ ys)) :
    ys.foldl add xs = xs ++ ys := by
  induction ys generalizing xs with
  | nil => simp
  | cons y ys ih =>
    have hy : xs.contains y = false := by
      by_contra hc
      obtain ⟨x, hx, hxy⟩ := List.contains_iff_exists_mem_beq.1 (by simpa using hc)
      have hne := (List.pairwise_append.1 h).2.2 x hx y List.mem_cons_self
      rw [hxy] at hne
      exact absurd hne (by decide)
    rw [List.foldl_cons, add_of_not_contains hy, ih (by simpa using h)]
    simp

lemma ofList_concat (xs : List α) (x : α) : ofList (xs ++ [x]) = add (ofList xs) x :=
  List.foldl_append

lemma mem_or_eq_of_mem_add {xs : List α} {x y : α} (h : y ∈ add xs x) : y ∈ xs ∨ y = x := by
  rw [add] at h
  split_ifs at h
  · exact .inl h
  · rcases List.mem_append.1 h with hy | hy
    · exact .inl hy
    · exact .inr (List.mem_singleton.1 hy)

lemma mem_add_iff [LawfulBEq α] {xs : List α} {x y : α} : y ∈ add xs x ↔ y ∈ xs ∨ y = x := by
  have hcontains := contains_add xs x y
  rw [← List.contains_iff_mem, hcontains, Bool.or_eq_true, List.contains_iff_mem, beq_iff_eq]

lemma mem_of_mem_ofList {xs : List α} {x : α} (h : x ∈ ofList xs) : x ∈ xs := by
  induction xs using List.reverseRecOn with
  | nil => exact h
  | append_singleton xs y ih =>
    rw [ofList_concat] at h
    rcases mem_or_eq_of_mem_add h with hx | rfl
    · exact List.mem_append_left _ (ih hx)
    · exact List.mem_append_right _ List.mem_cons_self

lemma ofList_eq_self {xs : List α} (h : Apart xs) : ofList xs = xs := by
  have happ : Apart ([] ++ xs) := h
  exact foldl_add_eq_append happ

/-- Equal items of a list without repeats are one item. -/
lemma eq_of_apart [EquivBEq α] {xs : List α} (h : Apart xs) {x y : α} (hx : x ∈ xs) (hy : y ∈ xs)
    (hxy : (x == y) = true) : x = y := by
  induction xs with
  | nil => cases hx
  | cons z zs ih =>
    obtain ⟨hz, hzs⟩ := List.pairwise_cons.1 h
    rcases List.mem_cons.1 hx with rfl | hxs <;> rcases List.mem_cons.1 hy with rfl | hys
    · rfl
    · exact absurd (BEq.symm hxy) (by rw [hz y hys]; decide)
    · exact absurd hxy (by rw [hz x hxs]; decide)
    · exact ih hzs hxs hys

/-- A list is a prefix of what it becomes by additions. -/
lemma exists_foldl_add_eq_append (xs ys : List α) : ∃ zs, ys.foldl add xs = xs ++ zs := by
  induction ys generalizing xs with
  | nil => exact ⟨[], (List.append_nil xs).symm⟩
  | cons y ys ih =>
    obtain ⟨us, hus⟩ := exists_add_eq_append xs y
    obtain ⟨vs, hvs⟩ := ih (add xs y)
    exact ⟨us ++ vs, by rw [List.foldl_cons, hvs, hus, List.append_assoc]⟩

/-- Repeats may be dropped after a selection as well as before it, if an item that is not selected
is repeated by none that is. -/
lemma ofList_filter [EquivBEq α] {p : α → Bool} {xs : List α}
    (h : ∀ x ∈ ofList xs, p x = false → ∀ y ∈ xs, (y == x) = true → p y = false) :
    ofList (xs.filter p) = (ofList xs).filter p := by
  induction xs using List.reverseRecOn with
  | nil => rfl
  | append_singleton xs x ih =>
    have hkept : ofList (xs.filter p) = (ofList xs).filter p := by
      refine ih fun y hy hpy z hz hzy => ?_
      refine h y ?_ hpy z (List.mem_append_left _ hz) hzy
      obtain ⟨zs, hzs⟩ := exists_add_eq_append (ofList xs) x
      rw [ofList_concat, hzs]
      exact List.mem_append_left _ hy
    rw [List.filter_append, ofList_concat]
    cases hin : (ofList xs).contains x with
    | true =>
      rw [add_of_contains hin, ← hkept]
      cases hx : p x with
      | false => rw [List.filter_cons_of_neg (by simp [hx]), List.filter_nil, List.append_nil]
      | true =>
        -- the item that stands for `x` is selected as well
        obtain ⟨y, hy, hxy⟩ := List.contains_iff_exists_mem_beq.1 hin
        have hpy : p y = true := by
          by_contra hpy
          have hpx : p x = false := by
            refine h y ?_ (by simpa using hpy) x (by simp) hxy
            rw [ofList_concat, add_of_contains hin]
            exact hy
          simp [hx] at hpx
        have hadded : (ofList (xs.filter p)).contains x = true := by
          rw [hkept]
          exact List.contains_iff_exists_mem_beq.2 ⟨y, List.mem_filter.2 ⟨hy, hpy⟩, hxy⟩
        rw [List.filter_cons_of_pos hx, List.filter_nil, ofList_concat, add_of_contains hadded]
    | false =>
      rw [add_of_not_contains hin, List.filter_append, ← hkept]
      cases hx : p x with
      | false =>
        rw [List.filter_cons_of_neg (by simp [hx]), List.filter_nil, List.append_nil,
          List.append_nil]
      | true =>
        have hnew : (ofList (xs.filter p)).contains x = false := by
          rw [contains_ofList] at hin ⊢
          rw [List.contains_eq_any_beq, List.any_eq_false] at hin ⊢
          exact fun y hy => hin y (List.mem_filter.1 hy).1
        rw [List.filter_cons_of_pos hx, List.filter_nil, ofList_concat, add_of_not_contains hnew]

/-- Adding items that are all there changes nothing. -/
lemma foldl_add_of_forall_contains {xs ys : List α} (h : ∀ y ∈ ys, xs.contains y = true) :
    ys.foldl add xs = xs := by
  induction ys with
  | nil => rfl
  | cons y ys ih =>
    obtain ⟨hy, hys⟩ := List.forall_mem_cons.1 h
    rw [List.foldl_cons, add_of_contains hy, ih hys]

/-- Of the items to be added, repeats may be dropped first. -/
lemma foldl_add_ofList [EquivBEq α] (xs ys : List α) :
    (ofList ys).foldl add xs = ys.foldl add xs := by
  induction ys using List.reverseRecOn with
  | nil => rfl
  | append_singleton ys y ih =>
    rw [ofList_concat, List.foldl_append, List.foldl_cons, List.foldl_nil]
    cases hy : (ofList ys).contains y with
    | true =>
      have hadded : (ys.foldl add xs).contains y = true := by
        rw [contains_ofList] at hy
        rw [contains_foldl_add, hy, Bool.or_true]
      rw [add_of_contains hy, add_of_contains hadded, ih]
    | false =>
      rw [add_of_not_contains hy, List.foldl_append, ih]
      rfl

/-- Repeats that are dropped before items are replaced by lists of items, and within these lists,
would be dropped after it, if equal items are replaced by lists that hold the same. -/
lemma ofList_flatMap_ofList [EquivBEq α] {β : Type} [BEq β] [EquivBEq β] {g : α → List β}
    (hg : ∀ x y, (x == y) = true → ∀ b ∈ g x, (g y).contains b = true) (xs : List α) :
    ofList ((ofList xs).flatMap fun x => ofList (g x)) = ofList (xs.flatMap g) := by
  have happend (bs cs : List β) : ofList (bs ++ cs) = cs.foldl add (ofList bs) := List.foldl_append
  induction xs using List.reverseRecOn with
  | nil => rfl
  | append_singleton xs x ih =>
    rw [ofList_concat, List.flatMap_append, List.flatMap_singleton, happend]
    cases hx : (ofList xs).contains x with
    | true =>
      -- an equal item was replaced before, and its list holds all that this one's does
      have hadded : ∀ b ∈ g x, (ofList (xs.flatMap g)).contains b = true := by
        intro b hb
        rw [contains_ofList] at hx ⊢
        obtain ⟨y, hy, hxy⟩ := List.contains_iff_exists_mem_beq.1 hx
        obtain ⟨c, hc, hbc⟩ := List.contains_iff_exists_mem_beq.1 (hg x y hxy b hb)
        exact List.contains_iff_exists_mem_beq.2 ⟨c, List.mem_flatMap.2 ⟨y, hy, hc⟩, hbc⟩
      rw [add_of_contains hx, ih, foldl_add_of_forall_contains hadded]
    | false =>
      rw [add_of_not_contains hx, List.flatMap_append, List.flatMap_singleton, happend, ih,
        foldl_add_ofList]

/-- Repeats that are dropped before a rewriting that respects equality would be dropped after it. -/
lemma ofList_filterMap_ofList [EquivBEq α] {β : Type} [BEq β] [EquivBEq β]
    {g : α → Option β}
    (hg : ∀ x y, (x == y) = true → ∀ b, g x = some b → ∃ c, g y = some c ∧ (b == c) = true)
    (xs : List α) : ofList ((ofList xs).filterMap g) = ofList (xs.filterMap g) := by
  have hlist : ∀ x, ofList (g x).toList = (g x).toList := by
    intro x
    cases g x <;> rfl
  have hholds : ∀ x y, (x == y) = true → ∀ b ∈ (g x).toList, (g y).toList.contains b = true := by
    intro x y hxy b hb
    obtain ⟨c, hc, hbc⟩ := hg x y hxy b (Option.mem_toList.1 hb)
    exact List.contains_iff_exists_mem_beq.2 ⟨c, Option.mem_toList.2 hc, hbc⟩
  rw [List.filterMap_eq_flatMap_toList, List.filterMap_eq_flatMap_toList,
    ← ofList_flatMap_ofList hholds xs]
  simp only [hlist]

/-! ## Rewriting that keeps items apart -/

section

variable {β : Type} [BEq β] {f : α → β} (hf : ∀ x y, (f x == f y) = (x == y))

include hf

lemma contains_map (xs : List α) (x : α) : (xs.map f).contains (f x) = xs.contains x := by
  induction xs with
  | nil => rfl
  | cons y ys ih => rw [List.map_cons, List.contains_cons, List.contains_cons, hf, ih]

lemma add_map (xs : List α) (x : α) : add (xs.map f) (f x) = (add xs x).map f := by
  rw [add, add, contains_map hf]
  split_ifs
  · rfl
  · rw [List.map_append, List.map_singleton]

lemma foldl_add_map (xs ys : List α) :
    (ys.map f).foldl add (xs.map f) = (ys.foldl add xs).map f := by
  rw [List.foldl_map]
  exact List.foldl_hom (List.map f) (add_map hf)

lemma ofList_map (xs : List α) : ofList (xs.map f) = (ofList xs).map f := foldl_add_map hf [] xs

end

end WhereClause.Distinct
