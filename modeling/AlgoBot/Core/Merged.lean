import AlgoBot.Core.AsOf

/-!
# The first of two sorted lists

Two sorted lists are cut off and sorted together. A stable sort merges them, so the first of the
result are the first of what the whole lists would give.

* `insertionSort_append`: a stable sort of two sorted lists is their merge.
* `take_merge`: the first elements of a merge come from the first ones of both lists.
* `take_insertionSort`: both lists may be cut off before the sort.
-/

namespace AlgoBot.Core.Merged

variable {α : Type} {r : α → α → Prop} [DecidableRel r] {x : α} {xs ys : List α} {k : ℕ}

/-- What comes before all of the first list is merged before it. -/
theorem orderedInsert_merge [IsTrans α r] (hx : ∀ a ∈ xs, r x a) (hys : ys.Pairwise r) :
    (xs.merge ys fun a b => decide (r a b)).orderedInsert r x =
      (x :: xs).merge ys fun a b => decide (r a b) := by
  induction ys with
  | nil =>
    rw [List.merge_right, List.merge_right]
    exact AsOf.orderedInsert_front hx
  | cons y ys ih =>
    obtain ⟨hfirst, hrest⟩ := List.pairwise_cons.mp hys
    by_cases hxy : r x y
    · rw [List.cons_merge_cons_pos _ _ _ (by simpa using hxy)]
      apply AsOf.orderedInsert_front
      intro b hb
      rcases List.mem_merge.mp hb with hb | hb
      · exact hx b hb
      · rcases List.mem_cons.mp hb with rfl | hb
        · exact hxy
        · exact Trans.trans hxy (hfirst b hb)
    · have hmerge : (xs.merge (y :: ys) fun a b => decide (r a b)) =
          y :: xs.merge ys fun a b => decide (r a b) := by
        cases xs with
        | nil => simp
        | cons a xs =>
          have hay : ¬ r a y := fun hay => hxy (Trans.trans (hx a List.mem_cons_self) hay)
          rw [List.cons_merge_cons_neg _ _ _ (by simpa using hay)]
      rw [hmerge, List.orderedInsert_of_not_le r _ hxy, ih hrest,
        List.cons_merge_cons_neg _ _ _ (by simpa using hxy)]

/-- A stable sort merges a sorted list with the sorted rest. -/
theorem insertionSort_append [Std.Total r] [IsTrans α r] (hxs : xs.Pairwise r) (ys : List α) :
    (xs ++ ys).insertionSort r = xs.merge (ys.insertionSort r) fun a b => decide (r a b) := by
  induction xs with
  | nil => simp
  | cons x xs ih =>
    obtain ⟨hfirst, hrest⟩ := List.pairwise_cons.mp hxs
    rw [List.cons_append, List.insertionSort_cons, ih hrest,
      orderedInsert_merge hfirst (List.pairwise_insertionSort r ys)]

/-- The first elements of a merge are among the first ones of both lists. -/
theorem take_merge (le : α → α → Bool) (xs ys : List α) (k : ℕ) :
    (xs.merge ys le).take k = ((xs.take k).merge (ys.take k) le).take k := by
  induction k generalizing xs ys with
  | zero => simp
  | succ k ih =>
    -- one element less of a list that has already been cut off
    have hcut : ∀ (z : α) (zs : List α), (z :: zs.take k).take k = (z :: zs).take k := by
      intro z zs
      rw [← List.take_succ_cons, List.take_take, Nat.min_eq_left (Nat.le_succ k)]
    have htwice : ∀ zs : List α, (zs.take k).take k = zs.take k := by
      intro zs
      rw [List.take_take, Nat.min_self]
    cases xs with
    | nil =>
      rw [List.take_nil, List.nil_merge, List.nil_merge, List.take_take, Nat.min_self]
    | cons x xs =>
      cases ys with
      | nil =>
        rw [List.take_nil, List.merge_right, List.merge_right, List.take_take, Nat.min_self]
      | cons y ys =>
        rw [List.take_succ_cons, List.take_succ_cons]
        by_cases hle : le x y = true
        · rw [List.cons_merge_cons_pos _ _ _ hle, List.cons_merge_cons_pos _ _ _ hle,
            List.take_succ_cons, List.take_succ_cons, ih xs (y :: ys),
            ih (xs.take k) (y :: ys.take k), htwice, hcut]
        · rw [List.cons_merge_cons_neg _ _ _ hle, List.cons_merge_cons_neg _ _ _ hle,
            List.take_succ_cons, List.take_succ_cons, ih (x :: xs) ys,
            ih (x :: xs.take k) (ys.take k), htwice, hcut]

/-- Sorted lists may be cut off before they are sorted together, where no more is taken. -/
theorem take_insertionSort [Std.Total r] [IsTrans α r] (hxs : xs.Pairwise r)
    (hys : ys.Pairwise r) (k : ℕ) :
    ((xs.take k ++ ys.take k).insertionSort r).take k = ((xs ++ ys).insertionSort r).take k := by
  have hxs' : (xs.take k).Pairwise r := hxs.sublist (List.take_sublist k xs)
  have hys' : (ys.take k).Pairwise r := hys.sublist (List.take_sublist k ys)
  rw [insertionSort_append hxs', insertionSort_append hxs, hys'.insertionSort_eq,
    hys.insertionSort_eq, ← take_merge]

/-- What is not among the first ones comes after all of them, and they are as many as asked for. -/
theorem mem_take_insertionSort [Std.Total r] [IsTrans α r] (hx : x ∈ xs) (k : ℕ) :
    x ∈ (xs.insertionSort r).take k ∨
      ((xs.insertionSort r).take k).length = k ∧ ∀ y ∈ (xs.insertionSort r).take k, r y x := by
  have hsorted := List.pairwise_insertionSort r xs
  have hmem := (List.mem_insertionSort r).mpr hx
  rw [← List.take_append_drop k (xs.insertionSort r)] at hmem hsorted
  rcases List.mem_append.mp hmem with htake | hdrop
  · exact Or.inl htake
  · right
    constructor
    · rw [List.length_take]
      have hlength := List.length_pos_of_mem hdrop
      rw [List.length_drop] at hlength
      omega
    · intro y hy
      exact (List.pairwise_append.mp hsorted).2.2 y hy x hdrop

end AlgoBot.Core.Merged
