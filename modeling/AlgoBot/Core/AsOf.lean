import Mathlib.Data.List.Sort
import Mathlib.Order.Defs.LinearOrder

/-!
# What is known as of a time

Records with times, and the queries that a reader makes as of a cutoff: the newest
ones up to it, or the beginning of a sorted list that a binary search cuts off.

* `filter_insertionSort`: a stable sort keeps the order of a part of the list.
* `take_bisect`: what a binary search cuts off a sorted list are the records up to the cutoff.
* `upTo_sorted`: and these are the sorted list of what was known.
-/

namespace AlgoBot.Core.AsOf

variable {α τ : Type} [LinearOrder τ] (time : α → τ)

/-- The records up to the cutoff. -/
def upTo (cutoff : τ) (records : List α) : List α := records.filter fun x => time x ≤ cutoff

/-- The records in the order of their times. -/
def sorted (records : List α) : List α := records.insertionSort fun a b => time a ≤ time b

/-- The newest ones, the latest first. -/
def newest (limit : ℕ) (records : List α) : List α :=
  (records.insertionSort fun a b => time b ≤ time a).take limit

/-- `bisect_right` of the times of a sorted list. -/
def bisect (cutoff : τ) (records : List α) : ℕ := records.countP fun x => time x ≤ cutoff

variable {time}

/-! ## Stable sorting -/

section Stable

variable {r : α → α → Prop} [DecidableRel r] {p : α → Bool} {x : α} {l : List α}

theorem orderedInsert_front (hfront : ∀ y ∈ l, r x y) : l.orderedInsert r x = x :: l := by
  cases l with
  | nil => rfl
  | cons y l => exact List.orderedInsert_cons_of_le r l (hfront y List.mem_cons_self)

theorem filter_orderedInsert_neg (hx : p x = false) :
    (l.orderedInsert r x).filter p = l.filter p := by
  induction l with
  | nil => simp [hx]
  | cons y l ih =>
    rw [List.orderedInsert_cons]
    split
    · rw [List.filter_cons_of_neg (by simp [hx])]
    · by_cases hy : p y = true
      · rw [List.filter_cons_of_pos hy, List.filter_cons_of_pos hy, ih]
      · rw [List.filter_cons_of_neg hy, List.filter_cons_of_neg hy, ih]

theorem filter_orderedInsert_pos [IsTrans α r] (hl : l.Pairwise r) (hx : p x = true) :
    (l.orderedInsert r x).filter p = (l.filter p).orderedInsert r x := by
  induction l with
  | nil => simp [hx]
  | cons y l ih =>
    obtain ⟨hfirst, hrest⟩ := List.pairwise_cons.mp hl
    rw [List.orderedInsert_cons]
    split
    · next hxy =>
      -- the element stands before all of them
      have hfront : ∀ z ∈ (y :: l).filter p, r x z := by
        intro z hz
        rcases List.mem_cons.mp (List.mem_filter.mp hz).1 with rfl | hz
        · exact hxy
        · exact Trans.trans hxy (hfirst z hz)
      rw [List.filter_cons_of_pos hx, orderedInsert_front hfront]
    · next hxy =>
      by_cases hy : p y = true
      · rw [List.filter_cons_of_pos hy, List.filter_cons_of_pos hy, ih hrest,
          List.orderedInsert_of_not_le r _ hxy]
      · rw [List.filter_cons_of_neg hy, List.filter_cons_of_neg hy, ih hrest]

/-- A stable sort keeps the order of a part of the list. -/
theorem filter_insertionSort [Std.Total r] [IsTrans α r] (l : List α) :
    (l.insertionSort r).filter p = (l.filter p).insertionSort r := by
  induction l with
  | nil => rfl
  | cons x l ih =>
    have hsorted : (l.insertionSort r).Pairwise r := List.pairwise_insertionSort r l
    rw [List.insertionSort_cons]
    by_cases hx : p x = true
    · rw [filter_orderedInsert_pos hsorted hx, ih, List.filter_cons_of_pos hx,
        List.insertionSort_cons]
    · rw [filter_orderedInsert_neg (by simpa using hx), ih, List.filter_cons_of_neg hx]

end Stable

/-! ## Binary search -/

variable {cutoff : τ} {records : List α}

/-- What a binary search cuts off a sorted list are the records up to the cutoff. -/
theorem take_bisect (hsorted : records.Pairwise fun a b => time a ≤ time b) :
    records.take (bisect time cutoff records) = upTo time cutoff records := by
  induction records with
  | nil => rfl
  | cons x records ih =>
    obtain ⟨hfirst, hrest⟩ := List.pairwise_cons.mp hsorted
    unfold bisect upTo
    by_cases hx : time x ≤ cutoff
    · have hcount := List.countP_cons_of_pos (p := fun x => decide (time x ≤ cutoff)) (l := records)
        (decide_eq_true hx)
      have hfilter := List.filter_cons_of_pos (p := fun x => decide (time x ≤ cutoff))
        (l := records) (decide_eq_true hx)
      rw [hcount, hfilter, List.take_succ_cons]
      exact congrArg (List.cons x) (ih hrest)
    · -- nor is any later one
      have hnone : ∀ y ∈ x :: records, ¬ decide (time y ≤ cutoff) = true := by
        intro y hy
        rw [decide_eq_true_eq]
        rcases List.mem_cons.mp hy with rfl | hy
        · exact hx
        · exact fun hle => hx ((hfirst y hy).trans hle)
      rw [List.countP_eq_zero.mpr hnone, List.filter_eq_nil_iff.mpr hnone, List.take_zero]

theorem pairwise_sorted (records : List α) :
    (sorted time records).Pairwise fun a b => time a ≤ time b :=
  List.pairwise_insertionSort (fun a b => time a ≤ time b) records

/-- What a sorted list has up to the cutoff is the sorted list of what was known. -/
theorem upTo_sorted (records : List α) :
    upTo time cutoff (sorted time records) = sorted time (upTo time cutoff records) :=
  filter_insertionSort records

/-- An earlier cutoff is found among what was known at a later one. -/
theorem bisect_upTo {earlier : τ} (hle : earlier ≤ cutoff) (records : List α) :
    bisect time earlier (upTo time cutoff records) = bisect time earlier records := by
  unfold bisect upTo
  rw [List.countP_filter]
  apply List.countP_congr
  intro x _
  simp only [Bool.and_eq_true, decide_eq_true_eq, and_iff_left_iff_imp]
  exact fun hx => hx.trans hle

/-- The records that a filter keeps up to a cutoff are those of what was known. -/
theorem upTo_filter (p : α → Bool) (records : List α) :
    upTo time cutoff (records.filter p) = (upTo time cutoff records).filter p := by
  unfold upTo
  rw [List.filter_filter, List.filter_filter]
  simp only [Bool.and_comm]

end AlgoBot.Core.AsOf
