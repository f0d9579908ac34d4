import Mathlib.Data.List.Basic

/-!
# Causal functions of lists

A function of lists is causal if each of its values is made of the elements up to there: further
elements add values and change none.

* `causal_of_take`: a value for each beginning of the list.
* `causal_map`, `causal_scan`, `causal_pairs`: values of elements, of running states and of
  neighbours.
* `Causal.zip`, `Causal.comp`: causal functions side by side and one after the other.
* `Causal.getLast?_eq`: the last value is that of the same place in every longer list.
* `Causal.getElem?_congr`: lists that begin alike have the same values there.
-/

namespace AlgoBot.Core

variable {α β γ : Type}

structure Causal (f : List α → List β) : Prop where
  length : ∀ xs, (f xs).length = xs.length
  initial : ∀ xs ys, f xs <+: f (xs ++ ys)

theorem causal_of_take (g : List α → β) :
    Causal fun xs => (List.range xs.length).map fun i => g (xs.take (i + 1)) where
  length xs := by rw [List.length_map, List.length_range]
  initial xs ys := by
    have hsame : (List.range xs.length).map (fun i => g (xs.take (i + 1))) =
        (List.range xs.length).map fun i => g ((xs ++ ys).take (i + 1)) := by
      refine List.map_congr_left fun i hi => ?_
      rw [List.take_append_of_le_length (List.mem_range.mp hi)]
    rw [hsame, List.length_append, List.range_add, List.map_append]
    exact List.prefix_append _ _

theorem causal_map (g : α → β) : Causal (List.map g) where
  length xs := List.length_map g
  initial xs ys := by
    rw [List.map_append]
    exact List.prefix_append _ _

/-! ## Running states -/

/-- The states after each of the elements. -/
def scan (step : β → α → β) (init : β) : List α → List β
  | [] => []
  | x :: xs => step init x :: scan step (step init x) xs

theorem scan_append (step : β → α → β) (init : β) (xs ys : List α) :
    scan step init xs <+: scan step init (xs ++ ys) := by
  induction xs generalizing init with
  | nil => exact List.nil_prefix
  | cons x xs ih => exact List.cons_prefix_cons.mpr ⟨rfl, ih (step init x)⟩

theorem length_scan (step : β → α → β) (init : β) (xs : List α) :
    (scan step init xs).length = xs.length := by
  induction xs generalizing init with
  | nil => rfl
  | cons x xs ih => rw [scan, List.length_cons, ih, List.length_cons]

/-- The states where the first one is made of the first element. -/
def scanFirst (step : β → α → β) (init : α → β) : List α → List β
  | [] => []
  | x :: rest => scan step (init x) (x :: rest)

theorem causal_scan (step : β → α → β) (init : α → β) : Causal (scanFirst step init) where
  length xs := by
    cases xs with
    | nil => rfl
    | cons x rest => exact length_scan step (init x) (x :: rest)
  initial xs ys := by
    cases xs with
    | nil => exact List.nil_prefix
    | cons x rest => exact scan_append step (init x) (x :: rest) ys

/-! ## Neighbours -/

theorem zipWith_tail_append (op : α → α → β) (x : α) (rest ys : List α) :
    List.zipWith op (x :: rest) rest <+: List.zipWith op (x :: (rest ++ ys)) (rest ++ ys) := by
  induction rest generalizing x with
  | nil => exact List.nil_prefix
  | cons y rest ih => exact List.cons_prefix_cons.mpr ⟨rfl, ih y⟩

/-- A value for the first element, and one for each element and the one before it. -/
def pairs (first : β) (op : α → α → β) : List α → List β
  | [] => []
  | x :: rest => first :: List.zipWith op (x :: rest) rest

theorem causal_pairs (first : β) (op : α → α → β) : Causal (pairs first op) where
  length xs := by
    cases xs with
    | nil => rfl
    | cons x rest => simp [pairs]
  initial xs ys := by
    cases xs with
    | nil => exact List.nil_prefix
    | cons x rest => exact List.cons_prefix_cons.mpr ⟨rfl, zipWith_tail_append op x rest ys⟩

/-! ## Composition -/

variable {f : List α → List β} {g : List α → List γ}

theorem Causal.zip (hf : Causal f) (hg : Causal g) : Causal fun xs => (f xs).zip (g xs) where
  length xs := by rw [List.length_zip, hf.length, hg.length, Nat.min_self]
  initial xs ys := by
    obtain ⟨zs, hzs⟩ := hf.initial xs ys
    obtain ⟨ws, hws⟩ := hg.initial xs ys
    rw [← hzs, ← hws, List.zip_append (by rw [hf.length, hg.length])]
    exact List.prefix_append _ _

theorem Causal.comp {k : List β → List γ} (hk : Causal k) (hf : Causal f) :
    Causal fun xs => k (f xs) where
  length xs := by rw [hk.length, hf.length]
  initial xs ys := by
    obtain ⟨zs, hzs⟩ := hf.initial xs ys
    rw [← hzs]
    exact hk.initial (f xs) zs

/-- The last value stays where it is. -/
theorem Causal.getLast?_eq (hf : Causal f) {xs : List α} (hne : xs ≠ []) (ys : List α) :
    (f xs).getLast? = (f (xs ++ ys))[xs.length - 1]? := by
  obtain ⟨zs, hzs⟩ := hf.initial xs ys
  have hlength : xs.length - 1 < (f xs).length := by
    rw [hf.length]
    exact Nat.sub_lt (List.length_pos_iff.mpr hne) Nat.one_pos
  rw [← hzs, List.getElem?_append_left hlength, List.getLast?_eq_getElem?, hf.length]

/-- A value is that of the beginning of the list up to its place. -/
theorem Causal.getElem?_take (hf : Causal f) {xs : List α} {i : ℕ} (hi : i < xs.length) :
    (f xs)[i]? = (f (xs.take (i + 1)))[i]? := by
  obtain ⟨zs, hzs⟩ := hf.initial (xs.take (i + 1)) (xs.drop (i + 1))
  rw [List.take_append_drop] at hzs
  have hlength : i < (f (xs.take (i + 1))).length := by
    rw [hf.length, List.length_take]
    omega
  rw [← hzs, List.getElem?_append_left hlength]

/-- Lists that begin alike have the same values there. -/
theorem Causal.getElem?_congr (hf : Causal f) {xs ys : List α} {i : ℕ} (hi : i < xs.length)
    (hi' : i < ys.length) (hsame : xs.take (i + 1) = ys.take (i + 1)) : (f xs)[i]? = (f ys)[i]? := by
  rw [hf.getElem?_take hi, hf.getElem?_take hi', hsame]

end AlgoBot.Core
