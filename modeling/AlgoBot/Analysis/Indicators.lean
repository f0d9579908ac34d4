import Mathlib.Algebra.BigOperators.Group.List.Basic
import Mathlib.Algebra.BigOperators.Ring.List
import Mathlib.Algebra.Order.BigOperators.Group.List
import Mathlib.Algebra.Order.Field.Rat
import Mathlib.Algebra.Order.Group.MinMax
import Mathlib.Tactic.FieldSimp
import Mathlib.Tactic.Linarith
import Mathlib.Tactic.Ring

/-!
# Indicators

The averages of `apps.analysis.advanced` over a series of prices, its RSI and its MACD, over the
rational numbers, and what they are of the series that is mirrored at a price.

* `sma_mirror`, `ema_mirror`: an average is mirrored.
* `rsi_mirror`: the RSI is taken from 100.
* `macd_mirror`: line, signal and histogram change their signs.
-/

namespace AlgoBot.Analysis

/-! ## Definitions -/

def mean (values : List ℚ) : ℚ := values.sum / values.length

/-- The last values, `values[-n:]`. -/
def lastN {α : Type} (n : ℕ) (values : List α) : List α := values.drop (values.length - n)

def sma (values : List ℚ) (n : ℕ) : Option ℚ :=
  if n ≤ values.length then some (mean (lastN n values)) else none

/-- `ema` of a series that is not empty. -/
def emaOf (values : List ℚ) (n : ℕ) : ℚ :=
  let n := min n values.length
  let alpha : ℚ := 2 / (n + 1)
  (values.drop n).foldl (fun value x => alpha * x + (1 - alpha) * value) (mean (values.take n))

def ema (values : List ℚ) (n : ℕ) : Option ℚ := if values = [] then none else some (emaOf values n)

/-- The changes of a series. -/
def deltas (values : List ℚ) : List ℚ := List.zipWith (fun a b => b - a) values values.tail

/-- The loop over gains or losses. -/
def wilder (n : ℕ) (xs : List ℚ) : ℚ :=
  (xs.drop n).foldl (fun average x => (average * (n - 1) + x) / n) (mean (xs.take n))

def rsi (values : List ℚ) (n : ℕ) : Option ℚ :=
  if values.length ≤ n then none
  else
    let avg_gain := wilder n ((deltas values).map fun delta => max delta 0)
    let avg_loss := wilder n ((deltas values).map fun delta => max (-delta) 0)
    some (if avg_loss = 0 then (if 0 < avg_gain then 100 else 50)
      else if avg_gain = 0 then 0
      else 100 - 100 / (1 + avg_gain / avg_loss))

structure Macd where
  line : ℚ
  signal : ℚ
  histogram : ℚ

/-- The differences of the averages, at each length from 26 on. -/
def macdStream (values : List ℚ) : List ℚ :=
  (List.range' 26 (values.length + 1 - 26)).map fun i =>
    emaOf (values.take i) 12 - emaOf (values.take i) 26

def macd (values : List ℚ) : Option Macd :=
  if values.length < 26 then none
  else
    let stream := macdStream values
    let line := stream.getLast?.getD 0
    let signal := emaOf stream 9
    some ⟨line, signal, line - signal⟩

/-! ## Mirrored series -/

variable {values xs : List ℚ} {c : ℚ} {n : ℕ}

theorem sum_map_sub (c : ℚ) (values : List ℚ) :
    (values.map fun v => c - v).sum = c * values.length - values.sum := by
  induction values with
  | nil => simp
  | cons v rest ih =>
    rw [List.map_cons, List.sum_cons, ih, List.sum_cons, List.length_cons]
    push_cast
    ring

theorem mean_mirror (hne : values ≠ []) : mean (values.map fun v => c - v) = c - mean values := by
  have hlength : (values.length : ℚ) ≠ 0 := by
    exact_mod_cast List.length_pos_iff.mpr hne |>.ne'
  rw [mean, mean, sum_map_sub, List.length_map]
  field_simp

theorem mean_neg : mean (values.map fun v => -v) = -mean values := by
  have hsum : (values.map fun v => -v).sum = -values.sum := by
    induction values with
    | nil => simp
    | cons v rest ih =>
      rw [List.map_cons, List.sum_cons, ih, List.sum_cons]
      ring
  rw [mean, mean, hsum, List.length_map, neg_div]

theorem lastN_map {α β : Type} (f : α → β) (values : List α) :
    lastN n (values.map f) = (lastN n values).map f := by
  rw [lastN, lastN, List.length_map, List.map_drop]

theorem sma_mirror (hn : 0 < n) :
    sma (values.map fun v => c - v) n = (sma values n).map fun a => c - a := by
  unfold sma
  rw [List.length_map]
  split
  · next hlength =>
    have hne : lastN n values ≠ [] := by
      apply List.ne_nil_of_length_pos
      rw [lastN, List.length_drop]
      omega
    rw [lastN_map, mean_mirror hne, Option.map_some]
  · rfl

/-- A weighted average of mirrored values. -/
theorem foldl_mirror (alpha value : ℚ) :
    (xs.map fun v => c - v).foldl (fun value x => alpha * x + (1 - alpha) * value) (c - value) =
      c - xs.foldl (fun value x => alpha * x + (1 - alpha) * value) value := by
  induction xs generalizing value with
  | nil => rfl
  | cons x rest ih =>
    rw [List.map_cons, List.foldl_cons, List.foldl_cons, ← ih]
    congr 1
    ring

theorem foldl_neg (alpha value : ℚ) :
    (xs.map fun v => -v).foldl (fun value x => alpha * x + (1 - alpha) * value) (-value) =
      -xs.foldl (fun value x => alpha * x + (1 - alpha) * value) value := by
  have hmirror := @foldl_mirror xs 0 alpha value
  simpa only [zero_sub] using hmirror

theorem emaOf_mirror (hne : values ≠ []) (hn : 0 < n) :
    emaOf (values.map fun v => c - v) n = c - emaOf values n := by
  have hlength : 0 < values.length := List.length_pos_iff.mpr hne
  have htake : values.take (min n values.length) ≠ [] := by
    apply List.ne_nil_of_length_pos
    rw [List.length_take]
    omega
  unfold emaOf
  dsimp only
  rw [List.length_map, ← List.map_drop, ← List.map_take, mean_mirror htake]
  exact foldl_mirror _ _

theorem emaOf_neg : emaOf (values.map fun v => -v) n = -emaOf values n := by
  unfold emaOf
  dsimp only
  rw [List.length_map, ← List.map_drop, ← List.map_take, mean_neg]
  exact foldl_neg _ _

theorem ema_mirror (hn : 0 < n) :
    ema (values.map fun v => c - v) n = (ema values n).map fun a => c - a := by
  unfold ema
  by_cases hne : values = []
  · simp [hne]
  · rw [if_neg hne, if_neg (by simpa using hne), emaOf_mirror hne hn, Option.map_some]

/-- The changes of a mirrored series change their signs. -/
theorem deltas_mirror : deltas (values.map fun v => c - v) = (deltas values).map fun d => -d := by
  unfold deltas
  rw [← List.map_tail, List.zipWith_map, List.map_zipWith]
  congr 1
  funext a b
  ring

/-- The mean of values that are not negative. -/
theorem mean_nonneg (h : ∀ x ∈ values, 0 ≤ x) : 0 ≤ mean values :=
  div_nonneg (List.sum_nonneg h) (Nat.cast_nonneg _)

theorem wilder_nonneg (hn : 1 ≤ n) (h : ∀ x ∈ xs, 0 ≤ x) : 0 ≤ wilder n xs := by
  have hn' : (1 : ℚ) ≤ n := by exact_mod_cast hn
  have hfold : ∀ (ys : List ℚ) (average : ℚ), (∀ y ∈ ys, 0 ≤ y) → 0 ≤ average →
      0 ≤ ys.foldl (fun (average x : ℚ) => (average * ((n : ℚ) - 1) + x) / (n : ℚ)) average := by
    intro ys
    induction ys with
    | nil => exact fun average _ haverage => haverage
    | cons y rest ih =>
      intro average hys haverage
      rw [List.foldl_cons]
      refine ih _ (fun z hz => hys z (List.mem_cons_of_mem y hz)) ?_
      have hy := hys y List.mem_cons_self
      have hscaled : 0 ≤ average * ((n : ℚ) - 1) := mul_nonneg haverage (by linarith)
      exact div_nonneg (by linarith) (by linarith)
  refine hfold _ _ (fun x hx => h x (List.mem_of_mem_drop hx)) ?_
  exact mean_nonneg fun x hx => h x (List.mem_of_mem_take hx)

/-- Gains and losses change places. -/
theorem rsi_mirror (hn : 1 ≤ n) :
    rsi (values.map fun v => c - v) n = (rsi values n).map fun r => 100 - r := by
  unfold rsi
  rw [List.length_map]
  split
  · rfl
  · have hgains : (deltas (values.map fun v => c - v)).map (fun delta => max delta 0) =
        (deltas values).map fun delta => max (-delta) 0 := by
      rw [deltas_mirror, List.map_map]
      rfl
    have hlosses : (deltas (values.map fun v => c - v)).map (fun delta => max (-delta) 0) =
        (deltas values).map fun delta => max delta 0 := by
      rw [deltas_mirror, List.map_map]
      refine List.map_congr_left fun delta _ => ?_
      simp
    dsimp only
    rw [hgains, hlosses, Option.map_some]
    generalize hgain : wilder n ((deltas values).map fun delta => max delta 0) = gain
    generalize hloss : wilder n ((deltas values).map fun delta => max (-delta) 0) = loss
    have hgain_nonneg : 0 ≤ gain := by
      rw [← hgain]
      refine wilder_nonneg hn fun x hx => ?_
      obtain ⟨delta, _, rfl⟩ := List.mem_map.mp hx
      exact le_max_right _ _
    have hloss_nonneg : 0 ≤ loss := by
      rw [← hloss]
      refine wilder_nonneg hn fun x hx => ?_
      obtain ⟨delta, _, rfl⟩ := List.mem_map.mp hx
      exact le_max_right _ _
    congr 1
    by_cases hzero : gain = 0
    · by_cases hzero' : loss = 0
      · -- no movement at all
        rw [if_pos hzero, if_pos hzero', if_neg (by rw [hzero']; exact lt_irrefl _),
          if_neg (by rw [hzero]; exact lt_irrefl _)]
        norm_num
      · have hpos : 0 < loss := lt_of_le_of_ne hloss_nonneg (Ne.symm hzero')
        rw [if_pos hzero, if_pos hpos, if_neg hzero', if_pos hzero]
        norm_num
    · have hpos : 0 < gain := lt_of_le_of_ne hgain_nonneg (Ne.symm hzero)
      by_cases hzero' : loss = 0
      · rw [if_neg hzero, if_pos hzero', if_pos hzero', if_pos hpos]
        norm_num
      · have hpos' : 0 < loss := lt_of_le_of_ne hloss_nonneg (Ne.symm hzero')
        rw [if_neg hzero, if_neg hzero', if_neg hzero', if_neg hzero]
        have hsum : loss + gain ≠ 0 := (add_pos hpos' hpos).ne'
        have hsum' : gain + loss ≠ 0 := (add_pos hpos hpos').ne'
        field_simp
        ring

theorem macdStream_mirror : macdStream (values.map fun v => c - v) =
    (macdStream values).map fun d => -d := by
  unfold macdStream
  rw [List.length_map, List.map_map]
  refine List.map_congr_left fun i hi => ?_
  obtain ⟨k, hk, rfl⟩ := List.mem_range'.mp hi
  have hne : values.take (26 + 1 * k) ≠ [] := by
    apply List.ne_nil_of_length_pos
    rw [List.length_take]
    omega
  rw [← List.map_take, emaOf_mirror hne (by decide), emaOf_mirror hne (by decide)]
  show _ = -(_ - _)
  ring

theorem macd_mirror : macd (values.map fun v => c - v) =
    (macd values).map fun m => ⟨-m.line, -m.signal, -m.histogram⟩ := by
  unfold macd
  rw [List.length_map]
  split
  · rfl
  · dsimp only
    rw [macdStream_mirror, emaOf_neg, List.getLast?_map, Option.map_some]
    cases (macdStream values).getLast? with
    | none =>
      simp only [Option.map_none, Option.getD_none]
      congr 2
      ring
    | some line =>
      simp only [Option.map_some, Option.getD_some]
      congr 2
      ring

end AlgoBot.Analysis
