import AlgoBot.MarketData.Models

/-!
# Candle history

The stored candles of a market that research reads, and the two readers of
`ResearchDataService` that a backtest uses: the newest candles of a range, and
the last ones before an epoch.

`between_warm_up`: from the first of the last candles before an epoch on, a range
has these and the candles of the range from the epoch on.
-/

namespace AlgoBot.MarketData

open AlgoBot.Core AlgoBot.Python

/-! ## Sorted rows -/

/-- `qs.order_by("-epoch", "-id")[:limit]`, reversed. -/
def newest {α : Type} (limit : ℕ) (rows : List α) : List α := (rows.reverse.take limit).reverse

theorem newest_eq_drop {α : Type} (limit : ℕ) (rows : List α) :
    newest limit rows = rows.drop (rows.length - limit) := by
  rw [newest, List.reverse_take, List.reverse_reverse, List.length_reverse]

theorem newest_of_length_le {α : Type} {limit : ℕ} {rows : List α} (h : rows.length ≤ limit) :
    newest limit rows = rows := by
  rw [newest_eq_drop, Nat.sub_eq_zero_of_le h, List.drop_zero]

theorem length_newest {α : Type} (limit : ℕ) (rows : List α) :
    (newest limit rows).length = min limit rows.length := by
  rw [newest_eq_drop, List.length_drop]
  omega

/-- Rows in the order of their epochs. -/
def Ascending {α : Type} (rows : List (ℤ × α)) : Prop := rows.Pairwise fun a b => a.1 < b.1

/-- Ascending rows are those before an epoch, and then the others. -/
theorem Ascending.split {α : Type} {rows : List (ℤ × α)} (h : Ascending rows) (epoch : ℤ) :
    rows = (rows.filter fun r => r.1 < epoch) ++ rows.filter fun r => epoch ≤ r.1 := by
  induction rows with
  | nil => rfl
  | cons row rows ih =>
    obtain ⟨hrow, hrows⟩ := List.pairwise_cons.mp h
    by_cases hlt : row.1 < epoch
    · have hnot : ¬ epoch ≤ row.1 := by omega
      rw [List.filter_cons_of_pos (by simpa using hlt), List.filter_cons_of_neg (by simpa using hnot),
        List.cons_append, ← ih hrows]
    · -- from here on no row is before the epoch
      have hnone : (row :: rows).filter (fun r => decide (r.1 < epoch)) = [] := by
        rw [List.filter_eq_nil_iff]
        intro r hr
        rcases List.mem_cons.mp hr with rfl | hr
        · simpa using hlt
        · have hlater := hrow r hr
          simp only [decide_eq_true_eq]
          omega
      have hall : (row :: rows).filter (fun r => decide (epoch ≤ r.1)) = row :: rows := by
        rw [List.filter_eq_self]
        intro r hr
        rcases List.mem_cons.mp hr with rfl | hr
        · simpa using hlt
        · have hlater := hrow r hr
          simp only [decide_eq_true_eq]
          omega
      rw [hnone, hall, List.nil_append]

/-- The rows from the first of a suffix on are the suffix. -/
theorem Ascending.filter_from {α : Type} {earlier suffix : List (ℤ × α)} {first : ℤ × α}
    (h : Ascending (earlier ++ first :: suffix)) :
    ((earlier ++ first :: suffix).filter fun r => first.1 ≤ r.1) = first :: suffix := by
  obtain ⟨_, hsuffix, hbefore⟩ := List.pairwise_append.mp h
  obtain ⟨hfirst, _⟩ := List.pairwise_cons.mp hsuffix
  have hnone : (earlier.filter fun r => decide (first.1 ≤ r.1)) = [] := by
    rw [List.filter_eq_nil_iff]
    intro r hr
    have hlt := hbefore r hr first List.mem_cons_self
    simp only [decide_eq_true_eq]
    omega
  have hall : ((first :: suffix).filter fun r => decide (first.1 ≤ r.1)) = first :: suffix := by
    rw [List.filter_eq_self]
    intro r hr
    rcases List.mem_cons.mp hr with rfl | hr
    · simp
    · simpa using (hfirst r hr).le
  rw [List.filter_append, hnone, hall, List.nil_append]

/-! ## The readers -/

/-- The stored candles of a market that research reads, the earliest first. -/
def stored (candles : Candles) (market : ℕ) (timeframe : Timeframe) : List (ℤ × Candle) :=
  ((candles.entries.filter fun row =>
      row.1.market = market && row.1.timeframe = timeframe &&
        broker_sourced timeframe row.2).map fun row => (row.1.epoch, row.2)).insertionSort
    fun a b => a.1 ≤ b.1

/-- Those from one epoch to another. -/
def between (candles : Candles) (market : ℕ) (timeframe : Timeframe) (start_epoch end_epoch : ℤ) :
    List (ℤ × Candle) :=
  (stored candles market timeframe).filter fun row => start_epoch ≤ row.1 && row.1 ≤ end_epoch

/-- Those before an epoch. -/
def before (candles : Candles) (market : ℕ) (timeframe : Timeframe) (epoch : ℤ) :
    List (ℤ × Candle) :=
  (stored candles market timeframe).filter fun row => row.1 < epoch

/-- `ResearchDataService.candles` of a range, at a canonical timeframe; `none` is its
`ValueError`. -/
def range_candles (host : Host) (markets : List MarketSymbol) (candles : Candles) (symbol : String)
    (timeframe : Timeframe) (limit : ℕ) (start_epoch end_epoch : ℤ) :
    Option (List (ℤ × Candle)) :=
  (market host markets symbol).map fun row =>
    newest (min (max limit 1) 10000) (between candles row.pk timeframe start_epoch end_epoch)

/-- `ResearchDataService.previous_candles`. -/
def previous_candles (host : Host) (markets : List MarketSymbol) (candles : Candles)
    (symbol : String) (timeframe : Timeframe) (before_epoch : ℤ) (limit : ℕ) :
    Option (List (ℤ × Candle)) :=
  (market host markets symbol).map fun row =>
    newest (min (max limit 1) 10000) (before candles row.pk timeframe before_epoch)

section Readers

variable {candles : Candles} {pk : ℕ} {timeframe : Timeframe} {epoch : ℤ}

theorem ascending_stored : Ascending (stored candles pk timeframe) := by
  refine @pairwise_rows candles pk timeframe _ (fun row hrow => ?_)
  simp only [Bool.and_eq_true, decide_eq_true_eq] at hrow
  exact hrow.1

/-- From the first of the last candles before an epoch on, a range has these, and the candles of
the range from the epoch on. -/
theorem between_warm_up {limit : ℕ} {first : ℤ × Candle} {rest : List (ℤ × Candle)}
    {end_epoch : ℤ} (hwarm : newest limit (before candles pk timeframe epoch) = first :: rest) :
    between candles pk timeframe first.1 end_epoch =
      ((first :: rest).filter fun row => row.1 ≤ end_epoch) ++
        between candles pk timeframe epoch end_epoch := by
  let rows := stored candles pk timeframe
  let earlier := before candles pk timeframe epoch
  have hrows : Ascending rows := ascending_stored
  have hsplit : rows = earlier ++ rows.filter fun r => epoch ≤ r.1 := hrows.split epoch
  have hearlier : Ascending earlier := hrows.filter _
  have hsuffix : earlier = earlier.take (earlier.length - limit) ++ first :: rest := by
    rw [← hwarm, newest_eq_drop, List.take_append_drop]
  -- what is before the epoch and not before the first row is the suffix
  have hfrom : (earlier.filter fun r => decide (first.1 ≤ r.1)) = first :: rest := by
    rw [hsuffix] at hearlier ⊢
    exact hearlier.filter_from
  have hfirst : first.1 < epoch := by
    have hmem : first ∈ earlier := by
      rw [hsuffix]
      simp
    simpa using (List.mem_filter.mp hmem).2
  have hlater : ((rows.filter fun r => decide (epoch ≤ r.1)).filter fun r =>
      decide (first.1 ≤ r.1) && decide (r.1 ≤ end_epoch)) =
        between candles pk timeframe epoch end_epoch := by
    rw [List.filter_filter]
    apply List.filter_congr
    intro r _
    by_cases hr : epoch ≤ r.1
    · have hle : first.1 ≤ r.1 := by omega
      simp [hr, hle]
    · simp [hr]
  calc between candles pk timeframe first.1 end_epoch
      = (earlier ++ rows.filter fun r => decide (epoch ≤ r.1)).filter fun r =>
          decide (first.1 ≤ r.1) && decide (r.1 ≤ end_epoch) := by rw [← hsplit]; rfl
    _ = (earlier.filter fun r => decide (first.1 ≤ r.1) && decide (r.1 ≤ end_epoch)) ++
          between candles pk timeframe epoch end_epoch := by rw [List.filter_append, hlater]
    _ = ((first :: rest).filter fun row => row.1 ≤ end_epoch) ++
          between candles pk timeframe epoch end_epoch := by
        rw [← hfrom, List.filter_filter]
        simp only [Bool.and_comm]

end Readers

end AlgoBot.MarketData
