import AlgoBot.Backtesting.Window
import AlgoBot.Core.Rounding

/-!
# The research score

`_strategy_confidence` reads a hit rate as a fraction if it is at most one, and as
a percentage otherwise. `_window_result` produces a percentage.

* `score_monotone_iff`: the score is monotone in the number of winning trades
  exactly for runs of fewer than a hundred trades.
* `score_drops`: a run with one winning trade of a hundred scores higher than one
  with two.
-/

namespace AlgoBot.Backtesting

open AlgoBot.Core AlgoBot.Python AlgoBot.MarketData

/-! ## `_strategy_confidence` -/

/-- The hit rate as a fraction. -/
def hitFraction (win_rate : ℚ) : ℚ := if 1 < win_rate then win_rate / 100 else win_rate

/-- `min(1.0, max(0.0, x))`. -/
def unit (x : ℚ) : ℚ := min 1 (max 0 x)

/-- `round(x, 2)`. -/
def round2 (x : ℚ) : ℚ := Double.roundEven (x * 100) / 100

/-- What a result gives to the score besides its hit rate. -/
def otherScore (result : WindowResult) : ℚ :=
  let pf := result.profit_factor.getD 0
  let sharpe := result.sharpe_ratio.getD 0
  let drawdown := |result.max_drawdown.getD 0|
  let sample_score := min 1 ((result.total_trades : ℚ) / 100)
  let pf_score := if result.profit_factor_unbounded then 1 else unit (pf / 2)
  let sharpe_score := unit ((sharpe + 1) / 3)
  let dd_score := 1 / (1 + drawdown / 100)
  25 / 100 * pf_score + 15 / 100 * sharpe_score + 15 / 100 * dd_score + 10 / 100 * sample_score

/-- `_strategy_confidence`, in exact numbers. -/
def strategyConfidence (result : WindowResult) : ℚ :=
  let score := 100 * (35 / 100 * hitFraction result.win_rate + otherScore result)
  round2 (max 0 (min 100 score))

/-! ## Rounding -/

theorem round2_mono {x y : ℚ} (h : x ≤ y) : round2 x ≤ round2 y := by
  unfold round2
  have hround : Double.roundEven (x * 100) ≤ Double.roundEven (y * 100) :=
    Double.roundEven_mono (by linarith)
  have hcast : (Double.roundEven (x * 100) : ℚ) ≤ Double.roundEven (y * 100) := by
    exact_mod_cast hround
  linarith

theorem round2_lt {x y : ℚ} (h : x + 1 / 50 < y) : round2 x < round2 y := by
  unfold round2
  have hx := (Double.roundEven_bounds (x * 100)).1
  have hy := (Double.roundEven_bounds (y * 100)).2
  linarith

/-! ## Winning trades -/

section Runs

variable {result result' : List Trade} {start_epoch end_epoch : ℤ} {n w w' : ℕ}

/-- A run whose window has so many trades, and so many winning ones. -/
structure Scored (start_epoch end_epoch : ℤ) (n w : ℕ) (result : List Trade) : Prop where
  trades : (windowResult result start_epoch end_epoch).total_trades = n
  wins : (windowResult result start_epoch end_epoch).wins = w

/-- What the trades besides the winning ones give, in a hundred. -/
def base (n : ℕ) : ℚ := 5 + 15 + 10 * min 1 ((n : ℚ) / 100)

theorem Scored.score_eq (h : Scored start_epoch end_epoch n w result) :
    strategyConfidence (windowResult result start_epoch end_epoch) =
      round2 (max 0 (min 100 (35 * hitFraction (rateOf w n) + base n))) := by
  have htrades := h.trades
  have hwins := h.wins
  have hrate : (windowResult result start_epoch end_epoch).win_rate = rateOf w n := by
    rw [← htrades, ← hwins]
    rfl
  have hother : 100 * otherScore (windowResult result start_epoch end_epoch) = base n := by
    rw [otherScore, htrades, base]
    simp only [windowResult, Option.getD_none, unit]
    norm_num
    ring
  rw [strategyConfidence, hrate, ← hother]
  congr 3
  ring

/-- A rate of fewer than a hundred trades is nothing or more than one per cent. -/
theorem hitFraction_of_lt (hn : n < 100) : hitFraction (rateOf w n) = w / n := by
  unfold hitFraction rateOf
  by_cases hzero : n = 0
  · simp [hzero]
  · have hpos : (0 : ℚ) < n := by exact_mod_cast Nat.pos_of_ne_zero hzero
    rw [if_neg hzero]
    by_cases hw : w = 0
    · simp [hw]
    · have hone : (1 : ℚ) ≤ w := by exact_mod_cast Nat.one_le_iff_ne_zero.mpr hw
      have hlt : (n : ℚ) < 100 := by exact_mod_cast hn
      have hmore : 1 < (w : ℚ) / n * 100 := by
        rw [div_mul_eq_mul_div, lt_div_iff₀ hpos]
        linarith
      rw [if_pos hmore]
      ring

/-- The two sides of one per cent: the lower rate is read as a fraction. -/
theorem hitFraction_drops (hn : 100 ≤ n) :
    hitFraction (rateOf (n / 100 + 1) n) + 1 / 3 < hitFraction (rateOf (n / 100) n) ∧
      hitFraction (rateOf (n / 100) n) ≤ 1 ∧ 0 ≤ hitFraction (rateOf (n / 100 + 1) n) := by
  obtain ⟨w, hw⟩ : ∃ w, w = n / 100 := ⟨_, rfl⟩
  rw [← hw]
  have hone : (1 : ℚ) ≤ w := by exact_mod_cast (by omega : 1 ≤ w)
  have hlow : 100 * (w : ℚ) ≤ n := by exact_mod_cast (by omega : 100 * w ≤ n)
  have hhigh : (n : ℚ) < 100 * (w + 1) := by exact_mod_cast (by omega : n < 100 * (w + 1))
  have hpos : (0 : ℚ) < n := by linarith
  have hzero : n ≠ 0 := by omega
  -- a hundredth of the trades is a rate of one percent at most, which is read as a fraction
  have hsmall : ¬ 1 < (w : ℚ) / n * 100 := by
    rw [not_lt, div_mul_eq_mul_div, div_le_one hpos]
    linarith
  have hmore : 1 < ((w + 1 : ℕ) : ℚ) / n * 100 := by
    push_cast
    rw [div_mul_eq_mul_div, lt_div_iff₀ hpos]
    linarith
  have hfirst : hitFraction (rateOf w n) = w * 100 / n := by
    rw [hitFraction, rateOf, if_neg hzero, if_neg hsmall]
    ring
  have hsecond : hitFraction (rateOf (w + 1) n) = (w + 1) / n := by
    rw [hitFraction, rateOf, if_neg hzero, if_pos hmore]
    push_cast
    ring
  rw [hfirst, hsecond]
  refine ⟨?_, ?_, ?_⟩
  · rw [div_add' _ _ _ hpos.ne', div_lt_div_iff_of_pos_right hpos]
    linarith
  · rw [div_le_one hpos]
    linarith
  · positivity

/-- The trades of a window, the first ones winning. -/
def windowTrades (start_epoch end_epoch : ℤ) (n w : ℕ) : List Trade :=
  (List.range n).map fun i =>
    ⟨i, "BUY", .fin 1, .fin 1, if i < w then 1 else -1, start_epoch, end_epoch⟩

theorem scored_windowTrades (hw : w ≤ n) :
    Scored start_epoch end_epoch n w (windowTrades start_epoch end_epoch n w) := by
  have hall : ((windowTrades start_epoch end_epoch n w).filter fun trade =>
      start_epoch ≤ trade.entry_epoch && trade.exit_epoch ≤ end_epoch) =
        windowTrades start_epoch end_epoch n w := by
    rw [List.filter_eq_self]
    intro trade htrade
    obtain ⟨i, _, rfl⟩ := List.mem_map.mp htrade
    simp
  have hwins : (windowTrades start_epoch end_epoch n w).countP (fun trade => 0 < trade.profit) =
      w := by
    rw [windowTrades, List.countP_map]
    have hbelow : ((fun trade : Trade => decide (0 < trade.profit)) ∘ fun i : ℕ =>
        (⟨i, "BUY", .fin 1, .fin 1, if i < w then 1 else -1, start_epoch, end_epoch⟩ : Trade)) =
          fun i => decide (i < w) := by
      funext i
      by_cases hi : i < w
      · simp [hi]
      · simp [hi]
    have hall : (List.range w).countP (fun i => decide (i < w)) = w := by
      rw [List.countP_eq_length.mpr fun i hi => by simpa using hi, List.length_range]
    have hnone : (List.range' w (n - w)).countP (fun i => decide (i < w)) = 0 := by
      rw [List.countP_eq_zero]
      intro i hi
      simpa using (List.mem_range'_1.mp hi).1
    rw [hbelow, range_split hw, List.countP_append, hall, hnone, Nat.add_zero]
  constructor
  · simp only [windowResult, hall]
    simp [windowTrades]
  · simp only [windowResult, hall]
    exact hwins

/-- More winning trades never score less exactly if there are fewer than a hundred trades. -/
theorem score_monotone_iff (start_epoch end_epoch : ℤ) (n : ℕ) :
    (∀ w w', w ≤ w' → w' ≤ n → ∀ result result', Scored start_epoch end_epoch n w result →
        Scored start_epoch end_epoch n w' result' →
          strategyConfidence (windowResult result start_epoch end_epoch) ≤
            strategyConfidence (windowResult result' start_epoch end_epoch)) ↔ n < 100 := by
  constructor
  · intro hmono
    by_contra hmany
    have hn : 100 ≤ n := not_lt.mp hmany
    have hfits : n / 100 + 1 ≤ n := by omega
    have hless : Scored start_epoch end_epoch n (n / 100) _ :=
      scored_windowTrades (Nat.le_of_succ_le hfits)
    have hmore : Scored start_epoch end_epoch n (n / 100 + 1) _ := scored_windowTrades hfits
    have hle := hmono _ _ (Nat.le_succ _) hfits _ _ hless hmore
    rw [hless.score_eq, hmore.score_eq] at hle
    obtain ⟨hdrop, hone, hnonneg⟩ := hitFraction_drops hn
    have hbase : 0 ≤ base n ∧ base n ≤ 30 := by
      unfold base
      have hcap : min 1 ((n : ℚ) / 100) ≤ 1 := min_le_left _ _
      have hpos : 0 ≤ min 1 ((n : ℚ) / 100) := le_min (by norm_num) (by positivity)
      constructor <;> linarith
    have hlt : round2 (35 * hitFraction (rateOf (n / 100 + 1) n) + base n) <
        round2 (35 * hitFraction (rateOf (n / 100) n) + base n) := round2_lt (by linarith)
    rw [min_eq_right (by linarith), max_eq_right (by linarith), min_eq_right (by linarith),
      max_eq_right (by linarith)] at hle
    exact absurd hle (not_le.mpr hlt)
  · intro hn w w' hw hw' result result' hscored hscored'
    rw [hscored.score_eq, hscored'.score_eq, hitFraction_of_lt hn, hitFraction_of_lt hn]
    apply round2_mono
    have hcast : (w : ℚ) ≤ w' := by exact_mod_cast hw
    have hfraction : (w : ℚ) / n ≤ w' / n := div_le_div_of_nonneg_right hcast (by positivity)
    gcongr

end Runs

/-! ## One per cent -/

/-- One winning trade of a hundred scores higher than two. -/
theorem score_drops :
    Scored 0 60 100 1 (windowTrades 0 60 100 1) ∧ Scored 0 60 100 2 (windowTrades 0 60 100 2) ∧
      strategyConfidence (windowResult (windowTrades 0 60 100 2) 0 60) <
        strategyConfidence (windowResult (windowTrades 0 60 100 1) 0 60) := by
  refine ⟨scored_windowTrades (by decide), scored_windowTrades (by decide), ?_⟩
  decide +kernel

end AlgoBot.Backtesting
