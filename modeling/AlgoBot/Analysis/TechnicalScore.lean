import AlgoBot.Analysis.Indicators

/-!
# The technical score

`analyze_candles` starts at 50 and adds or takes points for averages, RSI, MACD, market
structure, candlestick patterns and sweeps. Mirrored prices should mirror the score. Most
comparisons send equality to the side of the bears, and a sweep of both sides counts for the
bulls in either market.

* `score_add_mirror`: what the two scores add up to before they are limited.
* `score_unbiased_iff`: the score is mirrored exactly if none of these comparisons is between
  equal numbers and not both sides have been swept.
* `flat_market`: candles without any movement.
-/

namespace AlgoBot.Analysis

/-! ## Candles -/

/-- A row of `_ohlc`. -/
structure Ohlc where
  opening : ℚ
  high : ℚ
  low : ℚ
  close : ℚ
  deriving DecidableEq

/-- The candle at the prices `c - p`. -/
def Ohlc.mirror (c : ℚ) (row : Ohlc) : Ohlc :=
  ⟨c - row.opening, c - row.low, c - row.high, c - row.close⟩

/-! ## Swings -/

structure Swing where
  index : ℕ
  price : ℚ
  deriving DecidableEq

/-- `rows[i - strength : i + strength + 1]`. -/
def around (rows : List Ohlc) (strength i : ℕ) : List Ohlc :=
  (rows.drop (i - strength)).take (2 * strength + 1)

/-- The indices with enough rows on both sides. -/
def inner (rows : List Ohlc) (strength : ℕ) : List ℕ :=
  List.range' strength (rows.length - 2 * strength)

/-- The highs of `_swing_points`. -/
def swingHighs (rows : List Ohlc) (strength : ℕ) : List Swing :=
  (inner rows strength).filterMap fun i =>
    rows[i]?.bind fun row =>
      if ((around rows strength i).map Ohlc.high).max? = some row.high then some ⟨i, row.high⟩
      else none

/-- Its lows. -/
def swingLows (rows : List Ohlc) (strength : ℕ) : List Swing :=
  (inner rows strength).filterMap fun i =>
    rows[i]?.bind fun row =>
      if ((around rows strength i).map Ohlc.low).min? = some row.low then some ⟨i, row.low⟩
      else none

/-- The last two of a list. -/
def lastTwo (swings : List Swing) : Option (ℚ × ℚ) :=
  match swings.reverse with
  | last :: previous :: _ => some (previous.price, last.price)
  | _ => none

inductive Trend
  | bullish
  | bearish
  | mixed
  | range
  deriving DecidableEq

/-- `market_structure`, its trend. -/
def market_structure (rows : List Ohlc) : Trend :=
  match lastTwo (swingHighs rows 3), lastTwo (swingLows rows 3) with
  | some (high, high'), some (low, low') =>
    if high < high' ∧ low < low' then .bullish
    else if ¬ high < high' ∧ ¬ low < low' then .bearish
    else .mixed
  | none, none => .range
  | _, _ => .mixed

/-! ## Sweeps -/

inductive SweepKind
  | buy_side_sweep
  | sell_side_sweep
  deriving DecidableEq

structure Sweep where
  kind : SweepKind
  index : ℕ
  level : ℚ
  deriving DecidableEq

/-- The first of the eleven rows after a swing that satisfies the test. -/
def sweptAt (rows : List Ohlc) (test : Ohlc → Bool) (p : Swing) : Option ℕ :=
  (List.range' (p.index + 1) (min rows.length (p.index + 12) - (p.index + 1))).find? fun i =>
    rows[i]?.any test

def buySide (p : Swing) (row : Ohlc) : Bool := p.price < row.high && row.close < p.price

def sellSide (p : Swing) (row : Ohlc) : Bool := row.low < p.price && p.price < row.close

def buySweeps (rows : List Ohlc) : List Sweep :=
  (lastN 8 (swingHighs rows 3)).filterMap fun p =>
    (sweptAt rows (buySide p) p).map fun i => ⟨.buy_side_sweep, i, p.price⟩

def sellSweeps (rows : List Ohlc) : List Sweep :=
  (lastN 8 (swingLows rows 3)).filterMap fun p =>
    (sweptAt rows (sellSide p) p).map fun i => ⟨.sell_side_sweep, i, p.price⟩

def liquidity_sweeps (rows : List Ohlc) : List Sweep := lastN 12 (buySweeps rows ++ sellSweeps rows)

/-! ## Patterns -/

inductive Pattern
  | doji
  | hammer
  | shooting_star
  | bullish_engulfing
  | bearish_engulfing
  deriving DecidableEq

/-- Points for the bias of a pattern. -/
def Pattern.points : Pattern → ℤ
  | doji => 0
  | hammer => 4
  | shooting_star => -4
  | bullish_engulfing => 4
  | bearish_engulfing => -4

/-- The shape of a candle. -/
def shape (row : Ohlc) : List Pattern :=
  let body := |row.close - row.opening|
  let upper := row.high - max row.opening row.close
  let lower := min row.opening row.close - row.low
  let rng := max (row.high - row.low) (1 / 10 ^ 12)
  if body / rng < 1 / 10 then [.doji]
  else if body * 2 < lower ∧ upper < body then [.hammer]
  else if body * 2 < upper ∧ lower < body then [.shooting_star]
  else []

/-- What a candle does to the one before it. -/
def engulfing (p row : Ohlc) : List Pattern :=
  if p.close < p.opening ∧ row.opening < row.close ∧ p.opening ≤ row.close ∧
      row.opening ≤ p.close then [.bullish_engulfing]
  else if p.opening < p.close ∧ row.close < row.opening ∧ p.close ≤ row.opening ∧
      row.close ≤ p.opening then [.bearish_engulfing]
  else []

def patternsAt (rows : List Ohlc) (i : ℕ) : List Pattern :=
  match rows[i]? with
  | none => []
  | some row =>
    shape row ++
      if 0 < i then
        match rows[i - 1]? with
        | none => []
        | some p => engulfing p row
      else []

def candlestick_patterns (rows : List Ohlc) : List Pattern :=
  lastN 20 ((List.range' (rows.length - 30) (min rows.length 30)).flatMap (patternsAt rows))

/-! ## The score -/

/-- So many points above, and the same below or at it. -/
def above (points : ℤ) (x y : ℚ) : ℤ := if y < x then points else -points

def emaPoints (closes : List ℚ) : ℤ :=
  match ema closes 9, ema closes 21 with
  | some e9, some e21 => above 10 e9 e21
  | _, _ => 0

def smaPoints (closes : List ℚ) (price : ℚ) (n : ℕ) : ℤ :=
  match sma closes n with
  | some s => above 8 price s
  | none => 0

def rsiPoints (closes : List ℚ) : ℤ :=
  match rsi closes 14 with
  | some r => if r < 30 then 8 else if 70 < r then -8 else 0
  | none => 0

def macdPoints (closes : List ℚ) : ℤ :=
  match macd closes with
  | some m => above 7 m.histogram 0
  | none => 0

def structurePoints (rows : List Ohlc) : ℤ :=
  match market_structure rows with
  | .bullish => 7
  | .bearish => -7
  | .mixed => 0
  | .range => 0

def patternPoints (rows : List Ohlc) : ℤ :=
  match (candlestick_patterns rows).getLast? with
  | some pattern => pattern.points
  | none => 0

def sweepPoints (rows : List Ohlc) : ℤ :=
  match (liquidity_sweeps rows).getLast? with
  | some sweep => if sweep.kind = .sell_side_sweep then 4 else -4
  | none => 0

/-- The score before it is limited. -/
def rawScore (rows : List Ohlc) (price : ℚ) : ℤ :=
  let closes := rows.map Ohlc.close
  50 + emaPoints closes + smaPoints closes price 50 + smaPoints closes price 200 +
    rsiPoints closes + macdPoints closes + structurePoints rows + patternPoints rows +
    sweepPoints rows

/-- `technical_score` of `analyze_candles`, a whole number; there is none without candles. -/
def technical_score (rows : List Ohlc) : Option ℤ :=
  (rows.map Ohlc.close).getLast?.map fun price => max 0 (min 100 (rawScore rows price))

/-! ## Mirrored candles -/

variable {rows : List Ohlc} {c : ℚ} {strength : ℕ}

def Swing.mirror (c : ℚ) (p : Swing) : Swing := ⟨p.index, c - p.price⟩

theorem closes_mirror : (rows.map (Ohlc.mirror c)).map Ohlc.close =
    (rows.map Ohlc.close).map fun v => c - v := by
  rw [List.map_map, List.map_map]
  rfl

theorem max?_mirror (values : List ℚ) :
    (values.map fun v => c - v).max? = values.min?.map fun v => c - v := by
  cases values with
  | nil => rfl
  | cons v rest =>
    rw [List.map_cons, List.max?_cons', List.min?_cons', Option.map_some]
    congr 1
    induction rest generalizing v with
    | nil => rfl
    | cons w rest ih => rw [List.map_cons, List.foldl_cons, List.foldl_cons, max_sub_sub_left, ih]

/-- Mirrored twice, the values are themselves. -/
theorem min?_mirror (values : List ℚ) :
    (values.map fun v => c - v).min? = values.max?.map fun v => c - v := by
  have hmax : (values.map fun v => c - v).map (fun v => c - v) = values := by
    simp
  have htwice := @max?_mirror c (values.map fun v => c - v)
  rw [hmax] at htwice
  rw [htwice, Option.map_map]
  simp

theorem around_map (f : Ohlc → Ohlc) (i : ℕ) :
    around (rows.map f) strength i = (around rows strength i).map f := by
  rw [around, around, List.map_take, List.map_drop]

theorem inner_map (f : Ohlc → Ohlc) : inner (rows.map f) strength = inner rows strength := by
  rw [inner, inner, List.length_map]

/-- A price is found in a mirrored list exactly where it is found in the list. -/
theorem map_sub_eq_some {found : Option ℚ} {price : ℚ} :
    (found.map fun v => c - v) = some (c - price) ↔ found = some price := by
  constructor
  · intro h
    obtain ⟨v, hv, hsame⟩ := Option.map_eq_some_iff.mp h
    rw [hv, sub_right_injective hsame]
  · intro h
    rw [h, Option.map_some]

/-- Swings of one price are those of the mirrored price in mirrored candles. -/
theorem swings_mirror {best best' : List ℚ → Option ℚ} {price price' : Ohlc → ℚ}
    (hbest : ∀ values, best' (values.map fun v => c - v) = (best values).map fun v => c - v)
    (hprice : ∀ row : Ohlc, price' (row.mirror c) = c - price row) :
    ((inner (rows.map (Ohlc.mirror c)) strength).filterMap fun i =>
        (rows.map (Ohlc.mirror c))[i]?.bind fun row =>
          if best' ((around (rows.map (Ohlc.mirror c)) strength i).map price') = some (price' row)
          then some (⟨i, price' row⟩ : Swing) else none) =
      ((inner rows strength).filterMap fun i =>
        rows[i]?.bind fun row =>
          if best ((around rows strength i).map price) = some (price row)
          then some ⟨i, price row⟩ else none).map (Swing.mirror c) := by
  rw [inner_map, List.map_filterMap]
  refine List.filterMap_congr fun i _ => ?_
  rw [List.getElem?_map]
  cases rows[i]? with
  | none => rfl
  | some row =>
    have hwindow : best' ((around (rows.map (Ohlc.mirror c)) strength i).map price') =
        (best ((around rows strength i).map price)).map fun v => c - v := by
      rw [around_map, ← hbest, List.map_map, List.map_map]
      exact congrArg best' (List.map_congr_left fun row _ => hprice row)
    simp only [Option.map_some, Option.bind_some]
    rw [hwindow, hprice]
    simp only [map_sub_eq_some]
    split
    · rfl
    · rfl

/-- The highs of mirrored candles are the lows. -/
theorem swingHighs_mirror : swingHighs (rows.map (Ohlc.mirror c)) strength =
    (swingLows rows strength).map (Swing.mirror c) :=
  swings_mirror max?_mirror fun _ => rfl

theorem swingLows_mirror : swingLows (rows.map (Ohlc.mirror c)) strength =
    (swingHighs rows strength).map (Swing.mirror c) :=
  swings_mirror min?_mirror fun _ => rfl

theorem lastTwo_mirror (swings : List Swing) : lastTwo (swings.map (Swing.mirror c)) =
    (lastTwo swings).map fun (previous, last) => (c - previous, c - last) := by
  unfold lastTwo
  rw [← List.map_reverse]
  match swings.reverse with
  | [] => rfl
  | [_] => rfl
  | last :: previous :: rest => rfl

/-! ### Sweeps -/

theorem sweptAt_mirror {test test' : Ohlc → Bool} {p : Swing}
    (htest : ∀ row, test' (row.mirror c) = test row) :
    sweptAt (rows.map (Ohlc.mirror c)) test' (p.mirror c) = sweptAt rows test p := by
  unfold sweptAt
  rw [List.length_map]
  show List.find? _ (List.range' (p.index + 1) _) = _
  congr 1
  funext i
  rw [List.getElem?_map]
  cases rows[i]? with
  | none => rfl
  | some row => exact htest row

def Sweep.mirror (c : ℚ) (sweep : Sweep) : Sweep :=
  ⟨if sweep.kind = .buy_side_sweep then .sell_side_sweep else .buy_side_sweep, sweep.index,
    c - sweep.level⟩

/-- Sweeps of the mirrored swings by mirrored candles. -/
theorem sweeps_mirror {test test' : Swing → Ohlc → Bool} {kind kind' : SweepKind}
    (swings : List Swing)
    (htest : ∀ (p : Swing) (row : Ohlc), test' (p.mirror c) (row.mirror c) = test p row)
    (hkind : ∀ i level, Sweep.mirror c ⟨kind, i, level⟩ = ⟨kind', i, c - level⟩) :
    ((lastN 8 (swings.map (Swing.mirror c))).filterMap fun p =>
        (sweptAt (rows.map (Ohlc.mirror c)) (test' p) p).map fun i =>
          (⟨kind', i, p.price⟩ : Sweep)) =
      ((lastN 8 swings).filterMap fun p =>
        (sweptAt rows (test p) p).map fun i => ⟨kind, i, p.price⟩).map (Sweep.mirror c) := by
  rw [lastN_map, List.filterMap_map, List.map_filterMap]
  refine List.filterMap_congr fun p _ => ?_
  rw [Function.comp_apply, sweptAt_mirror (htest p), Option.map_map]
  refine congrArg (fun f => (sweptAt rows (test p) p).map f) (funext fun i => ?_)
  exact (hkind i p.price).symm

theorem buySweeps_mirror :
    buySweeps (rows.map (Ohlc.mirror c)) = (sellSweeps rows).map (Sweep.mirror c) := by
  unfold buySweeps sellSweeps
  rw [swingHighs_mirror]
  refine sweeps_mirror _ (fun p row => ?_) fun _ _ => rfl
  simp [buySide, sellSide, Swing.mirror, Ohlc.mirror]

theorem sellSweeps_mirror :
    sellSweeps (rows.map (Ohlc.mirror c)) = (buySweeps rows).map (Sweep.mirror c) := by
  unfold buySweeps sellSweeps
  rw [swingLows_mirror]
  refine sweeps_mirror _ (fun p row => ?_) fun _ _ => rfl
  simp [buySide, sellSide, Swing.mirror, Ohlc.mirror]

/-- The last of the last few. -/
theorem getLast?_lastN {α : Type} {n : ℕ} (hn : 0 < n) (xs : List α) :
    (lastN n xs).getLast? = xs.getLast? := by
  rw [lastN, List.getLast?_drop]
  split
  · next hlength =>
    have hempty : xs = [] := List.length_eq_zero_iff.mp (by omega)
    rw [hempty, List.getLast?_nil]
  · rfl

/-- A sweep of the sell side is the last one whenever there is one. -/
theorem sweepPoints_eq : sweepPoints rows =
    if sellSweeps rows ≠ [] then 4 else if buySweeps rows ≠ [] then -4 else 0 := by
  have hsell : ∀ sweep ∈ sellSweeps rows, sweep.kind = .sell_side_sweep := by
    intro sweep hsweep
    obtain ⟨p, _, hp⟩ := List.mem_filterMap.mp hsweep
    obtain ⟨i, _, rfl⟩ := Option.map_eq_some_iff.mp hp
    rfl
  have hbuy : ∀ sweep ∈ buySweeps rows, sweep.kind = .buy_side_sweep := by
    intro sweep hsweep
    obtain ⟨p, _, hp⟩ := List.mem_filterMap.mp hsweep
    obtain ⟨i, _, rfl⟩ := Option.map_eq_some_iff.mp hp
    rfl
  have hlastN : (liquidity_sweeps rows).getLast? =
      (sellSweeps rows).getLast?.or (buySweeps rows).getLast? := by
    unfold liquidity_sweeps
    rw [getLast?_lastN (by decide), List.getLast?_append]
  unfold sweepPoints
  rw [hlastN]
  cases hlast : (sellSweeps rows).getLast? with
  | some sweep =>
    have hmem := List.mem_of_getLast? hlast
    rw [if_pos (List.ne_nil_of_mem hmem), Option.some_or]
    dsimp only
    rw [if_pos (hsell sweep hmem)]
  | none =>
    rw [if_neg (not_not.mpr (List.getLast?_eq_none_iff.mp hlast)), Option.none_or]
    cases hlast' : (buySweeps rows).getLast? with
    | some sweep =>
      have hmem := List.mem_of_getLast? hlast'
      rw [if_pos (List.ne_nil_of_mem hmem)]
      have hkind : sweep.kind ≠ .sell_side_sweep := by
        rw [hbuy sweep hmem]
        nofun
      dsimp only
      rw [if_neg hkind]
    | none => rw [if_neg (not_not.mpr (List.getLast?_eq_none_iff.mp hlast'))]

theorem sweepPoints_mirror : sweepPoints (rows.map (Ohlc.mirror c)) =
    if buySweeps rows ≠ [] then 4 else if sellSweeps rows ≠ [] then -4 else 0 := by
  rw [sweepPoints_eq, buySweeps_mirror, sellSweeps_mirror]
  simp only [ne_eq, List.map_eq_nil_iff]

/-! ### Patterns -/

def Pattern.mirror : Pattern → Pattern
  | doji => doji
  | hammer => shooting_star
  | shooting_star => hammer
  | bullish_engulfing => bearish_engulfing
  | bearish_engulfing => bullish_engulfing

theorem shape_mirror (row : Ohlc) : shape (row.mirror c) = (shape row).map Pattern.mirror := by
  have hbody : |(c - row.close) - (c - row.opening)| = |row.close - row.opening| := by
    rw [sub_sub_sub_cancel_left, abs_sub_comm]
  have hupper : (c - row.low) - max (c - row.opening) (c - row.close) =
      min row.opening row.close - row.low := by
    rw [max_sub_sub_left]
    ring
  have hlower : min (c - row.opening) (c - row.close) - (c - row.high) =
      row.high - max row.opening row.close := by
    rw [min_sub_sub_left]
    ring
  have hrng : (c - row.low) - (c - row.high) = row.high - row.low := by ring
  have hnonneg : 0 ≤ |row.close - row.opening| := abs_nonneg _
  unfold shape Ohlc.mirror
  dsimp only
  rw [hbody, hupper, hlower, hrng]
  generalize |row.close - row.opening| = body at hnonneg ⊢
  generalize row.high - max row.opening row.close = upper
  generalize min row.opening row.close - row.low = lower
  by_cases hdoji : body / max (row.high - row.low) (1 / 10 ^ 12) < 1 / 10
  · rw [if_pos hdoji, if_pos hdoji]
    rfl
  · rw [if_neg hdoji, if_neg hdoji]
    by_cases hhammer : body * 2 < lower ∧ upper < body
    · -- a long lower wick is not a short one
      have hstar : ¬ (body * 2 < upper ∧ lower < body) := by
        rintro ⟨_, hshort⟩
        linarith [hhammer.1]
      rw [if_pos hhammer, if_pos hhammer, if_neg hstar]
      rfl
    · rw [if_neg hhammer, if_neg hhammer]
      split
      · rfl
      · rfl

theorem engulfing_mirror (p row : Ohlc) :
    engulfing (p.mirror c) (row.mirror c) = (engulfing p row).map Pattern.mirror := by
  unfold engulfing Ohlc.mirror
  simp only [sub_lt_sub_iff_left, sub_le_sub_iff_left]
  by_cases hbull : p.close < p.opening ∧ row.opening < row.close ∧ p.opening ≤ row.close ∧
      row.opening ≤ p.close
  · have hbear : ¬ (p.opening < p.close ∧ row.close < row.opening ∧ row.close ≤ p.opening ∧
        p.close ≤ row.opening) := fun h => lt_asymm h.1 hbull.1
    rw [if_neg hbear, if_pos hbull, if_pos ⟨hbull.1, hbull.2.1, hbull.2.2.2, hbull.2.2.1⟩]
    rfl
  · have hbull' : ¬ (p.close < p.opening ∧ row.opening < row.close ∧ row.opening ≤ p.close ∧
        p.opening ≤ row.close) := fun h => hbull ⟨h.1, h.2.1, h.2.2.2, h.2.2.1⟩
    rw [if_neg hbull, if_neg hbull']
    by_cases hbear : p.opening < p.close ∧ row.close < row.opening ∧ p.close ≤ row.opening ∧
        row.close ≤ p.opening
    · rw [if_pos hbear, if_pos ⟨hbear.1, hbear.2.1, hbear.2.2.2, hbear.2.2.1⟩]
      rfl
    · rw [if_neg hbear, if_neg fun h => hbear ⟨h.1, h.2.1, h.2.2.2, h.2.2.1⟩]
      rfl

theorem patternsAt_mirror (i : ℕ) : patternsAt (rows.map (Ohlc.mirror c)) i =
    (patternsAt rows i).map Pattern.mirror := by
  unfold patternsAt
  rw [List.getElem?_map, List.getElem?_map]
  cases rows[i]? with
  | none => rfl
  | some row =>
    dsimp only [Option.map_some]
    rw [shape_mirror, List.map_append]
    split
    · cases rows[i - 1]? with
      | none => rfl
      | some p => exact congrArg _ (engulfing_mirror p row)
    · rfl

theorem candlestick_patterns_mirror : candlestick_patterns (rows.map (Ohlc.mirror c)) =
    (candlestick_patterns rows).map Pattern.mirror := by
  unfold candlestick_patterns
  rw [List.length_map, ← lastN_map, List.map_flatMap]
  congr 2
  funext i
  exact patternsAt_mirror i

theorem patternPoints_mirror :
    patternPoints (rows.map (Ohlc.mirror c)) = -patternPoints rows := by
  unfold patternPoints
  rw [candlestick_patterns_mirror, List.getLast?_map]
  cases (candlestick_patterns rows).getLast? with
  | none => rfl
  | some pattern => cases pattern <;> rfl

/-! ## Ties -/

/-- One for a comparison of equal numbers. -/
def tie (p : Prop) [Decidable p] : ℤ := if p then 1 else 0

theorem tie_pos {p : Prop} [Decidable p] (hp : p) : tie p = 1 := if_pos hp

theorem tie_neg {p : Prop} [Decidable p] (hp : ¬ p) : tie p = 0 := if_neg hp

theorem tie_cases (p : Prop) [Decidable p] : tie p = 0 ∨ tie p = 1 := by
  by_cases hp : p
  · exact .inr (tie_pos hp)
  · exact .inl (tie_neg hp)

theorem tie_eq_zero {p : Prop} [Decidable p] : tie p = 0 ↔ ¬ p := by
  by_cases hp : p
  · simp [tie, hp]
  · simp [tie, hp]

theorem above_add (points : ℤ) (x y : ℚ) :
    above points x y + above points (c - x) (c - y) = -(2 * points) * tie (x = y) := by
  unfold above
  rcases lt_trichotomy x y with h | h | h
  · rw [if_neg h.not_gt, if_pos (sub_lt_sub_left h c), tie_neg h.ne]
    ring
  · rw [h, if_neg (lt_irrefl _), if_neg (lt_irrefl _), tie_pos rfl]
    ring
  · rw [if_pos h, if_neg (sub_lt_sub_left h c).not_gt, tie_neg h.ne']
    ring

theorem order_cases (x y : ℚ) : x < y ∧ ¬ y < x ∧ tie (x = y) = 0 ∨
    ¬ x < y ∧ y < x ∧ tie (x = y) = 0 ∨ ¬ x < y ∧ ¬ y < x ∧ tie (x = y) = 1 := by
  rcases lt_trichotomy x y with h | h | h
  · exact .inl ⟨h, h.not_gt, tie_neg h.ne⟩
  · rw [h]
    exact .inr (.inr ⟨lt_irrefl y, lt_irrefl y, tie_pos rfl⟩)
  · exact .inr (.inl ⟨h.not_gt, h, tie_neg h.ne'⟩)

variable {closes : List ℚ} {price : ℚ}

theorem emaPoints_add (hne : closes ≠ []) :
    emaPoints closes + emaPoints (closes.map fun v => c - v) =
      -20 * tie (ema closes 9 = ema closes 21) := by
  unfold emaPoints
  rw [ema_mirror (by decide), ema_mirror (by decide)]
  have hema : ∀ n, ema closes n = some (emaOf closes n) := fun n => if_neg hne
  simp only [hema, Option.map_some, Option.some.injEq]
  exact above_add 10 _ _

theorem smaPoints_add {n : ℕ} (hn : 0 < n) :
    smaPoints closes price n + smaPoints (closes.map fun v => c - v) (c - price) n =
      -16 * tie (sma closes n = some price) := by
  unfold smaPoints
  rw [sma_mirror hn]
  cases sma closes n with
  | none => rfl
  | some average =>
    simp only [Option.map_some, Option.some.injEq, eq_comm (a := average)]
    exact above_add 8 price average

theorem rsiPoints_add : rsiPoints closes + rsiPoints (closes.map fun v => c - v) = 0 := by
  unfold rsiPoints
  rw [rsi_mirror (by decide)]
  cases rsi closes 14 with
  | none => rfl
  | some r =>
    dsimp only [Option.map_some]
    by_cases hlow : r < 30
    · rw [if_pos hlow, if_neg (by linarith), if_pos (by linarith)]
      rfl
    · rw [if_neg hlow]
      by_cases hhigh : 70 < r
      · rw [if_pos hhigh, if_pos (by linarith)]
        rfl
      · rw [if_neg hhigh, if_neg (by linarith), if_neg (by linarith)]
        rfl

theorem macdPoints_add : macdPoints closes + macdPoints (closes.map fun v => c - v) =
    -14 * tie ((macd closes).map Macd.histogram = some 0) := by
  unfold macdPoints
  rw [macd_mirror]
  cases macd closes with
  | none => rfl
  | some m =>
    simp only [Option.map_some, Option.some.injEq]
    have hadd := @above_add 0 7 m.histogram 0
    rw [zero_sub, sub_zero] at hadd
    exact hadd

/-- The equal swings that decide the structure. -/
def structureTies (rows : List Ohlc) : ℤ :=
  match lastTwo (swingHighs rows 3), lastTwo (swingLows rows 3) with
  | some (high, high'), some (low, low') => tie (high = high') + tie (low = low')
  | _, _ => 0

theorem structurePoints_add : structurePoints rows + structurePoints (rows.map (Ohlc.mirror c)) =
    -7 * structureTies rows := by
  unfold structurePoints market_structure structureTies
  rw [swingHighs_mirror, swingLows_mirror, lastTwo_mirror, lastTwo_mirror]
  rcases lastTwo (swingHighs rows 3) with _ | ⟨high, high'⟩
  · rcases lastTwo (swingLows rows 3) with _ | ⟨low, low'⟩
    · rfl
    · rfl
  · rcases lastTwo (swingLows rows 3) with _ | ⟨low, low'⟩
    · rfl
    · simp only [Option.map_some, sub_lt_sub_iff_left]
      obtain ⟨h, h', htie⟩ | ⟨h, h', htie⟩ | ⟨h, h', htie⟩ := order_cases high high' <;>
        obtain ⟨l, l', ltie⟩ | ⟨l, l', ltie⟩ | ⟨l, l', ltie⟩ := order_cases low low' <;>
        simp only [h, h', l, l', htie, ltie, and_self, and_true, and_false, not_true, not_false_iff,
          if_true, if_false] <;> decide

theorem sweepPoints_add : sweepPoints rows + sweepPoints (rows.map (Ohlc.mirror c)) =
    8 * tie (buySweeps rows ≠ [] ∧ sellSweeps rows ≠ []) := by
  rw [sweepPoints_eq, sweepPoints_mirror]
  by_cases hsell : sellSweeps rows = []
  · rw [tie_neg fun h => h.2 hsell, if_neg (not_not.mpr hsell), if_neg (not_not.mpr hsell)]
    split
    · rfl
    · rfl
  · rw [if_pos hsell, if_pos hsell]
    by_cases hbuy : buySweeps rows = []
    · rw [tie_neg fun h => h.1 hbuy, if_neg (not_not.mpr hbuy)]
      rfl
    · rw [tie_pos ⟨hbuy, hsell⟩, if_pos hbuy]
      rfl

/-! ### Bounds -/

theorem above_bound {points : ℤ} (hpoints : 0 ≤ points) (x y : ℚ) :
    -points ≤ above points x y ∧ above points x y ≤ points := by
  unfold above
  split <;> constructor <;> omega

theorem emaPoints_bound (closes : List ℚ) : -10 ≤ emaPoints closes ∧ emaPoints closes ≤ 10 := by
  unfold emaPoints
  split
  · exact above_bound (by decide) _ _
  · decide

theorem smaPoints_bound (closes : List ℚ) (price : ℚ) (n : ℕ) :
    -8 ≤ smaPoints closes price n ∧ smaPoints closes price n ≤ 8 := by
  unfold smaPoints
  split
  · exact above_bound (by decide) _ _
  · decide

theorem rsiPoints_bound (closes : List ℚ) : -8 ≤ rsiPoints closes ∧ rsiPoints closes ≤ 8 := by
  unfold rsiPoints
  split
  · split
    · decide
    · split <;> decide
  · decide

theorem macdPoints_bound (closes : List ℚ) : -7 ≤ macdPoints closes ∧ macdPoints closes ≤ 7 := by
  unfold macdPoints
  split
  · exact above_bound (by decide) _ _
  · decide

theorem structurePoints_bound (rows : List Ohlc) :
    -7 ≤ structurePoints rows ∧ structurePoints rows ≤ 7 := by
  unfold structurePoints
  cases market_structure rows <;> decide

theorem patternPoints_bound (rows : List Ohlc) :
    -4 ≤ patternPoints rows ∧ patternPoints rows ≤ 4 := by
  unfold patternPoints
  cases (candlestick_patterns rows).getLast? with
  | none => decide
  | some pattern => cases pattern <;> decide

theorem sweepPoints_bound (rows : List Ohlc) : -4 ≤ sweepPoints rows ∧ sweepPoints rows ≤ 4 := by
  unfold sweepPoints
  split
  · split <;> decide
  · decide

/-! ## The mirrored score -/

/-- What the two scores add up to beyond 100. -/
def drift (rows : List Ohlc) (price : ℚ) : ℤ :=
  let closes := rows.map Ohlc.close
  8 * tie (buySweeps rows ≠ [] ∧ sellSweeps rows ≠ []) - 20 * tie (ema closes 9 = ema closes 21) -
    16 * tie (sma closes 50 = some price) - 16 * tie (sma closes 200 = some price) -
    14 * tie ((macd closes).map Macd.histogram = some 0) - 7 * structureTies rows

theorem score_add_mirror (hne : rows ≠ []) :
    rawScore rows price + rawScore (rows.map (Ohlc.mirror c)) (c - price) =
      100 + drift rows price := by
  unfold rawScore drift
  rw [closes_mirror, patternPoints_mirror]
  dsimp only
  have hema := @emaPoints_add c (rows.map Ohlc.close) (by simpa using hne)
  have hfifty := @smaPoints_add c (rows.map Ohlc.close) price 50 (by decide)
  have hhundred := @smaPoints_add c (rows.map Ohlc.close) price 200 (by decide)
  have hrsi := @rsiPoints_add c (rows.map Ohlc.close)
  have hmacd := @macdPoints_add c (rows.map Ohlc.close)
  have hstructure := @structurePoints_add rows c
  have hsweeps := @sweepPoints_add rows c
  linarith

/-- No comparison of the score is between equal numbers, and one side at most is swept. -/
structure Balanced (rows : List Ohlc) : Prop where
  averages : ema (rows.map Ohlc.close) 9 ≠ ema (rows.map Ohlc.close) 21
  fifty : sma (rows.map Ohlc.close) 50 ≠ (rows.map Ohlc.close).getLast?
  two_hundred : sma (rows.map Ohlc.close) 200 ≠ (rows.map Ohlc.close).getLast?
  momentum : (macd (rows.map Ohlc.close)).map Macd.histogram ≠ some 0
  swings : ∀ highs lows, lastTwo (swingHighs rows 3) = some highs →
    lastTwo (swingLows rows 3) = some lows → highs.1 ≠ highs.2 ∧ lows.1 ≠ lows.2
  sweeps : buySweeps rows = [] ∨ sellSweeps rows = []

theorem structureTies_cases (rows : List Ohlc) :
    structureTies rows = 0 ∨ structureTies rows = 1 ∨ structureTies rows = 2 := by
  unfold structureTies
  split
  · next high high' low low' _ _ =>
    have hhigh := tie_cases (high = high')
    have hlow := tie_cases (low = low')
    omega
  · exact .inl rfl

theorem structureTies_eq_zero : structureTies rows = 0 ↔
    ∀ highs lows, lastTwo (swingHighs rows 3) = some highs →
      lastTwo (swingLows rows 3) = some lows → highs.1 ≠ highs.2 ∧ lows.1 ≠ lows.2 := by
  unfold structureTies
  cases lastTwo (swingHighs rows 3) with
  | none => exact ⟨fun _ => nofun, fun _ => rfl⟩
  | some highs =>
    cases lastTwo (swingLows rows 3) with
    | none => exact ⟨fun _ _ _ _ => nofun, fun _ => rfl⟩
    | some lows =>
      dsimp only
      constructor
      · rintro hzero _ _ ⟨⟩ ⟨⟩
        have hhigh := tie_cases (highs.1 = highs.2)
        have hlow := tie_cases (lows.1 = lows.2)
        exact ⟨tie_eq_zero.mp (by omega), tie_eq_zero.mp (by omega)⟩
      · intro hall
        obtain ⟨hhigh, hlow⟩ := hall highs lows rfl rfl
        rw [tie_neg hhigh, tie_neg hlow]
        rfl

theorem drift_eq_zero_iff (hlast : (rows.map Ohlc.close).getLast? = some price) :
    drift rows price = 0 ↔ Balanced rows := by
  unfold drift
  rw [← hlast]
  dsimp only
  constructor
  · intro hzero
    have hsweeps := tie_cases (buySweeps rows ≠ [] ∧ sellSweeps rows ≠ [])
    have hema := tie_cases (ema (rows.map Ohlc.close) 9 = ema (rows.map Ohlc.close) 21)
    have hfifty := tie_cases (sma (rows.map Ohlc.close) 50 = (rows.map Ohlc.close).getLast?)
    have hhundred := tie_cases (sma (rows.map Ohlc.close) 200 = (rows.map Ohlc.close).getLast?)
    have hmacd := tie_cases ((macd (rows.map Ohlc.close)).map Macd.histogram = some 0)
    have hstructure := structureTies_cases rows
    -- no ties add up to the eight points of two sweeps
    refine ⟨tie_eq_zero.mp (by omega), tie_eq_zero.mp (by omega), tie_eq_zero.mp (by omega),
      tie_eq_zero.mp (by omega), structureTies_eq_zero.mp (by omega), ?_⟩
    have hboth : ¬ (buySweeps rows ≠ [] ∧ sellSweeps rows ≠ []) := tie_eq_zero.mp (by omega)
    by_contra hneither
    rw [not_or] at hneither
    exact hboth hneither
  · rintro ⟨haverages, hfifty, hhundred, hmomentum, hswings, hsweeps⟩
    have hone : ¬ (buySweeps rows ≠ [] ∧ sellSweeps rows ≠ []) := by
      rintro ⟨hbuy, hsell⟩
      exact hsweeps.elim hbuy hsell
    rw [tie_neg hone, tie_neg haverages, tie_neg hfifty, tie_neg hhundred, tie_neg hmomentum,
      structureTies_eq_zero.mpr hswings]
    rfl

/-- Two limited scores that add up to 100 are not limited, or add up to 100 before. -/
theorem limited_ne {x y d : ℤ} (hsum : x + y = 100 + d) (hd : d ≠ 0) (hx : x < 100 + max d 0)
    (hy : y < 100 + max d 0) : max 0 (min 100 y) ≠ 100 - max 0 (min 100 x) := by
  omega

theorem rawScore_lt (hne : rows ≠ []) (hdrift : drift rows price ≠ 0) :
    rawScore rows price < 100 + max (drift rows price) 0 ∧
      rawScore (rows.map (Ohlc.mirror c)) (c - price) < 100 + max (drift rows price) 0 := by
  have hema := @emaPoints_add c (rows.map Ohlc.close) (by simpa using hne)
  have hfifty := @smaPoints_add c (rows.map Ohlc.close) price 50 (by decide)
  have hhundred := @smaPoints_add c (rows.map Ohlc.close) price 200 (by decide)
  have hmacd := @macdPoints_add c (rows.map Ohlc.close)
  have hstructure := @structurePoints_add rows c
  -- a tie takes points from both scores, a sweep from neither
  have hties : ∃ ties, (ties = 0 ∨ 7 ≤ ties) ∧ rawScore rows price ≤ 106 - ties ∧
      rawScore (rows.map (Ohlc.mirror c)) (c - price) ≤ 106 - ties ∧
      drift rows price = 8 * tie (buySweeps rows ≠ [] ∧ sellSweeps rows ≠ []) - ties := by
    refine ⟨20 * tie (ema (rows.map Ohlc.close) 9 = ema (rows.map Ohlc.close) 21) +
      16 * tie (sma (rows.map Ohlc.close) 50 = some price) +
      16 * tie (sma (rows.map Ohlc.close) 200 = some price) +
      14 * tie ((macd (rows.map Ohlc.close)).map Macd.histogram = some 0) +
      7 * structureTies rows, ?_, ?_, ?_, ?_⟩
    · have hcases := tie_cases (ema (rows.map Ohlc.close) 9 = ema (rows.map Ohlc.close) 21)
      have hcases' := tie_cases (sma (rows.map Ohlc.close) 50 = some price)
      have hcases'' := tie_cases (sma (rows.map Ohlc.close) 200 = some price)
      have hzero := tie_cases ((macd (rows.map Ohlc.close)).map Macd.histogram = some 0)
      have hswings := structureTies_cases rows
      omega
    · unfold rawScore
      dsimp only
      linarith [emaPoints_bound ((rows.map Ohlc.close).map fun v => c - v),
        smaPoints_bound ((rows.map Ohlc.close).map fun v => c - v) (c - price) 50,
        smaPoints_bound ((rows.map Ohlc.close).map fun v => c - v) (c - price) 200,
        macdPoints_bound ((rows.map Ohlc.close).map fun v => c - v),
        structurePoints_bound (rows.map (Ohlc.mirror c)), rsiPoints_bound (rows.map Ohlc.close),
        patternPoints_bound rows, sweepPoints_bound rows]
    · unfold rawScore
      rw [closes_mirror]
      dsimp only
      linarith [emaPoints_bound (rows.map Ohlc.close),
        smaPoints_bound (rows.map Ohlc.close) price 50,
        smaPoints_bound (rows.map Ohlc.close) price 200, macdPoints_bound (rows.map Ohlc.close),
        structurePoints_bound rows, rsiPoints_bound ((rows.map Ohlc.close).map fun v => c - v),
        patternPoints_bound (rows.map (Ohlc.mirror c)),
        sweepPoints_bound (rows.map (Ohlc.mirror c))]
    · unfold drift
      ring
  obtain ⟨ties, hcases, hle, hle', hsum⟩ := hties
  have hboth := tie_cases (buySweeps rows ≠ [] ∧ sellSweeps rows ≠ [])
  omega

/-- The mirrored score is the mirrored one exactly if no tie and no second sweep bends it. -/
theorem score_unbiased_iff {s : ℤ} (hscore : technical_score rows = some s) :
    technical_score (rows.map (Ohlc.mirror c)) = some (100 - s) ↔ Balanced rows := by
  obtain ⟨price, hlast, rfl⟩ := Option.map_eq_some_iff.mp hscore
  have hne : rows ≠ [] := by
    rintro rfl
    cases hlast
  have hmirror : technical_score (rows.map (Ohlc.mirror c)) =
      some (max 0 (min 100 (rawScore (rows.map (Ohlc.mirror c)) (c - price)))) := by
    rw [technical_score, closes_mirror, List.getLast?_map, hlast]
    rfl
  have hsum := @score_add_mirror rows c price hne
  rw [hmirror, Option.some.injEq, ← drift_eq_zero_iff hlast]
  constructor
  · intro hsame
    by_contra hdrift
    obtain ⟨hlt, hlt'⟩ := @rawScore_lt rows c price hne hdrift
    exact limited_ne hsum hdrift hlt hlt' hsame
  · intro hzero
    rw [hzero] at hsum
    omega

/-- Ten candles that rise. -/
def rising : List Ohlc :=
  (List.range 10).map fun i => ⟨100 + i, 101 + i, 100 + i, 101 + i⟩

theorem rising_balanced : Balanced rising := by
  have hnone : lastTwo (swingHighs rising 3) = none := by decide +kernel
  refine ⟨by decide +kernel, by decide +kernel, by decide +kernel, by decide +kernel, ?_,
    by decide +kernel⟩
  intro highs lows hhighs
  rw [hnone] at hhighs
  cases hhighs

theorem rising_mirrored : technical_score rising = some 60 ∧
    technical_score (rising.map (Ohlc.mirror 300)) = some 40 := by
  have hscore : technical_score rising = some 60 := by decide +kernel
  exact ⟨hscore, (score_unbiased_iff hscore).mpr rising_balanced⟩

/-- A market without movement has 40 points, and 40 when it is mirrored. -/
theorem flat_market : technical_score [⟨100, 100, 100, 100⟩] = some 40 ∧
    technical_score ([⟨100, 100, 100, 100⟩].map (Ohlc.mirror 200)) ≠ some (100 - 40) := by
  decide +kernel

end AlgoBot.Analysis
