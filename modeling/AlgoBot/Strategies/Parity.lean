import AlgoBot.Core.Causal
import AlgoBot.Core.Double
import AlgoBot.Python.Text
import AlgoBot.Risk.Sizing

/-!
# Strategies in backtests and in live runs

`LiveMarketContextService.build` makes the data of a strategy from the last of a list of candles,
`run_backtest` from each of them with later ones in sight. The features are causal, so both see
the same. A live run also has the parameters of its configuration, and `execute` reads the stake.

* `causal_basic_features`: the features of a candle are those of the candles up to it.
* `context_agrees`: the two contexts agree on RSI and trend.
* `live_agrees_iff`: the signals are the same exactly if the stake of the configuration is a
  number.
* `unset_stake`: a configuration whose stake is not set.
-/

namespace AlgoBot.Strategies.Parity

open AlgoBot.Core AlgoBot.Python

/-! ## Features -/

structure CandleRow where
  opening : Double
  high : Double
  low : Double
  close : Double
  volume : Double
  epoch : ℤ
  deriving DecidableEq, Repr

/-- What the features take from numpy and Python: the inner product of a window of `convolve`
with equal weights, and `sum`. -/
structure Sums where
  window : ℕ → List Double → Double
  sum : List Double → Double

/-- `sma`. -/
def featureSma (np : Sums) (values : List Double) (period : ℕ) : List (Option Double) :=
  if values.length < period then List.replicate values.length none
  else
    List.replicate (period - 1) none ++ (List.range (values.length + 1 - period)).map fun j =>
      some (np.window period ((values.drop j).take period))

/-- `returns`. -/
def returns : List Double → List Double :=
  pairs (.fin 0) fun a b =>
    Double.div (Double.sub b a) (if Double.eq a (.fin 0) then .fin 1 else a)

/-- `ema`. -/
def featureEma (period : ℕ) : List Double → List Double :=
  let alpha := Double.div (.fin 2) (.fin (period + 1))
  scanFirst (fun prev value =>
    Double.add (Double.mul alpha value) (Double.mul (Double.sub (.fin 1) alpha) prev)) fun v => v

structure Features where
  close : Double
  sma5 : Option Double
  sma20 : Option Double
  ema10 : Double
  ret1 : Double
  range : Double
  deriving DecidableEq, Repr

/-- A row of `compute_basic_features`. -/
def Features.row : CandleRow × Option Double × Option Double × Double × Double → Features
  | (candle, sma5, sma20, ema10, ret1) =>
    ⟨candle.close, sma5, sma20, ema10, ret1, Double.sub candle.high candle.low⟩

def compute_basic_features (np : Sums) (candles : List CandleRow) : List Features :=
  let closes := candles.map CandleRow.close
  (candles.zip ((featureSma np closes 5).zip ((featureSma np closes 20).zip
    ((featureEma 10 closes).zip (returns closes))))).map Features.row

/-- `_rsi`. -/
def rsi (np : Sums) (closes : List Double) : Double :=
  let period := 14
  if closes.length ≤ period then .fin 50
  else
    let n := closes.length
    let deltas := List.zipWith (fun a b => Double.sub b a) (closes.drop (n - period - 1)).dropLast
      (closes.drop (n - period))
    let avg_gain := Double.div (np.sum (deltas.map fun d => Double.pyMax d (.fin 0))) (.fin period)
    let avg_loss := Double.div (np.sum (deltas.map fun d => Double.pyMax d.neg (.fin 0)))
      (.fin period)
    if Double.eq avg_loss (.fin 0) then
      if Double.eq avg_gain (.fin 0) then .fin 50 else .fin 100
    else
      Double.sub (.fin 100)
        (Double.div (.fin 100) (Double.add (.fin 1) (Double.div avg_gain avg_loss)))

/-- `trend`. -/
def trend (row : Features) : String :=
  match row.sma5, row.sma20 with
  | some sma5, some sma20 =>
    if Double.lt sma20 sma5 then "up" else if Double.lt sma5 sma20 then "down" else "sideways"
  | _, _ => "sideways"

/-! ## Contexts -/

/-- `market_data`; it has no price and no trend of its own. -/
structure MarketData where
  symbol : String
  candle : CandleRow
  source : Option String

/-- `indicator_data`; the backtest adds the close and no source. -/
structure IndicatorData where
  close : Option Double
  sma5 : Option Double
  sma20 : Option Double
  ema10 : Double
  ret1 : Double
  range : Double
  rsi : Double
  trend : String
  source : Option String

structure LiveConfiguration where
  symbol : String
  /-- The status of `broker_account`, where there is one. -/
  account_status : Option String
  criteria : Dict
  parameters : Dict

/-- `LiveMarketContextService.build` of the candles it has fetched; `none` is its
`RuntimeError`. -/
def build (np : Sums) (config : LiveConfiguration) (candles : List CandleRow) :
    Option (MarketData × IndicatorData) :=
  if config.account_status ≠ some "active" then none
  else if candles.length < 25 then none
  else
    match (compute_basic_features np candles).getLast?, candles.getLast? with
    | some latest, some current =>
      some (⟨config.symbol, current, some "live_broker"⟩,
        ⟨none, latest.sma5, latest.sma20, latest.ema10, latest.ret1, latest.range,
          rsi np (candles.map CandleRow.close), trend latest, some "live_broker"⟩)
    | _, _ => none

/-- The contexts of `run_backtest`, at an index. -/
def historicContext (np : Sums) (symbol : String) (candles : List CandleRow) (index : ℕ) :
    Option (MarketData × IndicatorData) :=
  match candles[index]?, (compute_basic_features np candles)[index]? with
  | some current, some indicators =>
    some (⟨symbol, current, none⟩,
      ⟨some indicators.close, indicators.sma5, indicators.sma20, indicators.ema10,
        indicators.ret1, indicators.range, rsi np ((candles.take (index + 1)).map CandleRow.close),
        trend indicators, none⟩)
  | _, _ => none

/-! ## Strategies -/

/-- A class of the registry. -/
structure Strategy where
  name : String
  slug : String
  category : String
  generate_signal : MarketData → IndicatorData → Option String

/-- The body the built-in classes share. -/
def rsiThenTrend (_ : MarketData) (indicators : IndicatorData) : Option String :=
  if Double.lt indicators.rsi (.fin 30) then some "BUY"
  else if Double.lt (.fin 70) indicators.rsi then some "SELL"
  else if ["up", "UPTREND", "bullish"].contains indicators.trend then some "BUY"
  else if ["down", "DOWNTREND", "bearish"].contains indicators.trend then some "SELL"
  else some "HOLD"

def TrendFollowingStrategy : Strategy :=
  ⟨"Trend Following", "trend_following", "Trend Following", rsiThenTrend⟩
def MeanReversionStrategy : Strategy :=
  ⟨"Mean Reversion", "mean_reversion", "Mean Reversion", rsiThenTrend⟩
def BreakoutStrategy : Strategy := ⟨"Breakout", "breakout", "Breakout", rsiThenTrend⟩
def MomentumStrategy : Strategy := ⟨"Momentum", "momentum", "Momentum", rsiThenTrend⟩
def ScalpingStrategy : Strategy := ⟨"Scalping", "scalping", "Scalping", rsiThenTrend⟩
def SwingStrategy : Strategy := ⟨"Swing", "swing", "Swing Trading", rsiThenTrend⟩
def RangeStrategy : Strategy := ⟨"Range", "range", "Range Trading", rsiThenTrend⟩
def VolatilityStrategy : Strategy :=
  ⟨"Volatility", "volatility", "Volatility Trading", rsiThenTrend⟩
def SupportResistanceStrategy : Strategy :=
  ⟨"Support Resistance", "support_resistance", "Support & Resistance", rsiThenTrend⟩
def SmartMoneyStrategy : Strategy :=
  ⟨"Smart Money", "smart_money", "Smart Money Concepts", rsiThenTrend⟩

def BUILT_IN_STRATEGIES : List Strategy :=
  [TrendFollowingStrategy, MeanReversionStrategy, BreakoutStrategy, MomentumStrategy,
    ScalpingStrategy, SwingStrategy, RangeStrategy, VolatilityStrategy, SupportResistanceStrategy,
    SmartMoneyStrategy]

def SIGNAL_TYPES : List String :=
  ["BUY", "SELL", "STRONG BUY", "STRONG SELL", "HOLD", "EXIT", "REDUCE POSITION", "ADD POSITION"]

/-- `calculate_confidence`. -/
def calculate_confidence (indicators : IndicatorData) (signal : String) : Option ℕ :=
  let evidence :=
    (if signal = "BUY" ∧ Double.lt indicators.rsi (.fin 30) = true ∨
        signal = "SELL" ∧ Double.lt (.fin 70) indicators.rsi = true then 1 else 0) +
    (if signal = "BUY" ∧ indicators.trend ∈ ["up", "uptrend", "bullish"] ∨
        signal = "SELL" ∧ indicators.trend ∈ ["down", "downtrend", "bearish"] then 1 else 0)
  if signal ≠ "BUY" ∧ signal ≠ "SELL" then none
  else if evidence = 0 then none
  else if evidence = 1 then some 40
  else some 80

/-- `CriteriaEngine.evaluate` of criteria there are; `none` is its error. -/
abbrev CriteriaEngine :=
  Dict → MarketData → IndicatorData → String → Option ℕ → Option (Bool × List String)

/-- The result of `execute`. -/
structure Execution where
  signal : Option String
  confidence : Option ℕ
  criteria : Bool × List String
  entry_price : Option Double
  position_size : Option Dec

/-- `calculate_position_size`; `none` is an `InvalidOperation`. -/
def calculate_position_size (h : Host) (parameters : Dict) : Option Dec :=
  decimalOfText h ((parameters.getD "stake" (.int 1)).toStr h)

/-- `execute`, of a strategy with the criteria and parameters of its configuration. -/
def execute (h : Host) (engine : CriteriaEngine) (strategy : Strategy) (criteria parameters : Dict)
    (market : MarketData) (indicators : IndicatorData) : Option Execution :=
  match (strategy.generate_signal market indicators).filter SIGNAL_TYPES.contains with
  | none => some ⟨none, none, (true, []), none, none⟩
  | some signal => do
    let confidence := calculate_confidence indicators signal
    let outcome ← if criteria.isEmpty then some (true, []) else
      engine criteria market indicators signal confidence
    if outcome.1 then
      let position_size ← calculate_position_size h parameters
      some ⟨some signal, confidence, outcome, some market.candle.close, some position_size⟩
    else some ⟨none, none, outcome, none, none⟩

/-- The signal of a live run, of the context that has been built. -/
def liveSignal (h : Host) (engine : CriteriaEngine) (strategy : Strategy)
    (config : LiveConfiguration) (market : MarketData) (indicators : IndicatorData) :
    Option String :=
  (execute h engine strategy config.criteria config.parameters market indicators).bind
    Execution.signal

/-! ## The backtest -/

def min_history : ℕ := 20

/-- The signal `run_backtest` takes at an index, before it looks whether that is BUY or SELL. -/
def backtestSignal (h : Host) (np : Sums) (engine : CriteriaEngine) (strategy : Strategy)
    (symbol : String) (candles : List CandleRow) (index : ℕ) : Option String := do
  let (market, indicators) ← historicContext np symbol candles index
  let result ← execute h engine strategy [] [] market indicators
  some (upper h (result.signal.getD ""))

structure Trade where
  index : ℕ
  signal : String
  entry_price : Double
  exit_price : Double
  profit : ℤ
  entry_epoch : ℤ
  exit_epoch : ℤ
  deriving DecidableEq, Repr

/-- The trade between a candle and the next one. -/
def trade (index : ℕ) (signal : String) (current next : CandleRow) : Trade where
  index := index + 1
  signal := signal
  entry_price := current.close
  exit_price := next.close
  profit := if (signal = "BUY" ∧ Double.lt current.close next.close = true) ∨
      (signal = "SELL" ∧ Double.lt next.close current.close = true) then 1 else -1
  entry_epoch := current.epoch
  exit_epoch := next.epoch

/-- The turn of the loop of `run_backtest` at an index. -/
def tradesAt (h : Host) (np : Sums) (engine : CriteriaEngine) (strategy : Strategy)
    (symbol : String) (candles : List CandleRow) (index : ℕ) : Option (List Trade) := do
  let signal ← backtestSignal h np engine strategy symbol candles index
  if signal ≠ "BUY" ∧ signal ≠ "SELL" then some []
  else
    let current ← candles[index]?
    let next ← candles[index + 1]?
    some [trade index signal current next]

/-- The trades of `run_backtest` at the close of candles; `none` is an exception. -/
def run_backtest (h : Host) (np : Sums) (engine : CriteriaEngine) (strategy : Strategy)
    (symbol : String) (candles : List CandleRow) : Option (List Trade) :=
  if candles.length ≤ min_history then none
  else
    ((List.range' min_history (candles.length - 1 - min_history)).mapM
      (tradesAt h np engine strategy symbol candles)).map List.flatten

/-! ## Features are causal -/

variable {np : Sums}

theorem featureSma_eq (np : Sums) (values : List Double) {period : ℕ} (hperiod : 0 < period) :
    featureSma np values period = (List.range values.length).map fun i =>
      if (values.take (i + 1)).length < period then none
      else some (np.window period
        ((values.take (i + 1)).drop ((values.take (i + 1)).length - period))) := by
  unfold featureSma
  split
  · next hshort =>
    symm
    rw [List.eq_replicate_iff]
    refine ⟨by rw [List.length_map, List.length_range], fun b hb => ?_⟩
    obtain ⟨i, _, rfl⟩ := List.mem_map.mp hb
    rw [if_pos (lt_of_le_of_lt (List.length_take_le' _ _) hshort)]
  · next hlong =>
    -- the first values have no window yet
    have hsplit : values.length = (period - 1) + (values.length + 1 - period) := by omega
    have hrange : List.range values.length = List.range (period - 1) ++
        (List.range (values.length + 1 - period)).map fun j => period - 1 + j := by
      rw [← List.range_add, ← hsplit]
    rw [hrange, List.map_append, List.map_map]
    congr 1
    · symm
      rw [List.eq_replicate_iff]
      refine ⟨by rw [List.length_map, List.length_range], fun b hb => ?_⟩
      obtain ⟨i, hi, rfl⟩ := List.mem_map.mp hb
      have hi := List.mem_range.mp hi
      rw [if_pos (by rw [List.length_take]; omega)]
    · refine List.map_congr_left fun j hj => ?_
      have hj := List.mem_range.mp hj
      have hlength : (values.take (period - 1 + j + 1)).length = j + period := by
        rw [List.length_take]
        omega
      rw [Function.comp_apply, hlength, if_neg (by omega), Nat.add_sub_cancel, List.drop_take]
      congr 3
      omega

theorem causal_featureSma (np : Sums) {period : ℕ} (hperiod : 0 < period) :
    Causal fun values => featureSma np values period := by
  have hcausal := causal_of_take fun values : List Double =>
    if values.length < period then none
    else some (np.window period (values.drop (values.length - period)))
  have hsame : (fun values => featureSma np values period) = _ :=
    funext fun values => featureSma_eq np values hperiod
  rw [hsame]
  exact hcausal

theorem causal_returns : Causal returns := causal_pairs _ _

theorem causal_featureEma (period : ℕ) : Causal (featureEma period) := causal_scan _ fun v => v

theorem causal_basic_features (np : Sums) : Causal (compute_basic_features np) := by
  have hcloses : Causal (List.map CandleRow.close) := causal_map _
  have hid : Causal fun candles : List CandleRow => candles :=
    ⟨fun _ => rfl, fun _ _ => List.prefix_append _ _⟩
  have hsma5 := (causal_featureSma np (show 0 < 5 by decide)).comp hcloses
  have hsma20 := (causal_featureSma np (show 0 < 20 by decide)).comp hcloses
  have hema := (causal_featureEma 10).comp hcloses
  have hret := causal_returns.comp hcloses
  exact (causal_map Features.row).comp
    (hid.zip (hsma5.zip (hsma20.zip (hema.zip hret))))

/-! ## Both contexts -/

variable {h : Host} {engine : CriteriaEngine} {strategy : Strategy} {config : LiveConfiguration}
  {market : MarketData} {indicators : IndicatorData} {candles rest : List CandleRow}
  {symbol signal : String} {index : ℕ}

/-- The historic context of a candle, with later ones in sight, has the features of the live
one. -/
theorem context_agrees (symbol : String) (rest : List CandleRow)
    (hbuild : build np config candles = some (market, indicators)) :
    ∃ market' indicators', historicContext np symbol (candles ++ rest) (candles.length - 1) =
        some (market', indicators') ∧
      market'.candle = market.candle ∧ indicators'.sma5 = indicators.sma5 ∧
      indicators'.sma20 = indicators.sma20 ∧ indicators'.ema10 = indicators.ema10 ∧
      indicators'.ret1 = indicators.ret1 ∧ indicators'.range = indicators.range ∧
      indicators'.rsi = indicators.rsi ∧ indicators'.trend = indicators.trend := by
  unfold build at hbuild
  split at hbuild
  · cases hbuild
  · split at hbuild
    · cases hbuild
    · next hlength =>
      have hne : candles ≠ [] := by
        rintro rfl
        exact hlength (by decide)
      split at hbuild
      · next latest current hlatest hcurrent =>
        cases hbuild
        have hfeatures : (compute_basic_features np (candles ++ rest))[candles.length - 1]? =
            some latest := by
          rw [← (causal_basic_features np).getLast?_eq hne, hlatest]
        have hcandle : (candles ++ rest)[candles.length - 1]? = some current := by
          rw [List.getElem?_append_left (by omega), ← List.getLast?_eq_getElem?, hcurrent]
        have hcloses : (candles ++ rest).take (candles.length - 1 + 1) = candles := by
          rw [Nat.sub_add_cancel (by omega), List.take_left]
        unfold historicContext
        rw [hcandle, hfeatures]
        dsimp only
        rw [hcloses]
        exact ⟨_, _, rfl, rfl, rfl, rfl, rfl, rfl, rfl, rfl, rfl⟩
      · cases hbuild

theorem length_of_build (hbuild : build np config candles = some (market, indicators)) :
    25 ≤ candles.length := by
  unfold build at hbuild
  split at hbuild
  · cases hbuild
  · split at hbuild
    · cases hbuild
    · next hlength => exact Nat.not_lt.mp hlength

/-! ## Signals -/

theorem generate_signal_eq (hstrategy : strategy ∈ BUILT_IN_STRATEGIES) :
    strategy.generate_signal = rsiThenTrend := by
  simp only [BUILT_IN_STRATEGIES, List.mem_cons, List.not_mem_nil, or_false] at hstrategy
  rcases hstrategy with rfl | rfl | rfl | rfl | rfl | rfl | rfl | rfl | rfl | rfl <;> rfl

theorem rsiThenTrend_cases (market : MarketData) (indicators : IndicatorData) :
    ∃ signal ∈ ["BUY", "SELL", "HOLD"], rsiThenTrend market indicators = some signal := by
  unfold rsiThenTrend
  split
  · exact ⟨"BUY", by decide, rfl⟩
  · split
    · exact ⟨"SELL", by decide, rfl⟩
    · split
      · exact ⟨"BUY", by decide, rfl⟩
      · split
        · exact ⟨"SELL", by decide, rfl⟩
        · exact ⟨"HOLD", by decide, rfl⟩

/-- Only RSI and trend matter. -/
theorem rsiThenTrend_congr {market' : MarketData} {indicators' : IndicatorData}
    (hrsi : indicators'.rsi = indicators.rsi) (htrend : indicators'.trend = indicators.trend) :
    rsiThenTrend market' indicators' = rsiThenTrend market indicators := by
  unfold rsiThenTrend
  rw [hrsi, htrend]

theorem upper_signal (hsignal : signal ∈ ["BUY", "SELL", "HOLD"]) : upper h signal = signal := by
  simp only [List.mem_cons, List.not_mem_nil, or_false] at hsignal
  rcases hsignal with rfl | rfl | rfl
  · exact upper_of_ascii rfl
  · exact upper_of_ascii rfl
  · exact upper_of_ascii rfl

/-- Without criteria a signal fails on the stake alone. -/
theorem execute_signal {parameters : Dict} (hsignal : signal ∈ ["BUY", "SELL", "HOLD"])
    (hgenerate : strategy.generate_signal market indicators = some signal) :
    (execute h engine strategy [] parameters market indicators).map Execution.signal =
      (calculate_position_size h parameters).map fun _ => some signal := by
  have htypes : ∀ signal ∈ ["BUY", "SELL", "HOLD"], SIGNAL_TYPES.contains signal = true := by
    decide
  unfold execute
  rw [hgenerate, Option.filter_some, if_pos (htypes signal hsignal)]
  cases calculate_position_size h parameters with
  | none => rfl
  | some stake => rfl

/-- The stake of a backtest is 1. -/
theorem position_size_default (h : Host) : (calculate_position_size h []).isSome = true := by
  have hone : calculate_position_size h [] = decimalOfText h "1" := rfl
  rw [hone, Risk.Sizing.decimalOfText_ascii h (by decide)]
  decide +kernel

/-- The signal `run_backtest` takes at an index of its loop. -/
def takenSignal (h : Host) (np : Sums) (engine : CriteriaEngine) (strategy : Strategy)
    (symbol : String) (candles : List CandleRow) (index : ℕ) : Option String :=
  if index ∈ List.range' min_history (candles.length - 1 - min_history) then
    backtestSignal h np engine strategy symbol candles index
  else none

/-- The live signal of a list of candles is the one the backtest takes there exactly if the
configuration has a stake that is a number, or none. -/
theorem live_agrees_iff (hstrategy : strategy ∈ BUILT_IN_STRATEGIES)
    (hcriteria : config.criteria = [])
    (hbuild : build np config candles = some (market, indicators)) (hrest : rest ≠ []) :
    liveSignal h engine strategy config market indicators =
        takenSignal h np engine strategy symbol (candles ++ rest) (candles.length - 1) ↔
      (decimalOfText h ((config.parameters.getD "stake" (.int 1)).toStr h)).isSome = true := by
  obtain ⟨market', indicators', hcontext, _, _, _, _, _, _, hrsi, htrend⟩ :=
    context_agrees symbol rest hbuild
  obtain ⟨signal, hmem, hsignal⟩ := rsiThenTrend_cases market indicators
  have hgenerate : strategy.generate_signal market indicators = some signal := by
    rw [generate_signal_eq hstrategy, hsignal]
  have hgenerate' : strategy.generate_signal market' indicators' = some signal := by
    rw [generate_signal_eq hstrategy, rsiThenTrend_congr hrsi htrend, hsignal]
  have hindex : candles.length - 1 ∈
      List.range' min_history ((candles ++ rest).length - 1 - min_history) := by
    have hlength := length_of_build hbuild
    have hrest_length := List.length_pos_iff.mpr hrest
    rw [List.mem_range'_1, List.length_append, min_history]
    omega
  have htaken : takenSignal h np engine strategy symbol (candles ++ rest) (candles.length - 1) =
      some signal := by
    -- the backtest has no parameters, so its stake is the default
    obtain ⟨stake, hstake⟩ := Option.isSome_iff_exists.mp (position_size_default h)
    have hexecute : (execute h engine strategy [] [] market' indicators').map Execution.signal =
        (calculate_position_size h []).map fun _ => some signal := execute_signal hmem hgenerate'
    rw [hstake] at hexecute
    obtain ⟨result, hresult, hresult_signal⟩ := Option.map_eq_some_iff.mp hexecute
    rw [takenSignal, if_pos hindex, backtestSignal, hcontext]
    show (execute h engine strategy [] [] market' indicators').bind _ = _
    rw [hresult, Option.bind_some, hresult_signal]
    exact congrArg some (upper_signal hmem)
  have hlive : liveSignal h engine strategy config market indicators =
      (calculate_position_size h config.parameters).map fun _ => signal := by
    have hexecute : (execute h engine strategy [] config.parameters market indicators).map
        Execution.signal = (calculate_position_size h config.parameters).map fun _ => some signal :=
      execute_signal hmem hgenerate
    have hjoin : liveSignal h engine strategy config market indicators =
        ((execute h engine strategy [] config.parameters market indicators).map
          Execution.signal).bind id := by
      rw [liveSignal, hcriteria]
      cases execute h engine strategy [] config.parameters market indicators <;> rfl
    rw [hjoin, hexecute]
    cases calculate_position_size h config.parameters <;> rfl
  rw [hlive, htaken]
  show _ ↔ (calculate_position_size h config.parameters).isSome = true
  cases calculate_position_size h config.parameters with
  | none => exact iff_of_false nofun nofun
  | some stake => exact iff_of_true rfl rfl

/-! ## Trades -/

/-- What a loop has collected comes from one of its turns. -/
theorem exists_turn {α β : Type} {turn : α → Option β} {xs : List α} {ys : List β} {y : β}
    (hloop : xs.mapM turn = some ys) (hy : y ∈ ys) : ∃ x ∈ xs, turn x = some y := by
  induction xs generalizing ys with
  | nil =>
    obtain rfl : [] = ys := Option.some.inj hloop
    cases hy
  | cons x xs ih =>
    rw [List.mapM_cons, Option.bind_eq_bind, Option.bind_eq_some_iff] at hloop
    obtain ⟨z, hz, hrest⟩ := hloop
    rw [Option.bind_eq_bind, Option.bind_eq_some_iff] at hrest
    obtain ⟨zs, hzs, hsame⟩ := hrest
    obtain rfl : z :: zs = ys := Option.some.inj hsame
    rcases List.mem_cons.mp hy with rfl | hy
    · exact ⟨x, List.mem_cons_self, hz⟩
    · obtain ⟨w, hw, hturn⟩ := ih hzs hy
      exact ⟨w, List.mem_cons_of_mem x hw, hturn⟩

/-- Every trade of a backtest is of the signal taken at its entry. -/
theorem trade_taken {trades : List Trade} {t : Trade}
    (hrun : run_backtest h np engine strategy symbol candles = some trades) (ht : t ∈ trades) :
    ∃ index, t.index = index + 1 ∧ (t.signal = "BUY" ∨ t.signal = "SELL") ∧
      takenSignal h np engine strategy symbol candles index = some t.signal := by
  unfold run_backtest at hrun
  split at hrun
  · cases hrun
  · obtain ⟨turns, hturns, rfl⟩ := Option.map_eq_some_iff.mp hrun
    obtain ⟨turn, hturn, ht⟩ := List.mem_flatten.mp ht
    obtain ⟨index, hindex, htrades⟩ := exists_turn hturns hturn
    obtain ⟨signal, hsignal, htrades⟩ := Option.bind_eq_some_iff.mp htrades
    split at htrades
    · cases htrades
      cases ht
    · next hdirection =>
      obtain ⟨current, _, htrades⟩ := Option.bind_eq_some_iff.mp htrades
      obtain ⟨following, _, htrades⟩ := Option.bind_eq_some_iff.mp htrades
      cases htrades
      obtain rfl := List.mem_singleton.mp ht
      refine ⟨index, rfl, ?_, ?_⟩
      · show signal = "BUY" ∨ signal = "SELL"
        by_contra hneither
        exact hdirection (not_or.mp hneither)
      · rw [takenSignal, if_pos hindex]
        exact hsignal

/-! ### A rising market -/

/-- Sums in the order of the values. -/
def inOrder : Sums where
  window period values := Double.div (values.foldl Double.add (.fin 0)) (.fin period)
  sum values := values.foldl Double.add (.fin 0)

/-- Candles that close at 100, 101 and so on. -/
def climbing (n : ℕ) : List CandleRow :=
  (List.range n).map fun (i : ℕ) =>
    ⟨.fin (100 + i), .fin (101 + i), .fin (99 + i), .fin (100 + i), .fin 1, i⟩

def withStake (stake : Value) : LiveConfiguration where
  symbol := "R_100"
  account_status := some "active"
  criteria := []
  parameters := [("stake", stake)]

/-- With a stake of 5 both sell. -/
theorem numbered_stake : ∃ market indicators,
    build inOrder (withStake (.int 5)) (climbing 25) = some (market, indicators) ∧
      liveSignal Host.ascii (fun _ _ _ _ _ => none) MomentumStrategy (withStake (.int 5)) market
          indicators =
        takenSignal Host.ascii inOrder (fun _ _ _ _ _ => none) MomentumStrategy "R_100"
          (climbing 25 ++ [⟨.fin 1, .fin 1, .fin 1, .fin 1, .fin 1, 25⟩]) 24 := by
  have hsome : (build inOrder (withStake (.int 5)) (climbing 25)).isSome = true := by
    decide +kernel
  obtain ⟨⟨market, indicators⟩, hbuild⟩ := Option.isSome_iff_exists.mp hsome
  refine ⟨market, indicators, hbuild, (live_agrees_iff ?_ rfl hbuild ?_).mpr ?_⟩
  · exact .tail _ (.tail _ (.tail _ (.head _)))
  · exact List.cons_ne_nil _ _
  · decide +kernel

/-- Where the stake is not set, the live run fails and the backtest sells. -/
theorem unset_stake :
    (build inOrder (withStake .none) (climbing 25)).map (fun (market, indicators) =>
      liveSignal Host.ascii (fun _ _ _ _ _ => none) MomentumStrategy (withStake .none) market
        indicators) = some none ∧
    takenSignal Host.ascii inOrder (fun _ _ _ _ _ => none) MomentumStrategy "R_100"
      (climbing 25 ++ [⟨.fin 1, .fin 1, .fin 1, .fin 1, .fin 1, 25⟩]) 24 = some "SELL" := by
  decide +kernel

end AlgoBot.Strategies.Parity
