import Mathlib.Data.List.ReduceOption
import AlgoBot.Backtesting.Models
import AlgoBot.Core.Double
import AlgoBot.MarketData.History

/-!
# The window of a backtest

`execute_backtest` of candle closes: it reads twenty candles before the window to
warm up, and the window after them; the strategy decides at every candle that has
the warm-up behind it and a successor; and the trades of the window are counted.

The reader returns at most ten thousand candles, the newest ones.

* `window_covered_iff`: a run that completes decides at the candles of its window
  that have a successor there, and counts the trades of these decisions, exactly
  if the window and the warm-up are no more candles than the reader returns.
* `window_truncated`: a window of 9,981 candles.
-/

namespace AlgoBot.Backtesting

open AlgoBot.Core AlgoBot.Python AlgoBot.MarketData

/-- A candle with its epoch. -/
abbrev Row := ℤ × Candle

/-! ## `StrategyService.run_backtest` -/

/-- What a strategy returns at a candle, of the features of all the candles. -/
structure Strategy where
  execute : List Row → ℕ → Except PyError Dict

inductive Failure where
  /-- An unknown timeframe or market. -/
  | unknown
  | warm_up (found : ℕ)
  | dates
  | history
  | strategy (e : PyError)

structure Trade where
  index : ℕ
  signal : String
  entry_price : Double
  exit_price : Double
  profit : ℚ
  entry_epoch : ℤ
  exit_epoch : ℤ

/-- `min_history`. -/
def MINIMUM_HISTORY : ℕ := 20

/-- `int(date.timestamp())` of a date in microseconds. -/
def epochOf (date : ℤ) : ℤ := date.tdiv 1000000

/-- `range(min_history, len(candles) - 1)`. -/
def indices (candles : List Row) : List ℕ :=
  List.range' MINIMUM_HISTORY (candles.length - 1 - MINIMUM_HISTORY)

/-- The body of the loop. -/
def tradeAt (host : Host) (strategy : Strategy) (candles : List Row) (index : ℕ) :
    Except Failure (Option Trade) :=
  match candles[index]?, candles[index + 1]? with
  | some current, some next_candle => do
    let result ← (strategy.execute candles index).mapError .strategy
    let signal := upper host (textOr host (result.get "signal") "")
    if signal ∉ ["BUY", "SELL"] then return none
    let entry := Double.ofRat current.2.close
    let exit_price := Double.ofRat next_candle.2.close
    let won := (signal == "BUY" && Double.lt entry exit_price) ||
      (signal == "SELL" && Double.lt exit_price entry)
    return some ⟨index + 1, signal, entry, exit_price, if won then 1 else -1, current.1,
      next_candle.1⟩
  -- every index of the loop has a successor
  | _, _ => return none

/-- The loop. -/
def evaluate (host : Host) (strategy : Strategy) (candles : List Row) :
    Except Failure (List Trade) := do
  let trades ← (indices candles).mapM (tradeAt host strategy candles)
  return trades.reduceOption

def orFail {α : Type} (failure : Failure) : Option α → Except Failure α
  | some x => .ok x
  | none => .error failure

section Run

variable (host : Host) (markets : List MarketSymbol) (candles : Candles)

/-- `_historic_candles`, at a canonical timeframe. -/
def historicCandles (symbol : String) (timeframe : Timeframe) (start_epoch end_epoch : ℤ) :
    Except Failure (List Row) :=
  orFail .unknown
    (range_candles host markets candles symbol timeframe 10000 start_epoch end_epoch)

/-- The candles that `run_backtest` evaluates, from an epoch on. -/
def readHistory (params : Params) (start_epoch : ℤ) : Except Failure (List Row) := do
  if params.end_date ≤ start_epoch * 1000000 then throw .dates
  let timeframe ← orFail .unknown (normalize_timeframe host params.timeframe)
  let rows ← historicCandles host markets candles params.symbol timeframe start_epoch
    (epochOf params.end_date)
  if rows.length ≤ MINIMUM_HISTORY then throw .history
  return rows

/-- `_warmup_start`, as an epoch. -/
def warmupStart (params : Params) : Except Failure ℤ := do
  let timeframe ← orFail .unknown (normalize_timeframe host params.timeframe)
  let rows ← orFail .unknown (previous_candles host markets candles params.symbol timeframe
    (epochOf params.start_date) MINIMUM_HISTORY)
  if rows.length < MINIMUM_HISTORY then throw (.warm_up rows.length)
  orFail (.warm_up 0) (rows.map Prod.fst).min?

/-! ## `_window_result` -/

/-- The metrics of the window; the rates are exact. -/
structure WindowResult where
  trades : List Trade
  total_trades : ℕ
  wins : ℕ
  losses : ℕ
  win_rate : ℚ
  loss_rate : ℚ
  directional_score : ℚ
  profit_factor : Option ℚ
  profit_factor_unbounded : Bool
  sharpe_ratio : Option ℚ
  max_drawdown : Option ℚ
  evaluation_start_epoch : ℤ
  evaluation_end_epoch : ℤ
  warmup_trade_count : ℤ

/-- `n / total * 100`. -/
def rateOf (n total : ℕ) : ℚ := if total = 0 then 0 else n / total * 100

/-- `_window_result` of the trades of a run. -/
def windowResult (result : List Trade) (start_epoch end_epoch : ℤ) : WindowResult :=
  let trades := result.filter fun trade =>
    start_epoch ≤ trade.entry_epoch && trade.exit_epoch ≤ end_epoch
  let wins := trades.countP fun trade => 0 < trade.profit
  let losses := trades.countP fun trade => trade.profit < 0
  { trades := trades
    total_trades := trades.length
    wins := wins
    losses := losses
    win_rate := rateOf wins trades.length
    loss_rate := rateOf losses trades.length
    directional_score := (trades.map Trade.profit).sum
    profit_factor := none
    profit_factor_unbounded := false
    sharpe_ratio := none
    max_drawdown := none
    evaluation_start_epoch := start_epoch
    evaluation_end_epoch := end_epoch
    warmup_trade_count := result.length - trades.length }

/-! ## `execute_backtest` -/

/-- A run that completes, with the candles it has evaluated. -/
structure Run where
  history : List Row
  result : WindowResult

/-- The evaluation of a backtest of candle closes. -/
def executeBacktest (strategy : Strategy) (params : Params) : Except Failure Run := do
  let calculation_start ← warmupStart host markets candles params
  let history ← readHistory host markets candles params calculation_start
  let trades ← evaluate host strategy history
  return ⟨history, windowResult trades (epochOf params.start_date) (epochOf params.end_date)⟩

/-- The stored candles of the window. -/
def windowCandles (params : Params) : List Row :=
  match normalize_timeframe host params.timeframe, market host markets params.symbol with
  | some timeframe, some row =>
    between candles row.pk timeframe (epochOf params.start_date) (epochOf params.end_date)
  | _, _ => []

end Run

/-! ## The points of decision -/

/-- The candles at which the strategy decides. -/
def decisionPoints (history : List Row) : List Row := (indices history).filterMap (history[·]?)

theorem filterMap_range' {α : Type} {rows : List α} {start n : ℕ} (h : start + n ≤ rows.length) :
    (List.range' start n).filterMap (rows[·]?) = (rows.drop start).take n := by
  induction n generalizing start with
  | zero => simp
  | succ n ih =>
    have hlt : start < rows.length := by omega
    rw [List.range'_succ, List.filterMap_cons_some (List.getElem?_eq_getElem hlt),
      ih (by omega), List.drop_eq_getElem_cons hlt, List.take_succ_cons]

/-- All that have the warm-up before them, but the last. -/
theorem decisionPoints_eq {history : List Row} (h : MINIMUM_HISTORY < history.length) :
    decisionPoints history = (history.drop MINIMUM_HISTORY).dropLast := by
  rw [decisionPoints, indices, filterMap_range' (by omega), List.dropLast_eq_take,
    List.length_drop, Nat.sub_right_comm]

/-! ## Trades -/

section Trades

variable {host : Host} {strategy : Strategy} {history : List Row} {index : ℕ} {trade : Trade}

theorem of_tradeAt (h : tradeAt host strategy history index = .ok (some trade)) :
    ∃ current next_candle, history[index]? = some current ∧
      history[index + 1]? = some next_candle ∧ trade.entry_epoch = current.1 ∧
        trade.exit_epoch = next_candle.1 := by
  unfold tradeAt at h
  split at h
  · next current next_candle hcurrent hnext =>
    obtain ⟨result, _, h⟩ := bind_ok.mp h
    dsimp only at h
    split at h
    · cases h
    · cases h
      exact ⟨current, next_candle, hcurrent, hnext, rfl, rfl⟩
  · cases h

theorem of_mem_evaluate {trades : List Trade} (h : evaluate host strategy history = .ok trades)
    (hmem : trade ∈ trades) :
    ∃ index ∈ indices history, tradeAt host strategy history index = .ok (some trade) := by
  obtain ⟨found, hfound, h⟩ := bind_ok.mp h
  cases h
  have hsome : some trade ∈ found := List.reduceOption_mem_iff.mp hmem
  obtain ⟨hlength, hat⟩ := List.forall₂_iff_get.mp (mapM_ok.mp hfound)
  obtain ⟨k, hk⟩ := List.mem_iff_get.mp hsome
  have hindex : (k : ℕ) < (indices history).length := by
    rw [hlength]
    exact k.isLt
  refine ⟨(indices history).get ⟨k, hindex⟩, List.get_mem _ _, ?_⟩
  rw [hat k hindex k.isLt, hk]

end Trades

/-! ## What a run covers -/

/-- The run decides at the candles of its window that have a successor there, and its counts are
those of the trades of these decisions. -/
structure Covers (host : Host) (strategy : Strategy) (window : List Row) (run : Run) : Prop where
  points : decisionPoints run.history = window.dropLast
  counts : ∃ trades, evaluate host strategy run.history = .ok trades ∧
    run.result.total_trades = trades.length ∧
      run.result.wins = trades.countP (fun trade => 0 < trade.profit) ∧
        run.result.losses = trades.countP fun trade => trade.profit < 0

section Coverage

variable {host : Host} {markets : List MarketSymbol} {candles : Candles} {strategy : Strategy}
  {params : Params} {run : Run}

theorem orFail_ok {α : Type} {failure : Failure} {o : Option α} {x : α} :
    orFail failure o = .ok x ↔ o = some x := by
  cases o <;> simp [orFail]

/-- The least epoch of ascending rows is that of the first. -/
theorem min?_epochs {first : Row} {rest : List Row} (h : Ascending (first :: rest)) :
    ((first :: rest).map Prod.fst).min? = some first.1 := by
  rw [List.min?_eq_some_iff]
  refine ⟨by simp, ?_⟩
  intro e he
  obtain ⟨row, hrow, rfl⟩ := List.mem_map.mp he
  rcases List.mem_cons.mp hrow with rfl | hrow
  · exact le_refl _
  · exact ((List.pairwise_cons.mp h).1 row hrow).le

theorem of_warmupStart {start : ℤ} (h : warmupStart host markets candles params = .ok start) :
    ∃ timeframe row first rest, normalize_timeframe host params.timeframe = some timeframe ∧
      market host markets params.symbol = some row ∧
        newest MINIMUM_HISTORY (before candles row.pk timeframe (epochOf params.start_date)) =
          first :: rest ∧
            (first :: rest).length = MINIMUM_HISTORY ∧ first.1 = start := by
  obtain ⟨timeframe, htimeframe, h⟩ := bind_ok.mp h
  obtain ⟨rows, hrows, h⟩ := bind_ok.mp h
  rw [orFail_ok] at htimeframe hrows
  obtain ⟨row, hmarket, hnewest⟩ := Option.map_eq_some_iff.mp hrows
  have hlimit : min (max MINIMUM_HISTORY 1) 10000 = MINIMUM_HISTORY := rfl
  rw [hlimit] at hnewest
  dsimp only at h
  split at h
  · cases h
  · next henough =>
    have hlength := length_newest MINIMUM_HISTORY
      (before candles row.pk timeframe (epochOf params.start_date))
    rw [hnewest] at hlength
    cases rows with
    | nil => exact absurd (by decide) henough
    | cons first rest =>
      have hascending : Ascending (first :: rest) := by
        rw [← hnewest, newest_eq_drop]
        exact (ascending_stored.filter _).drop
      have hstart := orFail_ok.mp h
      rw [min?_epochs hascending] at hstart
      exact ⟨timeframe, row, first, rest, htimeframe, hmarket, hnewest, by omega,
        Option.some.inj hstart⟩

theorem windowCandles_eq {timeframe : Timeframe} {row : MarketSymbol}
    (htimeframe : normalize_timeframe host params.timeframe = some timeframe)
    (hmarket : market host markets params.symbol = some row) :
    windowCandles host markets candles params =
      between candles row.pk timeframe (epochOf params.start_date) (epochOf params.end_date) := by
  unfold windowCandles
  rw [htimeframe, hmarket]

theorem of_readHistory {start : ℤ} {history : List Row} {timeframe : Timeframe}
    {row : MarketSymbol} (htimeframe : normalize_timeframe host params.timeframe = some timeframe)
    (hmarket : market host markets params.symbol = some row)
    (h : readHistory host markets candles params start = .ok history) :
    history = newest 10000 (between candles row.pk timeframe start (epochOf params.end_date)) ∧
      MINIMUM_HISTORY < history.length := by
  unfold readHistory at h
  split at h
  · cases h
  · obtain ⟨timeframe', htimeframe', h⟩ := bind_ok.mp h
    obtain rfl := Option.some.inj (htimeframe.symm.trans (orFail_ok.mp htimeframe'))
    obtain ⟨rows, hrows, h⟩ := bind_ok.mp h
    obtain ⟨row', hmarket', hnewest⟩ := Option.map_eq_some_iff.mp (orFail_ok.mp hrows)
    obtain rfl := Option.some.inj (hmarket.symm.trans hmarket')
    dsimp only at h
    split at h
    · cases h
    · next henough =>
      cases h
      exact ⟨hnewest.symm, by omega⟩

/-- What a run that completes has evaluated: the newest of the warm-up and the window. -/
theorem history_eq (hrun : executeBacktest host markets candles strategy params = .ok run) :
    ∃ warm_up : List Row, warm_up.length = MINIMUM_HISTORY ∧
      run.history = newest 10000 (warm_up ++ windowCandles host markets candles params) ∧
        MINIMUM_HISTORY < run.history.length ∧
          ∃ trades, evaluate host strategy run.history = .ok trades ∧
            run.result =
              windowResult trades (epochOf params.start_date) (epochOf params.end_date) := by
  obtain ⟨start, hstart, hrun⟩ := bind_ok.mp hrun
  obtain ⟨history, hhistory, hrun⟩ := bind_ok.mp hrun
  obtain ⟨trades, htrades, hrun⟩ := bind_ok.mp hrun
  cases hrun
  obtain ⟨timeframe, row, first, rest, htimeframe, hmarket, hwarm, hlength, rfl⟩ :=
    of_warmupStart hstart
  obtain ⟨hhistory, henough⟩ := of_readHistory htimeframe hmarket hhistory
  have hwindow : windowCandles host markets candles params = _ :=
    windowCandles_eq htimeframe hmarket
  rw [between_warm_up hwarm, ← hwindow] at hhistory
  -- the warm-up alone is not enough, so the window is not empty and begins before it ends
  have hnonempty : windowCandles host markets candles params ≠ [] := by
    intro hempty
    have hshort := List.length_filter_le (fun row : Row => decide (row.1 ≤ epochOf params.end_date))
      (first :: rest)
    rw [hlength] at hshort
    rw [hhistory, hempty, List.append_nil, length_newest] at henough
    exact lt_irrefl _ (lt_of_lt_of_le henough ((min_le_right _ _).trans hshort))
  obtain ⟨some_row, hsome⟩ := List.exists_mem_of_ne_nil _ hnonempty
  rw [hwindow, between] at hsome
  have hends := (List.mem_filter.mp hsome).2
  simp only [Bool.and_eq_true, decide_eq_true_eq] at hends
  have hall : ((first :: rest).filter fun row => row.1 ≤ epochOf params.end_date) =
      first :: rest := by
    rw [List.filter_eq_self]
    intro r hr
    rw [← hwarm, newest_eq_drop] at hr
    have hbefore := (List.mem_filter.mp (List.mem_of_mem_drop hr)).2
    simp only [decide_eq_true_eq] at hbefore ⊢
    omega
  rw [hall] at hhistory
  exact ⟨first :: rest, hlength, hhistory, henough, trades, htrades, rfl⟩

/-- The trades of a run lie in its window. -/
theorem trades_inside {history window : List Row} {trades : List Trade} {start_epoch end_epoch : ℤ}
    (hwindow : history.drop MINIMUM_HISTORY = window)
    (hinside : ∀ row ∈ window, start_epoch ≤ row.1 ∧ row.1 ≤ end_epoch)
    (htrades : evaluate host strategy history = .ok trades) :
    (trades.filter fun trade => start_epoch ≤ trade.entry_epoch && trade.exit_epoch ≤ end_epoch) =
      trades := by
  rw [List.filter_eq_self]
  intro trade htrade
  obtain ⟨index, hindex, htrade⟩ := of_mem_evaluate htrades htrade
  obtain ⟨current, next_candle, hcurrent, hnext, hentry, hexit⟩ := of_tradeAt htrade
  have hfrom : MINIMUM_HISTORY ≤ index := (List.mem_range'_1.mp hindex).1
  have hmem : ∀ {k : ℕ} {row : Row}, MINIMUM_HISTORY ≤ k → history[k]? = some row →
      row ∈ window := by
    intro k row hk hrow
    obtain ⟨j, rfl⟩ := Nat.exists_eq_add_of_le hk
    rw [← hwindow]
    exact List.mem_of_getElem? (List.getElem?_drop ▸ hrow)
  have hlow := (hinside current (hmem hfrom hcurrent)).1
  have hhigh := (hinside next_candle (hmem (by omega) hnext)).2
  simp [hentry, hexit, hlow, hhigh]

theorem mem_windowCandles {row : Row} (h : row ∈ windowCandles host markets candles params) :
    epochOf params.start_date ≤ row.1 ∧ row.1 ≤ epochOf params.end_date := by
  unfold windowCandles at h
  split at h
  · simpa using (List.mem_filter.mp h).2
  · cases h

/-- Already the number of points shows that the reader has returned all of the window. -/
theorem length_of_covers (hrun : executeBacktest host markets candles strategy params = .ok run)
    (hcovers : Covers host strategy (windowCandles host markets candles params) run) :
    (windowCandles host markets candles params).length ≤ 9980 := by
  obtain ⟨warm_up, hwarm, hhistory, henough, _⟩ := history_eq hrun
  have hminimum : MINIMUM_HISTORY = 20 := rfl
  have hread := length_newest 10000 (warm_up ++ windowCandles host markets candles params)
  rw [← hhistory, List.length_append, hwarm, hminimum] at hread
  have hpoints := (decisionPoints_eq henough).symm.trans hcovers.points
  have hlength := congrArg List.length hpoints
  rw [List.length_dropLast, List.length_dropLast, List.length_drop, hread, hminimum] at hlength
  omega

/-- A run that completes covers its window exactly if the reader returns all of it. -/
theorem window_covered_iff (host : Host) (markets : List MarketSymbol) (candles : Candles)
    (strategy : Strategy) (params : Params) (run : Run)
    (hrun : executeBacktest host markets candles strategy params = .ok run) :
    Covers host strategy (windowCandles host markets candles params) run ↔
      (windowCandles host markets candles params).length ≤ 9980 := by
  constructor
  · exact length_of_covers hrun
  · intro hfits
    obtain ⟨warm_up, hwarm, hhistory, henough, trades, htrades, hresult⟩ := history_eq hrun
    have hall : run.history = warm_up ++ windowCandles host markets candles params := by
      rw [hhistory]
      apply newest_of_length_le
      have hminimum : MINIMUM_HISTORY = 20 := rfl
      rw [List.length_append, hwarm, hminimum]
      omega
    have hdrop : run.history.drop MINIMUM_HISTORY = windowCandles host markets candles params := by
      rw [hall, ← hwarm, List.drop_left]
    have hinside := trades_inside hdrop (fun row => mem_windowCandles) htrades
    refine ⟨by rw [decisionPoints_eq henough, hdrop], trades, htrades, ?_, ?_, ?_⟩
    all_goals
      rw [hresult]
      simp only [windowResult, hinside]

end Coverage

/-! ## A candle a minute -/

/-- A candle a minute, from the epoch on. -/
def minuteBar (i : ℕ) : Bar := ⟨1, .m1, 60 * i⟩

def flat : Candle := ⟨1, 1, 1, 1, 0, .deriv_candles⟩

theorem minuteBar_injective : Function.Injective minuteBar := by
  intro i j hij
  have hepoch := congrArg Bar.epoch hij
  simp only [minuteBar] at hepoch
  omega

def minuteCandles (n : ℕ) : Candles where
  entries := (List.range n).map fun i => ⟨minuteBar i, flat⟩
  nodupKeys := by
    rw [List.NodupKeys, List.keys, List.map_map]
    exact List.nodup_range.map minuteBar_injective

def minuteMarkets : List MarketSymbol := [⟨1, "R_100", true, true⟩]

/-- A strategy that never gives a signal. -/
def quietStrategy : Strategy := ⟨fun _ _ => .ok []⟩

/-- From the twentieth candle to the last of `n`. -/
def minuteParams (n : ℕ) : Params :=
  ⟨"quiet", "R_100", "1m", 20 * 60000000, (n - 1) * 60000000, "candle_close"⟩

def minuteRow (i : ℕ) : Row := (60 * i, flat)

theorem stored_minuteCandles (n : ℕ) :
    stored (minuteCandles n) 1 .m1 = (List.range n).map minuteRow := by
  have hall : ((minuteCandles n).entries.filter fun row =>
      row.1.market = 1 && row.1.timeframe = .m1 && broker_sourced .m1 row.2) =
        (minuteCandles n).entries := by
    rw [List.filter_eq_self]
    intro row hrow
    obtain ⟨i, _, rfl⟩ := List.mem_map.mp hrow
    rfl
  rw [stored, hall, minuteCandles, List.map_map]
  apply List.Pairwise.insertionSort_eq
  rw [List.pairwise_map]
  refine List.pairwise_lt_range.imp fun hlt => ?_
  simp only [Function.comp, minuteBar]
  omega


theorem range_split {k n : ℕ} (hn : k ≤ n) :
    List.range n = List.range k ++ List.range' k (n - k) := by
  have happend : List.range' 0 k ++ List.range' (0 + k) (n - k) = List.range' 0 (k + (n - k)) :=
    List.range'_append_1
  rw [Nat.zero_add, Nat.add_sub_cancel' hn] at happend
  rw [List.range_eq_range', List.range_eq_range', happend]

theorem before_minuteCandles {n : ℕ} (hn : 20 ≤ n) :
    before (minuteCandles n) 1 .m1 1200 = (List.range 20).map minuteRow := by
  rw [before, stored_minuteCandles, range_split hn, List.map_append, List.filter_append]
  have hall : ((List.range 20).map minuteRow).filter (fun row : Row => decide (row.1 < 1200)) =
      (List.range 20).map minuteRow := by decide +kernel
  have hnone : ((List.range' 20 (n - 20)).map minuteRow).filter
      (fun row : Row => decide (row.1 < 1200)) = [] := by
    rw [List.filter_eq_nil_iff]
    intro row hrow
    obtain ⟨i, hi, rfl⟩ := List.mem_map.mp hrow
    have hfrom := (List.mem_range'_1.mp hi).1
    have hepoch : (minuteRow i).1 = 60 * i := rfl
    rw [hepoch, decide_eq_true_eq]
    omega
  rw [hall, hnone, List.append_nil]

theorem window_minuteCandles {n : ℕ} (hn : 20 ≤ n) :
    between (minuteCandles n) 1 .m1 1200 (60 * (n - 1)) =
      (List.range' 20 (n - 20)).map minuteRow := by
  rw [between, stored_minuteCandles, range_split hn, List.map_append, List.filter_append]
  have hnone : ((List.range 20).map minuteRow).filter
      (fun row : Row => decide (1200 ≤ row.1) && decide (row.1 ≤ 60 * (n - 1))) = [] := by
    rw [List.filter_eq_nil_iff]
    intro row hrow
    obtain ⟨i, hi, rfl⟩ := List.mem_map.mp hrow
    have hto := List.mem_range.mp hi
    have hepoch : (minuteRow i).1 = 60 * i := rfl
    rw [hepoch, Bool.and_eq_true, decide_eq_true_eq, decide_eq_true_eq]
    omega
  have hall : ((List.range' 20 (n - 20)).map minuteRow).filter
      (fun row : Row => decide (1200 ≤ row.1) && decide (row.1 ≤ 60 * (n - 1))) =
        (List.range' 20 (n - 20)).map minuteRow := by
    rw [List.filter_eq_self]
    intro row hrow
    obtain ⟨i, hi, rfl⟩ := List.mem_map.mp hrow
    obtain ⟨hfrom, hto⟩ := List.mem_range'_1.mp hi
    have hepoch : (minuteRow i).1 = 60 * i := rfl
    rw [hepoch, Bool.and_eq_true, decide_eq_true_eq, decide_eq_true_eq]
    omega
  rw [hnone, hall, List.nil_append]

theorem historic_minuteCandles (n : ℕ) {symbol : String}
    (hmarket : market Host.ascii minuteMarkets symbol = some ⟨1, "R_100", true, true⟩) :
    historicCandles Host.ascii minuteMarkets (minuteCandles n) symbol .m1 0 (60 * (n - 1)) =
      .ok (newest 10000 ((List.range n).map minuteRow)) := by
  have hall : between (minuteCandles n) 1 .m1 0 (60 * (n - 1)) = (List.range n).map minuteRow := by
    rw [between, stored_minuteCandles, List.filter_eq_self]
    intro row hrow
    obtain ⟨i, hi, rfl⟩ := List.mem_map.mp hrow
    have hto := List.mem_range.mp hi
    have hepoch : (minuteRow i).1 = 60 * i := rfl
    rw [hepoch, Bool.and_eq_true, decide_eq_true_eq, decide_eq_true_eq]
    omega
  rw [historicCandles, orFail_ok, range_candles, hmarket, Option.map_some, hall]
  rfl

theorem epochOf_minuteParams (n : ℕ) : epochOf (minuteParams n).start_date = 1200 ∧
    epochOf (minuteParams n).end_date = 60 * (n - 1) := by
  refine ⟨rfl, ?_⟩
  have hmicro : ((n : ℤ) - 1) * 60000000 = 60 * (n - 1) * 1000000 := by ring
  rw [minuteParams, epochOf, hmicro, Int.mul_tdiv_cancel _ (by decide)]

theorem quiet_silent (history : List Row) (index : ℕ) :
    tradeAt Host.ascii quietStrategy history index = .ok none := by
  unfold tradeAt
  split
  · rfl
  · rfl

/-- The quiet run completes over any number of candles. -/
theorem minute_run {n : ℕ} (hn : 20 < n) :
    (∃ run, executeBacktest Host.ascii minuteMarkets (minuteCandles n) quietStrategy
        (minuteParams n) = .ok run) ∧
      (windowCandles Host.ascii minuteMarkets (minuteCandles n) (minuteParams n)).length =
        n - 20 := by
  obtain ⟨hstart, hend⟩ := epochOf_minuteParams n
  have htimeframe : normalize_timeframe Host.ascii (minuteParams n).timeframe = some .m1 := by
    change normalize_timeframe Host.ascii "1m" = some .m1
    decide +kernel
  have hmarket : market Host.ascii minuteMarkets (minuteParams n).symbol =
      some ⟨1, "R_100", true, true⟩ := by
    change market Host.ascii minuteMarkets "R_100" = _
    decide +kernel
  have hwindow : windowCandles Host.ascii minuteMarkets (minuteCandles n) (minuteParams n) =
      (List.range' 20 (n - 20)).map minuteRow := by
    rw [windowCandles_eq htimeframe hmarket, hstart, hend, window_minuteCandles hn.le]
  refine ⟨?_, by rw [hwindow, List.length_map, List.length_range']⟩
  -- the first twenty candles warm up, so the history is read from the first one on
  have hwarm : newest MINIMUM_HISTORY (before (minuteCandles n) 1 .m1 1200) =
      (List.range 20).map minuteRow := by
    rw [before_minuteCandles hn.le]
    decide +kernel
  have hwarmup : warmupStart Host.ascii minuteMarkets (minuteCandles n) (minuteParams n) =
      .ok 0 := by
    refine bind_ok.mpr ⟨.m1, orFail_ok.mpr htimeframe, bind_ok.mpr
      ⟨(List.range 20).map minuteRow, orFail_ok.mpr ?_, ?_⟩⟩
    · rw [hstart, previous_candles, hmarket]
      exact congrArg some hwarm
    · rfl
  have hhistory : readHistory Host.ascii minuteMarkets (minuteCandles n) (minuteParams n) 0 =
      .ok (newest 10000 ((List.range n).map minuteRow)) := by
    have hlater : ¬ (minuteParams n).end_date ≤ 0 * 1000000 := by
      simp only [minuteParams]
      omega
    unfold readHistory
    rw [if_neg hlater]
    refine bind_ok.mpr ⟨.m1, orFail_ok.mpr htimeframe, bind_ok.mpr
      ⟨newest 10000 ((List.range n).map minuteRow), ?_, ?_⟩⟩
    · rw [hend, historic_minuteCandles n hmarket]
    · have henough : ¬ (newest 10000 ((List.range n).map minuteRow)).length ≤ MINIMUM_HISTORY := by
        have hminimum : MINIMUM_HISTORY = 20 := rfl
        rw [length_newest, List.length_map, List.length_range, hminimum]
        omega
      dsimp only
      rw [if_neg henough]
      rfl
  -- the strategy never trades, whatever history it is given
  have htrades : ∀ history, ∃ trades, evaluate Host.ascii quietStrategy history = .ok trades := by
    intro history
    obtain ⟨found, hfound⟩ := exists_mapM_ok.mpr fun index _ => ⟨none, quiet_silent history index⟩
    exact ⟨_, bind_ok.mpr ⟨found, hfound, rfl⟩⟩
  obtain ⟨trades, htrades⟩ := htrades _
  exact ⟨_, bind_ok.mpr ⟨0, hwarmup, bind_ok.mpr ⟨_, hhistory, bind_ok.mpr ⟨trades, htrades, rfl⟩⟩⟩⟩

/-- A window of 9,981 candles is cut. -/
theorem window_truncated : ∃ run,
    executeBacktest Host.ascii minuteMarkets (minuteCandles 10001) quietStrategy
        (minuteParams 10001) = .ok run ∧
      ¬ Covers Host.ascii quietStrategy
        (windowCandles Host.ascii minuteMarkets (minuteCandles 10001) (minuteParams 10001)) run := by
  obtain ⟨⟨run, hrun⟩, hlength⟩ := minute_run (by decide : 20 < 10001)
  refine ⟨run, hrun, fun hcovers => ?_⟩
  have hle := length_of_covers hrun hcovers
  omega

/-- A window of two is covered. -/
theorem window_covered_two : ∃ run,
    executeBacktest Host.ascii minuteMarkets (minuteCandles 22) quietStrategy
        (minuteParams 22) = .ok run ∧
      Covers Host.ascii quietStrategy
        (windowCandles Host.ascii minuteMarkets (minuteCandles 22) (minuteParams 22)) run := by
  obtain ⟨⟨run, hrun⟩, hlength⟩ := minute_run (by decide : 20 < 22)
  exact ⟨run, hrun, (window_covered_iff _ _ _ _ _ _ hrun).mpr (by omega)⟩

end AlgoBot.Backtesting
