import AlgoBot.AiEngine.Dataset

/-!
# No lookahead

What a backtest decides at an index is made of the candles, or of the ticks, up to
it: the features are causal, and RSI and trend look back. A row of the dataset is
made of its window and of what had been observed by then.

* `candleEntry_congr`, `tickEntry_congr`: entries depend on the history up to them.
* `trade_entry`: every trade of a backtest has such an entry.
* `no_lookahead`: neither rows nor entries depend on what comes later.
-/

namespace AlgoBot.Strategies.Lookahead

open AlgoBot.Core AlgoBot.Python AlgoBot.MarketData AlgoBot.Strategies.Parity
open AlgoBot.AiEngine.Dataset (Observations Agree InLoop dataset dataset_ascending featuresAt
  featuresAt_congr getElem?_of_take)

/-- What a backtest enters with. -/
structure Entry where
  signal : String
  price : Double
  epoch : ℤ
  deriving DecidableEq, Repr

/-! ## Candles -/

/-- The entry at the close of a candle; `none` where the strategy does not enter. -/
def candleEntry (h : Host) (np : Sums) (engine : CriteriaEngine) (strategy : Strategy)
    (symbol : String) (candles : List CandleRow) (index : ℕ) : Option Entry := do
  let signal ← backtestSignal h np engine strategy symbol candles index
  let current ← candles[index]?
  if signal ≠ "BUY" ∧ signal ≠ "SELL" then none else some ⟨signal, current.close, current.epoch⟩

section Candles

variable {h : Host} {np : Sums} {engine : CriteriaEngine} {strategy : Strategy} {symbol : String}
  {candles candles' : List CandleRow} {index : ℕ}

/-- The context of a candle is made of the candles up to it. -/
theorem historicContext_congr (hi : index < candles.length) (hi' : index < candles'.length)
    (hsame : candles.take (index + 1) = candles'.take (index + 1)) :
    historicContext np symbol candles index = historicContext np symbol candles' index := by
  have hcurrent : candles[index]? = candles'[index]? :=
    getElem?_of_take hsame (Nat.lt_succ_self index)
  have hfeatures := (causal_basic_features np).getElem?_congr hi hi' hsame
  unfold historicContext
  rw [hcurrent, hfeatures, hsame]

theorem candleEntry_congr (hi : index < candles.length) (hi' : index < candles'.length)
    (hsame : candles.take (index + 1) = candles'.take (index + 1)) :
    candleEntry h np engine strategy symbol candles index =
      candleEntry h np engine strategy symbol candles' index := by
  unfold candleEntry backtestSignal
  rw [historicContext_congr hi hi' hsame, getElem?_of_take hsame (Nat.lt_succ_self index)]

/-- Every trade of a backtest has an entry at its index. -/
theorem trade_entry {trades : List Trade} {t : Trade}
    (hrun : run_backtest h np engine strategy symbol candles = some trades) (ht : t ∈ trades) :
    ∃ index, index + 1 < candles.length ∧ t.index = index + 1 ∧
      candleEntry h np engine strategy symbol candles index =
        some ⟨t.signal, t.entry_price, t.entry_epoch⟩ := by
  unfold run_backtest at hrun
  split at hrun
  · cases hrun
  · -- a trade is of a turn with a signal, and is entered at the candle after it
    obtain ⟨turns, hturns, rfl⟩ := Option.map_eq_some_iff.mp hrun
    obtain ⟨turn, hturn, ht⟩ := List.mem_flatten.mp ht
    obtain ⟨index, hindex, htrades⟩ := exists_turn hturns hturn
    obtain ⟨signal, hsignal, htrades⟩ := Option.bind_eq_some_iff.mp htrades
    split at htrades
    · cases htrades
      cases ht
    · next hdirection =>
      obtain ⟨current, hcurrent, htrades⟩ := Option.bind_eq_some_iff.mp htrades
      obtain ⟨following, _, htrades⟩ := Option.bind_eq_some_iff.mp htrades
      cases htrades
      obtain rfl := List.mem_singleton.mp ht
      refine ⟨index, ?_, rfl, ?_⟩
      · rw [List.mem_range'_1] at hindex
        omega
      · simp [candleEntry, hsignal, hcurrent, hdirection, trade]

end Candles

/-! ## Ticks -/

structure Tick where
  quote : Double
  /-- None if it is not set. -/
  volume : Option Double
  epoch : ℤ

/-- `indicator_data` of a tick. -/
structure TickIndicators where
  sma5 : Double
  sma20 : Double
  ret1 : Double
  range : Double
  rsi : Double
  trend : String
  source : String

/-- The mean of the last values, as far as there are any. -/
def lastMean (np : Sums) (period : ℕ) (history : List Double) : Double :=
  Double.div (np.sum (history.drop (history.length - period)))
    (Double.ofRat (min period history.length : ℕ))

/-- `ret1` of a quote that ends the history. -/
def tickReturn (quote : Double) (history : List Double) : Double :=
  match history.reverse with
  | _ :: before :: _ =>
    if Double.eq before (.fin 0) then .fin 0 else Double.sub (Double.div quote before) (.fin 1)
  | _ => .fin 0

/-- `trend` of a quote that ends the history. -/
def tickTrend (quote : Double) (history : List Double) : String :=
  match history[history.length - 20]? with
  | some base =>
    if Double.lt base quote then "up" else if Double.lt quote base then "down" else "sideways"
  | none => "sideways"

/-- The data of a tick, of the quotes up to it. -/
def tickContext (np : Sums) (symbol : String) (current : Tick) (history : List Double) :
    MarketData × TickIndicators :=
  (⟨symbol, ⟨current.quote, current.quote, current.quote, current.quote,
      current.volume.getD (.fin 0), current.epoch⟩, none⟩,
    ⟨lastMean np 5 history, lastMean np 20 history, tickReturn current.quote history, .fin 0,
      rsi np history, tickTrend current.quote history, "historical_tick"⟩)

/-- The entry at a tick, of the upper case signal of a strategy. -/
def tickEntry (np : Sums) (strategy : MarketData → TickIndicators → Option String)
    (symbol : String) (ticks : List Tick) (index : ℕ) : Option Entry := do
  let current ← ticks[index]?
  let (market, indicators) :=
    tickContext np symbol current ((ticks.take (index + 1)).map Tick.quote)
  let signal ← strategy market indicators
  if signal ≠ "BUY" ∧ signal ≠ "SELL" then none else some ⟨signal, current.quote, current.epoch⟩

theorem tickEntry_congr {np : Sums} {strategy : MarketData → TickIndicators → Option String}
    {symbol : String} {ticks ticks' : List Tick} {index : ℕ}
    (hsame : ticks.take (index + 1) = ticks'.take (index + 1)) :
    tickEntry np strategy symbol ticks index = tickEntry np strategy symbol ticks' index := by
  unfold tickEntry
  rw [getElem?_of_take hsame (Nat.lt_succ_self index), hsame]

/-! ## Both -/

/-- For stored candles that agree up to a candle of the dataset and observations that agree up to
its epoch, the row of the candle has the same features; and for candles or ticks that agree up to
an index, a backtest enters alike there. -/
theorem no_lookahead (h : Host) (np : Sums) (symbol timeframe : String) :
    (∀ feature_vector markets markets' store store' limit limit' candles candles' o o' i,
      dataset h markets store symbol timeframe limit = some candles →
      dataset h markets' store' symbol timeframe limit' = some candles' →
      InLoop candles i → InLoop candles' i →
      candles.take (i + 1) = candles'.take (i + 1) →
      (∀ current, candles[i]? = some current → Agree current.1 o o') →
      featuresAt h np feature_vector o symbol timeframe candles i =
        featuresAt h np feature_vector o' symbol timeframe candles' i) ∧
    (∀ engine strategy candles candles' i, i + 1 < candles.length → i + 1 < candles'.length →
      candles.take (i + 1) = candles'.take (i + 1) →
      candleEntry h np engine strategy symbol candles i =
        candleEntry h np engine strategy symbol candles' i) ∧
    ∀ strategy ticks ticks' i, i + 1 < ticks.length → i + 1 < ticks'.length →
      ticks.take (i + 1) = ticks'.take (i + 1) →
      tickEntry np strategy symbol ticks i = tickEntry np strategy symbol ticks' i := by
  refine ⟨?_, ?_, ?_⟩
  · intro feature_vector markets markets' store store' limit limit' candles candles' o o' i
      hdataset hdataset' hi hi' hsame hagree
    exact featuresAt_congr (dataset_ascending hdataset) (dataset_ascending hdataset') hi hi' hsame
      hagree
  · intro engine strategy candles candles' i hi hi' hsame
    exact candleEntry_congr (Nat.lt_of_succ_lt hi) (Nat.lt_of_succ_lt hi') hsame
  · intro strategy ticks ticks' i _ _ hsame
    exact tickEntry_congr hsame

/-! ### The last candle -/

/-- A candle that closes as it opens. -/
def flat (close : ℚ) : Candle := ⟨close, close, close, close, 1, .deriv_candles⟩

/-- Candles of 251 minutes, the last of which closes elsewhere. -/
def minutes (last : ℚ) : List (ℤ × Candle) :=
  (List.range 251).map fun k : ℕ => (60 * k, flat (if k = 250 then last else 1))

/-- The store of them. -/
def minuteStore (last : ℚ) : Candles where
  entries := (List.range 251).map fun k : ℕ =>
    ⟨⟨0, .m1, 60 * k⟩, flat (if k = 250 then last else 1)⟩
  nodupKeys := by
    have hkeys : ((List.range 251).map fun k : ℕ =>
        (⟨⟨0, .m1, 60 * k⟩, flat (if k = 250 then last else 1)⟩ : (_ : Bar) × Candle)).keys =
          (List.range 251).map fun k : ℕ => (⟨0, .m1, 60 * k⟩ : Bar) := by
      rw [List.keys, List.map_map]
      rfl
    rw [List.NodupKeys, hkeys]
    refine List.nodup_range.map fun a b hab => ?_
    have hepoch := congrArg Bar.epoch hab
    simp only at hepoch
    omega

def volatility100 : List MarketSymbol := [⟨0, "R_100", true, true⟩]

/-- No observations, and news of the second after the last candle but one. -/
def quiet : Observations := ⟨[], [], [], []⟩

def laterNews : Observations :=
  ⟨[], [], [⟨"R_100", 14941000000, .fin 1, .fin 1, .fin 0⟩], []⟩

/-- The window's closes. -/
def closes (window : List (ℤ × Candle)) : Option (List Double) :=
  some (window.map fun row => Double.ofRat row.2.close)

/-- The last row sees neither the last candle nor the news. -/
theorem last_candle_unseen :
    dataset Host.ascii volatility100 (minuteStore 1) "R_100" "1m" 5000 = some (minutes 1) ∧
      dataset Host.ascii volatility100 (minuteStore 2) "R_100" "1m" 5000 = some (minutes 2) ∧
      featuresAt Host.ascii inOrder closes quiet "R_100" "1m" (minutes 1) 249 =
        featuresAt Host.ascii inOrder closes laterNews "R_100" "1m" (minutes 2) 249 := by
  have hone : dataset Host.ascii volatility100 (minuteStore 1) "R_100" "1m" 5000 =
      some (minutes 1) := by decide +kernel
  have htwo : dataset Host.ascii volatility100 (minuteStore 2) "R_100" "1m" 5000 =
      some (minutes 2) := by decide +kernel
  have hloop : ∀ last, InLoop (minutes last) 249 := by
    intro last
    have hlength : (minutes last).length = 251 := by
      rw [minutes, List.length_map, List.length_range]
    rw [InLoop, hlength]
    decide
  have hsame : (minutes 1).take 250 = (minutes 2).take 250 := by decide +kernel
  have hcurrent : (minutes 1)[249]? = some (14940, flat 1) := by decide +kernel
  refine ⟨hone, htwo, (no_lookahead Host.ascii inOrder "R_100" "1m").1 closes _ _ _ _ _ _ _ _ quiet
    laterNews 249 hone htwo (hloop 1) (hloop 2) hsame ?_⟩
  intro current hfound
  obtain rfl := Option.some.inj (hcurrent.symm.trans hfound)
  exact ⟨rfl, rfl, rfl, rfl⟩

end AlgoBot.Strategies.Lookahead
