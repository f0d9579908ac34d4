import Mathlib.Data.List.AList
import Mathlib.Data.List.Sort
import Mathlib.Data.Rat.Defs
import AlgoBot.Python.Value

/-!
# Candles

The candles of the broker catalogue, one for each market, timeframe and epoch,
and the queries of `ResearchDataService` over them.

* `pairwise_after`: the candles after an epoch, in the order of their epochs.
* `mem_after`: they are the stored ones that research reads.
-/

namespace AlgoBot.MarketData

open AlgoBot.Core AlgoBot.Python

/-! ## Timeframes -/

/-- The keys of `TIMEFRAMES`. -/
inductive Timeframe
  | tick
  | s1
  | s5
  | s15
  | s30
  | m1
  | m2
  | m3
  | m5
  | m10
  | m15
  | m30
  | h1
  | h2
  | h4
  | h8
  | d1
  deriving DecidableEq, Repr

namespace Timeframe

def name : Timeframe → String
  | tick => "tick"
  | s1 => "1s"
  | s5 => "5s"
  | s15 => "15s"
  | s30 => "30s"
  | m1 => "1m"
  | m2 => "2m"
  | m3 => "3m"
  | m5 => "5m"
  | m10 => "10m"
  | m15 => "15m"
  | m30 => "30m"
  | h1 => "1h"
  | h2 => "2h"
  | h4 => "4h"
  | h8 => "8h"
  | d1 => "1d"

/-- The values of `TIMEFRAMES`. -/
def seconds : Timeframe → ℕ
  | tick => 0
  | s1 => 1
  | s5 => 5
  | s15 => 15
  | s30 => 30
  | m1 => 60
  | m2 => 120
  | m3 => 180
  | m5 => 300
  | m10 => 600
  | m15 => 900
  | m30 => 1800
  | h1 => 3600
  | h2 => 7200
  | h4 => 14400
  | h8 => 28800
  | d1 => 86400

/-- `TIMEFRAMES`, in its order. -/
def all : List Timeframe :=
  [tick, s1, s5, s15, s30, m1, m2, m3, m5, m10, m15, m30, h1, h2, h4, h8, d1]

end Timeframe

def TIMEFRAME_ALIASES : List (String × String) :=
  [("M1", "1m"), ("M2", "2m"), ("M3", "3m"), ("M5", "5m"), ("M10", "10m"), ("M15", "15m"),
    ("M30", "30m"), ("H1", "1h"), ("H2", "2h"), ("H4", "4h"), ("H8", "8h"), ("D1", "1d")]

/-- `normalize_timeframe`; `none` is its `ValueError`. -/
def normalize_timeframe (host : Host) (timeframe : String) : Option Timeframe :=
  let value := strip (if timeframe = "" then "1m" else timeframe)
  let canonical := (TIMEFRAME_ALIASES.lookup (upper host value)).getD (host.lower value)
  Timeframe.all.find? fun timeframe => timeframe.name == canonical

/-! ## Rows -/

inductive Source
  | tick_stream
  | deriv_candles
  | connected_broker
  | other (name : String)
  deriving DecidableEq, Repr

structure MarketSymbol where
  pk : ℕ
  symbol : String
  is_active : Bool
  is_tradable : Bool
  deriving DecidableEq, Repr

/-- What is unique of a candle. -/
@[ext] structure Bar where
  market : ℕ
  timeframe : Timeframe
  epoch : ℤ
  deriving DecidableEq, Repr

structure Candle where
  opening : ℚ
  high : ℚ
  low : ℚ
  close : ℚ
  volume : ℚ
  source : Source
  deriving DecidableEq, Repr

abbrev Candles := AList fun _ : Bar => Candle

/-! ## Queries -/

/-- `symbol__iexact`. -/
def sameSymbol (host : Host) (a b : String) : Bool := upper host a == upper host b

/-- `catalogue(active=True, tradable=True, symbol=symbol).first()`, of the markets in the order of
the catalogue. -/
def catalogue (host : Host) (markets : List MarketSymbol) (symbol : String) : Option MarketSymbol :=
  markets.find? fun row =>
    row.is_active && row.is_tradable && (symbol = "" || sameSymbol host row.symbol (strip symbol))

/-- `ResearchDataService.market`; `none` is its `ValueError`. -/
def market (host : Host) (markets : List MarketSymbol) (symbol : String) : Option MarketSymbol :=
  catalogue host markets (upper host (strip symbol))

/-- `_broker_sourced`. -/
def broker_sourced (timeframe : Timeframe) (c : Candle) : Bool :=
  if timeframe = .tick then c.source = .connected_broker
  else c.source = .deriv_candles || c.source = .connected_broker

/-- The candles of a market that research reads, after the epoch, the earliest first. -/
def after (candles : Candles) (market : ℕ) (timeframe : Timeframe) (epoch : ℤ) :
    List (ℤ × Candle) :=
  ((candles.entries.filter fun row =>
      row.1.market = market && row.1.timeframe = timeframe && epoch < row.1.epoch &&
        broker_sourced timeframe row.2).map fun row => (row.1.epoch, row.2)).insertionSort
    fun a b => a.1 ≤ b.1

/-- `ResearchDataService.next_candles` at a canonical timeframe, which is its own canonical one;
`none` is its `ValueError`. -/
def next_candles (host : Host) (markets : List MarketSymbol) (candles : Candles) (symbol : String)
    (timeframe : Timeframe) (after_epoch : ℤ) (limit : ℕ) : Option (List (ℤ × Candle)) :=
  (market host markets symbol).map fun row =>
    (after candles row.pk timeframe after_epoch).take (min (max limit 1) 10000)

/-! ## Their results -/

variable {candles : Candles} {pk : ℕ} {timeframe : Timeframe} {epoch e : ℤ} {c : Candle}

theorem mem_after : (e, c) ∈ after candles pk timeframe epoch ↔
    candles.lookup ⟨pk, timeframe, e⟩ = some c ∧ epoch < e ∧ broker_sourced timeframe c = true := by
  rw [after, List.mem_insertionSort, List.mem_map]
  constructor
  · rintro ⟨⟨bar, c'⟩, hmem, heq⟩
    obtain ⟨hentry, hrow⟩ := List.mem_filter.mp hmem
    simp only [Bool.and_eq_true, decide_eq_true_eq] at hrow
    obtain ⟨⟨⟨hmarket, htimeframe⟩, hepoch⟩, hsource⟩ := hrow
    obtain ⟨rfl, rfl⟩ := Prod.mk.inj heq
    have hbar : bar = ⟨pk, timeframe, bar.epoch⟩ := by rw [← hmarket, ← htimeframe]
    rw [hbar] at hentry
    exact ⟨AList.mem_lookup_iff.mpr hentry, hepoch, hsource⟩
  · rintro ⟨hlookup, hepoch, hsource⟩
    refine ⟨⟨⟨pk, timeframe, e⟩, c⟩, List.mem_filter.mpr ⟨AList.mem_lookup_iff.mp hlookup, ?_⟩, rfl⟩
    simp [hepoch, hsource]

/-- Rows of one market and timeframe, sorted by their epochs, have distinct epochs. -/
theorem pairwise_rows {keep : ((_ : Bar) × Candle) → Bool}
    (hkeep : ∀ row, keep row = true → row.1.market = pk ∧ row.1.timeframe = timeframe) :
    (((candles.entries.filter keep).map fun row => (row.1.epoch, row.2)).insertionSort
      fun a b => a.1 ≤ b.1).Pairwise fun a b => a.1 < b.1 := by
  have hsorted := List.pairwise_insertionSort (fun a b : ℤ × Candle => a.1 ≤ b.1)
    ((candles.entries.filter keep).map fun row => (row.1.epoch, row.2))
  have hdistinct : (((candles.entries.filter keep).map fun row => (row.1.epoch, row.2)).insertionSort
      fun a b => a.1 ≤ b.1).Pairwise fun a b => a.1 ≠ b.1 := by
    refine (List.perm_insertionSort _ _).symm.pairwise ?_ fun h => h.symm
    rw [List.pairwise_map]
    refine ((List.nodupKeys_iff_pairwise.mp candles.nodupKeys).filter _).imp_of_mem ?_
    intro a b ha hb hne hepoch
    obtain ⟨hmarket, htimeframe⟩ := hkeep a (List.mem_filter.mp ha).2
    obtain ⟨hmarket', htimeframe'⟩ := hkeep b (List.mem_filter.mp hb).2
    exact hne (Bar.ext (hmarket.trans hmarket'.symm) (htimeframe.trans htimeframe'.symm) hepoch)
  exact hsorted.and hdistinct |>.imp fun h => lt_of_le_of_ne h.1 h.2

theorem pairwise_after :
    (after candles pk timeframe epoch).Pairwise fun a b => a.1 < b.1 := by
  refine @pairwise_rows candles pk timeframe _ (fun row hrow => ?_)
  simp only [Bool.and_eq_true, decide_eq_true_eq] at hrow
  exact hrow.1.1

end AlgoBot.MarketData
