import AlgoBot.Execution.Models
import AlgoBot.Execution.TradeHistory

/-!
# A previewed order and the order that is placed

`OrderViewSet.preview` lets the broker price a proposal, and `OrderViewSet.create` sends the
same payload down to `DerivAdapter.place_order`, which builds a proposal of its own from the
order and its routing context.

* `proposal_agrees_iff`: the payloads with a ready preview for which the two proposals are
  the same.
* `default_not_placed`: a preview with the default duration, and an order that raises.

The account, the broker's replies and the settings are the same for both; the quotas, the
live-trading gate and the risk engine on the way of the order are taken to let it through.
-/

namespace AlgoBot.Preview

open AlgoBot.Core AlgoBot.Python

/-! ## Payloads -/

/-- A `BrokerAccount` with its broker, `account_type` as the property gives it. -/
structure BrokerAccount where
  id : ℕ
  user_id : ℕ
  account_id : String
  currency : String
  account_type : String
  balance : ℚ
  active : Bool
  broker_active : Bool
  credentials_ready : Bool
  is_connected : Bool
  broker_type : String
  broker_name : String
  is_live_trading_supported : Bool
deriving DecidableEq

def BrokerAccount.is_connection_eligible (account : BrokerAccount) : Bool :=
  account.active && account.broker_active && account.credentials_ready && account.is_connected

/-- The fields of the serializer: what they take a value for, or refuse. `int()` of a value that
the integer field takes is the same number, where `int()` takes the value. -/
structure Fields (h : Host) where
  account : Value → Option BrokerAccount
  char : ℕ → Value → Option String
  integer : Value → Option ℤ
  choice : List String → Value → Option String
  decimal : Value → Option Dec
  /-- The fields that neither view looks at. -/
  others : Dict → Bool
  char_eq : ∀ n v s, char n v = some s → s = strip (v.toStr h)
  integer_eq : ∀ v n m, integer v = some n → v.toInt h = .ok m → m = n
  choice_eq : ∀ choices v s, choice choices v = some s → v = .str s ∧ s ∈ choices

def DIRECTIONS : List String := ["buy", "sell"]

def ORDER_TYPES : List String :=
  ["market", "limit", "stop", "stop_limit", "take_profit", "stop_loss", "trailing_stop"]

/-- `serializer.validated_data`; fields that are not sent are blank. -/
structure Validated where
  broker_account : BrokerAccount
  symbol : String
  strategy : String
  direction : String
  order_type : String
  contract_type : String
  duration : Option ℤ
  duration_unit : String
  stake : Dec
deriving DecidableEq

variable {h : Host} (F : Fields h)

/-- A field that need not be sent. -/
def optional (data : Dict) (key : String) (clean : Value → Option String) : Option String :=
  if data.contains key then clean (data.get key) else some ""

/-- `IntegerField(required=False, allow_null=True, min_value=1)`. -/
def cleanDuration (data : Dict) : Option (Option ℤ) :=
  match data.get "duration" with
  | .none => some none
  | v =>
    match F.integer v with
    | some n => if 1 ≤ n then some (some n) else none
    | none => none

/-- `validate_direction` and `validate_order_type`. -/
def cleanWord (h : Host) (words : List String) (s : String) : Option String :=
  let value := h.lower (strip s)
  if value ∈ words then some value else none

/-- `serializer.is_valid(...)` for a user; `none` is a `ValidationError`. -/
def clean (user_id : ℕ) (data : Dict) : Option Validated := do
  let account ← F.account (data.get "broker_account")
  let symbol ← F.char 40 (data.get "symbol")
  let strategy ← optional data "strategy" (F.char 120)
  let direction ← (F.char 12 (data.get "direction")).bind (cleanWord h DIRECTIONS)
  let order_type ← (F.char 32 (data.get "order_type")).bind (cleanWord h ORDER_TYPES)
  let contract_type ← optional data "contract_type" (F.char 40)
  let duration ← cleanDuration F data
  let duration_unit ← optional data "duration_unit" (F.choice ["", "s", "m", "h", "d", "t"])
  let stake ← F.decimal (data.get "stake")
  if account.user_id = user_id ∧ account.active = true ∧ account.broker_active = true ∧
      F.others data = true then
    some ⟨account, symbol, strategy, direction, order_type, contract_type, duration, duration_unit,
      stake⟩
  else none

/-! ## The broker -/

/-- Why a call to the broker gave nothing. -/
inductive BrokerFailure where
  | authentication
  | connection
  | order (detail : String)
  | timeout
  | other

/-- The proposal a payload asks for, with basis `stake`. A float is the number its `repr` reads,
or `none` where it is not finite. -/
structure Proposal where
  amount : Option ℚ
  contract_type : String
  currency : String
  duration : ℤ
  duration_unit : Value
  underlying_symbol : String
  barrier : Option String
  multiplier : Option (Option ℚ)
  growth_rate : Option ℚ

/-- The order in memory when it is placed. -/
structure Order where
  symbol : String
  stake : Dec
  direction : String
  order_type : String
  contract_type : String
  duration : Option ℤ
  duration_unit : String
  validation_context : Dict

/-- What both views see besides the payload. `float` and `parseFloat` are `float()` of a decimal
and of any value (`none` where that raises), `fits` whether the database takes an order. -/
structure World where
  plan : String
  orderAllowed : Bool
  liveAllowed : Bool
  ALLOW_LIVE_TRADING : Bool
  risk : Dec → Except String Unit
  max_age : ℤ
  contracts_for : Except BrokerFailure (List Value)
  tick : Except BrokerFailure Dict
  propose : Proposal → Except BrokerFailure Dict
  quoted_at : ℚ
  priced_at : ℚ
  float : Dec → Option ℚ
  parseFloat : Value → Option (Option ℚ)
  fits : Order → Bool

variable (h) in
/-- `str(getattr(self.account, "currency", None) or "USD").upper()`. -/
def currencyOf (account : BrokerAccount) : String :=
  upper h (if account.currency = "" then "USD" else account.currency)

/-- `get_trade_capabilities`. -/
def tradeCapabilities (available : List Value) : List Dict :=
  available.filterMap fun item =>
    match item with
    | .dict kvs => if (Dict.get kvs "contract_type").truthy then some kvs else none
    | _ => none

/-- The rate of an accumulator: 1%. -/
def growthRate : ℚ := 1 / 100

/-- A proposal with the broker's price. -/
structure Priced where
  proposal : Proposal
  proposal_id : String
  ask_price : Value
  payout : Value

def DURATION_UNITS : List String := ["s", "m", "h", "d", "t"]

/-- `str(duration_unit or "s").lower().strip()`. -/
def previewUnit (h : Host) (duration_unit : String) : String :=
  strip (h.lower (if duration_unit = "" then "s" else duration_unit))

/-- `get_order_preview`. -/
def getOrderPreview (h : Host) (w : World) (account : BrokerAccount) (symbol contract_type : String)
    (amount : Dec) (duration : ℤ) (duration_unit : String) : Except BrokerFailure Priced := do
  let symbol := strip symbol
  let contract_type := strip (upper h contract_type)
  let amount_value := w.float amount
  let unit := previewUnit h duration_unit
  if symbol = "" ∨ contract_type = "" then
    throw (.order "A symbol and contract type are required for a proposal")
  else if amount_value.all (· ≤ 0) ∨ duration ≤ 0 ∨ unit ∉ DURATION_UNITS then
    throw (.order "The proposal stake, duration or duration unit is invalid")
  else
    let payload : Proposal :=
      { amount := amount_value
        contract_type := contract_type
        currency := currencyOf h account
        duration := duration
        duration_unit := .str unit
        underlying_symbol := symbol
        barrier := none
        multiplier := none
        growth_rate := if contract_type = "ACCU" then some growthRate else none }
    let proposal ← w.propose payload
    let id := proposal.get "id"
    match id.truthy, proposal.get "ask_price", proposal.get "payout" with
    | false, _, _ | _, .none, _ | _, _, .none =>
      throw (.order "Deriv returned an incomplete proposal; no order was submitted")
    | true, ask_price, payout => return ⟨payload, id.toStr h, ask_price, payout⟩

/-! ## The preview -/

/-- A preview that is not ready. -/
structure Rejection where
  code : String
  detail : String
  status : ℕ

def require (ok : Bool) (code detail : String) (status : ℕ) : Except Rejection Unit :=
  if ok then .ok () else .error ⟨code, detail, status⟩

/-- A value, or the rejection of an exception. -/
def orReject {α : Type} (x : Option α) (r : Rejection) : Except Rejection α :=
  match x with
  | some a => .ok a
  | none => .error r

/-- `except Exception` around the whole view. -/
def internalError : Rejection :=
  ⟨"PREVIEW_INTERNAL_ERROR", "Pre-trade preview could not be completed safely. " ++
    "Check market/broker status and retry.", 503⟩

variable (h) in
/-- `_environment`. -/
def environmentOf (account : BrokerAccount) : String := strip (h.lower account.account_type)

/-- The account, the quotas and the environment. -/
def admitAccount (h : Host) (w : World) (user_id : ℕ) (account : BrokerAccount) :
    Except Rejection Unit := do
  require (account.user_id == user_id) "BROKER_ACCOUNT_REQUIRED"
    "Select a connected broker account." 409
  require account.is_connection_eligible "BROKER_ACCOUNT_NOT_READY"
    ("The selected broker account is not connected or its credentials " ++ "are not usable.") 409
  require w.orderAllowed "ORDER_LIMIT_REACHED"
    ("Your " ++ w.plan ++ " order allowance has been reached for today.") 429
  let environment := environmentOf h account
  require (environment != "") "ACCOUNT_ENVIRONMENT_UNVERIFIED"
    "Broker account environment has not been verified." 409
  require (environment != "real" || account.is_live_trading_supported) "LIVE_BROKER_UNSUPPORTED"
    "The selected broker is not live-trading capable." 409
  require (environment != "real" || w.liveAllowed) "LIVE_ORDER_LIMIT_REACHED"
    ("Your " ++ w.plan ++ " live-trading allowance has been reached for today.") 429
  require (environment != "real" || w.ALLOW_LIVE_TRADING) "LIVE_TRADING_DISABLED"
    "Live-money trading is disabled by platform configuration." 409

/-- A finite number above zero. -/
def isPositive (d : Dec) : Bool :=
  match d.toRat with
  | some q => 0 < q
  | none => false

/-- The stake, against the risk profile. -/
def checkStake (w : World) (stake : Dec) : Except Rejection Unit := do
  require (isPositive stake) "PREVIEW_RISK_REJECTED" "Stake must be greater than zero" 409
  match w.risk stake with
  | .ok () => return ()
  | .error detail =>
    throw ⟨"PREVIEW_RISK_REJECTED",
      if detail = "" then "The stake failed pre-trade risk validation." else detail, 409⟩

/-- `expected_direction` of the preview. -/
def previewDirections : List (String × String) :=
  [("ACCU", "BUY"), ("MULTUP", "BUY"), ("MULTDOWN", "SELL"), ("CALL", "BUY"), ("PUT", "SELL"),
   ("RISE", "BUY"), ("FALL", "SELL"), ("DIGITOVER", "BUY"), ("DIGITUNDER", "SELL"),
   ("DIGITMATCH", "BUY"), ("DIGITDIFF", "SELL"), ("DIGITEVEN", "BUY"), ("DIGITODD", "SELL"),
   ("NOTOUCH", "SELL"), ("ONETOUCH", "BUY"), ("TURBOSLONG", "BUY"), ("TURBOSSHORT", "SELL"),
   ("RUNHIGH", "BUY"), ("RUNLOW", "SELL"), ("EXPIRYRANGE", "BUY"), ("EXPIRYMISS", "SELL")]

/-- What a failed look at the market becomes. -/
def marketRejection : BrokerFailure → Rejection
  | .timeout => ⟨"BROKER_MARKET_DATA_TIMEOUT",
      "The selected broker quote timed out. No order was submitted; " ++
        "retry only after the live feed recovers.", 503⟩
  | _ => ⟨"BROKER_MARKET_DATA_UNAVAILABLE",
      "The selected broker could not verify contract availability and a live quote. " ++
        "No order was submitted.", 503⟩

/-- The broker offers the contract, and for the direction. -/
def checkContract (h : Host) (w : World) (symbol contract_type direction : String) :
    Except Rejection Unit := do
  let available ← w.contracts_for.mapError marketRejection
  let supported := (tradeCapabilities available).map fun item =>
    upper h (strip (textOr h (item.get "contract_type") ""))
  require (supported.contains contract_type) "BROKER_CONTRACT_UNAVAILABLE"
    ("The selected broker does not currently offer " ++ contract_type ++ " for " ++ symbol ++ ".")
    409
  match previewDirections.lookup contract_type with
  | some expected =>
    require (direction == expected) "BROKER_CONTRACT_DIRECTION_MISMATCH"
      (contract_type ++ " requires " ++ expected ++
        "; select the matching direction and preview again.") 409
  | none => return ()

structure Quote where
  price : Dec
  bid : Option Dec
  ask : Option Dec
  epoch : ℤ

/-- The age is outside the window. -/
def stale (w : World) (age : ℚ) : Bool := age < -5 || w.max_age < age

def invalidQuote : Rejection :=
  ⟨"BROKER_MARKET_DATA_INVALID",
    "The broker returned an invalid or incomplete live quote. No order was submitted.", 502⟩

/-- A price of the quote that may be missing. -/
def priceOf (h : Host) (v : Value) : Except Rejection (Option Dec) :=
  if TradeHistory.isBlank v then .ok none
  else
    match decimalOfText h (v.toStr h) with
    | some d => .ok (some d)
    | none => .error invalidQuote

/-- `int(...)`, where a `TypeError` or a `ValueError` is caught near by. -/
def intOr (h : Host) (r : Rejection) (v : Value) : Except Rejection ℤ :=
  match v.toInt h with
  | .ok n => .ok n
  | .error .OverflowError => .error internalError
  | .error _ => .error r

def checkQuote (h : Host) (w : World) (symbol : String) (tick : Dict) : Except Rejection Quote := do
  let price ← orReject (decimalOfText h ((tick.get "quote").toStr h)) invalidQuote
  let epoch ← intOr h invalidQuote (tick.get "epoch")
  let age := w.quoted_at - epoch
  require (strip symbol == symbol && isPositive price) invalidQuote.code invalidQuote.detail
    invalidQuote.status
  require (!stale w age) "BROKER_MARKET_DATA_STALE"
    ("The broker quote is stale or has an invalid timestamp (" ++ toString (max 0 age.floor) ++
      "s old; limit " ++ toString w.max_age ++ "s). No order was submitted.") 409
  let bid ← priceOf h (tick.get "bid")
  let ask ← priceOf h (tick.get "ask")
  require (bid.all isPositive && ask.all isPositive) invalidQuote.code invalidQuote.detail
    invalidQuote.status
  require (!(match bid.bind Dec.toRat, ask.bind Dec.toRat with
      | some bid, some ask => ask < bid
      | _, _ => false)) invalidQuote.code invalidQuote.detail invalidQuote.status
  return ⟨price, bid, ask, epoch⟩

/-- What a proposal that is not priced becomes. -/
def proposalRejection : BrokerFailure → Rejection
  | .order detail => ⟨"BROKER_PROPOSAL_REJECTED", detail, 409⟩
  | .timeout => ⟨"BROKER_PROPOSAL_TIMEOUT",
      "The broker payout estimate timed out. No order was submitted.", 503⟩
  | _ => ⟨"BROKER_PROPOSAL_UNAVAILABLE",
      "The selected broker could not price this contract. No order was submitted.", 503⟩

def invalidProposal : Rejection :=
  ⟨"BROKER_PROPOSAL_INVALID",
    "The broker returned an invalid payout estimate. No order was submitted.", 502⟩

/-- The cost and the payout of a proposal that is the one that was asked for. -/
def checkProposal (h : Host) (account : BrokerAccount) (symbol contract_type : String)
    (duration : ℤ) (duration_unit : String) (priced : Priced) : Except Rejection (Dec × Dec) := do
  let proposal := priced.proposal
  let cost ← orReject (decimalOfText h (priced.ask_price.toStr h)) invalidProposal
  let payout ← orReject (decimalOfText h (priced.payout.toStr h)) invalidProposal
  require (priced.proposal_id != "" && strip proposal.underlying_symbol == symbol &&
    upper h (strip proposal.contract_type) == contract_type &&
    upper h proposal.currency == currencyOf h account && proposal.duration == duration &&
    strip (h.lower (textOr h proposal.duration_unit "")) == duration_unit &&
    isPositive cost && isPositive payout)
    invalidProposal.code invalidProposal.detail invalidProposal.status
  return (cost, payout)

/-- What the ready preview says; its gates are constants. -/
structure Ready where
  account : BrokerAccount
  environment : String
  symbol : String
  contract_type : String
  direction : String
  order_type : String
  stake : Dec
  duration : ℤ
  duration_unit : String
  strategy : String
  quote : Quote
  priced : Priced
  proposal_cost : Dec
  payout : Dec

/-- `data.get('duration') or 60`. -/
def previewDuration : Option ℤ → ℤ
  | some n => if n = 0 then 60 else n
  | none => 60

/-- `preview`, with the adapter of Deriv, the only one that prices proposals. -/
def preview (w : World) (user_id : ℕ) (data : Dict) : Except Rejection Ready := do
  let v ← orReject (clean F user_id data) internalError
  let account := v.broker_account
  admitAccount h w user_id account
  let symbol := strip v.symbol
  let contract_type := upper h (strip v.contract_type)
  let direction := upper h (strip v.direction)
  require (symbol != "") "MARKET_SYMBOL_REQUIRED" "Select a broker instrument." 400
  require (contract_type != "") "BROKER_CONTRACT_REQUIRED"
    "Select a broker-supported contract type before previewing." 409
  let duration := previewDuration v.duration
  let duration_unit := previewUnit h v.duration_unit
  checkStake w v.stake
  checkContract h w symbol contract_type direction
  let tick ← w.tick.mapError marketRejection
  let quote ← checkQuote h w symbol tick
  let priced ← (getOrderPreview h w account symbol contract_type v.stake duration
    duration_unit).mapError proposalRejection
  let (proposal_cost, payout) ←
    checkProposal h account symbol contract_type duration duration_unit priced
  require (!stale w (w.priced_at - quote.epoch)) "BROKER_MARKET_DATA_STALE"
    ("The broker quote became stale while the payout estimate was being verified. " ++
      "No order was submitted.") 409
  return {
    account := account
    environment := environmentOf h account
    symbol := symbol
    contract_type := contract_type
    direction := h.lower direction
    order_type := v.order_type
    stake := v.stake
    duration := duration
    duration_unit := duration_unit
    strategy := v.strategy
    quote := quote
    priced := priced
    proposal_cost := proposal_cost
    payout := payout }

/-! ## The order that is placed -/

/-- What stands between a payload and its proposal. -/
inductive PlaceError where
  | ValidationError
  | AttributeError
  | DataError
  | OrderValidationError (errors : List String)
  | BrokerOrderError (message : String)
  | TypeError
  | ValueError
  | OverflowError
  | broker (failure : BrokerFailure)

/-- `_safe_client_context`; `none` is an `AttributeError`. -/
def safeClientContext (h : Host) (data : Dict) (account : BrokerAccount) : Option Dict := do
  let context ← Execution.orEmpty (data.firstOf ["routing_context", "validation_context"])
  return [
    ("broker_source", .str "connected_broker"),
    ("contract_type", .str (upper h (strip (textOr h (data.get "contract_type") "")))),
    ("underlying_symbol", .str (strip (textOr h (data.get "symbol") ""))),
    ("selected_strategy", (data.get "strategy").or .none),
    ("trigger", .str "manual_terminal_command"),
    ("execution_mode", .str "manual_command"),
    ("signal_id", context.get "signal_id"),
    ("authoritative_account_id", .int account.id),
    ("currency", .str (upper h account.currency)),
    ("account_type", .str (environmentOf h account)),
    ("duration", data.get "duration"),
    ("duration_unit", (data.get "duration_unit").or (.str ""))]

/-- The order `place_manual_order` creates, with the context it adds to. -/
def createOrder (h : Host) (data : Dict) (v : Validated) : Option Order := do
  let context ← safeClientContext h data v.broker_account
  let context := context.insert "risk_context" (.dict [])
  return {
    symbol := v.symbol
    stake := v.stake
    direction := v.direction
    order_type := v.order_type
    contract_type := v.contract_type
    duration := v.duration
    duration_unit := v.duration_unit
    validation_context := context.insert "execution_mode" (.str "manual_command") }

/-- `OrderValidationService.validate`: what it finds wrong. -/
def validate (h : Host) (account : BrokerAccount) (order : Order) : List String :=
  let duration_unit := h.lower (strip order.duration_unit)
  let requested_currency := upper h (textOr h (order.validation_context.get "currency") "")
  let account_currency := upper h account.currency
  let checks : List (Bool × String) := [
    (order.symbol = "", "Symbol exists validation failed"),
    (!account.is_connected, "Broker connected validation failed"),
    (order.stake.toRat.any (· ≤ 0), "Stake within limits validation failed"),
    (h.lower account.broker_type = "deriv" && strip order.contract_type = "",
      "Broker contract type is required for Deriv execution"),
    (order.duration.isSome && duration_unit = "",
      "Duration unit is required when a duration is supplied"),
    (duration_unit != "" && order.duration.isNone,
      "Duration is required when a duration unit is supplied"),
    (order.duration.any (· ≤ 0), "Duration must be positive"),
    (requested_currency != "" && account_currency != "" && requested_currency != account_currency,
      "Order currency does not match the authoritative broker account currency"),
    (order.stake.toRat.any (account.balance < ·), "Sufficient balance validation failed"),
    (!ORDER_TYPES.contains order.order_type,
      "Contract supported/order type validation failed")]
  (checks.filter Prod.fst).map Prod.snd

/-- `expected_direction` of the adapter. -/
def adapterDirections : List (String × String) :=
  [("ACCU", "BUY"), ("MULTUP", "BUY"), ("MULTDOWN", "SELL"), ("CALL", "BUY"), ("PUT", "SELL"),
   ("RISE", "BUY"), ("FALL", "SELL")]

/-- The contract an order without one gets from its direction. -/
def directionContracts : List (String × String) :=
  [("BUY", "CALL"), ("SELL", "PUT"), ("CALL", "CALL"), ("PUT", "PUT"), ("RISE", "RISE"),
   ("FALL", "FALL")]

/-- `requested_contract`. -/
def requestedContract (persisted routed direction : String) : String :=
  let requested := if persisted = "" then routed else persisted
  if requested = "" then (directionContracts.lookup direction).getD ""
  else if requested = "BUY" then "CALL"
  else if requested = "SELL" then "PUT"
  else requested

/-- `int(...)` of a routing value. -/
def placeInt (h : Host) (v : Value) : Except PlaceError ℤ :=
  match v.toInt h with
  | .ok n => .ok n
  | .error .TypeError => .error .TypeError
  | .error .OverflowError => .error .OverflowError
  | .error _ => .error .ValueError

/-- `proposal_payload["growth_rate"]`, for an accumulator. -/
def placeGrowthRate (w : World) (requested_contract : String) (routing : Dict) :
    Except PlaceError (Option ℚ) :=
  if requested_contract = "ACCU" then
    let rate := if routing.contains "growth_rate" then
        (w.parseFloat (routing.get "growth_rate")).getD (some growthRate)
      else some growthRate
    if rate ∈ [1, 2, 3, 4, 5].map fun n : ℚ => some (n * growthRate) then .ok rate
    else .error (.BrokerOrderError "Deriv accumulator growth rate must be 1%, 2%, 3%, 4% or 5%")
  else .ok none

/-- `raise BrokerOrderError(...)` where a check fails. -/
def demand (ok : Bool) (message : String) : Except PlaceError Unit :=
  if ok then .ok () else .error (.BrokerOrderError message)

/-- `float(routing["multiplier"])`, where there is one. -/
def placeMultiplier (w : World) : Value → Except PlaceError (Option (Option ℚ))
  | .none => .ok none
  | v =>
    match w.parseFloat v with
    | some q => .ok (some q)
    | none => .error .ValueError

/-- The proposal that `place_order` sends. -/
def placeOrder (h : Host) (w : World) (account : BrokerAccount) (order : Order) :
    Except PlaceError Proposal := do
  let routing := order.validation_context
  demand (environmentOf h account != "real" || w.ALLOW_LIVE_TRADING)
    "Live-money trading is disabled by platform configuration"
  demand (h.lower (if order.order_type = "" then "market" else order.order_type) == "market")
    "Deriv execution currently supports market contract purchases only"
  let persisted_contract := strip (upper h order.contract_type)
  let routed_contract := strip (upper h (textOr h (routing.get "contract_type") ""))
  demand (persisted_contract = "" || routed_contract = "" || persisted_contract = routed_contract)
    "The persisted broker contract does not match the execution routing context"
  let direction := upper h order.direction
  let requested_contract := requestedContract persisted_contract routed_contract direction
  demand (requested_contract != "") "A broker contract type is required"
  let available ← w.contracts_for.mapError PlaceError.broker
  let allowed := (tradeCapabilities available).map fun item =>
    upper h (textOr h (item.get "contract_type") "")
  demand (allowed.contains requested_contract)
    ("Deriv does not currently offer " ++ requested_contract ++ " for " ++ order.symbol)
  demand ((adapterDirections.lookup requested_contract).all (direction = ·))
    ("Deriv contract " ++ requested_contract ++ " is an " ++
      (adapterDirections.lookup requested_contract).getD "" ++ " opening contract; the " ++
      (if direction = "" then "selected" else direction) ++ " direction is not valid")
  let amount := w.float order.stake
  demand (!amount.any (· ≤ 0)) "A positive stake is required to place a Deriv order"
  let duration ← placeInt h (Dict.getD routing "duration" (.int 60))
  let barrier := match routing.get "barrier" with
    | .none => none
    | v => some (v.toStr h)
  let multiplier ← placeMultiplier w (routing.get "multiplier")
  let growth_rate ← placeGrowthRate w requested_contract routing
  return {
    amount := amount
    contract_type := requested_contract
    currency := currencyOf h account
    duration := duration
    duration_unit := Dict.getD routing "duration_unit" (.str "s")
    underlying_symbol := order.symbol
    barrier := barrier
    multiplier := multiplier
    growth_rate := growth_rate }

/-- The proposal that comes of a payload sent to `create`. -/
def execution (w : World) (user_id : ℕ) (data : Dict) : Except PlaceError Proposal :=
  match clean F user_id data with
  | none => .error .ValidationError
  | some v =>
    match createOrder h data v with
    | none => .error .AttributeError
    | some order =>
      if !w.fits order then .error .DataError
      else
        match validate h v.broker_account order with
        | [] => placeOrder h w v.broker_account order
        | errors => .error (.OrderValidationError errors)

/-! ## Agreement -/

/-- The two proposals ask for the same thing. -/
structure Agrees (p q : Proposal) : Prop where
  symbol : p.underlying_symbol = q.underlying_symbol
  contract_type : p.contract_type = q.contract_type
  amount : p.amount = q.amount
  duration : p.duration = q.duration
  duration_unit : p.duration_unit = q.duration_unit
  currency : p.currency = q.currency

/-- A payload whose order is placed as it was previewed: a market order with a duration that
`int()` takes and a unit, for a contract that is neither `BUY` nor `SELL` and that the broker
lists without blanks around it; the routing context, if one is sent, is an object, the database
takes the order, and the balance covers the stake. -/
structure Executable (h : Host) (w : World) (data : Dict) (v : Validated) : Prop where
  duration : v.duration ≠ none
  duration_int : ∃ n, (data.get "duration").toInt h = .ok n
  duration_unit : v.duration_unit ≠ ""
  order_type : v.order_type = "market"
  contract_type : upper h v.contract_type ∉ ["BUY", "SELL"]
  listed : ∀ available, w.contracts_for = .ok available → ∃ item ∈ tradeCapabilities available,
    upper h (textOr h (item.get "contract_type") "") = upper h v.contract_type
  context : ∃ context, Execution.orEmpty (data.firstOf ["routing_context", "validation_context"]) =
    some context
  fits : ∀ order, createOrder h data v = some order → w.fits order = true
  balance : ∀ q, v.stake.toRat = some q → q ≤ v.broker_account.balance

/-! ## Checks that pass -/

theorem require_ok {ok : Bool} {code detail : String} {status : ℕ} {u : Unit} :
    require ok code detail status = .ok u ↔ ok = true := by
  unfold require
  split
  · next hok => simp [hok]
  · next hok => simp [hok]

theorem orReject_ok {α : Type} {x : Option α} {r : Rejection} {a : α} :
    orReject x r = .ok a ↔ x = some a := by
  cases x with
  | none => simp [orReject]
  | some b => simp [orReject]

theorem demand_ok {ok : Bool} {message : String} {u : Unit} :
    demand ok message = .ok u ↔ ok = true := by
  unfold demand
  split
  · next hok => simp [hok]
  · next hok => simp [hok]

theorem placeInt_ok {v : Value} {n : ℤ} : placeInt h v = .ok n ↔ v.toInt h = .ok n := by
  unfold placeInt
  cases hv : v.toInt h with
  | ok m => simp
  | error e => cases e <;> simp

/-! ## Words -/

theorem upper_eq_empty {s : String} : upper h s = "" ↔ s = "" := by
  constructor
  · intro hs
    by_contra hne
    exact upper_ne_empty h hne hs
  · intro hs
    rw [hs]
    rfl

/-! ## What the views know of a payload -/

/-- Validated data against the payload. -/
structure Cleaned (data : Dict) (v : Validated) : Prop where
  symbol : strip v.symbol = v.symbol
  direction : v.direction ∈ DIRECTIONS
  order_type : v.order_type ∈ ORDER_TYPES
  contract_type : v.contract_type = "" ∨
    v.contract_type = strip ((data.get "contract_type").toStr h)
  duration : data.get "duration" = .none ∧ v.duration = none ∨
    ∃ n, F.integer (data.get "duration") = some n ∧ 1 ≤ n ∧ v.duration = some n
  duration_unit : v.duration_unit = "" ∨
    data.get "duration_unit" = .str v.duration_unit ∧ v.duration_unit ∈ DURATION_UNITS

theorem cleanWord_mem {words : List String} {s word : String}
    (hword : cleanWord h words s = some word) : word ∈ words := by
  simp only [cleanWord] at hword
  split at hword
  · next hmem =>
    rw [← Option.some.inj hword]
    exact hmem
  · cases hword

theorem optional_some {data : Dict} {key s : String} {clean : Value → Option String}
    (hs : optional data key clean = some s) : s = "" ∨ clean (data.get key) = some s := by
  unfold optional at hs
  split at hs
  · exact Or.inr hs
  · exact Or.inl (Option.some.inj hs).symm

theorem cleanDuration_some {data : Dict} {d : Option ℤ} (hd : cleanDuration F data = some d) :
    data.get "duration" = .none ∧ d = none ∨
      ∃ n, F.integer (data.get "duration") = some n ∧ 1 ≤ n ∧ d = some n := by
  unfold cleanDuration at hd
  split at hd
  · next hnone => exact Or.inl ⟨hnone, (Option.some.inj hd).symm⟩
  · split at hd
    · next n hn =>
      split at hd
      · next hpos => exact Or.inr ⟨n, hn, hpos, (Option.some.inj hd).symm⟩
      · cases hd
    · cases hd

theorem clean_some {user_id : ℕ} {data : Dict} {v : Validated}
    (hclean : clean F user_id data = some v) : Cleaned F data v := by
  simp only [clean, Option.bind_eq_bind, Option.bind_eq_some_iff] at hclean
  rcases hclean with ⟨account, -, symbol, hsymbol, strategy, -, direction, ⟨_, -, hdirection⟩,
    order_type, ⟨_, -, horder⟩, contract_type, hcontract, duration, hduration, unit, hunit, stake,
    -, hv⟩
  split at hv
  · rw [← Option.some.inj hv]
    refine ⟨?_, cleanWord_mem hdirection, cleanWord_mem horder, ?_, cleanDuration_some F hduration,
      ?_⟩
    · rw [F.char_eq _ _ _ hsymbol, strip_strip]
    · exact (optional_some hcontract).imp_right (F.char_eq _ _ _)
    · rcases optional_some hunit with hempty | hchosen
      · exact Or.inl hempty
      · rcases F.choice_eq _ _ _ hchosen with ⟨hraw, hmem⟩
        rcases List.mem_cons.mp hmem with hempty | hmem
        · exact Or.inl hempty
        · exact Or.inr ⟨hraw, hmem⟩
  · cases hv

/-- What a ready preview has looked at, and what it had priced. -/
structure Previewed (h : Host) (w : World) (v : Validated) (r : Ready) : Prop where
  connected : v.broker_account.is_connected = true
  live : environmentOf h v.broker_account ≠ "real" ∨ w.ALLOW_LIVE_TRADING = true
  symbol : strip v.symbol ≠ ""
  contract_type : upper h (strip v.contract_type) ≠ ""
  stake : ∃ q, v.stake.toRat = some q ∧ 0 < q
  available : ∃ available, w.contracts_for = .ok available
  direction : ∀ expected,
    previewDirections.lookup (upper h (strip v.contract_type)) = some expected →
      upper h (strip v.direction) = expected
  amount : ∃ q, w.float v.stake = some q ∧ 0 < q
  priced : r.priced.proposal =
    { amount := w.float v.stake
      contract_type := strip (upper h (upper h (strip v.contract_type)))
      currency := currencyOf h v.broker_account
      duration := previewDuration v.duration
      duration_unit := .str (previewUnit h (previewUnit h v.duration_unit))
      underlying_symbol := strip (strip v.symbol)
      barrier := none
      multiplier := none
      growth_rate := if strip (upper h (upper h (strip v.contract_type))) = "ACCU" then
        some growthRate else none }

theorem isPositive_iff {d : Dec} : isPositive d = true ↔ ∃ q, d.toRat = some q ∧ 0 < q := by
  unfold isPositive
  cases d.toRat with
  | none => simp
  | some q => simp

theorem admitAccount_ok {w : World} {user_id : ℕ} {account : BrokerAccount} {u : Unit}
    (hgate : admitAccount h w user_id account = .ok u) :
    account.is_connected = true ∧
      (environmentOf h account ≠ "real" ∨ w.ALLOW_LIVE_TRADING = true) := by
  simp only [admitAccount, bind_ok, require_ok] at hgate
  rcases hgate with ⟨_, -, _, hready, _, -, _, -, _, -, _, -, hlive⟩
  constructor
  · simp only [BrokerAccount.is_connection_eligible, Bool.and_eq_true] at hready
    exact hready.2
  · simpa using hlive

theorem checkStake_ok {w : World} {stake : Dec} {u : Unit} (hstake : checkStake w stake = .ok u) :
    ∃ q, stake.toRat = some q ∧ 0 < q := by
  simp only [checkStake, bind_ok, require_ok] at hstake
  rcases hstake with ⟨_, hpos, -⟩
  exact isPositive_iff.mp hpos

theorem checkContract_ok {w : World} {symbol contract_type direction : String} {u : Unit}
    (hcontract : checkContract h w symbol contract_type direction = .ok u) :
    (∃ available, w.contracts_for = .ok available) ∧
      ∀ expected, previewDirections.lookup contract_type = some expected →
        direction = expected := by
  simp only [checkContract, bind_ok, mapError_ok, require_ok] at hcontract
  rcases hcontract with ⟨available, havailable, _, -, hdirection⟩
  refine ⟨⟨available, havailable⟩, ?_⟩
  intro expected hexpected
  rw [hexpected] at hdirection
  simpa [require_ok] using hdirection

theorem getOrderPreview_ok {w : World} {account : BrokerAccount} {symbol contract_type : String}
    {amount : Dec} {duration : ℤ} {unit : String} {priced : Priced}
    (hpriced : getOrderPreview h w account symbol contract_type amount duration unit =
      .ok priced) :
    (∃ q, w.float amount = some q ∧ 0 < q) ∧ priced.proposal =
      { amount := w.float amount
        contract_type := strip (upper h contract_type)
        currency := currencyOf h account
        duration := duration
        duration_unit := .str (previewUnit h unit)
        underlying_symbol := strip symbol
        barrier := none
        multiplier := none
        growth_rate := if strip (upper h contract_type) = "ACCU" then some growthRate
          else none } := by
  simp only [getOrderPreview] at hpriced
  split at hpriced
  · cases hpriced
  · split at hpriced
    · cases hpriced
    · next hvalid =>
      rcases bind_ok.mp hpriced with ⟨proposal, -, hproposal⟩
      split at hproposal
      · cases hproposal
      · cases hproposal
      · cases hproposal
      · cases hproposal
        refine ⟨?_, rfl⟩
        cases hamount : w.float amount with
        | none => simp [hamount] at hvalid
        | some q =>
          simp only [hamount, Option.all_some, decide_eq_true_eq, not_or, not_le] at hvalid
          exact ⟨q, rfl, hvalid.1⟩

theorem preview_ok {w : World} {user_id : ℕ} {data : Dict} {v : Validated} {r : Ready}
    (hclean : clean F user_id data = some v) (hready : preview F w user_id data = .ok r) :
    Previewed h w v r := by
  simp only [preview, bind_ok, require_ok, mapError_ok, orReject_ok, hclean] at hready
  rcases hready with ⟨_, hv, _, hgate, _, hsymbol, _, hcontract, _, hstake, _, hdirection, _, -, _,
    -, priced, hpriced, _, -, _, -, hr⟩
  cases hv
  cases hr
  rcases checkContract_ok hdirection with ⟨havailable, hdirection⟩
  rcases getOrderPreview_ok hpriced with ⟨hamount, hproposal⟩
  rcases admitAccount_ok hgate with ⟨hconnected, hlive⟩
  exact ⟨hconnected, hlive, bne_iff_ne.mp hsymbol, bne_iff_ne.mp hcontract, checkStake_ok hstake,
    havailable, hdirection, hamount, hproposal⟩

/-! ## The order in memory -/

/-- What an order keeps of its payload. -/
structure Created (h : Host) (data : Dict) (v : Validated) (order : Order) : Prop where
  symbol : order.symbol = v.symbol
  stake : order.stake = v.stake
  direction : order.direction = v.direction
  order_type : order.order_type = v.order_type
  contract_type : order.contract_type = v.contract_type
  duration : order.duration = v.duration
  duration_unit : order.duration_unit = v.duration_unit
  routed_contract : Dict.get order.validation_context "contract_type" =
    .str (upper h (strip (textOr h (data.get "contract_type") "")))
  routed_currency : Dict.get order.validation_context "currency" =
    .str (upper h v.broker_account.currency)
  routed_duration : ∀ dflt, Dict.getD order.validation_context "duration" dflt =
    data.get "duration"
  routed_unit : ∀ dflt, Dict.getD order.validation_context "duration_unit" dflt =
    (data.get "duration_unit").or (.str "")
  barrier : Dict.get order.validation_context "barrier" = .none
  multiplier : Dict.get order.validation_context "multiplier" = .none
  growth_rate : Dict.contains order.validation_context "growth_rate" = false

theorem createOrder_some {data : Dict} {v : Validated} {order : Order}
    (hcreate : createOrder h data v = some order) : Created h data v order := by
  simp only [createOrder, safeClientContext, Option.bind_eq_bind, Option.bind_eq_some_iff]
    at hcreate
  rcases hcreate with ⟨_, ⟨context, -, hcontext⟩, horder⟩
  cases hcontext
  cases horder
  exact ⟨rfl, rfl, rfl, rfl, rfl, rfl, rfl, rfl, rfl, fun _ => rfl, fun _ => rfl, rfl, rfl, rfl⟩

theorem createOrder_isSome {data : Dict} {v : Validated} :
    (∃ order, createOrder h data v = some order) ↔ ∃ context,
      Execution.orEmpty (data.firstOf ["routing_context", "validation_context"]) =
        some context := by
  unfold createOrder safeClientContext
  cases Execution.orEmpty (data.firstOf ["routing_context", "validation_context"]) with
  | none => simp
  | some context => simp

theorem execution_ok {w : World} {user_id : ℕ} {data : Dict} {v : Validated} {p : Proposal}
    (hclean : clean F user_id data = some v) :
    execution F w user_id data = .ok p ↔ ∃ order, createOrder h data v = some order ∧
      w.fits order = true ∧ validate h v.broker_account order = [] ∧
        placeOrder h w v.broker_account order = .ok p := by
  simp only [execution, hclean]
  cases hcreate : createOrder h data v with
  | none => simp
  | some order =>
    cases hfits : w.fits order with
    | false => simp [hfits]
    | true =>
      cases hvalid : validate h v.broker_account order with
      | nil => simp [hfits, hvalid]
      | cons e es => simp [hfits, hvalid]

/-! ## The checks before the order is placed -/

section Placing

variable {h : CaseHost} {F : Fields h.toHost} {w : World} {data : Dict} {v : Validated} {r : Ready}
  {order : Order}

/-- The words of the two views are in lower case and without blanks. -/
theorem lower_own {word : String} (hword : word ∈ "" :: (ORDER_TYPES ++ DURATION_UNITS)) :
    h.lower word = word := by
  have hwords : inLowerCase ("" :: (ORDER_TYPES ++ DURATION_UNITS)) = true := by decide +kernel
  exact h.lower_of_mem hwords hword

theorem strip_own {word : String} (hword : word ∈ "" :: (DIRECTIONS ++ DURATION_UNITS)) :
    strip word = word := by
  have hstrip : ∀ word ∈ "" :: (DIRECTIONS ++ DURATION_UNITS), strip word = word := by
    decide +kernel
  exact hstrip word hword

theorem Cleaned.unit_mem (hc : Cleaned F data v) : v.duration_unit ∈ "" :: DURATION_UNITS := by
  rcases hc.duration_unit with hempty | ⟨-, hmem⟩
  · exact List.mem_cons.mpr (Or.inl hempty)
  · exact List.mem_cons_of_mem _ hmem

theorem Cleaned.strip_unit (hc : Cleaned F data v) : strip v.duration_unit = v.duration_unit := by
  apply strip_own
  have hmem := hc.unit_mem
  simp only [List.mem_cons, List.mem_append] at hmem ⊢
  tauto

theorem Cleaned.lower_unit (hc : Cleaned F data v) :
    h.lower v.duration_unit = v.duration_unit := by
  apply lower_own
  have hmem := hc.unit_mem
  simp only [List.mem_cons, List.mem_append] at hmem ⊢
  tauto

theorem Cleaned.strip_contract (hc : Cleaned F data v) :
    strip v.contract_type = v.contract_type := by
  rcases hc.contract_type with hempty | hraw
  · rw [hempty]
    rfl
  · rw [hraw, strip_strip]

/-- Two of the checks can fail where a preview is ready. -/
theorem validate_eq_nil (hc : Cleaned F data v) (hp : Previewed h.toHost w v r)
    (ho : Created h.toHost data v order) :
    validate h.toHost v.broker_account order = [] ↔
      (v.duration = none ↔ v.duration_unit = "") ∧
        ∀ q, v.stake.toRat = some q → q ≤ v.broker_account.balance := by
  rcases hp.stake with ⟨q, hq, hpos⟩
  have hsymbol : v.symbol ≠ "" := by
    rw [← hc.symbol]
    exact hp.symbol
  have hcontract : strip v.contract_type ≠ "" := by
    intro hempty
    exact hp.contract_type (upper_eq_empty.mpr hempty)
  have hunit : h.lower (strip v.duration_unit) = v.duration_unit := by
    rw [hc.strip_unit, hc.lower_unit]
  have hstake : v.stake.toRat.any (· ≤ 0) = false := by
    simpa [hq] using hpos
  have hduration : v.duration.any (· ≤ 0) = false := by
    rcases hc.duration with ⟨-, hnone⟩ | ⟨n, -, hn, hsome⟩
    · rw [hnone]
      rfl
    · rw [hsome]
      have hpos : 0 < n := by omega
      simpa using hpos
  have horder : ORDER_TYPES.contains v.order_type = true :=
    List.contains_iff_mem.mpr hc.order_type
  -- the currency of the context is the currency of the account
  simp only [validate, ho.symbol, ho.stake, ho.order_type, ho.contract_type, ho.duration,
    ho.duration_unit, ho.routed_currency, textOr_str, upper_upper, hunit, hstake, hduration,
    hp.connected, horder]
  cases hsome : v.duration with
  | none => simp [hsymbol, hcontract, hq]
  | some n => simp [hsymbol, hcontract, hq]

/-- The contract that is asked for where the order has one. -/
def renamed (contract : String) : String :=
  if contract = "BUY" then "CALL" else if contract = "SELL" then "PUT" else contract

theorem requestedContract_of_persisted {persisted routed direction : String}
    (hpersisted : persisted ≠ "") :
    requestedContract persisted routed direction = renamed persisted := by
  unfold requestedContract renamed
  simp only [hpersisted, if_false]

theorem renamed_eq_self {contract : String} :
    renamed contract = contract ↔ contract ∉ ["BUY", "SELL"] := by
  unfold renamed
  split
  · next hbuy => simp [hbuy]
  · next hbuy =>
    split
    · next hsell => simp [hsell]
    · next hsell => simp [hbuy, hsell]

theorem renamed_ne_empty {contract : String} (hcontract : contract ≠ "") :
    renamed contract ≠ "" := by
  unfold renamed
  split
  · decide
  · split
    · decide
    · exact hcontract

/-- The contract of the routing context is the one of the order, if there is one. -/
theorem Cleaned.routed (hc : Cleaned F data v) (hcontract : v.contract_type ≠ "") :
    strip (textOr h.toHost (data.get "contract_type") "") = "" ∨
      strip (textOr h.toHost (data.get "contract_type") "") = v.contract_type := by
  rcases hc.contract_type with hempty | hraw
  · exact absurd hempty hcontract
  · unfold textOr Value.or
    split
    · exact Or.inr hraw.symm
    · exact Or.inl (strip_own List.mem_cons_self)

theorem placeGrowthRate_default {requested_contract : String} {routing : Dict}
    (hrouting : routing.contains "growth_rate" = false) :
    placeGrowthRate w requested_contract routing =
      .ok (if requested_contract = "ACCU" then some growthRate else none) := by
  unfold placeGrowthRate
  split
  · simp [hrouting]
  · rfl

/-- The proposal of a payload for a duration. -/
def proposalOf (h : Host) (w : World) (data : Dict) (v : Validated) (duration : ℤ) : Proposal where
  amount := w.float v.stake
  contract_type := renamed (upper h v.contract_type)
  currency := currencyOf h v.broker_account
  duration := duration
  duration_unit := (data.get "duration_unit").or (.str "")
  underlying_symbol := v.symbol
  barrier := none
  multiplier := none
  growth_rate := if renamed (upper h v.contract_type) = "ACCU" then some growthRate else none

/-- The proposal that is placed for a payload with a ready preview. -/
structure Placed (h : Host) (w : World) (data : Dict) (v : Validated) (p : Proposal) : Prop where
  order_type : v.order_type = "market"
  listed : ∃ available, w.contracts_for = .ok available ∧ ∃ item ∈ tradeCapabilities available,
    upper h (textOr h (item.get "contract_type") "") = renamed (upper h v.contract_type)
  direction : ∀ expected,
    adapterDirections.lookup (renamed (upper h v.contract_type)) = some expected →
      upper h v.direction = expected
  duration : (data.get "duration").toInt h = .ok p.duration
  proposal : p = proposalOf h w data v p.duration

/-- `int(None)` is a `TypeError`. -/
theorem Placed.duration_ne_none {p : Proposal} (hplaced : Placed h.toHost w data v p)
    (hc : Cleaned F data v) : v.duration ≠ none := by
  intro hnone
  rcases hc.duration with ⟨hraw, -⟩ | ⟨n, -, -, hsome⟩
  · have hint := hplaced.duration
    rw [hraw] at hint
    cases hint
  · rw [hnone] at hsome
    cases hsome

theorem placeOrder_ok {p : Proposal} (hc : Cleaned F data v) (hp : Previewed h.toHost w v r)
    (ho : Created h.toHost data v order) :
    placeOrder h.toHost w v.broker_account order = .ok p ↔ Placed h.toHost w data v p := by
  have hcontract : upper h.toHost v.contract_type ≠ "" := by
    rw [← hc.strip_contract]
    exact hp.contract_type
  have hpersisted : strip (upper h.toHost v.contract_type) = upper h.toHost v.contract_type :=
    strip_upper h hc.strip_contract
  have hlive : (environmentOf h.toHost v.broker_account != "real" || w.ALLOW_LIVE_TRADING) =
      true := by
    simpa using hp.live
  have horder : h.lower (if v.order_type = "" then "market" else v.order_type) = v.order_type := by
    have hmem := hc.order_type
    have hne : v.order_type ≠ "" := by
      intro hempty
      simp [hempty, ORDER_TYPES] at hmem
    rw [if_neg hne]
    exact lower_own (List.mem_cons_of_mem _ (List.mem_append_left _ hmem))
  have hrouted : strip (upper h.toHost (strip (textOr h.toHost (data.get "contract_type") ""))) =
      "" ∨ upper h.toHost v.contract_type =
        strip (upper h.toHost (strip (textOr h.toHost (data.get "contract_type") ""))) := by
    rw [strip_upper h (strip_strip _)]
    rcases hc.routed (fun hempty => hcontract (upper_eq_empty.mpr hempty)) with hempty | hsame
    · exact Or.inl (upper_eq_empty.mpr hempty)
    · exact Or.inr (by rw [hsame])
  have hamount : (!(w.float v.stake).any (· ≤ 0)) = true := by
    rcases hp.amount with ⟨q, hq, hpos⟩
    simpa [hq] using hpos
  simp only [placeOrder, bind_ok, demand_ok, mapError_ok, placeInt_ok, ho.symbol, ho.stake,
    ho.direction, ho.order_type, ho.contract_type, ho.routed_contract, ho.routed_duration,
    ho.routed_unit, ho.barrier, ho.multiplier, textOr_str, upper_upper, hpersisted,
    requestedContract_of_persisted hcontract, placeGrowthRate_default ho.growth_rate,
    placeMultiplier, Except.ok.injEq, exists_const, hlive, horder, hamount,
    bne_iff_ne.mpr (renamed_ne_empty hcontract), exists_eq_left', true_and]
  constructor
  · intro hplaced
    rcases hplaced with ⟨hmarket, -, available, havailable, hlisted, hdirection, n, hn, hproposal⟩
    cases hproposal
    refine ⟨beq_iff_eq.mp hmarket, ⟨available, havailable, ?_⟩, ?_, hn, rfl⟩
    · simpa using hlisted
    · intro expected hexpected
      simpa [hexpected] using hdirection
  · intro hplaced
    rcases hplaced.listed with ⟨available, havailable, item, hitem, hlisted⟩
    refine ⟨beq_iff_eq.mpr hplaced.order_type, ?_, available, havailable, ?_, ?_, p.duration,
      hplaced.duration, ?_⟩
    · simpa only [Bool.or_eq_true, decide_eq_true_eq] using hrouted.imp_left Or.inr
    · rw [List.contains_iff_mem, ← hlisted]
      exact List.mem_map_of_mem hitem
    · rw [Option.all_eq_true]
      intro expected hexpected
      exact decide_eq_true (hplaced.direction expected hexpected)
    · exact congrArg Except.ok hplaced.proposal.symm

/-- The direction of a previewed contract is the one its order needs. -/
theorem direction_expected {contract direction : String}
    (hpreview : ∀ expected, previewDirections.lookup contract = some expected →
      direction = expected) :
    ∀ expected, adapterDirections.lookup contract = some expected → direction = expected := by
  intro expected hexpected
  apply hpreview
  have hdrop : previewDirections = adapterDirections ++ previewDirections.drop 7 := rfl
  rw [hdrop, List.lookup_append, hexpected]
  rfl

theorem Executable.placed (he : Executable h.toHost w data v) (hc : Cleaned F data v)
    (hp : Previewed h.toHost w v r) : ∃ p, Placed h.toHost w data v p := by
  rcases he.duration_int with ⟨n, hn⟩
  rcases hp.available with ⟨available, havailable⟩
  have hown := renamed_eq_self.mpr he.contract_type
  have hdirection : strip v.direction = v.direction :=
    strip_own (List.mem_cons_of_mem _ (List.mem_append_left _ hc.direction))
  refine ⟨proposalOf h.toHost w data v n, he.order_type, ⟨available, havailable, ?_⟩, ?_, hn, rfl⟩
  · rw [hown]
    exact he.listed available havailable
  · have hpreview := hp.direction
    rw [hc.strip_contract, hdirection] at hpreview
    rw [hown]
    exact direction_expected hpreview

/-- A unit is previewed as it was sent. -/
theorem previewUnit_own {unit : String} (hunit : unit ∈ DURATION_UNITS) :
    previewUnit h.toHost unit = unit := by
  have hne : unit ≠ "" := by
    intro hempty
    simp [hempty, DURATION_UNITS] at hunit
  unfold previewUnit
  rw [if_neg hne, lower_own (List.mem_cons_of_mem _ (List.mem_append_right _ hunit)),
    strip_own (List.mem_cons_of_mem _ (List.mem_append_right _ hunit))]

/-- Where there is a duration and a unit, only the contract can differ. -/
theorem agrees_iff {p : Proposal} (hc : Cleaned F data v) (hp : Previewed h.toHost w v r)
    (hplaced : Placed h.toHost w data v p) (hduration : v.duration ≠ none)
    (hunit : v.duration_unit ≠ "") :
    Agrees p r.priced.proposal ↔ upper h.toHost v.contract_type ∉ ["BUY", "SELL"] := by
  have hcontract : strip (upper h.toHost (upper h.toHost (strip v.contract_type))) =
      upper h.toHost v.contract_type := by
    rw [upper_upper, hc.strip_contract, strip_upper h hc.strip_contract]
  rw [hp.priced]
  constructor
  · intro hagrees
    have hsame := hagrees.contract_type
    rw [hplaced.proposal, hcontract] at hsame
    exact renamed_eq_self.mp hsame
  · intro hown
    rcases hc.duration with ⟨-, hnone⟩ | ⟨n, hn, hpos, hsome⟩
    · exact absurd hnone hduration
    rcases hc.duration_unit with hempty | ⟨hraw, hmem⟩
    · exact absurd hempty hunit
    constructor
    · rw [hplaced.proposal, strip_strip, hc.symbol]
      rfl
    · rw [hplaced.proposal, hcontract]
      exact renamed_eq_self.mpr hown
    · rw [hplaced.proposal]
      rfl
    · -- both are the number that the integer field took
      have hne : n ≠ 0 := by omega
      rw [hsome, F.integer_eq _ _ _ hn hplaced.duration, previewDuration, if_neg hne]
    · rw [hplaced.proposal, proposalOf, hraw, previewUnit_own hmem, previewUnit_own hmem, Value.or,
        if_pos (by simpa using hunit)]
    · rw [hplaced.proposal]
      rfl

end Placing

/-- **Preview and execution.** After a ready preview the order is placed with the proposal that
was priced exactly where the payload is executable. -/
theorem proposal_agrees_iff (h : CaseHost) (F : Fields h.toHost) (w : World) (user_id : ℕ)
    (data : Dict) (v : Validated) (r : Ready) (hclean : clean F user_id data = some v)
    (hready : preview F w user_id data = .ok r) :
    (∃ p, execution F w user_id data = .ok p ∧ Agrees p r.priced.proposal) ↔
      Executable h.toHost w data v := by
  have hc := clean_some F hclean
  have hp := preview_ok F hclean hready
  constructor
  · rintro ⟨p, hplace, hagrees⟩
    rcases (execution_ok F hclean).mp hplace with ⟨order, hcreate, hfits, hvalid, hplace⟩
    have ho := createOrder_some hcreate
    have hplaced := (placeOrder_ok hc hp ho).mp hplace
    rcases (validate_eq_nil hc hp ho).mp hvalid with ⟨hboth, hbalance⟩
    have hduration := hplaced.duration_ne_none hc
    have hunit : v.duration_unit ≠ "" := fun hempty => hduration (hboth.mpr hempty)
    have hown := (agrees_iff hc hp hplaced hduration hunit).mp hagrees
    refine ⟨hduration, ⟨p.duration, hplaced.duration⟩, hunit, hplaced.order_type, hown, ?_,
      createOrder_isSome.mp ⟨order, hcreate⟩, ?_, hbalance⟩
    · intro available havailable
      rcases hplaced.listed with ⟨available', havailable', hlisted⟩
      rw [renamed_eq_self.mpr hown] at hlisted
      cases havailable.symm.trans havailable'
      exact hlisted
    · intro order' hcreate'
      cases hcreate.symm.trans hcreate'
      exact hfits
  · intro he
    rcases createOrder_isSome.mpr he.context with ⟨order, hcreate⟩
    have ho := createOrder_some hcreate
    have hvalid : validate h.toHost v.broker_account order = [] := by
      refine (validate_eq_nil hc hp ho).mpr ⟨?_, he.balance⟩
      exact iff_of_false he.duration he.duration_unit
    rcases he.placed hc hp with ⟨p, hplaced⟩
    refine ⟨p, (execution_ok F hclean).mpr ⟨order, hcreate, he.fits order hcreate, hvalid,
      (placeOrder_ok hc hp ho).mpr hplaced⟩, ?_⟩
    exact (agrees_iff hc hp hplaced he.duration he.duration_unit).mpr he.contract_type

/-! ## Concrete payloads -/

def demoAccount : BrokerAccount where
  id := 7
  user_id := 3
  account_id := "VRTC1"
  currency := "USD"
  account_type := "demo"
  balance := 1000
  active := true
  broker_active := true
  credentials_ready := true
  is_connected := true
  broker_type := "deriv"
  broker_name := "Deriv"
  is_live_trading_supported := true

/-- Fields that take texts, whole numbers and the account's own id. -/
def jsonFields : Fields CaseHost.ascii.toHost where
  account
    | .int 7 => some demoAccount
    | _ => none
  char n
    | .str s => if (strip s).length ≤ n then some (strip s) else none
    | _ => none
  integer
    | .int n => some n
    | _ => none
  choice choices
    | .str s => if s ∈ choices then some s else none
    | _ => none
  decimal
    | .str s => decimalOfText CaseHost.ascii.toHost s
    | _ => none
  others _ := true
  char_eq n v s hs := by
    cases v <;> simp at hs
    rw [← hs.2, Value.toStr_str]
  integer_eq v n m hn hm := by
    cases v <;> simp at hn
    cases hm
    exact hn
  choice_eq choices v s hs := by
    cases v <;> simp at hs
    rcases hs with ⟨hmem, rfl⟩
    exact ⟨rfl, hmem⟩

/-- A broker that offers `CALL` for a stake of ten. -/
def callOffered : World where
  plan := "Free"
  orderAllowed := true
  liveAllowed := false
  ALLOW_LIVE_TRADING := false
  risk _ := .ok ()
  max_age := 30
  contracts_for := .ok [.dict [("contract_type", .str "CALL")]]
  tick := .ok [("quote", .float "100.5" 100), ("epoch", .int 1000)]
  propose _ := .ok [("id", .str "p1"), ("ask_price", .int 10), ("payout", .float "19.5" 19)]
  quoted_at := 1001
  priced_at := 1002
  float := Dec.toRat
  parseFloat _ := none
  fits _ := true

/-- A market order without a duration. -/
def defaultPayload : Dict :=
  [("broker_account", .int 7), ("symbol", .str "R_100"), ("direction", .str "buy"),
    ("order_type", .str "market"), ("contract_type", .str "call"), ("stake", .str "10")]

def minutePayload : Dict :=
  defaultPayload ++ [("duration", .int 60), ("duration_unit", .str "s")]

/-- The validated data of `minutePayload`. -/
def minuteOrder : Validated where
  broker_account := demoAccount
  symbol := "R_100"
  strategy := ""
  direction := "buy"
  order_type := "market"
  contract_type := "call"
  duration := some 60
  duration_unit := "s"
  stake := .finite false 10 0

theorem proposal_agrees_minute :
    ∃ p r, preview jsonFields callOffered 3 minutePayload = .ok r ∧
      execution jsonFields callOffered 3 minutePayload = .ok p ∧ Agrees p r.priced.proposal := by
  have hclean : clean jsonFields 3 minutePayload = some minuteOrder := by decide +kernel
  have hok : (preview jsonFields callOffered 3 minutePayload).isOk = true := by decide +kernel
  have hexecutable : Executable CaseHost.ascii.toHost callOffered minutePayload minuteOrder := by
    constructor
    · decide
    · exact ⟨60, rfl⟩
    · decide
    · rfl
    · decide +kernel
    · intro available havailable
      cases havailable
      exact ⟨_, List.mem_singleton_self _, by decide +kernel⟩
    · exact ⟨[], rfl⟩
    · intro order _
      rfl
    · intro q hq
      have hstake : q = 10 := by
        rw [← Option.some_inj, ← hq]
        decide +kernel
      rw [hstake]
      decide +kernel
  cases hready : preview jsonFields callOffered 3 minutePayload with
  | error e =>
    rw [hready] at hok
    cases hok
  | ok r =>
    rcases (proposal_agrees_iff CaseHost.ascii jsonFields callOffered 3 minutePayload minuteOrder r
      hclean hready).mpr hexecutable with ⟨p, hplace, hagrees⟩
    exact ⟨p, r, rfl, hplace, hagrees⟩

/-- An order that was previewed with the default duration raises when it is placed. -/
theorem default_not_placed :
    ∃ r, preview jsonFields callOffered 3 defaultPayload = .ok r ∧ r.duration = 60 ∧
      execution jsonFields callOffered 3 defaultPayload = .error .TypeError := by
  have hpriced : (preview jsonFields callOffered 3 defaultPayload).toOption.map (·.duration) =
      some 60 := by
    decide +kernel
  have hraised : (match execution jsonFields callOffered 3 defaultPayload with
      | .error .TypeError => true
      | _ => false) = true := by
    decide +kernel
  have hexecution : execution jsonFields callOffered 3 defaultPayload = .error .TypeError := by
    split at hraised
    · assumption
    · cases hraised
  cases hready : preview jsonFields callOffered 3 defaultPayload with
  | error e =>
    rw [hready] at hpriced
    cases hpriced
  | ok r =>
    rw [hready] at hpriced
    exact ⟨r, rfl, Option.some.inj hpriced, hexecution⟩

end AlgoBot.Preview
