import AlgoBot.Execution.Preview

/-!
# What a ready preview has checked

`OrderViewSet.preview` with any adapter: what the readers of the adapter answer is a Python
value or a failure, and nothing is promised about it.

* `preview_sound`: a preview that is ready has found the quote finite, positive, fresh at
  both times and of the symbol, its ask not below its bid where it has both, and the
  proposal the one that was asked for; the risk validator has passed, and for a live
  account every gate.
-/

namespace AlgoBot.Preview.Gates

open AlgoBot.Core AlgoBot.Python AlgoBot.Preview

variable {h : Host} (F : Fields h)

/-! ## The adapter -/

/-- What `get_order_preview` is called with. -/
structure Request where
  symbol : String
  contract_type : String
  amount : Dec
  duration : ℤ
  duration_unit : String

/-- The readers of an adapter that has them, and how a call of them ends. -/
structure Adapter where
  get_trade_capabilities : Option (Except BrokerFailure Value)
  get_market_data : Option (Except BrokerFailure Value)
  get_order_preview : Option (Request → Except BrokerFailure Value)

/-- What `for item in (v or [])` runs over, as far as the items are dicts; `none` is a
`TypeError`. -/
def itemsOf (v : Value) : Option (List Value) :=
  if v.truthy then
    match v with
    | .list xs => some xs
    | .dict _ => some []
    | .str _ => some []
    | _ => none
  else some []

/-! ## The contract and the quote -/

/-- The broker offers the contract, and for the direction. -/
def checkCapabilities (h : Host) (symbol contract_type direction : String) (available : List Value) :
    Except Rejection Unit := do
  let supported := (tradeCapabilities available).map fun item =>
    upper h (strip (textOr h (item.get "contract_type") ""))
  require (supported.contains contract_type) "BROKER_CONTRACT_UNAVAILABLE"
    ("The selected broker does not currently offer " ++ contract_type ++ " for " ++ symbol ++ ".")
    409
  match previewDirections.lookup contract_type with
  | some expected =>
    require (direction == expected) "BROKER_CONTRACT_DIRECTION_MISMATCH"
      (contract_type ++ " requires " ++ expected ++
        "; select the matching direction and preview again.") 409
  | none => return ()

def previewUnsupported : Rejection :=
  ⟨"BROKER_PREVIEW_UNSUPPORTED", "The selected broker does not provide the live contract and " ++
    "quote checks required for a safe preview.", 409⟩

/-- The first `try` statement, up to the quote. -/
def readQuote (h : Host) (adapter : Except BrokerFailure Adapter)
    (symbol contract_type direction : String) : Except Rejection (Adapter × Value) := do
  let adapter ← adapter.mapError marketRejection
  let capability_reader ← orReject adapter.get_trade_capabilities previewUnsupported
  let market_reader ← orReject adapter.get_market_data previewUnsupported
  let capabilities ← capability_reader.mapError marketRejection
  let available ← orReject (itemsOf capabilities) (marketRejection .other)
  checkCapabilities h symbol contract_type direction available
  let quote_data ← market_reader.mapError marketRejection
  return (adapter, quote_data)

/-- The value of a `dict`; anything else has no `get`. -/
def dictOf : Value → Except Rejection Dict
  | .dict kvs => .ok kvs
  | _ => .error internalError

/-- The price of the quote. -/
def quotedPrice (quote_data : Dict) : Value := quote_data.getD "price" (quote_data.get "quote")

/-- Below the bid. -/
def crossed (bid ask : Option Dec) : Bool :=
  match bid.bind Dec.toRat, ask.bind Dec.toRat with
  | some bid, some ask => ask < bid
  | _, _ => false

/-- The second `try` statement. -/
def checkQuoteData (h : Host) (w : World) (symbol : String) (quote_data : Dict) :
    Except Rejection Quote := do
  let quote_symbol := strip (textOr h (quote_data.get "symbol") "")
  let price ← orReject (decimalOfText h ((quotedPrice quote_data).toStr h)) invalidQuote
  let epoch ← intOr h invalidQuote (quote_data.get "epoch")
  let age := w.quoted_at - epoch
  require (quote_symbol == symbol && isPositive price) invalidQuote.code invalidQuote.detail
    invalidQuote.status
  require (!stale w age) "BROKER_MARKET_DATA_STALE"
    ("The broker quote is stale or has an invalid timestamp (" ++ toString (max 0 age.floor) ++
      "s old; limit " ++ toString w.max_age ++ "s). No order was submitted.") 409
  let bid ← priceOf h (quote_data.get "bid")
  let ask ← priceOf h (quote_data.get "ask")
  require (bid.all isPositive && ask.all isPositive) invalidQuote.code invalidQuote.detail
    invalidQuote.status
  require (!crossed bid ask) invalidQuote.code invalidQuote.detail invalidQuote.status
  return ⟨price, bid, ask, epoch⟩

/-! ## The proposal -/

def proposalUnsupported : Rejection :=
  ⟨"BROKER_PROPOSAL_UNSUPPORTED", "The selected broker cannot provide an authoritative payout " ++
    "estimate for this contract. No order was submitted.", 409⟩

/-- `int(...)` in the third `try` statement, which has a handler for every exception. -/
def proposalInt (h : Host) (v : Value) : Except Rejection ℤ :=
  match v.toInt h with
  | .ok n => .ok n
  | .error .OverflowError => .error (proposalRejection .other)
  | .error _ => .error invalidProposal

/-- The cost and the payout. -/
def checkProposalData (h : Host) (account : BrokerAccount) (request : Request) :
    Value → Except Rejection (Dec × Dec)
  | .dict proposal => do
    let proposal_cost ←
      orReject (decimalOfText h ((Dict.get proposal "ask_price").toStr h)) invalidProposal
    let payout ← orReject (decimalOfText h ((Dict.get proposal "payout").toStr h)) invalidProposal
    let proposal_symbol := strip (textOr h (Dict.get proposal "symbol") "")
    let proposal_contract := upper h (strip (textOr h (Dict.get proposal "contract_type") ""))
    let proposal_currency := upper h (textOr h (Dict.get proposal "currency") "")
    let proposal_duration ← proposalInt h (Dict.get proposal "duration")
    let proposal_duration_unit := strip (h.lower (textOr h (Dict.get proposal "duration_unit") ""))
    require ((Dict.get proposal "proposal_id").truthy && proposal_symbol == request.symbol &&
        proposal_contract == request.contract_type && proposal_currency == currencyOf h account &&
        proposal_duration == request.duration && proposal_duration_unit == request.duration_unit &&
        isPositive proposal_cost && isPositive payout)
      invalidProposal.code invalidProposal.detail invalidProposal.status
    return (proposal_cost, payout)
  | _ => .error invalidProposal

/-! ## `preview` -/

/-- A ready preview. The market and the estimate show their numbers as floats. -/
structure Response where
  account : BrokerAccount
  environment : String
  request : Request
  direction : String
  order_type : String
  strategy : String
  quote : Quote
  spread : Option Dec
  proposal_cost : Dec
  payout : Dec
  potential_profit : Dec
  currency : String
  gates : List (String × Bool)

/-- `gates`. -/
def gatesOf (w : World) (environment : String) : List (String × Bool) :=
  [("account_connected", true), ("environment_verified", true), ("plan_live_trading", true),
    ("live_trading_allowed", environment != "real" || w.ALLOW_LIVE_TRADING),
    ("live_order_limit", true), ("risk_verified", true), ("fresh_market_data", true),
    ("contract_verified", true), ("payout_verified", true), ("ai_verified", false),
    ("ai_required", false)]

/-- A decimal operation; its signals reach the last handler. -/
def orInternal {α : Type} (x : Except Dec.Signal α) : Except Rejection α :=
  x.mapError fun _ => internalError

/-- `ask - bid` of a quote that has both. -/
def spreadOf (quote : Quote) : Except Rejection (Option Dec) :=
  match quote.bid, quote.ask with
  | some bid, some ask => (orInternal (Dec.sub ask bid)).map some
  | _, _ => .ok none

/-- `preview`, for the adapter that the registry gives. -/
def preview (w : World) (adapter : Except BrokerFailure Adapter) (user_id : ℕ) (data : Dict) :
    Except Rejection Response := do
  let v ← orReject (clean F user_id data) internalError
  let account := v.broker_account
  admitAccount h w user_id account
  let symbol := strip v.symbol
  let contract_type := upper h (strip v.contract_type)
  let direction := upper h (strip v.direction)
  require (symbol != "") "MARKET_SYMBOL_REQUIRED" "Select a broker instrument." 400
  require (contract_type != "") "BROKER_CONTRACT_REQUIRED"
    "Select a broker-supported contract type before previewing." 409
  let request : Request := ⟨symbol, contract_type, v.stake, previewDuration v.duration,
    previewUnit h v.duration_unit⟩
  checkStake w v.stake
  let (adapter, quote_data) ← readQuote h adapter symbol contract_type direction
  let quote_data ← dictOf quote_data
  let quote ← checkQuoteData h w symbol quote_data
  let proposal_reader ← orReject adapter.get_order_preview proposalUnsupported
  let proposal ← (proposal_reader request).mapError proposalRejection
  let (proposal_cost, payout) ← checkProposalData h account request proposal
  require (!stale w (w.priced_at - quote.epoch)) "BROKER_MARKET_DATA_STALE"
    ("The broker quote became stale while the payout estimate was being verified. " ++
      "No order was submitted.") 409
  let potential_profit ← orInternal (Dec.sub payout v.stake)
  let spread ← spreadOf quote
  return {
    account := account
    environment := environmentOf h account
    request := request
    direction := h.lower direction
    order_type := v.order_type
    strategy := v.strategy
    quote := quote
    spread := spread
    proposal_cost := proposal_cost
    payout := payout
    potential_profit := potential_profit
    currency := currencyOf h account
    gates := gatesOf w (environmentOf h account) }

/-! ## What is ready -/

/-- A text that reads as a finite number above zero. -/
def Positive (h : Host) (v : Value) (q : ℚ) : Prop :=
  ∃ d : Dec, decimalOfText h (v.toStr h) = some d ∧ d.toRat = some q ∧ 0 < q

/-- Not older than allowed, nor more than five seconds ahead. -/
def Fresh (w : World) (now : ℚ) (epoch : ℤ) : Prop := -5 ≤ now - epoch ∧ now - epoch ≤ w.max_age

/-- The quote a ready preview rests on. -/
structure SoundQuote (h : Host) (w : World) (symbol : String) (quote_data : Dict) : Prop where
  price : ∃ q, Positive h (quotedPrice quote_data) q
  fresh : ∃ epoch, (quote_data.get "epoch").toInt h = .ok epoch ∧ Fresh w w.quoted_at epoch ∧
    Fresh w w.priced_at epoch
  identity : strip (textOr h (quote_data.get "symbol") "") = symbol
  bid : TradeHistory.isBlank (quote_data.get "bid") = true ∨
    ∃ bid, Positive h (quote_data.get "bid") bid
  ask : TradeHistory.isBlank (quote_data.get "ask") = true ∨
    ∃ ask, Positive h (quote_data.get "ask") ask
  /-- Where there are both. -/
  spread : ∀ bid ask, TradeHistory.isBlank (quote_data.get "bid") = false →
    TradeHistory.isBlank (quote_data.get "ask") = false → Positive h (quote_data.get "bid") bid →
      Positive h (quote_data.get "ask") ask → bid ≤ ask

/-- The proposal of a ready preview is the one that was asked for. -/
structure SoundProposal (h : Host) (account : BrokerAccount) (request : Request) (proposal : Dict) :
    Prop where
  identified : (proposal.get "proposal_id").truthy = true
  symbol : strip (textOr h (proposal.get "symbol") "") = request.symbol
  contract_type : upper h (strip (textOr h (proposal.get "contract_type") "")) =
    request.contract_type
  currency : upper h (textOr h (proposal.get "currency") "") = currencyOf h account
  duration : (proposal.get "duration").toInt h = .ok request.duration
  duration_unit : strip (h.lower (textOr h (proposal.get "duration_unit") "")) =
    request.duration_unit
  cost : ∃ q, Positive h (proposal.get "ask_price") q
  payout : ∃ q, Positive h (proposal.get "payout") q

/-- The gates of a live account. -/
def LiveGates (h : Host) (w : World) (account : BrokerAccount) : Prop :=
  environmentOf h account = "real" →
    account.is_live_trading_supported = true ∧ w.liveAllowed = true ∧ w.ALLOW_LIVE_TRADING = true

/-- What the preview asks the broker for. -/
def requestOf (h : Host) (v : Validated) : Request where
  symbol := strip v.symbol
  contract_type := upper h (strip v.contract_type)
  amount := v.stake
  duration := previewDuration v.duration
  duration_unit := previewUnit h v.duration_unit

/-- A ready preview is sound about the replies it has read. -/
structure SoundPreview (h : Host) (w : World) (adapter : Adapter) (v : Validated) : Prop where
  quote : ∃ quote_data, adapter.get_market_data = some (.ok (.dict quote_data)) ∧
    SoundQuote h w (requestOf h v).symbol quote_data
  proposal : ∃ proposal_reader proposal, adapter.get_order_preview = some proposal_reader ∧
    proposal_reader (requestOf h v) = .ok (.dict proposal) ∧
      SoundProposal h v.broker_account (requestOf h v) proposal
  risk : w.risk v.stake = .ok ()
  live : LiveGates h w v.broker_account

section Ready

variable {w : World}

theorem not_stale {age : ℚ} : (!stale w age) = true ↔ -5 ≤ age ∧ age ≤ w.max_age := by
  simp [stale]

theorem intOr_ok {r : Rejection} {v : Value} {n : ℤ} :
    intOr h r v = .ok n ↔ v.toInt h = .ok n := by
  unfold intOr
  split
  · next hok => rw [hok]; simp
  · next herror => rw [herror]; simp
  · next herror => rw [herror]; simp

theorem proposalInt_ok {v : Value} {n : ℤ} : proposalInt h v = .ok n ↔ v.toInt h = .ok n := by
  unfold proposalInt
  split
  · next hok => rw [hok]; simp
  · next herror => rw [herror]; simp
  · next herror => rw [herror]; simp

theorem priceOf_ok {v : Value} {price : Option Dec} (hprice : priceOf h v = .ok price) :
    TradeHistory.isBlank v = true ∧ price = none ∨
      ∃ d, TradeHistory.isBlank v = false ∧ decimalOfText h (v.toStr h) = some d ∧
        price = some d := by
  unfold priceOf at hprice
  split at hprice
  · next hblank => exact Or.inl ⟨hblank, (Except.ok.inj hprice).symm⟩
  · next hblank =>
    split at hprice
    · next d hd => exact Or.inr ⟨d, by simpa using hblank, hd, (Except.ok.inj hprice).symm⟩
    · cases hprice

theorem dictOf_ok {v : Value} {kvs : Dict} (hdict : dictOf v = .ok kvs) : v = .dict kvs := by
  cases v with
  | dict kvs' => rw [← Except.ok.inj hdict]
  | _ => cases hdict

theorem readQuote_ok {adapter : Except BrokerFailure Adapter} {adapter' : Adapter}
    {symbol contract_type direction : String} {quote_data : Value}
    (hread : readQuote h adapter symbol contract_type direction = .ok (adapter', quote_data)) :
    adapter = .ok adapter' ∧ adapter'.get_market_data = some (.ok quote_data) := by
  simp only [readQuote, bind_ok, mapError_ok, orReject_ok] at hread
  obtain ⟨found, hfound, _, _, reader, hreader, _, _, _, _, _, _, data, hdata, hpair⟩ := hread
  obtain ⟨rfl, rfl⟩ := Prod.mk.inj (Except.ok.inj hpair)
  exact ⟨hfound, by rw [hreader, hdata]⟩

theorem positive_of_isPositive {v : Value} {d : Dec} (hd : decimalOfText h (v.toStr h) = some d)
    (hpositive : isPositive d = true) : ∃ q, Positive h v q := by
  obtain ⟨q, hq, hpos⟩ := isPositive_iff.mp hpositive
  exact ⟨q, d, hd, hq, hpos⟩

/-- A price of the quote that may be missing, once it is checked. -/
theorem positive_of_priceOf {v : Value} {price : Option Dec} (hprice : priceOf h v = .ok price)
    (hpositive : price.all isPositive = true) :
    TradeHistory.isBlank v = true ∨ ∃ q, Positive h v q := by
  rcases priceOf_ok hprice with ⟨hblank, _⟩ | ⟨d, _, hd, rfl⟩
  · exact Or.inl hblank
  · exact Or.inr (positive_of_isPositive hd hpositive)

/-- The number that was read is the one that is compared. -/
theorem toRat_of_priceOf {v : Value} {price : Option Dec} {q : ℚ}
    (hprice : priceOf h v = .ok price) (hq : Positive h v q)
    (hpositive : price.all isPositive = true) (hnotblank : TradeHistory.isBlank v = false) :
    price.bind Dec.toRat = some q := by
  obtain ⟨d, hd, hrat, _⟩ := hq
  rcases priceOf_ok hprice with ⟨hblank, _⟩ | ⟨d', _, hd', rfl⟩
  · rw [hnotblank] at hblank
    cases hblank
  · obtain rfl : d = d' := Option.some.inj (hd.symm.trans hd')
    exact hrat

/-- What the checks of a quote have found. -/
theorem checkQuoteData_ok {symbol : String} {quote_data : Dict} {quote : Quote}
    (hquote : checkQuoteData h w symbol quote_data = .ok quote)
    (hpriced : Fresh w w.priced_at quote.epoch) : SoundQuote h w symbol quote_data := by
  simp only [checkQuoteData, bind_ok, require_ok, orReject_ok, intOr_ok] at hquote
  obtain ⟨price, hprice, epoch, hepoch, _, hidentity, _, hfresh, bid, hbid, ask, hask, _,
    hpositive, _, hcrossed, hresult⟩ := hquote
  obtain rfl := Except.ok.inj hresult
  obtain ⟨hsymbol, hfinite⟩ := Bool.and_eq_true_iff.mp hidentity
  obtain ⟨hbids, hasks⟩ := Bool.and_eq_true_iff.mp hpositive
  refine ⟨positive_of_isPositive hprice hfinite, ⟨epoch, hepoch, not_stale.mp hfresh, hpriced⟩,
    beq_iff_eq.mp hsymbol, positive_of_priceOf hbid hbids, positive_of_priceOf hask hasks, ?_⟩
  intro b a hb ha hposb hposa
  have hcompared : crossed bid ask = decide (a < b) := by
    rw [crossed, toRat_of_priceOf hbid hposb hbids hb, toRat_of_priceOf hask hposa hasks ha]
  rw [hcompared] at hcrossed
  simpa using hcrossed

theorem checkProposalData_ok {account : BrokerAccount} {request : Request} {v : Value}
    {cost payout : Dec} (hproposal : checkProposalData h account request v = .ok (cost, payout)) :
    ∃ proposal, v = .dict proposal ∧ SoundProposal h account request proposal := by
  cases v with
  | dict proposal =>
    refine ⟨proposal, rfl, ?_⟩
    simp only [checkProposalData, bind_ok, require_ok, orReject_ok, proposalInt_ok] at hproposal
    obtain ⟨cost', hcost, payout', hpayout, duration, hduration, _, hmatches, _⟩ := hproposal
    simp only [Bool.and_eq_true, beq_iff_eq] at hmatches
    obtain ⟨⟨⟨⟨⟨⟨⟨hid, hsymbol⟩, hcontract⟩, hcurrency⟩, hsame⟩, hunit⟩, hcostpos⟩, hpayoutpos⟩ :=
      hmatches
    rw [hsame] at hduration
    exact ⟨hid, hsymbol, hcontract, hcurrency, hduration, hunit,
      positive_of_isPositive hcost hcostpos, positive_of_isPositive hpayout hpayoutpos⟩
  | _ => cases hproposal

/-- An account that is admitted has passed the gates of its environment. -/
theorem liveGates_of_admitted {user_id : ℕ} {account : BrokerAccount} {u : Unit}
    (hadmitted : admitAccount h w user_id account = .ok u) : LiveGates h w account := by
  simp only [admitAccount, bind_ok, require_ok] at hadmitted
  obtain ⟨_, -, _, -, _, -, _, -, _, hsupported, _, hallowed, henabled⟩ := hadmitted
  intro hreal
  refine ⟨?_, ?_, ?_⟩
  · simpa [hreal] using hsupported
  · simpa [hreal] using hallowed
  · simpa [hreal] using henabled

theorem risk_of_checkStake {stake : Dec} {u : Unit} (hstake : checkStake w stake = .ok u) :
    w.risk stake = .ok () := by
  simp only [checkStake, bind_ok, require_ok] at hstake
  obtain ⟨_, _, hrisk⟩ := hstake
  split at hrisk
  · next hok => exact hok
  · cases hrisk

end Ready

/-- A preview that is ready is sound about every reply it has read. -/
theorem preview_sound (w : World) (adapter : Except BrokerFailure Adapter) (user_id : ℕ)
    (data : Dict) (response : Response)
    (hready : preview F w adapter user_id data = .ok response) :
    ∃ v adapter', clean F user_id data = some v ∧ adapter = .ok adapter' ∧
      SoundPreview h w adapter' v := by
  -- every step of the preview has returned
  simp only [preview, bind_ok, require_ok, mapError_ok, orReject_ok] at hready
  obtain ⟨v, hclean, _, hadmitted, _, -, _, -, _, hstake, ⟨adapter', quote_data⟩, hread, kvs, hdict,
    quote, hquote, reader, hreader, reply, hreply, ⟨cost, payout⟩, hproposal, _, hfresh, -⟩ := hready
  obtain ⟨rfl, hmarket⟩ := readQuote_ok hread
  obtain rfl := dictOf_ok hdict
  obtain ⟨proposal, rfl, hsound⟩ := checkProposalData_ok hproposal
  exact ⟨v, adapter', hclean, rfl, ⟨kvs, hmarket, checkQuoteData_ok hquote (not_stale.mp hfresh)⟩,
    ⟨reader, proposal, hreader, hreply, hsound⟩, risk_of_checkStake hstake,
    liveGates_of_admitted hadmitted⟩

/-! ## A ready preview -/

/-- An adapter that offers `CALL`, and quotes it. -/
def quoting : Adapter where
  get_trade_capabilities := some (.ok (.list [.dict [("contract_type", .str "CALL")]]))
  get_market_data := some (.ok (.dict [("symbol", .str "R_100"), ("quote", .float "100.5" 100),
    ("bid", .float "100.4" 100), ("ask", .float "100.6" 100), ("epoch", .int 1000)]))
  get_order_preview := some fun request => .ok (.dict [("proposal_id", .str "p1"),
    ("symbol", .str request.symbol), ("contract_type", .str request.contract_type),
    ("currency", .str "USD"), ("duration", .int request.duration),
    ("duration_unit", .str request.duration_unit), ("ask_price", .int 10),
    ("payout", .float "19.5" 19)])

/-- Its preview is ready, and so the risk validator has passed. -/
theorem preview_sound_minute :
    ∃ response v, preview jsonFields callOffered (.ok quoting) 3 minutePayload = .ok response ∧
      clean jsonFields 3 minutePayload = some v ∧
      SoundPreview CaseHost.ascii.toHost callOffered quoting v := by
  have hok : (preview jsonFields callOffered (.ok quoting) 3 minutePayload).isOk = true := by
    decide +kernel
  cases hready : preview jsonFields callOffered (.ok quoting) 3 minutePayload with
  | error e =>
    rw [hready] at hok
    cases hok
  | ok response =>
    obtain ⟨v, adapter', hclean, hadapter, hsound⟩ :=
      preview_sound jsonFields callOffered (.ok quoting) 3 minutePayload response hready
    rw [← Except.ok.inj hadapter] at hsound
    exact ⟨response, v, rfl, hclean, hsound⟩

end AlgoBot.Preview.Gates
