import AlgoBot.MarketData.Models
import AlgoBot.Python.Text
import AlgoBot.Strategies.Activation

/-!
# The analysis gate

`analysis_data` looks for the latest signal of the configurations that `configure` has saved for
the account, the symbol and the timeframe, and combines it with the AI decision, the candles,
the account, the contracts and the live quote to the execution gate. `configure` saves `M1` and
`H1`; the view asks for `1M` and `1H`.

* `upper_name_not_mem`: no timeframe of the view is one of `configure`.
* `saved_run`: in every run of the configurations only those of `configure` are saved.
* `gate_blind_iff`: the gate is right about the strategy exactly if there is no fresh signal to
  be seen.
* `momentum_unseen`: a signal that has just been stored.
-/

namespace AlgoBot.Analysis

open AlgoBot.Core AlgoBot.Python AlgoBot.MarketData
open AlgoBot.Strategies (Configuration Configure configuring oneAccount)

/-! ## The baseline -/

/-- A stored signal, at its microseconds. -/
structure StrategySignal where
  strategy : ℕ
  configuration : Option ℕ
  signal : Option String
  timestamp : ℤ
  deriving DecidableEq, Repr

/-- `order_by("-timestamp").first()`, of the rows in the order of the database. -/
def newest (signals : List StrategySignal) : Option StrategySignal :=
  signals.foldl (fun best signal =>
    match best with
    | some row => if row.timestamp < signal.timestamp then some signal else some row
    | none => some signal) none

/-- `_latest_strategy_baseline`. -/
def latest_strategy_baseline (s : Strategies.State) (signals : List StrategySignal)
    (account : Option ℕ) (symbol timeframe : String) (now : ℤ) : Option StrategySignal :=
  account.bind fun account =>
    newest (signals.filter fun signal =>
      ((signal.configuration.bind s.configurations.get?).any fun c =>
        c.broker_account == some account && c.symbol == symbol && c.timeframe == timeframe &&
          c.is_active && c.enabled) &&
      s.strategies signal.strategy && decide (signal.timestamp ≤ now))

def STRATEGY_BASELINE_MAX_AGE_SECONDS : ℤ := 300

/-! ## The gate -/

structure AiResult where
  models_used : ℤ
  decision : Option String
  confidence : Option ℚ
  recommendation : Option String

/-- `active_account`. -/
structure ActiveAccount where
  pk : ℕ
  broker_type : String
  user_id : ℕ
  is_connection_eligible : Bool

structure Capabilities where
  source : String
  available_contract_types : List String

structure LiveTick where
  quote : Option ℚ
  epoch : Option ℤ

/-- What a request has brought together by the time of the gate. -/
structure GateContext where
  user : ℕ
  candles : ℕ
  latest_epoch : ℤ
  ai : AiResult
  account : Option ActiveAccount
  /-- The account after `sync_account`, or the same one. -/
  synced_account : Option ActiveAccount
  broker_capabilities : Capabilities
  refresh_requested : Bool
  live_tick : Option LiveTick
  recommended_stake : Option ℚ

/-- The readings of the clock: two of `timezone.now()`, two of `int(time.time())`. -/
structure Clock where
  lookup : ℤ
  age : ℤ
  candle : ℤ
  quote : ℤ

structure ExecutionGate where
  data_fresh : Bool
  sufficient_history : Bool
  strategy_ready : Bool
  strategy_confluence : Bool
  ai_ready : Bool
  broker_contracts_confirmed : Bool
  account_scope_confirmed : Bool
  account_ready : Bool
  risk_ready : Bool
  live_quote_confirmed : Bool
  live_quote_fresh : Bool
  ready : Bool

def isDirection (direction : String) : Bool := direction == "BUY" || direction == "SELL"

/-- `strategy_direction`. -/
def strategy_direction (h : Host) (baseline : Option StrategySignal) : Option String :=
  baseline.map fun signal => upper h (signal.signal.getD "")

/-- `strategy_age`, in whole seconds. -/
def strategy_age (baseline : Option StrategySignal) (now : ℤ) : Option ℤ :=
  baseline.map fun signal => max 0 ((now - signal.timestamp) / 1000000)

def strategy_ready (h : Host) (baseline : Option StrategySignal) (now : ℤ) : Bool :=
  (strategy_age baseline now).any (fun age => decide (age ≤ STRATEGY_BASELINE_MAX_AGE_SECONDS)) &&
    (strategy_direction h baseline).any isDirection

/-- The gate as it is first written. -/
def ExecutionGate.initial (h : Host) (baseline : Option StrategySignal) (clock : Clock)
    (context : GateContext) : ExecutionGate :=
  let ready := Analysis.strategy_ready h baseline clock.age
  let ai := context.ai
  { data_fresh := false
    sufficient_history := decide (251 ≤ context.candles)
    strategy_ready := ready
    strategy_confluence := ready && ai.decision.any isDirection &&
      strategy_direction h baseline == ai.decision
    ai_ready := decide (0 < ai.models_used) && ai.decision.any isDirection &&
      ai.confidence.isSome && ai.recommendation == ai.decision
    broker_contracts_confirmed :=
      context.account.any (fun account => account.broker_type == "deriv") &&
        context.broker_capabilities.source == "deriv_authenticated_contracts_for" &&
        context.broker_capabilities.available_contract_types != []
    account_scope_confirmed := context.account.any fun account => account.user_id == context.user
    account_ready := false
    risk_ready := false
    live_quote_confirmed := false
    live_quote_fresh := false
    ready := false }

/-- `all` of its conditions. -/
def ExecutionGate.all (gate : ExecutionGate) : Bool :=
  gate.data_fresh && gate.sufficient_history && gate.ai_ready &&
    gate.broker_contracts_confirmed && gate.account_scope_confirmed && gate.account_ready &&
    gate.risk_ready && gate.live_quote_confirmed && gate.live_quote_fresh &&
    gate.strategy_ready && gate.strategy_confluence

/-- What is written into it later. -/
def ExecutionGate.later (gate : ExecutionGate) (timeframe : Timeframe) (clock : Clock)
    (context : GateContext) : ExecutionGate :=
  let quoted := context.refresh_requested && context.live_tick.any fun tick => tick.quote.isSome
  let live_quote_age := if quoted then
      (context.live_tick.bind LiveTick.epoch).map fun epoch => max 0 (clock.quote - epoch)
    else none
  let gate := { gate with
    data_fresh := decide
      (max 0 (clock.candle - context.latest_epoch) ≤ max 120 ((timeframe.seconds : ℤ) * 2))
    live_quote_confirmed := quoted
    live_quote_fresh := live_quote_age.any fun age => decide (age ≤ 5)
    account_ready := context.synced_account.any ActiveAccount.is_connection_eligible
    risk_ready := context.recommended_stake.any fun stake => decide (0 < stake) }
  { gate with ready := gate.all }

/-- The query of a request; a parameter that is missing is empty. -/
structure AnalysisQuery where
  symbol : String
  timeframe : String

/-- `text or dflt`. -/
def given (text dflt : String) : String := if text = "" then dflt else text

/-- The parts of the response that are about the strategy and the gate. -/
structure AnalysisResult where
  execution_gate : ExecutionGate
  /-- `analysis_layers.strategy.direction`. -/
  direction : Option String

/-- `analysis_data` of a request that is not answered from the cache; `none` is an error. -/
def analysis_data (h : Host) (s : Strategies.State) (markets : List MarketSymbol)
    (signals : List StrategySignal) (query : AnalysisQuery) (clock : Clock)
    (context : GateContext) : Option AnalysisResult := do
  let canonical_timeframe ← normalize_timeframe h (strip (given query.timeframe "1m"))
  let market ← market h markets (upper h (strip (given query.symbol "R_100")))
  if context.candles = 0 then none
  else
    let baseline := latest_strategy_baseline s signals (context.account.map ActiveAccount.pk)
      market.symbol (upper h canonical_timeframe.name) clock.lookup
    let gate := ExecutionGate.initial h baseline clock context
    some
      { execution_gate := gate.later canonical_timeframe clock context
        direction := if gate.strategy_ready then strategy_direction h baseline else none }

/-! ## What the claim asks -/

/-- The timeframes of `configure`. -/
def valid_timeframes : List String := ["M1", "M5", "M15", "M30", "H1", "H4", "D1"]

/-- Saved by `configure` for the account, the symbol and the timeframe of the query. -/
def SavedFor (h : Host) (account : Option ActiveAccount) (query : AnalysisQuery)
    (c : Configuration) : Prop :=
  c.broker_account.isSome ∧ c.broker_account = account.map ActiveAccount.pk ∧
    c.symbol = upper h (strip (given query.symbol "R_100")) ∧ c.timeframe ∈ valid_timeframes ∧
    TIMEFRAME_ALIASES.lookup c.timeframe =
      (normalize_timeframe h (strip (given query.timeframe "1m"))).map Timeframe.name

instance (h : Host) (account : Option ActiveAccount) (query : AnalysisQuery) (c : Configuration) :
    Decidable (SavedFor h account query c) := by
  unfold SavedFor
  infer_instance

/-- The signals at or before now of its active, enabled configurations. -/
def signalsFor (h : Host) (s : Strategies.State) (signals : List StrategySignal)
    (account : Option ActiveAccount) (query : AnalysisQuery) (now : ℤ) : List StrategySignal :=
  signals.filter fun signal =>
    ((signal.configuration.bind s.configurations.get?).any fun c =>
      decide (SavedFor h account query c) && c.is_active && c.enabled) &&
    decide (signal.timestamp ≤ now)

/-- The latest of them is a direction and at most 300 seconds old. -/
def FreshSignal (h : Host) (s : Strategies.State) (signals : List StrategySignal)
    (account : Option ActiveAccount) (query : AnalysisQuery) (clock : Clock) : Prop :=
  ∃ signal ∈ signalsFor h s signals account query clock.lookup,
    (∀ other ∈ signalsFor h s signals account query clock.lookup,
      other.timestamp ≤ signal.timestamp) ∧
    (signal.signal = some "BUY" ∨ signal.signal = some "SELL") ∧
    clock.age - signal.timestamp ≤ 300 * 1000000

instance (h : Host) (s : Strategies.State) (signals : List StrategySignal)
    (account : Option ActiveAccount) (query : AnalysisQuery) (clock : Clock) :
    Decidable (FreshSignal h s signals account query clock) := by
  unfold FreshSignal
  infer_instance

/-- Every condition the gate lists, and the agreement of the two directions. -/
structure Confirmed (result : AnalysisResult) (decision : Option String) : Prop where
  data_fresh : result.execution_gate.data_fresh = true
  sufficient_history : result.execution_gate.sufficient_history = true
  strategy_ready : result.execution_gate.strategy_ready = true
  strategy_confluence : result.execution_gate.strategy_confluence = true
  ai_ready : result.execution_gate.ai_ready = true
  broker_contracts_confirmed : result.execution_gate.broker_contracts_confirmed = true
  account_scope_confirmed : result.execution_gate.account_scope_confirmed = true
  account_ready : result.execution_gate.account_ready = true
  risk_ready : result.execution_gate.risk_ready = true
  live_quote_confirmed : result.execution_gate.live_quote_confirmed = true
  live_quote_fresh : result.execution_gate.live_quote_fresh = true
  agree : ∃ direction, isDirection direction = true ∧ result.direction = some direction ∧
    decision = some direction

/-! ## The gate is ready only if everything is -/

variable {h : Host} {s s' : Strategies.State} {markets : List MarketSymbol}
  {signals : List StrategySignal} {query : AnalysisQuery} {clock : Clock} {context : GateContext}
  {result : AnalysisResult}

/-- The directions agree where there is confluence. -/
theorem agree_of_confluence {baseline : Option StrategySignal}
    (hconfluence : (ExecutionGate.initial h baseline clock context).strategy_confluence = true) :
    ∃ direction, isDirection direction = true ∧
      (if (ExecutionGate.initial h baseline clock context).strategy_ready then
        strategy_direction h baseline else none) = some direction ∧
      context.ai.decision = some direction := by
  have hparts : ((ExecutionGate.initial h baseline clock context).strategy_ready = true ∧
      context.ai.decision.any isDirection = true) ∧
      strategy_direction h baseline = context.ai.decision := by
    simpa only [ExecutionGate.initial, Bool.and_eq_true, beq_iff_eq] using hconfluence
  obtain ⟨⟨hready, hdecision⟩, hsame⟩ := hparts
  obtain ⟨direction, hsome, hdirection⟩ := (Option.any_eq_true _ _).mp hdecision
  exact ⟨direction, hdirection, by rw [if_pos hready, hsame, hsome], hsome⟩

/-- `ready` is not among the conditions. -/
theorem later_ready (gate : ExecutionGate) (timeframe : Timeframe) :
    (gate.later timeframe clock context).ready = (gate.later timeframe clock context).all := by
  unfold ExecutionGate.later
  rfl

theorem confirmed_of_ready
    (hdata : analysis_data h s markets signals query clock context = some result)
    (hready : result.execution_gate.ready = true) : Confirmed result context.ai.decision := by
  simp only [analysis_data, Option.bind_eq_bind, Option.bind_eq_some_iff] at hdata
  obtain ⟨timeframe, _, market, _, hdata⟩ := hdata
  split at hdata
  · cases hdata
  · obtain rfl := Option.some.inj hdata
    dsimp only at hready
    rw [later_ready] at hready
    simp only [ExecutionGate.all, Bool.and_eq_true] at hready
    obtain ⟨⟨⟨⟨⟨⟨⟨⟨⟨⟨hcandles, hhistory⟩, hai⟩, hcontracts⟩, hscope⟩, haccount⟩, hrisk⟩, hquote⟩,
      hfresh⟩, hstrategy⟩, hconfluence⟩ := hready
    exact ⟨hcandles, hhistory, hstrategy, hconfluence, hai, hcontracts, hscope, haccount, hrisk,
      hquote, hfresh, agree_of_confluence hconfluence⟩

/-! ## The timeframes -/

/-- The view asks for a timeframe that `configure` never saves. -/
theorem upper_name_not_mem (timeframe : Timeframe) :
    upper h timeframe.name ∉ valid_timeframes := by
  have hascii : (timeframe.name.toList.all fun c => decide (c.val < 128)) = true := by
    cases timeframe <;> rfl
  rw [upper_of_ascii hascii]
  cases timeframe <;> decide +kernel

/-! ## What `configure` saves -/

/-- Every configuration has a timeframe of `configure`, and every request has one. -/
structure Saved (s : Strategies.State) : Prop where
  rows : ∀ c ∈ s.configurations, c.timeframe ∈ valid_timeframes
  bodies : ∀ i body, (s.requests i).body? = some body → body.timeframe ∈ valid_timeframes

variable {a : Strategies.Action} {as : List Strategies.Action} {i now choice : ℕ}
  {table : Table Configuration} {body : Configure} {account : Option ℕ}

theorem timeframe_mem_of_valid (hvalid : body.valid = true) :
    body.timeframe ∈ valid_timeframes := by
  simp only [Configure.valid, Bool.and_eq_true] at hvalid
  exact List.contains_iff_mem.mp hvalid.1.1.2

/-- A request goes on with the body it has, or with none. -/
theorem Saved.set (hs : Saved s) (i : ℕ) {r : Strategies.Request}
    (hbody : ∀ body, r.body? = some body → body.timeframe ∈ valid_timeframes) :
    Saved (s.set i r) where
  rows := hs.rows
  bodies j body hj := by
    by_cases hsame : j = i
    · rw [hsame] at hj
      exact hbody body (by simpa [Strategies.State.set] using hj)
    · exact hs.bodies j body (by simpa [Strategies.State.set, hsame] using hj)

theorem Saved.idle (hs : Saved s) (i : ℕ) : Saved (s.set i .idle) := hs.set i nofun

theorem Saved.update (hs : Saved s) {f : Configuration → Configuration}
    {hpk : ∀ c, HasPk.pk (f c) = HasPk.pk c} (htimeframe : ∀ c, (f c).timeframe = c.timeframe) :
    Saved { s with configurations := s.configurations.update f hpk } where
  rows c hc := by
    obtain ⟨d, hd, rfl⟩ := List.mem_map.mp hc
    rw [htimeframe]
    exact hs.rows d hd
  bodies := hs.bodies

/-- A saved table keeps its timeframes and takes that of the body. -/
theorem timeframe_save {now : ℕ} {c : Configuration}
    (hrows : ∀ c ∈ table, c.timeframe ∈ valid_timeframes)
    (hbody : body.timeframe ∈ valid_timeframes) (hc : c ∈ (body.save account now table).1) :
    c.timeframe ∈ valid_timeframes := by
  unfold Configure.save at hc
  split at hc
  · next d hd =>
    rcases Table.mem_set hc with rfl | ⟨hc, _⟩
    · exact hrows d (Table.mem_of_find? hd)
    · exact hrows c hc
  · rcases Table.mem_create hc with rfl | hc
    · exact hbody
    · exact hrows c hc

theorem timeframe_deactivated {c : Configuration}
    (hrows : ∀ c ∈ table, c.timeframe ∈ valid_timeframes)
    (hc : c ∈ Strategies.deactivated table) : c.timeframe ∈ valid_timeframes := by
  obtain ⟨d, hd, rfl⟩ := List.mem_map.mp hc
  exact hrows d hd

theorem saved_advance (hs : Saved s)
    (hnext : (s.requests i).advance s i now choice = some s') : Saved s' := by
  have hbodies := hs.bodies i
  obtain ⟨r, rfl, _, hbody⟩ | ⟨config, _, rfl⟩ | ⟨config, _, rfl⟩ |
    ⟨body, account, existing, hrequest, _, _, rfl⟩ | ⟨body, account, existing, hrequest, _, rfl⟩ :=
    Strategies.advance_cases hnext
  · exact hs.set i fun body hr => hbodies body (hbody body hr)
  · refine ⟨fun c hc => ?_, (hs.idle i).bodies⟩
    obtain ⟨d, hd, rfl⟩ := List.mem_map.mp hc
    have htimeframe := timeframe_deactivated hs.rows hd
    split
    · exact htimeframe
    · exact htimeframe
  · refine (hs.idle i).update fun c => ?_
    split <;> rfl
  · rw [hrequest] at hbodies
    exact ⟨fun c hc => timeframe_save (fun d hd => timeframe_deactivated hs.rows hd)
      (hbodies body rfl) hc, (hs.idle i).bodies⟩
  · rw [hrequest] at hbodies
    exact ⟨fun c hc => timeframe_save hs.rows (hbodies body rfl) hc, (hs.idle i).bodies⟩

theorem saved_begin {strategy : ℕ} {r : Strategies.Request} (hs : Saved s)
    (hbody : ∀ body, r.body? = some body → body.timeframe ∈ valid_timeframes)
    (hnext : s.begin i strategy r = some s') : Saved s' := by
  unfold Strategies.State.begin at hnext
  split at hnext
  · split at hnext
    · cases hnext
      exact hs.set i hbody
    · cases hnext
  · cases hnext

theorem saved_step (s : Strategies.State) (a : Strategies.Action) (s' : Strategies.State)
    (hs : Saved s) (hnext : Strategies.strategies.next s a = some s') : Saved s' := by
  cases a with
  | switch i strategy configuration_id =>
    refine saved_begin hs ?_ hnext
    rintro _ ⟨⟩
  | disconnect i strategy configuration_id =>
    refine saved_begin hs ?_ hnext
    rintro _ ⟨⟩
  | configure i body =>
    simp only [Strategies.strategies, Strategies.State.next] at hnext
    split at hnext
    · next hvalid =>
      refine saved_begin hs ?_ hnext
      rintro _ ⟨⟩
      exact timeframe_mem_of_valid hvalid
    · cases hnext
  | advance i now choice => exact saved_advance hs hnext
  | fail i =>
    cases hnext
    exact hs.idle i
  | pause ids =>
    cases hnext
    refine hs.update fun c => ?_
    split <;> rfl
  | stop ids =>
    cases hnext
    refine hs.update fun c => ?_
    split <;> rfl
  | account a active =>
    cases hnext
    exact ⟨hs.rows, hs.bodies⟩
  | subscribe plan =>
    cases hnext
    exact ⟨hs.rows, hs.bodies⟩
  | catalogue strategy enabled =>
    cases hnext
    exact ⟨hs.rows, hs.bodies⟩
  | engine configurations =>
    cases hnext
    exact hs
  | tick schedule =>
    cases hnext
    exact hs

/-- In every run only `configure` saves timeframes. -/
theorem saved_run {accounts : ℕ → Option Bool} {plan : Strategies.Plan} {enabled : ℕ → Bool}
    (hrun : Strategies.strategies.Run (Strategies.State.start accounts plan enabled) as s) :
    Saved s := by
  have hstart : Saved (Strategies.State.start accounts plan enabled) :=
    ⟨nofun, nofun⟩
  exact hrun.invariant (fun s a s' _ => saved_step s a s') hstart

/-! ## The lookup -/

theorem newest_nil : newest [] = none := rfl

/-- There is no baseline for any timeframe of the view. -/
theorem no_baseline (hs : Saved s) (account : Option ℕ) (symbol : String) (timeframe : Timeframe)
    (now : ℤ) :
    latest_strategy_baseline s signals account symbol (upper h timeframe.name) now = none := by
  unfold latest_strategy_baseline
  cases account with
  | none => rfl
  | some account =>
    rw [Option.bind_some]
    have hnone : (signals.filter fun signal =>
        ((signal.configuration.bind s.configurations.get?).any fun c =>
          c.broker_account == some account && c.symbol == symbol &&
            c.timeframe == upper h timeframe.name && c.is_active && c.enabled) &&
        s.strategies signal.strategy && decide (signal.timestamp ≤ now)) = [] := by
      rw [List.filter_eq_nil_iff]
      intro signal _ hmatch
      -- the configuration of a match would have a timeframe that is never saved
      simp only [Bool.and_eq_true] at hmatch
      obtain ⟨⟨hfound, _⟩, _⟩ := hmatch
      obtain ⟨c, hc, hsame⟩ := (Option.any_eq_true _ _).mp hfound
      obtain ⟨pk, _, hget⟩ := Option.bind_eq_some_iff.mp hc
      simp only [Bool.and_eq_true, beq_iff_eq] at hsame
      have hsaved := hs.rows c (Table.get?_eq_some.mp hget).1
      rw [hsame.1.1.2] at hsaved
      exact upper_name_not_mem timeframe hsaved
    rw [hnone, newest_nil]

/-- The gate never sees a strategy. -/
theorem strategy_unready (hs : Saved s)
    (hdata : analysis_data h s markets signals query clock context = some result) :
    result.execution_gate.strategy_ready = false := by
  simp only [analysis_data, Option.bind_eq_bind, Option.bind_eq_some_iff] at hdata
  obtain ⟨timeframe, _, market, _, hdata⟩ := hdata
  split at hdata
  · cases hdata
  · obtain rfl := Option.some.inj hdata
    rw [no_baseline hs]
    rfl

/-- In every run of the configurations and for all signals, the gate is right about the strategy
exactly if there is no fresh signal to be seen. -/
theorem gate_blind_iff {accounts : ℕ → Option Bool} {plan : Strategies.Plan} {enabled : ℕ → Bool}
    (hrun : Strategies.strategies.Run (Strategies.State.start accounts plan enabled) as s)
    (hdata : analysis_data h s markets signals query clock context = some result) :
    ((result.execution_gate.strategy_ready = true ↔
          FreshSignal h s signals context.account query clock) ∧
        (result.execution_gate.ready = true → Confirmed result context.ai.decision)) ↔
      ¬ FreshSignal h s signals context.account query clock := by
  have hunready := strategy_unready (saved_run hrun) hdata
  rw [hunready]
  constructor
  · rintro ⟨hsees, _⟩ hfresh
    cases hsees.mpr hfresh
  · intro hnone
    exact ⟨iff_of_false Bool.false_ne_true hnone, confirmed_of_ready hdata⟩

/-! ### A strategy for R_75 -/

def volatility75 : List MarketSymbol := [⟨1, "R_75", true, true⟩]

def minute : AnalysisQuery := ⟨"R_75", "M1"⟩

def noon : Clock := ⟨1000000000, 1000000000, 1000, 1000⟩

/-- Everything but the strategy is ready. -/
def prepared : GateContext where
  user := 1
  candles := 300
  latest_epoch := 1000
  ai := ⟨1, some "BUY", some 80, some "BUY"⟩
  account := some ⟨1, "deriv", 1, true⟩
  synced_account := some ⟨1, "deriv", 1, true⟩
  broker_capabilities := ⟨"deriv_authenticated_contracts_for", ["CALL"]⟩
  refresh_requested := true
  live_tick := some ⟨some 100, some 1000⟩
  recommended_stake := some 5

/-- A signal of the configuration, ten seconds old. -/
def bought : StrategySignal := ⟨1, some 1, some "BUY", 990000000⟩

/-- Without a signal the gate is right. -/
theorem nothing_unseen : ∃ s result,
    analysis_data Host.ascii s volatility75 [] minute noon prepared = some result ∧
      ((result.execution_gate.strategy_ready = true ↔
          FreshSignal Host.ascii s [] prepared.account minute noon) ∧
        (result.execution_gate.ready = true → Confirmed result prepared.ai.decision)) := by
  have hexec : (Strategies.strategies.exec (Strategies.State.start oneAccount .FREE fun _ => true)
      (configuring true)).any (fun t =>
        (analysis_data Host.ascii t volatility75 [] minute noon prepared).isSome &&
          !decide (FreshSignal Host.ascii t [] prepared.account minute noon)) = true := by
    decide +kernel
  obtain ⟨t, ht, hparts⟩ := (Option.any_eq_true _ _).mp hexec
  obtain ⟨hsome, hnone⟩ := Bool.and_eq_true_iff.mp hparts
  obtain ⟨result, hdata⟩ := Option.isSome_iff_exists.mp hsome
  refine ⟨t, result, hdata, (gate_blind_iff (Machine.exec_eq_some_iff.mp ht) hdata).mpr ?_⟩
  simpa using hnone

/-- A signal that is ten seconds old is not seen. -/
theorem momentum_unseen : ¬ ∀ (s : Strategies.State) (as : List Strategies.Action)
    (signals : List StrategySignal) (result : AnalysisResult),
    Strategies.strategies.Run (Strategies.State.start oneAccount .FREE fun _ => true) as s →
    analysis_data Host.ascii s volatility75 signals minute noon prepared = some result →
      (result.execution_gate.strategy_ready = true ↔
        FreshSignal Host.ascii s signals prepared.account minute noon) := by
  intro hall
  have hexec : (Strategies.strategies.exec (Strategies.State.start oneAccount .FREE fun _ => true)
      (configuring true)).any (fun t =>
        (analysis_data Host.ascii t volatility75 [bought] minute noon prepared).isSome &&
          decide (FreshSignal Host.ascii t [bought] prepared.account minute noon)) = true := by
    decide +kernel
  obtain ⟨t, ht, hparts⟩ := (Option.any_eq_true _ _).mp hexec
  obtain ⟨hsome, hfresh⟩ := Bool.and_eq_true_iff.mp hparts
  obtain ⟨result, hdata⟩ := Option.isSome_iff_exists.mp hsome
  have hrun := Machine.exec_eq_some_iff.mp ht
  have hready := (hall t _ [bought] result hrun hdata).mpr (of_decide_eq_true hfresh)
  rw [strategy_unready (saved_run hrun) hdata] at hready
  cases hready

end AlgoBot.Analysis
