import AlgoBot.Automation.Conditions

/-!
# Risk approval

`RiskEngine.evaluate_order`: the score of a context, the limits of the user's profile and
rules, and the consensus of the models, as far as the order shows it to the engine.

* `approved_iff`: when an order is approved.
* `approved_smaller`: then it is approved with any smaller stake, too.
* `approval_sound_iff`: approval rests on the limits, the score and the consensus exactly
  if no consensus that the order carries under another name fails the gate.
* `consensus_ignored`: an order approved against its consensus.
-/

namespace AlgoBot.Risk

open AlgoBot.Core AlgoBot.Python
open AlgoBot.Automation.Conditions (FloatHost toFloat)

/-! ## Rows -/

/-- A number with so many digits, some of them decimals. -/
structure Amount (digits : ℕ) where
  neg : Bool
  coeff : ℕ
  exp : ℤ
  lt : coeff < 10 ^ digits
  le : exp ≤ 0

def Amount.value {digits : ℕ} (a : Amount digits) : Dec := .finite a.neg a.coeff a.exp

/-- The balance has twenty digits. -/
structure BrokerAccount where
  balance : Amount 20

/-- The limits are fractions between 0 and 1, with six decimals. -/
structure RiskProfile where
  max_risk_per_trade : Amount 7
  max_exposure : Amount 7

structure RiskRule where
  rule_type : String
  value : Dec
  enabled : Bool

/-- An order of the execution app has a `validation_context`, one of the brokers app has a
`routing_context`; the attribute that it lacks is `none`. -/
structure Order where
  direction : String
  stake : Dec
  account : Option BrokerAccount
  routing_context : Option Value
  validation_context : Option Value

structure Assessment where
  risk_score : ℕ
  approved : Bool
  rejection_reason : String
  stake : Dec
  ai_consensus : Value

/-- The interpreter, with the texts of its exceptions and `f"{x:.2f}"`. -/
structure Env where
  host : FloatHost
  errorText : PyError → String
  signalText : Dec.Signal → String
  fixed2 : Double → String

/-! ## `RiskService.score` -/

def RISK_SCORE_FIELDS : List String :=
  ["volatility", "exposure", "drawdown", "correlation", "margin", "market_conditions",
    "strategy_confidence"]

/-- `_score_context`. -/
def scoreContext (context : Dict) : Dict :=
  (RISK_SCORE_FIELDS.filter context.contains).map fun key => (key, context.get key)

def natural (n : ℕ) : Dec := .finite false n 0

/-- `Decimal(str(v))`. -/
def decimalOf (h : Host) (v : Value) : Except Dec.Signal Dec :=
  match decimalOfText h (v.toStr h) with
  | some d => .ok d
  | none => .error .invalidOperation

/-- `Decimal(str(context[key])) * weight`. -/
def weighted (h : Host) (context : Dict) (key : String) (weight : ℕ) : Except Dec.Signal Dec := do
  let d ← decimalOf h (context.getD key (.int 0))
  Dec.mul d (natural weight)

/-- `int(max(0, min(100, raw)))`. -/
def clamp (raw : Dec) : Except Dec.Signal ℕ := do
  let capped := if ← Dec.gt (natural 100) raw then raw else natural 100
  let raised := if ← Dec.gt capped (natural 0) then capped else natural 0
  return ⌊(raised.toRat.getD 0)⌋.toNat

def score (h : Host) (context : Dict) : Except Dec.Signal ℕ := do
  let raw ← Dec.add (← weighted h context "volatility" 20) (← weighted h context "exposure" 20)
  let raw ← Dec.add raw (← weighted h context "drawdown" 25)
  let raw ← Dec.add raw (← weighted h context "correlation" 15)
  let raw ← Dec.add raw (← weighted h context "margin" 10)
  let raw ← Dec.add raw (← weighted h context "market_conditions" 10)
  let doubt ← Dec.sub (natural 1) (← decimalOf h (context.getD "strategy_confidence" (.int 1)))
  let raw ← Dec.add raw (← Dec.mul doubt (natural 20))
  clamp raw

/-! ## `RiskValidator` -/

/-- `_decimal`. -/
def finiteOr (d : Dec) (field_name : String) : Except String Unit :=
  if d.toRat.isSome then .ok () else .error ("Invalid " ++ field_name)

/-- Refuse where a comparison holds, or raises. -/
def refuseIf (env : Env) (comparison : Except Dec.Signal Bool) (message : String) :
    Except String Unit :=
  match comparison with
  | .ok true => .error message
  | .ok false => .ok ()
  | .error signal => .error (env.signalText signal)

/-- `stake > limit * balance`. -/
def exceedsShare (stake limit balance : Dec) : Except Dec.Signal Bool := do
  Dec.gt stake (← Dec.mul limit balance)

/-- The body of the loop over the rules. -/
def checkRule (env : Env) (stake balance : Dec) (rule : RiskRule) : Except String Unit := do
  finiteOr rule.value "risk rule value"
  refuseIf env (Dec.gt (natural 0) rule.value) "Risk rule values cannot be negative"
  if rule.rule_type = "max_stake_limit" then
    refuseIf env (Dec.gt stake rule.value) "Maximum stake limit exceeded"
  if rule.rule_type = "minimum_balance" then
    refuseIf env (Dec.gt rule.value balance) "Minimum balance requirement not met"

/-- The balance of the order's account. -/
def balanceOf (order : Order) : Dec :=
  match order.account with
  | some account => account.balance.value
  | none => natural 0

/-- `validate_order`; the rules are those of the profile, by priority. -/
def validateOrder (env : Env) (profile : RiskProfile) (rules : List RiskRule) (order : Order) :
    Except String Unit := do
  let balance := balanceOf order
  finiteOr balance "account balance"
  finiteOr order.stake "stake"
  refuseIf env ((Dec.gt order.stake (natural 0)).map not) "Stake must be greater than zero"
  refuseIf env ((Dec.gt balance (natural 0)).map not) "Account balance must be greater than zero"
  let max_risk_per_trade := profile.max_risk_per_trade.value
  let max_exposure := profile.max_exposure.value
  finiteOr max_risk_per_trade "max risk per trade"
  finiteOr max_exposure "max exposure"
  refuseIf env (Dec.gt (natural 0) max_risk_per_trade) "Risk profile limits cannot be negative"
  refuseIf env (Dec.gt (natural 0) max_exposure) "Risk profile limits cannot be negative"
  refuseIf env (exceedsShare order.stake max_risk_per_trade balance)
    "Maximum risk per trade exceeded"
  refuseIf env (exceedsShare order.stake max_exposure balance) "Maximum exposure exceeded"
  (rules.filter RiskRule.enabled).forM (checkRule env order.stake balance)

/-! ## The consensus gate -/

/-- A `get` of something that is no dict. -/
def attributeError {α : Type} (env : Env) : Except String α := .error (env.errorText .AttributeError)

/-- The dict that is read where the value is truthy. -/
def dictOr (env : Env) (v : Value) : Except String Dict :=
  match v with
  | .dict kvs => .ok kvs
  | v => if v.truthy then attributeError env else .ok []

/-- `routing.get("ai_consensus") or routing.get("ai_decision") or {}`. -/
def consensusOf (routing : Dict) : Value := routing.firstOf ["ai_consensus", "ai_decision"]

def refuse (refused : Bool) (message : String) : Except String Unit :=
  if refused then .error message else .ok ()

/-- The gate, for a consensus that is there. -/
def consensusGate (env : Env) (direction : String) (consensus : Value) : Except String Unit := do
  let h := env.host
  let ai ← dictOr env consensus
  let decision := upper h.toHost (textOr h.toHost (ai.firstOf ["decision", "recommendation"]) "")
  let confidence ← (toFloat h ((ai.get "confidence").or (.int 0))).mapError env.errorText
  let models_used ← (((ai.get "models_used").or (.int 0)).toInt h.toHost).mapError env.errorText
  refuse (decision ∉ ["BUY", "SELL"]) "Ensemble consensus is not actionable"
  refuse (decision != upper h.toHost direction)
    "Order direction conflicts with ensemble consensus"
  refuse (Double.lt confidence (.fin 65))
    ("Ensemble confidence " ++ env.fixed2 confidence ++ "% below 65.00% gate")
  refuse (ai.contains "models_used" && models_used < 1) "No trained ensemble models available"

/-- The gate, if the context shows a consensus. -/
def checkConsensus (env : Env) (direction : String) (context : Value) : Except String Unit := do
  let routing ← dictOr env context
  if (consensusOf routing).truthy then consensusGate env direction (consensusOf routing)

/-! ## `RiskEngine.evaluate_order` -/

/-- What the engine can raise. -/
inductive Raised where
  | signal (s : Dec.Signal)
  | attribute (message : String)

/-- `getattr(order, "routing_context", {}) or {}`. -/
def routingOf (order : Order) : Value := order.routing_context.getD (.dict [])

def evaluateOrder (env : Env) (profile : RiskProfile) (rules : List RiskRule) (context : Dict)
    (order : Order) : Except Raised Assessment := do
  let score ← (score env.host.toHost (scoreContext context)).mapError .signal
  let verdict := do
    validateOrder env profile rules order
    checkConsensus env order.direction (routingOf order)
  -- the attributes of the assessment are read outside the `try` statement
  let routing ← (dictOr env (routingOf order)).mapError .attribute
  let adjusted : Dec × Value := (order.stake, routing.getD "ai_consensus" (.dict []))
  match verdict with
  | .ok () =>
    return ⟨score, score < 80, if score < 80 then "" else "Extreme risk score", adjusted.1,
      adjusted.2⟩
  | .error reason => return ⟨score, false, reason, adjusted.1, adjusted.2⟩

/-- The engine returns an assessment that approves the order. -/
def Approved (env : Env) (profile : RiskProfile) (rules : List RiskRule) (context : Dict)
    (order : Order) : Prop :=
  ∃ assessment, evaluateOrder env profile rules context order = .ok assessment ∧
    assessment.approved = true

/-! ## The limits -/

theorem refuseIf_ok {env : Env} {comparison : Except Dec.Signal Bool} {message : String}
    {u : Unit} : refuseIf env comparison message = .ok u ↔ comparison = .ok false := by
  unfold refuseIf
  split <;> simp

theorem refuse_ok {refused : Bool} {message : String} {u : Unit} :
    refuse refused message = .ok u ↔ refused = false := by
  unfold refuse
  cases refused <;> simp

theorem finiteOr_ok {d : Dec} {field_name : String} {u : Unit} :
    finiteOr d field_name = .ok u ↔ ∃ q, d.toRat = some q := by
  unfold finiteOr
  rw [← Option.isSome_iff_exists]
  split
  · next hfinite => simp [hfinite]
  · next hnot => simp [hnot]

theorem toRat_natural (n : ℕ) : (natural n).toRat = some (n : ℚ) := by
  simp [natural, Dec.toRat]

theorem Amount.exists_toRat {digits : ℕ} (a : Amount digits) : ∃ q, a.value.toRat = some q :=
  ⟨_, rfl⟩

/-- The share of the balance is not rounded: its digits fit into the precision. -/
theorem mul_amount (limit : Amount 7) (balance : Amount 20) :
    ∃ share, Dec.mul limit.value balance.value = .ok share ∧
      ∀ p q, limit.value.toRat = some p → balance.value.toRat = some q →
        share.toRat = some (p * q) := by
  have hfits : limit.coeff * balance.coeff < 10 ^ Dec.prec := by
    have hlimit := limit.lt
    have hbalance := balance.lt
    have hprec : (10 : ℕ) ^ Dec.prec = 10 ^ 8 * 10 ^ 20 := by decide
    rw [hprec]
    calc limit.coeff * balance.coeff ≤ 10 ^ 7 * balance.coeff :=
          Nat.mul_le_mul_right _ (Nat.le_of_lt hlimit)
      _ < 10 ^ 8 * 10 ^ 20 := by omega
  have hmul : Dec.mul limit.value balance.value =
      .ok (.finite (limit.neg != balance.neg) (limit.coeff * balance.coeff)
        (limit.exp + balance.exp)) := by
    have hexp : limit.exp + balance.exp ≤ 0 := by
      have hlimit := limit.le
      have hbalance := balance.le
      omega
    exact Dec.mulFinite_of_lt hfits hexp
  refine ⟨_, hmul, fun p q hp hq => ?_⟩
  rw [← Option.some.inj hp, ← Option.some.inj hq]
  rw [Dec.toRat, zpow_add₀ (by norm_num)]
  congr 1
  cases limit.neg <;> cases balance.neg <;> simp <;> ring

/-- The order keeps to the limits of the profile and the rules. -/
structure Within (profile : RiskProfile) (rules : List RiskRule) (order : Order)
    (stake balance risk exposure : ℚ) : Prop where
  stake_eq : order.stake.toRat = some stake
  balance_eq : (balanceOf order).toRat = some balance
  risk_eq : profile.max_risk_per_trade.value.toRat = some risk
  exposure_eq : profile.max_exposure.value.toRat = some exposure
  positive : 0 < stake
  funded : 0 < balance
  limits : 0 ≤ risk ∧ 0 ≤ exposure
  share : stake ≤ min risk exposure * balance
  /-- No value of a rule is negative, and the enabled limits hold. -/
  rules : ∀ rule ∈ rules, rule.enabled = true → ∃ value, rule.value.toRat = some value ∧
    0 ≤ value ∧ (rule.rule_type = "max_stake_limit" → stake ≤ value) ∧
      (rule.rule_type = "minimum_balance" → value ≤ balance)

section Limits

variable {env : Env} {profile : RiskProfile} {rules : List RiskRule} {order : Order}

theorem exceedsShare_eq {stake : Dec} {limit : Amount 7} {balance : Amount 20} {q r b : ℚ}
    (hq : stake.toRat = some q) (hr : limit.value.toRat = some r)
    (hb : balance.value.toRat = some b) :
    exceedsShare stake limit.value balance.value = .ok (decide (r * b < q)) := by
  obtain ⟨share, hshare, hrat⟩ := mul_amount limit balance
  have hproduct := hrat r b hr hb
  simp only [exceedsShare, hshare, bind, Except.bind]
  exact Dec.gt_of_toRat hq hproduct

theorem gt_natural {d : Dec} {q : ℚ} (hq : d.toRat = some q) (n : ℕ) :
    Dec.gt d (natural n) = .ok (decide ((n : ℚ) < q)) := Dec.gt_of_toRat hq (toRat_natural n)

theorem natural_gt {d : Dec} {q : ℚ} (hq : d.toRat = some q) (n : ℕ) :
    Dec.gt (natural n) d = .ok (decide (q < n)) := Dec.gt_of_toRat (toRat_natural n) hq

theorem checkRule_ok {stake balance : Dec} {q b : ℚ} (hq : stake.toRat = some q)
    (hb : balance.toRat = some b) (rule : RiskRule) :
    checkRule env stake balance rule = .ok () ↔ ∃ value, rule.value.toRat = some value ∧
      0 ≤ value ∧ (rule.rule_type = "max_stake_limit" → q ≤ value) ∧
        (rule.rule_type = "minimum_balance" → value ≤ b) := by
  cases hv : rule.value.toRat with
  | none => simp [checkRule, bind_ok, finiteOr_ok, hv]
  | some value =>
    have hstake := Dec.gt_of_toRat hq hv
    have hbalance := Dec.gt_of_toRat hv hb
    have hzero := natural_gt hv 0
    by_cases hmax : rule.rule_type = "max_stake_limit"
    · have hnot : rule.rule_type ≠ "minimum_balance" := by
        rw [hmax]
        decide
      simp [checkRule, bind_ok, finiteOr_ok, refuseIf_ok, hv, hmax, hstake, hzero, pure,
        Except.pure]
    · by_cases hmin : rule.rule_type = "minimum_balance"
      · simp [checkRule, bind_ok, finiteOr_ok, refuseIf_ok, hv, hmin, hbalance, hzero]
      · simp [checkRule, bind_ok, finiteOr_ok, refuseIf_ok, hv, hmax, hmin, hzero, pure,
          Except.pure]

theorem forM_ok {α ε : Type} {f : α → Except ε Unit} {xs : List α} :
    xs.forM f = .ok () ↔ ∀ x ∈ xs, f x = .ok () := by
  induction xs with
  | nil => simp [pure, Except.pure]
  | cons x xs ih =>
    change (f x >>= fun _ => xs.forM f) = .ok () ↔ _
    rw [bind_ok, List.forall_mem_cons, ← ih]
    constructor
    · rintro ⟨_, hx, hxs⟩
      exact ⟨hx, hxs⟩
    · rintro ⟨hx, hxs⟩
      exact ⟨(), hx, hxs⟩

/-- What the validator accepts keeps to the limits. -/
theorem validateOrder_ok :
    validateOrder env profile rules order = .ok () ↔
      ∃ stake balance risk exposure, Within profile rules order stake balance risk exposure := by
  obtain ⟨risk, hrisk⟩ := profile.max_risk_per_trade.exists_toRat
  obtain ⟨exposure, hexposure⟩ := profile.max_exposure.exists_toRat
  cases hstake : order.stake.toRat with
  | none =>
    constructor
    · intro hok
      simp [validateOrder, bind_ok, finiteOr_ok, hstake] at hok
    · rintro ⟨stake, _, _, _, hwithin⟩
      rw [hwithin.stake_eq] at hstake
      cases hstake
  | some stake =>
    cases haccount : order.account with
    | none =>
      -- without an account the balance is 0
      have hbalance : balanceOf order = natural 0 := by rw [balanceOf, haccount]
      have hzero : (balanceOf order).toRat = some 0 := by
        rw [hbalance, toRat_natural]
        rfl
      constructor
      · intro hok
        simp [validateOrder, bind_ok, finiteOr_ok, refuseIf_ok, hstake, hzero,
          gt_natural hzero, Except.map] at hok
      · rintro ⟨_, balance, _, _, hwithin⟩
        obtain rfl : 0 = balance := Option.some.inj (hzero.symm.trans hwithin.balance_eq)
        exact absurd hwithin.funded (lt_irrefl _)
    | some account =>
      obtain ⟨balance, hvalue⟩ := account.balance.exists_toRat
      have hshown : balanceOf order = account.balance.value := by rw [balanceOf, haccount]
      have hbalance : (balanceOf order).toRat = some balance := by rw [hshown, hvalue]
      have hrisked := exceedsShare_eq hstake hrisk hvalue
      have hexposed := exceedsShare_eq hstake hexposure hvalue
      rw [← hshown] at hrisked hexposed
      simp only [validateOrder, bind_ok, finiteOr_ok, refuseIf_ok, hstake, hbalance, hrisk,
        hexposure, gt_natural hstake, gt_natural hbalance, natural_gt hrisk, natural_gt hexposure,
        hrisked, hexposed, Except.map, forM_ok, checkRule_ok hstake hbalance]
      constructor
      · rintro ⟨_, -, _, -, _, hpositive, _, hfunded, _, -, _, -, _, hlimit, _, hlimit', _, hshare, _,
          hshare', hrules⟩
        have hbalance_pos : 0 < balance := by simpa using hfunded
        refine ⟨stake, balance, risk, exposure, hstake, hbalance, hrisk, hexposure,
          by simpa using hpositive, hbalance_pos, ⟨by simpa using hlimit, by simpa using hlimit'⟩, ?_,
          ?_⟩
        · rw [min_mul_of_nonneg _ _ hbalance_pos.le]
          exact le_min (by simpa using hshare) (by simpa using hshare')
        · intro rule hrule henabled
          exact hrules rule (List.mem_filter.mpr ⟨hrule, henabled⟩)
      · rintro ⟨stake', balance', risk', exposure', hwithin⟩
        obtain rfl : stake = stake' := Option.some.inj (hstake.symm.trans hwithin.stake_eq)
        obtain rfl : balance = balance' := Option.some.inj (hbalance.symm.trans hwithin.balance_eq)
        obtain rfl : risk = risk' := Option.some.inj (hrisk.symm.trans hwithin.risk_eq)
        obtain rfl : exposure = exposure' :=
          Option.some.inj (hexposure.symm.trans hwithin.exposure_eq)
        have hshare := hwithin.share
        rw [min_mul_of_nonneg _ _ hwithin.funded.le] at hshare
        have hrisked := le_trans hshare (min_le_left _ _)
        have hexposed := le_trans hshare (min_le_right _ _)
        refine ⟨(), ⟨_, rfl⟩, (), ⟨_, rfl⟩, (), by simpa using hwithin.positive, (),
          by simpa using hwithin.funded, (), ⟨_, rfl⟩, (), ⟨_, rfl⟩, (),
          by simpa using hwithin.limits.1, (), by simpa using hwithin.limits.2, (),
          by simpa using hrisked, (), by simpa using hexposed, fun rule hrule => ?_⟩
        obtain ⟨hmem, henabled⟩ := List.mem_filter.mp hrule
        exact hwithin.rules rule hmem henabled

/-- The limits hold of a smaller stake, too. -/
theorem Within.smaller {stake balance risk exposure smaller : ℚ} {d : Dec}
    (hwithin : Within profile rules order stake balance risk exposure)
    (hd : d.toRat = some smaller) (hpositive : 0 < smaller) (hle : smaller ≤ stake) :
    Within profile rules { order with stake := d } smaller balance risk exposure where
  stake_eq := hd
  balance_eq := hwithin.balance_eq
  risk_eq := hwithin.risk_eq
  exposure_eq := hwithin.exposure_eq
  positive := hpositive
  funded := hwithin.funded
  limits := hwithin.limits
  share := le_trans hle hwithin.share
  rules rule hrule henabled := by
    obtain ⟨value, hvalue, hnonneg, hmax, hmin⟩ := hwithin.rules rule hrule henabled
    exact ⟨value, hvalue, hnonneg, fun htype => le_trans hle (hmax htype), hmin⟩

end Limits

/-! ## The consensus -/

/-- The models agree with the direction of the order, and are sure enough. -/
structure Agreed (env : Env) (direction : String) (ai : Dict) : Prop where
  actionable : upper env.host.toHost (textOr env.host.toHost
    (ai.firstOf ["decision", "recommendation"]) "") ∈ ["BUY", "SELL"]
  direction : upper env.host.toHost (textOr env.host.toHost
    (ai.firstOf ["decision", "recommendation"]) "") = upper env.host.toHost direction
  confidence : ∃ confidence, toFloat env.host ((ai.get "confidence").or (.int 0)) = .ok confidence ∧
    Double.lt confidence (.fin 65) = false
  models : ∃ models_used, ((ai.get "models_used").or (.int 0)).toInt env.host.toHost =
    .ok models_used ∧ (ai.contains "models_used" = true → 1 ≤ models_used)

theorem consensusGate_ok {env : Env} {direction : String} {ai : Dict} :
    consensusGate env direction (.dict ai) = .ok () ↔ Agreed env direction ai := by
  simp only [consensusGate, dictOr, bind_ok, mapError_ok, refuse_ok]
  constructor
  · rintro ⟨_, hai, confidence, hconfidence, models_used, hmodels, _, hactionable, _, hdirection, _,
      hsure, henough⟩
    obtain rfl := Except.ok.inj hai
    refine ⟨not_not.mp (of_decide_eq_false hactionable), by simpa using hdirection, ⟨confidence, hconfidence, hsure⟩,
      ⟨models_used, hmodels, fun hcontains => ?_⟩⟩
    rw [hcontains] at henough
    simpa using henough
  · intro hagreed
    obtain ⟨confidence, hconfidence, hsure⟩ := hagreed.confidence
    obtain ⟨models_used, hmodels, henough⟩ := hagreed.models
    refine ⟨ai, rfl, confidence, hconfidence, models_used, hmodels, (),
      decide_eq_false (not_not.mpr hagreed.actionable), (), by simpa using hagreed.direction, (), hsure, ?_⟩
    cases hcontains : ai.contains "models_used" with
    | false => rfl
    | true => simpa using henough hcontains

/-- The context shows a consensus. -/
def Carries (context : Value) (consensus : Value) : Prop :=
  ∃ kvs, context = .dict kvs ∧ consensusOf kvs = consensus ∧ consensus.truthy = true

/-- A consensus that is there is one of the models that agree. -/
def Passes (env : Env) (direction : String) (context : Value) : Prop :=
  ∀ consensus, Carries context consensus → ∃ ai, consensus = .dict ai ∧ Agreed env direction ai

theorem dictOr_ok {env : Env} {v : Value} {kvs : Dict} :
    dictOr env v = .ok kvs ↔ v = .dict kvs ∨ v.isDict = false ∧ v.truthy = false ∧ kvs = [] := by
  unfold dictOr attributeError
  cases v with
  | dict kvs' => simp [Value.isDict]
  | _ =>
    dsimp only
    split
    · next htruthy => simp [htruthy, Value.isDict]
    · next hfalsy => simp [hfalsy, Value.isDict, eq_comm]

/-- The gate passes if the context can be read and shows no other consensus. -/
theorem checkConsensus_ok {env : Env} {direction : String} {context : Value} :
    checkConsensus env direction context = .ok () ↔
      (∃ routing, dictOr env context = .ok routing) ∧ Passes env direction context := by
  simp only [checkConsensus, bind_ok]
  constructor
  · rintro ⟨routing, hrouting, hgate⟩
    refine ⟨⟨routing, hrouting⟩, ?_⟩
    rintro consensus ⟨kvs, rfl, rfl, htruthy⟩
    obtain rfl : kvs = routing := by simpa [dictOr] using hrouting
    rw [if_pos htruthy] at hgate
    cases hconsensus : consensusOf kvs with
    | dict ai =>
      rw [hconsensus] at hgate
      exact ⟨ai, rfl, consensusGate_ok.mp hgate⟩
    | _ =>
      -- what is no dict cannot be read
      rw [hconsensus] at htruthy hgate
      simp [consensusGate, dictOr, attributeError, htruthy, bind, Except.bind] at hgate
  · rintro ⟨⟨routing, hrouting⟩, hpasses⟩
    refine ⟨routing, hrouting, ?_⟩
    split
    · next htruthy =>
      rcases dictOr_ok.mp hrouting with rfl | ⟨_, _, rfl⟩
      · obtain ⟨ai, hai, hagreed⟩ := hpasses _ ⟨routing, rfl, rfl, htruthy⟩
        rw [hai]
        exact consensusGate_ok.mpr hagreed
      · cases htruthy
    · rfl

/-! ## Approval -/

section Approval

variable {env : Env} {profile : RiskProfile} {rules : List RiskRule} {context : Dict} {order : Order}

/-- The order keeps to the limits, its score is below the threshold, and what the engine reads of
its context passes. -/
structure Approvable (env : Env) (profile : RiskProfile) (rules : List RiskRule) (context : Dict)
    (order : Order) : Prop where
  limits : ∃ stake balance risk exposure, Within profile rules order stake balance risk exposure
  score : ∃ n, score env.host.toHost (scoreContext context) = .ok n ∧ n < 80
  readable : ∃ routing, dictOr env (routingOf order) = .ok routing
  consensus : Passes env order.direction (routingOf order)

/-- What is approved. -/
theorem approved_iff :
    Approved env profile rules context order ↔ Approvable env profile rules context order := by
  unfold Approved evaluateOrder
  simp only [bind_ok, mapError_ok]
  constructor
  · rintro ⟨assessment, ⟨n, hscore, routing, hrouting, hassessment⟩, happroved⟩
    split at hassessment
    · next hverdict =>
      obtain ⟨_, hlimits, hgate⟩ := bind_ok.mp hverdict
      obtain rfl := Except.ok.inj hassessment
      exact ⟨validateOrder_ok.mp hlimits, ⟨n, hscore, by simpa using happroved⟩,
        ⟨routing, hrouting⟩, (checkConsensus_ok.mp hgate).2⟩
    · obtain rfl := Except.ok.inj hassessment
      cases happroved
  · intro happrovable
    obtain ⟨n, hscore, hlow⟩ := happrovable.score
    obtain ⟨routing, hrouting⟩ := happrovable.readable
    have hverdict : (do
        validateOrder env profile rules order
        checkConsensus env order.direction (routingOf order)) = .ok () :=
      bind_ok.mpr ⟨(), validateOrder_ok.mpr happrovable.limits,
        checkConsensus_ok.mpr ⟨⟨routing, hrouting⟩, happrovable.consensus⟩⟩
    refine ⟨⟨n, n < 80, if n < 80 then "" else "Extreme risk score", order.stake,
      routing.getD "ai_consensus" (.dict [])⟩, ⟨n, hscore, routing, hrouting, ?_⟩,
      by simpa using hlow⟩
    rw [hverdict]
    rfl

/-- Approval is monotone in the stake. -/
theorem approved_smaller {stake smaller : ℚ} {d : Dec}
    (happroved : Approved env profile rules context order) (hstake : order.stake.toRat = some stake)
    (hd : d.toRat = some smaller) (hpositive : 0 < smaller) (hle : smaller ≤ stake) :
    Approved env profile rules context { order with stake := d } := by
  have happrovable := approved_iff.mp happroved
  obtain ⟨stake', balance, risk, exposure, hwithin⟩ := happrovable.limits
  obtain rfl : stake = stake' := Option.some.inj (hstake.symm.trans hwithin.stake_eq)
  exact approved_iff.mpr ⟨⟨_, _, _, _, hwithin.smaller hd hpositive hle⟩, happrovable.score,
    happrovable.readable, happrovable.consensus⟩

end Approval

/-- What an approval should rest on. Every context of the order counts. -/
structure Sound (env : Env) (profile : RiskProfile) (rules : List RiskRule) (context : Dict)
    (order : Order) : Prop where
  limits : ∃ stake balance risk exposure, Within profile rules order stake balance risk exposure
  score : ∃ n, score env.host.toHost (scoreContext context) = .ok n ∧ n < 80
  consensus : ∀ v, order.routing_context = some v ∨ order.validation_context = some v →
    Passes env order.direction v

/-- The order with any smaller positive stake is approved. -/
def Monotone (env : Env) (profile : RiskProfile) (rules : List RiskRule) (context : Dict)
    (order : Order) : Prop :=
  ∀ (stake smaller : ℚ) (d : Dec), order.stake.toRat = some stake → d.toRat = some smaller →
    0 < smaller → smaller ≤ stake → Approved env profile rules context { order with stake := d }

/-- Approval is sound and monotone exactly if the consensus in the `validation_context` passes, or
the order is refused for something else. -/
theorem approval_sound_iff (env : Env) (profile : RiskProfile) (rules : List RiskRule)
    (context : Dict) (order : Order) :
    (Approved env profile rules context order →
        Sound env profile rules context order ∧ Monotone env profile rules context order) ↔
      (Approvable env profile rules context order →
        ∀ v, order.validation_context = some v → Passes env order.direction v) := by
  rw [approved_iff]
  constructor
  · intro hsound happrovable v hv
    exact (hsound happrovable).1.consensus v (Or.inr hv)
  · intro hpasses happrovable
    refine ⟨⟨happrovable.limits, happrovable.score, ?_⟩, ?_⟩
    · rintro v (hv | hv)
      · have hrouting : routingOf order = v := by rw [routingOf, hv, Option.getD_some]
        rw [← hrouting]
        exact happrovable.consensus
      · exact hpasses happrovable v hv
    · intro stake smaller d hstake hd hpositive hle
      exact approved_smaller (approved_iff.mpr happrovable) hstake hd hpositive hle

/-! ## An order of the execution app -/

def asciiEnv : Env := ⟨.digits, fun _ => "", fun _ => "", fun _ => ""⟩

/-- A balance of a thousand, at two and thirty-five per cent. -/
def funded : BrokerAccount := ⟨⟨false, 1000, 0, by decide, le_refl 0⟩⟩

def moderate : RiskProfile :=
  ⟨⟨false, 2, -2, by decide, by decide⟩, ⟨false, 35, -2, by decide, by decide⟩⟩

/-- The models say `sell`. -/
def sellDecision : Dict :=
  [("decision", .str "sell"), ("confidence", .int 90), ("models_used", .int 3)]

/-- A buy order that shows its consensus as its app does. -/
def buyOrder : Order :=
  ⟨"buy", .finite false 10 0, some funded, none, some (.dict [("ai_consensus", .dict sellDecision)])⟩

/-- It is approved, though the models are against it. -/
theorem consensus_ignored :
    Approved asciiEnv moderate [] [] buyOrder ∧
      ¬ Sound asciiEnv moderate [] [] buyOrder := by
  have happroved : (evaluateOrder asciiEnv moderate [] [] buyOrder).toOption.any
      (fun assessment => assessment.approved) = true := by decide +kernel
  obtain ⟨assessment, hassessment, hyes⟩ := (Option.any_eq_true _ _).mp happroved
  constructor
  · cases hevaluate : evaluateOrder asciiEnv moderate [] [] buyOrder with
    | error e =>
      rw [hevaluate] at hassessment
      cases hassessment
    | ok found =>
      rw [hevaluate] at hassessment
      obtain rfl : found = assessment := Option.some.inj hassessment
      exact ⟨found, hevaluate, hyes⟩
  · intro hsound
    have hpasses := hsound.consensus _ (Or.inr rfl)
    obtain ⟨ai, hai, hagreed⟩ := hpasses (.dict sellDecision) ⟨_, rfl, rfl, rfl⟩
    obtain rfl : sellDecision = ai := by injection hai
    have hdirection := hagreed.direction
    revert hdirection
    decide +kernel

end AlgoBot.Risk
