import AlgoBot.Risk.Approval

/-!
# Orders of the consensus

An autonomous order passes three checks of one consensus: `ConsensusDecisionGate.validate`
when `place_consensus_order` creates it, and those of `ExecutionEngine.execute` and of
`RiskEngine` when it is sent.

* `consensus_orders_iff`: an order that is created from an approved prediction can be sent
  exactly if the consensus shows its own decision and confidence, and the confidence is in
  per cent; what can be sent would have been approved.
* `fraction_refused`: a confidence of 0.8 is approved, and then refused.
-/

namespace AlgoBot.Risk

open AlgoBot.Core AlgoBot.Python
open AlgoBot.Automation.Conditions (FloatHost toFloat)

/-! ## `ConsensusDecisionGate` -/

/-- The confidence is a float, and the payload JSON. -/
structure Prediction where
  pk : ℕ
  prediction : String
  confidence : Value
  payload : Value

/-- `_num`. -/
def num (h : FloatHost) (v : Value) : Double :=
  match toFloat h (v.or (.int 0)) with
  | .ok result => if result.isFinite then result else .fin 0
  | .error _ => .fin 0

/-- The other names in `_decision`. -/
def decisionNames : List (String × String) :=
  [("UP", "BUY"), ("LONG", "BUY"), ("DOWN", "SELL"), ("SHORT", "SELL"), ("WAIT", "AVOID"),
    ("HOLD", "AVOID"), ("NO_MODELS", "AVOID"), ("AI_ERROR", "AVOID"), ("DO NOT TRADE", "AVOID")]

/-- `_decision`. -/
def decisionOf (h : Host) (value : Value) : String :=
  let value := upper h (textOr h value "")
  (decisionNames.lookup value).getD
    (if value ∈ ["BUY", "SELL", "AVOID"] then value else "AVOID")

def isFraction (confidence : Double) : Bool :=
  Double.le (.fin 0) confidence && Double.le confidence (.fin 1)

/-- `confidence*100.0 if 0.0 <= confidence <= 1.0 else confidence`. -/
def inPercent (confidence : Double) : Double :=
  if isFraction confidence then Double.mul confidence (.fin 100) else confidence

/-- The decision a consensus shows, or the given one. -/
def shownDecision (consensus : Dict) (dflt : String) : Value :=
  consensus.getD "decision" (.str dflt)

def shownConfidence (env : Env) (consensus : Dict) (dflt : Value) : Except String Double :=
  (toFloat env.host ((consensus.getD "confidence" dflt).or (.int 0))).mapError env.errorText

def modelsUsed (env : Env) (consensus : Dict) : Except String ℤ :=
  (((consensus.getD "models_used" (.int 0)).or (.int 0)).toInt env.host.toHost).mapError
    env.errorText

/-- `validate`. A refusal and an exception end `place_consensus_order` alike, and both have a
text. -/
def validate (env : Env) (prediction : Prediction) (intended_direction : Value) :
    Except String Unit := do
  let h := env.host
  let payload ← dictOr env prediction.payload
  let consensus ← dictOr env (payload.get "consensus")
  let decision := decisionOf h.toHost (shownDecision consensus prediction.prediction)
  let confidence := inPercent (← shownConfidence env consensus prediction.confidence)
  let models ← modelsUsed env consensus
  let pa ← dictOr env (payload.get "price_action")
  let confluence := num h (pa.get "confluence_score")
  let chop := num h (pa.get "chop_score")
  refuse (decision ∉ ["BUY", "SELL"]) "Ensemble consensus is not actionable"
  refuse (Double.lt confidence (.fin 65))
    ("Ensemble confidence " ++ env.fixed2 confidence ++ "% below 65.00% gate")
  refuse (models < 1) "No trained ensemble models available"
  refuse (Double.lt confluence (.fin (1 / 2))) "Price-action confluence below 0.50 gate"
  refuse (Double.lt (Double.ofRat (4 / 5)) chop)
    "Market is too choppy for the price-action gate"
  refuse (intended_direction.truthy && decisionOf h.toHost intended_direction != decision)
    "Order direction conflicts with ensemble consensus"

/-! ## `place_consensus_order` -/

/-- What a strategy asks for. -/
structure Request where
  direction : Value
  stake : Dec
  account : Option BrokerAccount
  validation_context : Value
  risk_context : Value

/-- `{**(v or {})}`. -/
def spread (env : Env) (v : Value) : Except String Dict :=
  match v with
  | .dict kvs => .ok kvs
  | v => if v.truthy then .error (env.errorText .TypeError) else .ok []

/-- `prediction.payload.get('consensus', {}) if prediction.payload else {}`, and a `get` of it. -/
def placedConsensus (env : Env) (prediction : Prediction) : Except String Dict := do
  let payload ← dictOr env prediction.payload
  match payload.getD "consensus" (.dict []) with
  | .dict consensus => return consensus
  | _ => attributeError env

/-- The order that `place_consensus_order` creates. The validation and the risk engine, which it
runs afterwards, only refuse. -/
def consensusOrder (env : Env) (prediction : Prediction) (recommendation : ℕ)
    (request : Request) : Except String Order := do
  let h := env.host
  validate env prediction request.direction
  let consensus ← placedConsensus env prediction
  let direction := h.lower ((shownDecision consensus prediction.prediction).toStr h.toHost)
  refuse (direction ∉ ["buy", "sell"]) "Ensemble returned a non-trade decision"
  let validation_context := (← spread env request.validation_context).merge
    [("ai_consensus", .dict consensus), ("ai_prediction_id", .int prediction.pk),
      ("ai_recommendation_id", .int recommendation), ("ai_source", .str "ensemble"),
      ("execution_mode", .str "strategy_auto")]
  let effective_risk := (← spread env request.risk_context).merge
    [("ai_consensus_confidence", consensus.getD "confidence" prediction.confidence),
      ("ai_consensus_decision", .str direction)]
  let validation_context := validation_context.insert "risk_context" (.dict effective_risk)
  return ⟨direction, request.stake, request.account, none, some (.dict validation_context)⟩

/-! ## `execute` -/

/-- `validation.get('execution_mode') == 'strategy_auto'`. -/
def strategyAuto (validation : Dict) : Bool :=
  Value.beq (validation.get "execution_mode") (.str "strategy_auto")

def boundaryMessage : String :=
  "Strategy ensemble consensus validation failed at execution boundary"

/-- The check at the start of `execute`. -/
def checkBoundary (env : Env) (order : Order) : Except String Unit := do
  let h := env.host
  let validation ← dictOr env (order.validation_context.getD (.dict []))
  if strategyAuto validation then
    let consensus ← dictOr env (validation.get "ai_consensus")
    let decision := h.lower ((shownDecision consensus "").toStr h.toHost)
    let confidence ← shownConfidence env consensus (.int 0)
    refuse (decision ∉ ["buy", "sell"]) boundaryMessage
    refuse (decision != h.lower order.direction) boundaryMessage
    refuse (Double.lt confidence (.fin 65)) boundaryMessage
    let models ← modelsUsed env consensus
    refuse (models < 1) boundaryMessage

/-! ## What the checks ask for -/

/-- What the gate asks of the consensus. -/
structure Approves (env : Env) (prediction : Prediction) (direction : Value) (consensus : Dict) :
    Prop where
  actionable : decisionOf env.host.toHost (shownDecision consensus prediction.prediction) ∈
    ["BUY", "SELL"]
  confidence : ∃ x, shownConfidence env consensus prediction.confidence = .ok x ∧
    Double.lt (inPercent x) (.fin 65) = false
  models : ∃ n, modelsUsed env consensus = .ok n ∧ 1 ≤ n
  direction : direction.truthy = true → decisionOf env.host.toHost direction =
    decisionOf env.host.toHost (shownDecision consensus prediction.prediction)

/-- What it asks of the market. -/
def Calm (env : Env) (payload : Dict) : Prop :=
  ∃ pa, dictOr env (payload.get "price_action") = .ok pa ∧
    Double.lt (num env.host (pa.get "confluence_score")) (.fin (1 / 2)) = false ∧
      Double.lt (Double.ofRat (4 / 5)) (num env.host (pa.get "chop_score")) = false

/-- What `execute` asks of the consensus. -/
structure Sendable (env : Env) (direction : String) (consensus : Dict) : Prop where
  actionable : env.host.lower ((shownDecision consensus "").toStr env.host.toHost) ∈
    ["buy", "sell"]
  direction : env.host.lower ((shownDecision consensus "").toStr env.host.toHost) =
    env.host.lower direction
  confidence : ∃ x, shownConfidence env consensus (.int 0) = .ok x ∧
    Double.lt x (.fin 65) = false
  models : ∃ n, modelsUsed env consensus = .ok n ∧ 1 ≤ n

section Checks

variable {env : Env} {prediction : Prediction}

theorem validate_ok {direction : Value} :
    validate env prediction direction = .ok () ↔
      ∃ payload consensus, dictOr env prediction.payload = .ok payload ∧
        dictOr env (payload.get "consensus") = .ok consensus ∧
          Approves env prediction direction consensus ∧ Calm env payload := by
  simp only [validate, bind_ok, refuse_ok]
  constructor
  · rintro ⟨payload, hpayload, consensus, hconsensus, x, hx, n, hn, pa, hpa, _, hactionable, _,
      hsure, _, hmodels, _, hconfluence, _, hchop, hdirection⟩
    refine ⟨payload, consensus, hpayload, hconsensus,
      ⟨not_not.mp (of_decide_eq_false hactionable), ⟨x, hx, hsure⟩,
        ⟨n, hn, by simpa using hmodels⟩, fun htruthy => ?_⟩, ⟨pa, hpa, hconfluence, hchop⟩⟩
    rw [htruthy] at hdirection
    simpa using hdirection
  · rintro ⟨payload, consensus, hpayload, hconsensus, happroves, pa, hpa, hconfluence, hchop⟩
    obtain ⟨x, hx, hsure⟩ := happroves.confidence
    obtain ⟨n, hn, hmodels⟩ := happroves.models
    refine ⟨payload, hpayload, consensus, hconsensus, x, hx, n, hn, pa, hpa, (),
      decide_eq_false (not_not.mpr happroves.actionable), (), hsure, (), by simpa using hmodels, (),
      hconfluence, (), hchop, ?_⟩
    cases htruthy : direction.truthy with
    | false => rfl
    | true => simpa using happroves.direction htruthy

theorem checkBoundary_ok {order : Order} {validation consensus : Dict}
    (hcontext : order.validation_context = some (.dict validation))
    (hauto : strategyAuto validation = true)
    (hconsensus : dictOr env (validation.get "ai_consensus") = .ok consensus) :
    checkBoundary env order = .ok () ↔ Sendable env order.direction consensus := by
  have hread : dictOr env (order.validation_context.getD (.dict [])) = .ok validation := by
    rw [hcontext]
    rfl
  simp only [checkBoundary, bind_ok, hread, Except.ok.injEq, exists_eq_left', hauto, if_true,
    hconsensus, refuse_ok]
  constructor
  · rintro ⟨x, hx, _, hactionable, _, hdirection, _, hsure, n, hn, hmodels⟩
    exact ⟨not_not.mp (of_decide_eq_false hactionable), by simpa using hdirection,
      ⟨x, hx, hsure⟩, ⟨n, hn, by simpa using hmodels⟩⟩
  · intro hsendable
    obtain ⟨x, hx, hsure⟩ := hsendable.confidence
    obtain ⟨n, hn, hmodels⟩ := hsendable.models
    exact ⟨x, hx, (), decide_eq_false (not_not.mpr hsendable.actionable), (),
      by simpa using hsendable.direction, (), hsure, n, hn, by simpa using hmodels⟩

end Checks

/-! ## Words -/

/-- How the host spells: a text lowers to `buy` or `sell` exactly if its ASCII letters do, and an
empty list or dict is written as neither. -/
structure Words (h : Host) : Prop where
  lower_iff : ∀ s, ∀ w ∈ ["buy", "sell"],
    h.lower s = w ↔ String.ofList (s.toList.map Char.toLower) = w
  repr_list : h.lower (h.repr (.list [])) ∉ ["buy", "sell"]
  repr_dict : h.lower (h.repr (.dict [])) ∉ ["buy", "sell"]

section Spelling

variable {h : Host}

theorem Words.lower_word (hwords : Words h) {w : String} (hw : w ∈ ["buy", "sell"]) :
    h.lower w = w := by
  refine (hwords.lower_iff w w hw).mpr ?_
  rcases List.mem_pair.mp hw with rfl | rfl <;> decide

/-- What no word is written as is truthy. -/
theorem Words.truthy (hwords : Words h) {v : Value}
    (hv : h.lower (v.toStr h) ∈ ["buy", "sell"]) : v.truthy = true := by
  -- the texts of the falsy values are no words
  have hnot : ∀ s : String, String.ofList (s.toList.map Char.toLower) ∉ ["buy", "sell"] →
      h.lower s ∉ ["buy", "sell"] := by
    intro s hs hlower
    have hsame := (hwords.lower_iff s _ hlower).mp rfl
    rw [hsame] at hs
    exact hs hlower
  by_contra hfalsy
  cases v with
  | none => exact hnot "None" (by decide) hv
  | bool b =>
    cases b with
    | true => exact hfalsy rfl
    | false => exact hnot "False" (by decide) hv
  | int n =>
    obtain rfl : n = 0 := by simpa [Value.truthy] using hfalsy
    exact hnot "0" (by decide) hv
  | float r t =>
    have hzero : r = "0.0" ∨ r = "-0.0" := by
      by_contra hne
      rw [not_or] at hne
      exact hfalsy (by simp [Value.truthy, hne])
    rcases hzero with rfl | rfl
    · exact hnot "0.0" (by decide) hv
    · exact hnot "-0.0" (by decide) hv
  | str s =>
    obtain rfl : s = "" := by simpa using hfalsy
    exact hnot "" (by decide) hv
  | list xs =>
    obtain rfl : xs = [] := by simpa [Value.truthy] using hfalsy
    exact hwords.repr_list hv
  | dict kvs =>
    obtain rfl : kvs = [] := by simpa [Value.truthy] using hfalsy
    exact hwords.repr_dict hv

/-- A value that is written as a word is the decision of that word. -/
theorem Words.decisionOf_eq (hwords : Words h) {v : Value} {w : String}
    (hw : w ∈ ["buy", "sell"]) (hv : h.lower (v.toStr h) = w) :
    decisionOf h v = String.ofList (w.toList.map Char.toUpper) := by
  have htruthy : v.truthy = true := hwords.truthy (hv ▸ hw)
  have htext : textOr h v "" = v.toStr h := by rw [textOr, Value.or, if_pos htruthy]
  have hascii : ∀ c ∈ w.toList, c.val < 128 := by
    have hall : (w.toList.all fun c => c.val < 128) = true := by
      rcases List.mem_pair.mp hw with rfl | rfl <;> decide
    simpa using hall
  have hupper := upper_of_toLower h ((hwords.lower_iff _ w hw).mp hv) hascii
  rw [decisionOf, htext, hupper]
  rcases List.mem_pair.mp hw with rfl | rfl <;> decide

end Spelling

/-! ## The order that is created -/

section Placed

variable {env : Env} {prediction : Prediction} {recommendation : ℕ} {request : Request}
  {order : Order}

/-- The consensus of a prediction, as the gate reads it. -/
def Shows (env : Env) (prediction : Prediction) (consensus : Dict) : Prop :=
  ∃ payload, dictOr env prediction.payload = .ok payload ∧
    dictOr env (payload.get "consensus") = .ok consensus

theorem Shows.unique {consensus consensus' : Dict} (hshows : Shows env prediction consensus)
    (hshows' : Shows env prediction consensus') : consensus = consensus' := by
  obtain ⟨payload, hpayload, hconsensus⟩ := hshows
  obtain ⟨payload', hpayload', hconsensus'⟩ := hshows'
  obtain rfl := Except.ok.inj (hpayload.symm.trans hpayload')
  exact Except.ok.inj (hconsensus.symm.trans hconsensus')

theorem shows_of_placedConsensus {consensus : Dict}
    (hplaced : placedConsensus env prediction = .ok consensus) :
    Shows env prediction consensus := by
  obtain ⟨payload, hpayload, hread⟩ := bind_ok.mp hplaced
  refine ⟨payload, hpayload, ?_⟩
  rw [Dict.getD] at hread
  rw [Dict.get]
  cases hlookup : payload.lookup "consensus" with
  | none =>
    rw [hlookup] at hread
    exact hread
  | some v =>
    rw [hlookup] at hread
    cases v with
    | dict kvs => exact hread
    | _ => cases hread

/-- What is created: the gate approves the consensus, and the order carries it. -/
theorem consensusOrder_ok
    (hplaced : consensusOrder env prediction recommendation request = .ok order) :
    ∃ (consensus validation : Dict), Shows env prediction consensus ∧
      Approves env prediction request.direction consensus ∧
        order.direction = env.host.lower
          ((shownDecision consensus prediction.prediction).toStr env.host.toHost) ∧
        order.direction ∈ ["buy", "sell"] ∧ order.routing_context = none ∧
          order.validation_context = some (.dict validation) ∧
            validation.get "ai_consensus" = .dict consensus ∧ strategyAuto validation = true := by
  obtain ⟨_, happroved, consensus, hconsensus, _, hword, base, _, risk, _, hreturn⟩ := by
    simpa only [consensusOrder, bind_ok, refuse_ok] using hplaced
  obtain rfl := Except.ok.inj hreturn
  have hshows := shows_of_placedConsensus hconsensus
  obtain ⟨payload, consensus', hpayload, hread, happroves, _⟩ := validate_ok.mp happroved
  obtain rfl := hshows.unique ⟨payload, hpayload, hread⟩
  refine ⟨consensus, _, hshows, happroves, rfl, not_not.mp (of_decide_eq_false hword), rfl, rfl,
    ?_, ?_⟩
  · simp [Dict.merge, Dict.get_insert]
  · simp [strategyAuto, Dict.merge, Dict.get_insert, Value.beq]

/-- The consensus shows its own decision and confidence, and no fraction. -/
structure InPercent (env : Env) (consensus : Dict) : Prop where
  decision : consensus.contains "decision" = true
  confidence : consensus.contains "confidence" = true
  percent : ∀ x, shownConfidence env consensus (.int 0) = .ok x → isFraction x = false

theorem shownZero :
    (toFloat env.host ((Value.int 0).or (.int 0))).mapError env.errorText = .ok (.fin 0) := by
  have hzero : Double.ofRat ((0 : ℤ) : ℚ) = .fin 0 := by decide +kernel
  rw [show (Value.int 0).or (.int 0) = .int 0 from rfl, toFloat, hzero]
  rfl

/-- A fraction is too small for `execute`. -/
theorem lt_of_isFraction {x : Double} (hx : isFraction x = true) :
    Double.lt x (.fin 65) = true :=
  Double.lt_of_le_fin (Bool.and_eq_true_iff.mp hx).2 (by norm_num)

/-- What passes as it is shown is no fraction, and passes the gate. -/
theorem inPercent_of_sure {x : Double} (hsure : Double.lt x (.fin 65) = false) :
    isFraction x = false ∧ inPercent x = x := by
  have hnot : isFraction x = false := by
    by_contra hfraction
    rw [Bool.not_eq_false] at hfraction
    rw [lt_of_isFraction hfraction] at hsure
    cases hsure
  exact ⟨hnot, by rw [inPercent, hnot]; rfl⟩

/-- What can be sent is in per cent. -/
theorem Sendable.inPercent (hwords : Words env.host.toHost) {consensus : Dict} {side : String}
    (hsendable : Sendable env side consensus) : InPercent env consensus := by
  obtain ⟨x, hx, hsure⟩ := hsendable.confidence
  refine ⟨?_, ?_, ?_⟩
  · by_contra hnone
    have hmissing := Dict.getD_of_not_contains (by simpa using hnone) (.str "")
    have hempty := hsendable.actionable
    rw [shownDecision, hmissing] at hempty
    cases hwords.truthy hempty
  · by_contra hnone
    have hmissing := Dict.getD_of_not_contains (by simpa using hnone) (.int 0)
    rw [shownConfidence, hmissing] at hx
    obtain rfl := Except.ok.inj (shownZero.symm.trans hx)
    cases hsure
  · intro y hy
    obtain rfl := Except.ok.inj (hx.symm.trans hy)
    exact (inPercent_of_sure hsure).1

/-- The defaults are not read of such a consensus. -/
theorem InPercent.shown {consensus : Dict} (hpercent : InPercent env consensus)
    (prediction : Prediction) :
    shownDecision consensus "" = shownDecision consensus prediction.prediction ∧
      shownConfidence env consensus (.int 0) =
        shownConfidence env consensus prediction.confidence := by
  constructor
  · exact Dict.getD_of_contains hpercent.decision _ _
  · rw [shownConfidence, Dict.getD_of_contains hpercent.confidence _ prediction.confidence]
    rfl

/-- An approved consensus in per cent can be sent in its own direction. -/
theorem InPercent.sendable (hwords : Words env.host.toHost) {consensus : Dict} {direction : Value}
    {side : String} (hpercent : InPercent env consensus)
    (happroves : Approves env prediction direction consensus)
    (hside : side = env.host.lower
      ((shownDecision consensus prediction.prediction).toStr env.host.toHost))
    (hword : side ∈ ["buy", "sell"]) : Sendable env side consensus := by
  obtain ⟨hdecision, hconfidence⟩ := hpercent.shown prediction
  have hlower := hwords.lower_word hword
  obtain ⟨x, hx, hsure⟩ := happroves.confidence
  rw [← hconfidence] at hx
  rw [Risk.inPercent, hpercent.percent x hx] at hsure
  refine ⟨?_, ?_, ⟨x, hx, hsure⟩, happroves.models⟩
  · rwa [hdecision, ← hside]
  · rw [hdecision, ← hside, hlower]

/-- What can be sent is approved for every prediction that shows it. -/
theorem Sendable.approves (hwords : Words env.host.toHost) {consensus : Dict} {side : String}
    (hsendable : Sendable env side consensus) (prediction : Prediction) :
    Approves env prediction (.str side) consensus := by
  obtain ⟨hdecision, hconfidence⟩ := (hsendable.inPercent hwords).shown prediction
  have hword := hsendable.actionable
  have hdecided := hwords.decisionOf_eq hword rfl
  have hordered : decisionOf env.host.toHost (.str side) = _ :=
    hwords.decisionOf_eq hword hsendable.direction.symm
  rw [hdecision] at hdecided hordered hword
  obtain ⟨x, hx, hsure⟩ := hsendable.confidence
  refine ⟨?_, ⟨x, hconfidence ▸ hx, ?_⟩, hsendable.models, fun _ => hordered.trans hdecided.symm⟩
  · rw [hdecided]
    rcases List.mem_pair.mp hword with hside | hside <;> rw [hside] <;> decide
  · rwa [(inPercent_of_sure hsure).2]

end Placed

/-- An order that is created can be sent exactly if its consensus is in per cent, and an autonomous
order that can be sent carries a consensus that the gate approves for its direction. -/
theorem consensus_orders_iff (env : Env) (hwords : Words env.host.toHost) :
    (∀ (prediction : Prediction) (recommendation : ℕ) (request : Request) (order : Order),
      consensusOrder env prediction recommendation request = .ok order →
        (checkBoundary env order = .ok () ∧
            checkConsensus env order.direction (routingOf order) = .ok () ↔
          ∀ consensus, Shows env prediction consensus → InPercent env consensus)) ∧
      ∀ (order : Order) (validation : Dict) (prediction : Prediction) (payload : Dict),
        order.validation_context = some (.dict validation) → strategyAuto validation = true →
          checkBoundary env order = .ok () → dictOr env prediction.payload = .ok payload →
            payload.get "consensus" = validation.get "ai_consensus" → Calm env payload →
              validate env prediction (.str order.direction) = .ok () := by
  constructor
  · intro prediction recommendation request order hplaced
    obtain ⟨consensus, validation, hshows, happroves, hside, hword, hrouting, hcontext, hcarries,
      hauto⟩ := consensusOrder_ok hplaced
    have hread : dictOr env (validation.get "ai_consensus") = .ok consensus := by
      rw [hcarries]
      rfl
    have hboundary : checkBoundary env order = .ok () ↔ Sendable env order.direction consensus :=
      checkBoundary_ok hcontext hauto hread
    -- the engine does not see the consensus
    have hunseen : checkConsensus env order.direction (routingOf order) = .ok () := by
      rw [routingOf, hrouting]
      rfl
    rw [hboundary]
    constructor
    · rintro ⟨hsendable, _⟩ consensus' hshows'
      obtain rfl := hshows.unique hshows'
      exact hsendable.inPercent hwords
    · intro hpercent
      exact ⟨(hpercent consensus hshows).sendable hwords happroves hside hword, hunseen⟩
  · intro order validation prediction payload hcontext hauto hsent hpayload hcarried hcalm
    have hread : dictOr env (order.validation_context.getD (.dict [])) = .ok validation := by
      rw [hcontext]
      rfl
    -- the check reads the consensus, so there is one
    obtain ⟨consensus, hconsensus⟩ :
        ∃ consensus, dictOr env (validation.get "ai_consensus") = .ok consensus := by
      simp only [checkBoundary, bind_ok, hread, Except.ok.injEq, exists_eq_left', hauto,
        if_true] at hsent
      obtain ⟨consensus, hconsensus, _⟩ := hsent
      exact ⟨consensus, hconsensus⟩
    have hsendable := (checkBoundary_ok hcontext hauto hconsensus).mp hsent
    exact validate_ok.mpr ⟨payload, consensus, hpayload, hcarried ▸ hconsensus,
      hsendable.approves hwords prediction, hcalm⟩

/-! ## A fraction -/

/-- A host that reads `0.8`. -/
def fractionHost : FloatHost where
  toHost := Host.ascii
  floatOfText s := if s = "0.8" then some (Double.ofRat (4 / 5)) else none
  float_int := by
    intro s n hn
    have hvalue : Double.ofRat (4 / 5) = .fin (3602879701896397 / 4503599627370496) := by
      decide +kernel
    split at hn
    · rw [hvalue] at hn
      have hrat : (3602879701896397 / 4503599627370496 : ℚ) = n :=
        Double.fin.inj (Option.some.inj hn)
      have hden := congrArg Rat.den hrat
      rw [Rat.den_intCast] at hden
      exact absurd hden (by decide +kernel)
    · cases hn

def fractionEnv : Env := ⟨fractionHost, fun _ => "", fun _ => "", fun _ => ""⟩

theorem words_ascii : Words Host.ascii :=
  ⟨fun _ _ _ => Iff.rfl, by decide, by decide⟩

/-- A prediction of three models, with the given confidence of the consensus. -/
def ensemble (confidence : Value) : Prediction :=
  ⟨1, "BUY", .float "80.0" 80, .dict [
    ("consensus", .dict [("decision", .str "BUY"), ("confidence", confidence),
      ("models_used", .int 3)]),
    ("price_action", .dict [("confluence_score", .float "0.8" 0)])]⟩

def buyRequest : Request := ⟨.str "buy", .finite false 10 0, some funded, .dict [], .dict []⟩

/-- The ensemble shows 0.8, which the gate approves, and the order is refused. -/
theorem fraction_refused : ∃ order,
    consensusOrder fractionEnv (ensemble (.float "0.8" 0)) 1 buyRequest = .ok order ∧
      checkBoundary fractionEnv order ≠ .ok () := by
  have hrun : (consensusOrder fractionEnv (ensemble (.float "0.8" 0)) 1 buyRequest).toOption.any
      (fun order => !(checkBoundary fractionEnv order).isOk) = true := by decide +kernel
  obtain ⟨order, horder, hrefused⟩ := (Option.any_eq_true _ _).mp hrun
  refine ⟨order, ?_, fun hok => ?_⟩
  · cases hplaced : consensusOrder fractionEnv (ensemble (.float "0.8" 0)) 1 buyRequest with
    | error e =>
      rw [hplaced] at horder
      cases horder
    | ok found =>
      rw [hplaced] at horder
      exact congrArg Except.ok (Option.some.inj horder)
  · rw [hok] at hrefused
    cases hrefused

/-- With eighty per cent it is sent. -/
theorem consensus_orders_percent : ∃ order,
    consensusOrder fractionEnv (ensemble (.int 80)) 1 buyRequest = .ok order ∧
      checkBoundary fractionEnv order = .ok () := by
  have hplaced : (consensusOrder fractionEnv (ensemble (.int 80)) 1 buyRequest).isOk = true := by
    decide +kernel
  cases horder : consensusOrder fractionEnv (ensemble (.int 80)) 1 buyRequest with
  | error e =>
    rw [horder] at hplaced
    cases hplaced
  | ok order =>
    refine ⟨order, rfl, ?_⟩
    refine (((consensus_orders_iff fractionEnv words_ascii).1 _ _ _ order horder).mpr ?_).1
    rintro consensus ⟨payload, hpayload, hconsensus⟩
    obtain rfl := Except.ok.inj hpayload
    obtain rfl := Except.ok.inj hconsensus
    refine ⟨rfl, rfl, fun x hx => ?_⟩
    have heighty : Double.ofRat ((80 : ℤ) : ℚ) = .fin 80 := by decide +kernel
    have hread : (Automation.Conditions.orOverflow (Double.ofRat ((80 : ℤ) : ℚ))).mapError
        fractionEnv.errorText = .ok x := hx
    rw [heighty] at hread
    obtain rfl := Except.ok.inj hread
    decide +kernel

end AlgoBot.Risk
