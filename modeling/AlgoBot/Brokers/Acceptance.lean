import AlgoBot.Brokers.Submit
import AlgoBot.Execution.Batches
import AlgoBot.Execution.Preview

/-!
# Refused orders the broker may have accepted

`DerivAdapter.place_order` asks for a proposal and buys it, each in a request of its
own. The same exception may come before the purchase, or of a reply to it. The
execution engine of the brokers app takes all but the transport errors for a refusal.

* `truthful_iff`: an order is recorded as rejected or failed only when the broker has
  not accepted the purchase, exactly if the purchase is not reached, times out, or
  ends in one of the ways the adapter expects.
* `worker_keeps_sent`: the queue worker never takes such an exception for a refusal.
* `accepted_rejected`: a purchase that is accepted without a contract id.
-/

namespace AlgoBot.Brokers.Acceptance

open AlgoBot.Core AlgoBot.Python

/-! ## One request -/

/-- What can go wrong before a request is sent; `transport` is a timeout, an error of the
operating system, or one of the socket. -/
inductive OpenError where
  | BrokerAuthenticationError
  | BrokerConnectionError
  | transport
  | Exception
deriving DecidableEq

/-- What can go wrong from then on, until the reply is read. -/
inductive ReadError where
  | transport
  | JSONDecodeError
  | Exception
deriving DecidableEq

/-- How a request over the authenticated socket goes. -/
inductive Wire where
  | unsent (e : OpenError)
  | lost (e : ReadError)
  | answered (response : Value)

def AUTHORIZATION_CODES : List String :=
  ["AuthorizationRequired", "InvalidToken", "InvalidAppId", "Unauthorized"]

/-- The exception for `response["error"]`. -/
def errorClass : Value → PlaceError
  | .dict error =>
    match Dict.getD error "code" (.str "") with
    | .str code => if code ∈ AUTHORIZATION_CODES then .BrokerAuthenticationError else .BrokerOrderError
    -- a list or a `dict` cannot be looked for in a set
    | .list _ => .Exception
    | .dict _ => .Exception
    | _ => .BrokerOrderError
  | _ => .Exception

/-- `_request`. -/
def Wire.request : Wire → Except PlaceError Dict
  | .unsent .BrokerAuthenticationError => .error .BrokerAuthenticationError
  | .unsent .Exception => .error .Exception
  | .unsent _ => .error .BrokerConnectionError
  | .lost .Exception => .error .Exception
  | .lost _ => .error .BrokerConnectionError
  | .answered (.dict response) =>
    if (Dict.get response "error").truthy = true then .error (errorClass (Dict.get response "error"))
    else .ok response
  | .answered _ => .error .Exception

/-- The broker may have done what it was asked: the request was sent, and the broker has not
answered with an error. -/
def Wire.mayBeAccepted : Wire → Bool
  | .unsent _ => false
  | .lost _ => true
  | .answered (.dict response) => !(Dict.get response "error").truthy
  | .answered _ => true

/-! ## `place_order` -/

/-- What `place_order` meets: the account, the broker's contracts and the settings, the order (with
the quantity as its stake where that is zero), the two requests, and the time limit. -/
structure Exchange where
  world : Preview.World
  account : Preview.BrokerAccount
  order : Preview.Order
  proposal : Wire
  buy : Wire
  timed_out : Bool

def ofBrokerFailure : Preview.BrokerFailure → PlaceError
  | .authentication => .BrokerAuthenticationError
  | .connection => .BrokerConnectionError
  | .order _ => .BrokerOrderError
  | .timeout => .TimeoutError
  | .other => .Exception

def ofPlaceError : Preview.PlaceError → PlaceError
  | .BrokerOrderError _ => .BrokerOrderError
  | .broker failure => ofBrokerFailure failure
  | _ => .Exception

/-- `v or {}` where `.get` is called next. -/
def orEmpty (v : Value) : Except PlaceError Dict :=
  match Execution.orEmpty v with
  | some d => .ok d
  | none => .error .Exception

/-- What the purchase is about. -/
structure Offer where
  contract_type : String
  proposal_id : Value
  ask_price : Value

section Adapter

variable (h : Host) (x : Exchange)

/-- `place_order` up to the purchase. -/
def offer : Except PlaceError Offer := do
  let payload ← (Preview.placeOrder h x.world x.account x.order).mapError ofPlaceError
  let response ← x.proposal.request
  let proposal ← orEmpty (response.get "proposal")
  let proposal_id := proposal.get "id"
  let ask_price := proposal.firstOf ["ask_price", "display_value"]
  match proposal_id.truthy, ask_price with
  | false, _ => .error .BrokerOrderError
  | _, .none => .error .BrokerOrderError
  | true, _ =>
    match x.world.parseFloat ask_price with
    | none => .error .Exception
    | some _ => return ⟨payload.contract_type, proposal_id, ask_price⟩

/-- The purchase. -/
def purchase (o : Offer) (buy : Wire) : Except PlaceError Dict := do
  let response ← buy.request
  let buy ← orEmpty (response.get "buy")
  let contract_id := buy.get "contract_id"
  if contract_id.truthy = true then
    return [("status", .str "filled"), ("broker_order_id", .str (contract_id.toStr h)),
      ("execution_price", (buy.get "buy_price").or o.ask_price), ("fees", .int 0),
      ("payout", buy.get "payout"), ("proposal_id", o.proposal_id),
      ("contract_type", .str o.contract_type)]
  else .error .BrokerOrderError

/-- `place_order`. -/
def placeOrder : Except PlaceError Dict := do
  let o ← offer h x
  purchase h o x.buy

/-- How the adapter ends for `execute`. -/
def reply : Reply :=
  if x.timed_out then .raises .TimeoutError
  else
    match placeOrder h x with
    | .ok result => .returns (.dict result)
    | .error e => .raises e

/-- The status that `execute` records. -/
def recorded : OrderStatus := (replyStatus h (reply h x)).1

/-- The broker may have accepted the purchase. -/
def mayBeAccepted : Bool :=
  match offer h x with
  | .ok _ => x.buy.mayBeAccepted
  | .error _ => false

/-- An order that is recorded as rejected or failed was not accepted. -/
def Truthful : Prop :=
  recorded h x = .rejected ∨ recorded h x = .failed → mayBeAccepted h x = false

end Adapter

/-- The purchase ends as the adapter expects: it is not sent, the transport fails, or the reply is
an object with an error or with a contract that has an id. -/
def Wire.Expected : Wire → Prop
  | .unsent _ => True
  | .lost e => e ≠ .Exception
  | .answered (.dict response) =>
    (Dict.get response "error").truthy = true ∨
      ∃ contract : Dict, Dict.get response "buy" = .dict contract ∧
        (contract.get "contract_id").truthy = true
  | .answered _ => False

/-- `execute` takes the exception for a refusal. -/
def denies : PlaceError → Bool
  | .TimeoutError | .BrokerConnectionError => false
  | .BrokerAuthenticationError | .BrokerOrderError | .Exception => true

/-! ## The purchase -/

section Purchase

variable {h : TextHost} {x : Exchange} {o : Offer}

theorem status_of_denies (e : PlaceError) :
    (e.status = .rejected ∨ e.status = .failed) ↔ denies e = true := by
  cases e <;> decide

/-- A reply with the status `filled` is not taken for a refusal. -/
theorem resultStatus_filled {result : Dict} (hstatus : result.get "status" = .str "filled") :
    ¬ ((resultStatus h.toHost result).1 = .rejected ∨
      (resultStatus h.toHost result).1 = .failed) := by
  have hwords : inLowerCase ["filled"] = true := by decide
  have hlower : h.lower "filled" = "filled" := h.lower_of_mem hwords List.mem_cons_self
  have htext : textOr h.toHost (result.get "status") "" = "filled" := by
    rw [hstatus]
    rfl
  have hstrip : strip "filled" = "filled" := by decide +kernel
  simp only [resultStatus, htext, hstrip, hlower]
  split
  · next hword => exact absurd hword (by decide)
  · split
    · next hword => exact absurd hword (by decide)
    · split
      · decide
      · simp [placedStatus]

/-- A reply without an error is taken for a refusal unless it has a contract with an id. -/
theorem purchase_denied_iff {buy : Wire} {response : Dict} (hrequest : buy.request = .ok response) :
    (∃ e, purchase h.toHost o buy = .error e ∧ denies e = true) ↔
      ¬ ∃ contract : Dict, response.get "buy" = .dict contract ∧
        (contract.get "contract_id").truthy = true := by
  have hpurchase : purchase h.toHost o buy = (orEmpty (response.get "buy")).bind fun contract =>
      if (contract.get "contract_id").truthy = true then
        .ok [("status", .str "filled"),
          ("broker_order_id", .str ((contract.get "contract_id").toStr h.toHost)),
          ("execution_price", (contract.get "buy_price").or o.ask_price), ("fees", .int 0),
          ("payout", contract.get "payout"), ("proposal_id", o.proposal_id),
          ("contract_type", .str o.contract_type)]
      else .error .BrokerOrderError := by
    rw [purchase, hrequest]
    rfl
  rw [hpurchase]
  cases hbuy : response.get "buy" with
  | dict contract =>
    simp only [orEmpty, Execution.orEmpty, Except.bind, Value.dict.injEq, exists_eq_left']
    by_cases hid : (Dict.get contract "contract_id").truthy = true
    · simp [hid]
    · simp [hid, denies]
  | _ =>
    refine iff_of_true ?_ (by simp)
    unfold orEmpty Execution.orEmpty
    dsimp only
    split_ifs
    · exact ⟨_, rfl, rfl⟩
    · exact ⟨_, rfl, rfl⟩

/-- A purchase that raises what is taken for a refusal was not accepted, exactly if it ends as
expected. -/
theorem purchase_truthful_iff (buy : Wire) :
    ((∃ e, purchase h.toHost o buy = .error e ∧ denies e = true) → buy.mayBeAccepted = false) ↔
      buy.Expected := by
  cases buy with
  | unsent e => exact iff_of_true (fun _ => rfl) trivial
  -- the reply is lost after the purchase: only the exceptions that the engine expects keep silent
  | lost e =>
    simp only [Wire.mayBeAccepted, Wire.Expected, Bool.true_eq_false, imp_false]
    cases e with
    | Exception => exact iff_of_false (not_not.mpr ⟨.Exception, rfl, rfl⟩) (by simp)
    | _ =>
      refine iff_of_true ?_ (by simp)
      rintro ⟨e, he, hdenies⟩
      cases he
      cases hdenies
  | answered response =>
    cases response with
    | dict response =>
      -- an error in the reply is the only sure refusal
      by_cases herror : (Dict.get response "error").truthy = true
      · exact iff_of_true (fun _ => by simp [Wire.mayBeAccepted, herror]) (Or.inl herror)
      · have hrequest : (Wire.answered (.dict response)).request = .ok response := if_neg herror
        have haccepted : (Wire.answered (.dict response)).mayBeAccepted = true := by
          simp [Wire.mayBeAccepted, herror]
        rw [haccepted]
        simp only [Wire.Expected, herror, Bool.true_eq_false, imp_false]
        rw [or_iff_right Bool.false_ne_true, not_iff_comm]
        exact (purchase_denied_iff hrequest).symm
    | _ =>
      refine iff_of_false ?_ id
      intro hall
      cases hall ⟨.Exception, rfl, rfl⟩

/-- The order is recorded as refused exactly if, within the time limit, the adapter raises
something else than a transport error. -/
theorem recorded_denied_iff :
    (recorded h.toHost x = .rejected ∨ recorded h.toHost x = .failed) ↔
      x.timed_out = false ∧ ∃ e, placeOrder h.toHost x = .error e ∧ denies e = true := by
  unfold recorded reply
  cases x.timed_out with
  | true => simp [replyStatus, PlaceError.status]
  | false =>
    cases hplace : placeOrder h.toHost x with
    | error e => simpa [replyStatus] using status_of_denies e
    | ok result =>
      refine iff_of_false ?_ (by simp)
      refine resultStatus_filled ?_
      unfold placeOrder at hplace
      rcases bind_ok.mp hplace with ⟨o, _, hpurchase⟩
      rcases bind_ok.mp hpurchase with ⟨response, _, hpurchase⟩
      rcases bind_ok.mp hpurchase with ⟨contract, _, hpurchase⟩
      dsimp only at hpurchase
      split at hpurchase
      · cases hpurchase
        rfl
      · cases hpurchase

end Purchase

/-- An order is recorded as rejected or failed only when it was not accepted, exactly if the time
runs out, the purchase is not reached, or it ends as expected. -/
theorem truthful_iff (h : TextHost) (x : Exchange) :
    Truthful h.toHost x ↔
      x.timed_out = true ∨ (∀ o, offer h.toHost x ≠ .ok o) ∨ x.buy.Expected := by
  unfold Truthful mayBeAccepted
  rw [recorded_denied_iff]
  cases x.timed_out with
  | true => simp
  | false =>
    unfold placeOrder
    cases hoffer : offer h.toHost x with
    | error e => simp
    | ok o =>
      simp only [true_and, Bool.false_eq_true, false_or]
      have hreached : ¬ ∀ o', Except.ok o ≠ (Except.ok o' : Except PlaceError Offer) :=
        fun hnone => hnone o rfl
      rw [or_iff_right hreached]
      exact purchase_truthful_iff x.buy

/-! ## The queue worker -/

/-- Once the order is sent, the worker keeps it as sent after any exception. -/
theorem worker_keeps_sent {order : Execution.Order} (hsent : order.status = .sent_to_broker)
    (e : Execution.Exc) (s : Execution.Shared) :
    (Execution.Batches.handle order e s).2.order.status = .sent_to_broker := by
  have hflight : (s.order.status.inFlight || order.status.inFlight) = true := by
    rw [hsent]
    exact Bool.or_true _
  unfold Execution.Batches.handle
  rw [if_pos hflight]
  split <;> rfl

/-! ## A contract without an id -/

/-- A demo account, with a broker that offers rises and prices them. -/
def risesOffered : Preview.World where
  plan := "free"
  orderAllowed := true
  liveAllowed := true
  ALLOW_LIVE_TRADING := false
  risk _ := .ok ()
  max_age := 30
  contracts_for := .ok [.dict [("contract_type", .str "CALL")]]
  tick := .error .other
  propose _ := .error .other
  quoted_at := 0
  priced_at := 0
  float _ := some 1
  parseFloat _ := some (some 1)
  fits _ := true

def demoAccount : Preview.BrokerAccount where
  id := 1
  user_id := 1
  account_id := "VRTC1"
  currency := "USD"
  account_type := "demo"
  balance := 100
  active := true
  broker_active := true
  credentials_ready := true
  is_connected := true
  broker_type := "deriv"
  broker_name := "Deriv"
  is_live_trading_supported := false

def buyOrder : Preview.Order where
  symbol := "R_100"
  stake := .finite false 1 0
  direction := "buy"
  order_type := "market"
  contract_type := "CALL"
  duration := some 60
  duration_unit := "s"
  validation_context := []

/-- The purchase is answered without an error and without a contract id. -/
def withoutContractId : Exchange where
  world := risesOffered
  account := demoAccount
  order := buyOrder
  proposal := .answered (.dict [("proposal", .dict [("id", .str "P1"), ("ask_price", .int 1)])])
  buy := .answered (.dict [("buy", .dict [("buy_price", .int 1)])])
  timed_out := false

/-- It is recorded as rejected. -/
theorem accepted_rejected :
    recorded .ascii withoutContractId = .rejected ∧ mayBeAccepted .ascii withoutContractId = true ∧
      ¬ Truthful .ascii withoutContractId := by
  have hrejected : recorded .ascii withoutContractId = .rejected := by decide +kernel
  have haccepted : mayBeAccepted .ascii withoutContractId = true := by decide +kernel
  refine ⟨hrejected, haccepted, ?_⟩
  intro htruthful
  rw [htruthful (Or.inl hrejected)] at haccepted
  cases haccepted

end AlgoBot.Brokers.Acceptance
