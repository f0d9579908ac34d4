import AlgoBot.Core.Machine
import AlgoBot.Python.Value

/-!
# Orders, queue entries and the broker

The rows the execution engine keeps of one order, the exceptions its steps can
raise, and the broker it submits to. Orders do not share rows, so the order and
its queue entry are all the database the actors on one order see.

`Broker` is the broker's own book: how often `adapter.place_order` was invoked,
and which of these submissions it has definitively rejected.
-/

namespace AlgoBot.Execution

open AlgoBot.Core AlgoBot.Python

/-- `Order.STATUS_CHOICES`. -/
inductive OrderStatus where
  | draft
  | validated
  | queued
  | sent_to_broker
  | accepted
  | executed
  | archived
  | failed
  | cancelled
deriving DecidableEq, Repr

/-- The status of an `ExecutionQueue` row. -/
inductive QueueStatus where
  | pending
  | processing
  | retry
  | done
  | failed
  | cancelled
deriving DecidableEq, Repr

/-- The exception classes the worker's handlers tell apart, and any other. -/
inductive ExcClass where
  | BrokerConnectionError
  | TimeoutError
  | BrokerAuthenticationError
  | BrokerOrderError
  | PermissionError
  | ValueError
  | Exception
deriving DecidableEq, Repr

structure Exc where
  cls : ExcClass
  message : String
deriving DecidableEq, Repr

/-- The columns of an order that an actor reads or writes. -/
structure Order where
  status : OrderStatus
  validation_context : Dict
  broker_reference : String
  broker_response : Value
  client_request_id : String

/-- How `adapter.place_order` ends. -/
inductive BrokerReply where
  | raises (e : Exc)
  | returns (v : Value)

/-- How one step of an actor ends. Only the step that awaits the broker has a reply. -/
inductive Outcome where
  | ok
  | fail (e : Exc)
  | reply (r : BrokerReply)

/-- The submissions the broker has seen, numbered from 0, and those it rejected. -/
structure Broker where
  invoked : ℕ
  rejected : List ℕ
  /-- Only what was submitted is rejected. -/
  submitted : ∀ k, k ∈ rejected → k < invoked

/-- The broker has not seen the order yet. -/
def Broker.empty : Broker := ⟨0, [], fun _ hk => absurd hk List.not_mem_nil⟩

/-- Every submission of the order so far was definitively rejected. -/
def Broker.allRejected (b : Broker) : Bool := (List.range b.invoked).all fun k => k ∈ b.rejected

theorem Broker.allRejected_iff {b : Broker} :
    b.allRejected = true ↔ ∀ k, k < b.invoked → k ∈ b.rejected := by
  simp [Broker.allRejected]

/-- The rows of the order, and the broker. -/
structure Shared where
  order : Order
  queue : Option QueueStatus
  broker : Broker

/-! ## Reading a broker reply -/

/-- What a reply says about the order. -/
inductive Verdict where
  | executed
  | accepted
  | rejected
  | unknown
deriving DecidableEq, Repr

/-- `str(response.get("status") or "").strip().lower()`. -/
def brokerStatus (h : Host) (response : Dict) : String :=
  h.lower (strip (textOr h (response.get "status") ""))

def verdict (h : Host) (response : Dict) : Verdict :=
  let broker_status := brokerStatus h response
  if broker_status ∈ ["filled", "executed"] then .executed
  else if broker_status = "accepted" ∨ broker_status = "partially_filled" then .accepted
  else if broker_status ∈ ["rejected", "cancelled", "expired", "failed"] then .rejected
  else .unknown

/-- The status `execute` gives the order for a verdict. -/
def Verdict.status : Verdict → OrderStatus
  | .executed => .executed
  | .accepted => .accepted
  | .rejected => .failed
  | .unknown => .queued

/-- The order in memory after a reply. -/
def withResponse (h : Host) (order : Order) (response : Dict) : Order :=
  let v := verdict h response
  { order with
    broker_response := .dict response
    broker_reference :=
      textOr h (response.firstOf ["broker_order_id", "contract_id", "order_id"]) ""
    status := v.status
    -- only the branch for an unknown status asks for reconciliation
    validation_context :=
      if v = .unknown then
        (order.validation_context.insert "execution_state" (.str "unknown_broker_response")).insert
          "reconciliation_required" (.bool true)
      else order.validation_context }

/-- The order in memory after a reply that is no `dict`. -/
def withInvalidResponse (order : Order) : Order :=
  { order with
    validation_context :=
      (order.validation_context.insert "execution_state" (.str "invalid_broker_response")).insert
        "reconciliation_required" (.bool true) }

/-! ## Broker events -/

/-- `EXECUTION_STATES`. -/
def EXECUTION_STATES : List String :=
  ["pending", "submitted", "open", "closed", "rejected", "unknown", "cancelled"]

/-- What `normalize_execution_event` keeps for the order row. -/
structure ExecutionEvent where
  broker_contract_id : Option String
  broker_transaction_id : Option String
  status : String
  raw : Dict

/-- `str(v) if v is not None else None`. -/
def textOf? (h : Host) : Value → Option String
  | .none => none
  | v => some (v.toStr h)

/-- `v or {}` where `.get` is called next: another truthy value raises an `AttributeError`. -/
def orEmpty : Value → Option Dict
  | .dict kvs => some kvs
  | v => if v.truthy then none else some []

/-- `normalize_execution_event`; `none` is an `AttributeError`. -/
def normalizeExecutionEvent (h : Host) (payload : Dict) : Option ExecutionEvent := do
  let contract ← orEmpty (payload.firstOf ["proposal_open_contract", "contract"])
  let tx ← orEmpty (payload.get "transaction")
  let contract_id := (contract.get "contract_id").or (payload.get "contract_id")
  let transaction_id :=
    (tx.get "transaction_id").or (payload.firstOf ["transaction_id", "buy_transaction_id"])
  let status :=
    h.lower (textOr h ((contract.get "status").or (payload.get "status")) "unknown")
  let status :=
    if (contract.get "is_sold").truthy || (contract.get "is_expired").truthy then "closed"
    else status
  return {
    broker_contract_id := textOf? h contract_id
    broker_transaction_id := textOf? h transaction_id
    status := if status ∈ EXECUTION_STATES then status else "unknown"
    raw := payload }

/-- `status_map.get(broker_status, order.status)`. -/
def eventStatus (current : OrderStatus) (broker_status : String) : OrderStatus :=
  if broker_status = "open" then .executed
  else if broker_status = "closed" then .archived
  else if broker_status = "cancelled" then .cancelled
  else if broker_status = "rejected" then .failed
  else if broker_status = "unknown" then .sent_to_broker
  else current

/-- The lookup of `reconcile_execution_event` finds this order. -/
def ExecutionEvent.finds (ev : ExecutionEvent) (order : Order) : Bool :=
  ev.broker_contract_id.any (fun k => k != "" && k == order.broker_reference) ||
    ev.broker_transaction_id.any fun k => k != "" && k == order.client_request_id

/-- The order in memory when `reconcile_execution_event` saves it. -/
def withEvent (order : Order) (ev : ExecutionEvent) : Order :=
  { order with
    broker_reference :=
      match ev.broker_contract_id with
      | some k => if k = "" then order.broker_reference else k
      | none => order.broker_reference
    broker_response := .dict ev.raw
    status := eventStatus order.status ev.status }

/-- The recovery scan selects the order, `_candidate_orders`. -/
def candidateOrder (order : Order) : Bool := order.status == .sent_to_broker

end AlgoBot.Execution
