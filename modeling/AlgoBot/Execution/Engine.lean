import Mathlib.Logic.Function.Basic
import AlgoBot.Execution.Models

/-!
# The actors on one order

The callers of the execution engine as one machine. The order row has just been
created by `place_order` or `place_manual_order`; from there on any number of
workers (`process_execution_queue`), `OrderService.cancel`, the retry view and
`reconcile_execution_event` interleave with the rest of the placing call. Each
read, each save and each call of the broker is a step, and each may raise.

`cancel` and the retry view run in a transaction that locks the queue entry and
then the order. With an entry the two reads are one step. Without one nothing is
locked, and the entry may appear before the order is read (`Action.lookup`). A
transaction that raises leaves the rows as they were, which is no step.

The recovery scan only calls `reconcile_execution_event`, on what the broker
answers, so its writes are event steps too.
-/

namespace AlgoBot.Execution

open AlgoBot.Core AlgoBot.Python

/-! ## `ExecutionEngine.execute` -/

/-- What `execute` does next. -/
inductive ExecPc where
  | check
  | saveSent
  | submit
  | await
  | saveInvalid
  | saveUnknown
  | logUnknown
  | saveReply
  | logReply
deriving DecidableEq, Repr

/-- A call of `execute`: the order in its memory and the number of its submission. -/
structure Exec where
  pc : ExecPc
  order : Order
  attempt : ℕ

/-- How far a step takes a call of `execute`. -/
inductive ExecNext where
  | running (x : Exec)
  | returned (order : Order)
  | raised (order : Order) (e : Exc)

/-- The call as it starts. -/
def Exec.start (order : Order) : Exec := ⟨.check, order, 0⟩

def Shared.setStatus (s : Shared) (status : OrderStatus) : Shared :=
  { s with order := { s.order with status := status } }

def Shared.setContext (s : Shared) (validation_context : Dict) : Shared :=
  { s with order := { s.order with validation_context := validation_context } }

/-- `save(update_fields=["broker_response", "broker_reference", ..., "status", ...])`. -/
def Shared.saveReply (s : Shared) (order : Order) : Shared :=
  { s with order := { s.order with
      broker_response := order.broker_response
      broker_reference := order.broker_reference
      status := order.status } }

/-- `adapter.place_order` is invoked. -/
def Broker.invoke (b : Broker) : Broker :=
  ⟨b.invoked + 1, b.rejected, fun k hk => Nat.lt_succ_of_lt (b.submitted k hk)⟩

/-- The broker has definitively rejected submission `k`. -/
def Broker.reject (b : Broker) (k : ℕ) : Broker :=
  if hk : k < b.invoked then
    ⟨b.invoked, k :: b.rejected, by
      intro j hj
      rcases List.mem_cons.mp hj with rfl | hj
      · exact hk
      · exact b.submitted j hj⟩
  else b

def cannotExecute (status : OrderStatus) : Exc :=
  ⟨.PermissionError, "Cannot execute order in " ++
    (if status = .cancelled then "cancelled" else "failed") ++ " state"⟩

def invalidResponse : Exc :=
  ⟨.BrokerConnectionError,
    "Broker returned an invalid execution response; reconciliation is required before retrying."⟩

def unknownState : Exc :=
  ⟨.BrokerConnectionError,
    "Broker execution state is unknown; reconciliation is required before retrying."⟩

/-- The checks before anything is saved. A failure is the account, consensus or risk gate
raising. -/
def checkStep (x : Exec) (o : Outcome) : Option ExecNext :=
  if x.order.status = .accepted ∨ x.order.status = .executed then some (.returned x.order)
  else if x.order.status = .cancelled ∨ x.order.status = .failed then
    some (.raised x.order (cannotExecute x.order.status))
  else
    match o with
    | .ok => some (.running
        { x with pc := .saveSent, order := { x.order with status := .sent_to_broker } })
    | .fail e => some (.raised x.order e)
    | .reply _ => none

/-- The branch for a reply that is a `dict`. -/
def replyStep (h : Host) (x : Exec) (s : Shared) (response : Dict) : ExecNext × Shared :=
  let order := withResponse h x.order response
  match verdict h response with
  | .unknown => (.running { x with pc := .saveUnknown, order := order }, s)
  | .rejected =>
      -- the broker's book has it rejected whether or not the reply is saved
      (.running { x with pc := .saveReply, order := order },
        { s with broker := s.broker.reject x.attempt })
  | _ => (.running { x with pc := .saveReply, order := order }, s)

/-- `adapter.place_order` raises or answers. -/
def awaitStep (h : Host) (x : Exec) (s : Shared) : BrokerReply → ExecNext × Shared
  | .raises e => (.raised x.order e, s)
  | .returns (.dict response) => replyStep h x s response
  | .returns _ => (.running { x with pc := .saveInvalid, order := withInvalidResponse x.order }, s)

/-- One step of `execute` that succeeds. -/
def execOk (x : Exec) (s : Shared) : Option (ExecNext × Shared) :=
  match x.pc with
  | .check => (checkStep x .ok).map fun n => (n, s)
  | .saveSent => some (.running { x with pc := .submit }, s.setStatus x.order.status)
  | .submit =>
      some (.running { x with pc := .await, attempt := s.broker.invoked },
        { s with broker := s.broker.invoke })
  | .await => none
  | .saveInvalid =>
      some (.raised x.order invalidResponse, s.setContext x.order.validation_context)
  | .saveUnknown =>
      -- the status saved here is `queued`
      some (.running { x with pc := .logUnknown },
        (s.saveReply x.order).setContext x.order.validation_context)
  | .logUnknown => some (.raised x.order unknownState, s)
  | .saveReply => some (.running { x with pc := .logReply }, s.saveReply x.order)
  | .logReply => some (.returned x.order, s)

/-- One step of `execute`. -/
def execStep (h : Host) (x : Exec) (s : Shared) : Outcome → Option (ExecNext × Shared)
  | .ok => execOk x s
  | .fail e =>
      match x.pc with
      | .check => (checkStep x (.fail e)).map fun n => (n, s)
      | .await => none
      | _ => some (.raised x.order e, s)
  | .reply r => if x.pc = .await then some (awaitStep h x s r) else none

/-! ## `place_order` and `place_manual_order` -/

/-- What the placing call does next, up to `execute`. -/
inductive PlacePc where
  | logCreated
  | logValidated
  | saveValidated
  | risk
  | enqueue
  | saveQueued
  | logQueued
deriving DecidableEq, Repr

inductive Placer where
  | placing (pc : PlacePc) (order : Order)
  | exec (x : Exec)
  | done

/-- One step of `OrderService.create_order`, `validate`, the risk gate and `enqueue` that succeeds;
`place_manual_order` calls `execute` where `place_order` enqueues. -/
def placeOk (manual : Bool) (order : Order) (s : Shared) : PlacePc → Placer × Shared
  | .logCreated => (.placing .logValidated order, s)
  | .logValidated => (.placing .saveValidated order, s)
  | .saveValidated =>
      (.placing .risk { order with status := .validated }, s.setStatus .validated)
  | .risk =>
      (if manual then .exec (Exec.start order) else .placing .enqueue order, s)
  | .enqueue => (.placing .saveQueued order, { s with queue := some .pending })
  | .saveQueued => (.placing .logQueued { order with status := .queued }, s.setStatus .queued)
  | .logQueued => (.done, s)

/-- The placing call after a step of `execute`. -/
def Placer.after : ExecNext → Placer
  | .running x => .exec x
  | _ => .done

/-- One step of the placing call; an exception ends it. -/
def placeStep (h : Host) (manual : Bool) (s : Shared) :
    Placer → Outcome → Option (Placer × Shared)
  | .placing pc order, .ok => some (placeOk manual order s pc)
  | .placing _ _, .fail _ => some (.done, s)
  | .placing _ _, .reply _ => none
  | .exec x, o => (execStep h x s o).map fun r => (Placer.after r.1, r.2)
  | .done, _ => none

/-! ## `process_execution_queue` -/

/-- What a worker does next with the order's queue entry. -/
inductive Worker where
  | idle
  | claimed
  | exec (x : Exec)
  | markDone (order : Order)
  | readCurrent (order : Order) (e : Exc)
  | readContext (e : Exc)
  | writeOrder (status : OrderStatus) (validation_context : Option Dict)
  | writeQueue

/-- The order statuses the handlers take for a possible submission. -/
def OrderStatus.inFlight (status : OrderStatus) : Bool :=
  status == .sent_to_broker || status == .accepted || status == .executed

/-- `str(exc)[:500]`. -/
def Exc.text (e : Exc) : String := String.ofList (e.message.toList.take 500)

/-- `{**context, "reconciliation_required": True, "execution_error": str(exc)[:500]}`. -/
def withError (context : Dict) (e : Exc) : Dict :=
  (context.insert "reconciliation_required" (.bool true)).insert "execution_error" (.str e.text)

/-- The exceptions of the first handler. -/
def ExcClass.transport (c : ExcClass) : Bool := c == .BrokerConnectionError || c == .TimeoutError

/-- The exceptions of the second handler. -/
def ExcClass.typed (c : ExcClass) : Bool :=
  c == .BrokerAuthenticationError || c == .BrokerOrderError || c == .PermissionError ||
    c == .ValueError

/-- The handler that catches the exception. -/
def caught (order : Order) (e : Exc) : Worker :=
  if e.cls.transport then
    .writeOrder .sent_to_broker (some (withError order.validation_context e))
  else .readCurrent order e

/-- The two last handlers, once the current row is read. -/
def onCurrent (current order : Order) (e : Exc) : Worker :=
  if current.status.inFlight || order.status.inFlight then
    if e.cls.typed then
      .writeOrder .sent_to_broker (some (withError current.validation_context e))
    else .readContext e
  else .writeOrder .failed none

/-- The worker after a step of `execute`. -/
def Worker.after : ExecNext → Worker
  | .running x => .exec x
  | .returned order => .markDone order
  | .raised order e => caught order e

/-- `Order.objects.filter(pk=order_id).update(...)`. -/
def Shared.writeOrder (s : Shared) (status : OrderStatus) : Option Dict → Shared
  | some context => (s.setStatus status).setContext context
  | none => s.setStatus status

/-- A worker may claim the entry. -/
def claimable (queue : Option QueueStatus) : Bool :=
  queue == some .pending || queue == some .retry

/-- One step of a worker. An exception inside a handler leaves the entry as it is. -/
def workStep (h : Host) (s : Shared) : Worker → Outcome → Option (Worker × Shared)
  | .idle, .ok =>
      -- the entry is read and saved in one transaction that locks it
      if claimable s.queue then some (.claimed, { s with queue := some .processing }) else none
  | .idle, _ => none
  | .claimed, .ok => some (.exec (Exec.start s.order), s)
  | .claimed, .fail _ => some (.idle, s)
  | .exec x, o => (execStep h x s o).map fun r => (Worker.after r.1, r.2)
  | .markDone _, .ok => some (.idle, { s with queue := some .done })
  | .markDone order, .fail e => some (caught order e, s)
  | .readCurrent order e, .ok => some (onCurrent s.order order e, s)
  | .readCurrent _ _, .fail _ => some (.idle, s)
  | .readContext e, .ok =>
      some (.writeOrder .sent_to_broker (some (withError s.order.validation_context e)), s)
  | .readContext _, .fail _ => some (.idle, s)
  | .writeOrder status context, .ok => some (.writeQueue, s.writeOrder status context)
  | .writeOrder _ _, .fail _ => some (.idle, s)
  | .writeQueue, .ok => some (.idle, { s with queue := some .failed })
  | .writeQueue, .fail _ => some (.idle, s)
  | _, .reply _ => none

/-! ## `OrderService.cancel`, the retry view and broker events -/

/-- `OrderService.cancel` with the queue entry it has read; `none` is an `OrderValidationError`. -/
def cancelOrder (entry : Option QueueStatus) (s : Shared) : Option Shared :=
  if s.order.status ≠ .draft ∧ s.order.status ≠ .validated ∧ s.order.status ≠ .queued then none
  -- a queued order without a claimable entry may be on its way to the broker
  else if s.order.status = .queued ∧ claimable entry = false then none
  else if entry = some .processing then none
  else some { s.setStatus .cancelled with
    queue := if claimable entry then some .cancelled else s.queue }

/-- The retry view with the queue entry it has read; `none` is a 409 answer. -/
def retryOrder (entry : Option QueueStatus) (s : Shared) : Option Shared :=
  if s.order.status ≠ .failed then none
  else if entry = some .processing then none
  else some { s.setStatus .queued with queue := some .pending }

/-- An event that reports a rejection of submission `about` goes into the broker's book. -/
def ExecutionEvent.book (ev : ExecutionEvent) (about : ℕ) (b : Broker) : Broker :=
  if ev.status = "rejected" then b.reject about else b

/-- `order.save(...)` at the end of `reconcile_execution_event`. -/
def Shared.saveEvent (s : Shared) (order : Order) : Shared := s.saveReply order

/-! ## The machine -/

structure State where
  shared : Shared
  placer : Placer
  workers : ℕ → Worker
  /-- The cancel or retry request has read that there is no queue entry. -/
  absent : ℕ → Bool
  /-- The order an event has in memory, until it saves it. -/
  events : ℕ → Option Order

inductive Action where
  | place (o : Outcome)
  | work (i : ℕ) (o : Outcome)
  | lookup (i : ℕ)
  | cancel (i : ℕ)
  | retry (i : ℕ)
  | eventRead (j : ℕ) (about : ℕ) (event : Dict)
  | eventSave (j : ℕ) (saved : Bool)

/-- The queue entry a cancel or retry request acts on. -/
def State.entry (s : State) (i : ℕ) : Option QueueStatus :=
  if s.absent i then none else s.shared.queue

def step (h : Host) (manual : Bool) (s : State) : Action → Option State
  | .place o =>
      (placeStep h manual s.shared s.placer o).map fun r => { s with placer := r.1, shared := r.2 }
  | .work i o =>
      (workStep h s.shared (s.workers i) o).map fun r =>
        { s with workers := Function.update s.workers i r.1, shared := r.2 }
  | .lookup i =>
      if s.shared.queue = none then some { s with absent := Function.update s.absent i true }
      else none
  | .cancel i =>
      (cancelOrder (s.entry i) s.shared).map fun r =>
        { s with shared := r, absent := Function.update s.absent i false }
  | .retry i =>
      (retryOrder (s.entry i) s.shared).map fun r =>
        { s with shared := r, absent := Function.update s.absent i false }
  | .eventRead j about event =>
      match normalizeExecutionEvent h event with
      | some ev =>
        if ev.finds s.shared.order then
          some { s with
            events := Function.update s.events j (some (withEvent s.shared.order ev))
            shared := { s.shared with broker := ev.book about s.shared.broker } }
        else none
      | none => none
  | .eventSave j saved =>
      (s.events j).map fun order =>
        { s with
          events := Function.update s.events j none
          shared := if saved then s.shared.saveEvent order else s.shared }

/-- The actors on one order; `manual` tells `place_manual_order` from `place_order`. -/
def engine (h : Host) (manual : Bool) : Machine State Action := ⟨step h manual⟩

/-- `Order.objects.create` has just returned. -/
def State.start (order : Order) : State where
  shared := ⟨{ order with status := .draft }, none, Broker.empty⟩
  placer := .placing .logCreated { order with status := .draft }
  workers := fun _ => .idle
  absent := fun _ => false
  events := fun _ => none

/-- An order as `place_order` creates it. -/
def draft : Order := ⟨.draft, [], "", .dict [], ""⟩

/-- The step of `execute` invokes `adapter.place_order`. -/
def Exec.submits (x : Exec) : Outcome → Bool
  | .ok => x.pc == .submit
  | _ => false

def Placer.submits (p : Placer) (o : Outcome) : Bool :=
  match p with
  | .exec x => x.submits o
  | _ => false

def Worker.submits (w : Worker) (o : Outcome) : Bool :=
  match w with
  | .exec x => x.submits o
  | _ => false

/-- The step invokes `adapter.place_order`. -/
def submits (s : State) : Action → Bool
  | .place o => s.placer.submits o
  | .work i o => (s.workers i).submits o
  | _ => false

end AlgoBot.Execution
