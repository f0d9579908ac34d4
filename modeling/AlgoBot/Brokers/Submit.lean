import AlgoBot.Core.Once
import AlgoBot.Core.Table
import AlgoBot.Python.Value

/-!
# Submissions under one client order id

`ExecutionEngine.submit` of the brokers app, any number of calls at once, for the
orders of one user. A call is given an account or has one routed, looks for an order
under the account and the client order id, inserts its own, and executes it. The
unique constraint on the user, the account and the id decides the races.

`placed_once`: calls with one client order id reach `adapter.place_order` at most
once on each account. `placed_on_both` is a second call that is routed to another
account while the order on the first one is filled.
-/

namespace AlgoBot.Brokers

open AlgoBot.Core AlgoBot.Python

/-- The status of a broker order. -/
inductive OrderStatus where
  | created
  | validated
  | approved
  | queued
  | submitted
  | pending
  | open
  | executed
  | partially_filled
  | filled
  | rejected
  | expired
  | cancelled
  | closed
  | failed
  | reconciled
deriving DecidableEq, Repr

/-- `OrderManagementSystem.TERMINAL_STATUSES`. -/
def TERMINAL_STATUSES : List OrderStatus :=
  [.filled, .executed, .partially_filled, .rejected, .cancelled, .expired, .closed, .failed,
    .reconciled]

/-- `OrderManagementSystem.RETRYABLE_STATUSES`. -/
def RETRYABLE_STATUSES : List OrderStatus := [.failed, .rejected]

/-- An order of the user. -/
structure Order where
  id : ℕ
  account : ℕ
  client_order_id : String
  status : OrderStatus
  broker_order_id : String
  /-- The number of its execution reports. -/
  reports : ℕ

instance : HasPk Order := ⟨Order.id⟩

/-! ## The reply of the broker -/

/-- The exceptions of `adapter.place_order` that `execute` tells apart. -/
inductive PlaceError where
  | TimeoutError
  | BrokerAuthenticationError
  | BrokerConnectionError
  | BrokerOrderError
  | Exception
deriving DecidableEq, Repr

inductive Reply where
  | raises (e : PlaceError)
  | returns (v : Value)

/-- The status an order is left with after an exception. -/
def PlaceError.status : PlaceError → OrderStatus
  | .TimeoutError | .BrokerConnectionError => .pending
  | .BrokerAuthenticationError | .BrokerOrderError => .rejected
  | .Exception => .failed

/-- The statuses a reply may report for an order that is placed, and what is saved for them. -/
def placedStatus : String → Option OrderStatus
  | "filled" | "executed" => some .filled
  | "partially_filled" => some .partially_filled
  | "pending" => some .pending
  | "submitted" => some .submitted
  | "queued" => some .queued
  | "open" => some .open
  | _ => none

/-- What `execute` saves for a reply that is a `dict`: the status, and the broker's id when the
order is placed. -/
def resultStatus (h : Host) (result : Dict) : OrderStatus × Option String :=
  let reported_status := h.lower (strip (textOr h (result.get "status") ""))
  let broker_order_id := strip (textOr h (result.get "broker_order_id") "")
  if reported_status = "rejected" then (.rejected, none)
  else if reported_status = "failed" ∨ reported_status = "error" then (.failed, none)
  -- without an identifier or a known status the execution state is unknown
  else if broker_order_id = "" then (.pending, none)
  else
    match placedStatus reported_status with
    | some status => (status, some broker_order_id)
    | none => (.pending, none)

def replyStatus (h : Host) : Reply → OrderStatus × Option String
  | .raises e => (e.status, none)
  | .returns (.dict result) => resultStatus h result
  | .returns _ => (.pending, none)

/-! ## A call of `submit` -/

/-- What a call does next with the order it has inserted. -/
inductive Pc where
  | validate
  | risk
  | reject
  | approve
  | queue
  | submit
  | place
  | await
  | save (status : OrderStatus) (broker_order_id : Option String)
  | report
  | finished
deriving DecidableEq, Repr

inductive Call where
  | idle
  /-- The account is chosen and eligible. -/
  | routed (account : ℕ)
  /-- No order stands in the way; `retry_of` is the order that would be retried. -/
  | passed (account : ℕ) (retry_of : Option ℕ)
  | working (account id : ℕ) (pc : Pc)
  | ended

/-- What `submit` does about an order it finds: it goes on, with the order to be retried. -/
def lookup : Option Order → Option (Option ℕ)
  | none => some none
  | some existing =>
      if 0 < existing.reports ∧ existing.status ∈ TERMINAL_STATUSES then none
      else if existing.status ∈ [OrderStatus.pending, .submitted, .queued, .approved] then none
      else if existing.status ∈ RETRYABLE_STATUSES ∧ existing.broker_order_id = "" then
        some (some existing.id)
      else none

/-- The order the unique constraint knows under the account and the id. -/
def holder (orders : Table Order) (account : ℕ) (client_order_id : String) : Option Order :=
  orders.find? fun r => r.account == account && r.client_order_id == client_order_id

/-- `order.save(update_fields=...)`. -/
def saveOrder (orders : Table Order) (id : ℕ) (f : Order → Order) : Table Order :=
  match orders.get? id with
  | some r => orders.set (f r)
  | none => orders

def setStatus (orders : Table Order) (id : ℕ) (status : OrderStatus) : Table Order :=
  saveOrder orders id fun r => { r with status := status }

/-- The save after a reply. -/
def saveReply (orders : Table Order) (id : ℕ) (status : OrderStatus)
    (broker_order_id : Option String) : Table Order :=
  saveOrder orders id fun r =>
    { r with status := status, broker_order_id := broker_order_id.getD r.broker_order_id }

/-- `ExecutionReport.objects.create`. -/
def addReport (orders : Table Order) (id : ℕ) : Table Order :=
  saveOrder orders id fun r => { r with reports := r.reports + 1 }

/-- The next step of a call, and what it meets: the account, the gates, the reply. -/
inductive CallStep where
  | route (account : ℕ)
  | lookup
  | refuse
  | insert
  | go
  | block
  | reply (r : Reply)

/-- The steps after the insert. -/
def workStep (h : Host) (orders : Table Order) (id : ℕ) : Pc → CallStep → Option (Pc × Table Order)
  | .validate, .go => some (.risk, setStatus orders id .validated)
  | .risk, .go => some (.approve, orders)
  | .risk, .block => some (.reject, orders)
  | .reject, .go => some (.finished, setStatus orders id .rejected)
  | .approve, .go => some (.queue, setStatus orders id .approved)
  | .queue, .go => some (.submit, setStatus orders id .queued)
  | .submit, .go => some (.place, setStatus orders id .submitted)
  | .place, .go => some (.await, orders)
  | .await, .reply r =>
      let x := replyStatus h r
      some (.save x.1 x.2, orders)
  | .save status broker_order_id, .go =>
      some (if broker_order_id.isSome then .report else .finished,
        saveReply orders id status broker_order_id)
  | .report, .go => some (.finished, addReport orders id)
  | _, _ => none

/-- One step of a call with the client order id. -/
def callStep (h : Host) (client_order_id : String) (orders : Table Order) :
    Call → CallStep → Option (Call × Table Order)
  | .idle, .route account => some (.routed account, orders)
  | .routed account, .lookup =>
      -- a blank id is not looked for
      let existing :=
        if strip client_order_id = "" then none else holder orders account (strip client_order_id)
      match lookup existing with
      | some retry_of => some (.passed account retry_of, orders)
      | none => some (.ended, orders)
  | .passed _ _, .refuse => some (.ended, orders)
  | .passed account _, .insert =>
      -- the id is stored as it was passed
      if client_order_id ≠ "" ∧ (holder orders account client_order_id).isSome = true then
        some (.ended, orders)
      else
        some (.working account orders.nextPk .validate,
          orders.create (fun id => ⟨id, account, client_order_id, .created, "", 0⟩) fun _ => rfl)
  | .working account id pc, x =>
      (workStep h orders id pc x).map fun y => (.working account id y.1, y.2)
  | _, _ => none

structure State where
  orders : Table Order
  calls : ℕ → Call

/-- Any number of calls with the client order id. -/
def router (h : Host) (client_order_id : String) : Machine State (ℕ × CallStep) where
  next s a := (callStep h client_order_id s.orders (s.calls a.1) a.2).map fun x =>
    ⟨x.2, Function.update s.calls a.1 x.1⟩

def State.start (orders : Table Order) : State := ⟨orders, fun _ => .idle⟩

/-- The step invokes `adapter.place_order`. -/
def Pc.places : Pc → CallStep → Bool
  | .place, .go => true
  | _, _ => false

/-- The step invokes `adapter.place_order` for an order on the account. -/
def places (account : ℕ) (s : State) (a : ℕ × CallStep) : ℕ :=
  match s.calls a.1 with
  | .working acc _ pc => if acc = account ∧ pc.places a.2 = true then 1 else 0
  | _ => 0

/-- The step inserts an order on the account. -/
def inserts (client_order_id : String) (account : ℕ) (s : State) (a : ℕ × CallStep) : ℕ :=
  match s.calls a.1, a.2 with
  | .passed acc _, .insert =>
      if acc = account ∧ (holder s.orders account client_order_id).isSome = false then 1 else 0
  | _, _ => 0

section Steps

variable {h : Host} {client_order_id : String} {account : ℕ} {s s' t : State} {a : ℕ × CallStep}
  {orders orders' : Table Order}

/-! ## The order stays where it is -/

/-- The order under the account and the id is there, whatever is saved in it. -/
theorem holder_saveOrder {id : ℕ} {f : Order → Order} (hid : ∀ r, (f r).id = r.id)
    (haccount : ∀ r, (f r).account = r.account)
    (hclient : ∀ r, (f r).client_order_id = r.client_order_id) :
    (holder (saveOrder orders id f) account client_order_id).isSome =
      (holder orders account client_order_id).isSome := by
  unfold saveOrder
  split
  · next r hr =>
    have hmem := (Table.get?_eq_some.mp hr).1
    unfold holder
    rw [Table.find?_set]
    · cases orders.find? fun r => r.account == account && r.client_order_id == client_order_id <;>
        rfl
    · intro q hq hpk
      have hrow : q = r := Table.eq_of_pk_eq hq hmem (hpk.trans (hid r))
      rw [hrow]
      simp [haccount, hclient]
  · rfl

theorem workStep_holder {id : ℕ} {pc pc' : Pc} {x : CallStep}
    (hs : workStep h orders id pc x = some (pc', orders')) :
    (holder orders' account client_order_id).isSome =
      (holder orders account client_order_id).isSome := by
  unfold workStep at hs
  split at hs <;> cases hs
  all_goals first
    | rfl
    | exact holder_saveOrder (fun _ => rfl) (fun _ => rfl) (fun _ => rfl)

/-- The call still has its submission to make. -/
def Pc.ahead : Pc → Bool
  | .await | .save _ _ | .report | .reject | .finished => false
  | _ => true

/-- At the submission the call has it ahead, and afterwards not. -/
theorem workStep_places {id : ℕ} {pc pc' : Pc} {x : CallStep} (hplace : pc.places x = true)
    (hs : workStep h orders id pc x = some (pc', orders')) :
    pc.ahead = true ∧ pc'.ahead = false := by
  unfold Pc.places at hplace
  split at hplace
  · cases hs
    exact ⟨rfl, rfl⟩
  · cases hplace

theorem workStep_ahead {id : ℕ} {pc pc' : Pc} {x : CallStep}
    (hs : workStep h orders id pc x = some (pc', orders')) :
    pc'.ahead = true → pc.ahead = true := by
  unfold workStep at hs
  split at hs <;> cases hs <;> intro hn
  all_goals first
    | rfl
    | exact hn
    | (split at hn <;> exact hn)

/-! ## One order and one submission on each account -/

/-- The calls around an account. -/
def onAccount (client_order_id : String) (account : ℕ) : Family State ℕ Call where
  procs := State.calls
  active
    | .working acc _ _ => acc == account
    | _ => false
  ahead
    | .working acc _ pc => acc == account && pc.ahead
    | _ => false
  held s := (holder s.orders account client_order_id).isSome = true
  active_of_ahead c hc := by
    cases c with
    | working acc id pc =>
      rw [Bool.and_eq_true] at hc
      exact hc.1
    | _ => cases hc

/-- An insert leaves the other orders and adds its own. -/
theorem holder_create {mk : ℕ → Order} (hmk : ∀ k, (mk k).id = k) :
    (holder (orders.create mk hmk) account client_order_id).isSome = true ↔
      ((mk orders.nextPk).account = account ∧
        (mk orders.nextPk).client_order_id = client_order_id) ∨
      (holder orders account client_order_id).isSome = true := by
  unfold holder
  rw [Table.find?_create]
  split
  · next hnew =>
    rw [Bool.and_eq_true, beq_iff_eq, beq_iff_eq] at hnew
    simp [hnew]
  · next hnew =>
    rw [Bool.and_eq_true, beq_iff_eq, beq_iff_eq] at hnew
    simp [hnew]

theorem working_once {i id acc : ℕ} {pc pc' : Pc} {x : CallStep}
    (hcall : s.calls i = .working acc id pc)
    (hs : workStep h s.orders id pc x = some (pc', orders')) :
    OnceStep (onAccount client_order_id account) s
      ⟨orders', Function.update s.calls i (.working acc id pc')⟩ 0 (places account s (i, x)) := by
  have hheld : (onAccount client_order_id account).held s →
      (holder orders' account client_order_id).isSome = true := by
    intro hheld
    rw [workStep_holder hs]
    exact hheld
  by_cases hacc : acc = account
  · subst hacc
    have hactive : (onAccount client_order_id acc).active (s.calls i) = true := by
      rw [hcall]
      exact beq_self_eq_true acc
    have hahead : ∀ q, (onAccount client_order_id acc).ahead (.working acc id q) = q.ahead := by
      intro q
      simp [onAccount]
    cases hplace : pc.places x with
    | true =>
      rcases workStep_places hplace hs with ⟨hbefore, hafter⟩
      refine .fires i _ rfl ?_ hheld ((hahead _).trans hafter) rfl (by simp [places, hcall, hplace])
      show (onAccount client_order_id acc).ahead (s.calls i) = true
      rw [hcall, hahead]
      exact hbefore
    | false =>
      refine .goes i _ rfl hactive hheld ?_ rfl (by simp [places, hcall, hplace])
      intro hn
      show (onAccount client_order_id acc).ahead (s.calls i) = true
      rw [hcall, hahead]
      rw [hahead] at hn
      exact workStep_ahead hs hn
  · -- an order on another account
    exact .stops i _ rfl (by simp [onAccount, hacc]) hheld rfl (by simp [places, hcall, hacc])

/-- An insert takes the account, unless the constraint stops it. -/
theorem insert_once (hid : client_order_id ≠ "") {i acc : ℕ} {retry_of : Option ℕ} {c : Call}
    (hcall : s.calls i = .passed acc retry_of)
    (hc : callStep h client_order_id s.orders (.passed acc retry_of) .insert = some (c, orders')) :
    OnceStep (onAccount client_order_id account) s ⟨orders', Function.update s.calls i c⟩
      (inserts client_order_id account s (i, .insert)) (places account s (i, .insert)) := by
  have hplaces : places account s (i, .insert) = 0 := by simp [places, hcall]
  rw [hplaces]
  simp only [callStep] at hc
  split at hc
  · next hblocked =>
    -- the constraint is violated
    cases hc
    refine .stops i _ rfl rfl id ?_ rfl
    simp only [inserts, hcall]
    rw [if_neg]
    rintro ⟨rfl, hfree⟩
    rw [hblocked.2] at hfree
    cases hfree
  · next hinserted =>
    cases hc
    have hnone : (holder s.orders acc client_order_id).isSome = false := by
      cases hh : (holder s.orders acc client_order_id).isSome with
      | false => rfl
      | true => exact absurd ⟨hid, hh⟩ hinserted
    by_cases hacc : acc = account
    · subst hacc
      refine .takes i _ rfl ?_ ?_ ?_ rfl
      · simp [onAccount, hnone]
      · exact (holder_create _).mpr (Or.inl ⟨rfl, rfl⟩)
      · simp [inserts, hcall, hnone]
    · refine .stops i _ rfl ?_ ?_ ?_ rfl
      · simp [onAccount, hacc]
      · intro hheld
        exact (holder_create _).mpr (Or.inr hheld)
      · simp [inserts, hcall, hacc]

theorem router_once (hid : client_order_id ≠ "")
    (hs : (router h client_order_id).next s a = some s') :
    OnceStep (onAccount client_order_id account) s s' (inserts client_order_id account s a)
      (places account s a) := by
  rcases a with ⟨i, x⟩
  rcases Option.map_eq_some_iff.mp hs with ⟨⟨c, orders'⟩, hc, rfl⟩
  cases hcall : s.calls i with
  | idle =>
    rw [hcall] at hc
    cases x with
    | route acc =>
      cases hc
      exact .stops i _ rfl rfl id (by simp [inserts, hcall]) (by simp [places, hcall])
    | _ => cases hc
  | routed acc =>
    rw [hcall] at hc
    cases x with
    | lookup =>
      simp only [callStep] at hc
      split at hc <;>
      · cases hc
        exact .stops i _ rfl rfl id (by simp [inserts, hcall]) (by simp [places, hcall])
    | _ => cases hc
  | passed acc retry_of =>
    rw [hcall] at hc
    cases x with
    | refuse =>
      cases hc
      exact .stops i _ rfl rfl id (by simp [inserts, hcall]) (by simp [places, hcall])
    | insert => exact insert_once hid hcall hc
    | _ => cases hc
  | working acc id pc =>
    rw [hcall] at hc
    rcases Option.map_eq_some_iff.mp hc with ⟨⟨pc', orders₁⟩, hw, hx⟩
    cases hx
    have hnone : inserts client_order_id account s (i, x) = 0 := by simp [inserts, hcall]
    rw [hnone]
    exact working_once hcall hw
  | ended =>
    rw [hcall] at hc
    cases x <;> cases hc

/-- Calls with one client order id insert one order and submit one on each account. -/
theorem placed_once (hid : client_order_id ≠ "") {as : List (ℕ × CallStep)}
    (hrun : (router h client_order_id).Run (State.start orders) as t) (account : ℕ) :
    (router h client_order_id).total (places account) (State.start orders) as ≤ 1 ∧
      (router h client_order_id).total (inserts client_order_id account) (State.start orders) as
        ≤ 1 := by
  have honce : ∀ s a s', True → (router h client_order_id).next s a = some s' →
      OnceStep (onAccount client_order_id account) s s' (inserts client_order_id account s a)
        (places account s a) := by
    intro s a s' _ hs
    exact router_once hid hs
  have hidle : Owned (onAccount client_order_id account).active
      ((onAccount client_order_id account).held (State.start orders))
      ((onAccount client_order_id account).procs (State.start orders)) := Owned.of_idle fun _ => rfl
  exact ⟨fires_once honce hidle hrun, takes_once honce hrun⟩

end Steps

/-! ## Concrete runs -/

def noOrders : Table Order := Table.empty

/-- Call `i` is routed to the account, finds nothing, and its order is filled. -/
def submitted (i account : ℕ) : List (ℕ × CallStep) :=
  [(i, .route account), (i, .lookup), (i, .insert)] ++ List.replicate 6 (i, .go) ++
    [(i, .reply (.returns (.dict [("status", .str "filled"), ("broker_order_id", .str "B1")]))),
      (i, .go), (i, .go)]

/-- Two calls find no order on account 1; the second one violates the constraint. -/
theorem placed_once_race :
    ∃ t, (router .ascii "K").Run (State.start noOrders)
        ([(1, .route 1), (1, .lookup)] ++ submitted 0 1 ++ [(1, .insert)]) t ∧
      (router .ascii "K").total (places 1) (State.start noOrders)
          ([(1, .route 1), (1, .lookup)] ++ submitted 0 1 ++ [(1, .insert)]) ≤ 1 ∧
        (router .ascii "K").total (inserts "K" 1) (State.start noOrders)
          ([(1, .route 1), (1, .lookup)] ++ submitted 0 1 ++ [(1, .insert)]) ≤ 1 := by
  have hexec : ((router .ascii "K").exec (State.start noOrders)
      ([(1, .route 1), (1, .lookup)] ++ submitted 0 1 ++ [(1, .insert)])).isSome = true := by
    decide +kernel
  obtain ⟨t, hrun⟩ := Machine.exists_run hexec
  exact ⟨t, hrun, placed_once (by decide) hrun 1⟩

/-- The order on account 1 is filled when the second call is routed to account 2, which places
another one. -/
theorem placed_on_both :
    ∃ s t, (router .ascii "K").Run (State.start noOrders) (submitted 0 1) s ∧
      (router .ascii "K").Run s (submitted 1 2) t ∧
      (holder s.orders 1 "K").map (fun r => (r.status, r.broker_order_id)) =
        some (.filled, "B1") ∧
      (router .ascii "K").total (places 1) (State.start noOrders) (submitted 0 1) = 1 ∧
      (router .ascii "K").total (places 2) s (submitted 1 2) = 1 := by
  have hboth : ((router .ascii "K").exec (State.start noOrders) (submitted 0 1)).any (fun s =>
      ((router .ascii "K").exec s (submitted 1 2)).isSome &&
        (holder s.orders 1 "K").map (fun r => (r.status, r.broker_order_id)) ==
          some (.filled, "B1") &&
        (router .ascii "K").total (places 1) (State.start noOrders) (submitted 0 1) == 1 &&
        (router .ascii "K").total (places 2) s (submitted 1 2) == 1) = true := by
    decide +kernel
  rcases (Option.any_eq_true _ _).mp hboth with ⟨s, hs, hlater⟩
  simp only [Bool.and_eq_true, beq_iff_eq] at hlater
  rcases hlater with ⟨⟨⟨hsecond, hfilled⟩, hone⟩, htwo⟩
  rcases Option.isSome_iff_exists.mp hsecond with ⟨t, ht⟩
  exact ⟨s, t, Machine.exec_eq_some_iff.mp hs, Machine.exec_eq_some_iff.mp ht, hfilled, hone, htwo⟩

end AlgoBot.Brokers
