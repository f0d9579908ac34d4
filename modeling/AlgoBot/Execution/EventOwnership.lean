import AlgoBot.Execution.Reconciliation

/-!
# Whose contract an event is about

`reconcile_execution_event` looks an order up by its broker reference, and if that
finds none, by the client request id, which it compares with the transaction id of
the event. The client chooses that id, and the broker numbers its transactions, so
the second lookup can find an order that the event has nothing to do with. What it
finds takes over the contract id of the event.

* `own_events_iff`: in every sequence of events each order is changed by events of
  its own purchase only and keeps its reference, and no two orders of a user have
  one reference, exactly if that holds of the references at the start and every
  order that is found by its request id was bought in the transaction, and has no
  reference the event would replace.
* `contract_events_own`: the two callers pass on nothing but a contract, and such
  events reach their own orders.
* `foreign_contract`: a request id that is the transaction id of another purchase.
-/

namespace AlgoBot.Execution

open AlgoBot.Core AlgoBot.Python

namespace EventOwnership

/-- The orders of each user. -/
abbrev Store := ℕ → Table OrderRow

/-- One call of `reconcile_execution_event`, and whether its save succeeds. -/
structure Call where
  user : ℕ
  event : Dict
  saved : Bool

/-- The transaction in which the order of a user was bought, by the primary key of the order. -/
abbrev Purchases := ℕ → ℕ → Option String

/-- `reconcile_execution_event` for the orders of the user, `Order.objects.filter(user=user)`. -/
def receive (h : Host) (store : Store) (x : Call) : Store :=
  Function.update store x.user (reconcileExecutionEvent h (store x.user) x.event x.saved)

def receiver (h : Host) : Machine Store Call := ⟨fun store x => some (receive h store x)⟩

/-- The store after the calls. -/
def receiveAll (h : Host) (store : Store) (calls : List Call) : Store :=
  calls.foldl (receive h) store

/-! ## The two lookups -/

/-- `query.filter(broker_reference=contract_id).first()`, for a contract id that is not empty. -/
def byReference (orders : Table OrderRow) (ev : ExecutionEvent) : Option OrderRow :=
  match ev.broker_contract_id with
  | some k => if k = "" then none else orders.find? fun r => r.order.broker_reference == k
  | none => none

/-- `query.filter(client_request_id=transaction_id).first()`, for a transaction id that is not
empty. -/
def byRequestId (orders : Table OrderRow) (ev : ExecutionEvent) : Option OrderRow :=
  match ev.broker_transaction_id with
  | some k => if k = "" then none else orders.find? fun r => r.order.client_request_id == k
  | none => none

/-- The event has a contract id that is written to the order. -/
def namesContract (ev : ExecutionEvent) : Bool := ev.broker_contract_id.any fun k => k != ""

/-- What the call returns, as it was before: the order it saves. Every save also moves its
`updated_at`. -/
def reconciled (h : Host) (orders : Table OrderRow) (event : Dict) (saved : Bool) :
    Option (ExecutionEvent × OrderRow) :=
  if saved then
    (normalizeExecutionEvent h event).bind fun ev => (findOrder orders ev).map fun r => (ev, r)
  else none

/-! ## What is asked of the events -/

/-- Two orders with one reference. -/
def SameReference (r q : OrderRow) : Prop :=
  r.order.broker_reference ≠ "" ∧ r.order.broker_reference = q.order.broker_reference

/-- No two orders of a user have the same reference. -/
def DistinctReferences (store : Store) : Prop := ∀ u, Table.Unique SameReference (store u)

/-- The contract of the event is the one the purchase of the order opened: its reference, or what
was bought in the transaction the event carries. -/
def OwnPurchase (purchase : Option String) (ev : ExecutionEvent) (order : Order) : Prop :=
  (order.broker_reference ≠ "" ∧ ev.broker_contract_id = some order.broker_reference) ∨
    ∃ k, ev.broker_transaction_id = some k ∧ purchase = some k

/-- The call changes an order only if the event is about its own purchase, and leaves every
reference there is. -/
structure Reaches (purchases : Purchases) (h : Host) (store : Store) (x : Call) : Prop where
  own : ∀ ev r, reconciled h (store x.user) x.event x.saved = some (ev, r) →
    OwnPurchase (purchases x.user r.id) ev r.order
  kept : ∀ u k r r', (store u).get? k = some r → (receive h store x u).get? k = some r' →
    r.order.broker_reference ≠ "" → r'.order.broker_reference = r.order.broker_reference

/-- The events reach their own orders. -/
def OwnEvents (purchases : Purchases) (h : Host) (store : Store) (calls : List Call) : Prop :=
  Machine.RunIf.Always (receiver h) DistinctReferences store calls ∧
    (receiver h).RunIf (Reaches purchases h) store calls (receiveAll h store calls)

/-- If no order has the contract of the event as its reference, an order whose client request id is
the transaction was bought in it, and has no reference yet unless the event names no contract. -/
def ownRequestId (purchases : Purchases) (h : Host) (store : Store) (x : Call) : Bool :=
  !x.saved || (normalizeExecutionEvent h x.event).all fun ev =>
    (byReference (store x.user) ev).isSome ||
      (byRequestId (store x.user) ev).all fun r =>
        purchases x.user r.id == ev.broker_transaction_id &&
          (r.order.broker_reference == "" || !namesContract ev)

variable {purchases : Purchases} {h : Host} {store : Store} {orders : Table OrderRow}
  {ev : ExecutionEvent} {r : OrderRow}

/-! ## One event -/

theorem findOrder_eq (orders : Table OrderRow) (ev : ExecutionEvent) :
    findOrder orders ev = (byReference orders ev).or (byRequestId orders ev) := rfl

theorem of_byReference (hr : byReference orders ev = some r) :
    r.order.broker_reference ≠ "" ∧ ev.broker_contract_id = some r.order.broker_reference := by
  unfold byReference at hr
  split at hr
  · next k hk =>
    split at hr
    · cases hr
    · next hne =>
      have href := Table.of_find? hr
      simp only [beq_iff_eq] at href
      rw [href]
      exact ⟨hne, hk⟩
  · cases hr

theorem of_byReference_none (hnone : byReference orders ev = none) (hr : r ∈ orders)
    (href : r.order.broker_reference ≠ "") :
    ev.broker_contract_id ≠ some r.order.broker_reference := by
  intro hk
  unfold byReference at hnone
  simp only [hk, if_neg href] at hnone
  have hother := Table.not_of_find?_none hnone hr
  simp at hother

theorem of_byRequestId (hr : byRequestId orders ev = some r) :
    ev.broker_transaction_id = some r.order.client_request_id := by
  unfold byRequestId at hr
  split at hr
  · next k hk =>
    split at hr
    · cases hr
    · have hid := Table.of_find? hr
      simp only [beq_iff_eq] at hid
      rw [hid]
      exact hk
  · cases hr

/-- The reference an order has after an event. -/
theorem withEvent_reference (order : Order) (ev : ExecutionEvent) :
    (namesContract ev = false ∧ (withEvent order ev).broker_reference = order.broker_reference) ∨
      (namesContract ev = true ∧ (withEvent order ev).broker_reference ≠ "" ∧
        ev.broker_contract_id = some (withEvent order ev).broker_reference) := by
  unfold namesContract withEvent
  cases hk : ev.broker_contract_id with
  | none => exact Or.inl ⟨rfl, rfl⟩
  | some k =>
    by_cases hempty : k = ""
    · exact Or.inl ⟨by simp [hempty], by simp [hempty]⟩
    · exact Or.inr ⟨by simp [hempty], by simp [hempty], by simp [hempty]⟩

/-- A call saves nothing, or the order it returns. -/
theorem reconcile_eq (h : Host) (orders : Table OrderRow) (event : Dict) (saved : Bool) :
    reconcileExecutionEvent h orders event saved =
      match reconciled h orders event saved with
      | some (ev, r) => orders.set { r with order := withEvent r.order ev }
      | none => orders := by
  unfold reconcileExecutionEvent reconciled
  cases hev : normalizeExecutionEvent h event with
  | none => simp
  | some ev =>
    cases hr : findOrder orders ev with
    | none => simp [hr]
    | some r =>
      cases saved with
      | false => simp [hr]
      | true => simp [hr]

theorem of_reconciled {event : Dict} {saved : Bool}
    (hr : reconciled h orders event saved = some (ev, r)) :
    saved = true ∧ normalizeExecutionEvent h event = some ev ∧ findOrder orders ev = some r := by
  unfold reconciled at hr
  split at hr
  · next hsaved =>
    obtain ⟨ev', hev, hfound⟩ := Option.bind_eq_some_iff.mp hr
    obtain ⟨r', hr', heq⟩ := Option.map_eq_some_iff.mp hfound
    cases heq
    exact ⟨hsaved, hev, hr'⟩
  · cases hr

/-- Whichever lookup finds the order, no other order has the reference it ends with. -/
theorem unique_withEvent (hunique : Table.Unique SameReference orders)
    (hr : findOrder orders ev = some r) :
    Table.Unique SameReference (orders.set { r with order := withEvent r.order ev }) := by
  have hsymm : ∀ a b, SameReference a b → SameReference b a := by
    rintro a b ⟨hne, hab⟩
    exact ⟨hab ▸ hne, hab.symm⟩
  have hmem : r ∈ orders := (Table.get?_eq_some.mp (findOrder_mem hr)).1
  refine hunique.set hsymm ?_
  rintro q hq hne ⟨hqref, hsame⟩
  have hother : q ≠ r := by
    rintro rfl
    exact hne rfl
  rcases withEvent_reference r.order ev with ⟨-, hkept⟩ | ⟨-, -, hcontract⟩
  · -- the order keeps the reference it has
    have hclash : SameReference q r := ⟨hqref, hsame.trans hkept⟩
    exact hother (hunique q hq r hmem hclash)
  · have hqcontract : ev.broker_contract_id = some q.order.broker_reference := by
      rw [hsame]
      exact hcontract
    rw [findOrder_eq, Option.or_eq_some_iff] at hr
    rcases hr with hfound | ⟨hnone, -⟩
    · -- both have the reference the lookup was for
      have hrcontract := (of_byReference hfound).2
      have href : q.order.broker_reference = r.order.broker_reference :=
        Option.some.inj (hqcontract.symm.trans hrcontract)
      exact hother (hunique q hq r hmem ⟨hqref, href⟩)
    · exact of_byReference_none hnone hq hqref hqcontract

theorem distinct_step {x : Call} (hdistinct : DistinctReferences store) :
    DistinctReferences (receive h store x) := by
  intro u
  unfold receive
  by_cases hu : u = x.user
  · rw [hu, Function.update_self, reconcile_eq]
    cases hr : reconciled h (store x.user) x.event x.saved with
    | none => exact hdistinct x.user
    | some found => exact unique_withEvent (hdistinct x.user) (of_reconciled hr).2.2
  · rw [Function.update_of_ne hu]
    exact hdistinct u

/-- The calls of other users and a call that returns no order leave the order as it was. -/
theorem get?_receive {x : Call} {u k : ℕ} :
    (receive h store x u).get? k =
      match reconciled h (store x.user) x.event x.saved with
      | some (ev, r) =>
          if u = x.user ∧ k = r.id then some { r with order := withEvent r.order ev }
          else (store u).get? k
      | none => (store u).get? k := by
  unfold receive
  by_cases hu : u = x.user
  · rw [hu, Function.update_self, reconcile_eq]
    cases hr : reconciled h (store x.user) x.event x.saved with
    | none => rfl
    | some found =>
      obtain ⟨ev, r⟩ := found
      have hrow := findOrder_mem (of_reconciled hr).2.2
      simp only [true_and]
      exact Table.get?_set_of_some
        (r := { r with order := withEvent r.order ev }) hrow k
  · rw [Function.update_of_ne hu]
    cases hr : reconciled h (store x.user) x.event x.saved with
    | none => rfl
    | some found => simp [hu]

/-- A call reaches its own order exactly if what is asked of the order it returns holds. -/
theorem reaches_iff {x : Call} :
    Reaches purchases h store x ↔
      ∀ ev r, reconciled h (store x.user) x.event x.saved = some (ev, r) →
        OwnPurchase (purchases x.user r.id) ev r.order ∧
          (r.order.broker_reference ≠ "" →
            (withEvent r.order ev).broker_reference = r.order.broker_reference) := by
  constructor
  · rintro ⟨hown, hkept⟩ ev r hr
    refine ⟨hown ev r hr, ?_⟩
    have hrow := findOrder_mem (of_reconciled hr).2.2
    refine hkept x.user r.id r { r with order := withEvent r.order ev } hrow ?_
    rw [get?_receive, hr]
    simp
  · intro hall
    refine ⟨fun ev r hr => (hall ev r hr).1, ?_⟩
    intro u k q q' hq hq' href
    rw [get?_receive] at hq'
    cases hr : reconciled h (store x.user) x.event x.saved with
    | none =>
      rw [hr, hq] at hq'
      rw [Option.some.inj hq']
    | some found =>
      obtain ⟨ev, r⟩ := found
      rw [hr] at hq'
      dsimp only at hq'
      split at hq'
      · next hsame =>
        have hrow := findOrder_mem (of_reconciled hr).2.2
        rw [hsame.1, hsame.2, hrow] at hq
        obtain rfl := Option.some.inj hq
        obtain rfl := Option.some.inj hq'
        exact (hall ev r hr).2 href
      · rw [hq] at hq'
        rw [Option.some.inj hq']

/-- An order found by its reference is reached by its own event. -/
theorem own_byReference {purchase : Option String} (hr : byReference orders ev = some r) :
    OwnPurchase purchase ev r.order ∧
      (r.order.broker_reference ≠ "" →
        (withEvent r.order ev).broker_reference = r.order.broker_reference) := by
  have href := of_byReference hr
  refine ⟨Or.inl href, ?_⟩
  intro _
  rcases withEvent_reference r.order ev with ⟨-, hkept⟩ | ⟨-, -, hcontract⟩
  · exact hkept
  · exact Option.some.inj (hcontract.symm.trans href.2)

/-- One that is found by its request id is reached exactly if it was bought in the transaction and
its reference stands. -/
theorem own_byRequestId {purchase : Option String} (hnone : byReference orders ev = none)
    (hr : byRequestId orders ev = some r) (hmem : r ∈ orders) :
    (OwnPurchase purchase ev r.order ∧
      (r.order.broker_reference ≠ "" →
        (withEvent r.order ev).broker_reference = r.order.broker_reference)) ↔
      purchase = ev.broker_transaction_id ∧
        (r.order.broker_reference = "" ∨ namesContract ev = false) := by
  have hown : OwnPurchase purchase ev r.order ↔ purchase = ev.broker_transaction_id := by
    constructor
    · rintro (⟨hne, hcontract⟩ | ⟨k, hk, hpurchase⟩)
      · exact absurd hcontract (of_byReference_none hnone hmem hne)
      · rw [hk, hpurchase]
    · intro hpurchase
      exact Or.inr ⟨r.order.client_request_id, of_byRequestId hr,
        hpurchase.trans (of_byRequestId hr)⟩
  rw [hown]
  refine and_congr_right fun _ => ?_
  constructor
  · intro hkept
    by_cases href : r.order.broker_reference = ""
    · exact Or.inl href
    · rcases withEvent_reference r.order ev with ⟨hnames, -⟩ | ⟨-, -, hcontract⟩
      · exact Or.inr hnames
      · rw [hkept href] at hcontract
        exact absurd hcontract (of_byReference_none hnone hmem href)
  · rintro (hempty | hnames) href
    · exact absurd hempty href
    · rcases withEvent_reference r.order ev with ⟨-, hkept⟩ | ⟨hnames', -⟩
      · exact hkept
      · rw [hnames] at hnames'
        cases hnames'

theorem reaches_iff_ownRequestId {x : Call} :
    Reaches purchases h store x ↔ ownRequestId purchases h store x = true := by
  rw [reaches_iff]
  unfold ownRequestId reconciled
  cases hsaved : x.saved with
  | false => simp
  | true =>
    cases hev : normalizeExecutionEvent h x.event with
    | none => simp
    | some ev =>
      simp only [if_true, Option.bind_some, Option.map_eq_some_iff, Bool.not_true, Bool.false_or,
        Option.all_some, Bool.or_eq_true]
      have hone : ∀ {P : ExecutionEvent → OrderRow → Prop},
          (∀ e q, (∃ r, findOrder (store x.user) ev = some r ∧ (ev, r) = (e, q)) → P e q) ↔
            ∀ r, findOrder (store x.user) ev = some r → P ev r := by
        intro P
        constructor
        · intro hall r hr
          exact hall ev r ⟨r, hr, rfl⟩
        · rintro hall e q ⟨r, hr, heq⟩
          obtain ⟨rfl, rfl⟩ := Prod.mk.inj heq
          exact hall r hr
      rw [hone]
      cases hfound : byReference (store x.user) ev with
      | some r =>
        rw [findOrder_eq, hfound]
        simp only [Option.some_or, Option.isSome_some, true_or, iff_true, Option.some.injEq]
        rintro q rfl
        exact own_byReference hfound
      | none =>
        cases hid : byRequestId (store x.user) ev with
        | none =>
          rw [findOrder_eq, hfound, hid]
          simp
        | some r =>
          have hr : findOrder (store x.user) ev = some r := by
            rw [findOrder_eq, hfound, hid]
            rfl
          have hmem : r ∈ store x.user := (Table.get?_eq_some.mp (findOrder_mem hr)).1
          rw [hr]
          simp only [Option.some.injEq, forall_eq', own_byRequestId hfound hid hmem,
            Option.isSome_none, Bool.false_eq_true, false_or, Option.all_some, Bool.and_eq_true,
            Bool.or_eq_true, beq_iff_eq, Bool.not_eq_true']

/-! ## Any number of events -/

theorem run_receiveAll (h : Host) (store : Store) (calls : List Call) :
    (receiver h).Run store calls (receiveAll h store calls) := by
  have hnext : ∀ store x, (receiver h).next store x = some (receive h store x) := by
    intro store x
    rfl
  exact (Machine.run_iff_foldl hnext).mpr rfl

/-- Different references stay different, whatever the events are. -/
theorem distinct_always (hdistinct : DistinctReferences store) (calls : List Call) :
    Machine.RunIf.Always (receiver h) DistinctReferences store calls := by
  refine (run_receiveAll h store calls).always ?_ hdistinct
  intro s x s' _ hs hn
  cases hn
  exact distinct_step hs

/-- The events reach their own orders exactly if the references are different to begin with, and
whenever an order is found by its client request id, the transaction is the purchase of the order
and replaces no reference. -/
theorem own_events_iff (purchases : Purchases) (h : Host) (store : Store) (calls : List Call) :
    OwnEvents purchases h store calls ↔
      DistinctReferences store ∧
        (receiver h).RunIf (fun store x => ownRequestId purchases h store x = true) store calls
          (receiveAll h store calls) := by
  constructor
  · rintro ⟨halways, hreaches⟩
    refine ⟨halways [] calls store rfl (Machine.RunIf.nil store), ?_⟩
    exact hreaches.mono fun _ _ => reaches_iff_ownRequestId.mp
  · rintro ⟨hdistinct, howns⟩
    refine ⟨distinct_always hdistinct calls, ?_⟩
    exact howns.mono fun _ _ => reaches_iff_ownRequestId.mpr

/-- An order of contract 5 that was bought in transaction 12, and its client request id is 77. -/
def contractFive : Store := fun u =>
  if u = 0 then ⟨[⟨1, .executed, [], "5", .dict [], "77"⟩], by decide⟩ else Table.empty

/-- The purchase of contract 9 is transaction 77. -/
def purchaseEvent : Dict :=
  [("contract", .dict [("contract_id", .int 9), ("status", .str "open")]),
   ("transaction", .dict [("transaction_id", .int 77)])]

/-- The event of another purchase takes the order over, and its reference. -/
theorem foreign_contract :
    DistinctReferences contractFive ∧
      ¬ OwnEvents (fun _ _ => some "12") .ascii contractFive [⟨0, purchaseEvent, true⟩] := by
  constructor
  · intro u a ha b hb _
    by_cases hu : u = 0
    · simp only [contractFive, if_pos hu, Table.mem_def, List.mem_singleton] at ha hb
      rw [ha, hb]
    · simp only [contractFive, if_neg hu] at ha
      cases ha
  · rintro ⟨-, hreaches⟩
    have hfirst : Reaches (fun _ _ => some "12") .ascii contractFive ⟨0, purchaseEvent, true⟩ := by
      cases hreaches with
      | cons hfirst _ _ => exact hfirst
    have htaken : ((receive .ascii contractFive ⟨0, purchaseEvent, true⟩ 0).get? 1).any
        (fun r => r.order.broker_reference == "9") = true := by decide +kernel
    obtain ⟨r', hr', href⟩ := (Option.any_eq_true _ _).mp htaken
    have hkept := hfirst.kept 0 1 _ r' rfl hr' (by decide)
    rw [beq_iff_eq.mp href] at hkept
    exact absurd hkept (by decide)

/-! ## The callers -/

/-- What `BrokerRealtimeSync` and `ExecutionRecoveryService` pass on. -/
def contractCall (user : ℕ) (contract : Value) (saved : Bool) : Call :=
  ⟨user, [("proposal_open_contract", contract)], saved⟩

theorem contractCall_transaction {contract : Value}
    (hev : normalizeExecutionEvent h [("proposal_open_contract", contract)] = some ev) :
    ev.broker_transaction_id = none := by
  unfold normalizeExecutionEvent at hev
  obtain ⟨c, -, hev⟩ := Option.bind_eq_some_iff.mp hev
  obtain ⟨tx, htx, hev⟩ := Option.bind_eq_some_iff.mp hev
  cases htx
  cases hev
  rfl

/-- The events the callers pass on reach their own orders. -/
theorem contract_events_own (hdistinct : DistinctReferences store)
    (events : List (ℕ × Value × Bool)) :
    OwnEvents purchases h store (events.map fun e => contractCall e.1 e.2.1 e.2.2) := by
  refine ⟨distinct_always hdistinct _, ?_⟩
  rw [Machine.RunIf.iff_forall_prefix (run_receiveAll h store _)]
  intro before x rest u hcalls _
  have hmem : x ∈ events.map fun e => contractCall e.1 e.2.1 e.2.2 := by
    rw [hcalls]
    exact List.mem_append_right before List.mem_cons_self
  obtain ⟨e, -, rfl⟩ := List.mem_map.mp hmem
  rw [reaches_iff_ownRequestId]
  unfold ownRequestId
  cases hev : normalizeExecutionEvent h (contractCall e.1 e.2.1 e.2.2).event with
  | none => simp
  | some ev =>
    have hid : byRequestId (u (contractCall e.1 e.2.1 e.2.2).user) ev = none := by
      unfold byRequestId
      rw [contractCall_transaction hev]
    simp [hid]

end EventOwnership

end AlgoBot.Execution
