import AlgoBot.Core.Table
import AlgoBot.Execution.Models

/-!
# Broker events and closed orders

`reconcile_execution_event` over all orders of a user, one event after the other.
The status of the order it finds is overwritten with what the status map gives for
the event, whatever the order has been through.

`terminal_kept_iff`: the orders of a user that are archived, failed or cancelled
stay so in a run of events exactly if no saved event of a run finds such an order
and says `open`, `unknown`, or a status outside `EXECUTION_STATES`.
`closed_reopened` is a stale `open` event after the contract is closed.
-/

namespace AlgoBot.Execution

open AlgoBot.Core AlgoBot.Python

/-- An order of the user. -/
structure OrderRow where
  id : ℕ
  order : Order

instance : HasPk OrderRow := ⟨OrderRow.id⟩

/-- Archived, failed or cancelled. A rejected order is a failed one. -/
def OrderStatus.terminal (status : OrderStatus) : Bool :=
  status == .archived || status == .failed || status == .cancelled

/-! ## `reconcile_execution_event` -/

/-- `query.filter(broker_reference=contract_id).first()`, or the order the transaction names. -/
def findOrder (orders : Table OrderRow) (ev : ExecutionEvent) : Option OrderRow :=
  (match ev.broker_contract_id with
    | some k => if k = "" then none else orders.find? fun r => r.order.broker_reference == k
    | none => none).or
  (match ev.broker_transaction_id with
    | some k => if k = "" then none else orders.find? fun r => r.order.client_request_id == k
    | none => none)

/-- `reconcile_execution_event`. An event that is not well formed, or whose save fails, raises and
leaves the rows as they were. -/
def reconcileExecutionEvent (h : Host) (orders : Table OrderRow) (event : Dict) (saved : Bool) :
    Table OrderRow :=
  match normalizeExecutionEvent h event with
  | some ev =>
      match findOrder orders ev with
      | some r => if saved then orders.set { r with order := withEvent r.order ev } else orders
      | none => orders
  | none => orders

/-- Events and whether their save succeeds, one after the other. -/
def reconciler (h : Host) : Machine (Table OrderRow) (Dict × Bool) :=
  ⟨fun orders x => some (reconcileExecutionEvent h orders x.1 x.2)⟩

/-- The order `k` is there and terminal. -/
def Terminal (k : ℕ) (orders : Table OrderRow) : Prop :=
  ∃ r, orders.get? k = some r ∧ r.order.status.terminal = true

/-- The event is saved and takes a terminal order for open or unknown. -/
def reopens (h : Host) (orders : Table OrderRow) (x : Dict × Bool) : Bool :=
  x.2 && (normalizeExecutionEvent h x.1).any fun ev =>
    (findOrder orders ev).any fun r =>
      r.order.status.terminal && (ev.status == "open" || ev.status == "unknown")

variable {h : Host} {orders orders' : Table OrderRow} {ev : ExecutionEvent} {r : OrderRow}

/-! ## One event -/

theorem findOrder_mem (hr : findOrder orders ev = some r) : orders.get? r.id = some r := by
  apply Table.get?_pk
  rcases Option.or_eq_some_iff.mp hr with hc | ⟨_, ht⟩
  · split at hc
    · split at hc
      · cases hc
      · exact Table.mem_of_find? hc
    · cases hc
  · split at ht
    · split at ht
      · cases ht
      · exact Table.mem_of_find? ht
    · cases ht

/-- What the lookup finds over all orders, it finds of the order alone. -/
theorem findOrder_finds (hr : findOrder orders ev = some r) : ev.finds r.order = true := by
  unfold ExecutionEvent.finds
  rw [Bool.or_eq_true]
  rcases Option.or_eq_some_iff.mp hr with hc | ⟨_, ht⟩
  · left
    split at hc
    · next k hk =>
      split at hc
      · cases hc
      · next hne =>
        have href := Table.of_find? hc
        simp only [beq_iff_eq] at href
        simp [hk, href, hne]
    · cases hc
  · right
    split at ht
    · next k hk =>
      split at ht
      · cases ht
      · next hne =>
        have href := Table.of_find? ht
        simp only [beq_iff_eq] at href
        simp [hk, href, hne]
    · cases ht

/-- A terminal status survives every event but `open` and `unknown`. -/
theorem eventStatus_terminal {status : OrderStatus} {broker_status : String}
    (hterm : status.terminal = true) :
    (eventStatus status broker_status).terminal = false ↔
      broker_status = "open" ∨ broker_status = "unknown" := by
  unfold eventStatus
  split
  · next hopen => simp [hopen, OrderStatus.terminal]
  split
  · next hclosed => simp [hclosed, OrderStatus.terminal]
  split
  · next hcancelled => simp [hcancelled, OrderStatus.terminal]
  split
  · next hrejected => simp [hrejected, OrderStatus.terminal]
  split
  · next hunknown => simp [hunknown, OrderStatus.terminal]
  · next hopen _ _ _ hunknown => simp [hterm, hopen, hunknown]

/-- An event changes the order it finds, if it is saved. -/
theorem reconcile_found {event : Dict} (hev : normalizeExecutionEvent h event = some ev)
    (hr : findOrder orders ev = some r) (k : ℕ) :
    (reconcileExecutionEvent h orders event true).get? k =
      if k = r.id then some { r with order := withEvent r.order ev } else orders.get? k := by
  simp only [reconcileExecutionEvent, hev, hr, if_true]
  have hrow : orders.get? (HasPk.pk { r with order := withEvent r.order ev }) = some r :=
    findOrder_mem hr
  exact Table.get?_set_of_some hrow k

theorem not_terminal_of_reopens {x : Dict × Bool} (hre : reopens h orders x = true) :
    ∃ k, Terminal k orders ∧ ¬ Terminal k (reconcileExecutionEvent h orders x.1 x.2) := by
  simp only [reopens, Bool.and_eq_true, Option.any_eq_true] at hre
  rcases hre with ⟨hsaved, ev, hev, r, hr, hterm, hsays⟩
  have hstatus : (withEvent r.order ev).status.terminal = false := by
    apply (eventStatus_terminal hterm).mpr
    simpa using hsays
  refine ⟨r.id, ⟨r, findOrder_mem hr, hterm⟩, ?_⟩
  rw [hsaved]
  rintro ⟨q, hq, hqterm⟩
  rw [reconcile_found hev hr, if_pos rfl] at hq
  cases hq
  rw [hstatus] at hqterm
  cases hqterm

theorem terminal_of_not_reopens {x : Dict × Bool} {k : ℕ} (hre : reopens h orders x = false)
    (hk : Terminal k orders) : Terminal k (reconcileExecutionEvent h orders x.1 x.2) := by
  rcases hk with ⟨q, hq, hterm⟩
  rcases x with ⟨event, saved⟩
  have hsame : reconcileExecutionEvent h orders event saved = orders →
      Terminal k (reconcileExecutionEvent h orders event saved) := by
    intro heq
    rw [heq]
    exact ⟨q, hq, hterm⟩
  cases hev : normalizeExecutionEvent h event with
  | none => exact hsame (by simp [reconcileExecutionEvent, hev])
  | some ev =>
    cases hr : findOrder orders ev with
    | none => exact hsame (by simp [reconcileExecutionEvent, hev, hr])
    | some r =>
      cases saved with
      | false => exact hsame (by simp [reconcileExecutionEvent, hev, hr])
      | true =>
        unfold Terminal
        rw [reconcile_found hev hr]
        split
        · -- the order the event finds
          next hid =>
          have hqr : q = r := by
            rw [hid, findOrder_mem hr] at hq
            exact (Option.some.inj hq).symm
          subst hqr
          refine ⟨_, rfl, ?_⟩
          cases hst : (withEvent q.order ev).status.terminal with
          | true => rfl
          | false =>
            have hsays := (eventStatus_terminal hterm).mp hst
            simp only [reopens, hev, hr, Option.any_some, hterm, Bool.true_and] at hre
            simp only [Bool.or_eq_false_iff, beq_eq_false_iff_ne] at hre
            rcases hsays with hsays | hsays
            · exact absurd hsays hre.1
            · exact absurd hsays hre.2
        · exact ⟨q, hq, hterm⟩

/-- An event keeps the terminal orders terminal exactly if it does not reopen one. -/
theorem keeps_terminal_iff {x : Dict × Bool} :
    (reconciler h).Keeps Terminal orders x ↔ reopens h orders x = false := by
  constructor
  · intro hkeep
    cases hre : reopens h orders x with
    | false => rfl
    | true =>
      rcases not_terminal_of_reopens hre with ⟨k, hk, hk'⟩
      exact absurd (hkeep k hk _ rfl) hk'
  · rintro hre k hk orders' hs
    cases hs
    exact terminal_of_not_reopens hre hk

/-! ## Any number of events -/

/-- What the events lead to. -/
def reconcileAll (h : Host) (orders : Table OrderRow) (events : List (Dict × Bool)) :
    Table OrderRow :=
  events.foldl (fun orders x => reconcileExecutionEvent h orders x.1 x.2) orders

/-- Once an order is terminal, no later event of the sequence makes it anything else. -/
def StaysTerminal (h : Host) (orders : Table OrderRow) (events : List (Dict × Bool)) : Prop :=
  ∀ before later rest, events = before ++ later ++ rest → ∀ k,
    Terminal k (reconcileAll h orders before) →
    Terminal k (reconcileAll h orders (before ++ later))

theorem run_iff {events : List (Dict × Bool)} :
    (reconciler h).Run orders events orders' ↔ orders' = reconcileAll h orders events := by
  have hnext : ∀ orders x, (reconciler h).next orders x =
      some (reconcileExecutionEvent h orders x.1 x.2) := by
    intro orders x
    rfl
  exact Machine.run_iff_foldl hnext

/-- Terminal orders stay terminal exactly if no event reopens one in the orders it is applied to. -/
theorem terminal_kept_iff (h : Host) (orders : Table OrderRow) (events : List (Dict × Bool)) :
    StaysTerminal h orders events ↔
      (reconciler h).RunIf (fun orders x => reopens h orders x = false) orders events
        (reconcileAll h orders events) := by
  have hstays : StaysTerminal h orders events ↔
      (reconciler h).RunIf ((reconciler h).Keeps Terminal) orders events
        (reconcileAll h orders events) := by
    rw [Machine.RunIf.keeps_iff (run_iff.mpr rfl)]
    constructor
    · intro hstay before later rest u v hevents hu hv k hk
      rw [run_iff] at hu hv
      subst hu hv
      have hv := hstay before later rest hevents k hk
      rwa [reconcileAll, List.foldl_append] at hv
    · intro hrun before later rest hevents k hk
      have hv := hrun before later rest _ _ hevents (run_iff.mpr rfl) (run_iff.mpr rfl) k hk
      rwa [reconcileAll, List.foldl_append]
  rw [hstays]
  constructor
  · intro hrun
    exact hrun.mono fun _ _ => keeps_terminal_iff.mp
  · intro hrun
    exact hrun.mono fun _ _ => keeps_terminal_iff.mpr

/-- An executed order of contract 5. -/
def executedOrder : Table OrderRow where
  rows := [⟨1, .executed, [], "5", .dict [], ""⟩]
  nodup := by decide

/-- An event about contract 5. -/
def contractEvent (status : String) : Dict :=
  [("contract", .dict [("contract_id", .int 5), ("status", .str status)])]

/-- The contract is closed, and the `open` event that comes late takes the order back. -/
theorem closed_reopened :
    ¬ StaysTerminal .ascii executedOrder
      [(contractEvent "closed", true), (contractEvent "open", true)] := by
  have hclosed : ((reconcileAll .ascii executedOrder [(contractEvent "closed", true)]).get? 1).any
      (fun r => r.order.status.terminal) = true := by decide +kernel
  have hopen : ((reconcileAll .ascii executedOrder
      [(contractEvent "closed", true), (contractEvent "open", true)]).get? 1).any
      (fun r => r.order.status.terminal) = false := by decide +kernel
  intro hstay
  have hterm := hstay [(contractEvent "closed", true)] [(contractEvent "open", true)] [] rfl 1
    ((Option.any_eq_true _ _).mp hclosed)
  have hany := (Option.any_eq_true _ _).mpr hterm
  rw [List.cons_append, List.nil_append, hopen] at hany
  cases hany

end AlgoBot.Execution
