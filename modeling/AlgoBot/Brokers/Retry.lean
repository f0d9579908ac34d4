import AlgoBot.Brokers.Submit

/-!
# Retries of a refused order

`ExecutionEngine.submit` goes on when the order it finds under a client order id has
failed or was rejected without an identifier of the broker, and means to insert
another order that refers to the first one. It looks for the id without the white
space around it, and inserts the id as it was passed.

* `submission_start`: what a submission has done when it is about to insert.
* `retried_iff`: an order is retried exactly if the id is passed with white space
  around it, and no order is stored under the id with this white space.
* `not_retried_same`: no order is retried under its own id.
-/

namespace AlgoBot.Brokers

open AlgoBot.Core AlgoBot.Python

/-- The constraint `unique_client_order_id_per_account`, for the orders of one user. -/
def SameOrder (a b : Order) : Prop :=
  a.account = b.account ∧ a.client_order_id = b.client_order_id ∧ a.client_order_id ≠ ""

/-- One call of `submit` by itself. -/
def submission (h : Host) (client_order_id : String) : Machine (Call × Table Order) CallStep where
  next s x := callStep h client_order_id s.2 s.1 x

/-- The order that `submit` finds under the id. -/
def existing (client_order_id : String) (orders : Table Order) (account : ℕ) : Option Order :=
  if strip client_order_id = "" then none else holder orders account (strip client_order_id)

/-- The order has failed or was rejected, and the broker has not given it an identifier. -/
def Order.Refused (r : Order) : Prop :=
  r.status ∈ RETRYABLE_STATUSES ∧ r.broker_order_id = ""

instance (r : Order) : Decidable r.Refused :=
  inferInstanceAs (Decidable (_ ∧ _))

/-- A submission with the id is admitted, links its order to `r`, inserts it, and comes to call
`adapter.place_order` for it. -/
def Retried (h : Host) (client_order_id : String) (orders : Table Order) (r : Order) : Prop :=
  ∃ before after found inserted placed id,
    (submission h client_order_id).Run (.idle, orders) before
        (.passed r.account (some r.id), found) ∧
      (submission h client_order_id).next (.passed r.account (some r.id), found) .insert =
        some (.working r.account id .validate, inserted) ∧
      (submission h client_order_id).Run (.working r.account id .validate, inserted) after
        (.working r.account id .place, placed)

section Retry

variable {h : Host} {client_order_id : String} {orders : Table Order} {r : Order}

/-! ## Before the insert -/

/-- Up to the insert nothing is written, and the order to be retried is the one found. -/
def Started (client_order_id : String) (orders : Table Order) : Call × Table Order → Prop
  | (.idle, found) | (.routed _, found) => found = orders
  | (.passed account retry_of, found) =>
      found = orders ∧ lookup (existing client_order_id orders account) = some retry_of
  | _ => True

theorem submission_next (c : Call) (found : Table Order) (x : CallStep) :
    (submission h client_order_id).next (c, found) x = callStep h client_order_id found c x := rfl

/-- What the lookup leads to. -/
theorem next_lookup (account : ℕ) (found : Table Order) :
    callStep h client_order_id found (.routed account) .lookup =
      some ((lookup (existing client_order_id found account)).elim .ended (Call.passed account),
        found) := by
  simp only [callStep]
  rw [← existing]
  cases lookup (existing client_order_id found account) with
  | none => rfl
  | some retry_of => rfl

theorem started_step {s s' : Call × Table Order} {x : CallStep}
    (hs : Started client_order_id orders s)
    (hnext : (submission h client_order_id).next s x = some s') :
    Started client_order_id orders s' := by
  rcases s with ⟨c, found⟩
  rw [submission_next] at hnext
  cases c with
  | idle =>
    cases x with
    | route account =>
      cases hnext
      exact hs
    | _ => cases hnext
  | routed account =>
    cases x with
    | lookup =>
      obtain rfl : found = orders := hs
      rw [next_lookup] at hnext
      cases hlookup : lookup (existing client_order_id found account) with
      | some retry_of =>
        rw [hlookup] at hnext
        cases hnext
        exact ⟨rfl, hlookup⟩
      | none =>
        rw [hlookup] at hnext
        cases hnext
        trivial
    | _ => cases hnext
  | passed account retry_of =>
    cases x with
    | refuse =>
      cases hnext
      trivial
    | insert =>
      -- after the insertion nothing is left to show
      simp only [callStep] at hnext
      split at hnext <;> cases hnext <;> trivial
    | _ => cases hnext
  | working account id pc =>
    rcases Option.map_eq_some_iff.mp hnext with ⟨y, _, rfl⟩
    trivial
  | ended => cases x <;> cases hnext

/-- A submission that is about to insert has found the order it retries. -/
theorem submission_start {xs : List CallStep} {account : ℕ} {retry_of : Option ℕ}
    {found : Table Order}
    (hrun : (submission h client_order_id).Run (.idle, orders) xs (.passed account retry_of, found)) :
    found = orders ∧ lookup (existing client_order_id orders account) = some retry_of := by
  have hstep : ∀ s x s', True → Started client_order_id orders s →
      (submission h client_order_id).next s x = some s' → Started client_order_id orders s' := by
    intro s x s' _ hs hnext
    exact started_step hs hnext
  have hend : Started client_order_id orders (.passed account retry_of, found) :=
    hrun.invariant hstep rfl
  exact hend

/-! ## The order that is retried -/

/-- What `submit` retries is an order that was refused and has no report. -/
theorem lookup_eq_some_some {found : Option Order} {id : ℕ} :
    lookup found = some (some id) ↔
      ∃ q, found = some q ∧ q.Refused ∧ q.reports = 0 ∧ q.id = id := by
  cases found with
  | none => simp [lookup]
  | some q =>
    have hterminal : q.status ∈ RETRYABLE_STATUSES →
        q.status ∈ TERMINAL_STATUSES ∧
          q.status ∉ [OrderStatus.pending, .submitted, .queued, .approved] := by
      cases q.status <;> decide
    simp only [lookup, Order.Refused, Option.some.injEq, exists_eq_left']
    constructor
    · intro hlookup
      split at hlookup
      · cases hlookup
      · next hreports =>
        split at hlookup
        · cases hlookup
        · split at hlookup
          · next hrefused =>
            refine ⟨hrefused, ?_, by simpa using hlookup⟩
            by_contra hpos
            exact hreports ⟨Nat.pos_of_ne_zero hpos, (hterminal hrefused.1).1⟩
          · cases hlookup
    · rintro ⟨hrefused, hreports, rfl⟩
      rw [if_neg (by omega), if_neg (hterminal hrefused.1).2, if_pos hrefused]

/-- The constraint leaves one order under an account and an id. -/
theorem holder_eq_some_iff (hunique : Table.Unique SameOrder orders) {account : ℕ} {id : String}
    (hid : id ≠ "") (hr : r ∈ orders) :
    holder orders account id = some r ↔ r.account = account ∧ r.client_order_id = id := by
  constructor
  · intro hholder
    simpa using Table.of_find? hholder
  · rintro ⟨rfl, rfl⟩
    refine Table.find?_of_only hr (by simp) ?_
    intro q hq hkey
    rw [Bool.and_eq_true, beq_iff_eq, beq_iff_eq] at hkey
    exact hunique q hq r hr ⟨hkey.1, hkey.2, fun hq => hid (hkey.2.symm.trans hq)⟩

/-- The order that `submit` finds is retried if it is refused and has no report. -/
theorem lookup_existing (hunique : Table.Unique SameOrder orders) (hr : r ∈ orders)
    (hrefused : r.Refused) :
    lookup (existing client_order_id orders r.account) = some (some r.id) ↔
      r.reports = 0 ∧ r.client_order_id ≠ "" ∧ r.client_order_id = strip client_order_id := by
  rw [lookup_eq_some_some]
  by_cases hblank : strip client_order_id = ""
  · simp only [existing, if_pos hblank, reduceCtorEq, false_and, exists_false, false_iff]
    rintro ⟨_, hid, hsame⟩
    exact hid (hsame.trans hblank)
  · simp only [existing, if_neg hblank]
    constructor
    · rintro ⟨q, hq, _, hreports, hpk⟩
      obtain rfl : q = r := Table.eq_of_pk_eq (Table.mem_of_find? hq) hr hpk
      have hkey := (holder_eq_some_iff hunique hblank hr).mp hq
      exact ⟨hreports, fun hid => hblank (hkey.2.symm.trans hid), hkey.2⟩
    · rintro ⟨hreports, _, hsame⟩
      exact ⟨r, (holder_eq_some_iff hunique hblank hr).mpr ⟨rfl, hsame⟩, hrefused, hreports, rfl⟩

/-! ## The insert -/

/-- The insert goes through unless an order is stored under the id as it was passed. -/
theorem insert_eq_working {account : ℕ} {retry_of : Option ℕ} {c : Call} {inserted : Table Order} :
    (submission h client_order_id).next (.passed account retry_of, orders) .insert =
        some (c, inserted) ∧ c ≠ .ended ↔
      (client_order_id ≠ "" → holder orders account client_order_id = none) ∧
        c = .working account orders.nextPk .validate ∧
        inserted = orders.create
          (fun id => ⟨id, account, client_order_id, .created, "", 0⟩) fun _ => rfl := by
  rw [submission_next]
  simp only [callStep]
  split
  · next hblocked =>
    constructor
    · rintro ⟨hended, hc⟩
      cases hended
      exact absurd rfl hc
    · rintro ⟨hfree, _, _⟩
      rw [hfree hblocked.1] at hblocked
      cases hblocked.2
  · next hfree =>
    have hnone : client_order_id ≠ "" → holder orders account client_order_id = none := by
      intro hid
      by_contra hsome
      exact hfree ⟨hid, Option.isSome_iff_ne_none.mpr hsome⟩
    constructor
    · rintro ⟨hworking, _⟩
      cases hworking
      exact ⟨hnone, rfl, rfl⟩
    · rintro ⟨_, rfl, rfl⟩
      refine ⟨rfl, ?_⟩
      intro hended
      cases hended

/-- With the account and the risk engine content, an inserted order goes to the adapter. -/
theorem run_to_adapter (account id : ℕ) :
    ∃ placed, (submission h client_order_id).Run (.working account id .validate, orders)
      [.go, .go, .go, .go, .go] (.working account id .place, placed) :=
  ⟨_, .cons trivial rfl <| .cons trivial rfl <| .cons trivial rfl <| .cons trivial rfl <|
    .cons trivial rfl <| .nil _⟩

/-- A refused order is retried exactly if it has no report, its own id is neither blank nor
surrounded by white space, and the call passes the id with white space around it under which no
order is stored. -/
theorem retried_iff (hunique : Table.Unique SameOrder orders) (hr : r ∈ orders)
    (hrefused : r.Refused) :
    Retried h client_order_id orders r ↔
      (r.reports = 0 ∧ r.client_order_id ≠ "" ∧ r.client_order_id = strip client_order_id) ∧
        holder orders r.account client_order_id = none := by
  rw [← lookup_existing hunique hr hrefused]
  constructor
  · rintro ⟨before, after, found, inserted, placed, id, hbefore, hinsert, _⟩
    rcases submission_start hbefore with ⟨rfl, hlookup⟩
    refine ⟨hlookup, (insert_eq_working.mp ⟨hinsert, nofun⟩).1 ?_⟩
    -- a blank id is not looked for
    rintro rfl
    rw [lookup_existing hunique hr hrefused] at hlookup
    exact hlookup.2.1 (hlookup.2.2.trans rfl)
  · rintro ⟨hlookup, hfree⟩
    obtain ⟨placed, hplaced⟩ := run_to_adapter r.account orders.nextPk
    refine ⟨[.route r.account, .lookup], _, orders, _, placed, _, ?_,
      (insert_eq_working.mpr ⟨fun _ => hfree, rfl, rfl⟩).1, hplaced⟩
    refine .cons trivial rfl (.cons trivial ?_ (.nil _))
    rw [submission_next, next_lookup, hlookup]
    rfl

/-- The order stands in the way of its own retry. -/
theorem not_retried_same (hr : r ∈ orders) : ¬ Retried h r.client_order_id orders r := by
  rintro ⟨before, after, found, inserted, placed, id, hbefore, hinsert, _⟩
  rcases submission_start hbefore with ⟨rfl, hlookup⟩
  have hfree := (insert_eq_working.mp ⟨hinsert, nofun⟩).1
  by_cases hid : r.client_order_id = ""
  · -- nothing is found under a blank id
    rw [hid] at hlookup
    cases hlookup
  · simpa using Table.not_of_find?_none (hfree hid) hr

end Retry

/-! ## A rejected order -/

/-- The risk engine blocks the order with the id `K` on account 1. -/
def blocked : List (ℕ × CallStep) :=
  [(0, .route 1), (0, .lookup), (0, .insert), (0, .go), (0, .block), (0, .go)]

def refused : Order := ⟨1, 1, "K", .rejected, "", 0⟩

def refusedOrders : Table Order := noOrders.create (fun id => { refused with id := id }) fun _ => rfl

theorem mem_refusedOrders {q : Order} : q ∈ refusedOrders ↔ q = refused := List.mem_singleton

/-- With a blank before the id there is a retry. -/
theorem retried_padded : Retried .ascii " K" refusedOrders refused := by
  have hunique : Table.Unique SameOrder refusedOrders := by
    intro a ha b hb _
    rw [mem_refusedOrders.mp ha, mem_refusedOrders.mp hb]
  exact (retried_iff hunique (mem_refusedOrders.mpr rfl) (by decide)).mpr (by decide +kernel)

/-- The order that a submission leaves rejected is not retried under its id. -/
theorem refused_not_retried :
    ∃ t, (router .ascii "K").Run (State.start noOrders) blocked t ∧
      ∃ r ∈ t.orders, r.Refused ∧ r.client_order_id = "K" ∧
        ¬ Retried .ascii "K" t.orders r := by
  have hexec : ((router .ascii "K").exec (State.start noOrders) blocked).any (fun t =>
      (holder t.orders 1 "K").any fun r => decide (r.Refused ∧ r.client_order_id = "K")) = true := by
    decide +kernel
  rcases (Option.any_eq_true _ _).mp hexec with ⟨t, ht, hheld⟩
  rcases (Option.any_eq_true _ _).mp hheld with ⟨r, hr, hrefused⟩
  have hmem : r ∈ t.orders := Table.mem_of_find? hr
  rcases of_decide_eq_true hrefused with ⟨hrefused, hid⟩
  refine ⟨t, Machine.exec_eq_some_iff.mp ht, r, hmem, hrefused, hid, ?_⟩
  have hnot := not_retried_same (h := .ascii) hmem
  rwa [hid] at hnot

end AlgoBot.Brokers
