import AlgoBot.Core.Once
import AlgoBot.Core.Table
import AlgoBot.Execution.Ownership

/-!
# Create requests that carry a key

`OrderViewSet.create` looks for an order under the key of the request, which may be
sent under two names, and inserts the order with what the serializer makes of
`client_request_id` alone. Between the lookup and the insert other requests run; the
unique constraint on the user and the key stands against them.

`created_once`: requests whose key is also what the serializer stores create at most
one order and invoke `adapter.place_order` at most once, in any interleaving.
`created_twice` sends the key as `client_order_id`, which is never stored.
-/

namespace AlgoBot.Execution

open AlgoBot.Core AlgoBot.Python

/-! ## The key of a request -/

/-- The serializer's character field: it refuses a value, or returns its text without the white
space around it. -/
structure CharField (h : Host) where
  clean : Value → Option String
  clean_eq : ∀ v s, clean v = some s → s = strip (v.toStr h)

/-- `str(data.get("client_request_id") or data.get("client_order_id") or "").strip()`. -/
def requestKey (h : Host) (data : Dict) : String :=
  strip (textOr h (data.firstOf ["client_request_id", "client_order_id"]) "")

/-- The `client_request_id` the order is inserted with; `none` is a `ValidationError`. -/
def persistedKey {h : Host} (F : CharField h) (data : Dict) : Option String :=
  if data.contains "client_request_id" then F.clean (data.get "client_request_id") else some ""

/-- A key that is sent as `client_request_id` is the one that is stored. -/
theorem persistedKey_of_truthy {h : Host} {F : CharField h} {data : Dict} {key : String}
    (hsent : (data.get "client_request_id").truthy = true) (hkey : persistedKey F data = some key) :
    key = requestKey h data := by
  have hcontains : data.contains "client_request_id" = true := by
    unfold Dict.contains
    cases hl : data.lookup "client_request_id" with
    | some v => rfl
    | none => simp [Dict.get, hl, Value.truthy] at hsent
  rw [persistedKey, if_pos hcontains] at hkey
  rw [F.clean_eq _ _ hkey]
  simp [requestKey, textOr, Dict.firstOf, Value.or, hsent]

/-! ## The view -/

/-- An order of the user with its queue entry and the broker's book about it. -/
structure Placed where
  id : ℕ
  shared : Shared

instance : HasPk Placed := ⟨Placed.id⟩

def Placed.key (r : Placed) : String := r.shared.order.client_request_id

/-- What a create request does next. -/
inductive Create where
  | idle
  | unmatched (data : Dict)
  | placing (id : ℕ) (placer : Placer)
  | answered

structure Desk where
  orders : Table Placed
  requests : ℕ → Create

/-- `reject` is an allowance, the serializer or the account check that turns the request down; the
`validation_context` of a new order is what the view has put together. -/
inductive DeskAction where
  | lookup (i : ℕ) (data : Dict)
  | reject (i : ℕ)
  | insert (i : ℕ) (validation_context : Dict)
  | place (i : ℕ) (o : Outcome)

/-- `Order.objects.filter(user=request.user, client_request_id=key).first()`. -/
def existing (orders : Table Placed) (key : String) : Option Placed :=
  if key = "" then none else orders.find? fun r => r.key == key

/-- The key the row is inserted with. The unique constraint leaves blank keys alone. -/
def insertKey {h : Host} (F : CharField h) (orders : Table Placed) (data : Dict) :
    Option String :=
  match persistedKey F data with
  | some key => if (existing orders key).isSome then none else some key
  | none => none

/-- The order as `OrderService.create_order` inserts it. -/
def newOrder (key : String) (validation_context : Dict) : Order :=
  ⟨.draft, validation_context, "", .dict [], key⟩

def insertOrder (orders : Table Placed) (order : Order) : Table Placed :=
  orders.create (fun id => ⟨id, order, none, Broker.empty⟩) fun _ => rfl

/-- One step of a create request that carries `key`. -/
def deskStep {h : Host} (F : CharField h) (key : String) (s : Desk) : DeskAction → Option Desk
  | .lookup i data =>
      match s.requests i with
      | .idle =>
          if requestKey h data ≠ key then none
          else
            -- an order that is there is returned, or a 409 when the account is another one
            let next := if (existing s.orders key).isSome then .answered else .unmatched data
            some { s with requests := Function.update s.requests i next }
      | _ => none
  | .reject i =>
      match s.requests i with
      | .unmatched _ => some { s with requests := Function.update s.requests i .answered }
      | _ => none
  | .insert i context =>
      match s.requests i with
      | .unmatched data =>
          match insertKey F s.orders data with
          | some stored =>
              let order := newOrder stored context
              some {
                orders := insertOrder s.orders order
                requests := Function.update s.requests i
                  (.placing s.orders.nextPk (.placing .logCreated order)) }
          -- a ValidationError, or an IntegrityError that is answered with a 503
          | none => some { s with requests := Function.update s.requests i .answered }
      | _ => none
  | .place i o =>
      match s.requests i with
      | .placing id p =>
          (s.orders.get? id).bind fun r =>
            (placeStep h true r.shared p o).map fun x =>
              { orders := s.orders.set { r with shared := x.2 }
                requests := Function.update s.requests i (.placing id x.1) }
      | _ => none

/-- Any number of create requests that carry the key. -/
def desk {h : Host} (F : CharField h) (key : String) : Machine Desk DeskAction := ⟨deskStep F key⟩

/-- The orders the user has, before the requests. -/
def Desk.start (orders : Table Placed) : Desk := ⟨orders, fun _ => .idle⟩

/-- The step inserts an order. -/
def creates {h : Host} (F : CharField h) (s : Desk) : DeskAction → ℕ
  | .insert i _ =>
      match s.requests i with
      | .unmatched data => if (insertKey F s.orders data).isSome then 1 else 0
      | _ => 0
  | _ => 0

/-- The step invokes `adapter.place_order`. -/
def calls (s : Desk) : DeskAction → ℕ
  | .place i o =>
      match s.requests i with
      | .placing _ p => if p.submits o then 1 else 0
      | _ => 0
  | _ => 0

/-! ## What a step does -/

/-- The request has an order that it is placing. -/
def Create.active : Create → Bool
  | .placing _ _ => true
  | _ => false

/-- The request has a submission still to come. -/
def Create.ahead : Create → Bool
  | .placing _ p => p.ahead
  | _ => false

section Steps

variable {h : Host} {F : CharField h} {key : String} {s s' t : Desk} {a : DeskAction}

inductive DeskEffect (F : CharField h) (key : String) (s : Desk) : DeskAction → Desk → Prop
  /-- A request is answered, or has found no order. -/
  | answers {a : DeskAction} (i : ℕ) (c : Create) (hidle : (s.requests i).active = false)
      (hc : c.active = false) (hdata : ∀ data, c = .unmatched data → a = .lookup i data)
      (hcreates : creates F s a = 0) (hcalls : calls s a = 0) :
      DeskEffect F key s a { s with requests := Function.update s.requests i c }
  | inserts (i : ℕ) (data : Dict) (context : Dict) (stored : String)
      (hi : s.requests i = .unmatched data) (hkey : insertKey F s.orders data = some stored) :
      DeskEffect F key s (.insert i context)
        { orders := insertOrder s.orders (newOrder stored context)
          requests := Function.update s.requests i
            (.placing s.orders.nextPk (.placing .logCreated (newOrder stored context))) }
  | places (i id : ℕ) (p p' : Placer) (r : Placed) (shared : Shared) (o : Outcome)
      (hi : s.requests i = .placing id p) (hr : s.orders.get? id = some r)
      (hp : placeStep h true r.shared p o = some (p', shared)) :
      DeskEffect F key s (.place i o)
        { orders := s.orders.set { r with shared := shared }
          requests := Function.update s.requests i (.placing id p') }

theorem deskStep_effect (hs : deskStep F key s a = some s') : DeskEffect F key s a s' := by
  cases a with
  | lookup i data =>
    simp only [deskStep] at hs
    split at hs
    · next hi =>
      split at hs
      · cases hs
      · cases hs
        refine .answers i _ (by rw [hi]; rfl) ?_ ?_ rfl rfl
        · split <;> rfl
        · intro data' hdata
          split at hdata
          · cases hdata
          · cases hdata
            rfl
    · cases hs
  | reject i =>
    simp only [deskStep] at hs
    split at hs
    · next data hi =>
      cases hs
      refine .answers i _ (by rw [hi]; rfl) rfl ?_ rfl rfl
      intro data' hdata
      cases hdata
    · cases hs
  | insert i context =>
    simp only [deskStep] at hs
    split at hs
    · next data hi =>
      split at hs
      · next stored hkey =>
        cases hs
        exact .inserts i data context stored hi hkey
      · next hkey =>
        cases hs
        refine .answers i _ (by rw [hi]; rfl) rfl ?_ ?_ rfl
        · intro data' hdata
          cases hdata
        · simp [creates, hi, hkey]
    · cases hs
  | place i o =>
    simp only [deskStep] at hs
    split at hs
    · next id p hi =>
      rcases Option.bind_eq_some_iff.mp hs with ⟨r, hr, hs⟩
      rcases Option.map_eq_some_iff.mp hs with ⟨⟨p', shared⟩, hp, rfl⟩
      exact .places i id p p' r shared o hi hr hp
    · cases hs

/-! ## The key stays with the order -/

theorem awaitStep_key {x : Exec} {shared : Shared} {r : BrokerReply} :
    (awaitStep h x shared r).2.order.client_request_id = shared.order.client_request_id := by
  cases r with
  | raises e => rfl
  | returns v =>
    cases v with
    | dict response =>
      simp only [awaitStep, replyStep]
      split <;> rfl
    | _ => rfl

theorem execStep_key {x : Exec} {n : ExecNext} {shared shared' : Shared} {o : Outcome}
    (hs : execStep h x shared o = some (n, shared')) :
    shared'.order.client_request_id = shared.order.client_request_id := by
  rcases x with ⟨pc, order, attempt⟩
  cases o with
  | ok =>
    cases pc with
    | check =>
      rcases Option.map_eq_some_iff.mp hs with ⟨n', _, hn⟩
      cases hn
      rfl
    | await => cases hs
    | _ =>
      cases hs
      rfl
  | fail e =>
    cases pc with
    | check =>
      rcases Option.map_eq_some_iff.mp hs with ⟨n', _, hn⟩
      cases hn
      rfl
    | await => cases hs
    | _ =>
      cases hs
      rfl
  | reply r =>
    simp only [execStep] at hs
    split at hs
    · have hshared : (awaitStep h _ shared r).2 = shared' :=
        congrArg Prod.snd (Option.some.inj hs)
      rw [← hshared]
      exact awaitStep_key
    · cases hs

/-- Placing an order does not touch its key. -/
theorem placeStep_key {manual : Bool} {p p' : Placer} {shared shared' : Shared} {o : Outcome}
    (hs : placeStep h manual shared p o = some (p', shared')) :
    shared'.order.client_request_id = shared.order.client_request_id := by
  cases p with
  | placing pc order =>
    cases o with
    | ok =>
      cases pc <;>
      · cases hs
        rfl
    | fail e =>
      cases hs
      rfl
    | reply r => cases hs
  | exec x =>
    rcases Option.map_eq_some_iff.mp hs with ⟨⟨n, shared₁⟩, hx, hn⟩
    cases hn
    exact execStep_key hx
  | done => cases o <;> cases hs

/-- Rows that keep their keys are found as before. -/
theorem existing_set {orders : Table Placed} {r : Placed} {shared : Shared} {id : ℕ}
    (hr : orders.get? id = some r)
    (hkey : shared.order.client_request_id = r.shared.order.client_request_id) (k : String) :
    (existing (orders.set { r with shared := shared }) k).isSome =
      (existing orders k).isSome := by
  unfold existing
  split
  · rfl
  · rw [Table.find?_set]
    · cases orders.find? fun q => q.key == k <;> rfl
    · intro q hq hid
      have hrow : q = r := Table.eq_of_pk_eq hq (Table.get?_eq_some.mp hr).1 hid
      rw [hrow]
      simp [Placed.key, hkey]

theorem existing_insert {orders : Table Placed} {context : Dict} {k : String} (hk : k ≠ "") :
    (existing (insertOrder orders (newOrder k context)) k).isSome = true := by
  rw [existing, if_neg hk, insertOrder, Table.find?_create]
  simp [Placed.key, newOrder]

/-- An order that is inserted under another key does not answer later requests. -/
theorem existing_insert_ne {orders : Table Placed} {context : Dict} {stored k : String}
    (hne : stored ≠ k) :
    existing (insertOrder orders (newOrder stored context)) k = existing orders k := by
  unfold existing
  split
  · rfl
  · rw [insertOrder, Table.find?_create]
    simp [Placed.key, newOrder, hne]

/-! ## One order -/

/-- The key the request carries is the one that is stored, if the serializer accepts it. -/
def StoresKey (F : CharField h) (key : String) : Desk → DeskAction → Prop
  | _, .lookup _ data => persistedKey F data = none ∨ persistedKey F data = some key
  | _, _ => True

instance (s : Desk) (a : DeskAction) : Decidable (StoresKey F key s a) := by
  cases a <;> unfold StoresKey <;> infer_instance

/-- The requests that are about to insert an order insert it under the key. -/
def Stores (F : CharField h) (key : String) (s : Desk) : Prop :=
  ∀ i data, s.requests i = .unmatched data →
    persistedKey F data = none ∨ persistedKey F data = some key

theorem stores_start (orders : Table Placed) : Stores F key (Desk.start orders) := by
  intro i data hdata
  cases hdata

theorem step_stores (hg : StoresKey F key s a) (hi : Stores F key s)
    (hs : deskStep F key s a = some s') : Stores F key s' := by
  -- what the other requests have read stays as it was
  have hothers : ∀ (i : ℕ) (c : Create),
      (∀ data, c = .unmatched data →
        persistedKey F data = none ∨ persistedKey F data = some key) →
      ∀ j data, Function.update s.requests i c j = .unmatched data →
        persistedKey F data = none ∨ persistedKey F data = some key := by
    intro i c hc j data hj
    by_cases hji : j = i
    · rw [hji, Function.update_self] at hj
      exact hc data hj
    · rw [Function.update_of_ne hji] at hj
      exact hi j data hj
  cases deskStep_effect hs with
  | answers i c hidle hc hdata =>
    apply hothers i c
    intro data hd
    have ha := hdata data hd
    subst ha
    exact hg
  | inserts i data context stored hreq hkey =>
    apply hothers i
    intro data' hd
    cases hd
  | places i id p p' r shared o hreq hr hp =>
    apply hothers i
    intro data' hd
    cases hd

/-- Only a new key is inserted, and it is the key. -/
theorem insertKey_eq (hi : Stores F key s) {i : ℕ} {data : Dict} {stored : String}
    (hreq : s.requests i = .unmatched data) (hkey : insertKey F s.orders data = some stored) :
    stored = key ∧ (existing s.orders key).isSome = false := by
  unfold insertKey at hkey
  rcases hi i data hreq with hnone | hsome
  · simp [hnone] at hkey
  · simp only [hsome] at hkey
    split at hkey
    · cases hkey
    · next hfree =>
      cases hkey
      exact ⟨rfl, by simpa using hfree⟩

/-- The requests around the key: one of them inserts it and places the order. -/
def creators (key : String) : Family Desk ℕ Create where
  procs := Desk.requests
  active := Create.active
  ahead := Create.ahead
  held s := (existing s.orders key).isSome = true
  active_of_ahead c hc := by
    cases c with
    | placing id p => rfl
    | _ => cases hc

theorem deskStep_once (hne : key ≠ "") (hi : Stores F key s)
    (hs : deskStep F key s a = some s') :
    OnceStep (creators key) s s' (creates F s a) (calls s a) := by
  cases deskStep_effect hs with
  | answers i c hidle hc hdata hcreates hcalls => exact .stops i c rfl hc id hcreates hcalls
  | inserts i data context stored hreq hkey =>
    rcases insertKey_eq hi hreq hkey with ⟨rfl, hfree⟩
    refine .takes i _ rfl ?_ (existing_insert hne) ?_ rfl
    · simp [creators, hfree]
    · simp [creates, hreq, hkey]
  | places i id p p' r shared o hreq hr hp =>
    have hheld : (creators key).held s → (existing (s.orders.set { r with shared := shared })
        key).isSome = true := by
      intro hheld
      rw [existing_set hr (placeStep_key hp)]
      exact hheld
    have hactive : (creators key).active (s.requests i) = true := by
      rw [hreq]
      rfl
    have hahead : ∀ q : Placer, (creators key).ahead (.placing id q) = q.ahead := fun _ => rfl
    rcases placeStep_effect hp with ⟨_, hp', hsub, _⟩ | ⟨hsub, hp', _⟩ | ⟨hsub, hp', _⟩
    · refine .goes i _ rfl hactive hheld ?_ rfl (by simp [calls, hreq, hsub])
      intro hn
      rw [hahead, hp'] at hn
      cases hn
    · -- the submission
      refine .fires i _ rfl ?_ hheld hp' rfl (by simp [calls, hreq, hsub])
      show (creators key).ahead (s.requests i) = true
      rw [hreq]
      exact Placer.ahead_of_submits hsub
    · refine .goes i _ rfl hactive hheld ?_ rfl (by simp [calls, hreq, hsub])
      intro hn
      show (creators key).ahead (s.requests i) = true
      rw [hreq]
      rcases hp' with hp' | hp'
      · rw [hahead, hp'] at hn
        cases hn
      · exact hp'

/-! ## One order, one submission -/

/-- Requests whose key is stored create at most one order and submit it at most once. -/
theorem created_once (hne : key ≠ "") {orders : Table Placed} {as : List DeskAction}
    (hrun : (desk F key).RunIf (StoresKey F key) (Desk.start orders) as t) :
    (desk F key).total (creates F) (Desk.start orders) as ≤ 1 ∧
      (desk F key).total calls (Desk.start orders) as ≤ 1 := by
  have hstores : ∀ s a s', StoresKey F key s a → Stores F key s →
      (desk F key).next s a = some s' → Stores F key s' ∧ True := by
    intro s a s' hg hi hs
    exact ⟨step_stores hg hi hs, trivial⟩
  have hsteps := hrun.forall_steps hstores (stores_start orders)
  have hidle : Owned (creators key).active ((creators key).held (Desk.start orders))
      ((creators key).procs (Desk.start orders)) := Owned.of_idle fun _ => rfl
  have honce : ∀ s a s', (StoresKey F key s a ∧ Stores F key s ∧ True) →
      (desk F key).next s a = some s' →
      OnceStep (creators key) s s' (creates F s a) (calls s a) := by
    intro s a s' hg hs
    exact deskStep_once hne hg.2.1 hs
  exact ⟨takes_once honce hsteps, fires_once honce hidle hsteps⟩

end Steps

/-! ## Concrete runs -/

/-- A field that accepts text. -/
def textField : CharField .ascii where
  clean
    | .str s => some (strip s)
    | _ => none
  clean_eq v s hs := by
    cases v with
    | str text =>
      cases hs
      rfl
    | _ => cases hs

def noOrders : Table Placed := Table.empty

/-- Request `i` looks, inserts and goes through `place_manual_order` to the submission. -/
def submitting (i : ℕ) (data : Dict) : List DeskAction :=
  [.lookup i data, .insert i []] ++ List.replicate 7 (.place i .ok)

/-- Two requests find no order under their key; the second one violates the constraint. -/
theorem created_once_race :
    (desk textField "k1").total (creates textField) (Desk.start noOrders)
        ([.lookup 1 [("client_request_id", .str "k1")]] ++
          submitting 0 [("client_request_id", .str " k1 ")] ++ [.insert 1 []]) ≤ 1 ∧
      (desk textField "k1").total calls (Desk.start noOrders)
        ([.lookup 1 [("client_request_id", .str "k1")]] ++
          submitting 0 [("client_request_id", .str " k1 ")] ++ [.insert 1 []]) ≤ 1 := by
  have hexec : ((desk textField "k1").execIf (StoresKey textField "k1") (Desk.start noOrders)
      ([.lookup 1 [("client_request_id", .str "k1")]] ++
        submitting 0 [("client_request_id", .str " k1 ")] ++ [.insert 1 []])).isSome = true := by
    decide +kernel
  obtain ⟨t, hrun⟩ := Machine.exists_runIf hexec
  exact created_once (by decide) hrun

/-- The key is sent as `client_order_id`. The second request does not find the first one's order. -/
theorem created_twice :
    ((desk textField "k1").exec (Desk.start noOrders)
        (submitting 0 [("client_order_id", .str "k1")] ++
          submitting 1 [("client_order_id", .str "k1")])).isSome = true ∧
      (desk textField "k1").total (creates textField) (Desk.start noOrders)
        (submitting 0 [("client_order_id", .str "k1")] ++
          submitting 1 [("client_order_id", .str "k1")]) = 2 ∧
      (desk textField "k1").total calls (Desk.start noOrders)
        (submitting 0 [("client_order_id", .str "k1")] ++
          submitting 1 [("client_order_id", .str "k1")]) = 2 := by
  decide +kernel

end AlgoBot.Execution
