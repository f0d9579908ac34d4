import AlgoBot.Automation.Orders

/-!
# Chains of automation orders

A closed trade publishes `TradeClosed`, which may trigger workflows whose orders are
closed in turn. The depth of an order goes into its routing context, from there into
the event of its closed trade, from there into the execution and the next order.

`chain_bounded`: a causal chain has at most `MAX_AUTOMATION_CHAIN_DEPTH` orders, if
every event of a closed automation trade finds the order of the trade.
`chain_unbounded` is a chain of six orders whose submissions timed out.
-/

namespace AlgoBot.Automation.Chains

open AlgoBot.Core AlgoBot.Python AlgoBot.Automation

def MAX_AUTOMATION_CHAIN_DEPTH : ℕ := 5

/-! ## Depths -/

/-- `int(v or 0)`, and 0 if that raises. -/
def depthOf (h : Host) (v : Value) : ℤ :=
  match (v.or (.int 0)).toInt h with
  | .ok n => n
  | .error _ => 0

/-- `parent_depth` of `_execute_trade`. -/
def parent_depth (h : Host) (payload : Dict) : ℕ :=
  (max 0 (min (depthOf h (payload.getD "_automation_depth" (.int 0)))
    MAX_AUTOMATION_CHAIN_DEPTH)).toNat

/-- `automation_depth` of `handle_event`. -/
def automation_depth (h : Host) (payload : Dict) : ℕ :=
  (max 0 (depthOf h (payload.getD "automation_depth" (.int 0)))).toNat

/-- The events that `handle_event` does not pass on to the workflows. -/
def suppressed (h : Host) (event_name : String) (payload : Dict) : Bool :=
  (event_name == "TradeExecuted" &&
    match Dict.get payload "origin_workflow_id" with
    | .none => false
    | _ => true) ||
  (event_name == "TradeClosed" && MAX_AUTOMATION_CHAIN_DEPTH ≤ automation_depth h payload)

/-! ## Orders and events -/

/-- `routing_context["automation"]` of an order node. -/
structure Context where
  workflow_id : ℕ
  execution_id : ℕ
  node_id : String
  martingale : Bool
  parent_depth : ℕ

def Context.depth (c : Context) : ℕ := c.parent_depth + 1

def Context.toDict (c : Context) : Dict :=
  [("workflow_id", .int c.workflow_id), ("execution_id", .int c.execution_id),
    ("node_id", .str c.node_id), ("martingale", .bool c.martingale), ("depth", .int c.depth)]

/-- Where an order comes from. An order of an order node is caused by the order whose event has
triggered the execution, if there is one. -/
inductive Source where
  | user (routing : Value)
  | node (routing : Dict) (context : Context) (cause : Option ℕ)

/-- `routing_context`. -/
def Source.routing_context : Source → Value
  | .user routing => routing
  | .node routing context _ => .dict (routing.insert "automation" (.dict context.toDict))

structure Order where
  id : ℕ
  account : ℕ
  broker_order_id : String
  source : Source

instance : HasPk Order := ⟨Order.id⟩

def Order.cause (order : Order) : Option ℕ :=
  match order.source with
  | .user _ => none
  | .node _ _ cause => cause

def Order.isNode (order : Order) : Bool :=
  match order.source with
  | .user _ => false
  | .node _ _ _ => true

/-- `automation`, as the publishers of events read it. -/
def Order.automation (order : Order) : Dict :=
  (Dict.get order.source.routing_context.asDict "automation").asDict

/-- `filter(account=account, broker_order_id=contract_id).order_by("-id").first()`. -/
def latestOrder (orders : Table Order) (account : ℕ) (contract_id : String) : Option Order :=
  (orders.rows.filter fun r => r.account == account && r.broker_order_id == contract_id).foldl
    (fun best r => if best.all (fun b => b.id < r.id) then some r else best) none

/-- The fields about the automation in the payload of a broker event. -/
def brokerPayload (automation : Dict) (rest : Dict) : Dict :=
  rest.merge
    [("origin_workflow_id", automation.get "workflow_id"),
      ("automation_depth", automation.getD "depth" (.int 0))]

/-- A call of `process_event` that is queued, and the order whose trade it is about. -/
structure Message where
  event_name : String
  payload : Dict
  cause : Option ℕ

/-- A `WorkflowExecution`; one that waits for an approval is run again with the same payload. -/
structure Run where
  workflow_id : ℕ
  payload : Dict
  cause : Option ℕ

/-- A contract of the broker, and the order it was bought for. -/
structure Contract where
  account : ℕ
  contract_id : String
  order : ℕ

structure State where
  orders : Table Order
  contracts : List Contract
  messages : List Message
  runs : List Run

def State.start : State := ⟨Table.empty, [], [], []⟩

/-- A workflow that is enabled, with the event of its trigger. -/
structure Workflow where
  pk : ℕ
  event : Value

inductive Action where
  /-- An event that is no consequence of an order. -/
  | receive (event_name : String) (payload : Dict)
  /-- An execution without an event: by hand, or by the scheduler. -/
  | execute (workflow_id : ℕ) (payload : Dict)
  /-- An order that is placed by hand. -/
  | order (account : ℕ) (routing : Value)
  /-- `publish` handles message `i` and runs the workflow. -/
  | handle (i : ℕ) (pk : ℕ+) (workflow : Workflow)
  /-- An order node of run `j` submits its order. -/
  | trade (j : ℕ) (account : ℕ) (node_id : String) (martingale : Bool) (routing : Dict)
  /-- The broker opens a contract for the order. -/
  | buy (order : ℕ) (contract_id : String)
  /-- The reply of the broker is saved. -/
  | record (order : ℕ)
  /-- A note is written into the routing context. -/
  | note (order : ℕ) (key : String) (v : Value)
  /-- `TradeExecuted` is published. -/
  | executed (order : ℕ) (rest : Dict)
  /-- `TradeClosed` is published. -/
  | closed (account : ℕ) (contract_id : String) (rest : Dict)

/-- The keys that later saves write into the routing context. -/
def noteKeys : List String :=
  ["execution_state", "reconciliation_required", "risk_gate", "reconciliation"]

def Source.note (key : String) (v : Value) : Source → Source
  | .user routing => .user (.dict (routing.asDict.insert key v))
  | .node routing context cause => .node (routing.insert key v) context cause

def State.contract? (s : State) (account : ℕ) (contract_id : String) : Option Contract :=
  s.contracts.find? fun c => c.account == account && c.contract_id == contract_id

/-- The automation order whose trade this is. -/
def State.traded (s : State) (account : ℕ) (contract_id : String) : Option ℕ :=
  (s.contract? account contract_id).bind fun c =>
    ((s.orders.get? c.order).filter Order.isNode).map Order.id

def State.send (s : State) (m : Message) : State := { s with messages := s.messages ++ [m] }

def State.run (s : State) (r : Run) : State := { s with runs := s.runs ++ [r] }

/-- `Order.objects.create`. -/
def State.create (s : State) (account : ℕ) (source : Source) : State :=
  { s with orders := s.orders.create (fun id => ⟨id, account, "", source⟩) fun _ => rfl }

def step (h : Host) (s : State) : Action → Option State
  | .receive event_name payload => some (s.send ⟨event_name, payload, none⟩)
  | .execute workflow_id payload => some (s.run ⟨workflow_id, payload, none⟩)
  | .order account routing => some (s.create account (.user routing))
  | .handle i pk workflow =>
      s.messages[i]?.bind fun m =>
        let payload := eventPayload pk m.payload
        if workflow.event.beq (.str m.event_name) && !suppressed h m.event_name payload then
          some (s.run ⟨workflow.pk, payload, m.cause⟩)
        else none
  | .trade j account node_id martingale routing =>
      s.runs[j]?.map fun r =>
        let context : Context :=
          ⟨r.workflow_id, j + 1, node_id, martingale, parent_depth h r.payload⟩
        s.create account (.node routing context r.cause)
  | .buy order contract_id =>
      (s.orders.get? order).bind fun r =>
        if contract_id ≠ "" ∧ s.contract? r.account contract_id = none then
          some { s with contracts := s.contracts ++ [⟨r.account, contract_id, order⟩] }
        else none
  | .record order =>
      (s.orders.get? order).bind fun r =>
        (s.contracts.find? fun c => c.order == order).map fun c =>
          { s with orders := s.orders.set { r with broker_order_id := c.contract_id } }
  | .note order key v =>
      (s.orders.get? order).bind fun r =>
        if noteKeys.contains key then
          some { s with orders := s.orders.set { r with source := r.source.note key v } }
        else none
  | .executed order rest =>
      (s.orders.get? order).map fun r =>
        s.send ⟨"TradeExecuted", brokerPayload r.automation rest,
          if r.isNode then some order else none⟩
  | .closed account contract_id rest =>
      let automation := ((latestOrder s.orders account contract_id).map Order.automation).getD []
      some (s.send ⟨"TradeClosed", brokerPayload automation rest, s.traded account contract_id⟩)

def automation (h : Host) : Machine State Action := ⟨step h⟩

/-! ## What is to be shown -/

/-- Every order of the list is an order of a node, and is caused by the next one. -/
def isChain (orders : Table Order) : List ℕ → Bool
  | [] => true
  | [k] => (orders.get? k).any Order.isNode
  | k :: p :: ks => (orders.get? k).any (fun r => r.cause == some p) && isChain orders (p :: ks)

/-- The event of a closed trade of an automation order finds that order. -/
def FindsOrder (s : State) : Action → Prop
  | .closed account contract_id _ =>
      ∀ k ∈ s.traded account contract_id,
        (latestOrder s.orders account contract_id).map Order.id = some k
  | _ => True

instance (s : State) (a : Action) : Decidable (FindsOrder s a) := by
  cases a <;> unfold FindsOrder <;> infer_instance

section Steps

variable {h : Host} {s s' t : State} {a : Action} {orders orders' : Table Order}

/-! ## Links -/

/-- The cause and the depth of a node's order. -/
def Order.link (order : Order) : Option (Option ℕ × ℕ) :=
  match order.source with
  | .user _ => none
  | .node _ context cause => some (cause, context.depth)

def linkAt (orders : Table Order) (k : ℕ) : Option (Option ℕ × ℕ) :=
  (orders.get? k).bind Order.link

theorem link_of_isNode {r : Order} (hr : r.isNode = true) :
    ∃ routing context cause, r.source = .node routing context cause ∧
      r.link = some (cause, context.depth) := by
  unfold Order.isNode at hr
  split at hr
  · cases hr
  · next routing context cause hsource =>
    exact ⟨routing, context, cause, hsource, by rw [Order.link, hsource]⟩

/-- A row that keeps its link. -/
theorem linkAt_set {r r' : Order} (hr : orders.get? r'.id = some r) (hlink : r'.link = r.link)
    (k : ℕ) : linkAt (orders.set r') k = linkAt orders k := by
  rw [linkAt, Table.get?_set_of_some hr]
  split
  · next hk =>
    have hrow : orders.get? k = some r := by rw [hk]; exact hr
    rw [linkAt, hrow, Option.bind_some, Option.bind_some, hlink]
  · rfl

theorem link_note (key : String) (v : Value) (r : Order) :
    Order.link { r with source := r.source.note key v } = r.link := by
  rcases r with ⟨id, account, broker_order_id, source⟩
  cases source <;> rfl

/-- Orders that are created leave the links there are. -/
theorem linkAt_create (s : State) (account : ℕ) (source : Source) {k : ℕ}
    {l : Option ℕ × ℕ} (hk : linkAt s.orders k = some l) :
    linkAt (s.create account source).orders k = some l := by
  rcases Option.bind_eq_some_iff.mp hk with ⟨r, hr, hlink⟩
  have hrow : (s.create account source).orders.get? k = some r :=
    Table.get?_create_of_some (fun _ => rfl) hr
  rw [linkAt, hrow, Option.bind_some, hlink]

/-- The only new link is the one of the order that is created. -/
theorem linkAt_create_cases (s : State) (account : ℕ) (source : Source) {k : ℕ}
    {l : Option ℕ × ℕ} (hk : linkAt (s.create account source).orders k = some l) :
    linkAt s.orders k = some l ∨ Order.link ⟨k, account, "", source⟩ = some l := by
  by_cases hnew : k = s.orders.nextPk
  · right
    subst hnew
    have hrow : (s.create account source).orders.get? s.orders.nextPk =
        some ⟨s.orders.nextPk, account, "", source⟩ := Table.get?_create_self fun _ => rfl
    rw [linkAt, hrow, Option.bind_some] at hk
    exact hk
  · left
    have hrow : (s.create account source).orders.get? k = s.orders.get? k :=
      Table.get?_create_ne (fun _ => rfl) hnew
    rwa [linkAt, hrow] at hk

/-! ## Payloads -/

theorem automation_of_node {r : Order} {routing : Dict} {context : Context} {cause : Option ℕ}
    (hr : r.source = .node routing context cause) : r.automation = context.toDict := by
  simp [Order.automation, hr, Source.routing_context, Value.asDict, Dict.get_insert]

theorem depth_brokerPayload (context : Context) (rest : Dict) :
    (brokerPayload context.toDict rest).getD "automation_depth" (.int 0) =
      .int context.depth := by
  have hdepth : Dict.getD context.toDict "depth" (.int 0) = .int context.depth := rfl
  simp [brokerPayload, Dict.merge, Dict.getD_insert, hdepth]

theorem origin_brokerPayload (context : Context) (rest : Dict) :
    (brokerPayload context.toDict rest).get "origin_workflow_id" = .int context.workflow_id := by
  have horigin : Dict.get context.toDict "workflow_id" = .int context.workflow_id := rfl
  simp [brokerPayload, Dict.merge, Dict.get_insert, horigin]

theorem parent_depth_eventPayload (pk : ℕ+) (payload : Dict) :
    (eventPayload pk payload).getD "_automation_depth" (.int 0) =
      payload.getD "automation_depth" (.int 0) := by
  simp [eventPayload, Dict.merge, Dict.getD_insert]

theorem depth_eventPayload (pk : ℕ+) (payload : Dict) :
    (eventPayload pk payload).getD "automation_depth" (.int 0) =
      payload.getD "automation_depth" (.int 0) := by
  simp [eventPayload, Dict.merge, Dict.getD_insert]

theorem origin_eventPayload (pk : ℕ+) (payload : Dict) :
    (eventPayload pk payload).get "origin_workflow_id" = payload.get "origin_workflow_id" := by
  simp [eventPayload, Dict.merge, Dict.get_insert]

theorem depthOf_nat (h : Host) (d : ℕ) : depthOf h (.int d) = d := by
  have hor : (Value.int (d : ℤ)).or (.int 0) = .int d := by
    by_cases hd : d = 0
    · rw [hd]
      rfl
    · have htrue : (Value.int (d : ℤ)).truthy = true := by simpa [Value.truthy] using hd
      rw [Value.or, if_pos htrue]
  rw [depthOf, hor]
  rfl

/-- What `_execute_trade` reads of a depth that is not too large. -/
theorem parent_depth_of_nat {payload : Dict} {d : ℕ}
    (hd : payload.getD "_automation_depth" (.int 0) = .int d)
    (hlt : d < MAX_AUTOMATION_CHAIN_DEPTH) : parent_depth h payload = d := by
  rw [parent_depth, hd, depthOf_nat]
  omega

theorem automation_depth_of_nat {payload : Dict} {d : ℕ}
    (hd : payload.getD "automation_depth" (.int 0) = .int d) :
    automation_depth h payload = d := by
  rw [automation_depth, hd, depthOf_nat]
  omega

/-! ## Depths along the hops -/

/-- The message is not passed on, or carries the depth of the order it is about. -/
def Carries (orders : Table Order) (m : Message) (p : ℕ) : Prop :=
  (m.event_name = "TradeExecuted" ∧ m.payload.get "origin_workflow_id" ≠ .none) ∨
    (m.event_name = "TradeClosed" ∧ ∃ c d, linkAt orders p = some (c, d) ∧
      m.payload.getD "automation_depth" (.int 0) = .int d)

/-- The execution has the depth of the order that has caused it, which is below the limit. -/
def Inherits (orders : Table Order) (r : Run) (p : ℕ) : Prop :=
  ∃ c d, linkAt orders p = some (c, d) ∧ d < MAX_AUTOMATION_CHAIN_DEPTH ∧
    r.payload.getD "_automation_depth" (.int 0) = .int d

/-- Every hop passes the depth on, and an order is one deeper than its cause. -/
structure Linked (s : State) : Prop where
  messages : ∀ m ∈ s.messages, ∀ p, m.cause = some p → Carries s.orders m p
  runs : ∀ r ∈ s.runs, ∀ p, r.cause = some p → Inherits s.orders r p
  orders : ∀ k p d, linkAt s.orders k = some (some p, d) →
    ∃ c e, linkAt s.orders p = some (c, e) ∧ e < MAX_AUTOMATION_CHAIN_DEPTH ∧ d = e + 1

/-- Every link stays. -/
def Grows (orders orders' : Table Order) : Prop :=
  ∀ k l, linkAt orders k = some l → linkAt orders' k = some l

theorem Carries.mono {m : Message} {p : ℕ} (hgrows : Grows orders orders')
    (hm : Carries orders m p) : Carries orders' m p := by
  rcases hm with hexecuted | ⟨hclosed, c, d, hp, hdepth⟩
  · exact Or.inl hexecuted
  · exact Or.inr ⟨hclosed, c, d, hgrows _ _ hp, hdepth⟩

theorem Inherits.mono {r : Run} {p : ℕ} (hgrows : Grows orders orders')
    (hr : Inherits orders r p) : Inherits orders' r p := by
  rcases hr with ⟨c, d, hp, hlt, hdepth⟩
  exact ⟨c, d, hgrows _ _ hp, hlt, hdepth⟩

theorem linked_start : Linked State.start := by
  constructor
  · intro m hm
    cases hm
  · intro r hr
    cases hr
  · intro k p d hk
    cases hk

/-- Rows that keep their links keep everything. -/
theorem Linked.set {r r' : Order} (hi : Linked s) (hr : s.orders.get? r'.id = some r)
    (hlink : r'.link = r.link) : Linked { s with orders := s.orders.set r' } := by
  have hsame := linkAt_set hr hlink
  have hgrows : Grows s.orders (s.orders.set r') := by
    intro k l hk
    rw [hsame, hk]
  constructor
  · intro m hm p hp
    exact (hi.messages m hm p hp).mono hgrows
  · intro r hr p hp
    exact (hi.runs r hr p hp).mono hgrows
  · intro k p d hk
    rw [show linkAt (s.orders.set r') k = linkAt s.orders k from hsame k] at hk
    rw [show linkAt (s.orders.set r') p = linkAt s.orders p from hsame p]
    exact hi.orders k p d hk

theorem Linked.send {m : Message} (hi : Linked s)
    (hm : ∀ p, m.cause = some p → Carries s.orders m p) : Linked (s.send m) := by
  refine ⟨?_, hi.runs, hi.orders⟩
  intro m' hm' p hp
  rcases List.mem_append.mp hm' with hold | hnew
  · exact hi.messages m' hold p hp
  · rw [List.mem_singleton.mp hnew] at hp ⊢
    exact hm p hp

theorem Linked.run {r : Run} (hi : Linked s)
    (hr : ∀ p, r.cause = some p → Inherits s.orders r p) : Linked (s.run r) := by
  refine ⟨hi.messages, ?_, hi.orders⟩
  intro r' hr' p hp
  rcases List.mem_append.mp hr' with hold | hnew
  · exact hi.runs r' hold p hp
  · rw [List.mem_singleton.mp hnew] at hp ⊢
    exact hr p hp

/-- An order that is created is one deeper than its cause. -/
theorem Linked.create {account : ℕ} {source : Source} (hi : Linked s)
    (hsource : ∀ k p d, Order.link ⟨k, account, "", source⟩ = some (some p, d) →
      ∃ c e, linkAt s.orders p = some (c, e) ∧ e < MAX_AUTOMATION_CHAIN_DEPTH ∧ d = e + 1) :
    Linked (s.create account source) := by
  have hgrows : Grows s.orders (s.create account source).orders := by
    intro k l hk
    exact linkAt_create s account source hk
  constructor
  · intro m hm p hp
    exact (hi.messages m hm p hp).mono hgrows
  · intro r hr p hp
    exact (hi.runs r hr p hp).mono hgrows
  · intro k p d hk
    have hdeeper : ∃ c e, linkAt s.orders p = some (c, e) ∧ e < MAX_AUTOMATION_CHAIN_DEPTH ∧
        d = e + 1 := by
      rcases linkAt_create_cases s account source hk with hold | hnew
      · exact hi.orders k p d hold
      · exact hsource k p d hnew
    rcases hdeeper with ⟨c, e, hp, hlt, hd⟩
    exact ⟨c, e, hgrows _ _ hp, hlt, hd⟩

/-! ## The hops -/

theorem mem_latestOrder {account : ℕ} {contract_id : String} {r : Order}
    (hr : latestOrder orders account contract_id = some r) : r ∈ orders := by
  have hfold : ∀ (l : List Order) (best : Option Order),
      l.foldl (fun best r => if best.all (fun b => b.id < r.id) then some r else best) best =
        some r → r ∈ l ∨ best = some r := by
    intro l
    induction l with
    | nil => exact fun best hbest => Or.inr hbest
    | cons q l ih =>
      intro best hbest
      rw [List.foldl_cons] at hbest
      rcases ih _ hbest with hmem | hhead
      · exact Or.inl (List.mem_cons_of_mem q hmem)
      · split at hhead
        · cases hhead
          exact Or.inl List.mem_cons_self
        · exact Or.inr hhead
  rcases hfold _ none hr with hmem | hnone
  · exact List.mem_of_mem_filter hmem
  · cases hnone

/-- The order of a traded contract. -/
theorem of_traded {account : ℕ} {contract_id : String} {p : ℕ}
    (hp : s.traded account contract_id = some p) :
    ∃ r, s.orders.get? p = some r ∧ r.isNode = true := by
  rcases Option.bind_eq_some_iff.mp hp with ⟨c, _, hc⟩
  rcases Option.map_eq_some_iff.mp hc with ⟨r, hr, hid⟩
  rcases Option.filter_eq_some_iff.mp hr with ⟨hrow, hnode⟩
  have hpk : r.id = c.order := Table.pk_of_get? hrow
  refine ⟨r, ?_, hnode⟩
  rw [← hid, hpk]
  exact hrow

/-- The event of a closed trade carries the depth of the order it finds. -/
theorem carries_closed {account : ℕ} {contract_id : String} {rest : Dict} {p : ℕ}
    (hg : FindsOrder s (.closed account contract_id rest))
    (hp : s.traded account contract_id = some p) :
    Carries s.orders ⟨"TradeClosed",
      brokerPayload (((latestOrder s.orders account contract_id).map Order.automation).getD [])
        rest, s.traded account contract_id⟩ p := by
  rcases of_traded hp with ⟨r, hr, hnode⟩
  have hlatest : latestOrder s.orders account contract_id = some r := by
    rcases Option.map_eq_some_iff.mp (hg p hp) with ⟨q, hq, hid⟩
    have hrow : s.orders.get? q.id = some q := Table.get?_pk (mem_latestOrder hq)
    rw [hid, hr, Option.some.injEq] at hrow
    rw [hrow]
    exact hq
  rcases link_of_isNode hnode with ⟨routing, context, cause, hsource, hlink⟩
  refine Or.inr ⟨rfl, cause, context.depth, ?_, ?_⟩
  · rw [linkAt, hr, Option.bind_some, hlink]
  · rw [hlatest, Option.map_some, Option.getD_some, automation_of_node hsource]
    exact depth_brokerPayload context rest

theorem carries_executed {r : Order} (hnode : r.isNode = true) (rest : Dict) (cause : Option ℕ)
    (p : ℕ) : Carries orders ⟨"TradeExecuted", brokerPayload r.automation rest, cause⟩ p := by
  rcases link_of_isNode hnode with ⟨routing, context, _, hsource, _⟩
  refine Or.inl ⟨rfl, ?_⟩
  show Dict.get (brokerPayload r.automation rest) "origin_workflow_id" ≠ .none
  rw [automation_of_node hsource, origin_brokerPayload]
  exact fun hnone => nomatch hnone

/-- An execution inherits the depth of a message that is passed on. -/
theorem inherits_of_carries {m : Message} {pk : ℕ+} {workflow_id p : ℕ}
    (hm : Carries orders m p)
    (hpassed : suppressed h m.event_name (eventPayload pk m.payload) = false) :
    Inherits orders ⟨workflow_id, eventPayload pk m.payload, m.cause⟩ p := by
  simp only [suppressed, origin_eventPayload, Bool.or_eq_false_iff, Bool.and_eq_false_iff,
    beq_eq_false_iff_ne, decide_eq_false_iff_not, not_le] at hpassed
  rcases hm with ⟨hname, horigin⟩ | ⟨hname, c, d, hp, hdepth⟩
  · -- events of executed trades are not passed on
    rcases hpassed.1 with hother | hnone
    · exact absurd hname hother
    · split at hnone
      · next horigin' => exact absurd horigin' horigin
      · cases hnone
  · rcases hpassed.2 with hother | hlt
    · exact absurd hname hother
    · refine ⟨c, d, hp, ?_, ?_⟩
      · rwa [automation_depth_of_nat ((depth_eventPayload pk m.payload).trans hdepth)] at hlt
      · exact (parent_depth_eventPayload pk m.payload).trans hdepth

theorem step_linked (hg : FindsOrder s a) (hi : Linked s) (hs : step h s a = some s') :
    Linked s' := by
  cases a with
  | receive event_name payload =>
    cases hs
    exact hi.send fun p hp => nomatch hp
  | execute workflow_id payload =>
    cases hs
    exact hi.run fun p hp => nomatch hp
  | order account routing =>
    cases hs
    exact hi.create fun k p d hk => nomatch hk
  | handle i pk workflow =>
    rcases Option.bind_eq_some_iff.mp hs with ⟨m, hm, hrun⟩
    dsimp only at hrun
    split at hrun
    · next hpassed =>
      cases hrun
      simp only [Bool.and_eq_true, Bool.not_eq_true'] at hpassed
      refine hi.run fun p hp => ?_
      exact inherits_of_carries (hi.messages m (List.mem_of_getElem? hm) p hp) hpassed.2
    · cases hrun
  | trade j account node_id martingale routing =>
    rcases Option.map_eq_some_iff.mp hs with ⟨r, hr, rfl⟩
    refine hi.create ?_
    intro k p d hlink
    have hlink : some (r.cause, parent_depth h r.payload + 1) = some (some p, d) := hlink
    simp only [Option.some.injEq, Prod.mk.injEq] at hlink
    rcases hi.runs r (List.mem_of_getElem? hr) p hlink.1 with ⟨c, e, hp, hlt, hdepth⟩
    refine ⟨c, e, hp, hlt, ?_⟩
    rw [← hlink.2, parent_depth_of_nat hdepth hlt]
  | buy order contract_id =>
    rcases Option.bind_eq_some_iff.mp hs with ⟨r, _, hbuy⟩
    split at hbuy
    · cases hbuy
      exact ⟨hi.messages, hi.runs, hi.orders⟩
    · cases hbuy
  | record order =>
    rcases Option.bind_eq_some_iff.mp hs with ⟨r, hr, hrecord⟩
    rcases Option.map_eq_some_iff.mp hrecord with ⟨c, _, rfl⟩
    have hpk : r.id = order := Table.pk_of_get? hr
    have hrow : s.orders.get? r.id = some r := by rw [hpk, hr]
    exact hi.set (r := r) hrow rfl
  | note order key v =>
    rcases Option.bind_eq_some_iff.mp hs with ⟨r, hr, hnote⟩
    split at hnote
    · cases hnote
      have hpk : r.id = order := Table.pk_of_get? hr
      have hrow : s.orders.get? r.id = some r := by rw [hpk, hr]
      exact hi.set hrow (link_note key v r)
    · cases hnote
  | executed order rest =>
    rcases Option.map_eq_some_iff.mp hs with ⟨r, hr, rfl⟩
    refine hi.send ?_
    intro p hp
    cases hnode : r.isNode with
    | true => exact carries_executed hnode rest _ p
    | false =>
      rw [hnode] at hp
      cases hp
  | closed account contract_id rest =>
    cases hs
    exact hi.send fun p hp => carries_closed hg hp

/-! ## Chains -/

/-- A chain is not longer than the depth of its last order. -/
theorem length_le_depth (hi : Linked s) {k : ℕ} {ks : List ℕ}
    (hchain : isChain s.orders (k :: ks) = true) :
    ∃ c d, linkAt s.orders k = some (c, d) ∧ (k :: ks).length ≤ d ∧
      (ks ≠ [] → d ≤ MAX_AUTOMATION_CHAIN_DEPTH) := by
  induction ks generalizing k with
  | nil =>
    rcases (Option.any_eq_true _ _).mp hchain with ⟨r, hr, hnode⟩
    rcases link_of_isNode hnode with ⟨_, context, cause, _, hlink⟩
    refine ⟨cause, context.depth, ?_, Nat.succ_pos _, fun hne => absurd rfl hne⟩
    rw [linkAt, hr, Option.bind_some, hlink]
  | cons p ks ih =>
    simp only [isChain, Bool.and_eq_true] at hchain
    rcases (Option.any_eq_true _ _).mp hchain.1 with ⟨r, hr, hcause⟩
    rcases ih hchain.2 with ⟨c, e, hp, hlen, _⟩
    have hcause : r.cause = some p := beq_iff_eq.mp hcause
    have hnode : r.isNode = true := by
      unfold Order.cause at hcause
      unfold Order.isNode
      split at hcause
      · cases hcause
      · rfl
    rcases link_of_isNode hnode with ⟨_, context, cause, hsource, hlink⟩
    have hsome : cause = some p := by
      rw [Order.cause, hsource] at hcause
      exact hcause
    subst hsome
    have hk : linkAt s.orders k = some (some p, context.depth) := by
      rw [linkAt, hr, Option.bind_some, hlink]
    rcases hi.orders k p context.depth hk with ⟨c', e', hp', hlt, hd⟩
    rw [hp, Option.some.injEq, Prod.mk.injEq] at hp'
    refine ⟨some p, context.depth, hk, ?_, fun _ => ?_⟩
    · rw [hd, List.length_cons, ← hp'.2]
      omega
    · omega

/-- A chain of automation orders is not longer than the limit. -/
theorem chain_bounded {as : List Action}
    (hrun : (automation h).RunIf FindsOrder State.start as t) {ks : List ℕ}
    (hchain : isChain t.orders ks = true) : ks.length ≤ MAX_AUTOMATION_CHAIN_DEPTH := by
  have hlinked : Linked t := by
    refine hrun.invariant ?_ linked_start
    intro s a s' hg hi hs
    exact step_linked hg hi hs
  cases ks with
  | nil => exact Nat.zero_le _
  | cons k ks =>
    rcases length_le_depth hlinked hchain with ⟨c, d, _, hlen, hle⟩
    cases ks with
    | nil => exact Nat.succ_le_of_lt (by decide)
    | cons p ks => exact hlen.trans (hle (List.cons_ne_nil p ks))

end Steps

/-! ## Concrete runs -/

/-- An event triggers a workflow, and `n` times the closed trade of its order the next one. The
broker's reply may be lost. -/
def tradeAgain (n : ℕ) (replied : Bool) : List Action :=
  .receive "Signal" [] :: (List.range n).flatMap fun k =>
    [.handle k 1 ⟨7, .str (if k = 0 then "Signal" else "TradeClosed")⟩,
      .trade k 1 "action-1" false [], .buy (k + 1) (toString (k + 1))] ++
      (if replied then [.record (k + 1)]
        else [.note (k + 1) "execution_state" (.str "unknown_timeout")]) ++
      [.closed 1 (toString (k + 1)) []]

/-- Five orders, each found by the event of its closed trade. -/
theorem chain_bounded_five :
    ∃ t, (automation .ascii).RunIf FindsOrder State.start (tradeAgain 5 true) t ∧
      isChain t.orders [5, 4, 3, 2, 1] = true ∧
      [5, 4, 3, 2, 1].length ≤ MAX_AUTOMATION_CHAIN_DEPTH := by
  have hfive : ((automation .ascii).execIf FindsOrder State.start (tradeAgain 5 true)).any
      (fun t => isChain t.orders [5, 4, 3, 2, 1]) = true := by decide +kernel
  rcases (Option.any_eq_true _ _).mp hfive with ⟨t, ht, hchain⟩
  have hrun := Machine.runIf_of_execIf ht
  exact ⟨t, hrun, hchain, chain_bounded hrun hchain⟩

/-- The event of the fifth closed trade is not passed on. -/
example : ((automation .ascii).exec State.start (tradeAgain 6 true)).isNone = true := by
  decide +kernel

/-- The submissions time out, no closed trade finds its order, and every event starts at depth 0. -/
theorem chain_unbounded :
    ∃ t, (automation .ascii).Run State.start (tradeAgain 6 false) t ∧
      isChain t.orders [6, 5, 4, 3, 2, 1] = true ∧
      MAX_AUTOMATION_CHAIN_DEPTH < [6, 5, 4, 3, 2, 1].length := by
  have hsix : ((automation .ascii).exec State.start (tradeAgain 6 false)).any
      (fun t => isChain t.orders [6, 5, 4, 3, 2, 1]) = true := by decide +kernel
  rcases (Option.any_eq_true _ _).mp hsix with ⟨t, ht, hchain⟩
  exact ⟨t, Machine.exec_eq_some_iff.mp ht, hchain, by decide⟩

end AlgoBot.Automation.Chains
