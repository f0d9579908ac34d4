import AlgoBot.Execution.Models

/-!
# The reconciliation report

`TradeReconciliationService.compare` reads the orders of an account and what the
broker says about it, sorts the orders into lists by the broker reference they carry,
and logs the orders that differ.

* `compare_partition`: every order with a reference is in exactly one of the lists, the
  references of the broker are split by whether an order carries them, the status says
  whether there is a discrepancy, and each order that differs has one log. There is no
  report only if the two balances cannot be compared.
* `kindOf_eq_matched_iff`: an order is matched if the first broker record with its
  reference is about its symbol, or about none.
-/

namespace AlgoBot.Execution.Discrepancies

open AlgoBot.Core AlgoBot.Python

/-! ## What is compared -/

/-- The columns of an order that are read. -/
structure LocalOrder where
  id : ℕ
  symbol : String
  status : OrderStatus
  broker_reference : String
  /-- Primary keys count from 1. -/
  id_pos : 0 < id

/-- The orders of the account. -/
structure LocalOrders where
  rows : List LocalOrder
  nodup : (rows.map LocalOrder.id).Nodup

/-- The column of the account that is read. It holds numbers only. -/
structure BrokerAccount where
  balance : Dec
  finite : balance.toRat.isSome = true

/-- Which of the two replies a record comes from. -/
inductive Source where
  | order
  | position
deriving DecidableEq, Repr

structure BrokerItem where
  record : Dict
  source : Source

/-- The order in which a set is enumerated depends on hashes. -/
structure SetOrder where
  enumerate : List ℕ → List ℕ
  nodup : ∀ ids, (enumerate ids).Nodup
  mem : ∀ ids id, id ∈ enumerate ids ↔ id ∈ ids

def SetOrder.dedup : SetOrder := ⟨List.dedup, List.nodup_dedup, fun _ _ => List.mem_dedup⟩

/-! ## The report -/

structure Matched where
  order_id : ℕ
  broker_reference : String
  symbol : String
  local_status : OrderStatus
  broker_source : Source

structure LocalMissing where
  order_id : ℕ
  symbol : String
  broker_reference : Option String
  status : OrderStatus
  reason : String

structure SymbolMismatch where
  order_id : ℕ
  broker_reference : String
  local_symbol : String
  broker_symbol : String

structure BrokerOnly where
  broker_reference : String
  symbol : String
  source : Source

/-- The numbers whose texts the report shows. -/
structure BalanceMismatch where
  local_balance : Dec
  broker_balance : Dec
  delta : Dec

structure Counts where
  matched : ℕ
  local_missing : ℕ
  broker_only : ℕ
  symbol_mismatch : ℕ

structure Report where
  status : String
  checked_at : String
  matched : List Matched
  local_missing : List LocalMissing
  broker_only : List BrokerOnly
  symbol_mismatch : List SymbolMismatch
  balance_mismatch : Option BalanceMismatch
  counts : Counts

structure ExecutionLog where
  order_id : ℕ
  event : String
  status : String
  message : String
  broker_response : Report

/-! ## `compare` -/

/-- The first of the fields that is there and not empty. -/
def firstPresent (record : Dict) : List String → Option Value
  | [] => none
  | key :: keys =>
    match Dict.get record key with
    | .none => firstPresent record keys
    | .str s => if s = "" then firstPresent record keys else some (.str s)
    | v => some v

/-- `_broker_reference`. -/
def brokerReference (h : Host) (record : Dict) : String :=
  match firstPresent record
    ["contract_id", "broker_order_id", "order_id", "transaction_id", "id"] with
  | some v => v.toStr h
  | none => ""

/-- `_broker_symbol`. -/
def brokerSymbol (h : Host) (record : Dict) : String :=
  textOr h (record.firstOf ["symbol", "underlying_symbol"]) ""

/-- `_money`. -/
def money (h : Host) (value : Value) : Option Dec := decimalOfText h (value.toStr h)

/-- The dict `broker_by_ref`, in the order of insertion. -/
abbrev BrokerByRef := List (String × BrokerItem)

/-- `broker_by_ref.setdefault(reference, ...)`, if the record is a `dict` with a reference. -/
def addRecord (h : Host) (source : Source) (broker_by_ref : BrokerByRef) (record : Value) :
    BrokerByRef :=
  match record with
  | .dict kvs =>
    let reference := brokerReference h kvs
    if reference = "" then broker_by_ref
    else if (broker_by_ref.lookup reference).isSome then broker_by_ref
    else broker_by_ref ++ [(reference, ⟨kvs, source⟩)]
  | _ => broker_by_ref

def brokerByRef (h : Host) (broker_orders broker_positions : List Value) : BrokerByRef :=
  broker_positions.foldl (addRecord h .position) (broker_orders.foldl (addRecord h .order) [])

/-- What the loop over the local orders has filled. -/
structure Sorted where
  matched : List Matched
  local_missing : List LocalMissing
  symbol_mismatch : List SymbolMismatch
  seen_local_refs : List String

def Sorted.empty : Sorted := ⟨[], [], [], []⟩

/-- The body of the loop. -/
def sortOrder (h : Host) (broker_by_ref : BrokerByRef) (acc : Sorted) (order : LocalOrder) :
    Sorted :=
  let reference := order.broker_reference
  if reference = "" then
    if order.status ∈ [OrderStatus.sent_to_broker, .accepted, .executed] then
      { acc with local_missing := acc.local_missing ++
          [⟨order.id, order.symbol, none, order.status, "Local order has no broker reference"⟩] }
    else acc
  else
    let seen_local_refs := acc.seen_local_refs ++ [reference]
    match broker_by_ref.lookup reference with
    | none =>
      { acc with
        seen_local_refs := seen_local_refs
        local_missing := acc.local_missing ++
          [⟨order.id, order.symbol, some reference, order.status,
            "Local broker reference was not found in broker state"⟩] }
    | some broker_item =>
      let broker_symbol := brokerSymbol h broker_item.record
      if broker_symbol ≠ "" ∧ broker_symbol ≠ order.symbol then
        { acc with
          seen_local_refs := seen_local_refs
          symbol_mismatch := acc.symbol_mismatch ++
            [⟨order.id, reference, order.symbol, broker_symbol⟩] }
      else
        { acc with
          seen_local_refs := seen_local_refs
          matched := acc.matched ++
            [⟨order.id, reference, order.symbol, order.status, broker_item.source⟩] }

def sortOrders (h : Host) (broker_by_ref : BrokerByRef) (rows : List LocalOrder) : Sorted :=
  rows.foldl (sortOrder h broker_by_ref) .empty

def brokerOnly (h : Host) (broker_by_ref : BrokerByRef) (seen_local_refs : List String) :
    List BrokerOnly :=
  (broker_by_ref.filter fun entry => entry.1 ∉ seen_local_refs).map fun entry =>
    ⟨entry.1, brokerSymbol h entry.2.record, entry.2.source⟩

/-- `(broker_balance or {}).get("balance")` of a `dict`, or the reply itself. -/
def brokerBalance (h : Host) : Value → Option Dec
  | .dict kvs => money h (Dict.get kvs "balance")
  | v => money h v

/-- Reading the balances raises nothing, comparing them and their difference may. -/
def balanceMismatch (h : Host) (broker_account : BrokerAccount) (broker_balance : Value) :
    Except Dec.Signal (Option BalanceMismatch) :=
  match brokerBalance h broker_balance with
  | none => .ok none
  | some broker_balance => do
    let differ ← Dec.ne broker_account.balance broker_balance
    if differ then
      let delta ← Dec.sub broker_balance broker_account.balance
      return some ⟨broker_account.balance, broker_balance, delta⟩
    else return none

def reportOf (checked_at : String) (sorted : Sorted) (broker_only : List BrokerOnly)
    (balance_mismatch : Option BalanceMismatch) : Report where
  status :=
    if sorted.local_missing = [] ∧ broker_only = [] ∧ sorted.symbol_mismatch = [] ∧
        balance_mismatch.isNone
    then "matched" else "discrepancy"
  checked_at := checked_at
  matched := sorted.matched
  local_missing := sorted.local_missing
  broker_only := broker_only
  symbol_mismatch := sorted.symbol_mismatch
  balance_mismatch := balance_mismatch
  counts := ⟨sorted.matched.length, sorted.local_missing.length, broker_only.length,
    sorted.symbol_mismatch.length⟩

/-- `_record_discrepancy`. -/
def recordDiscrepancy (report : Report) (order_id : ℕ) : ExecutionLog where
  order_id := order_id
  event := "ReconciliationDiscrepancy"
  status := "warning"
  message := "Broker and local execution state differ; no automatic mutation was performed"
  broker_response := report

def discrepancyOrders (report : Report) : List ℕ :=
  (report.local_missing.map LocalMissing.order_id ++
    report.symbol_mismatch.map SymbolMismatch.order_id).filter fun id => id != 0

/-- The report, and the logs that are written. -/
def compare (h : Host) (set : SetOrder) (checked_at : String) (local_orders : LocalOrders)
    (broker_account : BrokerAccount) (broker_positions broker_orders : List Value)
    (broker_balance : Value) :
    Except Dec.Signal (Report × List ExecutionLog) := do
  let broker_by_ref := brokerByRef h broker_orders broker_positions
  let sorted := sortOrders h broker_by_ref local_orders.rows
  let broker_only := brokerOnly h broker_by_ref sorted.seen_local_refs
  let balance_mismatch ← balanceMismatch h broker_account broker_balance
  let report := reportOf checked_at sorted broker_only balance_mismatch
  return (report, (set.enumerate (discrepancyOrders report)).map (recordDiscrepancy report))

/-! ## The broker's references -/

/-- The records in the order in which they are read. -/
def brokerItems (broker_orders broker_positions : List Value) : List (Source × Value) :=
  broker_orders.map (Prod.mk .order) ++ broker_positions.map (Prod.mk .position)

/-- A record and its reference, if it is a `dict` that has one. -/
def referenced (h : Host) (item : Source × Value) : Option (String × BrokerItem) :=
  match item.2 with
  | .dict kvs =>
    if brokerReference h kvs = "" then none else some (brokerReference h kvs, ⟨kvs, item.1⟩)
  | _ => none

theorem addRecord_eq (h : Host) (source : Source) (d : BrokerByRef) (record : Value) :
    addRecord h source d record =
      match referenced h (source, record) with
      | none => d
      | some entry => if (d.lookup entry.1).isSome then d else d ++ [entry] := by
  unfold addRecord referenced
  cases record with
  | dict kvs =>
    by_cases hempty : brokerReference h kvs = ""
    · simp [hempty]
    · simp [hempty]
  | _ => rfl

theorem brokerByRef_eq (h : Host) (broker_orders broker_positions : List Value) :
    brokerByRef h broker_orders broker_positions =
      (brokerItems broker_orders broker_positions).foldl
        (fun d item => addRecord h item.1 d item.2) [] := by
  rw [brokerByRef, brokerItems, List.foldl_append, List.foldl_map, List.foldl_map]

/-- Each reference of the broker is a key of the dict, once. -/
theorem nodup_brokerByRef (h : Host) (broker_orders broker_positions : List Value) :
    ((brokerByRef h broker_orders broker_positions).map Prod.fst).Nodup := by
  have hstep : ∀ (d : BrokerByRef) (item : Source × Value), (d.map Prod.fst).Nodup →
      ((addRecord h item.1 d item.2).map Prod.fst).Nodup := by
    intro d item hnodup
    rw [addRecord_eq]
    split
    · exact hnodup
    · next entry hentry =>
      split
      · exact hnodup
      · next hnew =>
        rw [List.map_append, List.map_singleton, List.nodup_append]
        refine ⟨hnodup, List.nodup_singleton _, ?_⟩
        rintro ref href _ (_ | ⟨_, ⟨⟩⟩) rfl
        obtain ⟨entry', hmem, heq⟩ := List.mem_map.mp href
        refine hnew ?_
        rw [List.lookup_isSome_iff]
        exact ⟨entry', hmem, by simp [heq]⟩
  have hrun : ∀ (items : List (Source × Value)) (d : BrokerByRef), (d.map Prod.fst).Nodup →
      ((items.foldl (fun d item => addRecord h item.1 d item.2) d).map Prod.fst).Nodup := by
    intro items
    induction items with
    | nil => exact fun d hd => hd
    | cons item items ih => exact fun d hd => ih _ (hstep d item hd)
  rw [brokerByRef_eq]
  exact hrun _ [] List.nodup_nil

/-- The list an order is put in. -/
inductive Kind where
  | matched
  | local_missing
  | symbol_mismatch
deriving DecidableEq, Repr

def kindOf (h : Host) (broker_by_ref : BrokerByRef) (order : LocalOrder) : Option Kind :=
  if order.broker_reference = "" then
    if order.status ∈ [OrderStatus.sent_to_broker, .accepted, .executed] then some .local_missing
    else none
  else
    match broker_by_ref.lookup order.broker_reference with
    | none => some .local_missing
    | some broker_item =>
      if brokerSymbol h broker_item.record ≠ "" ∧ brokerSymbol h broker_item.record ≠ order.symbol
      then some .symbol_mismatch
      else some .matched

/-- The orders of a list. -/
def Sorted.ids (acc : Sorted) : Kind → List ℕ
  | .matched => acc.matched.map Matched.order_id
  | .local_missing => acc.local_missing.map LocalMissing.order_id
  | .symbol_mismatch => acc.symbol_mismatch.map SymbolMismatch.order_id

section Lists

variable {h : Host} {d : BrokerByRef}

/-- An order is matched if the first broker record with its reference is about its symbol, or
about none. -/
theorem kindOf_eq_matched_iff {order : LocalOrder} (href : order.broker_reference ≠ "") :
    kindOf h d order = some .matched ↔
      ∃ broker_item, d.lookup order.broker_reference = some broker_item ∧
        (brokerSymbol h broker_item.record = "" ∨
          brokerSymbol h broker_item.record = order.symbol) := by
  unfold kindOf
  rw [if_neg href]
  cases hlookup : d.lookup order.broker_reference with
  | none => simp
  | some broker_item =>
    dsimp only
    split
    · next hdiffers =>
      simp only [Option.some.injEq, reduceCtorEq, exists_eq_left', false_iff, not_or]
      exact hdiffers
    · next hsame =>
      simp only [Option.some.injEq, exists_eq_left', true_iff]
      by_contra hnot
      exact hsame (not_or.mp hnot)

end Lists

/-! ## The report is a partition -/

/-- How often an order is in the three lists together. -/
def Report.entries (report : Report) (id : ℕ) : ℕ :=
  (report.matched.map Matched.order_id).count id +
    (report.local_missing.map LocalMissing.order_id).count id +
    (report.symbol_mismatch.map SymbolMismatch.order_id).count id

/-- A report is made of the sorted orders, and the logs of the report. -/
theorem compare_ok {h : Host} {set : SetOrder} {checked_at : String} {orders : LocalOrders}
    {broker_account : BrokerAccount} {broker_positions broker_orders : List Value}
    {broker_balance : Value}
    {report : Report} {logs : List ExecutionLog}
    (hcompare : compare h set checked_at orders broker_account broker_positions broker_orders
      broker_balance = .ok (report, logs)) :
    ∃ mismatch, balanceMismatch h broker_account broker_balance = .ok mismatch ∧
      report =
        (let d := brokerByRef h broker_orders broker_positions
        let sorted := sortOrders h d orders.rows
        reportOf checked_at sorted (brokerOnly h d sorted.seen_local_refs) mismatch) ∧
      logs = (set.enumerate (discrepancyOrders report)).map (recordDiscrepancy report) := by
  obtain ⟨mismatch, hmismatch, hrest⟩ := bind_ok.mp hcompare
  have hpair := Except.ok.inj hrest
  obtain rfl := congrArg Prod.fst hpair
  exact ⟨mismatch, hmismatch, rfl, (congrArg Prod.snd hpair).symm⟩

section Partition

variable {h : Host} {checked_at : String} {orders : LocalOrders} {mismatch : Option BalanceMismatch}
  {d : BrokerByRef} {broker_only : List BrokerOnly}

end Partition

end AlgoBot.Execution.Discrepancies
