import AlgoBot.Core.Machine
import AlgoBot.Core.Table
import AlgoBot.Python.Value

/-!
# Trade history

`DerivTradeHistoryService.sync` confirms the contracts of a statement one by one and
persists a row for each. A row is found by its contract id, or else by its transaction
id, and all its columns are overwritten, the contract id among them.

* `history_identity`: over any sequence of syncs no row changes or loses its contract
  id, rows hold the facts of the contract they are about, and a contract that has been
  persisted has exactly one row, if no record finds the row of another contract by its
  transaction id.
* `contract_taken_over`: a record that does.
-/

namespace AlgoBot.TradeHistory

open AlgoBot.Core AlgoBot.Python

/-! ## Normalised records -/

/-- The columns that come from the broker. -/
structure Trade where
  broker_contract_id : Option String
  broker_transaction_id : Option String
  broker_order_id : Option String
  reference_id : Option String
  symbol : Value
  display_name : Value
  instrument_type : Value
  contract_type : Value
  direction : Value
  duration : Option Dec
  duration_unit : Value
  barrier : Value
  buy_price : Option Dec
  entry_price : Option Dec
  sell_price : Option Dec
  exit_price : Option Dec
  stake : Option Dec
  payout : Option Dec
  profit_loss : Option Dec
  currency : Value
  status : String
  purchase_time : Option ℚ
  execution_time : Option ℚ
  settlement_time : Option ℚ
  expiry_time : Option ℚ
  broker_timestamp : Option ℚ
  raw_data : Dict

/-- What the interpreter and the database make of the broker's values: texts, timestamps
(`_epoch_datetime`), and whether the columns take a row. -/
structure Env where
  host : Host
  epoch : Value → Option ℚ
  fits : Trade → Bool

/-- `value in (None, "")`. -/
def isBlank : Value → Bool
  | .none => true
  | .str s => s == ""
  | _ => false

/-- `_first`. -/
def first (data : Dict) : List String → Value
  | [] => .none
  | key :: keys => if isBlank (data.get key) then first data keys else data.get key

/-- `str(v) if v is not None else None`. -/
def textOrNone (h : Host) : Value → Option String
  | .none => none
  | v => some (v.toStr h)

/-- `_decimal`. -/
def decimal (h : Host) (value : Value) : Option Dec :=
  if isBlank value then none else decimalOfText h (value.toStr h)

/-- `_epoch_datetime`. -/
def epochDatetime (env : Env) (value : Value) : Option ℚ :=
  if isBlank value then none else env.epoch value

/-- The status of a contract: its own word, or else one for its flags. -/
def statusOf (contract : Dict) : Value :=
  let status := first contract ["status", "status_display"]
  if status.truthy then status
  else if (contract.get "is_sold").truthy then .str "sold"
  else if (contract.get "is_expired").truthy then .str "expired"
  else .str "unknown"

/-- `normalize_deriv_trade`. -/
def normalizeDerivTrade (env : Env) (transaction_data contract_data : Value) : Trade :=
  let h := env.host
  let tx := transaction_data.asDict
  let contract := contract_data.asDict
  let contract_id := (first contract ["contract_id"]).or (first tx ["contract_id"])
  let transaction_id := (first tx ["transaction_id", "buy_transaction_id"]).or
    (first contract ["transaction_id"])
  let symbol := (first contract ["underlying_symbol", "symbol"]).or
    (first tx ["symbol", "underlying_symbol"])
  let purchase_time := (epochDatetime env (first contract ["purchase_time", "date_start"])).or
    (epochDatetime env (first tx ["transaction_time", "timestamp"]))
  { broker_contract_id := textOrNone h contract_id
    broker_transaction_id := textOrNone h transaction_id
    broker_order_id := textOrNone h ((first tx ["order_id"]).or (first contract ["order_id"]))
    reference_id := textOrNone h (first tx ["reference_id", "reference"])
    symbol := symbol
    display_name := (first contract ["display_name"]).or symbol
    instrument_type := first contract ["contract_category", "instrument_type"]
    contract_type := first contract ["contract_type", "contract_type_name", "shortcode"]
    direction := (first contract ["direction"]).or (first tx ["action"])
    duration := decimal h (first contract ["duration"])
    duration_unit := first contract ["duration_unit"]
    barrier := first contract ["barrier", "barrier_spot"]
    buy_price := decimal h (first contract ["buy_price", "purchase_price"])
    entry_price := decimal h (first contract ["entry_spot", "entry_price"])
    sell_price := decimal h (first contract ["sell_price", "sold_for"])
    exit_price := decimal h (first contract ["exit_spot", "exit_price"])
    stake := decimal h (first contract ["buy_price", "stake", "amount"])
    payout := decimal h (first contract ["payout"])
    profit_loss := decimal h (first contract ["profit", "profit_loss"])
    currency := (first contract ["currency"]).or (first tx ["currency"])
    status := h.lower ((statusOf contract).toStr h)
    purchase_time := purchase_time
    execution_time :=
      (epochDatetime env (first contract ["date_start", "purchase_time"])).or purchase_time
    settlement_time := epochDatetime env
      (first contract ["sell_time", "sell_spot_time", "exit_spot_time", "settlement_time"])
    expiry_time := epochDatetime env (first contract ["date_expiry", "expiry_time"])
    broker_timestamp :=
      (epochDatetime env (first tx ["transaction_time", "timestamp"])).or purchase_time
    raw_data := [("transaction", .dict tx), ("contract", .dict contract)] }

/-! ## Rows -/

structure BrokerTradeHistory where
  pk : ℕ
  user_id : ℕ
  broker_account : ℕ
  facts : Trade
  last_synced_at : ℚ

instance : HasPk BrokerTradeHistory := ⟨BrokerTradeHistory.pk⟩

@[simp] theorem pk_history (r : BrokerTradeHistory) : HasPk.pk r = r.pk := rfl

/-- A broker id of a row. -/
inductive IdColumn where
  | broker_contract_id
  | broker_transaction_id

def IdColumn.get : IdColumn → Trade → Option String
  | .broker_contract_id, t => t.broker_contract_id
  | .broker_transaction_id, t => t.broker_transaction_id

/-- The value of an id column that counts for lookups and constraints. -/
def IdColumn.id? (col : IdColumn) (t : Trade) : Option String :=
  (col.get t).filter fun id => id != ""

/-- Two rows of an account with the same id. -/
def SameId (col : IdColumn) (a b : BrokerTradeHistory) : Prop :=
  a.broker_account = b.broker_account ∧ ∃ id, col.id? a.facts = some id ∧ col.id? b.facts = some id

theorem SameId.symm (col : IdColumn) (a b : BrokerTradeHistory) (h : SameId col a b) :
    SameId col b a := by
  rcases h with ⟨hacc, id, ha, hb⟩
  exact ⟨hacc.symm, id, hb, ha⟩

/-- The table, with `unique_trade_contract_per_account` and
`unique_trade_transaction_per_account`. -/
structure Histories where
  table : Table BrokerTradeHistory
  unique : ∀ col, Table.Unique (SameId col) table

/-- The table without rows. -/
def Histories.empty : Histories := ⟨Table.empty, fun col => Table.unique_empty (SameId col)⟩

/-- The account of a service. -/
structure Account where
  pk : ℕ
  user_id : ℕ

/-- What a sync may raise. -/
inductive SyncError where
  | authentication
  | connection
  | unexpected
  | TradeHistorySyncError (message code : String) (retryable : Bool)
  | DataError
deriving DecidableEq, Repr

/-! ## Persisting -/

section Persist

variable {s : Histories} {account : Account} {row : Trade} {a b : BrokerTradeHistory}
  {col : IdColumn} {id : String}

/-- `filter(broker_account=..., <column>=...).first()`, where the record has a value. -/
def lookup (s : Histories) (account : Account) (col : IdColumn) (row : Trade) :
    Option BrokerTradeHistory :=
  (col.id? row).bind fun id =>
    s.table.find? fun r => r.broker_account == account.pk && col.id? r.facts == some id

theorem lookup_spec (h : lookup s account col row = some a) :
    a ∈ s.table ∧ a.broker_account = account.pk ∧
      ∃ id, col.id? row = some id ∧ col.id? a.facts = some id := by
  rcases Option.bind_eq_some_iff.mp h with ⟨id, hid, hfind⟩
  have hrow := Table.of_find? hfind
  rw [Bool.and_eq_true, beq_iff_eq, beq_iff_eq] at hrow
  exact ⟨Table.mem_of_find? hfind, hrow.1, id, hid, hrow.2⟩

/-- The row a lookup finds is the only one with the id. -/
theorem lookup_eq (ha : a ∈ s.table) (hacc : a.broker_account = account.pk)
    (hrow : col.id? row = some id) (hid : col.id? a.facts = some id) :
    lookup s account col row = some a := by
  cases hfind : lookup s account col row with
  | none =>
    rw [lookup, hrow, Option.bind_some] at hfind
    have hnot := Table.not_of_find?_none hfind ha
    simp [hacc, hid] at hnot
  | some b =>
    rcases lookup_spec hfind with ⟨hb, hbacc, id', hrow', hid'⟩
    rw [hrow] at hrow'
    cases hrow'
    have hsame : SameId col b a := ⟨hbacc.trans hacc.symm, id, hid', hid⟩
    rw [s.unique col b hb a ha hsame]

/-- `existing`, unless the two ids point to different rows. -/
def existing (s : Histories) (account : Account) (row : Trade) :
    Except SyncError (Option BrokerTradeHistory) :=
  match lookup s account .broker_contract_id row with
  | none => .ok (lookup s account .broker_transaction_id row)
  | some a =>
    match lookup s account .broker_transaction_id row with
    | none => .ok (some a)
    | some b =>
      if a.pk = b.pk then .ok (some a)
      else .error (.TradeHistorySyncError
        "Deriv returned conflicting contract and transaction identifiers." "BROKER_ID_CONFLICT"
        false)

/-- What the existing row is, by the lookup that found it. -/
theorem existing_cases {found : Option BrokerTradeHistory}
    (h : existing s account row = .ok found) :
    (lookup s account .broker_contract_id row = none ∧
      found = lookup s account .broker_transaction_id row) ∨
    (lookup s account .broker_contract_id row = found ∧
      ∀ b, lookup s account .broker_transaction_id row = some b → found = some b) := by
  unfold existing at h
  split at h
  · next hcontract =>
    cases h
    exact Or.inl ⟨hcontract, rfl⟩
  · next a hcontract =>
    right
    split at h
    · next htransaction =>
      cases h
      exact ⟨hcontract, by simp [htransaction]⟩
    · next b htransaction =>
      split at h
      · next hpk =>
        cases h
        refine ⟨hcontract, ?_⟩
        intro c hc
        rw [htransaction] at hc
        cases hc
        rw [Table.eq_of_pk_eq (lookup_spec hcontract).1 (lookup_spec htransaction).1 hpk]
      · cases h

/-- Whatever row has an id of the record is the existing one. -/
theorem existing_only {found : Option BrokerTradeHistory} (h : existing s account row = .ok found)
    (hb : b ∈ s.table) (hacc : b.broker_account = account.pk) (hrow : col.id? row = some id)
    (hid : col.id? b.facts = some id) : found = some b := by
  have hfind := lookup_eq hb hacc hrow hid
  rcases existing_cases h with ⟨hnone, hfound⟩ | ⟨hfound, hagree⟩
  · cases col with
    | broker_contract_id =>
      rw [hnone] at hfind
      cases hfind
    | broker_transaction_id => rw [hfound, hfind]
  · cases col with
    | broker_contract_id => rw [← hfound, hfind]
    | broker_transaction_id => exact hagree b hfind

theorem mem_of_existing (h : existing s account row = .ok (some a)) :
    a ∈ s.table ∧ a.broker_account = account.pk := by
  rcases existing_cases h with ⟨_, hfound⟩ | ⟨hfound, _⟩
  · exact ⟨(lookup_spec hfound.symm).1, (lookup_spec hfound.symm).2.1⟩
  · exact ⟨(lookup_spec hfound).1, (lookup_spec hfound).2.1⟩

/-- `setattr` of every column, and `save`. -/
def Histories.overwrite (s : Histories) (old new : BrokerTradeHistory) (hpk : new.pk = old.pk)
    (honly : ∀ col, ∀ b ∈ s.table, SameId col b new → b = old) : Histories where
  table := s.table.set new
  unique := by
    intro col
    refine (s.unique col).set (SameId.symm col) ?_
    intro q hq hk hclash
    rw [honly col q hq hclash] at hk
    exact hk hpk.symm

/-- `objects.create`. -/
def Histories.insert (s : Histories) (new : ℕ → BrokerTradeHistory)
    (hpk : ∀ k, HasPk.pk (new k) = k)
    (hnone : ∀ col k, ∀ b ∈ s.table, ¬ SameId col b (new k)) : Histories where
  table := s.table.create new hpk
  unique := by
    intro col
    refine (s.unique col).create (SameId.symm col) hpk ?_
    intro q hq
    exact hnone col _ q hq

/-- The loop body of `_persist_normalized`. -/
def persistRow (env : Env) (account : Account) (now : ℚ) (s : Histories) (row : Trade) :
    Except SyncError Histories :=
  let new := fun pk => (⟨pk, account.user_id, account.pk, row, now⟩ : BrokerTradeHistory)
  match h : existing s account row with
  | .error e => .error e
  | .ok (some old) =>
    if env.fits row then
      .ok (s.overwrite old (new old.pk) rfl (by
        rintro col b hb ⟨hacc, id, hid, hrow⟩
        exact (Option.some.inj (existing_only h hb hacc hrow hid)).symm))
    else .error .DataError
  | .ok none =>
    if env.fits row then
      .ok (s.insert new (fun _ => rfl) (by
        rintro col k b hb ⟨hacc, id, hid, hrow⟩
        cases existing_only h hb hacc hrow hid))
    else .error .DataError

/-- The transaction of `_persist_normalized`. -/
def persistNormalized (env : Env) (account : Account) (now : ℚ) :
    Histories → List Trade → Except SyncError Histories
  | s, [] => .ok s
  | s, row :: rows => do
    let s ← persistRow env account now s row
    persistNormalized env account now s rows

/-- The two ways a record is persisted. -/
theorem persistRow_cases {env : Env} {now : ℚ} {s' : Histories}
    (h : persistRow env account now s row = .ok s') :
    (∃ old, existing s account row = .ok (some old) ∧
      s'.table = s.table.set ⟨old.pk, account.user_id, account.pk, row, now⟩) ∨
    (existing s account row = .ok none ∧
      s'.table = s.table.create (fun pk => ⟨pk, account.user_id, account.pk, row, now⟩)
        fun _ => rfl) := by
  unfold persistRow at h
  dsimp only at h
  split at h
  · cases h
  · next old hold =>
    split at h
    · cases h
      exact Or.inl ⟨old, hold, rfl⟩
    · cases h
  · next hnone =>
    split at h
    · cases h
      exact Or.inr ⟨hnone, rfl⟩
    · cases h

end Persist

/-! ## One sync -/

/-- How a request to the broker may fail. -/
inductive BrokerFailure where
  | authentication
  | connection
  | order
  | other

/-- A sync: its account, what the broker answers, and the time. -/
structure Sync where
  account : Account
  transactions : Except BrokerFailure Value
  contract : Value → Except BrokerFailure Value
  now : ℚ

/-- `grouped`: the first transaction of each contract id not in `seen`. -/
def group (h : Host) : List String → List Value → List Dict
  | _, [] => []
  | seen, .dict tx :: txs =>
    match Dict.get tx "contract_id" with
    | .none => group h seen txs
    | contract_id =>
      if contract_id.toStr h ∈ seen then group h seen txs
      else tx :: group h (contract_id.toStr h :: seen) txs
  | seen, _ :: txs => group h seen txs

/-- `_contract`. -/
def Sync.contractOf (x : Sync) (contract_id : Value) : Except BrokerFailure Value :=
  if contract_id.truthy then x.contract contract_id else .ok (.dict [])

/-- The contract is the one that was asked for. -/
def confirms (h : Host) (contract contract_id : Value) : Bool :=
  contract.isDict &&
    ((contract.asDict.get "contract_id").or (.str "")).toStr h == contract_id.toStr h

/-- What the loop over the contracts has collected. -/
structure Progress where
  normalized : List Trade
  isPartial : Bool
  contract_failures : ℕ

/-- A contract that could not be had. -/
def Progress.fail (p : Progress) : Progress :=
  { p with isPartial := true, contract_failures := p.contract_failures + 1 }

/-- The loop over the contracts. -/
def confirmAll (env : Env) (x : Sync) : List Dict → Except SyncError Progress
  | [] => .ok ⟨[], false, 0⟩
  | tx :: txs =>
    let contract_id := tx.get "contract_id"
    match x.contractOf contract_id with
    | .error .authentication => .error .authentication
    | .error .connection => .error .connection
    | .error _ => (confirmAll env x txs).map Progress.fail
    | .ok contract =>
      if confirms env.host contract contract_id then
        let row := normalizeDerivTrade env (.dict tx) contract
        if row.broker_contract_id.getD "" = "" then
          (confirmAll env x txs).map fun p => { p with isPartial := true }
        else (confirmAll env x txs).map fun p => { p with normalized := row :: p.normalized }
      else (confirmAll env x txs).map Progress.fail

/-- What `sync` returns. -/
structure Summary where
  state : String
  count : ℕ
  contract_transactions : ℕ
  contract_failures : ℕ
  last_synced_at : ℚ

/-- `sync`. -/
def sync (env : Env) (s : Histories) (x : Sync) : Except SyncError (Summary × Histories) :=
  match x.transactions with
  | .error .authentication => .error .authentication
  | .error .connection => .error .connection
  | .error .order => .error (.TradeHistorySyncError
      "Deriv rejected the Trade History request." "BROKER_HISTORY_REJECTED" false)
  | .error .other => .error .unexpected
  | .ok (.list transactions) => do
    let grouped := group env.host [] transactions
    let p ← confirmAll env x grouped
    if !grouped.isEmpty && p.normalized.isEmpty then
      .error (.TradeHistorySyncError
        "Deriv returned trade transactions, but no contract details could be confirmed."
        "BROKER_CONTRACT_DETAILS_UNAVAILABLE" true)
    else do
      let s ← persistNormalized env x.account x.now s p.normalized
      let state :=
        if p.isPartial then "partial" else if p.normalized.isEmpty then "empty" else "success"
      return (⟨state, p.normalized.length, grouped.length, p.contract_failures, x.now⟩, s)
  | .ok _ => .error (.TradeHistorySyncError
      "Deriv returned an invalid Trade History payload." "BROKER_HISTORY_INVALID_PAYLOAD" true)

/-- The records of the contracts a sync confirms. -/
def records (env : Env) (x : Sync) : List Trade :=
  match x.transactions with
  | .ok (.list transactions) =>
    match confirmAll env x (group env.host [] transactions) with
    | .ok p => p.normalized
    | .error _ => []
  | _ => []

/-- A sync that returns has persisted the records of the contracts it confirms. -/
theorem persist_of_sync {env : Env} {s s' : Histories} {x : Sync} {r : Summary}
    (h : sync env s x = .ok (r, s')) :
    persistNormalized env x.account x.now s (records env x) = .ok s' := by
  unfold sync at h
  split at h
  · cases h
  · cases h
  · cases h
  · cases h
  · next transactions htransactions =>
    rcases bind_ok.mp h with ⟨p, hp, h⟩
    dsimp only at h
    split at h
    · cases h
    · rcases bind_ok.mp h with ⟨s₁, hpersist, h⟩
      cases h
      simpa [records, htransactions, hp] using hpersist
  · cases h

/-- The row's facts are those of the contract it is identified by. -/
def Genuine (env : Env) (row : Trade) : Prop :=
  ∃ (tx : Dict) (contract : Value) (id : String),
    row = normalizeDerivTrade env (.dict tx) contract ∧ id ≠ "" ∧
      row.broker_contract_id = some id ∧ (tx.get "contract_id").toStr env.host = id ∧
      (contract.asDict.get "contract_id").toStr env.host = id

theorem first_one (d : Dict) (key : String) :
    first d [key] = if isBlank (d.get key) then .none else d.get key := rfl

theorem not_isBlank {v : Value} (h : v.truthy = true) : isBlank v = false := by
  cases v with
  | none => cases h
  | str t => simpa [isBlank, Value.truthy] using h
  | bool b => rfl
  | int n => rfl
  | float r n => rfl
  | list xs => rfl
  | dict kvs => rfl

theorem textOrNone_of_truthy (h : Host) {v : Value} (hv : v.truthy = true) :
    textOrNone h v = some (v.toStr h) := by
  cases v with
  | none => cases hv
  | str t => rfl
  | bool b => rfl
  | int n => rfl
  | float r n => rfl
  | list xs => rfl
  | dict kvs => rfl

/-- A confirmed contract whose record has an id is identified by it. -/
theorem genuine_of_confirms {env : Env} {tx : Dict} {contract : Value}
    (hconfirms : confirms env.host contract (tx.get "contract_id") = true)
    (hid : (normalizeDerivTrade env (.dict tx) contract).broker_contract_id.getD "" ≠ "") :
    Genuine env (normalizeDerivTrade env (.dict tx) contract) := by
  have hsame : ((contract.asDict.get "contract_id").or (.str "")).toStr env.host =
      (tx.get "contract_id").toStr env.host := by
    rw [confirms, Bool.and_eq_true, beq_iff_eq] at hconfirms
    exact hconfirms.2
  have hnorm : (normalizeDerivTrade env (.dict tx) contract).broker_contract_id =
      textOrNone env.host ((first contract.asDict ["contract_id"]).or
        (first tx ["contract_id"])) := rfl
  by_cases hv : (contract.asDict.get "contract_id").truthy = true
  · have hfirst : first contract.asDict ["contract_id"] = contract.asDict.get "contract_id" := by
      rw [first_one, not_isBlank hv]
      rfl
    have hread : (normalizeDerivTrade env (.dict tx) contract).broker_contract_id =
        some ((contract.asDict.get "contract_id").toStr env.host) := by
      rw [hnorm, hfirst, Value.or, if_pos hv, textOrNone_of_truthy env.host hv]
    rw [Value.or, if_pos hv] at hsame
    refine ⟨tx, contract, _, rfl, ?_, hread, hsame.symm, rfl⟩
    rw [hread] at hid
    exact hid
  · -- without an id of its own the contract answers for a blank one, which gives no record
    rw [Value.or, if_neg hv, Value.toStr_str] at hsame
    exfalso
    apply hid
    have hskip : (first contract.asDict ["contract_id"]).or (first tx ["contract_id"]) =
        first tx ["contract_id"] := by
      rw [first_one]
      split
      · rfl
      · rw [Value.or, if_neg hv]
    rw [hnorm, hskip, first_one]
    split
    · rfl
    · cases htx : tx.get "contract_id" with
      | none => rfl
      | _ => rw [htx] at hsame; exact hsame.symm

theorem genuine_of_confirmAll {env : Env} {x : Sync} {txs : List Dict} {p : Progress}
    (h : confirmAll env x txs = .ok p) : ∀ row ∈ p.normalized, Genuine env row := by
  induction txs generalizing p with
  | nil =>
    cases h
    intro row hrow
    cases hrow
  | cons tx txs ih =>
    unfold confirmAll at h
    dsimp only at h
    split at h
    · cases h
    · cases h
    · rcases map_ok.mp h with ⟨q, hq, rfl⟩
      have hrest : ∀ row ∈ q.normalized, Genuine env row := ih hq
      exact hrest
    · next contract _ =>
      split at h
      · next hconfirms =>
        split at h
        · rcases map_ok.mp h with ⟨q, hq, rfl⟩
          have hrest : ∀ row ∈ q.normalized, Genuine env row := ih hq
          exact hrest
        · next hid =>
          rcases map_ok.mp h with ⟨q, hq, rfl⟩
          intro row hrow
          rcases List.mem_cons.mp hrow with rfl | hrow
          · exact genuine_of_confirms hconfirms hid
          · exact ih hq row hrow
      · rcases map_ok.mp h with ⟨q, hq, rfl⟩
        have hrest : ∀ row ∈ q.normalized, Genuine env row := ih hq
        exact hrest

theorem genuine_of_records {env : Env} {x : Sync} {row : Trade} (h : row ∈ records env x) :
    Genuine env row := by
  unfold records at h
  split at h
  · split at h
    · next p hp => exact genuine_of_confirmAll hp row h
    · cases h
  · cases h

theorem Genuine.id? {env : Env} {row : Trade} (h : Genuine env row) :
    ∃ id, row.broker_contract_id = some id ∧
      IdColumn.broker_contract_id.id? row = some id := by
  rcases h with ⟨_, _, id, _, hne, hid, _, _⟩
  refine ⟨id, hid, ?_⟩
  simp [IdColumn.id?, IdColumn.get, hid, hne]

/-! ## What a record does to the rows -/

/-- Row `k` is about this contract of the account. -/
def About (s : Histories) (k account : ℕ) (id : String) : Prop :=
  ∃ r ∈ s.table, r.pk = k ∧ r.broker_account = account ∧
    IdColumn.broker_contract_id.id? r.facts = some id

instance (s : Histories) (k account : ℕ) (id : String) : Decidable (About s k account id) :=
  inferInstanceAs (Decidable (∃ r ∈ s.table.rows, r.pk = k ∧ r.broker_account = account ∧
    IdColumn.broker_contract_id.id? r.facts = some id))

/-- The record is about a contract without a row, and its transaction id is the one of a row about
another contract. -/
def takesOver (s : Histories) (account : Account) (row : Trade) : Bool :=
  (lookup s account .broker_contract_id row).isNone &&
    (lookup s account .broker_transaction_id row).any fun b =>
      (IdColumn.broker_contract_id.id? b.facts).isSome

section Records

variable {env : Env} {s s' t : Histories} {account : Account} {now : ℚ} {row : Trade}
  {rows : List Trade} {k acc : ℕ} {id : String} {x : Sync}

/-- A record that takes over no row leaves all rows with their contracts. -/
theorem about_persistRow (h : persistRow env account now s row = .ok s')
    (hfree : takesOver s account row = false) (hs : About s k acc id) : About s' k acc id := by
  rcases hs with ⟨r, hr, hk, hacc, hid⟩
  rcases persistRow_cases h with ⟨old, hold, htable⟩ | ⟨_, htable⟩
  · rcases mem_of_existing hold with ⟨hmem, holdacc⟩
    by_cases hpk : r.pk = old.pk
    · have hrold : r = old := Table.eq_of_pk_eq hr hmem hpk
      subst hrold
      have hrow : IdColumn.broker_contract_id.id? row = some id := by
        rcases existing_cases hold with ⟨hnone, hfound⟩ | ⟨hfound, _⟩
        · -- found by its transaction id, so it would be taken over
          simp [takesOver, hnone, ← hfound, hid] at hfree
        · rcases lookup_spec hfound with ⟨_, _, id', hrow, hid'⟩
          rw [hid] at hid'
          cases hid'
          exact hrow
      refine ⟨⟨r.pk, account.user_id, account.pk, row, now⟩, ?_, hk, ?_, hrow⟩
      · rw [htable]
        exact Table.mem_set_self hr rfl
      · exact holdacc.symm.trans hacc
    · refine ⟨r, ?_, hk, hacc, hid⟩
      rw [htable]
      exact Table.mem_set_of_ne hr hpk
  · refine ⟨r, ?_, hk, hacc, hid⟩
    rw [htable]
    exact List.mem_cons_of_mem _ hr

/-- After a record its contract has a row. -/
theorem row_of_persistRow (h : persistRow env account now s row = .ok s') :
    ∃ r ∈ s'.table, r.broker_account = account.pk ∧ r.facts = row := by
  rcases persistRow_cases h with ⟨old, hold, htable⟩ | ⟨_, htable⟩
  · rcases mem_of_existing hold with ⟨hmem, _⟩
    refine ⟨⟨old.pk, account.user_id, account.pk, row, now⟩, ?_, rfl, rfl⟩
    rw [htable]
    exact Table.mem_set_self hmem rfl
  · refine ⟨⟨s.table.nextPk, account.user_id, account.pk, row, now⟩, ?_, rfl, rfl⟩
    rw [htable]
    exact List.mem_cons_self

/-- A row after a record was there before, or holds the facts of the record. -/
theorem of_mem_persistRow (h : persistRow env account now s row = .ok s')
    {r : BrokerTradeHistory} (hr : r ∈ s'.table) : r ∈ s.table ∨ r.facts = row := by
  rcases persistRow_cases h with ⟨old, _, htable⟩ | ⟨_, htable⟩
  · rw [htable] at hr
    rcases Table.mem_set hr with rfl | ⟨hr, _⟩
    · exact Or.inr rfl
    · exact Or.inl hr
  · rw [htable] at hr
    rcases Table.mem_create hr with rfl | hr
    · exact Or.inr rfl
    · exact Or.inl hr

/-! ## What a sync does to the rows -/

/-- No record of the loop takes over a row, at the table the records before it have left. -/
def Separate (env : Env) (account : Account) (now : ℚ) : Histories → List Trade → Prop
  | _, [] => True
  | s, row :: rows =>
    takesOver s account row = false ∧
      ∀ s', persistRow env account now s row = .ok s' → Separate env account now s' rows

/-- The loop persists records one after the other. -/
theorem persist_cons {rows : List Trade}
    (h : persistNormalized env account now s (row :: rows) = .ok t) :
    ∃ s', persistRow env account now s row = .ok s' ∧
      persistNormalized env account now s' rows = .ok t := by
  unfold persistNormalized at h
  exact bind_ok.mp h

theorem about_persist (h : persistNormalized env account now s rows = .ok t)
    (hfree : Separate env account now s rows) (hs : About s k acc id) : About t k acc id := by
  induction rows generalizing s with
  | nil =>
    cases h
    exact hs
  | cons row rows ih =>
    rcases persist_cons h with ⟨s', hrow, hrest⟩
    exact ih hrest (hfree.2 s' hrow) (about_persistRow hrow hfree.1 hs)

theorem represented_of_persist (h : persistNormalized env account now s rows = .ok t)
    (hfree : Separate env account now s rows) (hrow : row ∈ rows)
    (hid : IdColumn.broker_contract_id.id? row = some id) : ∃ k, About t k account.pk id := by
  induction rows generalizing s with
  | nil => cases hrow
  | cons first rows ih =>
    rcases persist_cons h with ⟨s', hfirst, hrest⟩
    rcases List.mem_cons.mp hrow with rfl | hrow
    · rcases row_of_persistRow hfirst with ⟨r, hr, hacc, hfacts⟩
      have hs' : About s' r.pk account.pk id := ⟨r, hr, rfl, hacc, by rw [hfacts, hid]⟩
      exact ⟨r.pk, about_persist hrest (hfree.2 s' hfirst) hs'⟩
    · exact ih hrest (hfree.2 s' hfirst) hrow

theorem of_mem_persist (h : persistNormalized env account now s rows = .ok t)
    {r : BrokerTradeHistory} (hr : r ∈ t.table) : r ∈ s.table ∨ r.facts ∈ rows := by
  induction rows generalizing s with
  | nil =>
    cases h
    exact Or.inl hr
  | cons row rows ih =>
    rcases persist_cons h with ⟨s', hrow, hrest⟩
    rcases ih hrest with hmem | hfacts
    · rcases of_mem_persistRow hrow hmem with hmem | hfacts
      · exact Or.inl hmem
      · exact Or.inr (hfacts ▸ List.mem_cons_self)
    · exact Or.inr (List.mem_cons_of_mem _ hfacts)

end Records

/-! ## Sequences of syncs -/

/-- The table after a sync; one that raises leaves it as it was. -/
def afterSync (env : Env) (s : Histories) (x : Sync) : Histories :=
  match sync env s x with
  | .ok (_, s') => s'
  | .error _ => s

/-- Syncs in any order, for any accounts. -/
def syncs (env : Env) : Machine Histories Sync := ⟨fun s x => some (afterSync env s x)⟩

/-- A sync that returns has taken over no row. -/
def KeepsApart (env : Env) (s : Histories) (x : Sync) : Prop :=
  (∃ r, sync env s x = .ok r) → Separate env x.account x.now s (records env x)

section Runs

variable {env : Env} {s t u : Histories} {x : Sync} {xs : List Sync} {k acc : ℕ} {id : String}

theorem afterSync_cases (env : Env) (s : Histories) (x : Sync) :
    afterSync env s x = s ∨ ∃ r, sync env s x = .ok r := by
  cases h : sync env s x with
  | error e => exact Or.inl (by simp [afterSync, h])
  | ok r => exact Or.inr ⟨r, rfl⟩

/-- A sync that returns has persisted all its records. -/
theorem persist_afterSync (hok : ∃ r, sync env s x = .ok r) :
    persistNormalized env x.account x.now s (records env x) = .ok (afterSync env s x) := by
  rcases hok with ⟨r, hr⟩
  have hafter : afterSync env s x = r.2 := by simp [afterSync, hr]
  rw [hafter]
  exact persist_of_sync hr

theorem about_afterSync (hfree : KeepsApart env s x) (hs : About s k acc id) :
    About (afterSync env s x) k acc id := by
  rcases afterSync_cases env s x with hsame | hok
  · rw [hsame]
    exact hs
  · exact about_persist (persist_afterSync hok) (hfree hok) hs

/-- Rows keep their contracts along the run. -/
theorem about_run (h : (syncs env).RunIf (KeepsApart env) s xs t) (hs : About s k acc id) :
    About t k acc id := by
  induction h with
  | nil s => exact hs
  | cons hfree hn _ ih =>
    cases hn
    exact ih (about_afterSync hfree hs)

/-- A contract has at most one row of an account. -/
theorem row_unique {a b : BrokerTradeHistory} (ha : a ∈ t.table) (hb : b ∈ t.table)
    (hacc : a.broker_account = b.broker_account)
    (hida : IdColumn.broker_contract_id.id? a.facts = some id)
    (hidb : IdColumn.broker_contract_id.id? b.facts = some id) : a = b :=
  t.unique .broker_contract_id a ha b hb ⟨hacc, id, hida, hidb⟩

/-- Rows hold the facts they held before, or those of the contract they are about. -/
theorem genuine_run (h : (syncs env).Run s xs t) {r : BrokerTradeHistory} (hr : r ∈ t.table) :
    r ∈ s.table ∨ Genuine env r.facts := by
  induction h with
  | nil s => exact Or.inl hr
  | @cons s s' t x xs _ hn _ ih =>
    rcases ih hr with hmem | hgenuine
    · cases hn
      rcases afterSync_cases env s x with hsame | hok
      · rw [hsame] at hmem
        exact Or.inl hmem
      · rcases of_mem_persist (persist_afterSync hok) hmem with hmem | hfacts
        · exact Or.inl hmem
        · exact Or.inr (genuine_of_records hfacts)
    · exact Or.inr hgenuine

/-- Over any sequence of syncs whose records take over no row of another contract, a row keeps its
contract, every row that has changed holds the facts of the contract it is about, and every
contract a sync has confirmed has exactly one row from then on. -/
theorem history_identity (env : Env) {s t : Histories} {xs : List Sync}
    (hrun : (syncs env).RunIf (KeepsApart env) s xs t) :
    (∀ k account id, About s k account id → About t k account id) ∧
    (∀ r ∈ t.table, r ∈ s.table ∨ Genuine env r.facts) ∧
    (∀ before x behind u, xs = before ++ x :: behind → (syncs env).Run s before u →
      (∃ r, sync env u x = .ok r) → ∀ row ∈ records env x,
        ∃! r, r ∈ t.table ∧ r.broker_account = x.account.pk ∧
          r.facts.broker_contract_id = row.broker_contract_id) := by
  refine ⟨fun _ _ _ => about_run hrun, fun r => ?_, ?_⟩
  · exact genuine_run (hrun.mono fun _ _ _ => trivial)
  · rintro before x behind u rfl hu hok row hrow
    rcases hrun.split with ⟨u', hbefore, hrest⟩
    obtain rfl : u' = u := Option.some.inj (hbefore.exec_eq.symm.trans hu.exec_eq)
    rcases (genuine_of_records hrow).id? with ⟨id, hrowid, hid⟩
    cases hrest with
    | cons hfree hn hbehind =>
      cases hn
      rcases represented_of_persist (persist_afterSync hok) (hfree hok) hrow hid with ⟨k, hk⟩
      rcases about_run hbehind hk with ⟨r, hr, _, hacc, hrid⟩
      have hread : ∀ q : BrokerTradeHistory, q.facts.broker_contract_id = row.broker_contract_id →
          IdColumn.broker_contract_id.id? q.facts = some id := by
        intro q hq
        rw [← hid]
        simp [IdColumn.id?, IdColumn.get, hq]
      have hfacts : r.facts.broker_contract_id = row.broker_contract_id := by
        have hsome : r.facts.broker_contract_id = some id :=
          (Option.filter_eq_some_iff.mp hrid).1
        rw [hsome, hrowid]
      refine ⟨r, ⟨hr, hacc, hfacts⟩, ?_⟩
      rintro q ⟨hq, hqacc, hqfacts⟩
      exact row_unique hq hr (hqacc.trans hacc.symm) (hread q hqfacts) hrid

end Runs

/-! ## A contract that is taken over -/

/-- An environment that reads no times and whose columns take everything. -/
def Env.plain : Env := ⟨Host.ascii, fun _ => none, fun _ => true⟩

/-- A sync of account 1 whose statement has one transaction, of a contract the broker confirms. -/
def statement (contract_id transaction_id : ℤ) : Sync where
  account := ⟨1, 7⟩
  transactions := .ok (.list [.dict
    [("contract_id", .int contract_id), ("transaction_id", .int transaction_id)]])
  contract := fun id => .ok (.dict [("contract_id", id)])
  now := 0

/-- Two contracts with transactions of their own. -/
theorem history_identity_two :
    ∃ t, (syncs .plain).Run Histories.empty [statement 11 900, statement 12 901] t ∧
      ∀ r ∈ t.table, r ∈ Histories.empty.table ∨ Genuine .plain r.facts := by
  have hfirst : KeepsApart .plain Histories.empty (statement 11 900) :=
    fun _ => ⟨by decide +kernel, fun _ _ => trivial⟩
  have hsecond : KeepsApart .plain (afterSync .plain Histories.empty (statement 11 900))
      (statement 12 901) := fun _ => ⟨by decide +kernel, fun _ _ => trivial⟩
  have hrun : (syncs .plain).RunIf (KeepsApart .plain) Histories.empty
      [statement 11 900, statement 12 901] _ := .cons hfirst rfl (.cons hsecond rfl (.nil _))
  exact ⟨_, hrun.mono fun _ _ _ => trivial, (history_identity .plain hrun).2.1⟩

/-- The row of contract 11 becomes the row of contract 12, which has the same transaction id. -/
theorem contract_taken_over :
    About (afterSync .plain Histories.empty (statement 11 900)) 1 1 "11" ∧
    ¬ About (afterSync .plain (afterSync .plain Histories.empty (statement 11 900))
      (statement 12 900)) 1 1 "11" := by
  decide +kernel

end AlgoBot.TradeHistory
