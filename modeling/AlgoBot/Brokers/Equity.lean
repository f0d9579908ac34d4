import AlgoBot.Core.Decimal
import AlgoBot.Python.Value

/-!
# The equity of an account

`RealtimeSyncService._sync_portfolio` adds up the profits of the open contracts,
reports the equity that follows from the balance, and saves the account with an
explicit list of fields. It never assigns the column it saves.

* `after_equity`: the saved equity is the one that was read.
* `equity_synced_iff`: the saved equity is the reported one, and the balance plus
  the profits, exactly if it was so before.
* `equity_left`: an account of 100 with a contract that has made 5.
-/

namespace AlgoBot.Brokers.Equity

open AlgoBot.Core AlgoBot.Python

/-! ## Rows -/

structure BrokerAccount where
  pk : ℕ
  account_id : String
  balance : Dec
  equity : Dec
  currency : String
  credentials : Dict
  last_synced_at : ℕ

/-- The event, with its amounts before they are written as text. -/
structure PortfolioUpdate where
  account_id : String
  contracts : List Dict
  unrealized_pnl : Dec
  equity : Dec
  balance : Dec
  currency : String

/-- The exceptions. -/
inductive Failure where
  | python (e : PyError)
  | signal (s : Dec.Signal)
deriving DecidableEq

/-- The interpreter, the text of a decimal, and the part of the sync that writes the positions:
`_persist_snapshot_sync` does not touch the account. -/
structure Env where
  host : Host
  text : Dec → String
  isoformat : ℕ → String
  persist_snapshot : ℕ → List Value → Except Failure Unit

/-! ## `_normalize_contract` -/

/-- The fields that are taken over as they are. -/
def normalizeContract (contract : Dict) : Dict :=
  [("contract_id", contract.get "contract_id"),
    ("symbol", contract.firstOf ["underlying_symbol", "symbol"]),
    ("contract_type", contract.get "contract_type"),
    ("buy_price", contract.get "buy_price"),
    ("bid_price", contract.get "bid_price"),
    ("profit", contract.get "profit"),
    ("status", (contract.get "status").or
      (.str (if (contract.get "is_sold").truthy then "closed" else "open"))),
    ("payout", contract.get "payout"),
    ("entry_spot", contract.get "entry_spot"),
    ("current_spot", contract.get "current_spot"),
    ("date_start", contract.get "date_start"),
    ("date_expiry", contract.get "date_expiry"),
    ("is_sold", contract.get "is_sold"),
    ("is_expired", contract.get "is_expired"),
    ("status_display", contract.get "status_display")]

/-- `value in (None, "")`. -/
def isBlank : Value → Bool
  | .none => true
  | .str s => s == ""
  | _ => false

/-- The loop over the contracts; what is no dict has no `get`. -/
def normalizeAll : List Value → Except Failure (List Dict)
  | [] => .ok []
  | .dict contract :: contracts => do
    let normalized ← normalizeAll contracts
    return if isBlank (Dict.get contract "contract_id") then normalized
      else normalizeContract contract :: normalized
  | _ :: _ => .error (.python .AttributeError)

/-! ## The sum -/

/-- `Decimal(str(item.get("profit")))`. -/
def profitOf (h : Host) (item : Dict) : Except Failure Dec :=
  match decimalOfText h ((item.get "profit").toStr h) with
  | some d => .ok d
  | none => .error (.signal .invalidOperation)

/-- `sum` of the profits that are there, from what has been added up. -/
def addProfits (h : Host) : Dec → List Dict → Except Failure Dec
  | total, [] => .ok total
  | total, item :: items => do
    if isBlank (item.get "profit") then addProfits h total items
    else
      let profit ← profitOf h item
      let total ← (Dec.add total profit).mapError .signal
      addProfits h total items

/-- The balance and the profits of the contracts. -/
def equityOf (h : Host) (balance : Dec) (normalized : List Dict) : Except Failure (Dec × Dec) := do
  let unrealized ← addProfits h (.finite false 0 0) normalized
  let equity ← (Dec.add balance unrealized).mapError .signal
  return (unrealized, equity)

/-! ## `_sync_portfolio` -/

/-- `portfolio.get("contracts") or []`, to be iterated over: a dict gives its keys. -/
def contractsOf (portfolio : Dict) : Except Failure (List Value) :=
  match portfolio.get "contracts" with
  | .list contracts => .ok contracts
  | .dict contracts => .ok (contracts.map fun kv => .str kv.1)
  | .str s => .ok (s.toList.map fun c => .str (String.singleton c))
  | v => if v.truthy then .error (.python .TypeError) else .ok []

/-- `dict((account.credentials or {}).get("realtime") or {})`. -/
def realtimeOf (credentials : Dict) : Except Failure Dict :=
  match credentials.get "realtime" with
  | .dict realtime => .ok realtime
  | v => if v.truthy then .error (.python .TypeError) else .ok []

/-- `_sync_portfolio`: the account as it is saved, and the event. -/
def syncPortfolio (env : Env) (now : ℕ) (account : BrokerAccount) (portfolio : Dict) :
    Except Failure (BrokerAccount × PortfolioUpdate) := do
  let contracts ← contractsOf portfolio
  env.persist_snapshot account.pk contracts
  let normalized ← normalizeAll contracts
  let (unrealized, equity) ← equityOf env.host account.balance normalized
  let realtime := (← realtimeOf account.credentials).merge
    [("unrealized_pnl", .str (env.text unrealized)), ("equity", .str (env.text equity)),
      ("updated_at", .str (env.isoformat now))]
  -- the object's own `equity` is saved with the other fields
  let saved := { account with
    credentials := account.credentials.insert "realtime" (.dict realtime)
    last_synced_at := now }
  return (saved, ⟨account.account_id, normalized, unrealized, equity, account.balance,
    account.currency⟩)

/-! ## What is saved -/

/-- The saved equity is the balance plus the profits of the contracts that were received, and the
reported one. -/
structure Synced (h : Host) (balance : Dec) (portfolio : Dict) (saved : BrokerAccount)
    (update : PortfolioUpdate) : Prop where
  value : ∃ contracts normalized unrealized equity, contractsOf portfolio = .ok contracts ∧
    normalizeAll contracts = .ok normalized ∧
      equityOf h balance normalized = .ok (unrealized, equity) ∧ saved.equity.toRat = equity.toRat
  reported : saved.equity.toRat = update.equity.toRat

section Sync

variable {env : Env} {now : ℕ} {account saved : BrokerAccount} {portfolio : Dict}
  {update : PortfolioUpdate}

/-- The steps of a sync that completes. -/
theorem syncPortfolio_ok (h : syncPortfolio env now account portfolio = .ok (saved, update)) :
    saved.equity = account.equity ∧
      ∃ contracts, contractsOf portfolio = .ok contracts ∧
        normalizeAll contracts = .ok update.contracts ∧
          equityOf env.host account.balance update.contracts =
            .ok (update.unrealized_pnl, update.equity) := by
  obtain ⟨contracts, hcontracts, h⟩ := bind_ok.mp h
  obtain ⟨_, _, h⟩ := bind_ok.mp h
  obtain ⟨normalized, hnormalized, h⟩ := bind_ok.mp h
  obtain ⟨⟨unrealized, equity⟩, hequity, h⟩ := bind_ok.mp h
  obtain ⟨realtime, _, h⟩ := bind_ok.mp h
  cases h
  exact ⟨rfl, contracts, hcontracts, hnormalized, hequity⟩

/-- The account row has the equity that follows from its balance and the contracts. -/
def Settled (h : Host) (account : BrokerAccount) (portfolio : Dict) : Prop :=
  ∀ contracts normalized unrealized equity, contractsOf portfolio = .ok contracts →
    normalizeAll contracts = .ok normalized →
      equityOf h account.balance normalized = .ok (unrealized, equity) →
        account.equity.toRat = equity.toRat

/-- A sync leaves the account with the right equity exactly if it had it already. -/
theorem equity_synced_iff (env : Env) (now : ℕ) (account saved : BrokerAccount)
    (portfolio : Dict) (update : PortfolioUpdate)
    (h : syncPortfolio env now account portfolio = .ok (saved, update)) :
    Synced env.host account.balance portfolio saved update ↔
      Settled env.host account portfolio := by
  obtain ⟨hsaved, contracts, hcontracts, hnormalized, hequity⟩ := syncPortfolio_ok h
  constructor
  · intro hsynced contracts' normalized' unrealized' equity' hcontracts' hnormalized' hequity'
    obtain rfl := Except.ok.inj (hcontracts.symm.trans hcontracts')
    obtain rfl := Except.ok.inj (hnormalized.symm.trans hnormalized')
    obtain ⟨rfl, rfl⟩ := Prod.mk.inj (Except.ok.inj (hequity.symm.trans hequity'))
    rw [← hsaved]
    exact hsynced.reported
  · intro hsettled
    have hvalue : saved.equity.toRat = update.equity.toRat := by
      rw [hsaved]
      exact hsettled _ _ _ _ hcontracts hnormalized hequity
    exact ⟨⟨contracts, update.contracts, update.unrealized_pnl, update.equity, hcontracts,
      hnormalized, hequity, hvalue⟩, hvalue⟩

end Sync

/-! ## An open contract -/

def asciiEnv : Env := ⟨Host.ascii, fun _ => "", fun _ => "", fun _ _ => .ok ()⟩

/-- An account of 100, with the given equity. -/
def accountOf (equity : ℕ) : BrokerAccount :=
  ⟨1, "CR1", .finite false 100 0, .finite false equity 0, "USD", [], 0⟩

/-- A contract that has made 5. -/
def openContract : Dict :=
  [("contracts", .list [.dict [("contract_id", .int 7), ("profit", .int 5)]])]

/-- The sync completes and reports 105. -/
theorem openContract_synced (equity : ℕ) : ∃ saved update,
    syncPortfolio asciiEnv 1 (accountOf equity) openContract = .ok (saved, update) ∧
      saved.equity = .finite false equity 0 ∧ update.equity = .finite false 105 0 := by
  obtain ⟨contracts, normalized, hcontracts, hnormalized, hequity⟩ :
      ∃ contracts normalized, contractsOf openContract = .ok contracts ∧
        normalizeAll contracts = .ok normalized ∧
          equityOf Host.ascii (.finite false 100 0) normalized =
            .ok (.finite false 5 0, .finite false 105 0) :=
    ⟨_, _, rfl, rfl, by decide +kernel⟩
  exact ⟨_, _, bind_ok.mpr ⟨contracts, hcontracts, bind_ok.mpr ⟨(), rfl,
    bind_ok.mpr ⟨normalized, hnormalized, bind_ok.mpr ⟨_, hequity, rfl⟩⟩⟩⟩, rfl, rfl⟩

/-- The event reports 105, the account stays at 100. -/
theorem equity_left : ∃ saved update,
    syncPortfolio asciiEnv 1 (accountOf 100) openContract = .ok (saved, update) ∧
      ¬ Synced Host.ascii (.finite false 100 0) openContract saved update := by
  obtain ⟨saved, update, hsync, hsaved, hupdate⟩ := openContract_synced 100
  refine ⟨saved, update, hsync, fun hsynced => ?_⟩
  have hreported := hsynced.reported
  rw [hsaved, hupdate] at hreported
  revert hreported
  decide +kernel

/-- With an equity of 105 before, it is right afterwards. -/
theorem equity_synced_before : ∃ saved update,
    syncPortfolio asciiEnv 1 (accountOf 105) openContract = .ok (saved, update) ∧
      Synced Host.ascii (.finite false 100 0) openContract saved update := by
  obtain ⟨saved, update, hsync, _, hupdate⟩ := openContract_synced 105
  refine ⟨saved, update, hsync, (equity_synced_iff _ _ _ _ _ _ hsync).mpr ?_⟩
  obtain ⟨_, contracts, hcontracts, hnormalized, hequity⟩ := syncPortfolio_ok hsync
  intro contracts' normalized unrealized equity hcontracts' hnormalized' hequity'
  obtain rfl := Except.ok.inj (hcontracts.symm.trans hcontracts')
  obtain rfl := Except.ok.inj (hnormalized.symm.trans hnormalized')
  obtain ⟨rfl, rfl⟩ := Prod.mk.inj (Except.ok.inj (hequity.symm.trans hequity'))
  rw [hupdate]
  rfl

end AlgoBot.Brokers.Equity
