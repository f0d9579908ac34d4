import AlgoBot.Core.Machine
import AlgoBot.Python.Value

/-!
# The identity and the status of an account

`connect`, `disconnect`, `sync_account` and the messages of the realtime stream each read
the row of the account into a copy of their own, hear from the provider, and save some
columns of the copy.

* `account_stays_iff`: over any run of them the account keeps its id, and stays out of
  the active ones once the user has disconnected it until a new connect, exactly if
  every sync and every balance push that is saved is about the stored id and finds the
  account not disconnected, and no connect is saved past a later disconnect.
* `account_moved`: one balance push changes the id, and one undoes a disconnect.
-/

namespace AlgoBot.Accounts

open AlgoBot.Core AlgoBot.Python

/-! ## The row -/

/-- `ACCOUNT_STATUSES`. -/
inductive AccountStatus where
  | active
  | disabled
  | margin_call
  | suspended
deriving DecidableEq, Repr

/-- A `BrokerAccount`, with the numbers as they were assigned. -/
structure BrokerAccount where
  account_id : String
  currency : Value
  balance : Value
  equity : Value
  margin : Value
  free_margin : Value
  status : AccountStatus
  credentials : Dict
  last_synced_at : ℕ

inductive Column where
  | account_id
  | currency
  | balance
  | equity
  | margin
  | free_margin
  | status
  | credentials
  | last_synced_at
deriving DecidableEq

/-- `copy.save(update_fields=...)`. -/
def save (update_fields : List Column) (copy row : BrokerAccount) : BrokerAccount where
  account_id := if .account_id ∈ update_fields then copy.account_id else row.account_id
  currency := if .currency ∈ update_fields then copy.currency else row.currency
  balance := if .balance ∈ update_fields then copy.balance else row.balance
  equity := if .equity ∈ update_fields then copy.equity else row.equity
  margin := if .margin ∈ update_fields then copy.margin else row.margin
  free_margin := if .free_margin ∈ update_fields then copy.free_margin else row.free_margin
  status := if .status ∈ update_fields then copy.status else row.status
  credentials := if .credentials ∈ update_fields then copy.credentials else row.credentials
  last_synced_at :=
    if .last_synced_at ∈ update_fields then copy.last_synced_at else row.last_synced_at

variable (h : Host)

/-- `account_type`: what the credentials say, if it is one of the two types. -/
def accountType (credentials : Dict) : String :=
  let value := credentials.get "account_type"
  let value := if value.truthy then value
    else (Dict.get (credentials.get "realtime").asDict "account_type")
  let value := strip (h.lower (textOr h value ""))
  if value = "demo" ∨ value = "real" then value else ""

/-! ## What each call saves -/

/-- The checks of `connect`; a failed one is a `BrokerAuthenticationError`. -/
def verified (broker_type : String) (copy : BrokerAccount) (verification : Dict) : Bool :=
  let verified_account_id := strip (textOr h (verification.get "account_id") "")
  let configured_type := strip (h.lower (accountType h copy.credentials))
  let provider_type := match verification.get "is_virtual" with
    | .bool true => "demo"
    | .bool false => "real"
    | _ => ""
  broker_type != "deriv" ||
    (verified_account_id != "" && verified_account_id == copy.account_id &&
      !((configured_type == "demo" || configured_type == "real") && provider_type != "" &&
        configured_type != provider_type))

/-- The copy that `connect` saves. -/
def connected (now : ℕ) (copy : BrokerAccount) (verification : Dict) : BrokerAccount :=
  let credentials := match verification.get "is_virtual" with
    | .none => copy.credentials
    | v => copy.credentials.insert "account_type" (.str (if v.truthy then "demo" else "real"))
  let credentials := credentials.insert "connection_health" (.str "verified")
  let avatar_url := verification.get "avatar_url"
  { copy with
    balance := match verification.get "balance" with
      | .none => copy.balance
      | v => v
    currency := (verification.get "currency").or copy.currency
    credentials := if avatar_url.truthy
      then credentials.insert "avatar_url" (.str (avatar_url.toStr h)) else credentials
    status := .active
    last_synced_at := now }

/-- `data[f]` if it is there, and else what the copy has. -/
def numberOf (data : Dict) (key : String) (old : Value) : Value :=
  match data.get key with
  | .none => old
  | v => v

/-- The credentials `sync_account` leaves in the copy. -/
def syncedCredentials (copy : BrokerAccount) (data : Dict) : Dict :=
  let account_type := data.get "account_type"
  let avatar_url := data.get "avatar_url"
  let credentials := if account_type.truthy
    then copy.credentials.insert "account_type" (.str (h.lower (account_type.toStr h)))
    else copy.credentials
  if avatar_url.truthy then credentials.insert "avatar_url" (.str (avatar_url.toStr h))
  else credentials

/-- The provider reports an id that is not the one of the copy. -/
def reportsOther (copy : BrokerAccount) (data : Dict) : Bool :=
  let broker_account_id := (data.get "account_id").or (.str copy.account_id)
  broker_account_id.truthy && !broker_account_id.beq (.str copy.account_id)

/-- The copy that `sync_account` saves. -/
def synced (now : ℕ) (copy : BrokerAccount) (data : Dict) : BrokerAccount where
  account_id := if reportsOther copy data then (data.get "account_id").toStr h else copy.account_id
  currency := numberOf data "currency" copy.currency
  balance := numberOf data "balance" copy.balance
  equity := numberOf data "equity" copy.equity
  margin := numberOf data "margin" copy.margin
  free_margin := numberOf data "free_margin" copy.free_margin
  status := .active
  credentials := syncedCredentials h copy data
  last_synced_at := now

/-- The column of a member that is there. -/
def givenColumn (data : Dict) (key : String) (column : Column) : List Column :=
  match data.get key with
  | .none => []
  | _ => [column]

/-- The columns it saves: those that have something new. -/
def syncedColumns (copy : BrokerAccount) (data : Dict) : List Column :=
  (if reportsOther copy data then [.account_id] else []) ++ givenColumn data "balance" .balance ++
    givenColumn data "equity" .equity ++ givenColumn data "margin" .margin ++
    givenColumn data "free_margin" .free_margin ++ givenColumn data "currency" .currency ++
    (if Value.beq (.dict (syncedCredentials h copy data)) (.dict copy.credentials) then []
      else [.credentials]) ++
    [.status, .last_synced_at]

/-- The `realtime` entry of the credentials, with some of its members written. -/
def withRealtime (credentials members : Dict) : Dict :=
  credentials.insert "realtime"
    (.dict (Dict.merge (credentials.get "realtime").asDict members))

/-- The id a balance push is about. -/
def pushedId (copy : BrokerAccount) (balance : Dict) : String :=
  (((balance.get "loginid").or (balance.get "account_id")).or (.str copy.account_id)).toStr h

/-- The copy that `_sync_balance` saves. -/
def pushed (now : ℕ) (copy : BrokerAccount) (balance : Dict) : BrokerAccount :=
  let raw_balance := balance.get "balance"
  let currency := balance.get "currency"
  { copy with
    balance := match raw_balance with
      | .none => copy.balance
      -- a number that does not parse is ignored
      | v => if (decimalOfText h (v.toStr h)).isSome then .str (v.toStr h) else copy.balance
    account_id := pushedId h copy balance
    currency := if currency.truthy then .str (currency.toStr h) else copy.currency
    credentials := withRealtime copy.credentials
      [("balance", raw_balance), ("currency", currency), ("updated_at", .int now)]
    last_synced_at := now
    status := .active }

/-- The copy that `_sync_portfolio` saves. -/
def portfolioed (now : ℕ) (copy : BrokerAccount) (unrealized equity : String) : BrokerAccount :=
  { copy with
    equity := .str equity
    credentials := withRealtime copy.credentials
      [("unrealized_pnl", .str unrealized), ("equity", .str equity), ("updated_at", .int now)]
    last_synced_at := now }

/-! ## Calls side by side -/

/-- What works on the row. A push carries the `balance` of its message, and a portfolio message
what its contracts add up to. -/
inductive Call where
  | connect
  | disconnect
  | sync
  | push (balance : Dict)
  | portfolio (unrealized equity : String)

/-- A call has read the row, and how often the account had been disconnected by then. -/
inductive Pc where
  | idle
  | loaded (call : Call) (copy : BrokerAccount) (seen : ℕ)
  | done

/-- The row, and whether the user has disconnected the account since the last connect. -/
structure State where
  row : BrokerAccount
  disconnected : Bool
  disconnects : ℕ
  procs : ℕ → Pc

inductive Action where
  | start (i : ℕ) (call : Call)
  /-- The call saves, at a time and with what the provider has answered. -/
  | finish (i : ℕ) (now : ℕ) (reply : Dict)
  /-- The provider or the database raises. -/
  | fail (i : ℕ)
  /-- Any other message: it writes no column of the row. -/
  | message

/-- The row a call saves; `none` where it raises instead. -/
def saved (broker_type : String) (row copy : BrokerAccount) (now : ℕ) (reply : Dict) :
    Call → Option BrokerAccount
  | .connect =>
    if verified h broker_type copy reply then
      some (save [.balance, .currency, .credentials, .status, .last_synced_at]
        (connected h now copy reply) row)
    else none
  | .disconnect => some (save [.status] { copy with status := .disabled } row)
  | .sync => some (save (syncedColumns h copy reply) (synced h now copy reply) row)
  | .push balance =>
    some (save [.account_id, .balance, .currency, .credentials, .last_synced_at, .status]
      (pushed h now copy balance) row)
  | .portfolio unrealized equity =>
    some (save [.equity, .credentials, .last_synced_at] (portfolioed now copy unrealized equity)
      row)

/-- Whether the account counts as disconnected after a call: a connect that began after the last
disconnect is a new one. -/
def disconnectedAfter (s : State) (seen : ℕ) : Call → Bool
  | .connect => if seen = s.disconnects then false else s.disconnected
  | .disconnect => true
  | _ => s.disconnected

def disconnectsAfter (s : State) : Call → ℕ
  | .disconnect => s.disconnects + 1
  | _ => s.disconnects

/-- `sync_account` refuses an account that is not connected. -/
def refuses (copy : BrokerAccount) : Call → Bool
  | .sync => copy.status = .disabled || copy.status = .suspended
  | _ => false

def step (broker_type : String) (s : State) : Action → Option State
  | .start i call =>
    match s.procs i with
    | .idle =>
      let pc := if refuses s.row call then .done else .loaded call s.row s.disconnects
      some { s with procs := Function.update s.procs i pc }
    | _ => none
  | .finish i now reply =>
    match s.procs i with
    | .loaded call copy seen =>
      let procs := Function.update s.procs i .done
      match saved h broker_type s.row copy now reply call with
      | some row => some {
          row := row
          disconnected := disconnectedAfter s seen call
          disconnects := disconnectsAfter s call
          procs := procs }
      | none => some { s with procs := procs }
    | _ => none
  | .fail i =>
    match s.procs i with
    | .loaded _ _ _ => some { s with procs := Function.update s.procs i .done }
    | _ => none
  | .message => some s

/-- Any number of calls on one account. -/
def account (broker_type : String) : Machine State Action := ⟨step h broker_type⟩

/-- The account has been connected, and no call is under way. -/
structure State.Connected (s : State) : Prop where
  active : s.row.status = .active
  kept : s.disconnected = false
  idle : ∀ i, s.procs i = .idle

/-- The account has this id, and it is not active if the user has disconnected it. -/
def StaysPut (id : String) (s : State) : Prop :=
  s.row.account_id = id ∧ (s.disconnected = true → s.row.status ≠ .active)

/-! ## The condition -/

/-- What the call is about is the account that is stored. -/
def SameAccount (row copy : BrokerAccount) (reply : Dict) : Call → Prop
  | .sync => reportsOther copy reply = true → (reply.get "account_id").toStr h = row.account_id
  | .push balance => pushedId h copy balance = row.account_id
  | _ => True

/-- The call does not undo what the user has done. -/
def LeavesDisconnected (broker_type : String) (s : State) (copy : BrokerAccount) (seen : ℕ)
    (reply : Dict) : Call → Prop
  | .connect =>
    verified h broker_type copy reply = true → s.disconnected = true → seen = s.disconnects
  | .sync => s.disconnected = false
  | .push _ => s.disconnected = false
  | _ => True

/-- A call that saves is about the stored account, and finds it connected if it makes it active. -/
def Faithful (broker_type : String) (s : State) : Action → Prop
  | .finish i _ reply =>
    match s.procs i with
    | .loaded call copy seen =>
      SameAccount h s.row copy reply call ∧ LeavesDisconnected h broker_type s copy seen reply call
    | _ => True
  | _ => True

instance (row copy : BrokerAccount) (reply : Dict) (call : Call) :
    Decidable (SameAccount h row copy reply call) := by
  cases call <;> unfold SameAccount <;> infer_instance

instance (broker_type : String) (s : State) (copy : BrokerAccount) (seen : ℕ) (reply : Dict)
    (call : Call) : Decidable (LeavesDisconnected h broker_type s copy seen reply call) := by
  cases call <;> unfold LeavesDisconnected <;> infer_instance

instance (broker_type : String) (s : State) (a : Action) :
    Decidable (Faithful h broker_type s a) := by
  unfold Faithful
  split
  · split <;> infer_instance
  · infer_instance

/-! ## What a call does to the row -/

section Calls

variable {h : Host} {broker_type : String} {row row' copy : BrokerAccount} {now : ℕ}
  {reply : Dict} {call : Call} {s s' t : State} {a : Action} {as : List Action} {id : String}

theorem not_mem_givenColumn {data : Dict} {key : String} {column c : Column} (hne : c ≠ column) :
    c ∉ givenColumn data key column := by
  unfold givenColumn
  split
  · exact List.not_mem_nil
  · exact fun hc => hne (List.mem_singleton.mp hc)

theorem account_id_mem : .account_id ∈ syncedColumns h copy reply ↔
    reportsOther copy reply = true := by
  have hcredentials : ∀ b : Bool, Column.account_id ∉ if b then [] else [Column.credentials] := by
    intro b
    cases b <;> simp
  cases hother : reportsOther copy reply with
  | true => simp [syncedColumns, hother]
  | false => simp [syncedColumns, hother, not_mem_givenColumn, hcredentials]

theorem status_mem : .status ∈ syncedColumns h copy reply := by
  simp [syncedColumns]

/-- A call leaves the id exactly if it is about the stored account. -/
theorem saved_account_id (hs : saved h broker_type row copy now reply call = some row') :
    row'.account_id = row.account_id ↔ SameAccount h row copy reply call := by
  cases call with
  | connect =>
    simp only [saved] at hs
    split at hs
    · cases hs
      simp [save, SameAccount]
    · cases hs
  | disconnect =>
    cases hs
    simp [save, SameAccount]
  | sync =>
    cases hs
    by_cases hother : reportsOther copy reply = true
    · simp [save, SameAccount, account_id_mem, hother, synced]
    · simp [save, SameAccount, account_id_mem, hother]
  | push balance =>
    cases hs
    simp [save, SameAccount, pushed]
  | portfolio unrealized equity =>
    cases hs
    simp [save, SameAccount]

/-- After a call that saves, the account is active unless the user has disconnected it, exactly if
the call does not undo that. -/
theorem saved_status {seen : ℕ}
    (hs : saved h broker_type s.row copy now reply call = some row')
    (hput : s.disconnected = true → s.row.status ≠ .active) :
    (disconnectedAfter s seen call = true → row'.status ≠ .active) ↔
      LeavesDisconnected h broker_type s copy seen reply call := by
  cases call with
  | connect =>
    simp only [saved] at hs
    split at hs
    · next hverified =>
      cases hs
      by_cases hseen : seen = s.disconnects
      · simp [disconnectedAfter, LeavesDisconnected, hseen]
      · simp [disconnectedAfter, LeavesDisconnected, hseen, save, connected, hverified]
    · cases hs
  | disconnect =>
    cases hs
    simp [disconnectedAfter, LeavesDisconnected, save]
  | sync =>
    cases hs
    simp [disconnectedAfter, LeavesDisconnected, save, synced, status_mem]
  | push balance =>
    cases hs
    simp [disconnectedAfter, LeavesDisconnected, save, pushed]
  | portfolio unrealized equity =>
    cases hs
    simpa [disconnectedAfter, LeavesDisconnected, save] using hput

/-- A call that raises is a connect whose checks failed. -/
theorem saved_eq_none (hs : saved h broker_type row copy now reply call = none) :
    call = .connect ∧ verified h broker_type copy reply = false := by
  cases call with
  | connect =>
    simp only [saved] at hs
    split at hs
    · cases hs
    · next hverified => exact ⟨rfl, by simpa using hverified⟩
  | _ => cases hs

/-- A step from a state in which the account stays put leads to one exactly if it is faithful. -/
theorem staysPut_step (hput : StaysPut id s) (hs : step h broker_type s a = some s') :
    StaysPut id s' ↔ Faithful h broker_type s a := by
  cases a with
  | start i call =>
    cases hpc : s.procs i <;> simp only [step, hpc, reduceCtorEq] at hs
    cases hs
    exact iff_of_true hput trivial
  | finish i now reply =>
    cases hpc : s.procs i <;> simp only [step, hpc, reduceCtorEq] at hs
    case loaded call copy seen =>
      simp only [Faithful, hpc]
      split at hs
      · next row' hsaved =>
        cases hs
        rw [← saved_account_id hsaved, ← saved_status hsaved hput.2]
        unfold StaysPut
        rw [hput.1]
      · next hnone =>
        cases hs
        rcases saved_eq_none hnone with ⟨rfl, hverified⟩
        refine iff_of_true hput ⟨trivial, ?_⟩
        simp [LeavesDisconnected, hverified]
  | fail i =>
    cases hpc : s.procs i <;> simp only [step, hpc, reduceCtorEq] at hs
    cases hs
    exact iff_of_true hput trivial
  | message =>
    cases hs
    exact iff_of_true hput trivial

end Calls

/-! ## Runs -/

/-- Over a run from a connected account, its id stays and the user's disconnect stands until a new
connect exactly if the run is faithful. -/
theorem account_stays_iff (h : Host) (broker_type : String) {s t : State} {as : List Action}
    (hstart : s.Connected) (hrun : (account h broker_type).Run s as t) :
    Machine.RunIf.Always (account h broker_type) (StaysPut s.row.account_id) s as ↔
      (account h broker_type).RunIf (Faithful h broker_type) s as t := by
  have hput : StaysPut s.row.account_id s := by
    refine ⟨rfl, ?_⟩
    intro hdisconnected
    rw [hstart.kept] at hdisconnected
    cases hdisconnected
  have hstep : ∀ s' a s'', True → StaysPut s.row.account_id s' →
      (account h broker_type).next s' a = some s'' →
      (StaysPut s.row.account_id s'' ↔ Faithful h broker_type s' a) := by
    intro s' a s'' _ hp hn
    exact staysPut_step hp hn
  rw [Machine.RunIf.always_iff (fun _ _ _ _ _ => trivial) hstep hrun trivial]
  exact and_iff_right hput

/-- A demo account that has just been connected. -/
def demoAccount : State where
  row := {
    account_id := "VRTC1"
    currency := .str "USD"
    balance := .str "100"
    equity := .str "0"
    margin := .str "0"
    free_margin := .str "0"
    status := .active
    credentials := [("account_type", .str "demo")]
    last_synced_at := 0 }
  disconnected := false
  disconnects := 0
  procs := fun _ => .idle

theorem connected_demoAccount : demoAccount.Connected := ⟨rfl, rfl, fun _ => rfl⟩

/-- A balance push of the account itself, a disconnect, and a connect after it. -/
def reconnected : List Action :=
  [.start 0 (.push [("loginid", .str "VRTC1"), ("balance", .str "90")]), .finish 0 5 [],
    .start 1 .disconnect, .finish 1 6 [], .start 2 .connect,
    .finish 2 7 [("account_id", .str "VRTC1"), ("is_virtual", .bool true)]]

theorem account_stays_reconnected :
    ∃ t, (account Host.ascii "deriv").RunIf (Faithful Host.ascii "deriv") demoAccount
        reconnected t ∧
      Machine.RunIf.Always (account Host.ascii "deriv") (StaysPut "VRTC1") demoAccount
        reconnected := by
  have hexec : ((account Host.ascii "deriv").execIf (Faithful Host.ascii "deriv") demoAccount
      reconnected).isSome = true := by decide +kernel
  rcases Machine.exists_runIf hexec with ⟨t, hfaithful⟩
  have hrun : (account Host.ascii "deriv").Run demoAccount reconnected t :=
    hfaithful.mono fun _ _ _ => trivial
  have hiff := account_stays_iff Host.ascii "deriv" connected_demoAccount hrun
  exact ⟨t, hfaithful, hiff.mpr hfaithful⟩

/-- A balance push that names another account, and one that comes after a disconnect. -/
theorem account_moved :
    (¬ Machine.RunIf.Always (account Host.ascii "deriv") (StaysPut "VRTC1") demoAccount
      [.start 0 (.push [("loginid", .str "CR2")]), .finish 0 5 []]) ∧
    (¬ Machine.RunIf.Always (account Host.ascii "deriv") (StaysPut "VRTC1") demoAccount
      [.start 0 .disconnect, .finish 0 5 [], .start 1 (.push [("loginid", .str "VRTC1")]),
        .finish 1 6 []]) := by
  constructor
  · intro halways
    have hid := (halways.last rfl).1
    revert hid
    decide +kernel
  · intro halways
    have hstatus := (halways.last rfl).2
    revert hstatus
    decide +kernel

end AlgoBot.Accounts
