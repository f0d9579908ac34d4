import AlgoBot.Brokers.Accounts
import AlgoBot.Core.Table
import Mathlib.Data.List.Sort

/-!
# The active account of a session

The browser session holds the id of the account its user has selected. Every lookup goes
through `_resolve_active_account`, which returns the selected account while it is usable,
drops the selection otherwise, and falls back to the account synced last when there is none.

* `resolve_selected`: while the session has the selection, a lookup returns that account or
  none.
* `fails_closed_iff`: in every run all lookups of the user after a selection return the
  selected account or none, exactly if no lookup is made without the selection that would
  find another account, or the selected one unusable. `lookup_switches` is a filtered lookup
  that drops a demo account and the next one that returns a real one.
-/

namespace AlgoBot.ActiveAccount

open AlgoBot.Core AlgoBot.Python AlgoBot.Accounts

/-! ## The rows -/

/-- `BROKER_STATUSES`. -/
inductive BrokerStatus where
  | active | disabled | maintenance | degraded | offline | coming_soon
  deriving DecidableEq, Repr

/-- `CONNECTION_STATUSES`. -/
inductive ConnectionStatus where
  | disconnected | connecting | connected | degraded | failed | reconnecting
  deriving DecidableEq, Repr

/-- `TOKEN_STATUS_CHOICES`. -/
inductive TokenStatus where
  | active | expired | revoked | refreshing
  deriving DecidableEq, Repr

/-- `Broker`, as far as lookups read it. -/
structure Broker where
  broker_type : String
  status : BrokerStatus
  metadata : Dict

/-- A `BrokerAccount` with its broker and the status of its connection, of which there is at
most one. -/
structure Account where
  pk : ℕ
  user : ℕ
  broker : Broker
  account_id : String
  status : AccountStatus
  credentials : Dict
  access_token : String
  token_status : TokenStatus
  expires_at : Option ℤ
  last_synced_at : Option ℤ
  connection : Option ConnectionStatus

instance : HasPk Account := ⟨Account.pk⟩

/-- What the code relies on outside the repository: text, the number a text of digits stands for,
decryption of a stored token (which may raise), and where the database sorts missing values. -/
structure Env where
  host : Host
  int_of_digits : String → Option ℕ
  decrypt : String → Option String
  nulls_first : Bool
  ENABLE_BROKER_ACCOUNT_SWITCH : Bool

variable (env : Env)

/-- `credential_status == "ready"`. -/
def credentialsReady (account : Account) (now : ℤ) : Bool :=
  let auth_type := env.host.lower (textOr env.host (account.broker.metadata.get "auth") "")
  let requires_oauth := account.broker.broker_type == "deriv" || auth_type == "oauth"
  if !requires_oauth then true
  else if account.token_status != .active ||
      account.expires_at.any (fun expires => decide (expires ≤ now)) then false
  else
    match if account.access_token == "" then some "" else env.decrypt account.access_token with
    | none => false
    | some access_token => access_token != "" && access_token != account.access_token

/-- `is_connection_eligible`. -/
def isConnectionEligible (account : Account) (now : ℤ) : Bool :=
  account.status == .active && account.broker.status == .active &&
    credentialsReady env account now && account.connection == some .connected

/-- The filters of `connected_accounts`. -/
def isConnected (user : ℕ) (account : Account) : Bool :=
  account.user == user && account.status == .active && account.broker.status == .active &&
    account.connection == some .connected

/-- `_has_known_environment`. -/
def hasKnownEnvironment (account : Account) : Bool :=
  account.broker.broker_type != "deriv" ||
    ["demo", "real"].contains (accountType env.host account.credentials)

/-! ## The session -/

/-- The value under `SESSION_KEY`, and the account the user has selected last. -/
structure Selection where
  selected_id : Option ℕ
  chosen : Option ℕ
  deriving DecidableEq, Repr

/-- A browser session: its user, the accounts, the copy of the selection the current request
works on, and the stored one. -/
structure Session where
  user : ℕ
  accounts : Table Account
  working : Selection
  stored : Selection

/-- `qs` of `_resolve_active_account`, in the order of the table. -/
def candidates (s : Session) (user : ℕ) (broker_type : Option String) : List Account :=
  s.accounts.rows.filter fun a =>
    isConnected user a && broker_type.all fun b => a.broker.broker_type == b

/-- `a` comes before `b` in `order_by("-last_synced_at", "-id")`. -/
def ordered (a b : Account) : Bool :=
  match a.last_synced_at, b.last_synced_at with
  | some x, some y => decide (y < x) || (x == y && decide (b.pk ≤ a.pk))
  | none, none => decide (b.pk ≤ a.pk)
  | none, some _ => env.nulls_first
  | some _, none => !env.nulls_first

/-- `qs.order_by("-last_synced_at", "-id").first()`. -/
def latest (accounts : List Account) : Option Account :=
  (accounts.insertionSort fun a b => ordered env a b = true).head?

/-- The session without the selection. -/
def Session.drop (s : Session) : Session :=
  { s with working := { s.working with selected_id := none } }

/-- `_resolve_active_account`. -/
def resolve (s : Session) (user : ℕ) (broker_type : Option String) : Option Account × Session :=
  let qs := candidates s user broker_type
  match s.working.selected_id with
  | some selected_id =>
      match qs.find? fun a => a.pk == selected_id with
      | some selected =>
          if hasKnownEnvironment env selected then (some selected, s) else (none, s.drop)
      | none => (none, s.drop)
  | none => (latest env qs, s)

/-- `require_active_account`. -/
def requireActive (s : Session) (user : ℕ) : Except String Account × Session :=
  match resolve env s user none with
  | (none, s') => (.error "No connected broker account is available for this request.", s')
  | (some account, s') =>
      if hasKnownEnvironment env account then (.ok account, s')
      else
        (.error ("The broker account environment is unknown; trading is blocked until " ++
          "DEMO/REAL is verified."), s')

/-- `select_account`. -/
def selectAccount (s : Session) (user : ℕ) (account : Account) (now : ℤ) :
    Except String Session :=
  if account.user != user then .error "Account does not belong to the authenticated user."
  else if !isConnectionEligible env account now || !hasKnownEnvironment env account then
    .error "The selected broker account is not connected, ready, or has an unknown environment."
  else .ok { s with working := { selected_id := some account.pk, chosen := some account.pk } }

/-- `requested` in `select`. -/
def requestedType (account_type : String) : String :=
  let requested := strip (env.host.lower account_type)
  if ["demo", "real"].contains requested then requested else ""

/-- `BrokerAccountViewSet.select`; `account_type` is the type the request asks for. -/
def select (s : Session) (user pk : ℕ) (account_type : String) (now : ℤ) :
    Except String Session :=
  if !env.ENABLE_BROKER_ACCOUNT_SWITCH then
    .error "Broker account switching is disabled by platform configuration."
  else
    match s.accounts.find? fun a => a.pk == pk && a.user == user with
    | none => .error "Not found."
    | some account =>
        let actual := accountType env.host account.credentials
        let requested := requestedType env account_type
        if account.status != .active then .error "The selected broker account is not active."
        else if !isConnectionEligible env account now then
          .error "The selected broker account is not connected and ready."
        else if !(["demo", "real"].contains actual) then
          .error ("The broker has not confirmed this account type yet. " ++
            "Synchronize the account first.")
        else if requested != "" && requested != actual then
          .error ("Selected account is " ++ actual ++ ", not " ++ requested ++ ".")
        else if s.user != user then
          .error "The browser session and API credentials belong to different users."
        else selectAccount env s user account now

/-- `first()` of a query without an ordering. -/
def firstByPk (accounts : List Account) : Option Account :=
  (accounts.insertionSort fun a b => a.pk ≤ b.pk).head?

/-- `_account` of the OAuth views; `supplied_id` is the id the request gives. -/
def derivAccount (s : Session) (user : ℕ) (supplied_id : Option String) : Option Account :=
  let accounts := s.accounts.rows.filter fun a =>
    a.user == user && a.broker.broker_type == "deriv" && a.status == .active
  let byPk (pk : ℕ) := accounts.find? fun a => a.pk == pk
  match supplied_id with
  | some supplied_id =>
      let supplied_text := strip supplied_id
      ((env.int_of_digits supplied_text).bind byPk).or
        (firstByPk (accounts.filter fun a => a.account_id == supplied_text))
  | none =>
      match s.working.selected_id with
      | some selected_id => byPk selected_id
      | none => if accounts.length == 1 then firstByPk accounts else none

/-- `disconnect_deriv`, once `_account` has found the account. -/
def disconnected (s : Session) (account : Account) : Session :=
  let row := { account with
    token_status := .revoked, status := .disabled, access_token := ""
    connection := account.connection.map fun _ => .disconnected }
  let s := { s with accounts := s.accounts.set row }
  if s.working.selected_id == some account.pk then s.drop else s

/-! ## Runs -/

/-- What happens to a session: requests of its user, or of another one who presents a token of
their own, and changes of the accounts by anybody else. -/
inductive Action where
  | select (user pk : ℕ) (account_type : String) (now : ℤ)
  | lookup (user : ℕ) (broker_type : Option String)
  | require (user : ℕ)
  | disconnect (user : ℕ) (supplied_id : Option String)
  | accounts (rows : Table Account)
  | respond (failed : Bool)

/-- `accounts` may be anything afterwards; a response of status 500 discards what the request has
done to the session. -/
def sessionMachine : Machine Session Action where
  next s
    | .select user pk account_type now =>
        match select env s user pk account_type now with
        | .ok s' => some s'
        | .error _ => some s
    | .lookup user broker_type => some (resolve env s user broker_type).2
    | .require user => some (requireActive env s user).2
    | .disconnect user supplied_id =>
        match derivAccount env s user supplied_id with
        | some account => some (disconnected s account)
        | none => some s
    | .accounts rows => some { s with accounts := rows }
    | .respond failed =>
        if failed then some { s with working := s.stored } else some { s with stored := s.working }

/-! ## What a lookup answers -/

variable {env} {s s' t : Session} {user k : ℕ} {broker_type : Option String} {a : Account}

/-- The account is one a lookup with this filter may return. -/
structure Usable (env : Env) (user : ℕ) (broker_type : Option String) (a : Account) : Prop where
  connected : isConnected user a = true
  filter : ∀ b ∈ broker_type, a.broker.broker_type = b
  environment : hasKnownEnvironment env a = true

/-- The answer is no account, or account `k`, usable. -/
def Answers (env : Env) (user : ℕ) (broker_type : Option String) (k : ℕ)
    (answer : Option Account) : Prop :=
  ∀ a, answer = some a → a.pk = k ∧ Usable env user broker_type a

/-- A lookup of the user after a selection answers with the selected account or none. -/
def FailsClosed (env : Env) (s : Session) : Action → Prop
  | .lookup user broker_type => user = s.user → ∀ k, s.working.chosen = some k →
      Answers env user broker_type k (resolve env s user broker_type).1
  | .require user => user = s.user → ∀ k, s.working.chosen = some k →
      Answers env user none k (requireActive env s user).1.toOption
  | _ => True

/-- The session has lost the selection of `k`, and the fallback finds `a`. -/
def Armed (env : Env) (s : Session) (user : ℕ) (broker_type : Option String) (k : ℕ)
    (a : Account) : Prop :=
  user = s.user ∧ s.working = ⟨none, some k⟩ ∧ latest env (candidates s user broker_type) = some a

/-- No lookup of the user is made after the selection is lost that would find another account,
or the selected one without a known environment. -/
def Unarmed (env : Env) (s : Session) : Action → Prop
  | .lookup user broker_type => ∀ k a, Armed env s user broker_type k a →
      a.pk = k ∧ hasKnownEnvironment env a = true
  | .require user => ∀ k a, Armed env s user none k a →
      hasKnownEnvironment env a = true → a.pk = k
  | _ => True

theorem mem_candidates (h : a ∈ candidates s user broker_type) :
    isConnected user a = true ∧ ∀ b ∈ broker_type, a.broker.broker_type = b := by
  obtain ⟨_, ha⟩ := List.mem_filter.mp h
  obtain ⟨hconnected, hfilter⟩ := Bool.and_eq_true_iff.mp ha
  refine ⟨hconnected, ?_⟩
  rintro b rfl
  simpa using hfilter

theorem latest_mem {accounts : List Account} (h : latest env accounts = some a) : a ∈ accounts := by
  exact (List.mem_insertionSort _).mp (List.mem_of_head? h)

/-- While the session has a selection, a lookup returns that account, usable, or none. -/
theorem resolve_selected (hsel : s.working.selected_id = some k) :
    Answers env user broker_type k (resolve env s user broker_type).1 := by
  intro a ha
  simp only [resolve, hsel] at ha
  split at ha
  · next selected hfind =>
    split at ha
    · next hknown =>
      obtain rfl : selected = a := Option.some.inj ha
      obtain ⟨hconnected, hfilter⟩ := mem_candidates (List.mem_of_find?_eq_some hfind)
      have hpk : selected.pk = k := by simpa using List.find?_some hfind
      exact ⟨hpk, hconnected, hfilter, hknown⟩
    · cases ha
  · cases ha

/-- Without one it returns what the fallback finds. -/
theorem resolve_none (hsel : s.working.selected_id = none) :
    resolve env s user broker_type = (latest env (candidates s user broker_type), s) := by
  simp only [resolve, hsel]

/-- What `require_active_account` returns is what the lookup found, in a known environment. -/
theorem requireActive_some :
    (requireActive env s user).1.toOption = some a ↔
      (resolve env s user none).1 = some a ∧ hasKnownEnvironment env a = true := by
  unfold requireActive
  cases hr : resolve env s user none with
  | mk answer s' =>
    cases answer with
    | none => simp [Except.toOption]
    | some b =>
      by_cases hknown : hasKnownEnvironment env b = true
      · simp only [hknown, if_true, Except.toOption, Option.some.injEq]
        constructor
        · rintro rfl
          exact ⟨rfl, hknown⟩
        · exact And.left
      · simp only [hknown, Except.toOption, Option.some.injEq]
        constructor
        · intro h
          cases h
        · rintro ⟨rfl, hb⟩
          exact absurd hb hknown

/-- The session holds no id but the one the user has selected. -/
def SelectionInv (s : Session) : Prop :=
  (∀ k, s.working.selected_id = some k → s.working.chosen = some k) ∧
    ∀ k, s.stored.selected_id = some k → s.stored.chosen = some k

theorem selection_cases (hinv : SelectionInv s) (hk : s.working.chosen = some k) :
    s.working.selected_id = some k ∨ s.working = ⟨none, some k⟩ := by
  cases hsel : s.working.selected_id with
  | none =>
    right
    rw [← hsel, ← hk]
  | some i =>
    left
    rw [← hk, hinv.1 i hsel]

/-- A lookup fails closed exactly if the fallback finds nothing else. -/
theorem failsClosed_iff (hinv : SelectionInv s) (action : Action) :
    FailsClosed env s action ↔ Unarmed env s action := by
  cases action with
  | lookup user broker_type =>
    constructor
    · rintro hclosed k a ⟨huser, hlost, hlatest⟩
      have hres : (resolve env s user broker_type).1 = some a := by
        rw [resolve_none (by rw [hlost]), hlatest]
      obtain ⟨hpk, husable⟩ := hclosed huser k (by rw [hlost]) a hres
      exact ⟨hpk, husable.environment⟩
    · intro hun huser k hk
      rcases selection_cases hinv hk with hsel | hlost
      · exact resolve_selected hsel
      · intro a ha
        rw [resolve_none (by rw [hlost])] at ha
        obtain ⟨hpk, hknown⟩ := hun k a ⟨huser, hlost, ha⟩
        obtain ⟨hconnected, hfilter⟩ := mem_candidates (latest_mem ha)
        exact ⟨hpk, hconnected, hfilter, hknown⟩
  | require user =>
    constructor
    · rintro hclosed k a ⟨huser, hlost, hlatest⟩ hknown
      have hres : (resolve env s user none).1 = some a := by
        rw [resolve_none (by rw [hlost]), hlatest]
      exact (hclosed huser k (by rw [hlost]) a (requireActive_some.mpr ⟨hres, hknown⟩)).1
    · intro hun huser k hk a ha
      obtain ⟨hres, hknown⟩ := requireActive_some.mp ha
      rcases selection_cases hinv hk with hsel | hlost
      · exact resolve_selected hsel a hres
      · rw [resolve_none (by rw [hlost])] at hres
        obtain ⟨hconnected, hfilter⟩ := mem_candidates (latest_mem hres)
        exact ⟨hun k a ⟨huser, hlost, hres⟩ hknown, hconnected, hfilter, hknown⟩
  | select user pk account_type now => exact Iff.rfl
  | disconnect user supplied_id => exact Iff.rfl
  | accounts rows => exact Iff.rfl
  | respond failed => exact Iff.rfl

/-! ## Runs of a session -/

theorem SelectionInv.drop (hinv : SelectionInv s) : SelectionInv s.drop := by
  refine ⟨?_, hinv.2⟩
  intro k hk
  cases hk

theorem SelectionInv.resolve (hinv : SelectionInv s) :
    SelectionInv (ActiveAccount.resolve env s user broker_type).2 := by
  unfold ActiveAccount.resolve
  dsimp only
  split
  · split
    · split
      · exact hinv
      · exact hinv.drop
    · exact hinv.drop
  · exact hinv

theorem requireActive_session :
    (requireActive env s user).2 = (resolve env s user none).2 := by
  unfold requireActive
  split
  · next hr => rw [hr]
  · next hr =>
    rw [hr]
    split
    · rfl
    · rfl

theorem selectAccount_ok {now : ℤ} (h : selectAccount env s user a now = .ok s') :
    s' = { s with working := ⟨some a.pk, some a.pk⟩ } := by
  unfold selectAccount at h
  split at h
  · cases h
  · split at h
    · cases h
    · cases h
      rfl

theorem select_ok {pk : ℕ} {account_type : String} {now : ℤ}
    (h : select env s user pk account_type now = .ok s') :
    ∃ k, s' = { s with working := ⟨some k, some k⟩ } := by
  unfold select at h
  split at h
  · cases h
  · split at h
    · cases h
    · next account _ =>
      dsimp only at h
      iterate 5
        split at h
        · cases h
      exact ⟨account.pk, selectAccount_ok h⟩

theorem SelectionInv.next {action : Action} (hinv : SelectionInv s)
    (h : (sessionMachine env).next s action = some s') : SelectionInv s' := by
  cases action with
  | select user pk account_type now =>
    simp only [sessionMachine] at h
    split at h
    · next hsel =>
      obtain rfl := Option.some.inj h
      obtain ⟨k, rfl⟩ := select_ok hsel
      refine ⟨?_, hinv.2⟩
      intro i hi
      exact hi
    · obtain rfl := Option.some.inj h
      exact hinv
  | lookup user broker_type =>
    obtain rfl := Option.some.inj h
    exact hinv.resolve
  | require user =>
    obtain rfl := Option.some.inj h
    rw [requireActive_session]
    exact hinv.resolve
  | disconnect user supplied_id =>
    simp only [sessionMachine] at h
    split at h
    · next account _ =>
      obtain rfl := Option.some.inj h
      unfold disconnected
      dsimp only
      have hrows : ∀ rows, SelectionInv { s with accounts := rows } := fun _ => hinv
      split
      · exact (hrows _).drop
      · exact hrows _
    · obtain rfl := Option.some.inj h
      exact hinv
  | accounts rows =>
    obtain rfl := Option.some.inj h
    exact hinv
  | respond failed =>
    simp only [sessionMachine] at h
    split at h
    · obtain rfl := Option.some.inj h
      exact ⟨hinv.2, hinv.2⟩
    · obtain rfl := Option.some.inj h
      exact ⟨hinv.1, hinv.1⟩

/-- A session in which no account has been selected yet. -/
def Session.start (user : ℕ) (accounts : Table Account) : Session where
  user := user
  accounts := accounts
  working := ⟨none, none⟩
  stored := ⟨none, none⟩

theorem SelectionInv.start (user : ℕ) (accounts : Table Account) :
    SelectionInv (Session.start user accounts) := by
  constructor
  · intro k hk
    cases hk
  · intro k hk
    cases hk

/-- In every run of a session all lookups fail closed exactly if none is made without the
selection that would find something else. -/
theorem fails_closed_iff (env : Env) (user : ℕ) (accounts : Table Account) (actions : List Action)
    (t : Session) :
    (sessionMachine env).RunIf (FailsClosed env) (Session.start user accounts) actions t ↔
      (sessionMachine env).RunIf (Unarmed env) (Session.start user accounts) actions t :=
  Machine.RunIf.congr (fun _ _ _ hinv hn => hinv.next hn) (fun _ action hinv =>
    failsClosed_iff hinv action) (SelectionInv.start user accounts)

/-! ### A real account in place of the selected demo one -/

/-- An environment for examples: ASCII text, no stored token can be read. -/
def Env.plain : Env where
  host := Host.ascii
  int_of_digits _ := none
  decrypt _ := none
  nulls_first := true
  ENABLE_BROKER_ACCOUNT_SWITCH := true

/-- A demo account at one broker, and a real one at another. -/
def demoAndReal : Table Account where
  rows :=
    [{ pk := 1, user := 7, broker := ⟨"oanda", .active, []⟩, account_id := "D-1", status := .active
       credentials := [("account_type", .str "demo")], access_token := "", token_status := .active
       expires_at := none, last_synced_at := some 10, connection := some .connected },
     { pk := 2, user := 7, broker := ⟨"deriv", .active, []⟩, account_id := "CR2", status := .active
       credentials := [("account_type", .str "real")], access_token := "", token_status := .active
       expires_at := none, last_synced_at := some 20, connection := some .connected }]
  nodup := by decide

/-- The demo account is selected, a page looks for a Deriv account, then for any. -/
def switchingActions : List Action :=
  [.select 7 1 "demo" 0, .lookup 7 (some "deriv"), .respond false, .lookup 7 none]

/-- The lookup with a filter drops the selection, and the next one returns the real account. -/
theorem lookup_switches :
    ¬ ∀ actions t, (sessionMachine .plain).Run (Session.start 7 demoAndReal) actions t →
      (sessionMachine .plain).RunIf (FailsClosed .plain) (Session.start 7 demoAndReal)
        actions t := by
  intro hall
  have hrun : ((sessionMachine .plain).exec (Session.start 7 demoAndReal)
      switchingActions).isSome = true := by
    decide +kernel
  obtain ⟨t, ht⟩ := Machine.exists_run hrun
  have hreal : ((sessionMachine .plain).exec (Session.start 7 demoAndReal)
      (switchingActions.take 3)).any (fun s => s.user == 7 && s.working.chosen == some 1 &&
        (resolve .plain s 7 none).1.any fun a => a.pk == 2) = true := by
    decide +kernel
  obtain ⟨s, hs, hafter⟩ := (Option.any_eq_true _ _).mp hreal
  obtain ⟨hmine, hother⟩ := Bool.and_eq_true_iff.mp hafter
  obtain ⟨huser, hchosen⟩ := Bool.and_eq_true_iff.mp hmine
  obtain ⟨a, ha, hpk⟩ := (Option.any_eq_true _ _).mp hother
  have hclosed : FailsClosed .plain s (.lookup 7 none) :=
    Machine.RunIf.guard_of_exec (hall switchingActions t ht) hs
  have hfirst : a.pk = 1 := (hclosed (beq_iff_eq.mp huser).symm 1 (beq_iff_eq.mp hchosen) a ha).1
  rw [hfirst] at hpk
  cases hpk

end AlgoBot.ActiveAccount
