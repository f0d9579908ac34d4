import AlgoBot.Brokers.Accounts
import AlgoBot.Core.ReadCommitted
import Mathlib.Data.List.MinMax

/-!
# Who owns a broker account

The OAuth callback gets the accounts of a Deriv login and its identity from the
provider. It looks up who owns the accounts with this identity, then who owns the
selected account, and if nobody else does, writes the accounts one by one, each in
a transaction of its own. At last the connection check saves the credentials of
the selected account once more.

* `ownership_iff`: in every interleaving of callbacks each account keeps its owner
  and has tokens of a callback of the owner that listed it, and no two users have
  accounts with one identity, exactly if no account of another user is given the
  identity between its lookup and a save.
* `shared_identity`: two callbacks of one identity that both look it up before
  either writes.
-/

namespace AlgoBot.OAuthCallback

open AlgoBot.Core AlgoBot.Python

/-- A `BrokerAccount` of the Deriv broker, with its owner and its tokens as they were encrypted. -/
structure Account extends Accounts.BrokerAccount where
  user : ℕ
  access_token : String
  refresh_token : String

/-! ## What the provider returns -/

section Provider

variable (h : Host)

/-- `_account_records`. -/
def accountRecords (payload : Value) : List Dict :=
  match Dict.get payload.asDict "data" with
  | .dict data => [data]
  | .list data => (data.filter Value.isDict).map Value.asDict
  | _ => []

/-- `_account_id`. -/
def accountId (record : Dict) : String :=
  strip (textOr h (record.firstOf ["account_id", "loginid"]) "")

/-- `_account_type`, without a balance from the websocket. -/
def recordType (record : Dict) : String :=
  let value := strip (h.lower (textOr h (record.get "account_type") ""))
  let value := if value = "real" ∨ value = "demo" then value else ""
  match record.get "is_virtual" with
  | .bool is_virtual =>
      let verified_type := if is_virtual then "demo" else "real"
      if value ≠ "" ∧ value ≠ verified_type then "unknown" else verified_type
  | _ => if value = "" then "unknown" else value

/-- `isinstance(value, (str, int, float, bool))`. -/
def isScalar : Value → Bool
  | .str _ | .int _ | .float _ _ | .bool _ => true
  | _ => false

/-- A scalar that is not the empty text. -/
def storable (value : Value) : Bool := isScalar value && !value.beq (.str "")

def allowedFields : List String :=
  ["user_id", "loginid", "email", "fullname", "first_name", "last_name", "username", "country",
    "residence", "preferred_language", "language", "timezone", "phone", "phone_number",
    "country_code", "avatar_url"]

/-- `_safe_deriv_identity`: the allowed fields that are storable. -/
def safeIdentity (identity : Dict) : Dict :=
  allowedFields.filterMap fun key =>
    ((identity.lookup key).filter storable).map fun value => (key, value)

/-- `identity.get("loginid") or identity.get("account_id") or ""`. -/
def identityLoginid (identity : Dict) : String :=
  strip (textOr h (identity.firstOf ["loginid", "account_id"]) "")

end Provider

/-- A callback that got as far as the provider's answers. -/
structure Grant where
  user : ℕ
  access_token : String
  refresh_token : String
  /-- The verified accounts; the first one is selected. -/
  accounts : List Dict
  /-- What the websocket authorization returned, empty if it failed. -/
  deriv_identity : Dict

/-- The selected account id. -/
def Grant.selected (h : Host) (g : Grant) : String := (g.accounts.head?.map (accountId h)).getD ""

/-- A request to the callback, and how the provider answers. -/
structure Request where
  /-- `request.user`, if it is authenticated. -/
  user : Option ℕ
  email_verified : Bool
  error : String
  state_valid : Bool
  pkce_valid : Bool
  code : String
  /-- The access and the refresh token, if the exchange succeeds and its response is valid. -/
  token_data : Option (String × String)
  oauth_initiating_user_id : Option String
  /-- The accounts, unless the request for them fails. -/
  payload : Option Value
  /-- The identity, unless the websocket authorization fails. -/
  identity : Option Dict

/-- The callback up to its first query; `none` is a redirect with an error. -/
def Request.admit (h : Host) (r : Request) : Option Grant :=
  match r.user, r.token_data, r.payload with
  | some user, some (access_token, refresh_token), some payload =>
      let accounts := accountRecords payload
      let g : Grant := ⟨user, access_token, refresh_token, accounts, r.identity.getD []⟩
      if r.email_verified && r.error == "" && r.state_valid && r.pkce_valid && r.code != "" &&
          r.oauth_initiating_user_id.all (fun id => id == toString user) &&
          g.selected h != "" then some g
      else none
  | _, _, _ => none

/-! ## The rows -/

/-- `credentials__deriv_identity__user_id`, or `none` where there is none. -/
def storedUserId (row : Account) : Value :=
  Dict.get (row.credentials.get "deriv_identity").asDict "user_id"

/-- The credentials `_persist_deriv_account` leaves in the account. -/
def persistedCredentials (h : Host) (g : Grant) (record credentials : Dict) : Dict :=
  let websocket_health :=
    if accountId h record = g.selected h ∧ identityLoginid h g.deriv_identity = g.selected h
    then "verified" else "not_checked"
  let credentials := credentials.insert "account_type" (.str (recordType h record))
  let credentials := credentials.insert "connection_health" (.str websocket_health)
  let avatar_url := strip (textOr h (record.get "avatar_url") "")
  let credentials := if avatar_url = "" then credentials
    else credentials.insert "avatar_url" (.str avatar_url)
  if g.deriv_identity.isEmpty then credentials
  else credentials.insert "deriv_identity" (.dict (safeIdentity g.deriv_identity))

/-- The account in memory when `_persist_deriv_account` saves it. -/
def persisted (h : Host) (now : ℕ) (g : Grant) (record : Dict) (row : Account) : Account :=
  { row with
    currency := (record.get "currency").or (.str "USD")
    balance := match record.get "balance" with
      | .none => .int 0
      | balance => balance
    equity := .int 0
    status := .active
    credentials := persistedCredentials h g record row.credentials
    last_synced_at := now
    access_token := g.access_token
    refresh_token := g.refresh_token }

/-- The row `get_or_create` inserts. -/
def Account.new (user : ℕ) (account_id : String) : Account where
  user := user
  account_id := account_id
  currency := .str "USD"
  balance := .int 0
  equity := .int 0
  margin := .int 0
  free_margin := .int 0
  status := .active
  credentials := []
  last_synced_at := 0
  access_token := ""
  refresh_token := ""

/-- What the connection check saves of its copy. -/
def saveConnected (copy row : Account) : Account :=
  { row with
    toBrokerAccount := Accounts.save [.balance, .currency, .credentials, .status, .last_synced_at]
      copy.toBrokerAccount row.toBrokerAccount }

/-! ## Callbacks -/

/-- An account in memory. -/
structure Copy where
  k : ℕ
  account : Account
  /-- The database when the identity the account is saved with was looked up, or read; nothing
  reads it. -/
  seen : Db Account

/-- Where a callback stands; `rest` are the records it has not come to, and `selected` is the
selected account once that is written. -/
inductive Phase
  /-- Before the lookup of the identity. -/
  | verified
  /-- Before the lookup of the selected account. -/
  | identified (owner : Option ℕ)
  | looping (rest : List Dict) (selected : Option Copy)
  /-- In `get_or_create`, before its query, which is made `again` after an `IntegrityError`. -/
  | getting (again : Bool) (record : Dict) (rest : List Dict) (selected : Option Copy)
  | creating (record : Dict) (rest : List Dict) (selected : Option Copy)
  /-- Before the `UPDATE` and before the `COMMIT`. -/
  | saving (copy : Copy) (rest : List Dict) (selected : Option Copy)
  | saved (copy : Copy) (rest : List Dict) (selected : Option Copy)
  /-- In the connection check. -/
  | connecting (copy : Copy)

structure Callback where
  grant : Grant
  phase : Phase
  /-- The database when the identity was looked up; nothing reads it. -/
  seen : Db Account

structure State where
  accounts : Db Account
  callbacks : ℕ → Option Callback
  /-- What the provider has granted so far; nothing reads it. -/
  grants : List Grant

inductive Action
  | begin (i : ℕ) (r : Request)
  /-- The next query or write of callback `i`, unless it waits for a row another one holds. -/
  | advance (i now : ℕ)
  /-- The connection check of callback `i` ends, with what it verified or an exception. -/
  | connect (i now : ℕ) (verification : Option Dict)
  /-- An exception, and with it the rollback of an open transaction. -/
  | fail (i : ℕ)

/-- `BrokerAccount.objects.filter(account_id=...).first()`. -/
def find (db : Db Account) (i : ℕ) (account_id : String) : Option (ℕ × Account) :=
  (db.select i fun row => row.account_id == account_id).argmin Prod.fst

/-- The owner of the first account with the identity, `.order_by("id").first()`. -/
def identityOwner (db : Db Account) (i : ℕ) (user_id : Value) : Option ℕ :=
  if user_id.beq .none || user_id.beq (.str "") then none
  else
    ((db.select i fun row => (storedUserId row).beq user_id).argmin Prod.fst).map fun r =>
      r.2.user

/-- Somebody else's account. -/
def Grant.foreign (g : Grant) (row : ℕ × Account) : Bool := row.2.user != g.user

namespace Callback

variable (h : Host) (now : ℕ) (db : Db Account) (i : ℕ) (c : Callback)

def goto (phase : Phase) : Callback := { c with phase := phase }

/-- The loop goes on past a record that is not written, and gives up at the selected one. -/
def skip (record : Dict) (rest : List Dict) (selected : Option Copy) : Option Callback :=
  if accountId h record = c.grant.selected h then none else some (c.goto (.looping rest selected))

/-- The account in memory before it is saved. -/
def copy (k : ℕ) (record : Dict) (row : Account) : Copy :=
  ⟨k, persisted h now c.grant record row, if c.grant.deriv_identity.isEmpty then db else c.seen⟩

/-- The next query or write; `none` while it waits. -/
def advance : Option (Db Account × Option Callback) :=
  match c.phase with
  | .verified =>
      let owner := identityOwner db i (c.grant.deriv_identity.get "user_id")
      some (db, some { c with phase := .identified owner, seen := db })
  | .identified owner =>
      if (find db i (c.grant.selected h)).any c.grant.foreign ||
          owner.any (fun user => user != c.grant.user) then
        some (db, none)
      else some (db, some (c.goto (.looping c.grant.accounts none)))
  | .looping [] none => some (db, none)
  | .looping [] (some selected) => some (db, some (c.goto (.connecting selected)))
  | .looping (record :: rest) selected =>
      if accountId h record = "" then some (db, some (c.goto (.looping rest selected)))
      else if (find db i (accountId h record)).any c.grant.foreign then
        some (db, c.skip h record rest selected)
      else some (db, some (c.goto (.getting false record rest selected)))
  | .getting again record rest selected =>
      match find db i (accountId h record) with
      | some (k, row) =>
          if row.user = c.grant.user then
            some (db, some (c.goto (.saving (c.copy h now db k record row) rest selected)))
          else some (db, c.skip h record rest selected)
      | none =>
          some (db, if again then none else some (c.goto (.creating record rest selected)))
  | .creating record rest selected =>
      let new := Account.new c.grant.user (accountId h record)
      let clashes := fun row : Account => row.account_id == new.account_id
      -- the constraint on broker and account id
      if db.rows.any fun cell => cell.committed.any clashes then
        some (db, some (c.goto (.getting true record rest selected)))
      else if db.rows.any fun cell => cell.draft.any clashes then none
      else
        some (db.insert i new,
          some (c.goto (.saving (c.copy h now db db.nextPk record new) rest selected)))
  | .saving copy rest selected =>
      if (db.get? copy.k).all (Cell.free i) then
        some (db.hold i copy.k fun _ => copy.account, some (c.goto (.saved copy rest selected)))
      else none
  | .saved copy rest selected =>
      let selected := if copy.account.account_id = c.grant.selected h then some copy else selected
      some (db.commit i, some (c.goto (.looping rest selected)))
  | .connecting _ => none

end Callback

/-- What the connection check makes of its copy, if it verifies the account. -/
def Copy.checked (h : Host) (now : ℕ) (copy : Copy) (verification : Dict) : Option Copy :=
  if Accounts.verified h "deriv" copy.account.toBrokerAccount verification then
    some { copy with account := { copy.account with
      toBrokerAccount := Accounts.connected h now copy.account.toBrokerAccount verification } }
  else none

namespace State

def set (s : State) (i : ℕ) (db : Db Account) (callback : Option Callback) : State :=
  { s with accounts := db, callbacks := Function.update s.callbacks i callback }

def next (h : Host) (s : State) : Action → Option State
  | .begin i r =>
      match s.callbacks i, r.admit h with
      | none, some g =>
          some { s.set i s.accounts (some ⟨g, .verified, s.accounts⟩) with grants := g :: s.grants }
      | none, none => some s
      | some _, _ => none
  | .advance i now =>
      (s.callbacks i).bind fun c =>
        (c.advance h now s.accounts i).map fun out => s.set i out.1 out.2
  | .connect i now verification =>
      match (s.callbacks i).map Callback.phase with
      | some (.connecting copy) =>
          match verification.bind (copy.checked h now) with
          | none => some (s.set i s.accounts none)
          | some copy =>
              if (s.accounts.get? copy.k).all (Cell.free i) then
                let db := s.accounts.hold i copy.k (saveConnected copy.account)
                some (s.set i (db.commit i) none)
              else none
      | _ => none
  | .fail i => some (s.set i (s.accounts.abort i) none)

end State

/-- Callbacks of any users, one query or write at a time. -/
def callbacks (h : Host) : Machine State Action := ⟨State.next h⟩

/-! ## What the claim asks -/

/-- The account is in the database. -/
def Stored (db : Db Account) (k : ℕ) (row : Account) : Prop :=
  (db.get? k).bind Cell.committed = some row

/-- The two accounts are stored with one identity. -/
def sameIdentity (row other : Account) : Bool :=
  storable (storedUserId row) && (storedUserId row).beq (storedUserId other)

/-- The tokens are those of a callback of the owner that listed the account. -/
def GrantedBy (h : Host) (g : Grant) (row : Account) : Prop :=
  row.user = g.user ∧ row.account_id ∈ g.accounts.map (accountId h) ∧
    row.access_token = g.access_token ∧ row.refresh_token = g.refresh_token

/-- No two users have accounts with one identity. -/
def Apart (db : Db Account) : Prop :=
  ∀ j k row other, Stored db j row → Stored db k other → sameIdentity row other = true →
    row.user = other.user

structure Owned (h : Host) (s : State) : Prop where
  granted : ∀ k row, Stored s.accounts k row → ∃ g ∈ s.grants, GrantedBy h g row
  identity : Apart s.accounts

/-- The same account of the same owner. -/
def SameOwner (row' row : Account) : Prop :=
  row'.user = row.user ∧ row'.account_id = row.account_id

/-- Every account stays, with its owner. -/
def OwnersStay (h : Host) (s : State) (a : Action) : Prop :=
  ∀ k row s', Stored s.accounts k row → s.next h a = some s' →
    ∃ row', Stored s'.accounts k row' ∧ SameOwner row' row

/-- The account a step commits, with its key, and what the callback has seen. -/
def State.writes (h : Host) (s : State) : Action → Option Copy
  | .advance i _ =>
      match (s.callbacks i).map Callback.phase with
      | some (.saved copy _ _) => some copy
      | _ => none
  | .connect i now verification =>
      match (s.callbacks i).map Callback.phase with
      | some (.connecting copy) =>
          (verification.bind (copy.checked h now)).bind fun copy =>
            ((s.accounts.get? copy.k).bind Cell.committed).map fun row =>
              { copy with account := saveConnected copy.account row }
      | _ => none
  | _ => none

/-- An account of another user has the identity now, and had not when the callback looked. -/
def overtaken (db : Db Account) (copy : Copy) : Bool :=
  db.rows.any fun c => c.committed.any fun other =>
    other.user != copy.account.user && sameIdentity copy.account other &&
      !((copy.seen.get? c.pk).bind Cell.committed).any (sameIdentity copy.account)

/-- The step commits no account that was overtaken. -/
def upToDate (h : Host) (s : State) (a : Action) : Bool :=
  (s.writes h a).all fun copy => !overtaken s.accounts copy

/-- No callback is in progress, and no transaction is open. -/
structure Resting (s : State) : Prop where
  idle : ∀ i, s.callbacks i = none
  free : ∀ k c, s.accounts.get? k = some c → c.holder = none

/-! ## One identity -/

variable {h : Host} {db db' : Db Account} {i j k now : ℕ} {g : Grant} {row other : Account}
  {copy : Copy} {c : Callback} {s s' : State} {v w x : Value}

/-- JSON scalars are compared alike from both sides. -/
theorem beq_comm_of_scalar (hv : isScalar v = true) : v.beq w = w.beq v := by
  cases v with
  | none => cases hv
  | list xs => cases hv
  | dict kvs => cases hv
  | bool b => cases w <;> simp [Value.beq, Bool.beq_comm]
  | int n => cases w <;> simp [Value.beq, BEq.comm]
  | float r n => cases w <;> simp [Value.beq, BEq.comm]
  | str x => cases w <;> simp [Value.beq, BEq.comm]

/-- What equals a scalar is one, and is compared with everything else as that is. -/
theorem beq_of_scalar (hv : isScalar v = true) (hw : v.beq w = true) :
    isScalar w = true ∧ ∀ x, w.beq x = v.beq x := by
  cases v with
  | none => cases hv
  | list xs => cases hv
  | dict kvs => cases hv
  | bool b =>
    cases w with
    | bool b' =>
      obtain rfl : b = b' := beq_iff_eq.mp hw
      exact ⟨rfl, fun _ => rfl⟩
    | _ => cases hw
  | int n =>
    cases w with
    | int n' =>
      obtain rfl : n = n' := beq_iff_eq.mp hw
      exact ⟨rfl, fun _ => rfl⟩
    | _ => cases hw
  | float r n =>
    cases w with
    | float r' n' =>
      obtain rfl : r = r' := beq_iff_eq.mp hw
      refine ⟨rfl, ?_⟩
      intro x
      cases x <;> rfl
    | _ => cases hw
  | str t =>
    cases w with
    | str t' =>
      obtain rfl : t = t' := beq_iff_eq.mp hw
      exact ⟨rfl, fun _ => rfl⟩
    | _ => cases hw

theorem scalar_of_storable (hv : storable v = true) : isScalar v = true :=
  (Bool.and_eq_true_iff.mp hv).1

theorem storable_of_beq (hv : storable v = true) (hw : v.beq w = true) : storable w = true := by
  obtain ⟨hscalar, hsame⟩ := beq_of_scalar (scalar_of_storable hv) hw
  unfold storable at hv ⊢
  rw [hsame, hscalar]
  exact (Bool.and_eq_true_iff.mp hv).2

theorem sameIdentity_symm (hsame : sameIdentity row other = true) :
    sameIdentity other row = true := by
  simp only [sameIdentity, Bool.and_eq_true] at hsame ⊢
  obtain ⟨hstorable, heq⟩ := hsame
  refine ⟨storable_of_beq hstorable heq, ?_⟩
  rw [← beq_comm_of_scalar (scalar_of_storable hstorable)]
  exact heq

/-- An account with a given identity has that of every other one with it. -/
theorem sameIdentity_of_beq (hv : storable v = true) (hrow : v.beq (storedUserId row) = true)
    (hother : v.beq (storedUserId other) = true) : sameIdentity row other = true := by
  unfold sameIdentity
  rw [storable_of_beq hv hrow, (beq_of_scalar (scalar_of_storable hv) hrow).2, hother]
  rfl

theorem lookup_filterMap {keys : List String} {f : String → Option Value} {key : String} :
    (keys.filterMap fun key => (f key).map fun value => (key, value)).lookup key =
      if key ∈ keys then f key else none := by
  induction keys with
  | nil => rfl
  | cons k keys ih =>
    by_cases hk : key = k
    · subst hk
      cases hf : f key with
      | none =>
        rw [List.filterMap_cons, hf]
        simp only [Option.map_none, ih, hf]
        split <;> simp
      | some value => simp [hf]
    · have hne : (key == k) = false := by simpa using hk
      cases hf : f k with
      | none => simp [hf, ih, hk]
      | some value => simp [hf, ih, hk, List.lookup_cons, hne]

/-- The identity an account is saved with: the one that was looked up, or the one it had. -/
theorem storedUserId_persisted (h : Host) (now : ℕ) (g : Grant) (record : Dict) (row : Account) :
    storedUserId (persisted h now g record row) =
      if g.deriv_identity.isEmpty then storedUserId row
      else if storable (g.deriv_identity.get "user_id") then g.deriv_identity.get "user_id"
      else .none := by
  have hkept : ∀ (credentials : Dict) (avatar_url health type : Value),
      (((credentials.insert "account_type" type).insert "connection_health" health).insert
        "avatar_url" avatar_url).get "deriv_identity" = credentials.get "deriv_identity" := by
    intro credentials avatar_url health type
    simp [Dict.get_insert]
  have hsafe : Dict.get (safeIdentity g.deriv_identity) "user_id" =
      if storable (g.deriv_identity.get "user_id") then g.deriv_identity.get "user_id"
      else .none := by
    rw [Dict.get, safeIdentity, lookup_filterMap, if_pos (by decide), Dict.get]
    cases g.deriv_identity.lookup "user_id" with
    | none => simp [storable, isScalar]
    | some value =>
      simp only [Option.filter_some, Option.getD_some]
      split <;> rfl
  unfold storedUserId persisted persistedCredentials
  dsimp only
  by_cases hempty : g.deriv_identity.isEmpty = true
  · rw [if_pos hempty, if_pos hempty]
    split
    · simp [Dict.get_insert]
    · rw [hkept]
  · rw [if_neg hempty, if_neg hempty, Dict.get_insert, if_pos rfl]
    exact hsafe

/-- The connection check leaves the identity. -/
theorem storedUserId_checked (row : Account) {verification : Dict} {checked : Copy}
    (hchecked : copy.checked h now verification = some checked) :
    checked.k = copy.k ∧ checked.seen = copy.seen ∧
      storedUserId (saveConnected checked.account row) = storedUserId copy.account := by
  unfold Copy.checked at hchecked
  split at hchecked
  · cases hchecked
    refine ⟨rfl, rfl, ?_⟩
    have hkept : ∀ (credentials : Dict) (health avatar_url : Value),
        ((credentials.insert "connection_health" health).insert "avatar_url" avatar_url).get
          "deriv_identity" = credentials.get "deriv_identity" := by
      intro credentials health avatar_url
      simp [Dict.get_insert]
    have hcredentials : (Accounts.connected h now copy.account.toBrokerAccount
        verification).credentials.get "deriv_identity" =
          copy.account.credentials.get "deriv_identity" := by
      unfold Accounts.connected
      dsimp only
      split
      · rw [hkept]
        split
        · rfl
        · simp [Dict.get_insert]
      · rw [Dict.get_insert, if_neg (by decide)]
        split
        · rfl
        · simp [Dict.get_insert]
    unfold storedUserId saveConnected
    simp only [Accounts.save]
    rw [if_pos (by decide), hcredentials]
  · cases hchecked

/-! ## What a callback relies on -/

def NothingHeld (db : Db Account) (i : ℕ) : Prop :=
  ∀ k c, db.get? k = some c → c.holder ≠ some i

def HoldsOnly (db : Db Account) (i k : ℕ) : Prop :=
  ∀ l c, db.get? l = some c → c.holder = some i → l = k

/-- The copy is of the callback's own insertion, or of a row that is committed. -/
def Found (db : Db Account) (i : ℕ) (copy : Copy) : Prop :=
  (∃ row, db.get? copy.k = some ⟨copy.k, none, some i, some row⟩) ∨
    NothingHeld db i ∧ ∃ row, Stored db copy.k row ∧ SameOwner copy.account row

/-- The copy is written and not committed. -/
def Written (db : Db Account) (i : ℕ) (copy : Copy) : Prop :=
  ∃ c, db.get? copy.k = some c ∧ c.holder = some i ∧ c.draft = some copy.account ∧
    ∀ row, c.committed = some row → SameOwner copy.account row

/-- The accounts that were seen are still there, with their owners. -/
def Stays (db seen : Db Account) : Prop :=
  ∀ k row, Stored seen k row → ∃ row', Stored db k row' ∧ SameOwner row' row

/-- The accounts with the identity of the callback were of its user. -/
def Clear (seen : Db Account) (g : Grant) : Prop :=
  ∀ k row, Stored seen k row → storable (g.deriv_identity.get "user_id") = true →
    (g.deriv_identity.get "user_id").beq (storedUserId row) = true → row.user = g.user

/-- What is known of an account in memory. -/
structure Sound (h : Host) (db : Db Account) (g : Grant) (copy : Copy) : Prop where
  granted : GrantedBy h g copy.account
  stays : Stays db copy.seen
  clear : ∀ k row, Stored copy.seen k row → sameIdentity copy.account row = true →
    row.user = copy.account.user

/-- The account is saved. -/
def Kept (db : Db Account) (copy : Copy) : Prop :=
  ∃ row, Stored db copy.k row ∧ SameOwner copy.account row

/-- What is known in the loop. -/
structure Looping (h : Host) (db : Db Account) (c : Callback) (rest : List Dict)
    (selected : Option Copy) : Prop where
  listed : rest ⊆ c.grant.accounts
  stays : Stays db c.seen
  clear : Clear c.seen c.grant
  selected : ∀ copy, selected = some copy → Sound h db c.grant copy ∧ Kept db copy

/-- What holds where a callback is. -/
def Callback.Inv (h : Host) (db : Db Account) (i : ℕ) (c : Callback) : Prop :=
  match c.phase with
  | .verified => NothingHeld db i
  | .identified owner =>
      NothingHeld db i ∧ Stays db c.seen ∧
        (owner.any (fun user => user != c.grant.user) = false → Clear c.seen c.grant)
  | .looping rest selected => NothingHeld db i ∧ Looping h db c rest selected
  | .getting _ record rest selected | .creating record rest selected =>
      NothingHeld db i ∧ Looping h db c (record :: rest) selected
  | .saving copy rest selected =>
      Found db i copy ∧ HoldsOnly db i copy.k ∧ Sound h db c.grant copy ∧
        Looping h db c rest selected
  | .saved copy rest selected =>
      Written db i copy ∧ HoldsOnly db i copy.k ∧ Sound h db c.grant copy ∧
        Looping h db c rest selected
  | .connecting copy => NothingHeld db i ∧ Sound h db c.grant copy ∧ Kept db copy

structure Inv (h : Host) (s : State) : Prop where
  idle : ∀ i, s.callbacks i = none → NothingHeld s.accounts i
  callback : ∀ i c, s.callbacks i = some c → c.grant ∈ s.grants ∧ c.Inv h s.accounts i

/-! ### Steps of another callback -/

theorem sameOwner_refl (row : Account) : SameOwner row row := ⟨rfl, rfl⟩

theorem SameOwner.trans {a b c : Account} (hab : SameOwner a b) (hbc : SameOwner b c) :
    SameOwner a c :=
  ⟨hab.1.trans hbc.1, hab.2.trans hbc.2⟩

theorem SameOwner.symm {a b : Account} (hab : SameOwner a b) : SameOwner b a :=
  ⟨hab.1.symm, hab.2.symm⟩

/-- What a step of callback `i` leaves to the others. -/
abbrev Frame : ℕ → Db Account → Db Account → Prop := Db.Frame SameOwner

theorem Stored.frame (hrow : Stored db k row) (hframe : Frame i db db') :
    ∃ row', Stored db' k row' ∧ SameOwner row' row := by
  obtain ⟨c, hget, hcommitted⟩ := Option.bind_eq_some_iff.mp hrow
  obtain ⟨c', row', hget', hcommitted', hsame⟩ := hframe.committed k c row hget hcommitted
  refine ⟨row', ?_, hsame⟩
  rw [Stored, hget', Option.bind_some, hcommitted']

theorem Stays.frame {seen : Db Account} (hstays : Stays db seen) (hframe : Frame i db db') :
    Stays db' seen := by
  intro k row hrow
  obtain ⟨row', hrow', hsame⟩ := hstays k row hrow
  obtain ⟨row'', hrow'', hsame'⟩ := hrow'.frame hframe
  exact ⟨row'', hrow'', hsame'.trans hsame⟩

theorem Kept.frame (hkept : Kept db copy) (hframe : Frame i db db') : Kept db' copy := by
  obtain ⟨row, hrow, hsame⟩ := hkept
  obtain ⟨row', hrow', hsame'⟩ := hrow.frame hframe
  exact ⟨row', hrow', hsame.trans hsame'.symm⟩

theorem Sound.frame (hsound : Sound h db g copy) (hframe : Frame i db db') :
    Sound h db' g copy :=
  ⟨hsound.granted, hsound.stays.frame hframe, hsound.clear⟩

theorem Looping.frame {rest : List Dict} {selected : Option Copy}
    (hlooping : Looping h db c rest selected) (hframe : Frame i db db') :
    Looping h db' c rest selected where
  listed := hlooping.listed
  stays := hlooping.stays.frame hframe
  clear := hlooping.clear
  selected copy hcopy :=
    ⟨(hlooping.selected copy hcopy).1.frame hframe, (hlooping.selected copy hcopy).2.frame hframe⟩

/-- The same, of what the loop has not come to. -/
theorem Looping.tail {record : Dict} {rest : List Dict} {selected : Option Copy}
    (hlooping : Looping h db c (record :: rest) selected) : Looping h db c rest selected :=
  { hlooping with listed := fun _ hr => hlooping.listed (List.mem_cons_of_mem record hr) }

theorem NothingHeld.frame (hnone : NothingHeld db j) (hframe : Frame i db db') (hne : j ≠ i) :
    NothingHeld db' j := by
  intro k c hget hholder
  exact hnone k c (hframe.holders k c j hne hget hholder) hholder

theorem HoldsOnly.frame (honly : HoldsOnly db j k) (hframe : Frame i db db') (hne : j ≠ i) :
    HoldsOnly db' j k := by
  intro l c hget hholder
  exact honly l c (hframe.holders l c j hne hget hholder) hholder

theorem Found.frame (hfound : Found db j copy) (hframe : Frame i db db') (hne : j ≠ i) :
    Found db' j copy := by
  rcases hfound with ⟨row, hget⟩ | ⟨hnone, hkept⟩
  · exact Or.inl ⟨row, hframe.stays copy.k _ j hne hget rfl⟩
  · exact Or.inr ⟨hnone.frame hframe hne, Kept.frame hkept hframe⟩

theorem Written.frame (hwritten : Written db j copy) (hframe : Frame i db db') (hne : j ≠ i) :
    Written db' j copy := by
  obtain ⟨d, hget, hholder, hrest⟩ := hwritten
  exact ⟨d, hframe.stays copy.k d j hne hget hholder, hholder, hrest⟩

theorem Callback.Inv.frame (hinv : c.Inv h db j) (hframe : Frame i db db') (hne : j ≠ i) :
    c.Inv h db' j := by
  obtain ⟨g, phase, seen⟩ := c
  cases phase with
  | verified => exact NothingHeld.frame hinv hframe hne
  | identified owner =>
    exact ⟨hinv.1.frame hframe hne, hinv.2.1.frame hframe, hinv.2.2⟩
  | looping rest selected => exact ⟨hinv.1.frame hframe hne, hinv.2.frame hframe⟩
  | getting again record rest selected => exact ⟨hinv.1.frame hframe hne, hinv.2.frame hframe⟩
  | creating record rest selected => exact ⟨hinv.1.frame hframe hne, hinv.2.frame hframe⟩
  | saving copy rest selected =>
    obtain ⟨hfound, honly, hsound, hlooping⟩ := hinv
    exact ⟨hfound.frame hframe hne, honly.frame hframe hne, hsound.frame hframe,
      hlooping.frame hframe⟩
  | saved copy rest selected =>
    obtain ⟨hwritten, honly, hsound, hlooping⟩ := hinv
    exact ⟨hwritten.frame hframe hne, honly.frame hframe hne, hsound.frame hframe,
      hlooping.frame hframe⟩
  | connecting copy =>
    exact ⟨hinv.1.frame hframe hne, hinv.2.1.frame hframe, hinv.2.2.frame hframe⟩

/-! ### The lookups -/

theorem stored_of_select (hnone : NothingHeld db i) {p : Account → Bool}
    (hmem : (k, row) ∈ db.select i p) : Stored db k row ∧ p row = true := by
  obtain ⟨d, hget, hvisible, hp⟩ := Db.mem_select hmem
  rw [Cell.visible, if_neg (hnone k d hget)] at hvisible
  refine ⟨?_, hp⟩
  rw [Stored, hget, Option.bind_some, hvisible]

theorem select_of_stored (hnone : NothingHeld db i) {p : Account → Bool} (hrow : Stored db k row)
    (hp : p row = true) : (k, row) ∈ db.select i p := by
  obtain ⟨d, hget, hcommitted⟩ := Option.bind_eq_some_iff.mp hrow
  refine Db.select_mem hget ?_ hp
  rw [Cell.visible, if_neg (hnone k d hget), hcommitted]

theorem find_stored (hnone : NothingHeld db i) {account_id : String}
    (hfind : find db i account_id = some (k, row)) :
    Stored db k row ∧ row.account_id = account_id := by
  obtain ⟨hrow, hid⟩ := stored_of_select hnone (List.argmin_mem hfind)
  exact ⟨hrow, beq_iff_eq.mp hid⟩

/-- The check of the identity: where no two users have one, looking at the first account with it is
enough. -/
theorem clear_of_owner (hnone : NothingHeld db i) (hapart : Apart db)
    (howner : (identityOwner db i (g.deriv_identity.get "user_id")).any
      (fun user => user != g.user) = false) : Clear db g := by
  intro k row hrow hstorable hsame
  generalize g.deriv_identity.get "user_id" = v at howner hstorable hsame
  have hscalar := scalar_of_storable hstorable
  have hnull : v.beq .none = false := by
    cases v with
    | none => cases hscalar
    | _ => rfl
  have hempty : v.beq (.str "") = false := by
    have hboth := Bool.and_eq_true_iff.mp hstorable
    simpa using hboth.2
  unfold identityOwner at howner
  rw [hnull, hempty] at howner
  simp only [Bool.or_self, Bool.false_eq_true, if_false] at howner
  have hsame' : (storedUserId row).beq v = true := by
    rw [← beq_comm_of_scalar hscalar]
    exact hsame
  have hmem := select_of_stored (p := fun row => (storedUserId row).beq v) hnone hrow hsame'
  cases hfirst : (db.select i fun row => (storedUserId row).beq v).argmin Prod.fst with
  | none =>
    rw [List.argmin_eq_none] at hfirst
    rw [hfirst] at hmem
    cases hmem
  | some first =>
    rw [hfirst] at howner
    obtain ⟨l, other⟩ := first
    obtain ⟨hother, hother'⟩ := stored_of_select hnone (List.argmin_mem hfirst)
    rw [← beq_comm_of_scalar hscalar] at hother'
    have huser : other.user = g.user := by simpa using howner
    rw [← huser]
    exact hapart k l row other hrow hother (sameIdentity_of_beq hstorable hsame hother')

/-! ### The operations of a callback -/

theorem nothingHeld_of_commit (db : Db Account) (i : ℕ) : NothingHeld (db.commit i) i := by
  intro k c hget hholder
  rw [Db.get?_commit] at hget
  obtain ⟨d, _, rfl⟩ := Option.map_eq_some_iff.mp hget
  by_cases hself : d.holder = some i
  · rw [Cell.commit_of_holder hself] at hholder
    cases hholder
  · rw [Cell.commit_of_ne hself] at hholder
    exact hself hholder

theorem nothingHeld_of_abort (db : Db Account) (i : ℕ) : NothingHeld (db.abort i) i := by
  intro k c hget hholder
  rw [Db.get?_abort] at hget
  obtain ⟨d, _, rfl⟩ := Option.map_eq_some_iff.mp hget
  by_cases hself : d.holder = some i
  · rw [Cell.abort_of_holder hself] at hholder
    cases hholder
  · rw [Cell.abort_of_ne hself] at hholder
    exact hself hholder

theorem free_of_all (hfree : (db.get? k).all (Cell.free i) = true) :
    ∀ c, db.get? k = some c → c.free i = true := by
  intro c hget
  rw [hget] at hfree
  exact hfree

/-- The row that is inserted is held, and nothing else. -/
theorem insert_found (hnone : NothingHeld db i) (row : Account) (hk : copy.k = db.nextPk) :
    Found (db.insert i row) i copy ∧ HoldsOnly (db.insert i row) i copy.k := by
  rw [hk]
  constructor
  · refine Or.inl ⟨row, ?_⟩
    rw [Db.get?_insert, hk, if_pos rfl]
  · intro l d hget hholder
    rw [Db.get?_insert] at hget
    split at hget
    · next hl => exact hl
    · exact absurd hholder (hnone l d hget)

theorem hold_written (hfound : Found db i copy) (honly : HoldsOnly db i copy.k) :
    Written (db.hold i copy.k fun _ => copy.account) i copy ∧
      HoldsOnly (db.hold i copy.k fun _ => copy.account) i copy.k := by
  constructor
  · rcases hfound with ⟨row, hget⟩ | ⟨hnone, row, hrow, hsame⟩
    · refine ⟨Cell.hold i (fun _ => copy.account) ⟨copy.k, none, some i, some row⟩, ?_, rfl, ?_, ?_⟩
      · rw [Db.get?_hold, if_pos rfl, hget, Option.map_some]
      · simp [Cell.hold, Cell.visible]
      · intro row' hrow'
        cases hrow'
    · obtain ⟨d, hget, hcommitted⟩ := Option.bind_eq_some_iff.mp hrow
      refine ⟨d.hold i fun _ => copy.account, ?_, rfl, ?_, ?_⟩
      · rw [Db.get?_hold, if_pos rfl, hget, Option.map_some]
      · simp [Cell.hold, Cell.visible, hnone copy.k d hget, hcommitted]
      · intro row' hrow'
        have hcommitted' : d.committed = some row' := hrow'
        rw [hcommitted] at hcommitted'
        rw [← Option.some.inj hcommitted']
        exact hsame
  · intro l d hget hholder
    rw [Db.get?_hold] at hget
    split at hget
    · next hl => exact hl
    · exact honly l d hget hholder

theorem commit_frame (hwritten : Written db i copy) (honly : HoldsOnly db i copy.k) :
    Frame i db (db.commit i) := by
  refine Db.frame_commit sameOwner_refl ?_
  intro l d row hget hholder hcommitted
  have hl := honly l d hget hholder
  obtain ⟨d', hd, _, hdraft, hsame⟩ := hwritten
  rw [hl] at hget
  obtain rfl := Option.some.inj (hget.symm.trans hd)
  exact ⟨copy.account, hdraft, hsame row hcommitted⟩

/-- The commit stores the copy, and nothing else changes. -/
theorem commit_stored (hwritten : Written db i copy) (honly : HoldsOnly db i copy.k) (l : ℕ)
    (row : Account) :
    Stored (db.commit i) l row ↔ if l = copy.k then row = copy.account else Stored db l row := by
  unfold Stored
  rw [Db.get?_commit]
  split
  · next hl =>
    obtain ⟨d, hget, hholder, hdraft, _⟩ := hwritten
    rw [hl, hget, Option.map_some, Option.bind_some, Cell.commit_of_holder hholder, hdraft,
      Option.some.injEq]
    exact eq_comm
  · next hl =>
    cases hget : db.get? l with
    | none => simp
    | some d =>
      have hne : d.holder ≠ some i := fun hholder => hl (honly l d hget hholder)
      rw [Option.map_some, Option.bind_some, Cell.commit_of_ne hne, Option.bind_some]

theorem quiet_stored (hquiet : Db.Quiet db db') (l : ℕ) (row : Account) :
    Stored db' l row ↔ Stored db l row := by
  unfold Stored
  rw [hquiet l]

/-- An `UPDATE` outside a transaction. -/
theorem save_stored (hnone : NothingHeld db i) (f : Account → Account) (l : ℕ) (row : Account) :
    Stored ((db.hold i k f).commit i) l row ↔
      if l = k then ∃ old, Stored db k old ∧ row = f old else Stored db l row := by
  unfold Stored
  rw [Db.get?_commit, Db.get?_hold]
  split
  · next hl =>
    cases hget : db.get? k with
    | none => simp
    | some c =>
      simp [Cell.hold, Cell.commit, Cell.visible, hnone k c hget, eq_comm]
  · next hl =>
    cases hget : db.get? l with
    | none => simp
    | some c => simp [Cell.commit_of_ne (hnone l c hget)]

theorem save_frame (hnone : NothingHeld db i) (hfree : ∀ c, db.get? k = some c → c.free i = true)
    {f : Account → Account} (hf : ∀ row, SameOwner (f row) row) :
    Frame i db ((db.hold i k f).commit i) := by
  have hhold : Frame i db (db.hold i k f) := Db.frame_hold sameOwner_refl hfree
  refine hhold.trans (fun _ _ _ => SameOwner.trans) (Db.frame_commit sameOwner_refl ?_)
  intro l c row hget hholder hcommitted
  rw [Db.get?_hold] at hget
  split at hget
  · obtain ⟨d, hd, rfl⟩ := Option.map_eq_some_iff.mp hget
    have hcommitted' : d.committed = some row := hcommitted
    refine ⟨f row, ?_, hf row⟩
    simp [Cell.hold, Cell.visible, hnone k d hd, hcommitted']
  · exact absurd hholder (hnone l c hget)

theorem saveConnected_owner (account row : Account) : SameOwner (saveConnected account row) row :=
  ⟨rfl, rfl⟩

theorem stays_refl (db : Db Account) : Stays db db := by
  intro k row hrow
  exact ⟨row, hrow, sameOwner_refl row⟩

/-- What is known of an account that was looked up, or is about to be inserted. -/
theorem copy_sound {record : Dict} {rest : List Dict} {selected : Option Copy}
    (hlooping : Looping h db c (record :: rest) selected)
    (hrow : row.user = c.grant.user ∧ row.account_id = accountId h record)
    (hidentity : ∀ l other, Stored db l other → sameIdentity row other = true →
      other.user = row.user) (k : ℕ) : Sound h db c.grant (c.copy h now db k record row) where
  granted := by
    refine ⟨hrow.1, ?_, rfl, rfl⟩
    rw [List.mem_map]
    exact ⟨record, hlooping.listed List.mem_cons_self, hrow.2.symm⟩
  stays := by
    unfold Callback.copy
    dsimp only
    split
    · exact stays_refl db
    · exact hlooping.stays
  clear := by
    intro l other hother hsame
    have hstored := storedUserId_persisted h now c.grant record row
    unfold Callback.copy at hother hsame
    dsimp only at hother hsame
    unfold sameIdentity at hsame
    rw [hstored] at hsame
    by_cases hempty : c.grant.deriv_identity.isEmpty = true
    · -- the identity is the one that was read
      rw [if_pos hempty] at hother hsame
      exact hidentity l other hother hsame
    · rw [if_neg hempty] at hother hsame
      by_cases hstorable : storable (c.grant.deriv_identity.get "user_id") = true
      · rw [if_pos hstorable, hstorable, Bool.true_and] at hsame
        exact (hlooping.clear l other hother hstorable hsame).trans hrow.1.symm
      · rw [if_neg hstorable] at hsame
        cases hsame

/-! ## One query or write -/

/-- The callback commits an account. -/
def Callback.commits (c : Callback) : Option Copy :=
  match c.phase with
  | .saved copy _ _ => some copy
  | _ => none

/-- What one query or write does. -/
structure Advanced (h : Host) (db : Db Account) (i : ℕ) (c : Callback)
    (out : Db Account × Option Callback) : Prop where
  frame : Frame i db out.1
  left : ∀ c', out.2 = some c' → c'.grant = c.grant ∧ c'.Inv h out.1 i
  ended : out.2 = none → NothingHeld out.1 i
  commits : match c.commits with
    | none => Db.Quiet db out.1
    | some _ => out.1 = db.commit i

theorem Advanced.stay (hnone : NothingHeld db i) {next : Option Callback}
    (hnext : ∀ c', next = some c' → c'.grant = c.grant ∧ c'.Inv h db i)
    (hcommits : c.commits = none) : Advanced h db i c (db, next) where
  frame := Db.Frame.refl sameOwner_refl i db
  left := hnext
  ended _ := hnone
  commits := by
    rw [hcommits]
    exact fun _ => rfl

theorem skip_inv (hnone : NothingHeld db i) {record : Dict} {rest : List Dict}
    {selected : Option Copy} (hlooping : Looping h db c (record :: rest) selected) (c' : Callback)
    (hc' : c.skip h record rest selected = some c') : c'.grant = c.grant ∧ c'.Inv h db i := by
  unfold Callback.skip at hc'
  split at hc'
  · cases hc'
  · cases hc'
    exact ⟨rfl, hnone, hlooping.tail.listed, hlooping.stays, hlooping.clear, hlooping.selected⟩

/-- The row `get_or_create` inserts has no identity yet. -/
theorem sameIdentity_new (user : ℕ) (account_id : String) (other : Account) :
    sameIdentity (Account.new user account_id) other = false := rfl

theorem callback_advanced {out : Db Account × Option Callback} (hinv : c.Inv h db i)
    (hapart : Apart db) (hout : c.advance h now db i = some out) : Advanced h db i c out := by
  obtain ⟨g, phase, seen⟩ := c
  cases phase with
  | verified =>
    cases hout
    refine Advanced.stay hinv ?_ rfl
    rintro c' hc'
    cases hc'
    exact ⟨rfl, hinv, stays_refl db, clear_of_owner hinv hapart⟩
  | identified owner =>
    obtain ⟨hnone, hstays, hclear⟩ := hinv
    simp only [Callback.advance] at hout
    split at hout
    · cases hout
      exact Advanced.stay hnone (by simp) rfl
    · next hpassed =>
      cases hout
      refine Advanced.stay hnone ?_ rfl
      rintro c' hc'
      cases hc'
      rw [Bool.or_eq_true, not_or, Bool.not_eq_true, Bool.not_eq_true] at hpassed
      exact ⟨rfl, hnone, fun _ hr => hr, hstays, hclear hpassed.2, by simp⟩
  | looping rest selected =>
    obtain ⟨hnone, hlooping⟩ := hinv
    cases rest with
    | nil =>
      cases selected with
      | none =>
        cases hout
        exact Advanced.stay hnone (by simp) rfl
      | some copy =>
        cases hout
        refine Advanced.stay hnone ?_ rfl
        rintro c' hc'
        cases hc'
        exact ⟨rfl, hnone, hlooping.selected copy rfl⟩
    | cons record rest =>
      simp only [Callback.advance] at hout
      split at hout
      · cases hout
        refine Advanced.stay hnone ?_ rfl
        rintro c' hc'
        cases hc'
        exact ⟨rfl, hnone, hlooping.tail.listed, hlooping.stays, hlooping.clear, hlooping.selected⟩
      · split at hout
        · cases hout
          exact Advanced.stay hnone (skip_inv hnone hlooping) rfl
        · cases hout
          refine Advanced.stay hnone ?_ rfl
          rintro c' hc'
          cases hc'
          exact ⟨rfl, hnone, hlooping.listed, hlooping.stays, hlooping.clear, hlooping.selected⟩
  | getting again record rest selected =>
    obtain ⟨hnone, hlooping⟩ := hinv
    simp only [Callback.advance] at hout
    split at hout
    · next k row hfind =>
      obtain ⟨hrow, hid⟩ := find_stored hnone hfind
      split at hout
      · next howner =>
        cases hout
        refine Advanced.stay hnone ?_ rfl
        rintro c' hc'
        cases hc'
        refine ⟨rfl, Or.inr ⟨hnone, row, hrow, rfl, rfl⟩, ?_, ?_, ?_⟩
        · intro l d hget hholder
          exact absurd hholder (hnone l d hget)
        · refine copy_sound hlooping ⟨howner, hid⟩ ?_ k
          intro l other hother hsame
          exact (hapart k l row other hrow hother hsame).symm
        · exact ⟨hlooping.tail.listed, hlooping.stays, hlooping.clear, hlooping.selected⟩
      · cases hout
        exact Advanced.stay hnone (skip_inv hnone hlooping) rfl
    · cases hout
      refine Advanced.stay hnone ?_ rfl
      rintro c' hc'
      split at hc'
      · cases hc'
      · cases hc'
        exact ⟨rfl, hnone, hlooping.listed, hlooping.stays, hlooping.clear, hlooping.selected⟩
  | creating record rest selected =>
    obtain ⟨hnone, hlooping⟩ := hinv
    simp only [Callback.advance] at hout
    split at hout
    · cases hout
      refine Advanced.stay hnone ?_ rfl
      rintro c' hc'
      cases hc'
      exact ⟨rfl, hnone, hlooping.listed, hlooping.stays, hlooping.clear, hlooping.selected⟩
    · split at hout
      · cases hout
      · cases hout
        have hframe : Frame i db (db.insert i (Account.new g.user (accountId h record))) :=
          Db.frame_insert sameOwner_refl _
        refine ⟨hframe, ?_, by simp, Db.quiet_insert _⟩
        rintro c' hc'
        cases hc'
        have hk : (Callback.copy h now db ⟨g, .creating record rest selected, seen⟩ db.nextPk record
            (Account.new g.user (accountId h record))).k = db.nextPk := rfl
        obtain ⟨hfound, honly⟩ := insert_found hnone (Account.new g.user (accountId h record)) hk
        have hrow : (Account.new g.user (accountId h record)).user = g.user ∧
            (Account.new g.user (accountId h record)).account_id = accountId h record := ⟨rfl, rfl⟩
        refine ⟨rfl, hfound, honly, ?_, ?_⟩
        · refine Sound.frame (copy_sound hlooping hrow ?_ db.nextPk) hframe
          intro l other _ hsame
          rw [sameIdentity_new] at hsame
          cases hsame
        · have htail := hlooping.tail.frame hframe
          exact ⟨htail.listed, htail.stays, htail.clear, htail.selected⟩
  | saving copy rest selected =>
    obtain ⟨hfound, honly, hsound, hlooping⟩ := hinv
    simp only [Callback.advance] at hout
    split at hout
    · next hfree =>
      cases hout
      obtain ⟨hwritten, honly'⟩ := hold_written hfound honly
      have hframe : Frame i db (db.hold i copy.k fun _ => copy.account) :=
        Db.frame_hold sameOwner_refl (free_of_all hfree)
      refine ⟨hframe, ?_, by simp, Db.quiet_hold⟩
      rintro c' hc'
      cases hc'
      have hlooping' := hlooping.frame hframe
      exact ⟨rfl, hwritten, honly', hsound.frame hframe,
        ⟨hlooping'.listed, hlooping'.stays, hlooping'.clear, hlooping'.selected⟩⟩
    · cases hout
  | saved copy rest selected =>
    obtain ⟨hwritten, honly, hsound, hlooping⟩ := hinv
    cases hout
    have hframe := commit_frame hwritten honly
    refine ⟨hframe, ?_, by simp, rfl⟩
    rintro c' hc'
    cases hc'
    have hlooping' := hlooping.frame hframe
    refine ⟨rfl, nothingHeld_of_commit db i, hlooping'.listed, hlooping'.stays, hlooping'.clear, ?_⟩
    intro copy' hcopy'
    split at hcopy'
    · cases hcopy'
      refine ⟨hsound.frame hframe, copy.account, ?_, sameOwner_refl copy.account⟩
      rw [commit_stored hwritten honly, if_pos rfl]
    · exact hlooping'.selected copy' hcopy'
  | connecting copy => cases hout

/-! ## One step -/

/-- What a step does to the rows: it commits none, or the account it writes. -/
structure Stepped (h : Host) (s : State) (a : Action) (s' : State) : Prop where
  inv : Inv h s'
  owners : OwnersStay h s a
  grants : s.grants ⊆ s'.grants
  written : match s.writes h a with
    | none => Db.Quiet s.accounts s'.accounts
    | some copy =>
        (∀ l row, Stored s'.accounts l row ↔
          if l = copy.k then row = copy.account else Stored s.accounts l row) ∧
        (∀ row, Stored s.accounts copy.k row → SameOwner copy.account row) ∧
        (∃ g ∈ s.grants, GrantedBy h g copy.account) ∧ Stays s.accounts copy.seen ∧
        ∀ l other, Stored copy.seen l other → sameIdentity copy.account other = true →
          other.user = copy.account.user

/-- Callback `i` has moved, and the others rely on what they did. -/
theorem Inv.of_frame (hinv : Inv h s) (hframe : Frame i s.accounts db)
    (callback : Option Callback) (hnone : callback = none → NothingHeld db i)
    (hphase : ∀ c, callback = some c → c.grant ∈ s.grants ∧ c.Inv h db i) :
    Inv h (s.set i db callback) := by
  constructor
  · intro j hj
    by_cases hji : j = i
    · subst hji
      refine hnone ?_
      simpa [State.set] using hj
    · have hj' : s.callbacks j = none := by simpa [State.set, hji] using hj
      exact (hinv.idle j hj').frame hframe hji
  · intro j c hj
    by_cases hji : j = i
    · subst hji
      refine hphase c ?_
      simpa [State.set] using hj
    · have hj' : s.callbacks j = some c := by simpa [State.set, hji] using hj
      obtain ⟨hg, hc⟩ := hinv.callback j c hj'
      exact ⟨hg, hc.frame hframe hji⟩

theorem owners_stay {a : Action} (hnext : s.next h a = some s')
    (hframe : Frame i s.accounts s'.accounts) : OwnersStay h s a := by
  intro k row s'' hrow hnext'
  obtain rfl := Option.some.inj (hnext.symm.trans hnext')
  exact hrow.frame hframe

theorem advance_writes (hcallback : s.callbacks i = some c) :
    s.writes h (.advance i now) = c.commits := by
  simp only [State.writes, Callback.commits, hcallback, Option.map_some]
  split
  · next copy _ _ hphase => rw [Option.some.inj hphase]
  · next hphase =>
    split
    · next hsaved => exact absurd (congrArg some hsaved) (hphase _ _ _)
    · rfl

theorem advance_stepped (hinv : Inv h s) (hapart : Apart s.accounts)
    (hnext : s.next h (.advance i now) = some s') : Stepped h s (.advance i now) s' := by
  obtain ⟨c, hcallback, hstep⟩ := Option.bind_eq_some_iff.mp hnext
  obtain ⟨out, hout, rfl⟩ := Option.map_eq_some_iff.mp hstep
  obtain ⟨hg, hc⟩ := hinv.callback i c hcallback
  have hadvanced := callback_advanced hc hapart hout
  refine ⟨?_, owners_stay hnext hadvanced.frame, fun _ hg => hg, ?_⟩
  · refine hinv.of_frame hadvanced.frame _ hadvanced.ended ?_
    intro c' hc'
    obtain ⟨hsame, hc''⟩ := hadvanced.left c' hc'
    exact ⟨hsame ▸ hg, hc''⟩
  · rw [advance_writes hcallback]
    have hcommits := hadvanced.commits
    obtain ⟨g, phase, seen⟩ := c
    cases phase with
    | saved copy rest selected =>
      obtain ⟨hwritten, honly, hsound, _⟩ := hc
      have hdb : out.1 = s.accounts.commit i := hcommits
      refine ⟨?_, ?_, ⟨g, hg, hsound.granted⟩, hsound.stays, hsound.clear⟩
      · intro l row
        show Stored out.1 l row ↔ _
        rw [hdb]
        exact commit_stored hwritten honly l row
      · intro row hrow
        obtain ⟨d, hget, _, _, hsame⟩ := hwritten
        refine hsame row ?_
        rw [Stored, hget] at hrow
        exact hrow
    | _ => exact hcommits

/-- The connection check changes the credentials of the account the callback has saved. -/
theorem checked_sound (hsound : Sound h db g copy) {verification : Dict} {checked : Copy}
    (hchecked : copy.checked h now verification = some checked)
    (hrow : SameOwner copy.account row) : Stays db checked.seen ∧
      ∀ l other, Stored checked.seen l other →
        sameIdentity (saveConnected checked.account row) other = true → other.user = row.user := by
  obtain ⟨-, hseen, hidentity⟩ := storedUserId_checked row hchecked
  rw [hseen]
  refine ⟨hsound.stays, ?_⟩
  intro l other hother hsame
  rw [sameIdentity, hidentity] at hsame
  exact (hsound.clear l other hother hsame).trans hrow.1

theorem connect_stepped (hinv : Inv h s) (howned : Owned h s) {verification : Option Dict}
    (hnext : s.next h (.connect i now verification) = some s') :
    Stepped h s (.connect i now verification) s' := by
  have hstep := hnext
  simp only [State.next] at hstep
  split at hstep
  · next copy hphase =>
    obtain ⟨⟨g, phase, seen⟩, hcallback, rfl⟩ := Option.map_eq_some_iff.mp hphase
    obtain ⟨hnone, hsound, hkept⟩ := (hinv.callback i _ hcallback).2
    split at hstep
    · next hchecked =>
      cases hstep
      have hframe : Frame i s.accounts s.accounts := Db.Frame.refl sameOwner_refl i s.accounts
      refine ⟨hinv.of_frame hframe none (fun _ => hnone) (by simp), owners_stay hnext hframe,
        fun _ hg => hg, ?_⟩
      have hwrites : s.writes h (.connect i now verification) = none := by
        simp [State.writes, hphase, hchecked]
      rw [hwrites]
      exact fun _ => rfl
    · next checked hchecked =>
      split at hstep
      · next hfree =>
        cases hstep
        obtain ⟨verification, rfl, hchecked'⟩ := Option.bind_eq_some_iff.mp hchecked
        obtain ⟨hk, -, -⟩ := storedUserId_checked copy.account hchecked'
        obtain ⟨row, hrow, hsame⟩ := hkept
        have hrow' : Stored s.accounts checked.k row := by
          rw [hk]
          exact hrow
        have hframe := save_frame hnone (free_of_all hfree) (saveConnected_owner checked.account)
        refine ⟨?_, owners_stay hnext hframe, fun _ hg => hg, ?_⟩
        · exact hinv.of_frame hframe none (fun _ => nothingHeld_of_commit _ i) (by simp)
        · have hwrites : s.writes h (.connect i now verification) =
              some { checked with account := saveConnected checked.account row } := by
            simp only [State.writes, hphase, Option.bind_some, hchecked']
            rw [show (s.accounts.get? checked.k).bind Cell.committed = some row from hrow']
            rfl
          rw [hwrites]
          obtain ⟨hstays, hclear⟩ := checked_sound hsound hchecked' hsame
          refine ⟨?_, ?_, ?_, hstays, hclear⟩
          · intro l row'
            show Stored ((s.accounts.hold i checked.k (saveConnected checked.account)).commit i) l
              row' ↔ _
            rw [save_stored hnone]
            split
            · constructor
              · rintro ⟨old, hold, rfl⟩
                rw [Option.some.inj (hold.symm.trans hrow')]
              · rintro rfl
                exact ⟨row, hrow', rfl⟩
            · rfl
          · intro old hold
            rw [Option.some.inj (hold.symm.trans hrow')]
            exact saveConnected_owner checked.account row
          · -- the tokens are left
            exact howned.granted checked.k row hrow'
      · cases hstep
  · cases hstep

theorem begin_stepped (hinv : Inv h s) {r : Request} (hnext : s.next h (.begin i r) = some s') :
    Stepped h s (.begin i r) s' := by
  have hstep := hnext
  have hframe : Frame i s.accounts s.accounts := Db.Frame.refl sameOwner_refl i s.accounts
  simp only [State.next] at hstep
  split at hstep
  · next g hidle hadmit =>
    cases hstep
    refine ⟨?_, owners_stay hnext hframe, fun _ hg => List.mem_cons_of_mem g hg, fun _ => rfl⟩
    have hgranted : Inv h { s with grants := g :: s.grants } := by
      refine ⟨hinv.idle, ?_⟩
      intro j c hj
      obtain ⟨hg, hc⟩ := hinv.callback j c hj
      exact ⟨List.mem_cons_of_mem g hg, hc⟩
    refine hgranted.of_frame hframe (some ⟨g, .verified, s.accounts⟩) (by simp) ?_
    intro c hc
    cases hc
    exact ⟨List.mem_cons_self, hinv.idle i hidle⟩
  · cases hstep
    exact ⟨hinv, owners_stay hnext hframe, fun _ hg => hg, fun _ => rfl⟩
  · cases hstep

theorem next_stepped (hinv : Inv h s) (howned : Owned h s) {a : Action}
    (hnext : s.next h a = some s') : Stepped h s a s' := by
  cases a with
  | begin i r => exact begin_stepped hinv hnext
  | advance i now => exact advance_stepped hinv howned.identity hnext
  | connect i now verification => exact connect_stepped hinv howned hnext
  | fail i =>
    cases hnext
    have hframe : Frame i s.accounts (s.accounts.abort i) := Db.frame_abort sameOwner_refl
    refine ⟨?_, owners_stay (i := i) rfl hframe, fun _ hg => hg, Db.quiet_abort⟩
    exact hinv.of_frame hframe none (fun _ => nothingHeld_of_abort s.accounts i) (by simp)

/-- An account of another user has the identity of the copy. -/
def Contested (db : Db Account) (copy : Copy) : Prop :=
  ∃ l other, Stored db l other ∧ other.user ≠ copy.account.user ∧
    sameIdentity copy.account other = true

/-- Whose account has the identity now had not when the callback looked. -/
theorem overtaken_iff (hstays : Stays db copy.seen)
    (hclear : ∀ l other, Stored copy.seen l other → sameIdentity copy.account other = true →
      other.user = copy.account.user) : overtaken db copy = true ↔ Contested db copy := by
  simp only [overtaken, List.any_eq_true, Option.any_eq_true, Bool.and_eq_true, bne_iff_ne]
  constructor
  · rintro ⟨d, hd, other, hcommitted, ⟨hforeign, hsame⟩, -⟩
    refine ⟨d.pk, other, ?_, hforeign, hsame⟩
    have hget : db.get? d.pk = some d := Table.get?_pk hd
    rw [Stored, hget, Option.bind_some, hcommitted]
  · rintro ⟨l, other, hother, hforeign, hsame⟩
    obtain ⟨d, hget, hcommitted⟩ := Option.bind_eq_some_iff.mp hother
    obtain ⟨hd, hpk⟩ := Table.get?_eq_some.mp hget
    refine ⟨d, hd, other, hcommitted, ⟨hforeign, hsame⟩, ?_⟩
    have hl : d.pk = l := hpk
    rw [hl, Bool.not_eq_true']
    cases hold : (copy.seen.get? l).bind Cell.committed with
    | none => rfl
    | some old =>
      rw [Option.any_some]
      by_contra hsame'
      rw [Bool.not_eq_false] at hsame'
      -- its owner then is its owner now
      obtain ⟨now, hnow, huser, -⟩ := hstays l old hold
      rw [Option.some.inj (hnow.symm.trans hother)] at huser
      exact hforeign (huser.trans (hclear l old hold hsame'))

/-- The identities stay apart exactly if the account that is written is not contested. -/
theorem apart_write (hapart : Apart db)
    (hstored : ∀ l row, Stored db' l row ↔
      if l = copy.k then row = copy.account else Stored db l row)
    (howner : ∀ row, Stored db copy.k row → SameOwner copy.account row) :
    Apart db' ↔ ¬ Contested db copy := by
  constructor
  · rintro hapart' ⟨l, other, hother, hforeign, hsame⟩
    have hl : l ≠ copy.k := by
      rintro rfl
      exact hforeign (howner other hother).1.symm
    have hcopy : Stored db' copy.k copy.account := (hstored _ _).mpr (by rw [if_pos rfl])
    have hother' : Stored db' l other := (hstored l other).mpr (by rwa [if_neg hl])
    exact hforeign (hapart' copy.k l copy.account other hcopy hother' hsame).symm
  · intro hcontested j l row other hrow hother hsame
    have hcopy : ∀ m other, Stored db m other → sameIdentity copy.account other = true →
        copy.account.user = other.user := by
      intro m other hother hsame
      by_contra hforeign
      exact hcontested ⟨m, other, hother, Ne.symm hforeign, hsame⟩
    rw [hstored] at hrow hother
    split at hrow
    · subst hrow
      split at hother
      · rw [hother]
      · exact hcopy l other hother hsame
    · split at hother
      · subst hother
        exact (hcopy j row hrow (sameIdentity_symm hsame)).symm
      · exact hapart j l row other hrow hother hsame

/-- A step keeps the accounts with their owners exactly if it writes none that was overtaken. -/
theorem upToDate_iff (hinv : Inv h s) (howned : Owned h s) {a : Action}
    (hnext : s.next h a = some s') :
    Owned h s' ∧ OwnersStay h s a ↔ upToDate h s a = true := by
  have hstepped := next_stepped hinv howned hnext
  have hwritten := hstepped.written
  unfold upToDate
  cases hwrites : s.writes h a with
  | none =>
    rw [hwrites] at hwritten
    have hsame := quiet_stored hwritten
    simp only [Option.all_none, iff_true]
    refine ⟨⟨?_, ?_⟩, hstepped.owners⟩
    · intro k row hrow
      obtain ⟨g, hg, hgranted⟩ := howned.granted k row ((hsame k row).mp hrow)
      exact ⟨g, hstepped.grants hg, hgranted⟩
    · intro j k row other hrow hother
      exact howned.identity j k row other ((hsame j row).mp hrow) ((hsame k other).mp hother)
  | some copy =>
    rw [hwrites] at hwritten
    obtain ⟨hstored, howner, ⟨g, hg, hgranted⟩, hstays, hclear⟩ := hwritten
    rw [Option.all_some, Bool.not_eq_true', ← Bool.not_eq_true, overtaken_iff hstays hclear,
      ← apart_write howned.identity hstored howner]
    constructor
    · rintro ⟨howned', -⟩
      exact howned'.identity
    · intro hapart
      refine ⟨⟨?_, hapart⟩, hstepped.owners⟩
      intro l row hrow
      rw [hstored] at hrow
      split at hrow
      · subst hrow
        exact ⟨g, hstepped.grants hg, hgranted⟩
      · obtain ⟨g', hg', hgranted'⟩ := howned.granted l row hrow
        exact ⟨g', hstepped.grants hg', hgranted'⟩

/-! ## Runs -/

theorem Resting.inv (hrest : Resting s) : Inv h s where
  idle i _ k d hget hholder := by
    rw [hrest.free k d hget] at hholder
    cases hholder
  callback i c hcallback := by
    rw [hrest.idle i] at hcallback
    cases hcallback

/-- In every interleaving of callbacks the accounts keep their owners, have tokens of a callback of
the owner that listed them, and users share no identity, exactly if that is so at the start and no
account that is saved was overtaken. -/
theorem ownership_iff {h : Host} {s t : State} {as : List Action} (hrest : Resting s)
    (hrun : (callbacks h).Run s as t) :
    Machine.RunIf.Always (callbacks h) (Owned h) s as ∧ (callbacks h).RunIf (OwnersStay h) s as t ↔
      Owned h s ∧ (callbacks h).RunIf (fun s a => upToDate h s a = true) s as t := by
  refine Machine.RunIf.always_and_iff_relying ?_ ?_ hrun (hrest.inv (h := h))
  · intro s a s' _ hinv howned hn
    exact (next_stepped hinv howned hn).inv
  · intro s a s' _ hinv howned hn
    exact upToDate_iff hinv howned hn

/-- No account yet. -/
def emptyState : State := ⟨Table.empty, fun _ => none, []⟩

theorem emptyState_resting : Resting emptyState where
  idle _ := rfl
  free k d hget := by cases hget

theorem emptyState_owned (h : Host) : Owned h emptyState where
  granted k row hrow := by cases hrow
  identity j k row other hrow := by cases hrow

/-- A user connects an account of the identity 7. -/
def connectAccount (user : ℕ) (account_id : String) : Request where
  user := some user
  email_verified := true
  error := ""
  state_valid := true
  pkce_valid := true
  code := "code"
  token_data := some ("access", "refresh")
  oauth_initiating_user_id := none
  payload := some (.dict [("data", .list [.dict [("account_id", .str account_id)]])])
  identity := some [("user_id", .int 7)]

/-- The steps of a callback with one account, from the lookup of the selected account to the
connection check. -/
def restOf (i : ℕ) : List Action :=
  List.replicate 7 (.advance i 0) ++
    [.connect i 0 (some [("account_id", .str "CR1"), ("is_virtual", .bool false)])]

/-- A callback alone. -/
theorem alone_owned :
    ∃ t, (callbacks .ascii).Run emptyState
        (.begin 0 (connectAccount 1 "CR1") :: .advance 0 0 :: restOf 0) t ∧
      Machine.RunIf.Always (callbacks .ascii) (Owned .ascii) emptyState
        (.begin 0 (connectAccount 1 "CR1") :: .advance 0 0 :: restOf 0) := by
  have hexec : ((callbacks .ascii).execIf (fun s a => upToDate .ascii s a = true) emptyState
      (.begin 0 (connectAccount 1 "CR1") :: .advance 0 0 :: restOf 0)).isSome = true := by
    decide +kernel
  obtain ⟨t, ht⟩ := Machine.exists_runIf hexec
  have hrun := Machine.exec_eq_some_iff.mp ht.exec_eq
  refine ⟨t, hrun, ?_⟩
  exact ((ownership_iff emptyState_resting hrun).mpr ⟨emptyState_owned .ascii, ht⟩).1

/-- Both callbacks have looked the identity up before either writes, and it ends with two users. -/
theorem shared_identity :
    Resting emptyState ∧ ∃ t, (callbacks .ascii).Run emptyState
        (.begin 0 (connectAccount 1 "CR1") :: .begin 1 (connectAccount 2 "CR2") :: .advance 0 0 ::
          .advance 1 0 :: (restOf 0 ++ restOf 1)) t ∧
      ¬ Machine.RunIf.Always (callbacks .ascii) (Owned .ascii) emptyState
        (.begin 0 (connectAccount 1 "CR1") :: .begin 1 (connectAccount 2 "CR2") :: .advance 0 0 ::
          .advance 1 0 :: (restOf 0 ++ restOf 1)) := by
  refine ⟨emptyState_resting, ?_⟩
  have hshared : ((callbacks .ascii).exec emptyState
      (.begin 0 (connectAccount 1 "CR1") :: .begin 1 (connectAccount 2 "CR2") :: .advance 0 0 ::
        .advance 1 0 :: (restOf 0 ++ restOf 1))).any (fun s =>
      ((s.accounts.get? 1).bind Cell.committed).any fun row =>
        ((s.accounts.get? 2).bind Cell.committed).any fun other =>
          sameIdentity row other && row.user != other.user) = true := by
    decide +kernel
  obtain ⟨t, ht, hrows⟩ := (Option.any_eq_true _ _).mp hshared
  refine ⟨t, Machine.exec_eq_some_iff.mp ht, ?_⟩
  intro halways
  obtain ⟨row, hrow, hothers⟩ := (Option.any_eq_true _ _).mp hrows
  obtain ⟨other, hother, hsame⟩ := (Option.any_eq_true _ _).mp hothers
  rw [Bool.and_eq_true, bne_iff_ne] at hsame
  exact hsame.2 ((halways.last ht).identity 1 2 row other hrow hother hsame.1)

end AlgoBot.OAuthCallback
