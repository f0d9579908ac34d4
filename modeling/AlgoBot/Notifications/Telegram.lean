import AlgoBot.Core.Machine
import AlgoBot.Core.Table
import AlgoBot.Python.Value

/-!
# Telegram's updates

The webhook claims an update by a row of its own, keeps the runtime's telemetry
and only then handles the message: it links or unlinks a chat, or answers a
command. The claim is committed by itself, so what fails after it leaves a row
that later deliveries take for an update that was handled.

* `applied_at_most_once`: over any sequence of deliveries no update takes effect
  twice.
* `effects_once_iff`: with that, an answer of success means that the update took
  effect, in a sequence and however it goes on, exactly if each delivery that
  claims an update of the sequence gets to its effect.
* `telemetry_loses_update`: a failing save of the telemetry has the delivery that
  claimed the update answer that it is a duplicate.
-/

namespace AlgoBot.Notifications.Telegram

open AlgoBot.Core AlgoBot.Python

/-! ## Rows -/

structure TelegramUpdate where
  update_id : ℤ
  received_at : ℕ
  processed_at : Option ℕ
  deriving Repr

inductive Status
  | pending
  | verified
  | revoked
  | error
  deriving DecidableEq, Repr

/-- A `NotificationChannelConnection` of the provider `telegram`. -/
structure Connection where
  pk : ℕ
  user : ℕ
  status : Status
  address : String
  external_id : String
  verification_code_hash : String
  verification_expires_at : Option ℕ
  metadata : Dict
  verified_at : Option ℕ

instance : HasPk Connection := ⟨Connection.pk⟩

/-- A `NotificationPreference` of the channel `telegram`. -/
structure Preference where
  user : ℕ
  enabled : Bool
  digest_frequency : String
  quiet_hours : Bool
  deriving Repr

/-- The tables, with the updates that have taken effect, the latest first. -/
structure Store where
  updates : List TelegramUpdate
  connections : Table Connection
  preferences : List Preference
  applied : List ℤ

/-- What the webhook is configured with, and the reports over the broker's tables. -/
structure Config extends CaseHost where
  TELEGRAM_MODE : String
  TELEGRAM_WEBHOOK_SECRET : String
  account_report : ℕ → String
  positions_report : ℕ → String
  trades_report : ℕ → String
  latest_sync : ℕ → String

/-! ## Deliveries -/

inductive Body
  /-- Bytes that are not UTF-8. -/
  | undecodable
  | malformed
  | json (v : Value)

/-- The places where a delivery may fail. -/
inductive Site
  | insert
  | runtime_state
  | state_save
  | exists_query
  | lookup
  | start
  | disconnect
  | command
  | processed
  | processed_again
  deriving DecidableEq, Repr

/-- A request to the webhook, and what fails in it. -/
structure Request where
  method : String
  secret : String
  body : Body
  now : ℕ
  fails : Site → Bool

/-- The reply `telegram_webhook` hands to Telegram. -/
structure Reply where
  chat_id : Value
  text : String

/-- What `telegram_webhook` returns. -/
inductive Result
  | missing_update_id
  | duplicate
  | unprocessed
  | processed (command : Option String) (reply : Reply)

/-- What the view answers. -/
inductive Answer
  | active
  | invalid_secret
  | invalid_json
  | ok (result : Result)
  | failed

def Answer.status : Answer → ℕ
  | .active => 200
  | .invalid_secret => 403
  | .invalid_json => 400
  | .ok _ => 200
  | .failed => 500

/-- The answer to what `telegram_webhook` returns, or raises. -/
def Answer.of : Option Result → Answer
  | some result => .ok result
  | none => .failed

def Answer.isDuplicate : Answer → Bool
  | .ok .duplicate => true
  | _ => false

variable (c : Config)

/-- `telegram_mode`. -/
def telegram_mode : String :=
  c.lower (strip (if c.TELEGRAM_MODE = "" then "webhook" else c.TELEGRAM_MODE))

/-! ## The claim -/

def known (s : Store) (update_id : ℤ) : Bool := s.updates.any fun u => u.update_id == update_id

/-- `mark_update`; the exception it raises is not kept. -/
def mark_update (s : Store) (r : Request) (update_id : ℤ) : Store × Option Bool :=
  if r.fails .insert || known s update_id then
    -- nothing is inserted, and the handler asks for the row
    if r.fails .exists_query then (s, none)
    else (s, if known s update_id then some false else none)
  else
    let s := { s with updates := ⟨update_id, r.now, none⟩ :: s.updates }
    if r.fails .runtime_state || r.fails .state_save then
      -- the same handler, and now the row is there
      if r.fails .exists_query then (s, none) else (s, some false)
    else (s, some true)

/-- `mark_update_processed`. -/
def mark_update_processed (s : Store) (r : Request) (update_id : ℤ) : Store :=
  { s with updates := s.updates.map fun u =>
      if u.update_id = update_id then { u with processed_at := some r.now } else u }

/-! ## The message -/

/-- `v or {}`, where the code goes on with `.get`. -/
def orDict : Value → Option Dict
  | .dict d => some d
  | v => if v.truthy then none else some []

/-- `text.split(maxsplit=1)` of a stripped text. -/
def splitOnce (text : String) : Option (String × Option String) :=
  if text = "" then none
  else
    let head := text.toList.takeWhile fun ch => !isSpace ch
    let rest := (text.toList.dropWhile fun ch => !isSpace ch).dropWhile isSpace
    some (String.ofList head, if rest = [] then none else some (String.ofList rest))

/-- What the text of a message asks for. -/
inductive Ask
  | nothing
  | start (token : String)
  | command (name : String)
  deriving DecidableEq, Repr

/-- The name before an `@`, without slashes, in lower case. -/
def commandOf (part : String) : String :=
  c.lower (String.ofList ((partition '@' part).1.toList.dropWhile (· == '/')))

/-- The branch of the handler a text leads to. -/
def asks (text : String) : Ask :=
  match splitOnce text with
  | none => .nothing
  | some (head, rest) =>
      let command := commandOf c head
      match rest.map strip with
      | some token =>
          if command = "start" ∧ token ≠ "" then .start token
          else if command = "" then .nothing else .command command
      | none => if command = "" then .nothing else .command command

/-- `_command_response`, for the connection of the chat. -/
def command_response (s : Store) (command : String) (conn : Option Connection) : String :=
  let verified := conn.filter fun conn => conn.status = .verified
  let preference (user : ℕ) := s.preferences.find? fun p => p.user == user
  if command = "help" ∨ command = "commands" then
    "AlgoBot Notifications\n\n" ++
    "/start — connect or verify Telegram\n" ++
    "/status — Telegram connection status\n" ++
    "/account — all connected account details\n" ++
    "/accounts — same account overview\n" ++
    "/positions — current open positions\n" ++
    "/trades — latest orders\n" ++
    "/alerts — notification delivery status\n" ++
    "/settings — notification preference status\n" ++
    "/ping — service health check\n" ++
    "/refresh — show latest synchronized account state\n" ++
    "/disconnect — unlink this Telegram chat\n" ++
    "/help — show this command list"
  else if command = "start" then
    "Welcome to AlgoBot. Use the secure verification link from AlgoBot to connect this " ++
    "Telegram account."
  else if command = "status" then
    match verified with
    | some _ =>
        "Telegram is VERIFIED and active. This chat can access your AlgoBot account overview " ++
        "and notification controls."
    | none =>
        "Telegram is not verified for an AlgoBot account yet. Open the Telegram connection " ++
        "link from AlgoBot and press Start."
  else if command = "alerts" then
    match verified with
    | none => "Verify your Telegram account first to enable AlgoBot alerts."
    | some conn =>
        if (preference conn.user).any (·.enabled) then "Alert delivery: ENABLED."
        else "Alert delivery: DISABLED."
  else if command = "settings" then
    match verified with
    | none => "Verify your Telegram account first."
    | some conn =>
        match preference conn.user with
        | none => "Telegram preferences are using default settings."
        | some p =>
            "Telegram settings\n\nAlerts: " ++ (if p.enabled then "ON" else "OFF") ++
            "\nDigest: " ++ p.digest_frequency ++
            "\nQuiet hours: " ++ (if p.quiet_hours then "configured" else "not configured")
  else if command = "ping" then
    "AlgoBot Telegram control plane: ONLINE. Shared account state is read from the same " ++
    "database used by the web platform."
  else if command = "refresh" then
    match verified with
    | none => "Verify your Telegram account first."
    | some conn =>
        "Account state is live from AlgoBot's shared data layer. Latest broker " ++
        "synchronization: " ++ c.latest_sync conn.user ++ "."
  else if command = "account" ∨ command = "accounts" then
    match verified with
    | none => "No verified AlgoBot account is linked to this Telegram chat."
    | some conn => c.account_report conn.user
  else if command = "positions" then
    match verified with
    | none => "Verify your Telegram account first."
    | some conn => c.positions_report conn.user
  else if command = "trades" then
    match verified with
    | none => "Verify your Telegram account first."
    | some conn => c.trades_report conn.user
  else "I didn't recognize that command. Send /help to see the available AlgoBot commands."

/-- The commands whose answer reads a table. -/
def reads (command : String) (conn : Option Connection) : Bool :=
  (conn.any fun conn => conn.status = .verified) &&
    ["alerts", "settings", "refresh", "account", "accounts", "positions", "trades"].contains command

/-! ## What a message changes -/

/-- `update_or_create` of the preference of a user. -/
def enable (s : Store) (user : ℕ) : List Preference :=
  if s.preferences.any fun p => p.user == user then
    s.preferences.map fun p => if p.user = user then { p with enabled := true } else p
  else ⟨user, true, "immediate", false⟩ :: s.preferences

/-- The connection after `/start` with its token, from the chat `chat`. -/
def Connection.link (conn : Connection) (chat : Dict) (now : ℕ) : Connection :=
  { conn with
    status := .verified
    external_id := (chat.get "id").toStr c.toHost
    address :=
      if (chat.get "username").truthy then "@" ++ (chat.get "username").toStr c.toHost
      else textOr c.toHost (chat.get "first_name") "Telegram"
    verified_at := some now
    verification_code_hash := ""
    verification_expires_at := none
    metadata := [("first_name", chat.getD "first_name" (.str "")),
      ("last_name", chat.getD "last_name" (.str "")),
      ("username", chat.getD "username" (.str ""))] }

/-- The transaction of `/start` with a token, and its reply. -/
def startLink (s : Store) (chat : Dict) (token : String) (now : ℕ) : Store × String :=
  let digest := c.sha256 token
  let found := s.connections.find? fun conn =>
    conn.status = .pending && conn.verification_code_hash == digest &&
      conn.verification_expires_at.any fun expires => now < expires
  match found with
  | none =>
      (s, "That AlgoBot verification link is invalid or expired. Start a new Telegram " ++
        "connection from AlgoBot.")
  | some conn =>
      let chat_id := (chat.get "id").toStr c.toHost
      let bound := s.connections.rows.any fun other =>
        other.external_id == chat_id && other.pk != conn.pk
      if bound then
        (s, "This Telegram chat is already linked to another AlgoBot account. Disconnect it " ++
          "there before linking it here.")
      else
        ({ s with
            connections := s.connections.set (conn.link c chat now)
            preferences := enable s conn.user },
          "AlgoBot Telegram is now VERIFIED. You can use /account, /positions, /trades, " ++
            "/alerts and /help from this chat.")

/-- `_disconnect_telegram`, its transaction. -/
def disconnect (s : Store) (conn : Connection) : Store × String :=
  ({ s with
      preferences := s.preferences.map fun p =>
        if p.user = conn.user then { p with enabled := false } else p
      connections := s.connections.set { conn with
        status := .revoked
        external_id := ""
        verification_code_hash := ""
        verification_expires_at := none
        verified_at := none } },
    "Telegram has been DISCONNECTED from AlgoBot. Broker accounts remain unchanged. Start a " ++
      "new connection from AlgoBot whenever you want to reconnect.")

/-- The connection of the chat `chat_id`. -/
def chatConnection (s : Store) (chat_id : String) : Option Connection :=
  s.connections.find? fun conn => conn.external_id == chat_id

/-- The branches of the handler once the chat is known; `none` is an exception. -/
def react (s : Store) (r : Request) (chat : Dict) (text : String) :
    Option (Store × Option String × String) :=
  let conn := chatConnection s ((chat.get "id").toStr c.toHost)
  match asks c text with
  | .nothing => some (s, none, "AlgoBot is online. Send /help for available commands.")
  | .start token =>
      if r.fails .start then none
      else
        let (s, reply) := startLink c s chat token r.now
        some (s, some "start", reply)
  | .command command =>
      if command = "disconnect" then
        match conn with
        | none =>
            some (s, some command, "This Telegram chat is already disconnected from AlgoBot.")
        | some conn =>
            if r.fails .disconnect then none
            else
              let (s, reply) := disconnect s conn
              some (s, some command, reply)
      else if reads command conn && r.fails .command then none
      else some (s, some command, command_response c s command conn)

/-- The handler between the claim and `mark_update_processed`; `none` is an exception. With it the
update takes effect. -/
def handle (s : Store) (r : Request) (payload : Dict) (update_id : ℤ) : Option (Store × Result) :=
  match orDict (payload.get "message") with
  | none => none
  | some message =>
      match orDict (message.get "chat") with
      | none => none
      | some chat =>
          if !(chat.get "id").truthy then
            some ({ s with applied := update_id :: s.applied }, .unprocessed)
          else if r.fails .lookup then none
          else
            match react c s r chat (strip (textOr c.toHost (message.get "text") "")) with
            | none => none
            | some (s, command, reply) =>
                some ({ s with applied := update_id :: s.applied },
                  .processed command ⟨chat.get "id", take 4096 reply⟩)

/-! ## The webhook -/

/-- `telegram_webhook` for a claimed update; `none` is the exception it raises. -/
def process (s : Store) (r : Request) (payload : Dict) (update_id : ℤ) : Store × Option Result :=
  match handle c s r payload update_id with
  | some (s, result) =>
      if !r.fails .processed then (mark_update_processed s r update_id, some result)
      else if !r.fails .processed_again then (mark_update_processed s r update_id, none)
      else (s, none)
  | none =>
      if !r.fails .processed_again then (mark_update_processed s r update_id, none) else (s, none)

/-- `telegram_webhook` once the number of the update is known. -/
def deliver (s : Store) (r : Request) (payload : Dict) (update_id : ℤ) : Store × Option Result :=
  match mark_update s r update_id with
  | (s, none) => (s, none)
  | (s, some false) => (s, some .duplicate)
  | (s, some true) => process c s r payload update_id

/-- `telegram_webhook`. -/
def telegram_webhook (s : Store) (r : Request) (payload : Value) : Store × Option Result :=
  if telegram_mode c ≠ "webhook" then (s, none)
  else
    match payload with
    | .dict payload =>
        match Dict.get payload "update_id" with
        | Value.none => (s, some .missing_update_id)
        | v =>
            match v.toInt c.toHost with
            | .error _ => (s, none)
            | .ok update_id => deliver c s r payload update_id
    | _ => (s, none)

/-- `compare_digest` of two strings; `none` is its `TypeError`. -/
def secretMatches (configured supplied : String) : Option Bool :=
  if (configured.toList ++ supplied.toList).all fun ch => ch.val < 128 then
    some (configured == supplied)
  else none

/-- `telegram_webhook_view`. -/
def telegram_webhook_view (s : Store) (r : Request) : Store × Answer :=
  if r.method ≠ "POST" then (s, .active)
  else if c.TELEGRAM_WEBHOOK_SECRET = "" ∨ r.secret = "" then (s, .invalid_secret)
  else
    match secretMatches c.TELEGRAM_WEBHOOK_SECRET r.secret with
    | none => (s, .failed)
    | some false => (s, .invalid_secret)
    | some true =>
        match r.body with
        | .undecodable => (s, .failed)
        | .malformed => (s, .invalid_json)
        | .json payload =>
            ((telegram_webhook c s r payload).1, .of (telegram_webhook c s r payload).2)

/-- Deliveries, one after the other. -/
def webhook : Machine Store Request where
  next s r := some (telegram_webhook_view c s r).1

/-! ## What the claim asks of a delivery -/

/-- The payload and the update of a request that gets past the checks of the webhook. -/
def delivered (r : Request) : Option (Dict × ℤ) :=
  if r.method = "POST" ∧ c.TELEGRAM_WEBHOOK_SECRET ≠ "" ∧ r.secret ≠ "" ∧
      secretMatches c.TELEGRAM_WEBHOOK_SECRET r.secret = some true ∧
      telegram_mode c = "webhook" then
    match r.body with
    | .json (.dict payload) =>
        match Dict.get payload "update_id" with
        | Value.none => none
        | v => (v.toInt c.toHost).toOption.map fun update_id => (payload, update_id)
    | _ => none
  else none

/-- The branch of the handler meets no failure. -/
def spared (s : Store) (r : Request) (chat : Dict) (text : String) : Bool :=
  let conn := chatConnection s ((chat.get "id").toStr c.toHost)
  match asks c text with
  | .nothing => true
  | .start _ => !r.fails .start
  | .command command =>
      if command = "disconnect" then conn.isNone || !r.fails .disconnect
      else !(reads command conn && r.fails .command)

/-- The message can be read, and nothing fails on the way to its effect. -/
def readable (s : Store) (r : Request) (payload : Dict) : Bool :=
  (orDict (payload.get "message")).any fun message =>
    (orDict (message.get "chat")).any fun chat =>
      !(chat.get "id").truthy ||
        (!r.fails .lookup &&
          spared c s r chat (strip (textOr c.toHost (message.get "text") "")))

/-- The telemetry is saved and the handler gets through. -/
def undisturbed (s : Store) (r : Request) (payload : Dict) : Bool :=
  !r.fails .runtime_state && !r.fails .state_save && readable c s r payload

/-- The delivery claims this update. -/
def claims (s : Store) (r : Request) (update_id : ℤ) : Bool :=
  !r.fails .insert && !known s update_id

/-- A delivery that claims an update is undisturbed up to its effect. -/
def Careful (s : Store) (r : Request) : Prop :=
  ∀ payload update_id, delivered c r = some (payload, update_id) →
    claims s r update_id = true → undisturbed c s r payload = true

/-- Every row is of an update that took effect once, and no other update did. -/
def Settled (s : Store) : Prop :=
  ∀ update_id, s.applied.count update_id = if known s update_id then 1 else 0

/-- Updates take effect at most once, an answer of success means that the update has, and one of a
duplicate that it had before. -/
structure EffectsOnce (s : Store) (rs : List Request) : Prop where
  once : Machine.RunIf.Always (webhook c) (fun t => ∀ update_id, t.applied.count update_id ≤ 1) s rs
  answered : ∀ before r rest t, rs = before ++ r :: rest → (webhook c).Run s before t →
    ∀ payload update_id, delivered c r = some (payload, update_id) →
      (telegram_webhook_view c t r).2.status = 200 →
      update_id ∈ (telegram_webhook_view c t r).1.applied
  duplicates : ∀ before r rest t, rs = before ++ r :: rest → (webhook c).Run s before t →
    ∀ payload update_id, delivered c r = some (payload, update_id) →
      (telegram_webhook_view c t r).2.isDuplicate = true → update_id ∈ t.applied

/-! ## One delivery -/

variable {c} {s s' t : Store} {r : Request} {payload : Dict} {update_id : ℤ}

theorem known_processed (j : ℤ) : known (mark_update_processed s r update_id) j = known s j := by
  unfold known mark_update_processed
  rw [List.any_map]
  congr 1
  funext u
  simp only [Function.comp_apply]
  split
  · rfl
  · rfl

theorem known_of_updates (h : s'.updates = s.updates) (j : ℤ) : known s' j = known s j := by
  rw [known, known, h]

theorem startLink_updates (chat : Dict) (token : String) (now : ℕ) :
    (startLink c s chat token now).1.updates = s.updates ∧
      (startLink c s chat token now).1.applied = s.applied := by
  simp only [startLink]
  split
  · exact ⟨rfl, rfl⟩
  · split
    · exact ⟨rfl, rfl⟩
    · exact ⟨rfl, rfl⟩

theorem react_updates {chat : Dict} {text : String} {command : Option String} {reply : String}
    (h : react c s r chat text = some (s', command, reply)) :
    s'.updates = s.updates ∧ s'.applied = s.applied := by
  simp only [react] at h
  split at h
  · cases h
    exact ⟨rfl, rfl⟩
  · split at h
    · cases h
    · cases h
      exact startLink_updates chat _ r.now
  · split at h
    · split at h
      · cases h
        exact ⟨rfl, rfl⟩
      · split at h
        · cases h
        · cases h
          exact ⟨rfl, rfl⟩
    · split at h
      · cases h
      · cases h
        exact ⟨rfl, rfl⟩

theorem react_isSome (chat : Dict) (text : String) :
    (react c s r chat text).isSome = spared c s r chat text := by
  simp only [react, spared]
  cases asks c text with
  | nothing => rfl
  | start token => cases hfails : r.fails .start <;> simp
  | command command =>
    by_cases hcommand : command = "disconnect"
    · simp only [hcommand, if_true]
      cases chatConnection s ((chat.get "id").toStr c.toHost) with
      | none => rfl
      | some conn => cases hfails : r.fails .disconnect <;> simp
    · simp only [hcommand, if_false]
      cases hfails : reads command (chatConnection s ((chat.get "id").toStr c.toHost)) &&
        r.fails .command <;> simp

/-- The handler returns exactly where nothing is in its way. -/
theorem handle_isSome (c : Config) (s : Store) (r : Request) (payload : Dict) (update_id : ℤ) :
    (handle c s r payload update_id).isSome = readable c s r payload := by
  unfold handle readable
  cases orDict (payload.get "message") with
  | none => rfl
  | some message =>
    simp only [Option.any_some]
    cases orDict (message.get "chat") with
    | none => rfl
    | some chat =>
      simp only [Option.any_some]
      rw [← react_isSome]
      cases (chat.get "id").truthy with
      | false => rfl
      | true =>
        cases r.fails .lookup with
        | true => rfl
        | false =>
          cases react c s r chat (strip (textOr c.toHost (message.get "text") "")) with
          | none => rfl
          | some reaction => rfl

/-- With the handler the update takes effect, and the rows stay. -/
theorem handle_effect {result : Result}
    (h : handle c s r payload update_id = some (s', result)) :
    s'.updates = s.updates ∧ s'.applied = update_id :: s.applied ∧
      (Answer.ok result).isDuplicate = false := by
  unfold handle at h
  split at h
  · cases h
  split at h
  · cases h
  split at h
  · cases h
    exact ⟨rfl, rfl, rfl⟩
  split at h
  · cases h
  split at h
  · cases h
  next hreact =>
    obtain ⟨hupdates, happlied⟩ := react_updates hreact
    cases h
    exact ⟨hupdates, congrArg (update_id :: ·) happlied, rfl⟩

/-- What `process` leaves of a claimed update whose handler got through, and of one whose handler
did not. -/
theorem process_of_some {result : Result}
    (h : handle c s r payload update_id = some (s', result)) :
    (∀ j, known (process c s r payload update_id).1 j = known s' j) ∧
      (process c s r payload update_id).1.applied = s'.applied ∧
      ((process c s r payload update_id).2 = some result ∨
        (process c s r payload update_id).2 = none) := by
  simp only [process, h]
  split
  · exact ⟨known_processed, rfl, Or.inl rfl⟩
  · split
    · exact ⟨known_processed, rfl, Or.inr rfl⟩
    · exact ⟨fun _ => rfl, rfl, Or.inr rfl⟩

theorem process_of_none (h : handle c s r payload update_id = none) :
    (∀ j, known (process c s r payload update_id).1 j = known s j) ∧
      (process c s r payload update_id).1.applied = s.applied ∧
      (process c s r payload update_id).2 = none := by
  simp only [process, h]
  split
  · exact ⟨known_processed, rfl, rfl⟩
  · exact ⟨fun _ => rfl, rfl, rfl⟩

/-- A request that delivers nothing changes nothing. -/
theorem view_of_not_delivered (h : delivered c r = none) : (telegram_webhook_view c s r).1 = s := by
  unfold delivered at h
  unfold telegram_webhook_view telegram_webhook
  split
  · rfl
  next hmethod =>
  split
  · rfl
  next hsecret =>
  split
  · rfl
  · rfl
  next hmatches =>
  split
  · rfl
  · rfl
  next payload hbody =>
  by_cases hmode : telegram_mode c = "webhook"
  · rw [if_pos ⟨not_not.mp hmethod, fun hc => hsecret (Or.inl hc), fun hr => hsecret (Or.inr hr),
      hmatches, hmode⟩, hbody] at h
    rw [if_neg (not_not.mpr hmode)]
    cases payload with
    | dict payload =>
      simp only at h ⊢
      split at h
      · rfl
      · cases hint : (Dict.get payload "update_id").toInt c.toHost with
        | error e => rfl
        | ok update_id =>
          rw [hint] at h
          cases h
    | _ => rfl
  · rw [if_pos hmode]

/-- What the view does with a delivery. -/
theorem view_of_delivered (h : delivered c r = some (payload, update_id)) :
    telegram_webhook_view c s r =
      ((deliver c s r payload update_id).1, .of (deliver c s r payload update_id).2) := by
  unfold delivered at h
  split at h
  · next hchecks =>
    obtain ⟨hmethod, hconfigured, hsecret, hmatches, hmode⟩ := hchecks
    unfold telegram_webhook_view telegram_webhook
    rw [if_neg (not_not.mpr hmethod), if_neg (not_or.mpr ⟨hconfigured, hsecret⟩), hmatches]
    split at h
    · next payload' hbody =>
      rw [hbody]
      simp only [if_neg (not_not.mpr hmode)]
      split at h
      · cases h
      · cases hint : (Dict.get payload' "update_id").toInt c.toHost with
        | error e =>
          rw [hint] at h
          cases h
        | ok parsed =>
          rw [hint] at h
          cases h
          rfl
    · cases h
  · cases h

/-- A delivery that claims nothing. -/
theorem view_of_known (h : delivered c r = some (payload, update_id))
    (hclaims : claims s r update_id = false) :
    (telegram_webhook_view c s r).1 = s ∧
      ((telegram_webhook_view c s r).2.status = 200 → known s update_id = true) := by
  have hfirst : (r.fails .insert || known s update_id) = true := by
    unfold claims at hclaims
    cases hinsert : r.fails .insert with
    | true => rfl
    | false => simpa [hinsert] using hclaims
  rw [view_of_delivered h]
  unfold deliver mark_update
  rw [if_pos hfirst]
  cases r.fails .exists_query with
  | true => exact ⟨rfl, fun hstatus => by cases hstatus⟩
  | false =>
    cases known s update_id with
    | false => exact ⟨rfl, fun hstatus => by cases hstatus⟩
    | true => exact ⟨rfl, fun _ => rfl⟩

/-- What a delivery that claims its update leaves: the update is known, and took effect exactly if
the delivery is undisturbed. -/
structure Claimed (s : Store) (r : Request) (payload : Dict) (update_id : ℤ)
    (out : Store × Option Result) : Prop where
  known_iff : ∀ j, known out.1 j = (update_id == j || known s j)
  applied_eq : out.1.applied =
    (if undisturbed c s r payload then [update_id] else []) ++ s.applied
  fresh : undisturbed c s r payload = true → (Answer.of out.2).isDuplicate = false

theorem claimed_deliver (payload : Dict) (hclaims : claims s r update_id = true) :
    Claimed (c := c) s r payload update_id (deliver c s r payload update_id) := by
  obtain ⟨hinsert, hnew⟩ := Bool.and_eq_true_iff.mp hclaims
  have hfirst : (r.fails .insert || known s update_id) = false := by
    rw [Bool.not_eq_true'] at hinsert hnew
    rw [hinsert, hnew]
    rfl
  have hundisturbed : undisturbed c s r payload =
      (!(r.fails .runtime_state || r.fails .state_save) && readable c s r payload) := by
    rw [undisturbed, Bool.not_or]
  unfold deliver mark_update
  rw [if_neg (by rw [hfirst]; exact Bool.false_ne_true)]
  cases htelemetry : r.fails .runtime_state || r.fails .state_save with
  | true =>
    rw [htelemetry] at hundisturbed
    cases r.fails .exists_query with
    | true =>
      refine ⟨fun j => rfl, ?_, ?_⟩
      · rw [hundisturbed]
        rfl
      · intro hcontra
        rw [hundisturbed] at hcontra
        cases hcontra
    | false =>
      refine ⟨fun j => rfl, ?_, ?_⟩
      · rw [hundisturbed]
        rfl
      · intro hcontra
        rw [hundisturbed] at hcontra
        cases hcontra
  | false =>
    -- the handler reads the connections, which the claim leaves
    have hsome := handle_isSome c { s with updates := ⟨update_id, r.now, none⟩ :: s.updates } r
      payload update_id
    have hreadable : undisturbed c s r payload =
        readable c { s with updates := ⟨update_id, r.now, none⟩ :: s.updates } r payload := by
      rw [hundisturbed, htelemetry, Bool.not_false, Bool.true_and]
      simp only [readable, spared, chatConnection]
    rw [← hreadable] at hsome
    simp only [Bool.false_eq_true, if_false]
    cases hhandle : handle c { s with updates := ⟨update_id, r.now, none⟩ :: s.updates } r payload
        update_id with
    | none =>
      obtain ⟨hknown, happlied, hnone⟩ := process_of_none hhandle
      rw [hhandle] at hsome
      refine ⟨hknown, ?_, ?_⟩
      · rw [happlied, ← hsome]
        rfl
      · intro _
        rw [hnone]
        rfl
    | some done =>
      obtain ⟨u, result⟩ := done
      obtain ⟨hknown, happlied, hanswer⟩ := process_of_some hhandle
      obtain ⟨hupdates, heffect, hfresh⟩ := handle_effect hhandle
      rw [hhandle] at hsome
      refine ⟨?_, ?_, ?_⟩
      · intro j
        rw [hknown, known_of_updates hupdates]
        rfl
      · rw [happlied, heffect, ← hsome]
        rfl
      · intro _
        rcases hanswer with hresult | hnone
        · rw [hresult]
          exact hfresh
        · rw [hnone]
          rfl

/-- A delivery leaves the store, or it claims its update. -/
theorem view_cases (s : Store) (r : Request) :
    (telegram_webhook_view c s r).1 = s ∨
      ∃ payload update_id, delivered c r = some (payload, update_id) ∧
        claims s r update_id = true ∧
        Claimed (c := c) s r payload update_id
          ((telegram_webhook_view c s r).1, (deliver c s r payload update_id).2) := by
  cases hdelivered : delivered c r with
  | none => exact Or.inl (view_of_not_delivered hdelivered)
  | some found =>
    obtain ⟨payload, update_id⟩ := found
    cases hclaims : claims s r update_id with
    | false => exact Or.inl (view_of_known hdelivered hclaims).1
    | true =>
      refine Or.inr ⟨payload, update_id, rfl, hclaims, ?_⟩
      rw [view_of_delivered hdelivered]
      exact claimed_deliver payload hclaims

theorem known_of_claims (h : claims s r update_id = true) : known s update_id = false := by
  simpa using (Bool.and_eq_true_iff.mp h).2

/-! ## Sequences of deliveries -/

/-- Updates took effect at most once, and leave a row. -/
def Sane (s : Store) : Prop :=
  ∀ j, s.applied.count j ≤ 1 ∧ (j ∈ s.applied → known s j = true)

theorem Settled.sane (h : Settled s) : Sane s := by
  intro j
  have hcount := h j
  split at hcount
  · next hknown => exact ⟨by omega, fun _ => hknown⟩
  · refine ⟨by omega, fun hmem => ?_⟩
    have hpos := List.count_pos_iff.mpr hmem
    omega

theorem Sane.view (h : Sane s) (r : Request) : Sane (telegram_webhook_view c s r).1 := by
  rcases view_cases (c := c) s r with hsame | ⟨payload, update_id, _, hclaims, hclaimed⟩
  · rw [hsame]
    exact h
  · have hnew := known_of_claims hclaims
    have hfresh : update_id ∉ s.applied := by
      intro hmem
      rw [(h update_id).2 hmem] at hnew
      cases hnew
    intro j
    rw [hclaimed.known_iff, hclaimed.applied_eq]
    obtain ⟨hcount, hrow⟩ := h j
    split
    · -- it took effect just now
      rw [List.singleton_append, List.count_cons]
      by_cases hj : update_id = j
      · subst hj
        have hzero : s.applied.count update_id = 0 := List.count_eq_zero.mpr hfresh
        refine ⟨by simp [hzero], fun _ => by simp⟩
      · refine ⟨by simpa [hj] using hcount, fun hmem => ?_⟩
        rcases List.mem_cons.mp hmem with hself | hold
        · exact absurd hself.symm hj
        · rw [hrow hold, Bool.or_true]
    · refine ⟨hcount, fun hmem => ?_⟩
      rw [hrow hmem, Bool.or_true]

/-- Over any sequence of deliveries no update takes effect twice. -/
theorem applied_at_most_once {rs : List Request} (h : Settled s) :
    Machine.RunIf.Always (webhook c) (fun t => ∀ j, t.applied.count j ≤ 1) s rs := by
  intro before rest t _ hrun
  have hsane : Sane t := by
    refine hrun.invariant ?_ h.sane
    rintro u r _ _ hu ⟨⟩
    exact hu.view r
  exact fun j => (hsane j).1

theorem Settled.view (h : Settled s) (hcareful : Careful c s r) :
    Settled (telegram_webhook_view c s r).1 := by
  rcases view_cases (c := c) s r with hsame | ⟨payload, update_id, hdelivered, hclaims, hclaimed⟩
  · rw [hsame]
    exact h
  · have hnew := known_of_claims hclaims
    have hundisturbed := hcareful payload update_id hdelivered hclaims
    intro j
    rw [hclaimed.known_iff, hclaimed.applied_eq, hundisturbed, if_pos rfl, List.singleton_append,
      List.count_cons, h j]
    by_cases hj : update_id = j
    · subst hj
      simp [hnew]
    · simp [hj]

theorem Settled.mem_applied (h : Settled s) (hknown : known s update_id = true) :
    update_id ∈ s.applied := by
  have hcount := h update_id
  rw [if_pos hknown] at hcount
  exact List.count_pos_iff.mp (by omega)

/-- An update that is known and has not taken effect: it never will. -/
def Lost (update_id : ℤ) (s : Store) : Prop := known s update_id = true ∧ update_id ∉ s.applied

theorem Lost.view (h : Lost update_id s) (r : Request) :
    Lost update_id (telegram_webhook_view c s r).1 := by
  rcases view_cases (c := c) s r with hsame | ⟨payload, claimed, _, hclaims, hclaimed⟩
  · rw [hsame]
    exact h
  · have hne : claimed ≠ update_id := by
      rintro rfl
      have hnew := known_of_claims hclaims
      rw [h.1] at hnew
      cases hnew
    refine ⟨by rw [hclaimed.known_iff, h.1, Bool.or_true], ?_⟩
    rw [hclaimed.applied_eq]
    intro hmem
    rcases List.mem_append.mp hmem with hnow | hold
    · split at hnow
      · exact hne (List.mem_singleton.mp hnow).symm
      · cases hnow
    · exact h.2 hold

/-- The same delivery, with nothing in its way. -/
def Request.again (r : Request) : Request := { r with fails := fun _ => false }

/-- A lost update is answered as a duplicate. -/
theorem Lost.duplicate (h : Lost update_id s)
    (hdelivered : delivered c r = some (payload, update_id)) :
    (telegram_webhook_view c s r.again).2.isDuplicate = true := by
  have hagain : delivered c r.again = some (payload, update_id) := hdelivered
  rw [view_of_delivered hagain]
  unfold deliver mark_update
  simp [Request.again, h.1, Answer.of, Answer.isDuplicate]

theorem careful_of_known (h : known s update_id = true)
    (hdelivered : delivered c r = some (payload, update_id)) : Careful c s r := by
  intro payload' claimed hdelivered' hclaims
  rw [hdelivered] at hdelivered'
  cases hdelivered'
  have hnew := known_of_claims hclaims
  rw [h] at hnew
  cases hnew

theorem webhook_run (c : Config) (s : Store) (rs : List Request) :
    ∃ t, (webhook c).Run s rs t := by
  exact Machine.run_of_enabled (fun _ _ => rfl) s rs

theorem EffectsOnce.of_careful {rs : List Request} (h : Settled s)
    (hrun : (webhook c).RunIf (Careful c) s rs t) : EffectsOnce c s rs := by
  -- the state before each delivery is settled, and the delivery careful
  have hbefore : ∀ before r rest u, rs = before ++ r :: rest → (webhook c).Run s before u →
      Settled u ∧ Careful c u r := by
    rintro before r rest u rfl hu
    refine ⟨?_, hrun.guard_of_exec hu.exec_eq⟩
    obtain ⟨u', hu', _⟩ := hrun.split
    obtain rfl : u' = u := Option.some.inj (hu'.exec_eq.symm.trans hu.exec_eq)
    refine hu'.invariant ?_ h
    rintro v r _ hcareful hv ⟨⟩
    exact hv.view hcareful
  refine ⟨applied_at_most_once h, ?_, ?_⟩
  · intro before r rest u hsplit hu payload update_id hdelivered hstatus
    obtain ⟨hsettled, hcareful⟩ := hbefore before r rest u hsplit hu
    cases hclaims : claims u r update_id with
    | false =>
      obtain ⟨hsame, hknown⟩ := view_of_known hdelivered hclaims
      rw [hsame]
      exact hsettled.mem_applied (hknown hstatus)
    | true =>
      have hclaimed := claimed_deliver (c := c) payload hclaims
      rw [view_of_delivered hdelivered, hclaimed.applied_eq,
        hcareful payload update_id hdelivered hclaims]
      exact List.mem_cons_self
  · intro before r rest u hsplit hu payload update_id hdelivered hduplicate
    obtain ⟨hsettled, hcareful⟩ := hbefore before r rest u hsplit hu
    cases hclaims : claims u r update_id with
    | false =>
      refine hsettled.mem_applied ((view_of_known hdelivered hclaims).2 ?_)
      -- a duplicate is answered with success
      generalize (telegram_webhook_view c u r).2 = answer at hduplicate
      cases answer with
      | ok result => rfl
      | _ => cases hduplicate
    | true =>
      have hclaimed := claimed_deliver (c := c) payload hclaims
      have hfresh := hclaimed.fresh (hcareful payload update_id hdelivered hclaims)
      rw [view_of_delivered hdelivered] at hduplicate
      rw [hfresh] at hduplicate
      cases hduplicate

/-- Whatever careful deliveries follow a sequence, updates take effect at most once in it and every
answer of success is about an update that has, exactly if no delivery of the sequence claims an
update without getting to its effect. -/
theorem effects_once_iff (h : Settled s) (rs : List Request) :
    (∃ t, (webhook c).RunIf (Careful c) s rs t) ↔
      ∀ more t u, (webhook c).Run s rs t → (webhook c).RunIf (Careful c) t more u →
        EffectsOnce c s (rs ++ more) := by
  constructor
  · rintro ⟨t, hrun⟩ more t' u ht' hmore
    obtain rfl : t = t' := Option.some.inj (hrun.exec_eq.symm.trans ht'.exec_eq)
    exact EffectsOnce.of_careful h (hrun.append hmore)
  · intro hall
    obtain ⟨t, hrun⟩ := webhook_run c s rs
    refine ⟨t, (Machine.RunIf.iff_forall_prefix hrun).mpr ?_⟩
    rintro before r rest u rfl hu payload update_id hdelivered hclaims
    by_contra hdisturbed
    -- the delivery claims the update and loses it
    have hclaimed := claimed_deliver (c := c) payload hclaims
    have hlost : Lost update_id (telegram_webhook_view c u r).1 := by
      rw [view_of_delivered hdelivered]
      refine ⟨by rw [hclaimed.known_iff, beq_self_eq_true, Bool.true_or], ?_⟩
      rw [hclaimed.applied_eq, if_neg hdisturbed, List.nil_append]
      obtain ⟨v, hv, _⟩ := hrun.split
      obtain rfl : v = u := Option.some.inj (hv.exec_eq.symm.trans hu.exec_eq)
      have hsane : Sane v := by
        refine hu.invariant ?_ h.sane
        rintro w r _ _ hw ⟨⟩
        exact hw.view r
      intro hmem
      have hnew := known_of_claims hclaims
      rw [(hsane update_id).2 hmem] at hnew
      cases hnew
    -- it stays lost, and the next delivery of it is answered as a duplicate
    have hend : Lost update_id t := by
      obtain ⟨v, hv, hrest⟩ := hrun.split
      obtain rfl : v = u := Option.some.inj (hv.exec_eq.symm.trans hu.exec_eq)
      cases hrest with
      | cons _ hn hrest =>
        cases hn
        refine hrest.invariant ?_ hlost
        rintro w r _ _ hw ⟨⟩
        exact hw.view r
    have hagain : delivered c r.again = some (payload, update_id) := hdelivered
    have hmore : (webhook c).RunIf (Careful c) t [r.again] (telegram_webhook_view c t r.again).1 :=
      Machine.RunIf.cons (careful_of_known hend.1 hagain) rfl (Machine.RunIf.nil _)
    have honce := hall [r.again] t _ hrun hmore
    exact hend.2 (honce.duplicates (before ++ r :: rest) r.again [] t rfl hrun payload update_id
      hagain (hend.duplicate hdelivered))

/-! ## A lost update -/

/-- The webhook of a chat in which nobody is connected. -/
def plain : Config where
  toCaseHost := CaseHost.ascii
  TELEGRAM_MODE := "webhook"
  TELEGRAM_WEBHOOK_SECRET := "test-secret"
  account_report _ := ""
  positions_report _ := ""
  trades_report _ := ""
  latest_sync _ := ""

def fresh : Store := ⟨[], Table.empty, [], []⟩

theorem settled_fresh : Settled fresh := by
  intro j
  rfl

/-- `/help` in chat 777, as update 1001. -/
def helpPayload : Dict :=
  [("update_id", .int 1001),
    ("message", .dict [("chat", .dict [("id", .int 777)]), ("text", .str "/help")])]

def help (fails : Site → Bool) : Request where
  method := "POST"
  secret := "test-secret"
  body := .json (.dict helpPayload)
  now := 0
  fails := fails

theorem delivered_help (fails : Site → Bool) :
    delivered plain (help fails) = some (helpPayload, 1001) := by
  have hchecks : ("POST" : String) = "POST" ∧ plain.TELEGRAM_WEBHOOK_SECRET ≠ "" ∧
      "test-secret" ≠ "" ∧
      secretMatches plain.TELEGRAM_WEBHOOK_SECRET "test-secret" = some true ∧
      telegram_mode plain = "webhook" := by decide +kernel
  exact if_pos hchecks

theorem careful_help : Careful plain fresh (help fun _ => false) := by
  intro payload update_id hdelivered _
  rw [delivered_help] at hdelivered
  cases hdelivered
  decide +kernel

/-- `/help` delivered twice. -/
theorem help_answered_once :
    EffectsOnce plain fresh ([help fun _ => false] ++ [help fun _ => false]) := by
  have hrun : (webhook plain).RunIf (Careful plain) fresh [help fun _ => false]
      (telegram_webhook_view plain fresh (help fun _ => false)).1 :=
    Machine.RunIf.cons careful_help rfl (Machine.RunIf.nil _)
  refine (effects_once_iff settled_fresh _).mp ⟨_, hrun⟩ _ _ _
    (hrun.mono fun _ _ _ => trivial) (Machine.RunIf.cons ?_ rfl (Machine.RunIf.nil _))
  exact careful_of_known (by decide +kernel) (delivered_help _)

/-- The save of the telemetry fails after the claim, and the delivery itself is answered as a
duplicate. -/
theorem telemetry_loses_update :
    ¬ EffectsOnce plain fresh [help fun site => site = .state_save] := by
  intro h
  have hmem := h.duplicates [] (help fun site => site = .state_save) [] fresh rfl
    (Machine.RunIf.nil _) helpPayload 1001 (delivered_help _) (by decide +kernel)
  cases hmem

end AlgoBot.Notifications.Telegram
