import Mathlib.Logic.Function.Basic
import AlgoBot.Core.Machine
import AlgoBot.Python.Value

/-!
# The settings of an account

`account_settings_api` reads the rows of the user, checks every field of the request, and
saves what has changed. A column of its own is saved by itself; the preferences are one
document that is written whole, from what the request has read.

* `settings_commute_iff`: requests with disjoint preference keys keep each other's changes, and
  a request that fails changes nothing, exactly if each request that changes a preference has
  read the changes of the requests that have succeeded.
* `preference_lost`: two requests that read before either saves.
-/

namespace AlgoBot.Settings

open AlgoBot.Core AlgoBot.Python

/-! ## Fields -/

/-- The value of a setting. -/
inductive Setting
  | text (s : String)
  | flag (b : Bool)
  | number (q : ℚ)
  deriving DecidableEq

inductive ProfileField
  | country
  | timezone
  | phone
  | bio
  | notifications_enabled
  | email_notifications_enabled
  | telegram_notifications_enabled
  deriving DecidableEq

def ProfileField.name : ProfileField → String
  | country => "country"
  | timezone => "timezone"
  | phone => "phone"
  | bio => "bio"
  | notifications_enabled => "notifications_enabled"
  | email_notifications_enabled => "email_notifications_enabled"
  | telegram_notifications_enabled => "telegram_notifications_enabled"

def PROFILE_TEXT_LIMITS : List (ProfileField × ℕ) :=
  [(.country, 100), (.timezone, 100), (.phone, 20), (.bio, 5000)]

def PROFILE_BOOLEAN_FIELDS : List ProfileField :=
  [.notifications_enabled, .email_notifications_enabled, .telegram_notifications_enabled]

/-- The preferences that are one of some choices. -/
inductive PreferenceChoice
  | theme
  | density
  | accent
  | layout
  | chart_position
  | default_page
  | auto_refresh_interval
  | refresh_frequency
  deriving DecidableEq

def PreferenceChoice.name : PreferenceChoice → String
  | theme => "theme"
  | density => "density"
  | accent => "accent"
  | layout => "layout"
  | chart_position => "chart_position"
  | default_page => "default_page"
  | auto_refresh_interval => "auto_refresh_interval"
  | refresh_frequency => "refresh_frequency"

def ACCOUNT_PREFERENCE_CHOICES : List (PreferenceChoice × List String) :=
  [(.theme, ["light", "dark", "system"]), (.density, ["compact", "default", "comfortable"]),
    (.accent, ["cyan", "blue", "teal", "violet", "amber"]), (.layout, ["classic", "wide", "focus"]),
    (.chart_position, ["right", "left", "bottom"]),
    (.default_page, ["dashboard", "markets", "analysis", "terminal", "positions"]),
    (.auto_refresh_interval, ["realtime", "15s", "30s", "60s", "5m", "manual"]),
    (.refresh_frequency, ["15s", "30s", "1m", "5m", "15m"])]

/-- The keys of `notification_categories`. -/
inductive NotificationCategory
  | trade_alerts
  | price_alerts
  | market_news
  | system_updates
  | security_alerts
  deriving DecidableEq

def NotificationCategory.name : NotificationCategory → String
  | trade_alerts => "trade_alerts"
  | price_alerts => "price_alerts"
  | market_news => "market_news"
  | system_updates => "system_updates"
  | security_alerts => "security_alerts"

def ACCOUNT_NOTIFICATION_CATEGORIES : List NotificationCategory :=
  [.trade_alerts, .price_alerts, .market_news, .system_updates, .security_alerts]

/-- The keys of the document; the categories are a document in it. -/
inductive PreferenceKey
  | choice (field : PreferenceChoice)
  | category (category : NotificationCategory)
  deriving DecidableEq

def PreferenceKey.all : List PreferenceKey :=
  ACCOUNT_PREFERENCE_CHOICES.map (fun (field, _) => .choice field) ++
    ACCOUNT_NOTIFICATION_CATEGORIES.map .category

theorem PreferenceKey.mem_all (k : PreferenceKey) : k ∈ PreferenceKey.all := by
  cases k with
  | choice field => cases field <;> decide
  | category category => cases category <;> decide

def ACCOUNT_PREFERENCE_DEFAULTS : PreferenceKey → Setting
  | .choice .theme => .text "dark"
  | .choice .density => .text "default"
  | .choice .accent => .text "cyan"
  | .choice .layout => .text "classic"
  | .choice .chart_position => .text "right"
  | .choice .default_page => .text "dashboard"
  | .choice .auto_refresh_interval => .text "realtime"
  | .choice .refresh_frequency => .text "1m"
  | .category _ => .flag true

inductive TradingField
  | default_strategy
  | max_daily_loss_pct
  | risk_per_trade_pct
  | min_win_rate
  | max_concurrent_trades
  deriving DecidableEq

def TradingField.name : TradingField → String
  | default_strategy => "default_strategy"
  | max_daily_loss_pct => "max_daily_loss_pct"
  | risk_per_trade_pct => "risk_per_trade_pct"
  | min_win_rate => "min_win_rate"
  | max_concurrent_trades => "max_concurrent_trades"

def TRADING_FLOAT_LIMITS : List TradingField :=
  [.max_daily_loss_pct, .risk_per_trade_pct, .min_win_rate]

/-! ## The request -/

/-- What a valid request asks for. -/
structure Updates where
  profile : List (ProfileField × Setting)
  preferences : List (PreferenceKey × Setting)
  trading : List (TradingField × Setting)

/-- Their results, or the text of the response with status 400. -/
abbrev Checked (α : Type) := Except String α

def readText (zones : List String) (data : Dict) :
    ProfileField × ℕ → Checked (List (ProfileField × Setting))
  | (field, limit) =>
    match data.lookup field.name with
    | none => .ok []
    | some (.str value) =>
      let value := strip value
      if limit < value.length then
        .error (field.name ++ " must be " ++ toString limit ++ " characters or fewer.")
      else if field = .timezone && !zones.contains value then .error "Choose a valid time zone."
      else .ok [(field, .text value)]
    | some _ => .error (field.name ++ " must be text.")

def readFlag (data : Dict) (field : ProfileField) : Checked (List (ProfileField × Setting)) :=
  match data.lookup field.name with
  | none => .ok []
  | some (.bool b) => .ok [(field, .flag b)]
  | some _ => .error (field.name ++ " must be true or false.")

/-- `SUPPORTED_PREFERENCE_FIELDS`. -/
def supported (key : String) : Bool :=
  key = "notification_categories" ||
    ACCOUNT_PREFERENCE_CHOICES.any fun (field, _) => field.name = key

def readChoice (data : Dict) :
    PreferenceChoice × List String → Checked (List (PreferenceKey × Setting))
  | (field, choices) =>
    match data.lookup field.name with
    | none => .ok []
    | some (.str value) =>
      if choices.contains value then .ok [(.choice field, .text value)]
      else .error ("Invalid value for preference: " ++ field.name ++ ".")
    | some _ => .error ("Invalid value for preference: " ++ field.name ++ ".")

def categoryOf (key : String) : Option NotificationCategory :=
  ACCOUNT_NOTIFICATION_CATEGORIES.find? fun category => category.name = key

def readCategories (data : Dict) : Checked (List (PreferenceKey × Setting)) :=
  match data.lookup "notification_categories" with
  | none => .ok []
  | some (.dict categories) => do
    let keys ← categories.mapM fun (key, value) =>
      match categoryOf key with
      | some category => Except.ok (category, value)
      | none => .error "notification_categories contains unsupported options."
    let flags ← keys.mapM fun (category, value) =>
      match value with
      | .bool b => Except.ok (category, b)
      | _ => .error "Notification category values must be true or false."
    if flags.contains (.security_alerts, false) then .error "Security alerts cannot be disabled."
    else .ok (flags.map fun (category, b) => (.category category, .flag b))
  | some _ => .error "notification_categories contains unsupported options."

def readStrategy (data : Dict) : Checked (List (TradingField × Setting)) :=
  match data.lookup "default_strategy" with
  | none => .ok []
  | some (.str value) =>
    if 100 < (strip value).length then
      .error "default_strategy must be text of 100 characters or fewer."
    else .ok [(.default_strategy, .text (if strip value = "" then "trend" else strip value))]
  | some _ => .error "default_strategy must be text of 100 characters or fewer."

/-- The value of a finite number. -/
def finiteNumber (h : Host) : Value → Option ℚ
  | .int n => some n
  | .float r _ => (decimalOfText h r).bind Dec.toRat
  | _ => none

def readFloat (h : Host) (data : Dict) (field : TradingField) :
    Checked (List (TradingField × Setting)) :=
  match data.lookup field.name with
  | none => .ok []
  | some value =>
    match finiteNumber h value with
    | none => .error (field.name ++ " must be a finite number.")
    | some q =>
      if q < 0 || 1 < q then .error (field.name ++ " must be between 0.0 and 1.0.")
      else .ok [(field, .number q)]

def readConcurrent (data : Dict) : Checked (List (TradingField × Setting)) :=
  match data.lookup "max_concurrent_trades" with
  | none => .ok []
  | some (.int n) =>
    if n < 1 || 1000 < n then
      .error "max_concurrent_trades must be a whole number between 1 and 1000."
    else .ok [(.max_concurrent_trades, .number n)]
  | some _ => .error "max_concurrent_trades must be a whole number between 1 and 1000."

/-- The checks of a request, whose body may be no JSON. -/
def validate (h : Host) (zones : List String) (body : Option Value) : Checked Updates := do
  let some payload := body | throw "Invalid JSON payload."
  let .dict payload := payload | throw "The request body must be an object."
  let .dict profile := Dict.getD payload "profile" (.dict [])
    | throw "Profile, trading and preferences settings must be objects."
  let .dict trading := Dict.getD payload "trading" (.dict [])
    | throw "Profile, trading and preferences settings must be objects."
  let .dict preferences := Dict.getD payload "preferences" (.dict [])
    | throw "Profile, trading and preferences settings must be objects."
  let texts ← PROFILE_TEXT_LIMITS.mapM (readText zones profile)
  let flags ← PROFILE_BOOLEAN_FIELDS.mapM (readFlag profile)
  if preferences.any fun (key, _) => !supported key then
    throw "Unsupported account preference supplied."
  let choices ← ACCOUNT_PREFERENCE_CHOICES.mapM (readChoice preferences)
  let categories ← readCategories preferences
  let strategy ← readStrategy trading
  let floats ← TRADING_FLOAT_LIMITS.mapM (readFloat h trading)
  let concurrent ← readConcurrent trading
  return {
    profile := texts.flatten ++ flags.flatten
    preferences := choices.flatten ++ categories
    trading := strategy ++ floats.flatten ++ concurrent }

/-! ## The rows -/

/-- The stored settings; a preference that is not stored has its default. -/
structure Account where
  profile : ProfileField → Setting
  trading : TradingField → Setting
  preferences : PreferenceKey → Option Setting

/-- `current_preferences`. -/
def current_preferences (stored : PreferenceKey → Option Setting) (k : PreferenceKey) : Setting :=
  (stored k).getD (ACCOUNT_PREFERENCE_DEFAULTS k)

section Merge

variable {κ : Type} [DecidableEq κ]

/-- What the updates say of a key; the last one counts. -/
def updated (updates : List (κ × Setting)) (k : κ) : Option Setting := updates.reverse.lookup k

/-- `{**current, **updates}`, and the columns after `setattr`. -/
def merge (current : κ → Setting) (updates : List (κ × Setting)) (k : κ) : Setting :=
  (updated updates k).getD (current k)

/-- The updates with another value than the one that was read. -/
def changedFields (read : κ → Setting) (updates : List (κ × Setting)) : List (κ × Setting) :=
  updates.filter fun (k, v) => read k ≠ v

end Merge

/-- `changed_preferences`. -/
def changedPreferences (read : PreferenceKey → Option Setting)
    (updates : List (PreferenceKey × Setting)) : Bool :=
  PreferenceKey.all.any fun k =>
    merge (current_preferences read) updates k ≠ current_preferences read k

/-- The columns that have changed are saved, and the preferences as a whole; with the `changed` of the
response. -/
def save (read stored : Account) (u : Updates) : Account × Bool :=
  let changed_profile := changedFields read.profile u.profile
  let changed_trading := changedFields read.trading u.trading
  let changed_preferences := changedPreferences read.preferences u.preferences
  ({ profile := merge stored.profile changed_profile
     trading := merge stored.trading changed_trading
     preferences :=
      if changed_preferences then
        fun k => some (merge (current_preferences read.preferences) u.preferences k)
      else stored.preferences },
    !changed_profile.isEmpty || !changed_trading.isEmpty || changed_preferences)

/-! ## Requests -/

/-- A request, by what it has read of the two rows. -/
inductive Call
  | start
  | profileRead (read : Account)
  | read (read : Account)
  | responded (response : Checked Bool)

structure Requests where
  account : Account
  calls : ℕ → Call

def Requests.initial (account : Account) : Requests := ⟨account, fun _ => .start⟩

inductive RequestStep
  | readProfile (i : ℕ)
  | readBot (i : ℕ)
  /-- The request is checked and saved; an error of the database undoes the transaction. -/
  | save (i : ℕ) (fails : Bool)

section Requests

variable (h : Host) (zones : List String) (bodies : ℕ → Option Value)

def requestStep (s : Requests) : RequestStep → Option Requests
  | .readProfile i =>
    match s.calls i with
    | .start => some { s with calls := Function.update s.calls i (.profileRead s.account) }
    | _ => none
  | .readBot i =>
    match s.calls i with
    | .profileRead read => some { s with
        calls := Function.update s.calls i (.read { read with trading := s.account.trading }) }
    | _ => none
  | .save i fails =>
    match s.calls i with
    | .read read =>
      match validate h zones (bodies i) with
      | .error detail => some { s with calls := Function.update s.calls i (.responded (.error detail)) }
      | .ok u =>
        if fails then
          some { s with calls := Function.update s.calls i (.responded (.error "Server Error")) }
        else
          let (account, changed) := save read s.account u
          some {
            account := account
            calls := Function.update s.calls i (.responded (.ok changed)) }
    | _ => none

def requests : Machine Requests RequestStep where
  next := requestStep h zones bodies

/-- What a request asks for of a preference. -/
def asks (i : ℕ) (k : PreferenceKey) : Option Setting :=
  match validate h zones (bodies i) with
  | .error _ => none
  | .ok u => updated u.preferences k

/-- The changes of a request that has succeeded are there. -/
def Kept (s : Requests) (stored : PreferenceKey → Option Setting) (i : ℕ) : Prop :=
  ∀ changed, s.calls i = .responded (.ok changed) →
    ∀ k v, asks h zones bodies i k = some v → current_preferences stored k = v

/-- The changes of all the requests that have succeeded are there. -/
def Present (s : Requests) : Prop := ∀ i, Kept h zones bodies s s.account.preferences i

/-- The settings change only by a request that succeeds. -/
def Harmless (s : Requests) (x : RequestStep) : Prop :=
  ∀ s', requestStep h zones bodies s x = some s' →
    s'.account = s.account ∨ ∃ i changed, x = .save i false ∧ s'.calls i = .responded (.ok changed)

/-- What changes a preference has read the changes of the requests that have succeeded. -/
def careful (s : Requests) : RequestStep → Prop
  | .save i false => ∀ read u, s.calls i = .read read → validate h zones (bodies i) = .ok u →
      changedPreferences read.preferences u.preferences = true →
      ∀ j, Kept h zones bodies s read.preferences j
  | _ => True

end Requests

/-! ## One step -/

section Steps

variable {h : Host} {zones : List String} {bodies : ℕ → Option Value} {s s' : Requests}
  {x : RequestStep} {account : Account} {i : ℕ} {fails : Bool}

/-- What a request does that is about to save. -/
theorem save_cases (hnext : requestStep h zones bodies s (.save i fails) = some s') :
    ∃ read, s.calls i = .read read ∧
      ((∃ detail, s' =
          { s with calls := Function.update s.calls i (.responded (.error detail)) } ∧
          (fails = true ∨ ∀ u, validate h zones (bodies i) ≠ .ok u)) ∨
        ∃ u, validate h zones (bodies i) = .ok u ∧ fails = false ∧
          s' = { account := (save read s.account u).1
                 calls := Function.update s.calls i
                  (.responded (.ok (save read s.account u).2)) }) := by
  rw [requestStep] at hnext
  cases hcall : s.calls i with
  | start | profileRead _ | responded _ =>
    rw [hcall] at hnext
    cases hnext
  | read read =>
    rw [hcall] at hnext
    dsimp only at hnext
    refine ⟨read, rfl, ?_⟩
    cases hvalid : validate h zones (bodies i) with
    | error detail =>
      rw [hvalid] at hnext
      exact Or.inl ⟨detail, (Option.some.inj hnext).symm, Or.inr nofun⟩
    | ok u =>
      rw [hvalid] at hnext
      cases fails with
      | true => exact Or.inl ⟨_, (Option.some.inj hnext).symm, Or.inl rfl⟩
      | false => exact Or.inr ⟨u, rfl, rfl, (Option.some.inj hnext).symm⟩

/-- What the other steps do. -/
theorem read_cases (hx : ∀ i fails, x ≠ .save i fails)
    (hnext : requestStep h zones bodies s x = some s') :
    ∃ i read, s' = { s with calls := Function.update s.calls i read } ∧
      ((read = .profileRead s.account) ∨
        ∃ old, s.calls i = .profileRead old ∧ read = .read { old with trading := s.account.trading }) ∧
      (s.calls i = .start ∨ ∃ old, s.calls i = .profileRead old) := by
  cases x with
  | save i fails => exact absurd rfl (hx i fails)
  | readProfile i =>
    rw [requestStep] at hnext
    cases hcall : s.calls i with
    | profileRead _ | read _ | responded _ =>
      rw [hcall] at hnext
      cases hnext
    | start =>
      rw [hcall] at hnext
      exact ⟨i, _, (Option.some.inj hnext).symm, Or.inl rfl, Or.inl hcall⟩
  | readBot i =>
    rw [requestStep] at hnext
    cases hcall : s.calls i with
    | start | read _ | responded _ =>
      rw [hcall] at hnext
      cases hnext
    | profileRead old =>
      rw [hcall] at hnext
      exact ⟨i, _, (Option.some.inj hnext).symm, Or.inr ⟨old, hcall, rfl⟩, Or.inr ⟨old, hcall⟩⟩

/-- Only a success changes the settings. -/
theorem harmless : Harmless h zones bodies s x := by
  intro s' hnext
  by_cases hx : ∀ i fails, x ≠ .save i fails
  · obtain ⟨i, read, rfl, _⟩ := read_cases hx hnext
    exact Or.inl rfl
  · obtain ⟨i, hi⟩ := not_forall.mp hx
    obtain ⟨fails, hsave⟩ := not_forall.mp hi
    obtain rfl := not_not.mp hsave
    obtain ⟨read, _, ⟨detail, rfl, _⟩ | ⟨u, _, rfl, rfl⟩⟩ := save_cases hnext
    · exact Or.inl rfl
    · exact Or.inr ⟨i, _, rfl, Function.update_self ..⟩

/-- What a call has read and not yet saved. -/
def readOf : Call → Option Account
  | .start => none
  | .profileRead read => some read
  | .read read => some read
  | .responded _ => none

/-- What a call has answered that has succeeded. -/
def changedOf : Call → Option Bool
  | .responded (.ok changed) => some changed
  | _ => none

theorem responded_of_changedOf {c : Call} {changed : Bool} (hc : changedOf c = some changed) :
    c = .responded (.ok changed) := by
  cases c with
  | responded response =>
    cases response with
    | error detail => cases hc
    | ok changed' => rw [Option.some.inj hc]
  | start | profileRead _ | read _ => cases hc

/-- A preference that a request asks for has its first value until the request succeeds, where it is
stored and where it has been read. -/
def Untouched (h : Host) (zones : List String) (bodies : ℕ → Option Value) (account : Account)
    (s : Requests) : Prop :=
  ∀ i k v, asks h zones bodies i k = some v → (∀ changed, s.calls i ≠ .responded (.ok changed)) →
    current_preferences s.account.preferences k = current_preferences account.preferences k ∧
      ∀ j read, readOf (s.calls j) = some read →
        current_preferences read.preferences k = current_preferences account.preferences k

/-- The preferences after a success. -/
theorem current_save {read stored : Account} {u : Updates} {k : PreferenceKey} :
    current_preferences (save read stored u).1.preferences k =
      if changedPreferences read.preferences u.preferences then
        merge (current_preferences read.preferences) u.preferences k
      else current_preferences stored.preferences k := by
  show current_preferences (if _ then _ else _) k = _
  split
  · rfl
  · rfl

/-- A request that changes no preference asks for what it has read. -/
theorem merge_of_unchanged {read : PreferenceKey → Option Setting}
    {updates : List (PreferenceKey × Setting)} (h : changedPreferences read updates = false)
    (k : PreferenceKey) : merge (current_preferences read) updates k = current_preferences read k := by
  have hall := List.any_eq_false.mp h k (PreferenceKey.mem_all k)
  simpa using hall

theorem asks_of_ok {u : Updates} {k : PreferenceKey} (hvalid : validate h zones (bodies i) = .ok u) :
    asks h zones bodies i k = updated u.preferences k := by
  rw [asks, hvalid]

/-- What a request asks for after it has saved its changes over what it has read. -/
theorem merge_of_asks {u : Updates} {read : PreferenceKey → Option Setting} {k : PreferenceKey}
    {v : Setting} (hvalid : validate h zones (bodies i) = .ok u)
    (hasks : asks h zones bodies i k = some v) :
    merge (current_preferences read) u.preferences k = v := by
  rw [asks_of_ok hvalid] at hasks
  rw [merge, hasks, Option.getD_some]

/-- A preference that it does not ask for. -/
theorem merge_of_not_asks {u : Updates} {read : PreferenceKey → Option Setting} {k : PreferenceKey}
    (hvalid : validate h zones (bodies i) = .ok u) (hasks : asks h zones bodies i k = none) :
    merge (current_preferences read) u.preferences k = current_preferences read k := by
  rw [asks_of_ok hvalid] at hasks
  rw [merge, hasks, Option.getD_none]

theorem untouched_step
    (hdisjoint : ∀ i j k, i ≠ j → asks h zones bodies i k = none ∨ asks h zones bodies j k = none)
    (hs : Untouched h zones bodies account s)
    (hnext : requestStep h zones bodies s x = some s') : Untouched h zones bodies account s' := by
  by_cases hx : ∀ i fails, x ≠ .save i fails
  · obtain ⟨i, read, rfl, hread, hold⟩ := read_cases hx hnext
    intro j k v hasks hpending
    -- the request that reads has not responded
    have hpending' : ∀ changed, s.calls j ≠ .responded (.ok changed) := by
      intro changed hcall
      by_cases hj : j = i
      · rcases hold with hold | ⟨old, hold⟩
        · rw [hj, hold] at hcall
          cases hcall
        · rw [hj, hold] at hcall
          cases hcall
      · exact hpending changed (by
          show Function.update s.calls i read j = _
          rw [Function.update_of_ne hj, hcall])
    obtain ⟨hstored, hreads⟩ := hs j k v hasks hpending'
    refine ⟨hstored, fun j' read' hread' => ?_⟩
    change readOf (Function.update s.calls i read j') = some read' at hread'
    by_cases hj' : j' = i
    · rw [hj', Function.update_self] at hread'
      rcases hread with rfl | ⟨old, hcall, rfl⟩
      · obtain rfl := Option.some.inj hread'
        exact hstored
      · obtain rfl := Option.some.inj hread'
        exact hreads i old (by rw [hcall]; rfl)
    · rw [Function.update_of_ne hj'] at hread'
      exact hreads j' read' hread'
  · obtain ⟨i, hi⟩ := not_forall.mp hx
    obtain ⟨fails, hsave⟩ := not_forall.mp hi
    obtain rfl := not_not.mp hsave
    obtain ⟨read, hcall, hresult⟩ := save_cases hnext
    -- whoever is pending after the step was before, and has read the same
    have hpending_before : ∀ response j,
        (∀ changed, Function.update s.calls i (.responded response) j ≠ .responded (.ok changed)) →
        ∀ changed, s.calls j ≠ .responded (.ok changed) := by
      intro response j hpending changed hresponded
      by_cases hj : j = i
      · rw [hj, hcall] at hresponded
        cases hresponded
      · apply hpending changed
        rw [Function.update_of_ne hj, hresponded]
    have hsaved : ∀ response account', Untouched h zones bodies account
        { account := account', calls := Function.update s.calls i (.responded response) } ↔
        ∀ j k v, asks h zones bodies j k = some v →
          (∀ changed, Function.update s.calls i (.responded response) j ≠ .responded (.ok changed)) →
          current_preferences account'.preferences k = current_preferences account.preferences k := by
      intro response account'
      constructor
      · intro hall j k v hasks hpending
        exact (hall j k v hasks hpending).1
      · intro hall j k v hasks hpending
        refine ⟨hall j k v hasks hpending, fun j' read' hread' => ?_⟩
        change readOf (Function.update s.calls i (.responded response) j') = some read' at hread'
        by_cases hj' : j' = i
        · rw [hj', Function.update_self] at hread'
          cases hread'
        · rw [Function.update_of_ne hj'] at hread'
          exact (hs j k v hasks (hpending_before response j hpending)).2 j' read' hread'
    rcases hresult with ⟨detail, rfl, _⟩ | ⟨u, hvalid, rfl, rfl⟩
    · rw [hsaved]
      intro j k v hasks hpending
      exact (hs j k v hasks (hpending_before _ j hpending)).1
    · rw [hsaved]
      intro j k v hasks hpending
      obtain ⟨hstored, hreads⟩ := hs j k v hasks (hpending_before _ j hpending)
      rw [current_save]
      split
      · -- this request does not ask for the preference
        have hother : i ≠ j := by
          rintro rfl
          exact hpending _ (Function.update_self ..)
        have hnone := (hdisjoint i j k hother).resolve_right (by rw [hasks]; nofun)
        rw [merge_of_not_asks hvalid hnone]
        exact hreads i read (by rw [hcall]; rfl)
      · exact hstored

/-- A step keeps the changes of all successes exactly if it is a careful one. -/
theorem present_step
    (hdisjoint : ∀ i j k, i ≠ j → asks h zones bodies i k = none ∨ asks h zones bodies j k = none)
    (hs : Untouched h zones bodies account s) (hpresent : Present h zones bodies s)
    (hnext : requestStep h zones bodies s x = some s') :
    Present h zones bodies s' ↔ careful h zones bodies s x := by
  by_cases hx : ∀ i fails, x ≠ .save i fails
  · have hcareful : careful h zones bodies s x := by
      cases x with
      | save i fails => exact absurd rfl (hx i fails)
      | readProfile i => exact trivial
      | readBot i => exact trivial
    obtain ⟨i, read, rfl, hread, _⟩ := read_cases hx hnext
    refine iff_of_true (fun j changed hresponded k v hasks => ?_) hcareful
    change Function.update s.calls i read j = .responded (.ok changed) at hresponded
    by_cases hj : j = i
    · rw [hj, Function.update_self] at hresponded
      rcases hread with rfl | ⟨old, _, rfl⟩
      · cases hresponded
      · cases hresponded
    · rw [Function.update_of_ne hj] at hresponded
      exact hpresent j changed hresponded k v hasks
  · obtain ⟨i, hi⟩ := not_forall.mp hx
    obtain ⟨fails, hsave⟩ := not_forall.mp hi
    obtain rfl := not_not.mp hsave
    obtain ⟨read, hcall, ⟨detail, rfl, hreason⟩ | ⟨u, hvalid, rfl, rfl⟩⟩ := save_cases hnext
    · have hcareful : careful h zones bodies s (.save i fails) := by
        cases fails with
        | true => exact trivial
        | false =>
          intro read' u _ hvalid
          rcases hreason with hfails | hrefused
          · cases hfails
          · exact absurd hvalid (hrefused u)
      refine iff_of_true (fun j changed hresponded k v hasks => ?_) hcareful
      change Function.update s.calls i _ j = .responded (.ok changed) at hresponded
      by_cases hj : j = i
      · rw [hj, Function.update_self] at hresponded
        cases hresponded
      · rw [Function.update_of_ne hj] at hresponded
        exact hpresent j changed hresponded k v hasks
    · have hcareful_iff : careful h zones bodies s (.save i false) ↔
          (changedPreferences read.preferences u.preferences = true →
            ∀ j, Kept h zones bodies s read.preferences j) := by
        constructor
        · intro hcareful
          exact hcareful read u hcall hvalid
        · intro hkept read' u' hcall' hvalid'
          obtain rfl := Call.read.inj (hcall.symm.trans hcall')
          obtain rfl := Except.ok.inj (hvalid.symm.trans hvalid')
          exact hkept
      rw [hcareful_iff]
      cases hchanged : changedPreferences read.preferences u.preferences with
      | false =>
        refine iff_of_true (fun j changed hresponded k v hasks => ?_) nofun
        show current_preferences (save read s.account u).1.preferences k = v
        rw [current_save, hchanged, if_neg (by decide)]
        change Function.update s.calls i _ j = .responded (.ok changed) at hresponded
        by_cases hj : j = i
        · -- it asks for what it has read, which is what was there first and still is
          rw [hj] at hasks
          have hpending : ∀ changed, s.calls i ≠ .responded (.ok changed) := by
            intro changed hresponded'
            rw [hcall] at hresponded'
            cases hresponded'
          obtain ⟨hstored, hreads⟩ := hs i k v hasks hpending
          rw [hstored, ← hreads i read (by rw [hcall]; rfl),
            ← merge_of_unchanged hchanged k, merge_of_asks hvalid hasks]
        · rw [Function.update_of_ne hj] at hresponded
          exact hpresent j changed hresponded k v hasks
      | true =>
        constructor
        · intro hpresent' _ j changed hresponded k v hasks
          have hj : i ≠ j := by
            rintro rfl
            rw [hcall] at hresponded
            cases hresponded
          have hresponded' : Function.update s.calls i
              (.responded (.ok (save read s.account u).2)) j = .responded (.ok changed) := by
            rw [Function.update_of_ne hj.symm, hresponded]
          have hv := hpresent' j changed hresponded' k v hasks
          change current_preferences (save read s.account u).1.preferences k = v at hv
          have hnone := (hdisjoint i j k hj).resolve_right (by rw [hasks]; nofun)
          rwa [current_save, hchanged, if_pos rfl, merge_of_not_asks hvalid hnone] at hv
        · intro hkept j changed hresponded k v hasks
          show current_preferences (save read s.account u).1.preferences k = v
          rw [current_save, hchanged, if_pos rfl]
          change Function.update s.calls i _ j = .responded (.ok changed) at hresponded
          by_cases hj : j = i
          · rw [hj] at hasks
            exact merge_of_asks hvalid hasks
          · rw [Function.update_of_ne hj] at hresponded
            have hnone := (hdisjoint i j k (Ne.symm hj)).resolve_right (by rw [hasks]; nofun)
            rw [merge_of_not_asks hvalid hnone]
            exact hkept rfl j changed hresponded k v hasks

end Steps

/-! ## Runs -/

/-- Requests with disjoint preference keys keep each other's changes, and one that fails changes
nothing, exactly if each of them that changes a preference has read what has been changed. -/
theorem settings_commute_iff {h : Host} {zones : List String} {bodies : ℕ → Option Value}
    {account : Account} {xs : List RequestStep} {s : Requests}
    (hdisjoint : ∀ i j k, i ≠ j → asks h zones bodies i k = none ∨ asks h zones bodies j k = none)
    (hrun : (requests h zones bodies).Run (Requests.initial account) xs s) :
    Machine.RunIf.Always (requests h zones bodies) (Present h zones bodies)
        (Requests.initial account) xs ∧
        (requests h zones bodies).RunIf (Harmless h zones bodies) (Requests.initial account) xs s ↔
      (requests h zones bodies).RunIf (careful h zones bodies) (Requests.initial account) xs s := by
  have hinitial : Untouched h zones bodies account (Requests.initial account) := by
    intro i k v _ _
    exact ⟨rfl, fun j read hread => by cases hread⟩
  have hpresent : Present h zones bodies (Requests.initial account) := by
    intro i changed hresponded
    cases hresponded
  have halways := Machine.RunIf.always_iff (M := requests h zones bodies)
    (P := Present h zones bodies) (G := careful h zones bodies)
    (fun s x s' (hs : Untouched h zones bodies account s) hnext => untouched_step hdisjoint hs hnext)
    (fun s x s' hs hpresent hnext => present_step hdisjoint hs hpresent hnext) hrun hinitial
  rw [halways]
  constructor
  · rintro ⟨⟨_, hcareful⟩, _⟩
    exact hcareful
  · intro hcareful
    exact ⟨⟨hpresent, hcareful⟩, hrun.mono fun s x _ => harmless⟩

/-- Two requests; the others ask for nothing. -/
def twoBodies (a b : Value) : ℕ → Option Value
  | 0 => some a
  | 1 => some b
  | _ => some (.dict [])

def lightTheme : Value := .dict [("preferences", .dict [("theme", .str "light")])]

def compactDensity : Value := .dict [("preferences", .dict [("density", .str "compact")])]

def newAccount : Account where
  profile _ := .text ""
  trading _ := .number 0
  preferences _ := none

/-- A theme and a density. -/
theorem theme_density_disjoint (i j : ℕ) (k : PreferenceKey) (hne : i ≠ j) :
    asks Host.ascii [] (twoBodies lightTheme compactDensity) i k = none ∨
      asks Host.ascii [] (twoBodies lightTheme compactDensity) j k = none := by
  have htwo : asks Host.ascii [] (twoBodies lightTheme compactDensity) 0 k = none ∨
      asks Host.ascii [] (twoBodies lightTheme compactDensity) 1 k = none := by
    cases k with
    | choice field => cases field <;> decide +kernel
    | category category => cases category <;> decide +kernel
  match i, j with
  | 0, 0 => exact absurd rfl hne
  | 0, 1 => exact htwo
  | 1, 0 => exact htwo.symm
  | 1, 1 => exact absurd rfl hne
  | n + 2, _ => exact Or.inl rfl
  | _, n + 2 => exact Or.inr rfl

/-- One after the other. -/
theorem theme_and_density : ∃ s, (requests Host.ascii [] (twoBodies lightTheme compactDensity)).Run
      (Requests.initial newAccount)
      [.readProfile 0, .readBot 0, .save 0 false, .readProfile 1, .readBot 1, .save 1 false] s ∧
    (Machine.RunIf.Always (requests Host.ascii [] (twoBodies lightTheme compactDensity))
        (Present Host.ascii [] (twoBodies lightTheme compactDensity)) (Requests.initial newAccount)
        [.readProfile 0, .readBot 0, .save 0 false, .readProfile 1, .readBot 1, .save 1 false] ∧
        (requests Host.ascii [] (twoBodies lightTheme compactDensity)).RunIf
          (Harmless Host.ascii [] (twoBodies lightTheme compactDensity)) (Requests.initial newAccount)
          [.readProfile 0, .readBot 0, .save 0 false, .readProfile 1, .readBot 1, .save 1 false] s ↔
      (requests Host.ascii [] (twoBodies lightTheme compactDensity)).RunIf
        (careful Host.ascii [] (twoBodies lightTheme compactDensity)) (Requests.initial newAccount)
        [.readProfile 0, .readBot 0, .save 0 false, .readProfile 1, .readBot 1, .save 1 false] s) := by
  have henabled : ((requests Host.ascii [] (twoBodies lightTheme compactDensity)).exec
      (Requests.initial newAccount)
      [.readProfile 0, .readBot 0, .save 0 false, .readProfile 1, .readBot 1, .save 1 false]).isSome =
        true := by
    decide +kernel
  obtain ⟨s, hrun⟩ := Machine.exists_run henabled
  exact ⟨s, hrun, settings_commute_iff theme_density_disjoint hrun⟩

/-- Both read before either saves: the density is saved with the old theme. -/
theorem preference_lost : ¬ ∀ h zones bodies account xs s,
    (∀ i j k, i ≠ j → asks h zones bodies i k = none ∨ asks h zones bodies j k = none) →
    (requests h zones bodies).Run (Requests.initial account) xs s → Present h zones bodies s := by
  intro hall
  have hexec : ((requests Host.ascii [] (twoBodies lightTheme compactDensity)).exec
      (Requests.initial newAccount)
      [.readProfile 0, .readProfile 1, .readBot 0, .readBot 1, .save 0 false, .save 1 false]).map
        (fun s => (current_preferences s.account.preferences (.choice .theme),
          changedOf (s.calls 0))) = some (.text "dark", some true) := by
    decide +kernel
  obtain ⟨s, hs, hvalues⟩ := Option.map_eq_some_iff.mp hexec
  obtain ⟨htheme, hcall⟩ := Prod.mk.inj hvalues
  have hpresent := hall _ _ _ _ _ s theme_density_disjoint (Machine.exec_eq_some_iff.mp hs) 0
  have hasks : asks Host.ascii [] (twoBodies lightTheme compactDensity) 0 (.choice .theme) =
      some (.text "light") := by
    decide +kernel
  have hlight := hpresent true (responded_of_changedOf hcall) _ _ hasks
  rw [htheme] at hlight
  exact absurd hlight (by decide)

end AlgoBot.Settings
