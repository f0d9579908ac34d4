import AlgoBot.Core.Machine
import AlgoBot.Core.Table
import AlgoBot.Python.Value

/-!
# Developer API keys

`APIKeyService` and the two families of views over it (the pages and the API)
create, rotate, deactivate, activate, revoke and delete keys; `APIKeyAuthentication`
looks a presented key up and checks its secret. Every row is kept together with its
history: the raw secrets that were handed out and whether it was ever revoked.

* `authenticate_some`: what is known of a key that a request has authenticated with.
* `secretAccepted_iff`: a secret is accepted exactly if it is the current one, or the
  one the latest rotation replaced, within the grace period.
* `keys_sound_iff`: in every run only keys that were never revoked authenticate, exactly
  if no request reactivates a revoked key. `key_activate` does not look at the status,
  `keys_not_sound` is a run that does.
-/

namespace AlgoBot.Developer

open AlgoBot.Core AlgoBot.Python

/-! ## The key table -/

/-- `STATUS_CHOICES`. -/
inductive KeyStatus where
  | active | inactive | revoked | expired | pending
  deriving DecidableEq, Repr

/-- `APIKey`; times are in microseconds. -/
structure APIKey where
  pk : ℕ
  user : ℕ
  name : String
  key : String
  secret : String
  previous_secret : String
  previous_secret_expires_at : Option ℤ
  permissions : List String
  expires_at : Option ℤ
  last_used : Option ℤ
  status : KeyStatus
  deriving DecidableEq, Repr

/-- What happened to a key: the raw secret handed out last, the one the latest rotation
replaced and when, and whether the key was revoked. -/
structure KeyHistory where
  current : String
  replaced : Option (String × ℤ)
  revoked : Bool
  deriving DecidableEq, Repr

/-- A row and its history. -/
structure KeyRecord where
  row : APIKey
  history : KeyHistory
  deriving DecidableEq, Repr

instance : HasPk KeyRecord := ⟨fun k => k.row.pk⟩

/-- The rows of `APIKey`. -/
abbrev Keys := Table KeyRecord

/-- `make_password` and `check_password`: the check accepts a hash for the password it was made
from and for no other, and no hash is empty. -/
structure Hasher where
  make_password : String → String → String
  check_password : String → String → Bool
  check_make : ∀ salt raw secret, check_password secret (make_password salt raw) = (secret == raw)
  make_ne_empty : ∀ salt raw, make_password salt raw ≠ ""

/-- What `secrets.token_urlsafe` returns; it is never empty. -/
structure UrlToken where
  text : String
  ne_empty : text ≠ ""

/-- `APIKey.is_active`. -/
def APIKey.isActive (k : APIKey) (now : ℤ) : Bool :=
  if k.status != .active then false
  else match k.expires_at with
    | some expires => !decide (expires ≤ now)
    | none => true

/-- `timedelta(minutes=5)`. -/
def gracePeriod : ℤ := 5 * 60 * 1000000

/-! ## The service -/

/-- `DEFAULT_PERMISSIONS`. -/
def defaultPermissions : List String := ["read"]

/-- `ALLOWED_PERMISSIONS`. -/
def allowedPermissions : List String :=
  ["read", "trading", "market_data", "webhooks", "analytics", "admin"]

/-- Why a request is refused: a text of the code, or the database's unique constraint. -/
inductive Refusal where
  | message (text : String)
  | integrity
  deriving DecidableEq, Repr

/-- The checks and defaults of `generate`. -/
def generatePermissions (scopes : List String) : Except Refusal (List String) :=
  let scopes := (if scopes.isEmpty then defaultPermissions else scopes).eraseDups
  let invalid := scopes.filter fun p => !allowedPermissions.contains p
  if !invalid.isEmpty then
    .error (.message ("Unsupported permissions: " ++
      String.intercalate ", " (invalid.mergeSort fun a b => decide (a ≤ b))))
  else .ok scopes

/-- `APIKeyService.create`. -/
def create (hasher : Hasher) (s : Keys) (user : ℕ) (name : String) (scopes : List String)
    (expires_at : Option ℤ) (salt : String) (key secret : UrlToken) : Except Refusal Keys := do
  let permissions ← generatePermissions scopes
  if (s.find? fun k => k.row.key == "ak_" ++ key.text).isSome then .error .integrity
  else
    .ok (s.create
      (fun pk =>
        { row :=
            { pk, user, name, key := "ak_" ++ key.text
              secret := hasher.make_password salt secret.text, previous_secret := ""
              previous_secret_expires_at := none, permissions, expires_at, last_used := none
              status := .active }
          history := { current := secret.text, replaced := none, revoked := false } })
      fun _ => rfl)

namespace KeyRecord

/-- `APIKeyService.rotate`. -/
def rotate (hasher : Hasher) (k : KeyRecord) (salt : String) (raw_secret : UrlToken) (now : ℤ) :
    KeyRecord where
  row :=
    { k.row with
      previous_secret := k.row.secret, previous_secret_expires_at := some (now + gracePeriod)
      secret := hasher.make_password salt raw_secret.text, last_used := some now }
  history :=
    { k.history with current := raw_secret.text, replaced := some (k.history.current, now) }

/-- `APIKeyService.deactivate`. -/
def deactivate (k : KeyRecord) : KeyRecord := { k with row := { k.row with status := .inactive } }

/-- `APIKeyService.activate`. -/
def activate (k : KeyRecord) (now : ℤ) : Except Refusal KeyRecord :=
  if k.row.expires_at.any fun expires => decide (expires ≤ now) then
    .error (.message "Expired API keys cannot be reactivated.")
  else .ok { k with row := { k.row with status := .active } }

/-- `APIKeyService.revoke`. -/
def revoke (k : KeyRecord) : KeyRecord where
  row := { k.row with status := .revoked }
  history := { k.history with revoked := true }

/-- `APIKey.objects.filter(pk=api_key.pk).update(last_used=now)`. -/
def used (k : KeyRecord) (now : ℤ) : KeyRecord :=
  { k with row := { k.row with last_used := some now } }

end KeyRecord

/-! ## The views -/

/-- The two families of views: `browser_key_*` and `key_*`. -/
inductive Entry where
  | browser | api
  deriving DecidableEq, Repr

/-- `APIKey.objects.get(pk=pk, user=request.user)`. -/
def ownKey (s : Keys) (user pk : ℕ) : Option KeyRecord :=
  s.find? fun k => k.row.pk == pk && k.row.user == user

/-- A view that looks a key of the user up and writes it back. -/
def onKey (s : Keys) (user pk : ℕ) (op : KeyRecord → Except Refusal KeyRecord) :
    Except Refusal Keys :=
  match ownKey s user pk with
  | none => .error (.message "The requested API key does not exist.")
  | some k => (op k).map s.set

/-- The text of an exception the view reports; the API hides it. -/
def reported (entry : Entry) (context : String) : Refusal → Refusal
  | .message text =>
      match entry with
      | .browser => .message (context ++ text)
      | .api => .message "The developer service could not complete the request."
  | .integrity =>
      match entry with
      | .browser => .integrity
      | .api => .message "The developer service could not complete the request."

/-- `key_create`. -/
def keyCreate (hasher : Hasher) (entry : Entry) (s : Keys) (user : ℕ) (name : String)
    (scopes : List String) (expires_at : Option ℤ) (salt : String) (key secret : UrlToken) :
    Except Refusal Keys :=
  (create hasher s user name scopes expires_at salt key secret).mapError
    (reported entry "API key could not be created: ")

/-- `key_rotate`. -/
def keyRotate (hasher : Hasher) (entry : Entry) (s : Keys) (user pk : ℕ) (salt : String)
    (raw_secret : UrlToken) (now : ℤ) : Except Refusal Keys :=
  onKey s user pk fun k =>
    if !k.row.isActive now then
      .error (.message
        (match entry with
          | .browser => "Only active API keys can be rotated."
          | .api => "Only active keys can be rotated."))
    else .ok (k.rotate hasher salt raw_secret now)

/-- `key_deactivate`. -/
def keyDeactivate (s : Keys) (user pk : ℕ) : Except Refusal Keys :=
  onKey s user pk fun k =>
    if k.row.status == .revoked then
      .error (.message "Revoked API keys cannot be deactivated.")
    else .ok k.deactivate

/-- `key_activate`; the API passes the text of the exception on. -/
def keyActivate (entry : Entry) (s : Keys) (user pk : ℕ) (now : ℤ) : Except Refusal Keys :=
  onKey s user pk fun k =>
    match entry with
    | .browser => (k.activate now).mapError (reported .browser "API key could not be activated: ")
    | .api => k.activate now

/-- `key_revoke`. -/
def keyRevoke (s : Keys) (user pk : ℕ) : Except Refusal Keys :=
  onKey s user pk fun k => .ok k.revoke

/-- `key_delete`. -/
def keyDelete (s : Keys) (user pk : ℕ) : Except Refusal Keys :=
  match ownKey s user pk with
  | none => .error (.message "The requested API key does not exist.")
  | some k => .ok (s.delete k.row.pk)

/-! ## Authentication -/

/-- The headers `authenticate` reads. -/
structure Headers where
  x_api_key : Option String := none
  api_key : Option String := none
  x_api_secret : Option String := none
  api_secret : Option String := none
  authorization : Option String := none
  deriving DecidableEq, Repr

/-- `a or b` of two optional texts, read as a text that may be empty. -/
def orText (a b : Option String) : String :=
  match a with
  | some "" | none => b.getD ""
  | some text => text

/-- What the headers present: nothing, a JWT (which the JWT authentication answers), or an API
key and its secret. -/
inductive Presented where
  | nothing | jwt
  | pair (key secret : String)
  deriving DecidableEq, Repr

/-- The first part of `authenticate`, up to `if not secret`. -/
def presented (headers : Headers) : Except String Presented :=
  let key := orText headers.x_api_key headers.api_key
  let secret := orText headers.x_api_secret headers.api_secret
  let authorization := strip (headers.authorization.getD "")
  let (scheme, _, credentials) := partition ' ' authorization
  let bearer := key == "" && authorization != ""
  if bearer && scheme == "Bearer" && !credentials.toList.contains ':' then .ok .jwt
  else
    let (key, secret) :=
      if bearer && (scheme == "ApiKey" || scheme == "Bearer") then
        let (key, separator, parsed_secret) := partition ':' credentials
        (key, if separator != "" then parsed_secret else secret)
      else (key, secret)
    if key == "" then .ok .nothing
    else if secret == "" then .error "API secret is required"
    else .ok (.pair key secret)

/-- The secret of the row, or the previous one while it has not expired. -/
def secretAccepted (hasher : Hasher) (k : APIKey) (secret : String) (now : ℤ) : Bool :=
  hasher.check_password secret k.secret ||
    (k.previous_secret != "" &&
      (k.previous_secret_expires_at.any fun expires => decide (now < expires)) &&
      hasher.check_password secret k.previous_secret)

/-- The rest of `authenticate`, from the lookup on. -/
def checkPair (hasher : Hasher) (s : Keys) (key secret : String) (now : ℤ) :
    Except String KeyRecord :=
  match s.find? fun k => k.row.key == key with
  | none => .error "Invalid API key"
  | some k =>
      if !k.row.isActive now then .error "API key is inactive, revoked, or expired"
      else if !secretAccepted hasher k.row secret now then .error "Invalid API secret"
      else .ok k

/-- `APIKeyAuthentication.authenticate`; `none` leaves the request to the other
authentication classes. -/
def authenticate (hasher : Hasher) (s : Keys) (headers : Headers) (now : ℤ) :
    Except String (Option KeyRecord) := do
  match ← presented headers with
  | .nothing | .jwt => .ok none
  | .pair key secret => some <$> checkPair hasher s key secret now

/-! ## Runs -/

/-- The requests that touch the keys. -/
inductive KeyRequest where
  | create (entry : Entry) (user : ℕ) (name : String) (scopes : List String)
      (expires_at : Option ℤ) (salt : String) (key secret : UrlToken)
  | rotate (entry : Entry) (user pk : ℕ) (salt : String) (raw_secret : UrlToken) (now : ℤ)
  | deactivate (user pk : ℕ)
  | activate (entry : Entry) (user pk : ℕ) (now : ℤ)
  | revoke (user pk : ℕ)
  | delete (user pk : ℕ)
  | authenticate (headers : Headers) (now : ℤ)

/-- What a view makes of the request. -/
def respond (hasher : Hasher) (s : Keys) : KeyRequest → Except Refusal Keys
  | .create entry user name scopes expires_at salt key secret =>
      keyCreate hasher entry s user name scopes expires_at salt key secret
  | .rotate entry user pk salt raw_secret now =>
      keyRotate hasher entry s user pk salt raw_secret now
  | .deactivate user pk => keyDeactivate s user pk
  | .activate entry user pk now => keyActivate entry s user pk now
  | .revoke user pk => keyRevoke s user pk
  | .delete user pk => keyDelete s user pk
  | .authenticate headers now =>
      match authenticate hasher s headers now with
      | .ok (some k) => .ok (s.set (k.used now))
      | .ok none => .ok s
      | .error text => .error (.message text)

/-- A refused request leaves the keys as they were. -/
def keyMachine (hasher : Hasher) : Machine Keys KeyRequest where
  next s request :=
    match respond hasher s request with
    | .ok s' => some s'
    | .error _ => some s

/-- What the secret must be, and the key, for a request to be let in. -/
structure Valid (k : KeyRecord) (secret : String) (now : ℤ) : Prop where
  active : k.row.isActive now = true
  unrevoked : k.history.revoked = false
  secret : secret = k.history.current ∨
    ∃ rotated, k.history.replaced = some (secret, rotated) ∧ now < rotated + gracePeriod

/-- Whatever is presented, and whenever, authenticates only with a valid key and secret. -/
def KeysSound (hasher : Hasher) (s : Keys) : Prop :=
  ∀ headers now k, authenticate hasher s headers now = .ok (some k) →
    ∃ secret, presented headers = .ok (.pair k.row.key secret) ∧ Valid k secret now

/-- The request activates a key that has been revoked and has not expired. -/
def reactivates (s : Keys) : KeyRequest → Bool
  | .activate _ user pk now =>
      (ownKey s user pk).any fun k => k.history.revoked && (k.activate now).isOk
  | _ => false

/-! ## What the rows say about the history -/

variable {hasher : Hasher} {s s' t : Keys} {k q : KeyRecord}

/-- The previous secret of the row is the one its history says was replaced. -/
def PreviousOf (hasher : Hasher) (k : KeyRecord) : Prop :=
  match k.history.replaced with
  | none => k.row.previous_secret = ""
  | some (raw, rotated) =>
      (∃ salt, k.row.previous_secret = hasher.make_password salt raw) ∧
        k.row.previous_secret_expires_at = some (rotated + gracePeriod)

/-- The hashes of the row are those of the secrets its history names. -/
structure Tracked (hasher : Hasher) (k : KeyRecord) : Prop where
  secret : ∃ salt, k.row.secret = hasher.make_password salt k.history.current
  previous : PreviousOf hasher k
  key_ne : k.row.key ≠ ""
  current_ne : k.history.current ≠ ""

/-- The rows follow their histories, and no two have the same key. -/
structure KeysInv (hasher : Hasher) (s : Keys) : Prop where
  tracked : ∀ k ∈ s, Tracked hasher k
  unique : Table.Unique (fun a b => a.row.key = b.row.key) s

/-- A previous secret is accepted while its grace period lasts. -/
theorem previous_accepted (h : PreviousOf hasher k) (secret : String) (now : ℤ) :
    (k.row.previous_secret != "" &&
        (k.row.previous_secret_expires_at.any fun expires => decide (now < expires)) &&
        hasher.check_password secret k.row.previous_secret) = true ↔
      ∃ rotated, k.history.replaced = some (secret, rotated) ∧ now < rotated + gracePeriod := by
  unfold PreviousOf at h
  cases hr : k.history.replaced with
  | none =>
    rw [hr] at h
    simp [h]
  | some r =>
    obtain ⟨raw, rotated⟩ := r
    rw [hr] at h
    obtain ⟨⟨salt, hprev⟩, hexp⟩ := h
    have hne : hasher.make_password salt raw ≠ "" := hasher.make_ne_empty salt raw
    simp only [hprev, hexp, hasher.check_make, bne_iff_ne, ne_eq, hne, not_false_eq_true,
      Option.any_some, Bool.and_eq_true, decide_eq_true_eq, beq_iff_eq, true_and,
      Option.some.injEq, Prod.mk.injEq]
    constructor
    · rintro ⟨hlt, rfl⟩
      exact ⟨rotated, ⟨rfl, rfl⟩, hlt⟩
    · rintro ⟨_, ⟨rfl, rfl⟩, hlt⟩
      exact ⟨hlt, rfl⟩

/-- The secrets the check accepts: the current one, and for a while the one it replaced. -/
theorem secretAccepted_iff (h : Tracked hasher k) (secret : String) (now : ℤ) :
    secretAccepted hasher k.row secret now = true ↔
      secret = k.history.current ∨
        ∃ rotated, k.history.replaced = some (secret, rotated) ∧ now < rotated + gracePeriod := by
  obtain ⟨salt, hsecret⟩ := h.secret
  unfold secretAccepted
  rw [Bool.or_eq_true, previous_accepted h.previous, hsecret, hasher.check_make, beq_iff_eq]

theorem checkPair_ok {key secret : String} {now : ℤ}
    (h : checkPair hasher s key secret now = .ok k) :
    k ∈ s ∧ k.row.key = key ∧ k.row.isActive now = true ∧
      secretAccepted hasher k.row secret now = true := by
  unfold checkPair at h
  split at h
  · cases h
  · next hk =>
    split at h
    · cases h
    · next hactive =>
      split at h
      · cases h
      · next haccepted =>
        cases h
        have hkey : k.row.key = key := by simpa using Table.of_find? hk
        exact ⟨Table.mem_of_find? hk, hkey, by simpa using hactive, by simpa using haccepted⟩

/-- What a request has shown that is let in with an API key. -/
theorem authenticate_some {headers : Headers} {now : ℤ}
    (h : authenticate hasher s headers now = .ok (some k)) :
    ∃ secret, presented headers = .ok (.pair k.row.key secret) ∧ k ∈ s ∧
      k.row.isActive now = true ∧ secretAccepted hasher k.row secret now = true := by
  obtain ⟨p, hp, h⟩ := bind_ok.mp h
  cases p with
  | nothing => cases h
  | jwt => cases h
  | pair key secret =>
    obtain ⟨q, hq, he⟩ := map_ok.mp h
    obtain rfl : q = k := Option.some.inj he
    obtain ⟨hk, rfl, hactive, haccepted⟩ := checkPair_ok hq
    exact ⟨secret, hp, hk, hactive, haccepted⟩

/-- The headers `X-API-Key` and `X-API-Secret` present what they hold. -/
theorem presented_pair {key secret : String} (hkey : key ≠ "") (hsecret : secret ≠ "") :
    presented { x_api_key := some key, x_api_secret := some secret } = .ok (.pair key secret) := by
  have hk : orText (some key) none = key := by
    unfold orText
    split
    · next he => exact absurd (Option.some.inj he) hkey
    · next he => cases he
    · next he => exact (Option.some.inj he).symm
  have hs : orText (some secret) none = secret := by
    unfold orText
    split
    · next he => exact absurd (Option.some.inj he) hsecret
    · next he => cases he
    · next he => exact (Option.some.inj he).symm
  simp [presented, hk, hs, hkey, hsecret]

/-- An active key lets its current secret in. -/
theorem authenticate_current (hinv : KeysInv hasher s) (hk : k ∈ s) {now : ℤ}
    (hactive : k.row.isActive now = true) :
    ∃ headers, authenticate hasher s headers now = .ok (some k) := by
  have htracked := hinv.tracked k hk
  refine ⟨{ x_api_key := some k.row.key, x_api_secret := some k.history.current }, ?_⟩
  have hfind : (s.find? fun q => q.row.key == k.row.key) = some k := by
    cases hq : s.find? fun q => q.row.key == k.row.key with
    | none =>
      have := Table.not_of_find?_none hq hk
      simp at this
    | some q =>
      have hkey : q.row.key = k.row.key := by simpa using Table.of_find? hq
      rw [hinv.unique q (Table.mem_of_find? hq) k hk hkey]
  have haccepted : secretAccepted hasher k.row k.history.current now = true :=
    (secretAccepted_iff htracked _ now).mpr (Or.inl rfl)
  have hcheck : checkPair hasher s k.row.key k.history.current now = .ok k := by
    simp [checkPair, hfind, hactive, haccepted]
  rw [authenticate, presented_pair htracked.key_ne htracked.current_ne]
  exact map_ok.mpr ⟨k, hcheck, rfl⟩

/-! ## What the requests keep -/

/-- No revoked key is active. -/
def NoneRevived (s : Keys) : Prop :=
  ∀ k ∈ s, k.history.revoked = true → k.row.status ≠ .active

theorem isActive_status {row : APIKey} {now : ℤ} (h : row.isActive now = true) :
    row.status = .active := by
  unfold APIKey.isActive at h
  split at h
  · cases h
  · next hs => simpa using hs

/-- An active status comes with a time at which the key is active. -/
theorem exists_isActive {row : APIKey} (h : row.status = .active) :
    ∃ now, row.isActive now = true := by
  cases he : row.expires_at with
  | none => exact ⟨0, by simp [APIKey.isActive, h, he]⟩
  | some expires => exact ⟨expires - 1, by simp [APIKey.isActive, h, he]⟩

/-- The keys are sound exactly if no revoked key is active. -/
theorem keysSound_iff (hinv : KeysInv hasher s) : KeysSound hasher s ↔ NoneRevived s := by
  constructor
  · intro hsound k hk hrevoked hactive
    obtain ⟨now, hnow⟩ := exists_isActive hactive
    obtain ⟨headers, hauth⟩ := authenticate_current hinv hk hnow
    obtain ⟨secret, _, hvalid⟩ := hsound headers now k hauth
    rw [hvalid.unrevoked] at hrevoked
    cases hrevoked
  · intro hnone headers now k hauth
    obtain ⟨secret, hpresented, hk, hactive, haccepted⟩ := authenticate_some hauth
    refine ⟨secret, hpresented, hactive, ?_, ?_⟩
    · cases hr : k.history.revoked with
      | false => rfl
      | true => exact absurd (isActive_status hactive) (hnone k hk hr)
    · exact (secretAccepted_iff (hinv.tracked k hk) secret now).mp haccepted

/-! ## One request -/

theorem ownKey_mem {user pk : ℕ} (h : ownKey s user pk = some k) : k ∈ s := Table.mem_of_find? h

theorem onKey_ok {user pk : ℕ} {op : KeyRecord → Except Refusal KeyRecord}
    (h : onKey s user pk op = .ok s') :
    ∃ k r, ownKey s user pk = some k ∧ op k = .ok r ∧ s' = s.set r := by
  unfold onKey at h
  split at h
  · cases h
  · next k hk =>
    obtain ⟨r, hr, rfl⟩ := map_ok.mp h
    exact ⟨k, r, hk, hr, rfl⟩

/-- The operations on one key, as the requests apply them. -/
inductive KeyOp (hasher : Hasher) (s : Keys) : KeyRequest → KeyRecord → KeyRecord → Prop
  | rotate (entry : Entry) (user pk : ℕ) (salt : String) (raw : UrlToken) (now : ℤ)
      {k : KeyRecord} (hactive : k.row.isActive now = true) :
      KeyOp hasher s (.rotate entry user pk salt raw now) k (k.rotate hasher salt raw now)
  | deactivate (user pk : ℕ) {k : KeyRecord} (hstatus : k.row.status ≠ .revoked) :
      KeyOp hasher s (.deactivate user pk) k k.deactivate
  | activate (entry : Entry) (user pk : ℕ) (now : ℤ) {k r : KeyRecord}
      (howner : ownKey s user pk = some k) (hok : k.activate now = .ok r) :
      KeyOp hasher s (.activate entry user pk now) k r
  | revoke (user pk : ℕ) {k : KeyRecord} : KeyOp hasher s (.revoke user pk) k k.revoke
  | used (headers : Headers) (now : ℤ) {k : KeyRecord} :
      KeyOp hasher s (.authenticate headers now) k (k.used now)

/-- The row `create` adds. -/
structure Fresh (hasher : Hasher) (s : Keys) (k : KeyRecord) : Prop where
  tracked : Tracked hasher k
  unrevoked : k.history.revoked = false
  unique : ∀ q ∈ s, q.row.key ≠ k.row.key

/-- What a request that is not refused does to the keys. -/
inductive Effect (hasher : Hasher) (s : Keys) : KeyRequest → Keys → Prop
  | write {a : KeyRequest} {k r : KeyRecord} (hk : k ∈ s) (hop : KeyOp hasher s a k r) :
      Effect hasher s a (s.set r)
  | create {a : KeyRequest} (mk : ℕ → KeyRecord) (hmk : ∀ pk, HasPk.pk (mk pk) = pk)
      (hfresh : Fresh hasher s (mk s.nextPk)) (ha : reactivates s a = false) :
      Effect hasher s a (s.create mk hmk)
  | delete (user pk : ℕ) (k : KeyRecord) : Effect hasher s (.delete user pk) (s.delete k.row.pk)
  | same (headers : Headers) (now : ℤ) : Effect hasher s (.authenticate headers now) s

theorem create_ok {user : ℕ} {name : String} {scopes : List String} {expires_at : Option ℤ}
    {salt : String} {key secret : UrlToken}
    (h : create hasher s user name scopes expires_at salt key secret = .ok s') :
    ∃ (mk : ℕ → KeyRecord) (hmk : ∀ pk, HasPk.pk (mk pk) = pk),
      Fresh hasher s (mk s.nextPk) ∧ s' = s.create mk hmk := by
  obtain ⟨permissions, _, h⟩ := bind_ok.mp h
  split at h
  · cases h
  · next hfree =>
    cases h
    refine ⟨_, fun _ => rfl, ?_, rfl⟩
    refine ⟨⟨⟨salt, rfl⟩, rfl, ?_, secret.ne_empty⟩, rfl, ?_⟩
    · intro hempty
      have hlen := congrArg String.length hempty
      simp at hlen
    · intro q hq hkey
      have hnone : (s.find? fun k => k.row.key == "ak_" ++ key.text) = none := by
        simpa using hfree
      simpa [hkey] using Table.not_of_find?_none hnone hq

theorem respond_effect {a : KeyRequest} (h : respond hasher s a = .ok s') :
    Effect hasher s a s' := by
  cases a with
  | create entry user name scopes expires_at salt key secret =>
    obtain ⟨mk, hmk, hfresh, rfl⟩ := create_ok (mapError_ok.mp h)
    exact .create mk hmk hfresh rfl
  | rotate entry user pk salt raw now =>
    obtain ⟨k, r, howner, hop, rfl⟩ := onKey_ok h
    split at hop
    · cases hop
    · next hactive =>
      cases hop
      exact .write (ownKey_mem howner) (.rotate _ _ _ _ _ _ (by simpa using hactive))
  | deactivate user pk =>
    obtain ⟨k, r, howner, hop, rfl⟩ := onKey_ok h
    split at hop
    · cases hop
    · next hstatus =>
      cases hop
      exact .write (ownKey_mem howner) (.deactivate _ _ (by simpa using hstatus))
  | activate entry user pk now =>
    obtain ⟨k, r, howner, hop, rfl⟩ := onKey_ok h
    have hok : k.activate now = .ok r := by
      cases entry with
      | browser => exact mapError_ok.mp hop
      | api => exact hop
    exact .write (ownKey_mem howner) (.activate _ _ _ _ howner hok)
  | revoke user pk =>
    obtain ⟨k, r, howner, hop, rfl⟩ := onKey_ok h
    cases hop
    exact .write (ownKey_mem howner) (.revoke _ _)
  | delete user pk =>
    simp only [respond, keyDelete] at h
    split at h
    · cases h
    · next k _ =>
      cases h
      exact .delete user pk k
  | authenticate headers now =>
    simp only [respond] at h
    split at h
    · next k hauth =>
      cases h
      obtain ⟨_, _, hk, _, _⟩ := authenticate_some hauth
      exact .write hk (.used headers now)
    · cases h
      exact .same headers now
    · cases h

/-! ### The histories -/

/-- `r` is the row of `k` written back: the same key, tracked if it was. -/
structure Rewrites (hasher : Hasher) (k r : KeyRecord) : Prop where
  pk : r.row.pk = k.row.pk
  key : r.row.key = k.row.key
  tracked : Tracked hasher k → Tracked hasher r

theorem activate_ok {now : ℤ} {r : KeyRecord} (h : k.activate now = .ok r) :
    r = { k with row := { k.row with status := .active } } := by
  unfold KeyRecord.activate at h
  split at h
  · cases h
  · cases h
    rfl

theorem KeyOp.rewrites {a : KeyRequest} {r : KeyRecord} (h : KeyOp hasher s a k r) :
    Rewrites hasher k r := by
  -- only a rotation touches the secrets
  have hsame : ∀ status last_used revoked, Rewrites hasher k
      { row := { k.row with status, last_used }, history := { k.history with revoked } } := by
    intro status last_used revoked
    exact ⟨rfl, rfl, fun ht => ⟨ht.secret, ht.previous, ht.key_ne, ht.current_ne⟩⟩
  cases h with
  | rotate entry user pk salt raw now hactive =>
    refine ⟨rfl, rfl, fun ht => ⟨⟨salt, rfl⟩, ⟨ht.secret, rfl⟩, ht.key_ne, raw.ne_empty⟩⟩
  | deactivate => exact hsame .inactive k.row.last_used k.history.revoked
  | activate entry user pk now howner hok =>
    rw [activate_ok hok]
    exact hsame .active k.row.last_used k.history.revoked
  | revoke => exact hsame .revoked k.row.last_used true
  | used headers now => exact hsame k.row.status (some now) k.history.revoked

theorem KeysInv.set {r : KeyRecord} (hinv : KeysInv hasher s) (hk : k ∈ s)
    (h : Rewrites hasher k r) : KeysInv hasher (s.set r) := by
  constructor
  · have hother := Table.forall_mem_set hk h.pk.symm fun x hx _ => hinv.tracked x hx
    exact hother.mpr (h.tracked (hinv.tracked k hk))
  · refine hinv.unique.set (fun _ _ hab => hab.symm) ?_
    intro q hq hne hclash
    rw [h.key] at hclash
    have hqk := hinv.unique q hq k hk hclash
    rw [hqk] at hne
    exact hne h.pk.symm

theorem KeysInv.create {mk : ℕ → KeyRecord} (hinv : KeysInv hasher s)
    (hmk : ∀ pk, HasPk.pk (mk pk) = pk) (hfresh : Fresh hasher s (mk s.nextPk)) :
    KeysInv hasher (s.create mk hmk) := by
  constructor
  · intro q hq
    rcases Table.mem_create hq with rfl | hq
    · exact hfresh.tracked
    · exact hinv.tracked q hq
  · exact hinv.unique.create (fun _ _ hab => hab.symm) hmk hfresh.unique

theorem KeysInv.delete (hinv : KeysInv hasher s) (pk : ℕ) : KeysInv hasher (s.delete pk) := by
  constructor
  · intro q hq
    exact hinv.tracked q (Table.mem_delete.mp hq).1
  · intro a ha b hb hab
    exact hinv.unique a (Table.mem_delete.mp ha).1 b (Table.mem_delete.mp hb).1 hab

theorem keysInv_effect {a : KeyRequest} (hinv : KeysInv hasher s) (h : Effect hasher s a s') :
    KeysInv hasher s' := by
  cases h with
  | write hk hop => exact hinv.set hk hop.rewrites
  | create mk hmk hfresh ha => exact hinv.create hmk hfresh
  | delete user pk k => exact hinv.delete k.row.pk
  | same headers now => exact hinv

/-! ### Revoked keys -/

/-- A key stays unrevived under every operation but the activation of a revoked key. -/
theorem KeyOp.unrevived_iff {a : KeyRequest} {r : KeyRecord} (h : KeyOp hasher s a k r)
    (hk : k.history.revoked = true → k.row.status ≠ .active) :
    (r.history.revoked = true → r.row.status ≠ .active) ↔ reactivates s a = false := by
  cases h with
  | rotate => exact iff_of_true hk rfl
  | deactivate => exact iff_of_true (fun _ => by simp [KeyRecord.deactivate]) rfl
  | activate entry user pk now howner hok =>
    have hisOk : (k.activate now).isOk = true := by
      rw [hok]
      rfl
    rw [activate_ok hok]
    simp [reactivates, howner, hisOk]
  | revoke => exact iff_of_true (fun _ => by simp [KeyRecord.revoke]) rfl
  | used => exact iff_of_true hk rfl

theorem noneRevived_effect {a : KeyRequest} (hnone : NoneRevived s) (h : Effect hasher s a s') :
    NoneRevived s' ↔ reactivates s a = false := by
  cases h with
  | write hk hop =>
    rw [← hop.unrevived_iff (hnone _ hk)]
    exact Table.forall_mem_set hk hop.rewrites.pk.symm fun x hx _ => hnone x hx
  | create mk hmk hfresh ha =>
    refine iff_of_true ?_ ha
    intro q hq hrevoked
    rcases Table.mem_create hq with rfl | hq
    · rw [hfresh.unrevoked] at hrevoked
      cases hrevoked
    · exact hnone q hq hrevoked
  | delete user pk k =>
    refine iff_of_true ?_ rfl
    intro q hq
    exact hnone q (Table.mem_delete.mp hq).1
  | same headers now => exact iff_of_true hnone rfl

/-- A refused request has reactivated nothing. -/
theorem not_reactivates_of_error {a : KeyRequest} {e : Refusal}
    (h : respond hasher s a = .error e) : reactivates s a = false := by
  cases a with
  | activate entry user pk now =>
    simp only [respond, keyActivate, onKey] at h
    simp only [reactivates]
    cases howner : ownKey s user pk with
    | none => rfl
    | some k =>
      rw [howner] at h
      cases hact : k.activate now with
      | error e => simp [hact, Except.isOk, Except.toBool]
      | ok r =>
        cases entry with
        | browser => simp [hact, Except.mapError, Except.map] at h
        | api => simp [hact, Except.map] at h
  | _ => rfl

theorem keysInv_empty : KeysInv hasher Table.empty := by
  refine ⟨?_, Table.unique_empty _⟩
  intro k hk
  cases hk

theorem keysInv_next {a : KeyRequest} (hinv : KeysInv hasher s)
    (h : (keyMachine hasher).next s a = some s') : KeysInv hasher s' := by
  simp only [keyMachine] at h
  split at h
  · next hresp =>
    cases h
    exact keysInv_effect hinv (respond_effect hresp)
  · cases h
    exact hinv

theorem noneRevived_next {a : KeyRequest} (hnone : NoneRevived s)
    (h : (keyMachine hasher).next s a = some s') : NoneRevived s' ↔ reactivates s a = false := by
  simp only [keyMachine] at h
  split at h
  · next hresp =>
    cases h
    exact noneRevived_effect hnone (respond_effect hresp)
  · next hresp =>
    cases h
    exact iff_of_true hnone (not_reactivates_of_error hresp)

/-- In every run from an empty table the keys are sound all along exactly if no request
reactivates a revoked key. -/
theorem keys_sound_iff (hasher : Hasher) {requests : List KeyRequest} {t : Keys}
    (hrun : (keyMachine hasher).Run Table.empty requests t) :
    Machine.RunIf.Always (keyMachine hasher) (KeysSound hasher) Table.empty requests ↔
      (keyMachine hasher).RunIf (fun s a => reactivates s a = false) Table.empty requests t := by
  have hempty : KeysSound hasher Table.empty := by
    rw [keysSound_iff keysInv_empty]
    intro k hk
    cases hk
  rw [Machine.RunIf.always_iff (fun _ _ _ => keysInv_next) ?_ hrun keysInv_empty]
  · exact and_iff_right hempty
  · intro s a s' hinv hsound hn
    rw [keysSound_iff (keysInv_next hinv hn)]
    exact noneRevived_next ((keysSound_iff hinv).mp hsound) hn

/-! ### A revoked key comes back -/

/-- Hashes that can be read: the password behind a marker. -/
def Hasher.plain : Hasher where
  make_password _ raw := "plain$" ++ raw
  check_password secret encoded := encoded == "plain$" ++ secret
  check_make _ raw secret := by
    by_cases h : secret = raw
    · simp [h]
    · simp [h, Ne.symm h]
  make_ne_empty _ raw := by
    intro h
    have hlen := congrArg String.length h
    simp at hlen

/-- User 1 creates a key, revokes it, and activates it again. -/
def revivingRequests : List KeyRequest :=
  [.create .browser 1 "bot" [] none "salt" ⟨"k", by decide⟩ ⟨"s", by decide⟩,
    .revoke 1 1, .activate .browser 1 1 60]

/-- The headers with the secret of that key. -/
def bearerHeaders : Headers := { authorization := some "Bearer ak_k:s" }

/-- The run in which nothing is activated after the key was revoked keeps the keys sound. -/
theorem keys_sound_unrevived :
    ∃ t, (keyMachine .plain).Run Table.empty (revivingRequests.take 2) t ∧
      (Machine.RunIf.Always (keyMachine .plain) (KeysSound .plain) Table.empty
          (revivingRequests.take 2) ↔
        (keyMachine .plain).RunIf (fun s a => reactivates s a = false) Table.empty
          (revivingRequests.take 2) t) := by
  have hsome : ((keyMachine .plain).exec Table.empty (revivingRequests.take 2)).isSome = true := by
    decide +kernel
  obtain ⟨t, ht⟩ := Machine.exists_run hsome
  exact ⟨t, ht, keys_sound_iff .plain ht⟩

/-- After `revivingRequests` the secret of the revoked key authenticates. -/
theorem keys_not_sound :
    ¬ ∀ requests t, (keyMachine .plain).Run Table.empty requests t →
      Machine.RunIf.Always (keyMachine .plain) (KeysSound .plain) Table.empty requests := by
  intro hsound
  cases hexec : (keyMachine .plain).exec Table.empty revivingRequests with
  | none =>
    have hsome : ((keyMachine .plain).exec Table.empty revivingRequests).isSome = true := by
      decide +kernel
    rw [hexec] at hsome
    cases hsome
  | some t =>
    have halways := hsound _ t (Machine.exec_eq_some_iff.mp hexec)
    have hrevoked : (((keyMachine .plain).exec Table.empty revivingRequests).any fun s =>
        (authenticate .plain s bearerHeaders 120).toOption.any fun found =>
          found.any fun k => k.history.revoked) = true := by
      decide +kernel
    rw [hexec, Option.any_some] at hrevoked
    cases hauth : authenticate .plain t bearerHeaders 120 with
    | error e =>
      rw [hauth] at hrevoked
      cases hrevoked
    | ok found =>
      rw [hauth] at hrevoked
      change (found.any fun k => k.history.revoked) = true at hrevoked
      obtain ⟨k, hfound, hk⟩ := (Option.any_eq_true _ _).mp hrevoked
      rw [hfound] at hauth
      obtain ⟨_, _, hvalid⟩ := halways.last hexec bearerHeaders 120 k hauth
      rw [hvalid.unrevoked] at hk
      cases hk

end AlgoBot.Developer
