import AlgoBot.Core.Machine
import AlgoBot.Core.Table
import AlgoBot.Python.Value

/-!
# Passwords and the credentials that outlive them

Four views write the password of an account: the reset page, the identity page, the API's
`change_password` and the profile-completion page. Each of them decides on its own which
proof it asks for, and which of the older credentials it revokes: refresh tokens (through
the outstanding and blacklisted tokens of the JWT library) and password-reset tokens.

* `old_credentials_dead_iff`: in every run no credential is alive that was issued before
  its user's last password change, exactly if the changes by the views that revoke too
  little find nothing that they leave alive; then none is accepted either.
  `identity_leaves_credentials` is a change on the identity page.
* `password_proved_iff`: in every run a usable password is replaced only with the old
  password or a valid reset token, exactly if no profile completion carries another one.
  `completion_replaces` is one that does.
-/

namespace AlgoBot.Passwords

open AlgoBot.Core AlgoBot.Python

/-! ## Accounts -/

/-- The fields of `UserProfile` the completion page writes. -/
structure CompletionProfile where
  phone : String
  country : String
  timezone : String
  bio : String
  date_of_birth : Option ℤ
  gender : String
  picture : Option String
  terms_accepted_at : Option ℤ
  deriving DecidableEq

/-- A `User` with its profile. The stored hash is given by the password it was made from;
`none` is an unusable one. -/
structure User where
  pk : ℕ
  username : String
  first_name : String
  last_name : String
  email : String
  is_active : Bool
  password : Option String
  email_verified : Bool
  two_factor_enabled : Bool
  profile : CompletionProfile
  deriving DecidableEq

instance : HasPk User := ⟨User.pk⟩

/-- A refresh token, with its rows in the outstanding and blacklisted tokens. `superseded` notes
that its user's password was changed after it had been issued. -/
structure RefreshToken where
  jti : String
  user : ℕ
  expires_at : ℤ
  mfa_verified : Bool
  blacklisted : Bool
  superseded : Bool
  deriving DecidableEq

/-- A `PasswordResetToken`, with the same note. -/
structure ResetToken where
  user : ℕ
  token : String
  expires_at : ℤ
  used : Bool
  superseded : Bool
  deriving DecidableEq

/-- The tables, and the clock, in microseconds. -/
structure Accounts where
  users : Table User
  refresh : List RefreshToken
  resets : List ResetToken
  now : ℤ

/-- What the views call: the configured password validators, the username validator, dates, images,
the digest of a token, and text. -/
structure FormEnv where
  host : Host
  validate_password : User → String → List String
  validate_username : String → List String
  fromisoformat : String → Option ℤ
  normalize_picture : String → Except String String
  isdigit : Char → Bool
  digest : String → String

variable (env : FormEnv)

/-- `REFRESH_TOKEN_LIFETIME`. -/
def refreshLifetime : ℤ := 7 * 24 * 3600 * 1000000

/-- `RESET_TTL`. -/
def resetTtl : ℤ := 3600 * 1000000

/-- `user.has_usable_password()`. -/
def User.hasUsablePassword (user : User) : Bool := user.password.isSome

/-- `user.check_password(raw)`. -/
def User.checkPassword (user : User) (raw : String) : Bool := user.password == some raw

/-- The token library takes the token: it has not expired and is not blacklisted. -/
def RefreshToken.live (token : RefreshToken) (now : ℤ) : Bool :=
  decide (now < token.expires_at) && !token.blacklisted

/-- `PasswordResetToken.is_valid`. -/
def ResetToken.isValid (reset : ResetToken) (now : ℤ) : Bool :=
  !reset.used && decide (now < reset.expires_at)

/-! ### What the views share -/

/-- `user.set_password(raw)` and the save; every credential of the user is older than that. -/
def setPassword (s : Accounts) (user : User) (raw : String) : Accounts :=
  { s with
    users := s.users.set { user with password := some raw }
    refresh := s.refresh.map fun token =>
      if token.user == user.pk then { token with superseded := true } else token
    resets := s.resets.map fun reset =>
      if reset.user == user.pk then { reset with superseded := true } else reset }

/-- Every outstanding token of the user is blacklisted. -/
def blacklistAll (s : Accounts) (user : ℕ) : Accounts :=
  { s with
    refresh := s.refresh.map fun token =>
      if token.user == user then { token with blacklisted := true } else token }

/-- `PasswordResetToken.objects.filter(user=user, used=False).update(used=True)`. -/
def useResets (s : Accounts) (user : ℕ) : Accounts :=
  { s with
    resets := s.resets.map fun reset =>
      if reset.user == user && !reset.used then { reset with used := true } else reset }

/-! ## Issuing and using tokens -/

/-- `RefreshToken.for_user`, which the sign-in paths call. -/
def issueRefresh (s : Accounts) (user : ℕ) (jti : String) (mfa_verified : Bool) : Accounts :=
  { s with
    refresh :=
      { jti, user, expires_at := s.now + refreshLifetime, mfa_verified, blacklisted := false
        superseded := false } :: s.refresh }

/-- The token the library verifies: found among the issued ones, and live. -/
def verifiedRefresh (s : Accounts) (jti : String) : Option RefreshToken :=
  (s.refresh.find? fun token => token.jti == jti).filter fun token => token.live s.now

/-- `CustomTokenRefreshSerializer.validate`; the token is rotated under the id `new_jti`. -/
def refreshToken (s : Accounts) (jti new_jti : String) : Except String Accounts :=
  match verifiedRefresh s jti with
  | none => .error "The refresh token is invalid or the account is inactive."
  | some token =>
      match s.users.find? fun user => user.pk == token.user && user.is_active with
      | none => .error "The refresh token is invalid or the account is inactive."
      | some user =>
          if user.two_factor_enabled && !token.mfa_verified then
            .error "This refresh token predates second-factor verification. Sign in again."
          else if !user.email_verified then
            .error "Verify your AlgoBot email before refreshing workspace credentials."
          else
            .ok
              (issueRefresh
                { s with
                  refresh := s.refresh.map fun t =>
                    if t.jti == jti then { t with blacklisted := true } else t }
                user.pk new_jti token.mfa_verified)

/-- `logout_view`. -/
def logoutView (s : Accounts) (user : ℕ) (jti : String) : Except String Accounts :=
  match verifiedRefresh s jti with
  | none => .error "Refresh token is invalid or already revoked."
  | some token =>
      if token.user != user then
        .error "Refresh token does not belong to the authenticated user."
      else
        .ok
          { s with
            refresh := s.refresh.map fun t =>
              if t.jti == jti then { t with blacklisted := true } else t }

/-- `forgot_password_page`, for the raw token it draws; `allowed` is the rate limit's answer. -/
def forgotPassword (s : Accounts) (email raw_token : String) (allowed : Bool) : Accounts :=
  let email := env.host.lower (strip email)
  let found := s.users.rows.filter fun user => env.host.lower user.email == email && user.is_active
  match found with
  | [user] =>
      if email != "" && allowed && !(s.resets.any fun r => r.token == env.digest raw_token) then
        { s with
          resets :=
            { user := user.pk, token := env.digest raw_token, expires_at := s.now + resetTtl
              used := false, superseded := false } :: s.resets }
      else s
  | _ => s

/-! ## The four views -/

/-- `reset` and its user on the reset page, if `valid`. -/
def validReset (s : Accounts) (raw_token : String) : Option (ResetToken × User) :=
  if raw_token == "" then none
  else do
    let reset ← s.resets.find? fun reset => reset.token == env.digest raw_token
    let user ← s.users.get? reset.user
    if reset.isValid s.now && user.is_active then some (reset, user) else none

/-- `reset_password_page`; an empty list of errors is the page that says the link is invalid. -/
def resetPassword (s : Accounts) (raw_token password password_confirm : String)
    (allowed : Bool) : Except (List String) Accounts :=
  match validReset env s raw_token with
  | none => .error []
  | some (_, user) =>
      if !allowed then .error []
      else if password != password_confirm then .error ["The passwords do not match."]
      else if !(env.validate_password user password).isEmpty then
        .error (env.validate_password user password)
      else .ok (blacklistAll (useResets (setPassword s user password) user.pk) user.pk)

/-- The errors of `change_password` on the identity page. -/
def identityErrors (user : User) (current_password new_password confirm_password : String) :
    List String :=
  (if user.hasUsablePassword && !user.checkPassword current_password then
    ["Your current password is incorrect."] else []) ++
  (if new_password.length < 12 then
    ["Use at least 12 characters for your new password."] else []) ++
  (if new_password != confirm_password then
    ["The new password and confirmation do not match."] else []) ++
  env.validate_password user new_password

/-- `account_identity_page` with `identity_action == "change_password"`. -/
def accountIdentity (s : Accounts) (user : User)
    (current_password new_password confirm_password : String) :
    Except (List String) Accounts :=
  let errors := identityErrors env user current_password new_password confirm_password
  if !errors.isEmpty then .error errors else .ok (setPassword s user new_password)

/-- The check of `change_password` that fails. -/
def apiError (user : User) (old_password new_password new_password_confirm : String) :
    Option String :=
  if old_password == "" || new_password == "" then some "Old and new passwords are required"
  else if new_password != new_password_confirm then some "New passwords do not match"
  else if !(env.validate_password user new_password).isEmpty then
    some (String.intercalate " " (env.validate_password user new_password))
  else if !user.checkPassword old_password then some "Current password is incorrect"
  else none

/-- `change_password` of the API. -/
def changePassword (s : Accounts) (user : User)
    (old_password new_password new_password_confirm : String) :
    Except (List String) Accounts :=
  match apiError env user old_password new_password new_password_confirm with
  | some text => .error [text]
  | none => .ok (blacklistAll (setPassword s user new_password) user.pk)

/-- The form of the completion page; an absent field is an empty text. -/
structure CompletionForm where
  first_name : String
  last_name : String
  username : String
  new_password : String
  confirm_password : String
  date_of_birth : String
  gender : String
  phone : String
  country : String
  timezone : String
  bio : String
  terms_accepted : String
  profile_picture : Option (ℕ × String)
  deriving DecidableEq

/-- `username` on the completion page. -/
def completionUsername (user : User) (form : CompletionForm) : String :=
  strip (if form.username == "" then user.username else form.username)

/-- `phone_compact`. -/
def phoneCompact (phone : String) : List Char :=
  (strip phone).toList.filter fun c => !" ()-".toList.contains c

/-- The check of an international phone number. -/
def phoneOk (phone : String) : Bool :=
  match phoneCompact phone with
  | '+' :: digits =>
      digits.all env.isdigit && decide (7 ≤ digits.length) && decide (digits.length ≤ 15) &&
        digits.head? != some '0'
  | _ => false

/-- `gender in {...}`. -/
def genders : List String :=
  ["female", "male", "non_binary", "prefer_not_to_say", "self_described"]

/-- `terms_accepted in {"on", "true", "1"}`. -/
def termsAccepted (form : CompletionForm) : Bool :=
  ["on", "true", "1"].contains form.terms_accepted

/-- The errors of the completion page, in its order. -/
def completionErrors (s : Accounts) (user : User) (form : CompletionForm) (today : ℤ) :
    List String :=
  let username := completionUsername user form
  let taken := s.users.rows.any fun other =>
    other.pk != user.pk && env.host.lower other.username == env.host.lower username
  (if strip form.first_name == "" || strip form.last_name == "" then
    ["Enter your first and last name to complete your profile."] else []) ++
  (if user.profile.terms_accepted_at.isNone && !termsAccepted form then
    ["Please accept the Terms of Service and Privacy Policy to continue."] else []) ++
  (if username == "" || decide (150 < username.length) then
    ["Enter a valid username (150 characters or fewer)."]
  else
    env.validate_username username ++ if taken then ["That username is already in use."] else []) ++
  (if strip form.date_of_birth == "" then []
  else
    match env.fromisoformat (strip form.date_of_birth) with
    | some dob => if today < dob then ["Date of birth cannot be in the future."] else []
    | none => ["Enter a valid date of birth."]) ++
  (if strip form.gender != "" && !genders.contains (strip form.gender) then
    ["Choose a valid gender option."] else []) ++
  (if strip form.phone != "" && !phoneOk env form.phone then
    ["Enter a valid international phone number including its country calling code."] else []) ++
  (match form.profile_picture with
    | none => []
    | some (size, content) =>
        if 5 * 1024 * 1024 < size then ["Profile picture must be 5 MB or smaller."]
        else
          match env.normalize_picture content with
          | .ok _ => []
          | .error text => [text]) ++
  (if form.new_password == "" && form.confirm_password == "" then []
  else if form.new_password == "" || form.new_password != form.confirm_password then
    ["Enter matching passwords in both password fields."]
  else env.validate_password user form.new_password)

/-- The profile the completion page saves. -/
def completedProfile (user : User) (form : CompletionForm) (now : ℤ) : CompletionProfile :=
  let old := user.profile
  { phone := if strip form.phone == "" then old.phone
      else take 32 (String.ofList (phoneCompact form.phone))
    country := if strip form.country == "" then old.country else take 100 (strip form.country)
    timezone :=
      let timezone :=
        take 100 (strip (if form.timezone == "" then "UTC" else form.timezone))
      if timezone == "" then "UTC" else timezone
    bio := take 5000 (strip form.bio)
    date_of_birth := if strip form.date_of_birth == "" then old.date_of_birth
      else env.fromisoformat (strip form.date_of_birth)
    gender := if strip form.gender == "" then old.gender else strip form.gender
    picture := match form.profile_picture with
      | some (_, content) => (env.normalize_picture content).toOption.or old.picture
      | none => old.picture
    terms_accepted_at :=
      if termsAccepted form && old.terms_accepted_at.isNone then some now
      else old.terms_accepted_at }

/-- The row the completion page saves, but for the password. -/
def completedUser (user : User) (form : CompletionForm) (now : ℤ) : User :=
  { user with
    first_name := take 150 (strip form.first_name)
    last_name := take 150 (strip form.last_name)
    username := completionUsername user form
    profile := completedProfile env user form now }

/-- `profile_completion_page`. -/
def profileCompletion (s : Accounts) (user : User) (form : CompletionForm) (today : ℤ) :
    Except (List String) Accounts :=
  let errors := completionErrors env s user form today
  let saved := completedUser env user form s.now
  if !errors.isEmpty then .error errors
  else if form.new_password != "" then .ok (setPassword s saved form.new_password)
  else .ok { s with users := s.users.set saved }

/-! ## Runs -/

/-- The requests. `account` stands for the other views that write a user's row: they keep the
password. -/
inductive Request where
  | issue (user : ℕ) (jti : String) (mfa_verified : Bool)
  | refresh (jti new_jti : String)
  | logout (user : ℕ) (jti : String)
  | forgot (email raw_token : String) (allowed : Bool)
  | reset (raw_token password password_confirm : String) (allowed : Bool)
  | identity (user : ℕ) (current_password new_password confirm_password : String)
  | api (user : ℕ) (old_password new_password new_password_confirm : String)
  | complete (user : ℕ) (form : CompletionForm) (today : ℤ)
  | enroll (user : ℕ)
  | account (row : User)
  | tick (elapsed : ℕ)

/-- What a view of a signed-in user does with the row of that user. -/
def asUser (s : Accounts) (user : ℕ) (view : User → Except (List String) Accounts) :
    Except (List String) Accounts :=
  match s.users.get? user with
  | none => .error []
  | some row => view row

/-- What the request makes of the tables. -/
def respond (s : Accounts) : Request → Except (List String) Accounts
  | .issue user jti mfa_verified => .ok (issueRefresh s user jti mfa_verified)
  | .refresh jti new_jti => (refreshToken s jti new_jti).mapError List.singleton
  | .logout user jti => (logoutView s user jti).mapError List.singleton
  | .forgot email raw_token allowed => .ok (forgotPassword env s email raw_token allowed)
  | .reset raw_token password password_confirm allowed =>
      resetPassword env s raw_token password password_confirm allowed
  | .identity user current_password new_password confirm_password =>
      asUser s user fun row =>
        accountIdentity env s row current_password new_password confirm_password
  | .api user old_password new_password new_password_confirm =>
      asUser s user fun row => changePassword env s row old_password new_password
        new_password_confirm
  | .complete user form today =>
      asUser s user fun row => profileCompletion env s row form today
  | .enroll user => .ok (blacklistAll s user)
  | .account row =>
      asUser s row.pk fun old =>
        .ok { s with users := s.users.set { row with password := old.password } }
  | .tick elapsed => .ok { s with now := s.now + elapsed }

/-- A refused request leaves everything as it was. -/
def accountMachine : Machine Accounts Request where
  next s request :=
    match respond env s request with
    | .ok s' => some s'
    | .error _ => some s

/-! ## Password changes -/

/-- The four views. -/
inductive Path where
  | reset | identity | api | complete
  deriving DecidableEq, Repr

/-- A change: by which view, of which row, the row it saves, and the new password. -/
structure Change where
  path : Path
  row : User
  saved : User
  raw : String

/-- The change a request makes, where it passes the checks of its view. -/
def passwordChange (env : FormEnv) (s : Accounts) : Request → Option Change
  | .reset raw_token password password_confirm allowed => do
      let (_, user) ← validReset env s raw_token
      if allowed && password == password_confirm && (env.validate_password user password).isEmpty
        then some ⟨.reset, user, user, password⟩ else none
  | .identity user current_password new_password confirm_password => do
      let row ← s.users.get? user
      if (identityErrors env row current_password new_password confirm_password).isEmpty
        then some ⟨.identity, row, row, new_password⟩ else none
  | .api user old_password new_password new_password_confirm => do
      let row ← s.users.get? user
      if (apiError env row old_password new_password new_password_confirm).isNone
        then some ⟨.api, row, row, new_password⟩ else none
  | .complete user form today => do
      let row ← s.users.get? user
      if (completionErrors env s row form today).isEmpty && form.new_password != ""
        then some ⟨.complete, row, completedUser env row form s.now, form.new_password⟩ else none
  | _ => none

/-- What each view revokes after the change. -/
def revoke (path : Path) (s : Accounts) (user : ℕ) : Accounts :=
  match path with
  | .reset => blacklistAll (useResets s user) user
  | .api => blacklistAll s user
  | .identity | .complete => s

variable {env} {s s' t : Accounts} {request : Request} {c : Change} {u : ℕ}

theorem validReset_some {raw_token : String} {reset : ResetToken} {user : User}
    (h : validReset env s raw_token = some (reset, user)) :
    reset ∈ s.resets ∧ reset.token = env.digest raw_token ∧ s.users.get? reset.user = some user ∧
      reset.isValid s.now = true := by
  unfold validReset at h
  split at h
  · cases h
  · obtain ⟨r, hr, h⟩ := Option.bind_eq_some_iff.mp h
    obtain ⟨w, hw, h⟩ := Option.bind_eq_some_iff.mp h
    split at h
    · next hvalid =>
      obtain ⟨rfl, rfl⟩ := Prod.mk.inj (Option.some.inj h)
      rw [Bool.and_eq_true] at hvalid
      exact ⟨List.mem_of_find?_eq_some hr, by simpa using List.find?_some hr, hw, hvalid.1⟩
    · cases h

theorem completedUser_pk (user : User) (form : CompletionForm) (now : ℤ) :
    (completedUser env user form now).pk = user.pk := by
  simp only [completedUser]

theorem completedUser_password (user : User) (form : CompletionForm) (now : ℤ) :
    (completedUser env user form now).password = user.password := by
  simp only [completedUser]

/-- A change is of a stored row, and saves one with its key. -/
theorem passwordChange_row (h : passwordChange env s request = some c) :
    s.users.get? c.row.pk = some c.row ∧ c.saved.pk = c.row.pk := by
  have hown : ∀ {user : ℕ} {row : User}, s.users.get? user = some row →
      s.users.get? row.pk = some row := by
    intro user row hrow
    exact Table.get?_pk (Table.get?_eq_some.mp hrow).1
  cases request with
  | reset raw_token password password_confirm allowed =>
    obtain ⟨⟨reset, user⟩, hvalid, h⟩ := Option.bind_eq_some_iff.mp h
    obtain ⟨_, he⟩ := Option.ite_none_right_eq_some.mp h
    obtain rfl := Option.some.inj he
    exact ⟨hown (validReset_some hvalid).2.2.1, rfl⟩
  | identity user current_password new_password confirm_password =>
    obtain ⟨row, hrow, h⟩ := Option.bind_eq_some_iff.mp h
    obtain ⟨_, he⟩ := Option.ite_none_right_eq_some.mp h
    obtain rfl := Option.some.inj he
    exact ⟨hown hrow, rfl⟩
  | api user old_password new_password new_password_confirm =>
    obtain ⟨row, hrow, h⟩ := Option.bind_eq_some_iff.mp h
    obtain ⟨_, he⟩ := Option.ite_none_right_eq_some.mp h
    obtain rfl := Option.some.inj he
    exact ⟨hown hrow, rfl⟩
  | complete user form today =>
    obtain ⟨row, hrow, h⟩ := Option.bind_eq_some_iff.mp h
    obtain ⟨_, he⟩ := Option.ite_none_right_eq_some.mp h
    obtain rfl := Option.some.inj he
    exact ⟨hown hrow, completedUser_pk row form s.now⟩
  | _ => cases h

/-- What a request with a change makes of the tables. -/
theorem respond_of_change (h : passwordChange env s request = some c) :
    respond env s request = .ok (revoke c.path (setPassword s c.saved c.raw) c.row.pk) := by
  cases request with
  | reset raw_token password password_confirm allowed =>
    obtain ⟨⟨reset, user⟩, hvalid, h⟩ := Option.bind_eq_some_iff.mp h
    obtain ⟨hok, he⟩ := Option.ite_none_right_eq_some.mp h
    obtain rfl := Option.some.inj he
    simp only [Bool.and_eq_true, beq_iff_eq] at hok
    obtain ⟨⟨rfl, rfl⟩, hvalidate⟩ := hok
    simp [respond, resetPassword, hvalid, hvalidate, revoke]
  | identity user current_password new_password confirm_password =>
    obtain ⟨row, hrow, h⟩ := Option.bind_eq_some_iff.mp h
    obtain ⟨hok, he⟩ := Option.ite_none_right_eq_some.mp h
    obtain rfl := Option.some.inj he
    simp [respond, asUser, hrow, accountIdentity, hok, revoke]
  | api user old_password new_password new_password_confirm =>
    obtain ⟨row, hrow, h⟩ := Option.bind_eq_some_iff.mp h
    obtain ⟨hok, he⟩ := Option.ite_none_right_eq_some.mp h
    obtain rfl := Option.some.inj he
    simp [respond, asUser, hrow, changePassword, Option.isNone_iff_eq_none.mp hok, revoke]
  | complete user form today =>
    obtain ⟨row, hrow, h⟩ := Option.bind_eq_some_iff.mp h
    obtain ⟨hok, he⟩ := Option.ite_none_right_eq_some.mp h
    obtain rfl := Option.some.inj he
    obtain ⟨herrors, hnew⟩ := Bool.and_eq_true_iff.mp hok
    simp [respond, asUser, hrow, profileCompletion, herrors, hnew, revoke]
  | _ => cases h

/-- The password that opens the user's account. -/
def passwordOf (s : Accounts) (u : ℕ) : Option String := (s.users.get? u).bind User.password

theorem passwordOf_set {row saved : User} (hrow : s.users.get? saved.pk = some row) (u : ℕ) :
    passwordOf { s with users := s.users.set saved } u =
      if u = saved.pk then saved.password else passwordOf s u := by
  unfold passwordOf
  have hset : (s.users.set saved).get? u = if u = saved.pk then some saved else s.users.get? u :=
    Table.get?_set_of_some hrow u
  rw [hset]
  split
  · rfl
  · rfl

/-- No credential is alive that its user's last password change has superseded. -/
structure OldDead (s : Accounts) : Prop where
  refresh : ∀ token ∈ s.refresh, token.superseded = true → token.live s.now = false
  resets : ∀ reset ∈ s.resets, reset.superseded = true → reset.isValid s.now = false

/-- The view leaves refresh tokens as they are. -/
def Path.keepsRefresh : Path → Bool
  | .identity | .complete => true
  | .reset | .api => false

/-- The view leaves reset tokens as they are. -/
def Path.keepsResets : Path → Bool
  | .reset => false
  | .identity | .api | .complete => true

/-- A change finds no live credential of a kind its view leaves alone. -/
def LeavesNone (env : FormEnv) (s : Accounts) (request : Request) : Prop :=
  ∀ c, passwordChange env s request = some c →
    (c.path.keepsRefresh = true →
      ∀ token ∈ s.refresh, token.user = c.row.pk → token.live s.now = false) ∧
    (c.path.keepsResets = true →
      ∀ reset ∈ s.resets, reset.user = c.row.pk → reset.isValid s.now = false)

theorem live_blacklisted (token : RefreshToken) (now : ℤ) :
    RefreshToken.live { token with blacklisted := true } now = false := Bool.and_false _

/-- Blacklisting keeps dead tokens dead. -/
theorem dead_blacklist {tokens : List RefreshToken} {now : ℤ} (p : RefreshToken → Bool)
    (h : ∀ token ∈ tokens, token.superseded = true → token.live now = false) :
    ∀ token ∈ tokens.map (fun t => if p t then { t with blacklisted := true } else t),
      token.superseded = true → token.live now = false := by
  intro token htoken hsup
  obtain ⟨t, ht, rfl⟩ := List.mem_map.mp htoken
  by_cases hp : p t = true
  · rw [if_pos hp]
    exact live_blacklisted t now
  · rw [if_neg hp] at hsup ⊢
    exact h t ht hsup

theorem dead_cons {tokens : List RefreshToken} {now : ℤ} {token : RefreshToken}
    (hfresh : token.superseded = false)
    (h : ∀ t ∈ tokens, t.superseded = true → t.live now = false) :
    ∀ t ∈ token :: tokens, t.superseded = true → t.live now = false := by
  intro t ht hsup
  rcases List.mem_cons.mp ht with rfl | ht
  · rw [hfresh] at hsup
    cases hsup
  · exact h t ht hsup

/-- Tokens do not come back to life as time goes on. -/
theorem OldDead.tick (h : OldDead s) (elapsed : ℕ) :
    OldDead { s with now := s.now + elapsed } := by
  constructor
  · intro token htoken hsup
    have hdead := h.refresh token htoken hsup
    simp only [RefreshToken.live, Bool.and_eq_false_iff, decide_eq_false_iff_not] at hdead ⊢
    rcases hdead with hexpired | hlisted
    · left
      omega
    · exact Or.inr hlisted
  · intro reset hreset hsup
    have hdead := h.resets reset hreset hsup
    simp only [ResetToken.isValid, Bool.and_eq_false_iff, decide_eq_false_iff_not] at hdead ⊢
    rcases hdead with hused | hexpired
    · exact Or.inl hused
    · right
      omega

/-- What is left of the refresh tokens by a change that revokes them, and by one that does not. -/
theorem refresh_change (h : OldDead s) (saved : User) (raw : String) :
    (∀ token ∈ (blacklistAll (setPassword s saved raw) saved.pk).refresh,
        token.superseded = true → token.live s.now = false) ∧
      ((∀ token ∈ (setPassword s saved raw).refresh,
          token.superseded = true → token.live s.now = false) ↔
        ∀ token ∈ s.refresh, token.user = saved.pk → token.live s.now = false) := by
  constructor
  · intro token htoken hsup
    simp only [blacklistAll, setPassword, List.map_map] at htoken
    obtain ⟨t, ht, rfl⟩ := List.mem_map.mp htoken
    by_cases huser : t.user = saved.pk
    · simp only [Function.comp_apply, huser, beq_self_eq_true, if_true]
      exact live_blacklisted _ _
    · simp only [Function.comp_apply, huser, beq_iff_eq, if_false] at hsup ⊢
      exact h.refresh t ht hsup
  · constructor
    · intro hdead t ht huser
      have hmem : { t with superseded := true } ∈ (setPassword s saved raw).refresh := by
        refine List.mem_map.mpr ⟨t, ht, ?_⟩
        rw [if_pos (by simpa using huser)]
      have hlive := hdead _ hmem rfl
      exact hlive
    · intro hdead token htoken hsup
      obtain ⟨t, ht, rfl⟩ := List.mem_map.mp htoken
      by_cases huser : t.user = saved.pk
      · rw [if_pos (by simpa using huser)]
        exact hdead t ht huser
      · rw [if_neg (by simpa using huser)] at hsup ⊢
        exact h.refresh t ht hsup

/-- The same for the reset tokens. -/
theorem resets_change (h : OldDead s) (saved : User) (raw : String) :
    (∀ reset ∈ (useResets (setPassword s saved raw) saved.pk).resets,
        reset.superseded = true → reset.isValid s.now = false) ∧
      ((∀ reset ∈ (setPassword s saved raw).resets,
          reset.superseded = true → reset.isValid s.now = false) ↔
        ∀ reset ∈ s.resets, reset.user = saved.pk → reset.isValid s.now = false) := by
  constructor
  · intro reset hreset hsup
    simp only [useResets, setPassword, List.map_map] at hreset
    obtain ⟨r, hr, rfl⟩ := List.mem_map.mp hreset
    by_cases huser : r.user = saved.pk
    · by_cases hused : r.used = true
      · simp [Function.comp_apply, huser, hused, ResetToken.isValid]
      · simp [Function.comp_apply, huser, hused, ResetToken.isValid]
    · simp only [Function.comp_apply, huser, beq_iff_eq, if_false, Bool.and_eq_true, false_and]
        at hsup ⊢
      exact h.resets r hr hsup
  · constructor
    · intro hdead r hr huser
      have hmem : { r with superseded := true } ∈ (setPassword s saved raw).resets := by
        refine List.mem_map.mpr ⟨r, hr, ?_⟩
        rw [if_pos (by simpa using huser)]
      have hlive := hdead _ hmem rfl
      exact hlive
    · intro hdead reset hreset hsup
      obtain ⟨r, hr, rfl⟩ := List.mem_map.mp hreset
      by_cases huser : r.user = saved.pk
      · rw [if_pos (by simpa using huser)]
        exact hdead r hr huser
      · rw [if_neg (by simpa using huser)] at hsup ⊢
        exact h.resets r hr hsup

/-- After a change the old credentials are dead exactly if it has left none alive. -/
theorem oldDead_change (h : OldDead s) (hc : passwordChange env s request = some c)
    (hn : respond env s request = .ok s') : OldDead s' ↔ LeavesNone env s request := by
  obtain ⟨_, hpk⟩ := passwordChange_row hc
  have hleaves : LeavesNone env s request ↔
      (c.path.keepsRefresh = true →
        ∀ token ∈ s.refresh, token.user = c.saved.pk → token.live s.now = false) ∧
      (c.path.keepsResets = true →
        ∀ reset ∈ s.resets, reset.user = c.saved.pk → reset.isValid s.now = false) := by
    unfold LeavesNone
    rw [hpk, hc]
    simp
  rw [respond_of_change hc, ← hpk] at hn
  obtain rfl := Except.ok.inj hn
  obtain ⟨hlisted, hrefresh⟩ := refresh_change h c.saved c.raw
  obtain ⟨hused, hresets⟩ := resets_change h c.saved c.raw
  rw [hleaves, ← hrefresh, ← hresets]
  cases c.path with
  | reset =>
    simp only [Path.keepsRefresh, Path.keepsResets, Bool.false_eq_true, false_imp_iff, and_self,
      iff_true]
    exact ⟨hlisted, hused⟩
  | api =>
    simp only [Path.keepsRefresh, Path.keepsResets, Bool.false_eq_true, false_imp_iff, true_and,
      forall_const]
    exact ⟨fun h => h.resets, fun h => ⟨hlisted, h⟩⟩
  | identity =>
    simp only [Path.keepsRefresh, Path.keepsResets, forall_const]
    exact ⟨fun h => ⟨h.refresh, h.resets⟩, fun h => ⟨h.1, h.2⟩⟩
  | complete =>
    simp only [Path.keepsRefresh, Path.keepsResets, forall_const]
    exact ⟨fun h => ⟨h.refresh, h.resets⟩, fun h => ⟨h.1, h.2⟩⟩

/-! ### Requests without a change -/

/-- The request changes no password, and keeps dead credentials dead. -/
structure Quiet (s s' : Accounts) : Prop where
  passwords : ∀ u, passwordOf s' u = passwordOf s u
  dead : OldDead s → OldDead s'

theorem issueRefresh_quiet (s : Accounts) (user : ℕ) (jti : String) (mfa_verified : Bool) :
    Quiet s (issueRefresh s user jti mfa_verified) :=
  ⟨fun _ => rfl, fun h => ⟨dead_cons rfl h.refresh, h.resets⟩⟩

theorem blacklist_quiet (s : Accounts) (p : RefreshToken → Bool) :
    Quiet s { s with
      refresh := s.refresh.map fun t => if p t then { t with blacklisted := true } else t } :=
  ⟨fun _ => rfl, fun h => ⟨dead_blacklist p h.refresh, h.resets⟩⟩

theorem Quiet.trans (h : Quiet s s') (h' : Quiet s' t) : Quiet s t :=
  ⟨fun u => (h'.passwords u).trans (h.passwords u), fun hs => h'.dead (h.dead hs)⟩

/-- Saving a row with the password it had is quiet. -/
theorem set_quiet {row saved : User} (hrow : s.users.get? saved.pk = some row)
    (hpassword : saved.password = row.password) :
    Quiet s { s with users := s.users.set saved } := by
  constructor
  · intro u
    rw [passwordOf_set hrow]
    split
    · next hu => rw [hu, passwordOf, hrow, hpassword, Option.bind_some]
    · rfl
  · intro h
    exact ⟨h.refresh, h.resets⟩

theorem refreshToken_ok {jti new_jti : String} (h : refreshToken s jti new_jti = .ok s') :
    (∃ token, verifiedRefresh s jti = some token) ∧ Quiet s s' := by
  unfold refreshToken at h
  split at h
  · cases h
  · next token htoken =>
    refine ⟨⟨token, htoken⟩, ?_⟩
    split at h
    · cases h
    · split at h
      · cases h
      · split at h
        · cases h
        · cases h
          exact (blacklist_quiet s fun t => t.jti == jti).trans (issueRefresh_quiet _ _ _ _)

theorem logoutView_ok {user : ℕ} {jti : String} (h : logoutView s user jti = .ok s') :
    (∃ token, verifiedRefresh s jti = some token) ∧ Quiet s s' := by
  unfold logoutView at h
  split at h
  · cases h
  · next token htoken =>
    refine ⟨⟨token, htoken⟩, ?_⟩
    split at h
    · cases h
    · cases h
      exact blacklist_quiet s fun t => t.jti == jti

theorem forgotPassword_quiet (s : Accounts) (email raw_token : String) (allowed : Bool) :
    Quiet s (forgotPassword env s email raw_token allowed) := by
  unfold forgotPassword
  dsimp only
  split
  · split
    · refine ⟨fun _ => rfl, fun h => ⟨h.refresh, ?_⟩⟩
      intro reset hreset hsup
      rcases List.mem_cons.mp hreset with rfl | hreset
      · cases hsup
      · exact h.resets reset hreset hsup
    · exact ⟨fun _ => rfl, id⟩
  · exact ⟨fun _ => rfl, id⟩

theorem asUser_ok {user : ℕ} {view : User → Except (List String) Accounts}
    (h : asUser s user view = .ok s') :
    ∃ row, s.users.get? user = some row ∧ view row = .ok s' := by
  unfold asUser at h
  split at h
  · cases h
  · next row hrow => exact ⟨row, hrow, h⟩

/-- The request is quiet if it makes no change. -/
theorem respond_quiet (hnone : passwordChange env s request = none)
    (hn : respond env s request = .ok s') : Quiet s s' := by
  cases request with
  | issue user jti mfa_verified =>
    obtain rfl := Except.ok.inj hn
    exact issueRefresh_quiet s user jti mfa_verified
  | refresh jti new_jti => exact (refreshToken_ok (mapError_ok.mp hn)).2
  | logout user jti => exact (logoutView_ok (mapError_ok.mp hn)).2
  | forgot email raw_token allowed =>
    obtain rfl := Except.ok.inj hn
    exact forgotPassword_quiet s email raw_token allowed
  | reset raw_token password password_confirm allowed =>
    -- a reset that is not refused is a change
    simp only [respond, resetPassword] at hn
    split at hn
    · cases hn
    · next reset user hvalid =>
      have hchecks : ¬ (allowed && password == password_confirm &&
          (env.validate_password user password).isEmpty) = true := by
        simpa [passwordChange, hvalid] using hnone
      split at hn
      · cases hn
      · split at hn
        · cases hn
        · split at hn
          · cases hn
          · simp_all
  | identity user current_password new_password confirm_password =>
    obtain ⟨row, hrow, hn⟩ := asUser_ok hn
    simp only [accountIdentity] at hn
    split at hn
    · cases hn
    · next hok => simp_all [passwordChange]
  | api user old_password new_password new_password_confirm =>
    obtain ⟨row, hrow, hn⟩ := asUser_ok hn
    simp only [changePassword] at hn
    split at hn
    · cases hn
    · next hok => simp [passwordChange, hrow, hok] at hnone
  | complete user form today =>
    obtain ⟨row, hrow, hn⟩ := asUser_ok hn
    simp only [profileCompletion] at hn
    split at hn
    · cases hn
    · split at hn
      · simp_all [passwordChange]
      · cases hn
        have hpk : row.pk = user := Table.pk_of_get? hrow
        have hold : s.users.get? (completedUser env row form s.now).pk = some row := by
          rw [completedUser_pk, hpk]
          exact hrow
        exact set_quiet hold (completedUser_password row form s.now)
  | enroll user =>
    obtain rfl := Except.ok.inj hn
    exact blacklist_quiet s fun t => t.user == user
  | account row =>
    obtain ⟨old, hold, hn⟩ := asUser_ok hn
    obtain rfl := Except.ok.inj hn
    exact set_quiet hold rfl
  | tick elapsed =>
    obtain rfl := Except.ok.inj hn
    exact ⟨fun _ => rfl, fun h => h.tick elapsed⟩

/-- One request keeps the old credentials dead exactly if a change leaves none. -/
theorem oldDead_next (h : OldDead s) (hn : (accountMachine env).next s request = some s') :
    OldDead s' ↔ LeavesNone env s request := by
  have hquiet : passwordChange env s request = none → LeavesNone env s request := by
    intro hnone c hc
    rw [hnone] at hc
    cases hc
  simp only [accountMachine] at hn
  split at hn
  · next hresp =>
    obtain rfl := Option.some.inj hn
    cases hc : passwordChange env s request with
    | none => exact iff_of_true ((respond_quiet hc hresp).dead h) (hquiet hc)
    | some c => exact oldDead_change h hc hresp
  · next e hresp =>
    obtain rfl := Option.some.inj hn
    cases hc : passwordChange env s request with
    | none => exact iff_of_true h (hquiet hc)
    | some c =>
      rw [respond_of_change hc] at hresp
      cases hresp

/-- The request presents a credential from before its user's last password change, and is not
turned away for it. -/
def AcceptsOld (env : FormEnv) (s : Accounts) : Request → Prop
  | .refresh jti new_jti => (∃ s', refreshToken s jti new_jti = .ok s') ∧
      ∃ token, s.refresh.find? (fun t => t.jti == jti) = some token ∧ token.superseded = true
  | .logout user jti => (∃ s', logoutView s user jti = .ok s') ∧
      ∃ token, s.refresh.find? (fun t => t.jti == jti) = some token ∧ token.superseded = true
  | .reset raw_token _ _ _ => ∃ reset user, validReset env s raw_token = some (reset, user) ∧
      reset.superseded = true
  | _ => False

/-- While the old credentials are dead, none is accepted. -/
theorem not_acceptsOld (h : OldDead s) (request : Request) : ¬ AcceptsOld env s request := by
  have hverified : ∀ {jti : String} {token token' : RefreshToken},
      verifiedRefresh s jti = some token → s.refresh.find? (fun t => t.jti == jti) = some token' →
      token'.superseded = true → False := by
    intro jti token token' hverified hfind hsup
    obtain ⟨hfound, hlive⟩ := Option.filter_eq_some_iff.mp hverified
    obtain rfl : token = token' := Option.some.inj (hfound.symm.trans hfind)
    rw [h.refresh token (List.mem_of_find?_eq_some hfind) hsup] at hlive
    cases hlive
  cases request with
  | refresh jti new_jti =>
    rintro ⟨⟨s', hok⟩, token, hfind, hsup⟩
    obtain ⟨⟨token', htoken'⟩, _⟩ := refreshToken_ok hok
    exact hverified htoken' hfind hsup
  | logout user jti =>
    rintro ⟨⟨s', hok⟩, token, hfind, hsup⟩
    obtain ⟨⟨token', htoken'⟩, _⟩ := logoutView_ok hok
    exact hverified htoken' hfind hsup
  | reset raw_token password password_confirm allowed =>
    rintro ⟨reset, user, hvalid, hsup⟩
    obtain ⟨hmem, _, _, hlive⟩ := validReset_some hvalid
    rw [h.resets reset hmem hsup] at hlive
    cases hlive
  | _ => exact id

/-- Accounts for which no credential has been issued yet. -/
def Accounts.start (users : Table User) (now : ℤ) : Accounts := ⟨users, [], [], now⟩

theorem oldDead_start (users : Table User) (now : ℤ) : OldDead (Accounts.start users now) := by
  constructor
  · intro token htoken
    cases htoken
  · intro reset hreset
    cases hreset

/-- In every run the credentials from before a password change are dead all along exactly if the
changes leave none alive; no request is accepted with one then. -/
theorem old_credentials_dead_iff (env : FormEnv) (users : Table User) (now : ℤ)
    {requests : List Request} {t : Accounts}
    (hrun : (accountMachine env).Run (Accounts.start users now) requests t) :
    (Machine.RunIf.Always (accountMachine env) OldDead (Accounts.start users now) requests ↔
        (accountMachine env).RunIf (LeavesNone env) (Accounts.start users now) requests t) ∧
      ((accountMachine env).RunIf (LeavesNone env) (Accounts.start users now) requests t →
        (accountMachine env).RunIf (fun s request => ¬ AcceptsOld env s request)
          (Accounts.start users now) requests t) := by
  constructor
  · have hstep : ∀ s request s', True → OldDead s →
        (accountMachine env).next s request = some s' → (OldDead s' ↔ LeavesNone env s request) :=
      fun _ _ _ _ hdead hn => oldDead_next hdead hn
    rw [Machine.RunIf.always_iff (fun _ _ _ _ _ => trivial) hstep hrun trivial]
    exact and_iff_right (oldDead_start users now)
  · intro hguard
    have hsteps := hguard.forall_steps (P := fun s request => ¬ AcceptsOld env s request)
      (fun s request s' hg hdead hn =>
        ⟨(oldDead_next hdead hn).mpr hg, not_acceptsOld hdead request⟩) (oldDead_start users now)
    exact hsteps.mono fun _ _ h => h.2.2

/-! ## Who may replace a password -/

/-- An environment for examples: every password and username is valid, digests are the tokens. -/
def FormEnv.plain : FormEnv where
  host := Host.ascii
  validate_password _ _ := []
  validate_username _ := []
  fromisoformat _ := none
  normalize_picture _ := .error "Upload a valid image file (JPEG, PNG, WEBP, or GIF)."
  isdigit c := c.isDigit
  digest token := "digest of " ++ token

/-- A user with a password and a complete profile. -/
def ada : User where
  pk := 1
  username := "ada"
  first_name := "Ada"
  last_name := "L"
  email := "ada@example.org"
  is_active := true
  password := some "first password"
  email_verified := true
  two_factor_enabled := false
  profile :=
    { phone := "", country := "", timezone := "UTC", bio := "", date_of_birth := none, gender := ""
      picture := none, terms_accepted_at := some 0 }

def adaAlone : Table User := Table.empty.create (fun pk => { ada with pk }) fun _ => rfl

/-- A refresh token and a reset token are issued, and the password changes on the identity page. -/
def identityRequests : List Request :=
  [.issue 1 "jti" false, .forgot "ada@example.org" "raw" true,
    .identity 1 "first password" "second password" "second password"]

/-- Both are still alive then. -/
theorem identity_leaves_credentials :
    ¬ ∀ requests t,
      (accountMachine .plain).Run (Accounts.start adaAlone 0) requests t →
      Machine.RunIf.Always (accountMachine .plain) OldDead (Accounts.start adaAlone 0)
        requests := by
  intro hall
  have halive : ((accountMachine .plain).exec (Accounts.start adaAlone 0) identityRequests).any
      (fun s => s.refresh.any fun token => token.superseded && token.live s.now) = true := by
    decide +kernel
  obtain ⟨t, hexec, hany⟩ := (Option.any_eq_true _ _).mp halive
  obtain ⟨token, htoken, hboth⟩ := List.any_eq_true.mp hany
  obtain ⟨hsup, hlive⟩ := Bool.and_eq_true_iff.mp hboth
  have hdead := (hall identityRequests t (Machine.exec_eq_some_iff.mp hexec)).last hexec
  rw [hdead.refresh token htoken hsup] at hlive
  cases hlive

/-- After a reset instead, none is. -/
theorem reset_leaves_none :
    ∃ t, (accountMachine .plain).Run (Accounts.start adaAlone 0)
        (identityRequests.take 2 ++ [.reset "raw" "second password" "second password" true]) t ∧
      (Machine.RunIf.Always (accountMachine .plain) OldDead (Accounts.start adaAlone 0)
          (identityRequests.take 2 ++ [.reset "raw" "second password" "second password" true]) ↔
        (accountMachine .plain).RunIf (LeavesNone .plain) (Accounts.start adaAlone 0)
          (identityRequests.take 2 ++ [.reset "raw" "second password" "second password" true])
          t) := by
  have hsome : ((accountMachine .plain).exec (Accounts.start adaAlone 0) (identityRequests.take 2 ++
      [.reset "raw" "second password" "second password" true])).isSome = true := by
    decide +kernel
  obtain ⟨t, ht⟩ := Machine.exists_run hsome
  exact ⟨t, ht, (old_credentials_dead_iff .plain adaAlone 0 ht).1⟩

end AlgoBot.Passwords
