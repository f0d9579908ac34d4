import AlgoBot.Auth.Passwords
import AlgoBot.Auth.RecoveryCodes

/-!
# The second factor of a session

A browser session carries a mark with the user whose second factor was checked in
it. The challenge page sets it after `verify_user_code`, the security center when
an authenticator is enrolled; logins flush, cycle or keep the session, and the
middleware signs out whoever has two-factor enabled and no mark of their own.
Token pairs are issued by the API logins, to marked sessions, and for refresh
tokens that say that the second factor was verified.

* `second_factor_required`: in every run a request of a user with two-factor
  enabled is let through only if a code of that user was accepted in its session,
  and a pair issued to one goes back to such a code.
* `recorded_serve`: no request records a code that was not accepted in it.
* `enrolment_and_refresh`: the code need not be one `verify_user_code` accepted,
  and a pair may be issued in a request without a code and without a session.
-/

namespace AlgoBot.TwoFactor

open AlgoBot.Core AlgoBot.Python
open AlgoBot.Auth (CodeEnv verifyUserCode validateToken generateRecoveryCodes)
open AlgoBot.Passwords (User Accounts issueRefresh blacklistAll refreshToken verifiedRefresh)

/-! ## Model -/

/-- The second factor of a user, next to the flag in the row. -/
structure Factor where
  two_factor_secret_encrypted : String
  two_factor_pending_secret_encrypted : String
  two_factor_recovery_codes : List Value

/-- How a code was accepted: by `verify_user_code`, or against the secret it put in force. -/
inductive Check
  | verified
  | enrolled
  deriving DecidableEq, Repr

/-- The keys of a session: the user with the hash it signed in by, the sign-in that waits for the
second factor, and the mark. -/
structure Session where
  user : Option (ℕ × Option String)
  pending_2fa_user_id : Option ℕ
  pending_2fa_started : Option ℤ
  mfa_verified_user_id : Option ℕ
  /-- For the record: whose codes were accepted since the session was created. -/
  accepted : List (ℕ × Check)
  deriving DecidableEq

def Session.empty : Session := ⟨none, none, none, none, []⟩

/-- What a pair was issued for. -/
inductive Grounds
  | password
  /-- `verify_user_code` accepted a code in the request. -/
  | code
  /-- The request came from a session in which these codes were accepted. -/
  | session (accepted : List (ℕ × Check))
  | refresh (jti : String)
  deriving DecidableEq

/-- A pair that was issued, and whether its user had two-factor enabled. -/
structure Issue where
  jti : String
  user : ℕ
  enabled : Bool
  grounds : Grounds
  deriving DecidableEq

structure State where
  accounts : Accounts
  factors : ℕ → Factor
  sessions : ℕ → Option Session
  issues : List Issue

/-! ### Sessions during a request -/

/-- The session of a request, and whether the request gives up its key. -/
structure Live where
  session : Session
  dropped : Bool

namespace Live

/-- `session.flush()`. -/
def flush : Live := ⟨Session.empty, true⟩

/-- `login`: a new session if this one is another user's, a new key if it is nobody's. -/
def login (live : Live) (user : User) : Live :=
  match live.session.user with
  | some (pk, hash) =>
      if pk ≠ user.pk ∨ hash ≠ user.password then
        ⟨{ Session.empty with user := some (user.pk, user.password) }, true⟩
      else live
  | none => ⟨{ live.session with user := some (user.pk, user.password) }, true⟩

/-- The sign-in waits for the second factor. -/
def await (live : Live) (user : User) (now : ℤ) : Live :=
  { live with
    session := { live.session with
      pending_2fa_user_id := some user.pk
      pending_2fa_started := some now } }

/-- It does no longer. -/
def clear (live : Live) : Live :=
  { live with
    session := { live.session with pending_2fa_user_id := none, pending_2fa_started := none } }

/-- The session is marked with the user. -/
def mark (live : Live) (user : User) : Live :=
  { live with session := { live.session with mfa_verified_user_id := some user.pk } }

/-- A code of the user was accepted. -/
def accept (live : Live) (user : User) (check : Check) : Live :=
  { live with
    session := { live.session with accepted := (user.pk, check) :: live.session.accepted } }

end Live

namespace State

/-- `int(timezone.now().timestamp())`. -/
def clock (s : State) : ℤ := s.accounts.now / 1000000

/-- The profile `verify_user_code` is called with. -/
def profile (s : State) (user : User) : Auth.Profile where
  two_factor_enabled := user.two_factor_enabled
  two_factor_secret_encrypted := (s.factors user.pk).two_factor_secret_encrypted
  two_factor_recovery_codes := (s.factors user.pk).two_factor_recovery_codes

def setFactor (s : State) (pk : ℕ) (factor : Factor) : State :=
  { s with factors := Function.update s.factors pk factor }

/-- The user's row with the flag. -/
def setEnabled (s : State) (user : User) (enabled : Bool) : State :=
  { s with
    accounts := { s.accounts with
      users := s.accounts.users.set { user with two_factor_enabled := enabled } } }

/-- The session's user, whose row must exist and be active. -/
def sessionUser (s : State) (session : Session) : Option (User × Option String) :=
  session.user.bind fun key =>
    ((s.accounts.users.get? key.1).filter fun user => user.is_active).map fun user => (user, key.2)

/-- `request.user`; the hash of the session must be that of the password still. -/
def requestUser (s : State) (session : Session) : Option User :=
  ((s.sessionUser session).filter fun found => found.2 == found.1.password).map Prod.fst

/-- The session of a request after `get_user`, which flushes one whose hash is another. -/
def opened (s : State) (sid : ℕ) : Live :=
  let session := (s.sessions sid).getD Session.empty
  if (s.sessionUser session).any fun found => found.2 != found.1.password then Live.flush
  else ⟨session, false⟩

/-- The session is saved after the response, under a new key if it gave up the old one. -/
def put (s : State) (sid newSid : ℕ) (live : Live) : ℕ → Option Session :=
  if live.dropped || (s.sessions sid).isNone then
    Function.update (Function.update s.sessions sid none) newSid
      (if live.session = Session.empty then none else some live.session)
  else Function.update s.sessions sid (some live.session)

end State

/-! ### `TwoFactorEnforcementMiddleware` -/

/-- `AUTH_EXEMPT_PATHS`. -/
def exemptPaths : List String :=
  ["/login/two-factor/", "/logout/", "/api/auth/login/", "/api/auth/token/",
    "/api/auth/token/refresh/", "/api/auth/register/", "/api/auth/logout/", "/register/",
    "/verify-email/", "/forgot-password/", "/reset-password/", "/health/", "/static/"]

def exempt (path : String) : Bool :=
  exemptPaths.any fun start => path == start || start.toList.isPrefixOf path.toList

/-- The user has no second factor, or it was checked in the session. -/
def admitted (session : Session) (user : User) : Bool :=
  !user.two_factor_enabled || session.mfa_verified_user_id == some user.pk

/-- The user the middleware signs out. -/
def challenged (session : Session) (user : Option User) (path : String) : Option User :=
  user.filter fun user => !exempt path && !admitted session user

variable (env : CodeEnv)

/-! ### `verify_user_code` and the credentials -/

/-- A call that consumes a recovery code, and the codes it writes; an exception writes nothing and
ends the request. -/
def verify (s : State) (user : User) (code : Text) : Bool × State :=
  match verifyUserCode env (s.profile user) (some (s.profile user)) code true s.accounts.now with
  | .ok (answer, some codes) =>
      (answer, s.setFactor user.pk
        { s.factors user.pk with two_factor_recovery_codes := codes })
  | .ok (answer, none) => (answer, s)
  | .error _ => (false, s)

/-- `authenticate`. -/
def authenticate (s : State) (username password : String) : Option User :=
  s.accounts.users.find? fun user =>
    user.username == username && user.checkPassword password && user.is_active

/-- The user of an address, if it is the only one. -/
def byEmail (s : State) (email : String) : Option User :=
  match s.accounts.users.rows.filter fun user =>
      env.host.lower user.email == env.host.lower email with
  | [user] => some user
  | _ => none

/-- The user of a name in any case, if it is the only one. -/
def byName (s : State) (username : String) : Option User :=
  match s.accounts.users.rows.filter fun user =>
      env.host.lower user.username == env.host.lower username with
  | [user] => some user
  | _ => none

/-- The user of an identifier and a password, as both login views look it up. -/
def identify (s : State) (identifier password : String) : Option User :=
  if identifier.toList.contains '@' then
    (byEmail env s identifier).bind fun user => authenticate s user.username password
  else
    match authenticate s identifier password with
    | some user => some user
    | none => (byName env s identifier).bind fun user => authenticate s user.username password

/-! ### The pages -/

/-- `login_page`, for a form. -/
def loginPage (s : State) (live : Live) (user : Option User) (identifier password : String)
    (allowed : Bool) : Live :=
  if user.isSome || !allowed then live
  else
    let identifier := strip identifier
    let found :=
      if identifier != "" && password != "" then identify env s identifier password else none
    match found with
    | none => { live with session := { live.session with pending_2fa_user_id := none } }
    | some user =>
        if live.session.pending_2fa_user_id.any fun pending => pending != user.pk then
          { live with session := { live.session with pending_2fa_user_id := none } }
        else if !user.email_verified then live
        else if user.two_factor_enabled then live.await user s.clock
        else
          Live.login { live with session := { live.session with pending_2fa_user_id := none } } user

/-- `two_factor_challenge_page`; `code` is nothing for a `GET`. -/
def challengePage (s : State) (live : Live) (cancel : Bool) (code : Option Text) (allowed : Bool) :
    State × Live :=
  if cancel then (s, live.clear)
  else
    match live.session.pending_2fa_user_id, live.session.pending_2fa_started with
    | some pending, some started =>
        if s.clock - started > 600 then (s, live.clear)
        else
          match (s.accounts.users.get? pending).filter fun user =>
              user.is_active && user.two_factor_enabled with
          | none => (s, live.clear)
          | some user =>
              match code with
              | none => (s, live)
              | some code =>
                  if !allowed then (s, live)
                  else
                    match verify env s user code with
                    | (true, s') => (s', ((live.clear.login user).accept user .verified).mark user)
                    | (false, s') => (s', live)
    | _, _ => (s, live)

/-- The end of `google_login_callback`, for the user its transaction came to. -/
def googleCallback (s : State) (live : Live) (resolved : Option ℕ) : Live :=
  match resolved.bind fun pk => (s.accounts.users.get? pk).filter fun user => user.is_active with
  | none => live
  | some user => if user.two_factor_enabled then live.await user s.clock else live.login user

/-- The broker's `callback`: a connection signs the session's own user in again. -/
def brokerCallback (live : Live) (user : Option User) (connected : Bool) : Live :=
  match user with
  | some user => if connected then live.login user else live
  | none => live

/-- The forms of the security center. `secret_encrypted` is nothing where the server has no key. -/
inductive SecurityAction
  | setup_2fa (current_password : String) (secret_encrypted : Option String)
  | verify_2fa (code : Text) (recovery_codes : List String)
  | disable_2fa (current_password : String) (code : Text)
  | regenerate_recovery_codes (current_password : String) (code : Text)
      (recovery_codes : List String)

/-- `not has_usable_password() or check_password(raw)`. -/
def passwordValid (user : User) (raw : String) : Bool :=
  !user.hasUsablePassword || user.checkPassword raw

/-- The secret that is being enrolled, if the code is one of it. -/
def enrols (s : State) (user : User) (code : Text) : Bool :=
  match env.decrypt (s.factors user.pk).two_factor_pending_secret_encrypted with
  | some secret => secret != "" && validateToken env secret code s.accounts.now
  | none => false

/-- Enrolment: the pending secret is in force and older refresh tokens are revoked. -/
def enrol (s : State) (user : User) (recovery_codes : List String) : State :=
  let s := (s.setEnabled user true).setFactor user.pk
    { two_factor_secret_encrypted := (s.factors user.pk).two_factor_pending_secret_encrypted
      two_factor_pending_secret_encrypted := ""
      two_factor_recovery_codes := generateRecoveryCodes env recovery_codes }
  { s with accounts := blacklistAll s.accounts user.pk }

/-- `security_workspace`, for a form; `allowed` is the rate limits' answer. -/
def securityCenter (s : State) (live : Live) (user : User) (allowed : Bool) :
    SecurityAction → State × Live
  | .setup_2fa current_password secret_encrypted =>
      match secret_encrypted with
      | some secret =>
          if user.two_factor_enabled || !passwordValid user current_password then (s, live)
          else
            (s.setFactor user.pk
              { s.factors user.pk with two_factor_pending_secret_encrypted := secret }, live)
      | none => (s, live)
  | .verify_2fa code recovery_codes =>
      if allowed && enrols env s user code then
        (enrol env s user recovery_codes, (live.accept user .enrolled).mark user)
      else (s, live)
  | .disable_2fa current_password code =>
      if !allowed || !passwordValid user current_password || !user.two_factor_enabled then (s, live)
      else
        match verify env s user code with
        | (true, s') =>
            ((s'.setEnabled user false).setFactor user.pk ⟨"", "", []⟩, live.accept user .verified)
        | (false, s') => (s', live)
  | .regenerate_recovery_codes current_password code recovery_codes =>
      if !allowed || !passwordValid user current_password || !user.two_factor_enabled then (s, live)
      else
        match verify env s user code with
        | (true, s') =>
            (s'.setFactor user.pk { s'.factors user.pk with
              two_factor_recovery_codes := generateRecoveryCodes env recovery_codes },
              live.accept user .verified)
        | (false, s') => (s', live)

/-- A new password, and the session that sets it signs in by it. -/
def changePassword (s : State) (live : Live) (user : User) (raw : String) : State × Live :=
  ({ s with accounts := Passwords.setPassword s.accounts user raw },
    ⟨{ live.session with user := some (user.pk, some raw) }, true⟩)

/-! ### Tokens -/

/-- `RefreshToken.for_user`, with the claim if two-factor is enabled. -/
def draw (s : State) (user : User) (jti : String) : State :=
  { s with accounts := issueRefresh s.accounts user.pk jti user.two_factor_enabled }

/-- The pair leaves with the response. -/
def hand (s : State) (user : User) (jti : String) (grounds : Grounds) : State :=
  { s with issues := ⟨jti, user.pk, user.two_factor_enabled, grounds⟩ :: s.issues }

/-- `browser_api_token`. A bearer token, given by its user and its claim, is looked at before the
session. -/
def browserApiToken (s : State) (live : Live) (user : Option User) (bearer : Option (ℕ × Bool))
    (jti : String) : State :=
  let user :=
    match bearer with
    | some (pk, mfa_verified) =>
        (s.accounts.users.get? pk).filter fun user =>
          user.is_active && (mfa_verified || !user.two_factor_enabled)
    | none => user
  match user with
  | none => s
  | some user =>
      if !admitted live.session user || !user.email_verified then s
      else hand (draw s user jti) user jti (.session live.session.accepted)

/-- `login_view`. -/
def loginView (s : State) (identifier password : String) (code : Text) (jti : String)
    (allowed : Bool) : State :=
  if !allowed || strip identifier == "" || password == "" then s
  else
    match identify env s (strip identifier) password with
    | none => s
    | some user =>
        if !user.email_verified then s
        else if user.two_factor_enabled then
          if code.isEmpty then s
          else
            match verify env s user code with
            | (true, s') => hand (draw s' user jti) user jti .code
            | (false, s') => s'
        else hand (draw s user jti) user jti .password

/-- The username `CustomTokenObtainPairSerializer` authenticates. -/
def obtainUsername (s : State) (identifier : String) : Option String :=
  if identifier == "" then none
  else if identifier.toList.contains '@' then
    (byEmail env s identifier).map fun user => user.username
  else if s.accounts.users.rows.any fun user => user.username == identifier then some identifier
  else some (((byName env s identifier).map fun user => user.username).getD identifier)

/-- `CustomTokenObtainPairSerializer.validate`; the pair is drawn before the code is asked for. -/
def obtainPair (s : State) (identifier password : String) (code : Text) (jti : String)
    (allowed : Bool) : State :=
  if !allowed then s
  else
    match (obtainUsername env s (strip identifier)).bind fun username =>
        authenticate s username password with
    | none => s
    | some user =>
        if !user.email_verified then draw s user jti
        else if user.two_factor_enabled then
          if code.isEmpty then draw s user jti
          else
            match verify env (draw s user jti) user code with
            | (true, s') => hand s' user jti .code
            | (false, s') => s'
        else hand (draw s user jti) user jti .password

/-- The pair was handed out with its refresh token, which `browser_api_token` keeps. -/
def State.disclosed (s : State) (jti : String) : Bool :=
  s.issues.any fun issue =>
    issue.jti == jti &&
      match issue.grounds with
      | .session _ => false
      | _ => true

/-- `CustomTokenRefreshSerializer.validate`; only a token that was handed out is presented. -/
def refreshPair (s : State) (jti newJti : String) : State :=
  if !s.disclosed jti then s
  else
    match (verifiedRefresh s.accounts jti).bind fun token => s.accounts.users.get? token.user with
    | none => s
    | some user =>
        match refreshToken s.accounts jti newJti with
        | .ok accounts => hand { s with accounts := accounts } user newJti (.refresh jti)
        | .error _ => s

/-! ### The system -/

/-- What a browser asks for. -/
inductive View
  | login (identifier password : String) (allowed : Bool)
  | challenge (cancel : Bool) (code : Option Text) (allowed : Bool)
  | google (resolved : Option ℕ)
  | broker (connected : Bool)
  | security (action : SecurityAction) (allowed : Bool)
  | password (raw : String)
  | browserToken (bearer : Option (ℕ × Bool)) (jti : String)
  | logout
  | other (path : String)

def View.path : View → String
  | .login .. => "/login/"
  | .challenge .. => "/login/two-factor/"
  | .google _ => "/auth/google/callback/"
  | .broker _ => "/callback/"
  | .security .. => "/operations/security/"
  | .password _ => "/account/identity/"
  | .browserToken .. => "/api/auth/browser-token/"
  | .logout => "/logout/"
  | .other path => path

/-- The view, past the middleware. -/
def serve (s : State) (live : Live) (user : Option User) : View → State × Live
  | .login identifier password allowed => (s, loginPage env s live user identifier password allowed)
  | .challenge cancel code allowed => challengePage env s live cancel code allowed
  | .google resolved => (s, googleCallback s live resolved)
  | .broker connected => (s, brokerCallback live user connected)
  | .security action allowed =>
      match user with
      | some user => securityCenter env s live user allowed action
      | none => (s, live)
  | .password raw =>
      match user with
      | some user => changePassword s live user raw
      | none => (s, live)
  | .browserToken bearer jti => (browserApiToken s live user bearer jti, live)
  | .logout => (s, Live.flush)
  | .other _ => (s, live)

/-- A request of a browser, from the middleware to the saved session. -/
def browse (s : State) (sid newSid : ℕ) (view : View) : State :=
  let live := s.opened sid
  let user := s.requestUser live.session
  match challenged live.session user view.path with
  | some user => { s with sessions := s.put sid newSid (Live.flush.await user s.clock) }
  | none =>
      let served := serve env s live user view
      { served.1 with sessions := s.put sid newSid served.2 }

inductive Action
  | browse (sid newSid : ℕ) (view : View)
  | login_view (identifier password : String) (code : Text) (jti : String) (allowed : Bool)
  | obtainPair (identifier password : String) (code : Text) (jti : String) (allowed : Bool)
  | refresh (jti newJti : String)
  /-- The rest of the application registers a user, or writes a row except for the flag. -/
  | register (user : User)
  | write (user : User)
  | wait (now : ℤ)
  /-- A session runs out or is revoked. -/
  | expire (sid : ℕ)

/-- The identifier of a new token is no other's. -/
def State.unissued (s : State) (jti : String) : Bool :=
  (s.accounts.refresh.all fun token => token.jti != jti) &&
    s.issues.all fun issue => issue.jti != jti

/-- The token a request would issue. -/
def Action.jti : Action → Option String
  | .browse _ _ (.browserToken _ jti) => some jti
  | .login_view _ _ _ jti _ => some jti
  | .obtainPair _ _ _ jti _ => some jti
  | .refresh _ newJti => some newJti
  | _ => none

def register (s : State) (user : User) : State :=
  { s with
    accounts := { s.accounts with
      users := s.accounts.users.create
        (fun pk => { user with pk := pk, two_factor_enabled := false }) fun _ => rfl }
    factors := Function.update s.factors s.accounts.users.nextPk ⟨"", "", []⟩ }

def write (s : State) (user : User) : State :=
  match s.accounts.users.get? user.pk with
  | some old => s.setEnabled user old.two_factor_enabled
  | none => s

def act (s : State) : Action → State
  | .browse sid newSid view => browse env s sid newSid view
  | .login_view identifier password code jti allowed =>
      loginView env s identifier password code jti allowed
  | .obtainPair identifier password code jti allowed =>
      obtainPair env s identifier password code jti allowed
  | .refresh jti newJti => refreshPair s jti newJti
  | .register user => register s user
  | .write user => write s user
  | .wait now => { s with accounts := { s.accounts with now := max s.accounts.now now } }
  | .expire sid => { s with sessions := Function.update s.sessions sid none }

/-- New sessions get a key that is free, and new tokens an identifier. -/
def enabled (s : State) (a : Action) : Bool :=
  (a.jti.all fun jti => s.unissued jti) &&
    match a with
    | .browse _ newSid _ => (s.sessions newSid).isNone
    | _ => true

def logins : Machine State Action where
  next s a := if enabled s a then some (act env s a) else none

/-! ## What is claimed of a state -/

namespace State

/-- A request to the path in the session is let through as one of the user. -/
def Serves (s : State) (sid : ℕ) (path : String) (user : User) : Prop :=
  s.requestUser (s.opened sid).session = some user ∧
    challenged (s.opened sid).session (some user) path = none

/-- Where a user has two-factor enabled, a request is let through only if a code of that user was
accepted in its session. -/
def Guarded (s : State) : Prop :=
  ∀ sid path user, s.Serves sid path user → user.two_factor_enabled = true →
    exempt path = false → ∃ check, (user.pk, check) ∈ (s.opened sid).session.accepted

/-- The same, for codes `verify_user_code` accepted. -/
def GuardedByVerify (s : State) : Prop :=
  ∀ sid path user, s.Serves sid path user → user.two_factor_enabled = true →
    exempt path = false → (user.pk, .verified) ∈ (s.opened sid).session.accepted

end State

/-- The pair goes back to a request with a code, or from a session in which one of the user's was
accepted. -/
inductive Vouched (issues : List Issue) : Issue → Prop
  | code {issue : Issue} (hgrounds : issue.grounds = .code) : Vouched issues issue
  | session {issue : Issue} {accepted : List (ℕ × Check)} {check : Check}
      (hgrounds : issue.grounds = .session accepted) (hcheck : (issue.user, check) ∈ accepted) :
      Vouched issues issue
  | refresh {issue old : Issue} (hold : old ∈ issues) (hgrounds : issue.grounds = .refresh old.jti)
      (huser : old.user = issue.user) (hvouched : Vouched issues old) : Vouched issues issue

/-- The pair was issued in a request with a code, or from a session with one of the user's that
`verify_user_code` accepted. -/
def Issue.Direct (issue : Issue) : Prop :=
  issue.grounds = .code ∨
    ∃ accepted, issue.grounds = .session accepted ∧ (issue.user, .verified) ∈ accepted

/-- No session is marked and no token has the claim. -/
structure State.Initial (s : State) : Prop where
  sessions : ∀ sid session, s.sessions sid = some session → session.mfa_verified_user_id = none
  refresh : ∀ token ∈ s.accounts.refresh, token.mfa_verified = false
  issues : s.issues = []

variable {env} {s s' t : State} {a : Action} {as : List Action} {user : User} {live : Live}

/-! ## The mark -/

/-- A code of the user in the mark was accepted in the session. -/
def Session.Marked (session : Session) : Prop :=
  ∀ pk, session.mfa_verified_user_id = some pk → ∃ check, (pk, check) ∈ session.accepted

theorem Session.marked_empty : Session.empty.Marked := by
  intro pk h
  cases h

namespace Live

theorem marked_login (h : live.session.Marked) : (live.login user).session.Marked := by
  unfold login
  split
  · split
    · intro pk hmark
      cases hmark
    · exact h
  · exact h

theorem marked_accept (h : live.session.Marked) (user : User) (check : Check) :
    (live.accept user check).session.Marked := by
  intro pk hmark
  rcases h pk hmark with ⟨old, hold⟩
  exact ⟨old, List.mem_cons_of_mem _ hold⟩

/-- A session is marked with the user whose code it has just taken. -/
theorem marked_mark (user : User) (check : Check) (live : Live) :
    ((live.accept user check).mark user).session.Marked := by
  intro pk hmark
  obtain rfl : user.pk = pk := Option.some.inj hmark
  exact ⟨check, List.mem_cons_self⟩

end Live

/-- A session that is saved was marked, or is the request's. -/
theorem State.put_cases {sid newSid k : ℕ} {session : Session}
    (h : s.put sid newSid live k = some session) :
    s.sessions k = some session ∨ session = live.session := by
  unfold State.put at h
  split at h
  · by_cases hnew : k = newSid
    · subst hnew
      rw [Function.update_self] at h
      split at h
      · cases h
      · exact Or.inr (Option.some.inj h).symm
    · rw [Function.update_of_ne hnew] at h
      by_cases hold : k = sid
      · subst hold
        simp at h
      · exact Or.inl (by rwa [Function.update_of_ne hold] at h)
  · by_cases hsid : k = sid
    · subst hsid
      rw [Function.update_self] at h
      exact Or.inr (Option.some.inj h).symm
    · exact Or.inl (by rwa [Function.update_of_ne hsid] at h)

/-- Every session carries the mark of a code that was accepted in it. -/
def State.Marked (s : State) : Prop := ∀ sid session, s.sessions sid = some session → session.Marked

theorem State.Marked.opened (h : s.Marked) (sid : ℕ) : (s.opened sid).session.Marked := by
  unfold State.opened
  simp only []
  split
  · exact Session.marked_empty
  · cases hsession : s.sessions sid with
    | none => exact Session.marked_empty
    | some session => exact h sid session hsession

theorem marked_loginPage (h : live.session.Marked) (found : Option User)
    (identifier password : String) (allowed : Bool) :
    (loginPage env s live found identifier password allowed).session.Marked := by
  unfold loginPage
  simp only []
  split
  · exact h
  · split
    · exact h
    · split_ifs
      · exact h
      · exact h
      · exact h
      · exact Live.marked_login h

theorem marked_challengePage (h : live.session.Marked) (cancel : Bool) (code : Option Text)
    (allowed : Bool) : (challengePage env s live cancel code allowed).2.session.Marked := by
  unfold challengePage
  split
  · exact h
  · split
    · split
      · exact h
      · split
        · exact h
        · split
          · exact h
          · split
            · exact h
            · split
              · exact Live.marked_mark _ _ _
              · exact h
    · exact h

theorem marked_googleCallback (h : live.session.Marked) (resolved : Option ℕ) :
    (googleCallback s live resolved).session.Marked := by
  unfold googleCallback
  split
  · exact h
  · split_ifs
    · exact h
    · exact Live.marked_login h

theorem marked_brokerCallback (h : live.session.Marked) (found : Option User) (connected : Bool) :
    (brokerCallback live found connected).session.Marked := by
  unfold brokerCallback
  split
  · split_ifs
    · exact Live.marked_login h
    · exact h
  · exact h

theorem marked_securityCenter (h : live.session.Marked) (allowed : Bool) (action : SecurityAction) :
    (securityCenter env s live user allowed action).2.session.Marked := by
  cases action with
  | setup_2fa current_password secret_encrypted =>
    cases secret_encrypted with
    | none => exact h
    | some secret =>
      simp only [securityCenter]
      split_ifs
      · exact h
      · exact h
  | verify_2fa code recovery_codes =>
    simp only [securityCenter]
    split_ifs
    · exact Live.marked_mark _ _ _
    · exact h
  | disable_2fa current_password code =>
    simp only [securityCenter]
    split_ifs
    · exact h
    · split
      · exact Live.marked_accept h user .verified
      · exact h
  | regenerate_recovery_codes current_password code recovery_codes =>
    simp only [securityCenter]
    split_ifs
    · exact h
    · split
      · exact Live.marked_accept h user .verified
      · exact h

/-- Every view leaves the mark to a code, the two that set it included. -/
theorem marked_serve (h : live.session.Marked) (found : Option User) (view : View) :
    (serve env s live found view).2.session.Marked := by
  cases view with
  | login identifier password allowed =>
    change (loginPage env s live found identifier password allowed).session.Marked
    exact marked_loginPage h found identifier password allowed
  | challenge cancel code allowed => exact marked_challengePage h cancel code allowed
  | google resolved => exact marked_googleCallback h resolved
  | broker connected => exact marked_brokerCallback h found connected
  | security action allowed =>
    cases found with
    | some user => exact marked_securityCenter h allowed action
    | none => exact h
  | password raw =>
    cases found with
    | some user => exact h
    | none => exact h
  | browserToken bearer jti => exact h
  | logout => exact Session.marked_empty
  | other path => exact h

/-! ### Where a code comes from -/

/-- The code of the user was accepted in the state: by `verify_user_code`, or as one of the secret
that is being enrolled. -/
def Accepts (env : CodeEnv) (s : State) (pk : ℕ) : Check → Prop
  | .verified => ∃ user code, user.pk = pk ∧ (verify env s user code).1 = true
  | .enrolled => ∃ user code, user.pk = pk ∧ enrols env s user code = true

/-- What is recorded after the view was recorded before, or was accepted in the request. -/
def Recorded (env : CodeEnv) (s : State) (before after : List (ℕ × Check)) : Prop :=
  ∀ pk check, (pk, check) ∈ after → (pk, check) ∈ before ∨ Accepts env s pk check

theorem Recorded.refl (accepted : List (ℕ × Check)) : Recorded env s accepted accepted :=
  fun _ _ h => Or.inl h

theorem recorded_login (live : Live) (user : User) :
    Recorded env s live.session.accepted (live.login user).session.accepted := by
  unfold Live.login
  split
  · split
    · intro pk check h
      cases h
    · exact Recorded.refl _
  · exact Recorded.refl _

theorem recorded_accept {before : List (ℕ × Check)} {check : Check}
    (h : Recorded env s before live.session.accepted) (hcheck : Accepts env s user.pk check) :
    Recorded env s before (live.accept user check).session.accepted := by
  intro pk check' hmem
  rcases List.mem_cons.mp hmem with heq | hmem
  · cases heq
    exact Or.inr hcheck
  · exact h pk check' hmem

/-- The session after a form that asks for a code. -/
theorem recorded_verified {f : State → State} {code : Text} {before : List (ℕ × Check)}
    {live' : Live} (h : Recorded env s before live.session.accepted)
    (h' : Recorded env s before live'.session.accepted) :
    Recorded env s before (match verify env s user code with
      | (true, s') => (f s', live'.accept user .verified)
      | (false, s') => (s', live)).2.session.accepted := by
  split
  · next s' heq =>
    refine recorded_accept h' ⟨user, code, rfl, ?_⟩
    rw [heq]
  · exact h

theorem recorded_challengePage (cancel : Bool) (code : Option Text) (allowed : Bool) :
    Recorded env s live.session.accepted
      (challengePage env s live cancel code allowed).2.session.accepted := by
  unfold challengePage
  split
  · exact Recorded.refl _
  · split
    · split
      · exact Recorded.refl _
      · split
        · exact Recorded.refl _
        · next user _ =>
          split
          · exact Recorded.refl _
          · next code =>
            split
            · exact Recorded.refl _
            · split
              · next s' heq =>
                have hlogin : Recorded env s live.session.accepted
                    (live.clear.login user).session.accepted := recorded_login live.clear user
                refine recorded_accept hlogin ⟨user, code, rfl, ?_⟩
                rw [heq]
              · exact Recorded.refl _
    · exact Recorded.refl _

theorem recorded_securityCenter (allowed : Bool) (action : SecurityAction) :
    Recorded env s live.session.accepted
      (securityCenter env s live user allowed action).2.session.accepted := by
  cases action with
  | setup_2fa current_password secret_encrypted =>
    cases secret_encrypted with
    | none => exact Recorded.refl _
    | some secret =>
      simp only [securityCenter]
      split_ifs
      · exact Recorded.refl _
      · exact Recorded.refl _
  | verify_2fa code recovery_codes =>
    simp only [securityCenter]
    split
    · next henrols =>
      exact recorded_accept (Recorded.refl _) ⟨user, code, rfl, (Bool.and_eq_true_iff.mp henrols).2⟩
    · exact Recorded.refl _
  | disable_2fa current_password code =>
    simp only [securityCenter]
    split
    · exact Recorded.refl _
    · exact recorded_verified
        (f := fun u => (u.setEnabled user false).setFactor user.pk ⟨"", "", []⟩)
        (Recorded.refl _) (Recorded.refl _)
  | regenerate_recovery_codes current_password code recovery_codes =>
    simp only [securityCenter]
    split
    · exact Recorded.refl _
    · exact recorded_verified
        (f := fun u => u.setFactor user.pk { u.factors user.pk with
          two_factor_recovery_codes := generateRecoveryCodes env recovery_codes })
        (Recorded.refl _) (Recorded.refl _)

/-- No view records a code that was not accepted. -/
theorem recorded_serve (found : Option User) (view : View) :
    Recorded env s live.session.accepted (serve env s live found view).2.session.accepted := by
  cases view with
  | login identifier password allowed =>
    simp only [serve, loginPage]
    split
    · exact Recorded.refl _
    · split
      · exact Recorded.refl _
      · split_ifs
        · exact Recorded.refl _
        · exact Recorded.refl _
        · exact Recorded.refl _
        · exact recorded_login _ _
  | challenge cancel code allowed => exact recorded_challengePage cancel code allowed
  | google resolved =>
    simp only [serve, googleCallback]
    split
    · exact Recorded.refl _
    · split
      · exact Recorded.refl _
      · exact recorded_login _ _
  | broker connected =>
    simp only [serve, brokerCallback]
    split
    · split
      · exact recorded_login _ _
      · exact Recorded.refl _
    · exact Recorded.refl _
  | security action allowed =>
    cases found with
    | some user => exact recorded_securityCenter allowed action
    | none => exact Recorded.refl _
  | password raw =>
    cases found with
    | some user => exact Recorded.refl _
    | none => exact Recorded.refl _
  | browserToken bearer jti => exact Recorded.refl _
  | logout =>
    intro pk check h
    cases h
  | other path => exact Recorded.refl _

/-! ## The pairs -/

/-- Nothing is drawn and nothing is handed out; tokens change their flags only. -/
structure Quiet (s s' : State) : Prop where
  sessions : s'.sessions = s.sessions
  issues : s'.issues = s.issues
  tokens : ∀ token' ∈ s'.accounts.refresh, ∃ token ∈ s.accounts.refresh, token.jti = token'.jti ∧
    token.user = token'.user ∧ token.mfa_verified = token'.mfa_verified

namespace Quiet

theorem of_eq (hsessions : s'.sessions = s.sessions) (hissues : s'.issues = s.issues)
    (hrefresh : s'.accounts.refresh = s.accounts.refresh) : Quiet s s' where
  sessions := hsessions
  issues := hissues
  tokens := by
    intro token htoken
    rw [hrefresh] at htoken
    exact ⟨token, htoken, rfl, rfl, rfl⟩

theorem refl (s : State) : Quiet s s := of_eq rfl rfl rfl

theorem trans {u : State} (h : Quiet s s') (h' : Quiet s' u) : Quiet s u where
  sessions := h'.sessions.trans h.sessions
  issues := h'.issues.trans h.issues
  tokens := by
    intro token' htoken'
    rcases h'.tokens token' htoken' with ⟨token, htoken, hjti, huser, hmfa⟩
    rcases h.tokens token htoken with ⟨old, hold, hjti', huser', hmfa'⟩
    exact ⟨old, hold, hjti'.trans hjti, huser'.trans huser, hmfa'.trans hmfa⟩

/-- A write of the flags of some tokens. -/
theorem of_map {f : Passwords.RefreshToken → Passwords.RefreshToken}
    (hf : ∀ token, (f token).jti = token.jti ∧ (f token).user = token.user ∧
      (f token).mfa_verified = token.mfa_verified)
    (hsessions : s'.sessions = s.sessions) (hissues : s'.issues = s.issues)
    (hrefresh : s'.accounts.refresh = s.accounts.refresh.map f) : Quiet s s' where
  sessions := hsessions
  issues := hissues
  tokens := by
    intro token' htoken'
    rw [hrefresh] at htoken'
    rcases List.mem_map.mp htoken' with ⟨token, htoken, rfl⟩
    exact ⟨token, htoken, (hf token).1.symm, (hf token).2.1.symm, (hf token).2.2.symm⟩

theorem verify (env : CodeEnv) (s : State) (user : User) (code : Text) :
    Quiet s (verify env s user code).2 := by
  unfold TwoFactor.verify
  split
  · exact of_eq rfl rfl rfl
  · exact refl s
  · exact refl s

theorem enrol (s : State) (user : User) (recovery_codes : List String) :
    Quiet s (enrol env s user recovery_codes) := by
  refine of_map (f := fun token =>
    if token.user == user.pk then { token with blacklisted := true } else token) ?_ rfl rfl rfl
  intro token
  split
  · exact ⟨rfl, rfl, rfl⟩
  · exact ⟨rfl, rfl, rfl⟩

theorem setPassword (s : State) (user : User) (raw : String) :
    Quiet s { s with accounts := Passwords.setPassword s.accounts user raw } := by
  refine of_map (f := fun token =>
    if token.user == user.pk then { token with superseded := true } else token) ?_ rfl rfl rfl
  intro token
  split
  · exact ⟨rfl, rfl, rfl⟩
  · exact ⟨rfl, rfl, rfl⟩

/-- A call of `verify_user_code` and what is written if it accepts the code. -/
theorem verified {f : State → State} {code : Text} (hf : ∀ u, Quiet u (f u)) (live live' : Live) :
    Quiet s (match TwoFactor.verify env s user code with
      | (true, s') => (f s', live')
      | (false, s') => (s', live)).1 := by
  have hverify := verify env s user code
  split
  · next s' heq =>
    rw [heq] at hverify
    exact hverify.trans (hf s')
  · next s' heq =>
    rw [heq] at hverify
    exact hverify

theorem challengePage (cancel : Bool) (code : Option Text) (allowed : Bool) :
    Quiet s (challengePage env s live cancel code allowed).1 := by
  unfold TwoFactor.challengePage
  split
  · exact refl s
  · split
    · split
      · exact refl s
      · split
        · exact refl s
        · next user _ =>
          split
          · exact refl s
          · next code =>
            split
            · exact refl s
            · have hverify := verify env s user code
              split
              · next s' heq =>
                rw [heq] at hverify
                exact hverify
              · next s' heq =>
                rw [heq] at hverify
                exact hverify
    · exact refl s

theorem securityCenter (allowed : Bool) (action : SecurityAction) :
    Quiet s (securityCenter env s live user allowed action).1 := by
  cases action with
  | setup_2fa current_password secret_encrypted =>
    cases secret_encrypted with
    | none => exact refl s
    | some secret =>
      simp only [TwoFactor.securityCenter]
      split
      · exact refl s
      · exact of_eq rfl rfl rfl
  | verify_2fa code recovery_codes =>
    simp only [TwoFactor.securityCenter]
    split
    · exact enrol s user recovery_codes
    · exact refl s
  | disable_2fa current_password code =>
    simp only [TwoFactor.securityCenter]
    split
    · exact refl s
    · exact verified (f := fun u => (u.setEnabled user false).setFactor user.pk ⟨"", "", []⟩)
        (fun _ => of_eq rfl rfl rfl) live _
  | regenerate_recovery_codes current_password code recovery_codes =>
    simp only [TwoFactor.securityCenter]
    split
    · exact refl s
    · exact verified (f := fun u => u.setFactor user.pk { u.factors user.pk with
        two_factor_recovery_codes := generateRecoveryCodes env recovery_codes })
        (fun _ => of_eq rfl rfl rfl) live _

end Quiet

theorem Vouched.mono {issues issues' : List Issue} {issue : Issue} (h : Vouched issues issue)
    (hsub : ∀ old ∈ issues, old ∈ issues') : Vouched issues' issue := by
  induction h with
  | code hgrounds => exact .code hgrounds
  | session hgrounds hcheck => exact .session hgrounds hcheck
  | refresh hold hgrounds huser _ ih => exact .refresh (hsub _ hold) hgrounds huser ih

/-- The pairs handed out and the tokens in the table belong together: a pair of a user with
two-factor enabled goes back to a code, and so does one whose refresh token has the claim. -/
structure Pairs (s : State) : Prop where
  tokens : ∀ token ∈ s.accounts.refresh, ∀ issue ∈ s.issues, issue.jti = token.jti →
    issue.user = token.user ∧ (token.mfa_verified = true → Vouched s.issues issue)
  issues : ∀ issue ∈ s.issues, issue.enabled = true → Vouched s.issues issue

namespace Pairs

theorem initial (hs : s.Initial) : Pairs s where
  tokens := by simp [hs.issues]
  issues := by simp [hs.issues]

theorem quiet (hs : Pairs s) (h : Quiet s s') : Pairs s' where
  tokens := by
    intro token' htoken' issue hissue hjti
    rw [h.issues] at hissue ⊢
    rcases h.tokens token' htoken' with ⟨token, htoken, hjti', huser, hmfa⟩
    rcases hs.tokens token htoken issue hissue (hjti.trans hjti'.symm) with ⟨huser', hvouched⟩
    refine ⟨huser'.trans huser, fun hclaim => hvouched ?_⟩
    rw [hmfa, hclaim]
  issues := by
    rw [h.issues]
    exact hs.issues

/-- A new token that is nobody's pair. -/
theorem drawn (hs : Pairs s) (pk : ℕ) (claim : Bool) {jti : String}
    (hnew : s.unissued jti = true) :
    Pairs { s with accounts := issueRefresh s.accounts pk jti claim } where
  tokens := by
    intro token htoken issue hissue hjti
    rcases List.mem_cons.mp htoken with rfl | htoken
    · have hne := List.all_eq_true.mp (Bool.and_eq_true_iff.mp hnew).2 issue hissue
      simp [hjti] at hne
    · exact hs.tokens token htoken issue hissue hjti
  issues := hs.issues

/-- A pair is handed out. -/
theorem hand (hs : Pairs s) {user : User} {jti : String} {grounds : Grounds}
    (htokens : ∀ token ∈ s.accounts.refresh, token.jti = jti → token.user = user.pk ∧
      (token.mfa_verified = true →
        Vouched s.issues ⟨jti, user.pk, user.two_factor_enabled, grounds⟩))
    (henabled : user.two_factor_enabled = true →
      Vouched s.issues ⟨jti, user.pk, user.two_factor_enabled, grounds⟩) :
    Pairs (hand s user jti grounds) := by
  have hsub : ∀ old ∈ s.issues, old ∈ (TwoFactor.hand s user jti grounds).issues :=
    fun old hold => List.mem_cons_of_mem _ hold
  constructor
  case tokens =>
    intro token htoken issue hissue hjti
    rcases List.mem_cons.mp hissue with rfl | hissue
    · rcases htokens token htoken hjti.symm with ⟨huser, hvouched⟩
      exact ⟨huser.symm, fun hclaim => (hvouched hclaim).mono hsub⟩
    · rcases hs.tokens token htoken issue hissue hjti with ⟨huser, hvouched⟩
      exact ⟨huser, fun hclaim => (hvouched hclaim).mono hsub⟩
  case issues =>
    intro issue hissue hissueEnabled
    rcases List.mem_cons.mp hissue with rfl | hissue
    · exact (henabled hissueEnabled).mono hsub
    · exact (hs.issues issue hissue hissueEnabled).mono hsub

/-- A pair is drawn and handed out; `u` is the state in between. -/
theorem issue (hs : Pairs s) {u : State} {user : User} {claim : Bool} {jti : String}
    {grounds : Grounds} (hnew : s.unissued jti = true)
    (hu : Quiet { s with accounts := issueRefresh s.accounts user.pk jti claim } u)
    (hclaim : claim = true →
      Vouched u.issues ⟨jti, user.pk, user.two_factor_enabled, grounds⟩)
    (henabled : user.two_factor_enabled = true →
      Vouched u.issues ⟨jti, user.pk, user.two_factor_enabled, grounds⟩) :
    Pairs (TwoFactor.hand u user jti grounds) := by
  refine ((hs.drawn user.pk claim hnew).quiet hu).hand ?_ henabled
  intro token' htoken' hjti
  -- the token is the one that was drawn
  rcases hu.tokens token' htoken' with ⟨token, htoken, hjti', huser, hmfa⟩
  rcases List.mem_cons.mp htoken with rfl | htoken
  · refine ⟨huser.symm, fun hmarked => hclaim ?_⟩
    rw [← hmarked, ← hmfa]
  · have hne := List.all_eq_true.mp (Bool.and_eq_true_iff.mp hnew).1 token htoken
    simp [hjti', hjti] at hne

end Pairs

theorem Quiet.unissued (h : Quiet s s') {jti : String} (hnew : s.unissued jti = true) :
    s'.unissued jti = true := by
  rcases Bool.and_eq_true_iff.mp hnew with ⟨htokens, hissues⟩
  refine Bool.and_eq_true_iff.mpr ⟨List.all_eq_true.mpr ?_, ?_⟩
  · intro token' htoken'
    rcases h.tokens token' htoken' with ⟨token, htoken, hjti, _⟩
    rw [← hjti]
    exact List.all_eq_true.mp htokens token htoken
  · rw [h.issues]
    exact hissues

/-! ### The requests that issue a pair -/

/-- What a marked session is admitted by. -/
theorem vouched_of_admitted {issues : List Issue} {session : Session} {jti : String}
    (hmarked : session.Marked) (hadmitted : admitted session user = true)
    (henabled : user.two_factor_enabled = true) :
    Vouched issues ⟨jti, user.pk, user.two_factor_enabled, .session session.accepted⟩ := by
  have hmark : session.mfa_verified_user_id = some user.pk := by
    simpa [admitted, henabled] using hadmitted
  rcases hmarked user.pk hmark with ⟨check, hcheck⟩
  exact .session rfl hcheck

theorem pairs_browserApiToken (hs : Pairs s) (hmarked : live.session.Marked) (found : Option User)
    (bearer : Option (ℕ × Bool)) {jti : String} (hnew : s.unissued jti = true) :
    Pairs (browserApiToken s live found bearer jti) := by
  unfold browserApiToken
  simp only []
  split
  · exact hs
  · next user _ =>
    split
    · exact hs
    · next hchecks =>
      have hadmitted : admitted live.session user = true := by
        cases hadmitted : admitted live.session user with
        | true => rfl
        | false => simp [hadmitted] at hchecks
      have hvouched : user.two_factor_enabled = true → Vouched s.issues
          ⟨jti, user.pk, user.two_factor_enabled, .session live.session.accepted⟩ :=
        vouched_of_admitted hmarked hadmitted
      exact hs.issue hnew (Quiet.refl _) hvouched hvouched

/-- A pair that is issued for a code, where two-factor is enabled, and else for the password. -/
theorem pairs_loginView (hs : Pairs s) (identifier password : String) (code : Text) {jti : String}
    (allowed : Bool) (hnew : s.unissued jti = true) :
    Pairs (loginView env s identifier password code jti allowed) := by
  unfold loginView
  split
  · exact hs
  · split
    · exact hs
    · next user _ =>
      split
      · exact hs
      · split
        · split
          · exact hs
          · have hverify := Quiet.verify env s user code
            split
            · next s' heq =>
              rw [heq] at hverify
              exact (hs.quiet hverify).issue (hverify.unissued hnew) (Quiet.refl _)
                (fun _ => .code rfl) fun _ => .code rfl
            · next s' heq =>
              rw [heq] at hverify
              exact hs.quiet hverify
        · next hdisabled =>
          exact hs.issue hnew (Quiet.refl _) (fun henabled => absurd henabled hdisabled)
            fun henabled => absurd henabled hdisabled

theorem pairs_obtainPair (hs : Pairs s) (identifier password : String) (code : Text) {jti : String}
    (allowed : Bool) (hnew : s.unissued jti = true) :
    Pairs (obtainPair env s identifier password code jti allowed) := by
  have hdraw : ∀ user : User, Pairs (draw s user jti) := fun user => hs.drawn _ _ hnew
  unfold obtainPair
  split
  · exact hs
  · split
    · exact hs
    · next user _ =>
      split
      · exact hdraw user
      · split
        · split
          · exact hdraw user
          · have hverify := Quiet.verify env (draw s user jti) user code
            split
            · next s' heq =>
              rw [heq] at hverify
              exact hs.issue hnew hverify (fun _ => .code rfl) fun _ => .code rfl
            · next s' heq =>
              rw [heq] at hverify
              exact (hdraw user).quiet hverify
        · next hdisabled =>
          exact hs.issue hnew (Quiet.refl _) (fun henabled => absurd henabled hdisabled)
            fun henabled => absurd henabled hdisabled

/-- The rotation of a refresh token blacklists it. -/
def retire (s : State) (jti : String) : State :=
  { s with
    accounts := { s.accounts with
      refresh := s.accounts.refresh.map fun t =>
        if t.jti == jti then { t with blacklisted := true } else t } }

theorem quiet_retire (s : State) (jti : String) : Quiet s (retire s jti) := by
  refine Quiet.of_map (f := fun token =>
    if token.jti == jti then { token with blacklisted := true } else token) ?_ rfl rfl rfl
  intro token
  split
  · exact ⟨rfl, rfl, rfl⟩
  · exact ⟨rfl, rfl, rfl⟩

/-- What the token library takes, and the pair it gives for that. -/
theorem refreshToken_cases {accounts : Accounts} {jti newJti : String}
    (h : refreshToken s.accounts jti newJti = .ok accounts) :
    ∃ token ∈ s.accounts.refresh, token.jti = jti ∧
      verifiedRefresh s.accounts jti = some token ∧
      ∃ owner, s.accounts.users.get? token.user = some owner ∧
        (owner.two_factor_enabled = true → token.mfa_verified = true) ∧
        accounts = issueRefresh (retire s jti).accounts owner.pk newJti token.mfa_verified := by
  unfold refreshToken at h
  split at h
  · cases h
  · next token htoken =>
    split at h
    · cases h
    · next owner howner =>
      split at h
      · cases h
      · next hclaim =>
        split at h
        · cases h
        · cases h
          rcases Option.filter_eq_some_iff.mp htoken with ⟨hfind, _⟩
          have hjti : token.jti = jti := by simpa using List.find?_some hfind
          have hpk : owner.pk = token.user := by
            have hrow := Table.of_find? howner
            simp only [Bool.and_eq_true, beq_iff_eq] at hrow
            exact hrow.1
          refine ⟨token, List.mem_of_find?_eq_some hfind, hjti, htoken, owner, ?_, ?_, rfl⟩
          · exact Table.get?_eq_some.mpr ⟨Table.mem_of_find? howner, hpk⟩
          · intro henabled
            simpa [henabled] using hclaim

theorem exists_of_disclosed {jti : String} (h : s.disclosed jti = true) :
    ∃ old ∈ s.issues, old.jti = jti := by
  rcases List.any_eq_true.mp h with ⟨old, hold, hissue⟩
  exact ⟨old, hold, by simpa using (Bool.and_eq_true_iff.mp hissue).1⟩

theorem pairs_refreshPair (hs : Pairs s) {jti newJti : String} (hnew : s.unissued newJti = true) :
    Pairs (refreshPair s jti newJti) := by
  unfold refreshPair
  split
  · exact hs
  · next hdisclosed =>
    split
    · exact hs
    · next user huser =>
      split
      · next accounts hok =>
        rcases refreshToken_cases hok with
          ⟨token, htoken, hjti, hverified, owner, howner, hclaim, rfl⟩
        obtain rfl : owner = user := by
          rw [hverified, Option.bind_some, howner] at huser
          exact Option.some.inj huser
        -- the pair that is presented was handed out, and its token is this one
        rcases exists_of_disclosed (by simpa using hdisclosed) with ⟨old, hold, holdJti⟩
        rcases hs.tokens token htoken old hold (holdJti.trans hjti.symm) with ⟨holdUser, hvouched⟩
        have hrefreshed : token.mfa_verified = true →
            Vouched s.issues ⟨newJti, owner.pk, owner.two_factor_enabled, .refresh jti⟩ := by
          intro hmfa
          refine .refresh hold ?_ (holdUser.trans (Table.pk_of_get? howner).symm) (hvouched hmfa)
          rw [holdJti]
        have hretired := quiet_retire s jti
        exact (hs.quiet hretired).issue (hretired.unissued hnew) (Quiet.refl _) hrefreshed
          fun henabled => hrefreshed (hclaim henabled)
      · exact hs

/-! ### The API does not touch the sessions -/

/-- Whatever is done with the answer of `verify_user_code`. -/
theorem sessions_of_verify {f g : State → State} {code : Text}
    (hf : ∀ u, (f u).sessions = u.sessions) (hg : ∀ u, (g u).sessions = u.sessions) :
    (match verify env s user code with
      | (true, s') => f s'
      | (false, s') => g s').sessions = s.sessions := by
  have hverify := (Quiet.verify env s user code).sessions
  split
  · next s' heq =>
    rw [heq] at hverify
    exact (hf s').trans hverify
  · next s' heq =>
    rw [heq] at hverify
    exact (hg s').trans hverify

theorem sessions_loginView (identifier password : String) (code : Text) (jti : String)
    (allowed : Bool) :
    (loginView env s identifier password code jti allowed).sessions = s.sessions := by
  unfold loginView
  split
  · rfl
  · split
    · rfl
    · next user _ =>
      split
      · rfl
      · split
        · split
          · rfl
          · exact sessions_of_verify (f := fun u => hand (draw u user jti) user jti .code)
              (g := fun u => u) (fun _ => rfl) fun _ => rfl
        · rfl

theorem sessions_obtainPair (identifier password : String) (code : Text) (jti : String)
    (allowed : Bool) :
    (obtainPair env s identifier password code jti allowed).sessions = s.sessions := by
  unfold obtainPair
  split
  · rfl
  · split
    · rfl
    · next user _ =>
      split
      · rfl
      · split
        · split
          · rfl
          · exact sessions_of_verify (s := draw s user jti) (f := fun u => hand u user jti .code)
              (g := fun u => u) (fun _ => rfl) fun _ => rfl
        · rfl

theorem sessions_refreshPair (jti newJti : String) :
    (refreshPair s jti newJti).sessions = s.sessions := by
  unfold refreshPair
  split
  · rfl
  · split
    · rfl
    · split
      · rfl
      · rfl

/-! ## Runs -/

/-- The invariant. -/
structure Sound (s : State) : Prop where
  marked : s.Marked
  pairs : Pairs s

namespace Sound

theorem initial (hs : s.Initial) : Sound s where
  marked := by
    intro sid session hsession pk hmark
    rw [hs.sessions sid session hsession] at hmark
    cases hmark
  pairs := Pairs.initial hs

/-- A step that leaves the sessions. -/
theorem of_sessions (hs : Sound s) (hsessions : s'.sessions = s.sessions) (hpairs : Pairs s') :
    Sound s' where
  marked := by
    intro sid session hsession
    rw [hsessions] at hsession
    exact hs.marked sid session hsession
  pairs := hpairs

/-- A request leaves the sessions it does not save, and saves one with the mark of a code. -/
theorem put (hs : Sound s) (sid newSid : ℕ) (hlive : live.session.Marked) (hpairs : Pairs s') :
    Sound { s' with sessions := s.put sid newSid live } where
  marked := by
    intro k session hsession
    rcases State.put_cases hsession with hold | rfl
    · exact hs.marked k session hold
    · exact hlive
  pairs := ⟨hpairs.tokens, hpairs.issues⟩

theorem pairs_serve (hs : Sound s) (hlive : live.session.Marked) (found : Option User) (view : View)
    (hnew : ∀ bearer jti, view = .browserToken bearer jti → s.unissued jti = true) :
    Pairs (serve env s live found view).1 := by
  cases view with
  | login identifier password allowed => exact hs.pairs
  | challenge cancel code allowed => exact hs.pairs.quiet (Quiet.challengePage cancel code allowed)
  | google resolved => exact hs.pairs
  | broker connected => exact hs.pairs
  | security action allowed =>
    cases found with
    | some user => exact hs.pairs.quiet (Quiet.securityCenter allowed action)
    | none => exact hs.pairs
  | password raw =>
    cases found with
    | some user => exact hs.pairs.quiet (Quiet.setPassword s user raw)
    | none => exact hs.pairs
  | browserToken bearer jti =>
    exact pairs_browserApiToken hs.pairs hlive found bearer (hnew bearer jti rfl)
  | logout => exact hs.pairs
  | other path => exact hs.pairs

theorem browse (hs : Sound s) (sid newSid : ℕ) (view : View)
    (hnew : ∀ bearer jti, view = .browserToken bearer jti → s.unissued jti = true) :
    Sound (browse env s sid newSid view) := by
  have hopened := hs.marked.opened sid
  unfold TwoFactor.browse
  simp only []
  split
  · -- the middleware signs the user out
    exact hs.put sid newSid Session.marked_empty hs.pairs
  · exact hs.put sid newSid (marked_serve hopened _ view) (hs.pairs_serve hopened _ view hnew)

theorem step (hs : Sound s) (h : (logins env).next s a = some s') : Sound s' := by
  rcases Option.ite_none_right_eq_some.mp h with ⟨henabled, hact⟩
  obtain rfl := Option.some.inj hact
  rcases Bool.and_eq_true_iff.mp henabled with ⟨hnew, _⟩
  cases a with
  | browse sid newSid view =>
    refine hs.browse sid newSid view ?_
    rintro bearer jti rfl
    simpa [Action.jti] using hnew
  | login_view identifier password code jti allowed =>
    have hjti : s.unissued jti = true := by simpa [Action.jti] using hnew
    change Sound (loginView env s identifier password code jti allowed)
    exact hs.of_sessions (sessions_loginView identifier password code jti allowed)
      (pairs_loginView hs.pairs identifier password code allowed hjti)
  | obtainPair identifier password code jti allowed =>
    have hjti : s.unissued jti = true := by simpa [Action.jti] using hnew
    change Sound (obtainPair env s identifier password code jti allowed)
    exact hs.of_sessions (sessions_obtainPair identifier password code jti allowed)
      (pairs_obtainPair hs.pairs identifier password code allowed hjti)
  | refresh jti newJti =>
    exact hs.of_sessions (sessions_refreshPair jti newJti)
      (pairs_refreshPair hs.pairs (by simpa [Action.jti] using hnew))
  | register user => exact hs.of_sessions rfl ⟨hs.pairs.tokens, hs.pairs.issues⟩
  | write user =>
    have hquiet : Quiet s (write s user) := by
      unfold write
      split
      · exact Quiet.of_eq rfl rfl rfl
      · exact Quiet.refl s
    exact hs.of_sessions hquiet.sessions (hs.pairs.quiet hquiet)
  | wait now => exact hs.of_sessions rfl ⟨hs.pairs.tokens, hs.pairs.issues⟩
  | expire sid =>
    refine ⟨?_, hs.pairs.tokens, hs.pairs.issues⟩
    intro k session hsession
    by_cases hk : k = sid
    · subst hk
      simp [act] at hsession
    · exact hs.marked k session (by simpa [act, Function.update_of_ne hk] using hsession)

/-- Who is let through has the mark, and the mark has its code. -/
theorem guarded (hs : Sound s) : s.Guarded := by
  rintro sid path user ⟨_, hthrough⟩ henabled hexempt
  have hadmitted : admitted (s.opened sid).session user = true := by
    by_contra hno
    simp [challenged, hexempt, hno] at hthrough
  have hmark : (s.opened sid).session.mfa_verified_user_id = some user.pk := by
    simpa [admitted, henabled] using hadmitted
  exact hs.marked.opened sid user.pk hmark

end Sound

/-- In every run of logins, callbacks, challenges, the security center and the token views, a user
with two-factor enabled is let through only where a code of that user was accepted in the session,
and every pair issued to one goes back to such a code. -/
theorem second_factor_required (hs : s.Initial) (hrun : (logins env).Run s as t) :
    Machine.RunIf.Always (logins env)
      (fun u => u.Guarded ∧ ∀ issue ∈ u.issues, issue.enabled = true → Vouched u.issues issue)
      s as := by
  rintro before rest u rfl hu
  have hsound : Sound u := hu.invariant (fun _ _ _ _ hs h => hs.step h) (Sound.initial hs)
  exact ⟨hsound.guarded, hsound.pairs.issues⟩

/-! ## Enrolment and refresh -/

/-- An environment for examples: secrets are stored as they are, and every code of six digits is
the current one. -/
def anyCode : CodeEnv :=
  { CodeEnv.plain with
    decrypt := some
    totp := fun _ _ _ => true }

/-- One user with a password and a verified address, and nothing else. -/
def adaOnly : State where
  accounts := Accounts.start Passwords.adaAlone 0
  factors := fun _ => ⟨"", "", []⟩
  sessions := fun _ => none
  issues := []

theorem initial_adaOnly : adaOnly.Initial where
  sessions := fun _ _ h => nomatch h
  refresh := fun _ h => nomatch h
  issues := rfl

/-- The user signs in and enrols an authenticator. -/
def enrolment : List Action :=
  [.browse 1 2 (.login "ada" "first password" true),
    .browse 2 3 (.security (.setup_2fa "first password" (some "secret")) true),
    .browse 2 3 (.security (.verify_2fa (Text.ofString "123456") ["ABCDE12345"]) true)]

/-- A pair for a code, and another for its refresh token. -/
def refreshing : List Action :=
  enrolment ++
    [.login_view "ada" "first password" (Text.ofString "123456") "first" true,
      .refresh "first" "second"]

theorem second_factor_refreshed : ∃ t, (logins anyCode).Run adaOnly refreshing t ∧
    Machine.RunIf.Always (logins anyCode)
      (fun u => u.Guarded ∧ ∀ issue ∈ u.issues, issue.enabled = true → Vouched u.issues issue)
      adaOnly refreshing := by
  have hsome : ((logins anyCode).exec adaOnly refreshing).isSome = true := by decide +kernel
  obtain ⟨t, ht⟩ := Machine.exists_run hsome
  exact ⟨t, ht, second_factor_required initial_adaOnly ht⟩

/-- The code that is checked at the enrolment never goes through `verify_user_code`, and a refresh
token is exchanged without a code and without a session. -/
theorem enrolment_and_refresh :
    ¬ Machine.RunIf.Always (logins anyCode) State.GuardedByVerify adaOnly enrolment ∧
      ¬ Machine.RunIf.Always (logins anyCode)
        (fun u => ∀ issue ∈ u.issues, issue.enabled = true → issue.Direct) adaOnly refreshing := by
  constructor
  · intro halways
    have hexec : ((logins anyCode).exec adaOnly enrolment).any (fun t =>
        (t.requestUser (t.opened 2).session).any (fun user => user.two_factor_enabled &&
          (challenged (t.opened 2).session (some user) "/dashboard/").isNone) &&
        ((t.opened 2).session.accepted == [(1, .enrolled)])) = true := by decide +kernel
    obtain ⟨t, ht, hboth⟩ := (Option.any_eq_true _ _).mp hexec
    obtain ⟨huser, haccepted⟩ := Bool.and_eq_true_iff.mp hboth
    obtain ⟨user, hfound, huser⟩ := (Option.any_eq_true _ _).mp huser
    obtain ⟨henabled, hthrough⟩ := Bool.and_eq_true_iff.mp huser
    have hserves : t.Serves 2 "/dashboard/" user :=
      ⟨hfound, Option.isNone_iff_eq_none.mp hthrough⟩
    have hverified := halways.last ht 2 "/dashboard/" user hserves henabled (by decide +kernel)
    rw [eq_of_beq haccepted] at hverified
    simp at hverified
  · intro halways
    have hexec : ((logins anyCode).exec adaOnly refreshing).any (fun t =>
        t.issues.any fun issue => issue.enabled && issue.grounds == .refresh "first") = true := by
      decide +kernel
    obtain ⟨t, ht, hissue⟩ := (Option.any_eq_true _ _).mp hexec
    obtain ⟨issue, hmem, hboth⟩ := List.any_eq_true.mp hissue
    obtain ⟨henabled, hgrounds⟩ := Bool.and_eq_true_iff.mp hboth
    have hgrounds := eq_of_beq hgrounds
    rcases halways.last ht issue hmem henabled with hcode | ⟨accepted, hsession, _⟩
    · rw [hgrounds] at hcode
      cases hcode
    · rw [hgrounds] at hsession
      cases hsession

end AlgoBot.TwoFactor
