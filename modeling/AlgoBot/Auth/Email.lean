import AlgoBot.Core.Machine
import AlgoBot.Core.Table
import AlgoBot.Python.Value

/-!
# E-mail addresses and what proves them

An account's address is written by registration, by a first Google sign-in, by
the broker's identity if it is blank, and by the token of an address change;
the flag `email_verified` by both kinds of tokens and by Google. A token is
bound to its user and, for a change, to the new address; the account keeps the
digest of one token, so a new one of either kind ends the one before.

* `verified_email_proved`: in every state of every run a verified address was
  proved by a token mailed to it or by Google's claim for it; a token succeeds
  at most once, and never after a newer one was issued for the same purpose.
-/

namespace AlgoBot.Emails

open AlgoBot.Core AlgoBot.Python

/-! ## Accounts and tokens -/

inductive Purpose
  | verify_email
  | change_email
  deriving DecidableEq, Repr

/-- The payload `_send_verification` signs, with the time of the signature. -/
structure Token where
  uid : ℕ
  purpose : Purpose
  nonce : ℕ
  email : Option String
  issued_at : ℕ
  deriving DecidableEq, Repr

/-- A `User` with its profile. The stored digest is given by the token it was made from. -/
structure Account where
  pk : ℕ
  email : String
  is_active : Bool
  email_verified : Bool
  email_verified_at : Option ℕ
  email_verification_token : Option Token
  email_verification_token_created_at : Option ℕ
  deriving DecidableEq, Repr

instance : HasPk Account := ⟨Account.pk⟩

/-- The tables, the clock in microseconds, and what happened: the tokens issued, newest first, the
messages that went out, the tokens that succeeded and Google's claims by user. -/
structure Mailing where
  accounts : Table Account
  identities : List (String × ℕ)
  now : ℕ
  issued : List Token
  mail : List (String × Token)
  used : List Token
  claims : List (ℕ × String)

/-- What the views call: text, `validate_email` and the user manager's `normalize_email`, which
lowers the domain. -/
structure MailHost extends CaseHost where
  lower_lower : ∀ s, lower (lower s) = lower s
  validate_email : String → Bool
  normalize_email : String → String
  normalize_lower : ∀ s, normalize_email (lower s) = lower s

variable (host : MailHost)

/-- `str(address or "").strip().lower()`. -/
def norm (address : String) : String := host.lower (strip address)

/-- `email__iexact`. -/
def sameEmail (a b : String) : Bool := host.lower a == host.lower b

/-- `User.objects.filter(email__iexact=email).exclude(pk=pk).exists()`. -/
def taken (s : Mailing) (email : String) (pk : Option ℕ) : Bool :=
  s.accounts.rows.any fun other => sameEmail host other.email email && some other.pk != pk

/-- `VERIFICATION_RESEND_COOLDOWN`, and the age a signature may have. -/
def resendCooldown : ℕ := 60 * 1000000
def maxAge : ℕ := 24 * 60 * 60 * 1000000

/-! ## The requests -/

/-- `_send_verification`. `mailed` says that the provider took the message; without an address there
is nothing to take. -/
def sendVerification (s : Mailing) (account : Account) (recipient : Option String)
    (purpose : Purpose) (nonce : ℕ) (mailed : Bool) : Mailing :=
  let token : Token := ⟨account.pk, purpose, nonce, recipient, s.now⟩
  let address := norm host (recipient.getD account.email)
  { s with
    accounts := s.accounts.set { account with
      email_verification_token := some token
      email_verification_token_created_at := some s.now }
    issued := token :: s.issued
    mail := if mailed && address != "" then (address, token) :: s.mail else s.mail }

/-- The row `create_user` makes. -/
def newAccount (email : String) (email_verified_at : Option ℕ) (pk : ℕ) : Account where
  pk := pk
  email := host.normalize_email email
  is_active := true
  email_verified := email_verified_at.isSome
  email_verified_at := email_verified_at
  email_verification_token := none
  email_verification_token_created_at := none

/-- `register_page` and `register` of the API; `refusal` is what the checks of the other fields
say. -/
def register (s : Mailing) (email : String) (refusal : Option String) (nonce : ℕ)
    (mailed : Bool) : Except String Mailing :=
  let email := norm host email
  if email = "" then .error "Username, email, and password are required"
  else if refusal ≠ none then .error (refusal.getD "")
  else if !host.validate_email email then .error "Enter a valid email address."
  else if taken host s email none then
    .error ("An account could not be created with those details. If you already have an " ++
      "account, sign in or use account recovery.")
  else
    .ok (sendVerification host
      { s with accounts := s.accounts.create (newAccount host email none) fun _ => rfl }
      (newAccount host email none s.accounts.nextPk) none .verify_email nonce mailed)

/-- `remaining` of the resend timer, in whole seconds. -/
def remaining (created_at : Option ℕ) (now : ℕ) : ℕ :=
  match created_at with
  | none => 0
  | some created_at => (created_at + resendCooldown - now) / 1000000

/-- `verify_email_page` posted without a token. -/
def resend (s : Mailing) (email : String) (allowed : Bool) (nonce : ℕ) (mailed : Bool) :
    Except String Mailing :=
  let email := norm host email
  let found := if allowed then
    s.accounts.rows.filter fun account => sameEmail host account.email email && account.is_active
  else []
  match found with
  | [account] =>
      if account.email_verified then .error "already_verified"
      else if remaining account.email_verification_token_created_at s.now ≠ 0 then
        .error ("Please wait for the resend timer to finish before requesting another " ++
          "verification email.")
      else .ok (sendVerification host s account none .verify_email nonce mailed)
  | _ => .error "no_matching_active_account"

/-- `account_identity_page` with an address; `refusal` is what its other checks say. -/
def changeEmail (s : Mailing) (account : Account) (email : String) (refusal : Option String)
    (nonce : ℕ) (mailed : Bool) : Except String Mailing :=
  let email := norm host email
  if refusal ≠ none then .error (refusal.getD "")
  else if email = "" || email == norm host account.email then
    .error "No email change was requested."
  else if !host.validate_email email then .error "Enter a valid email address."
  else if taken host s email (some account.pk) then
    .error "That email address is already registered."
  else .ok (sendVerification host s account (some email) .change_email nonce mailed)

/-- The saves of a token that has done its work, or can do none. -/
def Account.spent (account : Account) : Account :=
  { account with
    email_verification_token := none
    email_verification_token_created_at := none }

def Account.verified (account : Account) (now : ℕ) : Account :=
  { account with email_verified := true, email_verified_at := some now }

/-- `profile` of a token: its signature is young enough, and its digest is the stored one. -/
def tokenAccount (s : Mailing) (token : Token) : Option Account :=
  if s.now - token.issued_at / 1000000 * 1000000 ≤ maxAge then
    (s.accounts.get? token.uid).filter fun account =>
      account.email_verification_token == some token && account.is_active
  else none

/-- `verify_email_page` posted with a token. -/
def verify (s : Mailing) (token : Token) : Except String Mailing :=
  match tokenAccount s token with
  | none => .error "That verification link is invalid, expired, or has already been used."
  | some account =>
      match token.purpose with
      | .verify_email =>
          if account.email ≠ "" ∧ account.email_verified = false then
            .ok { s with
              accounts := s.accounts.set (account.spent.verified s.now)
              used := token :: s.used }
          else .error "That verification link is invalid, expired, or has already been used."
      | .change_email =>
          let pending := norm host (token.email.getD "")
          if pending = "" ∨ host.validate_email pending = false then
            .error "That verification link is invalid, expired, or has already been used."
          else if taken host s pending (some account.pk) then
            -- refused, but the token is gone
            .ok { s with accounts := s.accounts.set account.spent }
          else
            .ok { s with
              accounts := s.accounts.set { account.spent.verified s.now with email := pending }
              used := token :: s.used }

/-- The claims of a Google ID token the callback looks at. -/
structure GoogleClaims where
  sub : String
  email : String
  email_verified : Bool

/-- `google_login_callback` once the ID token is verified; `refusal` is what its checks of state,
nonce, session and username say, `link` the account that asked to link. -/
def googleLogin (s : Mailing) (claims : GoogleClaims) (link : Option Account)
    (refusal : Option String) : Except String Mailing :=
  let subject := strip claims.sub
  let email := norm host claims.email
  if refusal ≠ none then .error (refusal.getD "")
  else if subject = "" || email = "" || !claims.email_verified then
    .error "Google did not provide a verified email identity."
  else
    match link, s.identities.lookup subject with
    | some account, owner =>
        if !account.email_verified then
          .error "Verify your AlgoBot email before linking Google sign-in."
        else
          match owner with
          | some user =>
              if user ≠ account.pk then
                .error "That Google identity is already linked to another AlgoBot account."
              else .ok s
          | none =>
              if s.identities.any fun identity => identity.2 == account.pk then
                .error "The Google identity could not be linked safely. Please try again."
              else .ok { s with identities := (subject, account.pk) :: s.identities }
    | none, some user =>
        match s.accounts.get? user with
        | none => .error "The Google identity could not be linked safely. Please try again."
        | some account =>
            if !account.is_active then .error "This AlgoBot account is disabled. Contact support."
            else if !account.email_verified && norm host account.email == email then
              .ok { s with
                accounts := s.accounts.set (account.verified s.now)
                claims := (account.pk, email) :: s.claims }
            else .ok { s with claims := (account.pk, email) :: s.claims }
    | none, none =>
        if taken host s email none then
          .error ("An AlgoBot account already uses this email. Sign in to that account first, " ++
            "then explicitly link Google from Account Identity.")
        else
          .ok { s with
            accounts := s.accounts.create (newAccount host email (some s.now)) fun _ => rfl
            identities := (subject, s.accounts.nextPk) :: s.identities
            claims := (s.accounts.nextPk, email) :: s.claims }

/-- `sync_deriv_user_identity`, its address. -/
def syncIdentity (s : Mailing) (account : Account) (email : String) : Mailing :=
  let email := norm host email
  if email ≠ "" ∧ strip account.email = "" then
    if taken host s email (some account.pk) then s
    else { s with accounts := s.accounts.set { account with email := email } }
  else s

/-! ## Runs -/

inductive Request
  | register (email : String) (refusal : Option String) (nonce : ℕ) (mailed : Bool)
  | resend (email : String) (allowed : Bool) (nonce : ℕ) (mailed : Bool)
  | changeEmail (user : ℕ) (email : String) (refusal : Option String) (nonce : ℕ) (mailed : Bool)
  | verify (token : Token)
  | google (claims : GoogleClaims) (link : Option ℕ) (refusal : Option String)
  | sync (user : ℕ) (email : String)
  | tick (elapsed : ℕ)

/-- What a view of a signed-in user does with the account of that user. -/
def asUser (s : Mailing) (user : ℕ) (view : Account → Except String Mailing) :
    Except String Mailing :=
  match s.accounts.get? user with
  | none => .error "Authentication credentials were not provided."
  | some account => view account

def respond (s : Mailing) : Request → Except String Mailing
  | .register email refusal nonce mailed => register host s email refusal nonce mailed
  | .resend email allowed nonce mailed => resend host s email allowed nonce mailed
  | .changeEmail user email refusal nonce mailed =>
      asUser s user fun account => changeEmail host s account email refusal nonce mailed
  | .verify token => verify host s token
  | .google claims none refusal => googleLogin host s claims none refusal
  | .google claims (some user) refusal =>
      asUser s user fun account => googleLogin host s claims (some account) refusal
  | .sync user email => asUser s user fun account => .ok (syncIdentity host s account email)
  | .tick elapsed => .ok { s with now := s.now + elapsed }

/-- The random source does not repeat a nonce, and a token comes from a message that went out: no
other text carries a signature. -/
def possible (s : Mailing) : Request → Bool
  | .register _ _ nonce _ => s.issued.all fun token => token.nonce != nonce
  | .resend _ _ nonce _ => s.issued.all fun token => token.nonce != nonce
  | .changeEmail _ _ _ nonce _ => s.issued.all fun token => token.nonce != nonce
  | .verify token => s.mail.any fun message => message.2 == token
  | _ => true

/-- A refused request leaves everything as it was. -/
def mailing : Machine Mailing Request where
  next s request :=
    if possible s request then
      match respond host s request with
      | .ok s' => some s'
      | .error _ => some s
    else none

/-! ## The claim -/

/-- The address was proved by a token mailed to it, or by Google's claim for it. -/
def Proved (s : Mailing) (account : Account) : Prop :=
  (∃ token ∈ s.used, (account.email, token) ∈ s.mail ∧ token.uid = account.pk) ∨
    (account.pk, account.email) ∈ s.claims

def AllProved (s : Mailing) : Prop :=
  ∀ account ∈ s.accounts, account.email_verified = true → Proved s account

/-- How often the step makes the token succeed. -/
def successes (token : Token) (s : Mailing) (request : Request) : ℕ :=
  match (mailing host).next s request with
  | some s' => s'.used.count token - s.used.count token
  | none => 0

/-- No newer token was issued to the user for the same purpose. -/
def Newest (s : Mailing) (token : Token) : Prop :=
  s.issued.find? (fun other => other.uid == token.uid && other.purpose == token.purpose) =
    some token

/-- Before the run: no address is verified, no token is out, and addresses are as the views store
them. -/
structure Clean (s : Mailing) : Prop where
  accounts : ∀ account ∈ s.accounts, norm host account.email = account.email ∧
    account.email_verified = false ∧ account.email_verification_token = none
  issued : s.issued = []
  mail : s.mail = []
  used : s.used = []

/-! ## The invariant -/

section Text

theorem norm_norm (address : String) : norm host (norm host address) = norm host address := by
  unfold norm
  rw [← host.lower_strip, strip_strip, host.lower_lower]

theorem normalize_norm (address : String) :
    host.normalize_email (norm host address) = norm host address :=
  host.normalize_lower _

/-- A stored address without text is empty. -/
theorem eq_empty_of_strip {address : String} (hnorm : norm host address = address)
    (hblank : strip address = "") : address = "" := by
  have hlower : host.lower "" = "" := host.lower_ascii "" rfl
  rw [← hnorm, norm, hblank, hlower]

end Text

variable {host}

/-- What is known of one account. -/
structure RowInv (host : MailHost) (s : Mailing) (account : Account) : Prop where
  normal : norm host account.email = account.email
  slot : ∀ token, account.email_verification_token = some token →
    token.uid = account.pk ∧ token ∉ s.used ∧
      s.issued.find? (fun other => other.uid == account.pk) = some token
  /-- A token that waits was mailed to the address it verifies. -/
  waiting : ∀ token address, account.email_verification_token = some token →
    (address, token) ∈ s.mail → token.purpose = .verify_email →
      account.email_verified = false → address = account.email
  proved : account.email_verified = true → account.email ≠ "" ∧ Proved s account

structure Inv (host : MailHost) (s : Mailing) : Prop where
  rows : ∀ account ∈ s.accounts, RowInv host s account
  mail : ∀ address token, (address, token) ∈ s.mail → address ≠ "" ∧ token ∈ s.issued ∧
    (token.purpose = .change_email → norm host (token.email.getD "") = address)
  used : ∀ token ∈ s.used, token ∈ s.issued

/-- What happened to others says nothing new about the account. -/
structure Aside (s s' : Mailing) (pk : ℕ) : Prop where
  issued : s'.issued.find? (fun other => other.uid == pk) =
    s.issued.find? (fun other => other.uid == pk)
  mail : ∀ message ∈ s'.mail, message ∈ s.mail ∨ message.2.uid ≠ pk
  used : ∀ token ∈ s'.used, token ∈ s.used ∨ token.uid ≠ pk

/-- The records only grow. -/
structure Grows (s s' : Mailing) : Prop where
  mail : ∀ message ∈ s.mail, message ∈ s'.mail
  used : ∀ token ∈ s.used, token ∈ s'.used
  claims : ∀ claim ∈ s.claims, claim ∈ s'.claims

theorem Proved.grow {s s' : Mailing} {account : Account} (h : Proved s account)
    (hgrow : Grows s s') : Proved s' account := by
  rcases h with ⟨token, hused, hmail, huid⟩ | hclaim
  · exact Or.inl ⟨token, hgrow.used token hused, hgrow.mail _ hmail, huid⟩
  · exact Or.inr (hgrow.claims _ hclaim)

theorem RowInv.aside {s s' : Mailing} {account : Account} (h : RowInv host s account)
    (haside : Aside s s' account.pk) (hgrow : Grows s s') : RowInv host s' account where
  normal := h.normal
  slot := by
    intro token hslot
    obtain ⟨huid, hunused, hlatest⟩ := h.slot token hslot
    refine ⟨huid, ?_, haside.issued.trans hlatest⟩
    intro hused
    rcases haside.used token hused with hold | hother
    · exact hunused hold
    · exact hother huid
  waiting := by
    intro token address hslot hmail
    rcases haside.mail _ hmail with hold | hother
    · exact h.waiting token address hslot hold
    · exact absurd (h.slot token hslot).1 hother
  proved := by
    intro hverified
    obtain ⟨hne, hproved⟩ := h.proved hverified
    exact ⟨hne, hproved.grow hgrow⟩

/-- Nothing of what the invariant is about happened. -/
theorem Aside.refl (s s' : Mailing) (pk : ℕ) (hissued : s'.issued = s.issued)
    (hmail : s'.mail = s.mail) (hused : s'.used = s.used) : Aside s s' pk where
  issued := by rw [hissued]
  mail := by
    intro message hmessage
    rw [hmail] at hmessage
    exact Or.inl hmessage
  used := by
    intro token htoken
    rw [hused] at htoken
    exact Or.inl htoken

theorem Grows.of_eq {s s' : Mailing} (hmail : s'.mail = s.mail) (hused : s'.used = s.used)
    (hclaims : ∀ claim ∈ s.claims, claim ∈ s'.claims) : Grows s s' where
  mail := by
    intro message hmessage
    rw [hmail]
    exact hmessage
  used := by
    intro token htoken
    rw [hused]
    exact htoken
  claims := hclaims

/-- One row is written: the others are as they were. -/
theorem Inv.write {s s' : Mailing} {account : Account} (row : Account) (h : Inv host s)
    (hmem : account ∈ s.accounts) (hpk : row.pk = account.pk)
    (haccounts : s'.accounts = s.accounts.set row)
    (haside : ∀ pk, pk ≠ account.pk → Aside s s' pk) (hgrow : Grows s s')
    (hrow : RowInv host s' row)
    (hmail : ∀ address token, (address, token) ∈ s'.mail → address ≠ "" ∧ token ∈ s'.issued ∧
      (token.purpose = .change_email → norm host (token.email.getD "") = address))
    (hused : ∀ token ∈ s'.used, token ∈ s'.issued) : Inv host s' where
  rows := by
    rw [haccounts]
    refine (Table.forall_mem_set hmem hpk.symm ?_).mpr hrow
    intro other hother hne
    refine (h.rows other hother).aside (haside other.pk ?_) hgrow
    rw [← hpk]
    exact hne
  mail := hmail
  used := hused

/-- One row is written, and nothing was issued, mailed or used. -/
theorem Inv.rewrite {s s' : Mailing} {account : Account} (row : Account) (h : Inv host s)
    (hmem : account ∈ s.accounts) (hpk : row.pk = account.pk)
    (haccounts : s'.accounts = s.accounts.set row) (hissued : s'.issued = s.issued)
    (hmail : s'.mail = s.mail) (hused : s'.used = s.used)
    (hclaims : ∀ claim ∈ s.claims, claim ∈ s'.claims) (hrow : RowInv host s' row) :
    Inv host s' := by
  refine h.write row hmem hpk haccounts (fun pk _ => Aside.refl s s' pk hissued hmail hused)
    (Grows.of_eq hmail hused hclaims) hrow ?_ ?_
  · rw [hmail, hissued]
    exact h.mail
  · rw [hused, hissued]
    exact h.used

/-! ## What a request keeps -/

section Requests

variable {s : Mailing} {account : Account} {nonce : ℕ} {mailed : Bool}

/-- A token with a fresh nonce was not issued before. -/
theorem not_mem_issued {token : Token}
    (hfresh : (s.issued.all fun other => other.nonce != token.nonce) = true) :
    token ∉ s.issued := by
  intro hmem
  have hne := List.all_eq_true.mp hfresh token hmem
  simp at hne

theorem inv_sendVerification (h : Inv host s) (hmem : account ∈ s.accounts)
    {recipient : Option String} {purpose : Purpose}
    (hpurpose : purpose = .change_email ↔ recipient.isSome = true)
    (hfresh : (s.issued.all fun token => token.nonce != nonce) = true) :
    Inv host (sendVerification host s account recipient purpose nonce mailed) := by
  let token : Token := ⟨account.pk, purpose, nonce, recipient, s.now⟩
  have hnew : token ∉ s.issued := not_mem_issued hfresh
  have hrow := h.rows account hmem
  -- what the new mailbox holds
  have hmailbox : ∀ message ∈ (sendVerification host s account recipient purpose nonce mailed).mail,
      message ∈ s.mail ∨
        message = (norm host (recipient.getD account.email), token) ∧
          norm host (recipient.getD account.email) ≠ "" := by
    intro message hmessage
    simp only [sendVerification] at hmessage
    split at hmessage
    · next hsent =>
      rcases List.mem_cons.mp hmessage with heq | hold
      · exact Or.inr ⟨heq, by simpa using (Bool.and_eq_true_iff.mp hsent).2⟩
      · exact Or.inl hold
    · exact Or.inl hmessage
  have hgrow : Grows s (sendVerification host s account recipient purpose nonce mailed) := by
    refine ⟨?_, fun _ hused => hused, fun _ hclaim => hclaim⟩
    intro message hmessage
    simp only [sendVerification]
    split
    · exact List.mem_cons_of_mem _ hmessage
    · exact hmessage
  refine h.write { account with
      email_verification_token := some token
      email_verification_token_created_at := some s.now } hmem rfl rfl ?_ hgrow ?_ ?_ ?_
  · intro pk hpk
    refine ⟨?_, ?_, fun _ hused => Or.inl hused⟩
    · exact List.find?_cons_of_neg (by simpa using hpk.symm)
    · intro message hmessage
      rcases hmailbox message hmessage with hold | ⟨rfl, _⟩
      · exact Or.inl hold
      · exact Or.inr hpk.symm
  · refine ⟨hrow.normal, ?_, ?_, ?_⟩
    · intro slot hslot
      obtain rfl : token = slot := Option.some.inj hslot
      refine ⟨rfl, fun hused => hnew (h.used _ hused), ?_⟩
      exact List.find?_cons_of_pos (by simp)
    · intro slot address hslot hmail hverify _
      obtain rfl : token = slot := Option.some.inj hslot
      rcases hmailbox _ hmail with hold | ⟨heq, _⟩
      · exact absurd (h.mail address token hold).2.1 hnew
      · -- a verification goes to the address of the account
        have hnone : recipient = none := by
          cases recipient with
          | none => rfl
          | some e =>
            have hchange := hpurpose.mpr rfl
            rw [show purpose = .verify_email from hverify] at hchange
            cases hchange
        rw [(Prod.mk.inj heq).1, hnone]
        exact hrow.normal
    · intro hverified
      obtain ⟨hne, hproved⟩ := hrow.proved hverified
      exact ⟨hne, hproved.grow hgrow⟩
  · intro address other hmail
    rcases hmailbox _ hmail with hold | ⟨heq, hne⟩
    · obtain ⟨hne, hissued, hchange⟩ := h.mail address other hold
      exact ⟨hne, List.mem_cons_of_mem _ hissued, hchange⟩
    · obtain ⟨rfl, rfl⟩ := Prod.mk.inj heq
      refine ⟨hne, List.mem_cons_self, ?_⟩
      intro hchange
      obtain ⟨e, rfl⟩ := Option.isSome_iff_exists.mp (hpurpose.mp hchange)
      rfl
  · intro other hused
    exact List.mem_cons_of_mem _ (h.used other hused)

/-- Another row, with a normal address, nothing outstanding, and a proof if it is verified. -/
theorem inv_create (h : Inv host s) {row : ℕ → Account} (hpk : ∀ pk, (row pk).pk = pk)
    {identities : List (String × ℕ)} {claims : List (ℕ × String)}
    (hclaims : ∀ claim ∈ s.claims, claim ∈ claims)
    (hrow : RowInv host { s with
      accounts := s.accounts.create row hpk, identities, claims } (row s.accounts.nextPk)) :
    Inv host { s with accounts := s.accounts.create row hpk, identities, claims } where
  rows := by
    intro other hother
    rcases List.mem_cons.mp hother with rfl | hold
    · exact hrow
    · exact (h.rows other hold).aside (Aside.refl _ _ _ rfl rfl rfl) (Grows.of_eq rfl rfl hclaims)
  mail := h.mail
  used := h.used

theorem rowInv_newAccount {s' : Mailing} (email : String) (verified_at : Option ℕ) (pk : ℕ)
    (hproved : verified_at.isSome = true →
      norm host email ≠ "" ∧ Proved s' (newAccount host (norm host email) verified_at pk)) :
    RowInv host s' (newAccount host (norm host email) verified_at pk) where
  normal := by
    simp only [newAccount, normalize_norm, norm_norm]
  slot := by
    intro token hslot
    cases hslot
  waiting := by
    intro token address hslot
    cases hslot
  proved := by
    intro hverified
    obtain ⟨hne, hclaim⟩ := hproved hverified
    refine ⟨?_, hclaim⟩
    simpa only [newAccount, normalize_norm] using hne

theorem inv_register (h : Inv host s) {s' : Mailing} {email : String} {refusal : Option String}
    (hfresh : (s.issued.all fun token => token.nonce != nonce) = true)
    (hok : register host s email refusal nonce mailed = .ok s') : Inv host s' := by
  simp only [register] at hok
  split at hok
  · cases hok
  split at hok
  · cases hok
  split at hok
  · cases hok
  split at hok
  · cases hok
  obtain rfl := Except.ok.inj hok
  refine inv_sendVerification ?_ List.mem_cons_self (by simp) hfresh
  exact inv_create h _ (fun _ hclaim => hclaim)
    (rowInv_newAccount email none _ fun hsome => by cases hsome)

theorem inv_resend (h : Inv host s) {s' : Mailing} {email : String} {allowed : Bool}
    (hfresh : (s.issued.all fun token => token.nonce != nonce) = true)
    (hok : resend host s email allowed nonce mailed = .ok s') : Inv host s' := by
  simp only [resend] at hok
  split at hok
  · next account hfound =>
    split at hok
    · cases hok
    split at hok
    · cases hok
    obtain rfl := Except.ok.inj hok
    refine inv_sendVerification h ?_ (by simp) hfresh
    have hmem : account ∈ (if allowed then s.accounts.rows.filter fun account =>
        sameEmail host account.email (norm host email) && account.is_active else []) := by
      rw [hfound]
      exact List.mem_singleton.mpr rfl
    split at hmem
    · exact (List.mem_filter.mp hmem).1
    · cases hmem
  · cases hok

theorem inv_changeEmail (h : Inv host s) (hmem : account ∈ s.accounts) {s' : Mailing}
    {email : String} {refusal : Option String}
    (hfresh : (s.issued.all fun token => token.nonce != nonce) = true)
    (hok : changeEmail host s account email refusal nonce mailed = .ok s') : Inv host s' := by
  simp only [changeEmail] at hok
  split at hok
  · cases hok
  split at hok
  · cases hok
  split at hok
  · cases hok
  split at hok
  · cases hok
  obtain rfl := Except.ok.inj hok
  exact inv_sendVerification h hmem (by simp) hfresh

theorem inv_syncIdentity (h : Inv host s) (hmem : account ∈ s.accounts) (email : String) :
    Inv host (syncIdentity host s account email) := by
  have hrow := h.rows account hmem
  simp only [syncIdentity]
  split
  · next hblank =>
    split
    · exact h
    · have hempty : account.email = "" := eq_empty_of_strip host hrow.normal hblank.2
      refine h.rewrite { account with email := norm host email } hmem rfl rfl rfl rfl rfl
        (fun _ hclaim => hclaim) ?_
      refine ⟨norm_norm host email, hrow.slot, ?_, ?_⟩
      · -- nothing was mailed to a blank address
        intro token address hslot hmail hverify hno
        have haddress := hrow.waiting token address hslot hmail hverify hno
        rw [hempty] at haddress
        exact absurd haddress (h.mail address token hmail).1
      · intro hverified
        exact absurd hempty (hrow.proved hverified).1
  · exact h

/-! ### Tokens -/

/-- What the check of a token establishes. -/
theorem of_tokenAccount {token : Token} (h : tokenAccount s token = some account) :
    account ∈ s.accounts ∧ account.email_verification_token = some token := by
  simp only [tokenAccount] at h
  split at h
  · obtain ⟨hget, hcheck⟩ := Option.filter_eq_some_iff.mp h
    obtain ⟨hslot, _⟩ := Bool.and_eq_true_iff.mp hcheck
    exact ⟨(Table.get?_eq_some.mp hget).1, by simpa using hslot⟩
  · cases h

/-- What a token that is taken does. -/
theorem verify_cases {token : Token} (hok : verify host s token = .ok s') :
    ∃ account, tokenAccount s token = some account ∧
      ((token.purpose = .verify_email ∧ account.email ≠ "" ∧ account.email_verified = false ∧
        s' = { s with
          accounts := s.accounts.set (account.spent.verified s.now)
          used := token :: s.used }) ∨
      (token.purpose = .change_email ∧ s' = { s with accounts := s.accounts.set account.spent }) ∨
      (token.purpose = .change_email ∧ s' = { s with
        accounts := s.accounts.set { account.spent.verified s.now with
          email := norm host (token.email.getD "") }
        used := token :: s.used })) := by
  -- the equation of `verify` would make the kernel count the microseconds of the age
  have hverify : verify = verify := rfl
  conv at hverify =>
    rhs
    delta verify
  rw [hverify] at hok
  beta_reduce at hok
  cases hfound : tokenAccount s token with
  | none =>
    rw [hfound] at hok
    cases hok
  | some account =>
    rw [hfound] at hok
    refine ⟨account, rfl, ?_⟩
    cases hpurpose : token.purpose with
    | verify_email =>
      simp only [hpurpose] at hok
      split at hok
      · next hcheck => exact Or.inl ⟨rfl, hcheck.1, hcheck.2, (Except.ok.inj hok).symm⟩
      · cases hok
    | change_email =>
      simp only [hpurpose] at hok
      split at hok
      · cases hok
      split at hok
      · exact Or.inr (Or.inl ⟨rfl, (Except.ok.inj hok).symm⟩)
      · exact Or.inr (Or.inr ⟨rfl, (Except.ok.inj hok).symm⟩)

/-- A token that is taken is the latest of its user and has not been taken before. -/
theorem of_verify (h : Inv host s) {token : Token} {s' : Mailing}
    (hok : verify host s token = .ok s') :
    token ∉ s.used ∧ s.issued.find? (fun other => other.uid == token.uid) = some token := by
  obtain ⟨account, hfound, _⟩ := verify_cases hok
  obtain ⟨hmem, hslot⟩ := of_tokenAccount hfound
  obtain ⟨huid, hunused, hlatest⟩ := (h.rows account hmem).slot token hslot
  rw [huid]
  exact ⟨hunused, hlatest⟩

/-- The account's row after a token succeeded. -/
theorem inv_succeed (h : Inv host s) (hmem : account ∈ s.accounts) {token : Token} {email : String}
    (hslot : account.email_verification_token = some token) (hne : email ≠ "")
    (hnorm : norm host email = email) (hmail : (email, token) ∈ s.mail) :
    Inv host { s with
      accounts := s.accounts.set { account.spent.verified s.now with email := email }
      used := token :: s.used } := by
  obtain ⟨huid, hunused, hlatest⟩ := (h.rows account hmem).slot token hslot
  refine h.write { account.spent.verified s.now with email := email } hmem rfl rfl ?_ ?_ ?_
    h.mail ?_
  · intro pk hpk
    refine ⟨rfl, fun message hmessage => Or.inl hmessage, ?_⟩
    intro other hother
    rcases List.mem_cons.mp hother with rfl | hold
    · refine Or.inr ?_
      rw [huid]
      exact hpk.symm
    · exact Or.inl hold
  · exact ⟨fun _ hmessage => hmessage, fun _ hused => List.mem_cons_of_mem _ hused,
      fun _ hclaim => hclaim⟩
  · refine ⟨hnorm, ?_, ?_, ?_⟩
    · intro other hother
      cases hother
    · intro other address hother
      cases hother
    · intro _
      exact ⟨hne, Or.inl ⟨token, List.mem_cons_self, hmail, huid⟩⟩
  · intro other hother
    rcases List.mem_cons.mp hother with rfl | hold
    · exact List.mem_of_find?_eq_some hlatest
    · exact h.used other hold

/-- A token that was mailed to somebody proves the address it is used for. -/
theorem inv_verify (h : Inv host s) {token : Token} {s' : Mailing}
    (hmailed : ∃ address, (address, token) ∈ s.mail) (hok : verify host s token = .ok s') :
    Inv host s' := by
  obtain ⟨address, hmail⟩ := hmailed
  obtain ⟨haddress, _, hchange⟩ := h.mail address token hmail
  obtain ⟨account, hfound, hcases⟩ := verify_cases hok
  obtain ⟨hmem, hslot⟩ := of_tokenAccount hfound
  have hrow := h.rows account hmem
  rcases hcases with ⟨hpurpose, hne, hunverified, rfl⟩ | ⟨_, rfl⟩ | ⟨hpurpose, rfl⟩
  · -- the message went to the address the account has
    have heq : address = account.email :=
      hrow.waiting token address hslot hmail hpurpose hunverified
    rw [heq] at hmail
    exact inv_succeed h hmem hslot hne hrow.normal hmail
  · refine h.rewrite account.spent hmem rfl rfl rfl rfl rfl (fun _ hclaim => hclaim) ?_
    refine ⟨hrow.normal, ?_, ?_, ?_⟩
    · intro other hother
      cases hother
    · intro other address hother
      cases hother
    · exact hrow.proved
  · have hpending := hchange hpurpose
    have hnorm : norm host address = address := by
      rw [← hpending, norm_norm]
    rw [hpending]
    exact inv_succeed h hmem hslot haddress hnorm hmail

/-! ### Google -/

/-- A claim of Google's changes no more than the flag of the account it is for. -/
theorem inv_claim (h : Inv host s) (claim : ℕ × String) :
    Inv host { s with claims := claim :: s.claims } where
  rows := by
    intro other hother
    exact (h.rows other hother).aside (Aside.refl _ _ _ rfl rfl rfl)
      (Grows.of_eq rfl rfl fun _ hclaim => List.mem_cons_of_mem _ hclaim)
  mail := h.mail
  used := h.used

theorem inv_link (h : Inv host s) (identities : List (String × ℕ)) :
    Inv host { s with identities := identities } where
  rows := by
    intro other hother
    exact (h.rows other hother).aside (Aside.refl _ _ _ rfl rfl rfl)
      (Grows.of_eq rfl rfl fun _ hclaim => hclaim)
  mail := h.mail
  used := h.used

/-- What a sign-in by Google that is not refused leaves. -/
theorem googleLogin_ok {claims : GoogleClaims} {link : Option Account} {refusal : Option String}
    {s' : Mailing} (hok : googleLogin host s claims link refusal = .ok s') :
    norm host claims.email ≠ "" ∧
      ((∃ identities, s' = { s with identities := identities }) ∨
        (∃ account ∈ s.accounts, norm host account.email = norm host claims.email ∧
          s' = { s with
            accounts := s.accounts.set (account.verified s.now)
            claims := (account.pk, norm host claims.email) :: s.claims }) ∨
        (∃ claim, s' = { s with claims := claim :: s.claims }) ∨
        ∃ identities, s' = { s with
          accounts := s.accounts.create
            (newAccount host (norm host claims.email) (some s.now)) fun _ => rfl
          identities := identities
          claims := (s.accounts.nextPk, norm host claims.email) :: s.claims }) := by
  unfold googleLogin at hok
  dsimp only at hok
  split at hok
  · cases hok
  split at hok
  · cases hok
  next _ hclaims =>
  have hne : norm host claims.email ≠ "" := by
    simp only [Bool.or_eq_true, decide_eq_true_eq, not_or] at hclaims
    exact hclaims.1.2
  refine ⟨hne, ?_⟩
  split at hok
  · -- an explicit link
    split at hok
    · cases hok
    split at hok
    · split at hok
      · cases hok
      · exact Or.inl ⟨s.identities, (Except.ok.inj hok).symm⟩
    · split at hok
      · cases hok
      · exact Or.inl ⟨_, (Except.ok.inj hok).symm⟩
  · -- a subject that is known
    split at hok
    · cases hok
    next account hget =>
    split at hok
    · cases hok
    split at hok
    · next hsame =>
      obtain ⟨_, hemail⟩ := Bool.and_eq_true_iff.mp hsame
      have hmem := (Table.get?_eq_some.mp hget).1
      exact Or.inr (Or.inl ⟨account, hmem, by simpa using hemail, (Except.ok.inj hok).symm⟩)
    · exact Or.inr (Or.inr (Or.inl ⟨_, (Except.ok.inj hok).symm⟩))
  · -- a new one
    split at hok
    · cases hok
    · exact Or.inr (Or.inr (Or.inr ⟨_, (Except.ok.inj hok).symm⟩))

theorem inv_googleLogin (h : Inv host s) {claims : GoogleClaims} {link : Option Account}
    {refusal : Option String} {s' : Mailing}
    (hok : googleLogin host s claims link refusal = .ok s') : Inv host s' := by
  obtain ⟨hne, ⟨identities, rfl⟩ | ⟨account, hmem, hemail, rfl⟩ | ⟨claim, rfl⟩ |
    ⟨identities, rfl⟩⟩ := googleLogin_ok hok
  · exact inv_link h identities
  · have hrow := h.rows account hmem
    have heq : account.email = norm host claims.email := by
      rw [← hrow.normal]
      exact hemail
    refine h.rewrite (account.verified s.now) hmem rfl rfl rfl rfl rfl
      (fun _ hclaim => List.mem_cons_of_mem _ hclaim) ?_
    refine ⟨hrow.normal, hrow.slot, ?_, ?_⟩
    · intro token address _ _ _ hno
      cases hno
    · intro _
      refine ⟨heq ▸ hne, Or.inr ?_⟩
      rw [← heq]
      exact List.mem_cons_self
  · exact inv_claim h claim
  · refine inv_create h _ (fun _ hclaim => List.mem_cons_of_mem _ hclaim) ?_
    refine rowInv_newAccount claims.email (some s.now) _ fun _ => ⟨hne, Or.inr ?_⟩
    simp only [newAccount, normalize_norm]
    exact List.mem_cons_self

end Requests

/-! ## The claim over runs -/

section Runs

variable {s s' t : Mailing} {request : Request} {as : List Request}

theorem mailing_next (h : (mailing host).next s request = some s') :
    possible s request = true ∧ (respond host s request = .ok s' ∨ s' = s) := by
  simp only [mailing] at h
  obtain ⟨hpossible, hstep⟩ := Option.ite_none_right_eq_some.mp h
  refine ⟨hpossible, ?_⟩
  split at hstep
  · next hok =>
    rw [hok, Option.some.inj hstep]
    exact Or.inl rfl
  · exact Or.inr (Option.some.inj hstep).symm

/-- A view of a signed-in user keeps the invariant if it does for an account that is there. -/
theorem inv_asUser {user : ℕ} {view : Account → Except String Mailing}
    (hview : ∀ account ∈ s.accounts, ∀ s', view account = .ok s' → Inv host s')
    (hok : asUser s user view = .ok s') : Inv host s' := by
  simp only [asUser] at hok
  split at hok
  · cases hok
  · next account hget => exact hview account (Table.get?_eq_some.mp hget).1 s' hok

theorem inv_respond (h : Inv host s) (hpossible : possible s request = true)
    (hok : respond host s request = .ok s') : Inv host s' := by
  cases request with
  | register email refusal nonce mailed => exact inv_register h hpossible hok
  | resend email allowed nonce mailed => exact inv_resend h hpossible hok
  | changeEmail user email refusal nonce mailed =>
    exact inv_asUser (fun account hmem s' hs => inv_changeEmail h hmem hpossible hs) hok
  | verify token =>
    obtain ⟨⟨address, token'⟩, hmail, heq⟩ := List.any_eq_true.mp hpossible
    obtain rfl : token' = token := by simpa using heq
    exact inv_verify h ⟨address, hmail⟩ hok
  | google claims link refusal =>
    cases link with
    | none => exact inv_googleLogin h hok
    | some user => exact inv_asUser (fun account _ s' hs => inv_googleLogin h hs) hok
  | sync user email =>
    refine inv_asUser (fun account hmem s' hs => ?_) hok
    obtain rfl := Except.ok.inj hs
    exact inv_syncIdentity h hmem email
  | tick elapsed =>
    obtain rfl := Except.ok.inj hok
    exact ⟨fun account hmem => (h.rows account hmem).aside (Aside.refl _ _ _ rfl rfl rfl)
      (Grows.of_eq rfl rfl fun _ hclaim => hclaim), h.mail, h.used⟩

theorem inv_step (h : Inv host s) (hstep : (mailing host).next s request = some s') :
    Inv host s' := by
  obtain ⟨hpossible, hok | rfl⟩ := mailing_next hstep
  · exact inv_respond h hpossible hok
  · exact h

theorem inv_of_clean (h : Clean host s) : Inv host s where
  rows := by
    intro account hmem
    obtain ⟨hnorm, hno, hslot⟩ := h.accounts account hmem
    refine ⟨hnorm, ?_, ?_, ?_⟩
    · intro token htoken
      rw [hslot] at htoken
      cases htoken
    · intro token address htoken
      rw [hslot] at htoken
      cases htoken
    · intro hyes
      rw [hno] at hyes
      cases hyes
  mail := by
    intro address token hmail
    rw [h.mail] at hmail
    cases hmail
  used := by
    intro token hused
    rw [h.used] at hused
    cases hused

/-! ### The tokens a request uses -/

theorem used_register {email : String} {refusal : Option String} {nonce : ℕ} {mailed : Bool}
    (hok : register host s email refusal nonce mailed = .ok s') : s'.used = s.used := by
  simp only [register] at hok
  split at hok
  · cases hok
  · split at hok
    · cases hok
    · split at hok
      · cases hok
      · split at hok
        · cases hok
        · cases hok
          rfl

theorem used_resend {email : String} {allowed : Bool} {nonce : ℕ} {mailed : Bool}
    (hok : resend host s email allowed nonce mailed = .ok s') : s'.used = s.used := by
  simp only [resend] at hok
  split at hok
  · split at hok
    · cases hok
    · split at hok
      · cases hok
      · cases hok
        rfl
  · cases hok

theorem used_changeEmail {account : Account} {email : String} {refusal : Option String} {nonce : ℕ}
    {mailed : Bool} (hok : changeEmail host s account email refusal nonce mailed = .ok s') :
    s'.used = s.used := by
  simp only [changeEmail] at hok
  split at hok
  · cases hok
  · split at hok
    · cases hok
    · split at hok
      · cases hok
      · split at hok
        · cases hok
        · cases hok
          rfl

/-- Only a token that succeeds is used; a refused change leaves the tokens that were. -/
theorem used_verify {token : Token} (hok : verify host s token = .ok s') :
    s'.used = s.used ∨ s'.used = token :: s.used := by
  obtain ⟨account, _, hcases⟩ := verify_cases hok
  rcases hcases with ⟨_, _, _, rfl⟩ | ⟨_, rfl⟩ | ⟨_, rfl⟩
  · exact Or.inr rfl
  · exact Or.inl rfl
  · exact Or.inr rfl

theorem used_googleLogin {claims : GoogleClaims} {link : Option Account} {refusal : Option String}
    (hok : googleLogin host s claims link refusal = .ok s') : s'.used = s.used := by
  obtain ⟨_, ⟨_, rfl⟩ | ⟨_, _, _, rfl⟩ | ⟨_, rfl⟩ | ⟨_, rfl⟩⟩ := googleLogin_ok hok
  · rfl
  · rfl
  · rfl
  · rfl

theorem used_syncIdentity (account : Account) (email : String) :
    (syncIdentity host s account email).used = s.used := by
  simp only [syncIdentity]
  split
  · split
    · rfl
    · rfl
  · rfl

theorem used_asUser {user : ℕ} {view : Account → Except String Mailing}
    (hview : ∀ account s', view account = .ok s' → s'.used = s.used)
    (hok : asUser s user view = .ok s') : s'.used = s.used := by
  simp only [asUser] at hok
  split at hok
  · cases hok
  · exact hview _ _ hok

/-- Only a token that is verified is added to the used ones. -/
theorem used_respond (hok : respond host s request = .ok s') :
    s'.used = s.used ∨ ∃ token, s'.used = token :: s.used ∧ verify host s token = .ok s' := by
  cases request with
  | register email refusal nonce mailed => exact Or.inl (used_register hok)
  | resend email allowed nonce mailed => exact Or.inl (used_resend hok)
  | changeEmail user email refusal nonce mailed =>
    exact Or.inl (used_asUser (fun _ _ h => used_changeEmail h) hok)
  | verify token =>
    rcases used_verify hok with hsame | hused
    · exact Or.inl hsame
    · exact Or.inr ⟨token, hused, hok⟩
  | google claims link refusal =>
    cases link with
    | none => exact Or.inl (used_googleLogin hok)
    | some user => exact Or.inl (used_asUser (fun _ _ h => used_googleLogin h) hok)
  | sync user email =>
    refine Or.inl (used_asUser (fun account s' h => ?_) hok)
    cases h
    exact used_syncIdentity account email
  | tick elapsed =>
    cases hok
    exact Or.inl rfl

/-- A step either leaves the used tokens, or a token that was not among them succeeds, the latest of
its user. -/
theorem used_step (h : Inv host s) (hstep : (mailing host).next s request = some s') :
    s'.used = s.used ∨ ∃ token, s'.used = token :: s.used ∧ token ∉ s.used ∧
      s.issued.find? (fun other => other.uid == token.uid) = some token := by
  obtain ⟨_, hok | rfl⟩ := mailing_next hstep
  · rcases used_respond hok with hsame | ⟨token, hused, hverify⟩
    · exact Or.inl hsame
    · exact Or.inr ⟨token, hused, of_verify h hverify⟩
  · exact Or.inl rfl

theorem successes_eq (token : Token) (hstep : (mailing host).next s request = some s') :
    successes host token s request = s'.used.count token - s.used.count token := by
  simp only [successes, hstep]

/-- The first of its user is the first of its user and purpose. -/
theorem newest_of_find {token : Token}
    (h : s.issued.find? (fun other => other.uid == token.uid) = some token) : Newest s token := by
  obtain ⟨_, newer, older, hissued, hnewer⟩ := List.find?_eq_some_iff_append.mp h
  refine List.find?_eq_some_iff_append.mpr ⟨by simp, newer, older, hissued, ?_⟩
  intro other hother
  have hne := hnewer other hother
  simp only [Bool.not_eq_true'] at hne ⊢
  rw [hne, Bool.false_and]

theorem newest_of_success (h : Inv host s) {token : Token}
    (hsuccess : successes host token s request ≠ 0) : Newest s token := by
  cases hstep : (mailing host).next s request with
  | none => simp [successes, hstep] at hsuccess
  | some s' =>
    rw [successes_eq token hstep] at hsuccess
    rcases used_step h hstep with hsame | ⟨other, hused, _, hlatest⟩
    · simp [hsame] at hsuccess
    · by_cases heq : other = token
      · rw [heq] at hlatest
        exact newest_of_find hlatest
      · rw [hused, List.count_cons_of_ne heq] at hsuccess
        simp at hsuccess

/-- In every run a verified address was proved by a token mailed to it or by Google's claim for it,
a token succeeds at most once, and only if no newer one was issued for its purpose. -/
theorem verified_email_proved (hrun : (mailing host).Run s as t) (hclean : Clean host s) :
    Machine.RunIf.Always (mailing host) AllProved s as ∧
      (∀ token, (mailing host).total (successes host token) s as ≤ 1) ∧
      ∀ before request rest u token, as = before ++ request :: rest →
        (mailing host).Run s before u → successes host token u request ≠ 0 → Newest u token := by
  have hinv := inv_of_clean hclean
  have hreach : ∀ before u, (mailing host).Run s before u → Inv host u := by
    intro before u hu
    exact hu.invariant (fun _ _ _ _ hs hn => inv_step hs hn) hinv
  refine ⟨?_, ?_, ?_⟩
  · rintro before rest u _ hu account hmem hverified
    exact (((hreach before u hu).rows account hmem).proved hverified).2
  · intro token
    have hguarded : (mailing host).RunIf (fun s a => True ∧ Inv host s ∧ True) s as t :=
      hrun.forall_steps (fun _ _ _ _ hs hn => ⟨inv_step hs hn, trivial⟩) hinv
    refine hguarded.total_le_one (fun s => token ∈ s.used) ?_ ?_ ?_ ?_
    · intro s a s' hg hn
      rw [successes_eq token hn]
      rcases used_step hg.2.1 hn with hsame | ⟨other, hused, _, _⟩
      · simp [hsame]
      · have hle : List.count token (other :: s.used) ≤ s.used.count token + 1 := by
          rw [List.count_cons]
          split <;> omega
        rw [hused]
        omega
    · intro s a s' hg hn hmem
      rcases used_step hg.2.1 hn with hsame | ⟨other, hused, _, _⟩
      · rwa [hsame]
      · rw [hused]
        exact List.mem_cons_of_mem _ hmem
    · intro s a s' hg hn hmem
      rw [successes_eq token hn]
      rcases used_step hg.2.1 hn with hsame | ⟨other, hused, hunused, _⟩
      · simp [hsame]
      · have hne : other ≠ token := by
          rintro rfl
          exact hunused hmem
        rw [hused, List.count_cons_of_ne hne, Nat.sub_self]
    · intro s a s' hg hn hcount
      rw [successes_eq token hn] at hcount
      exact List.count_pos_iff.mp (by omega)
  · rintro before request rest u token _ hu hsuccess
    exact newest_of_success (hreach before u hu) hsuccess

end Runs

/-! ## A registration that is verified, and an address that is changed -/

/-- A host that takes an address for valid if it has an at sign. -/
def MailHost.ascii : MailHost where
  toCaseHost := CaseHost.ascii
  lower_lower s := by
    have hcomp : Char.toLower ∘ Char.toLower = Char.toLower := funext toLower_toLower
    simp [CaseHost.ascii, TextHost.ascii, Host.ascii, hcomp]
  validate_email s := s.toList.contains '@'
  normalize_email s := s
  normalize_lower _ := rfl

def noMail : Mailing := ⟨Table.empty, [], 0, [], [], [], []⟩

theorem clean_noMail (host : MailHost) : Clean host noMail where
  accounts := by
    intro account hmem
    cases hmem
  issued := rfl
  mail := rfl
  used := rfl

/-- The token of the registration of account 1, and that of its change. -/
def first : Token := ⟨1, .verify_email, 7, none, 0⟩
def second : Token := ⟨1, .change_email, 8, some "new@example.com", 90000000⟩

def moving : List Request :=
  [.register " Ada@Example.com" none 7 true, .verify first, .tick 90000000,
    .changeEmail 1 "new@example.com" none 8 true, .verify first, .verify second, .verify second,
    .google ⟨"1044", "new@example.com", true⟩ (some 1) none,
    .google ⟨"1044", "ada@example.com", true⟩ none none]

theorem moving_proved : ∃ t, (mailing MailHost.ascii).exec noMail moving = some t ∧
    t.used = [second, first] ∧
    Machine.RunIf.Always (mailing MailHost.ascii) AllProved noMail moving := by
  have hused : ((mailing MailHost.ascii).exec noMail moving).any
      (fun t => t.used == [second, first]) = true := by decide +kernel
  obtain ⟨t, ht, hboth⟩ := (Option.any_eq_true _ _).mp hused
  exact ⟨t, ht, by simpa using hboth,
    (verified_email_proved (Machine.exec_eq_some_iff.mp ht) (clean_noMail _)).1⟩

end AlgoBot.Emails
