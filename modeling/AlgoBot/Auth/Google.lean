import AlgoBot.Core.Machine
import AlgoBot.Core.Table
import AlgoBot.Python.Value

/-!
# Google sign-in: subjects, bindings and the triple of a request

A Google sign-in starts with a state, a nonce and a code verifier in the
session. The callback takes them out of its copy of the session, exchanges the
code, finds the user of the subject or creates or links one, and signs the
session in; only then is the session saved. Requests of any sessions overlap
step by step, and the uniqueness of subjects and of users in the table of
identities decides between them.

* `bindings_sound`: a subject belongs to at most one user, and a session is
  signed in only as a user the subject was bound to at its creation or by a link
  in one of its sessions.
* `triple_once`: with that, a triple leads to at most one sign-in or link if no
  request reads a triple that another one still carries.
* `triple_twice`: two callbacks that read their session before either saves it.
-/

namespace AlgoBot.Google

open AlgoBot.Core AlgoBot.Python

/-! ## Model -/

/-- What `google_login_start` draws. -/
structure Triple where
  state : String
  nonce : String
  verifier : String
  deriving DecidableEq, Repr

/-- A `User` with the flags of its profile. -/
structure User where
  pk : ℕ
  username : String
  email : String
  is_active : Bool
  email_verified : Bool
  two_factor_enabled : Bool
  deriving DecidableEq, Repr

instance : HasPk User := ⟨User.pk⟩

/-- A `GoogleIdentity`. -/
structure Identity where
  user : ℕ
  subject : String
  email : String
  deriving DecidableEq, Repr

/-- The keys of a session the flow looks at; the triple with the second it was started. -/
structure Session where
  user : Option ℕ
  triple : Option (Triple × ℕ)
  link : Option ℕ
  pending : Option ℕ
  deriving DecidableEq, Repr

/-- What Google sends the browser back with. -/
structure Reply where
  state : String
  error : String
  code : String
  deriving DecidableEq, Repr

/-- The claims of a verified ID token. -/
structure Claims where
  nonce : String
  sub : String
  email : String
  email_verified : Bool
  deriving DecidableEq, Repr

/-- A verified subject and its address. -/
structure Subject where
  subject : String
  email : String
  deriving DecidableEq, Repr

/-- Where a request stands. -/
inductive Phase
  /-- The checks of the session have passed; the code is exchanged next. -/
  | exchanging
  /-- The transaction begins with the lookup of the subject. -/
  | looking (claim : Subject)
  /-- The user of the subject was read, if it has one, and its identity is locked. -/
  | deciding (claim : Subject) (found : Option ℕ)
  /-- An explicit link for the user, of a subject that is this user's or was nobody's. -/
  | linking (claim : Subject) (user : ℕ) (found : Option ℕ)
  | entering (claim : Subject) (user : ℕ)
  | creating (claim : Subject)
  /-- The transaction ran into a constraint; the subject is looked up once more. -/
  | resolving (claim : Subject)
  /-- The transaction is over; the session is signed in next. -/
  | signing (claim : Subject) (user : ℕ)
  /-- The response is ready; the session is saved next. -/
  | leaving
  | ended
  deriving DecidableEq, Repr

/-- A start or a callback in flight: the key of its session, which it creates if it came without
one, its copy of the session, whether that was changed, and the triple and the link a callback took
out of it. -/
structure Request where
  sid : ℕ
  fresh : Bool
  session : Session
  modified : Bool
  triple : Option Triple
  link : Option ℕ
  phase : Phase
  deriving DecidableEq, Repr

/-- What happened, for the record. -/
inductive Event
  /-- The user was created for the subject. -/
  | created (triple : Option Triple) (subject : String) (user : ℕ)
  /-- The subject was linked to the user in a session of `session_user`. -/
  | linked (triple : Option Triple) (subject : String) (user : ℕ) (session_user : Option ℕ)
  /-- The session was signed in, or waits for the second factor only. -/
  | signedIn (triple : Option Triple) (subject : String) (user : ℕ)
  deriving DecidableEq, Repr

structure State where
  users : Table User
  identities : List Identity
  sessions : ℕ → Option Session
  requests : List Request
  /-- The triples drawn, each with the session it was drawn for. -/
  issued : List (Triple × ℕ)
  history : List Event

/-- A browser that comes without a session. -/
def anonymous : Session := ⟨none, none, none, none⟩

variable (host : Host)

/-- `str(value or "").strip().lower()`. -/
def norm (email : String) : String := host.lower (strip email)

/-- `"google_" + hashlib.sha256(subject)[:32]`. -/
def googleUsername (subject : String) : String := "google_" ++ take 32 (host.sha256 subject)

/-- `hmac.compare_digest` raises on a text with other characters. -/
def ascii (text : String) : Bool := text.toList.all fun c => decide (c.val < 128)

namespace State

/-- `User.objects.filter(email__iexact=email).exists()`. -/
def emailTaken (s : State) (email : String) : Bool :=
  s.users.rows.any fun user => host.lower user.email == host.lower email

/-- `User.objects.filter(username=username).exists()`. -/
def usernameTaken (s : State) (username : String) : Bool :=
  s.users.rows.any fun user => user.username == username

/-- `GoogleIdentity.objects.filter(provider="google", subject=subject).first()`, its user. -/
def owner (s : State) (subject : String) : Option ℕ :=
  (s.identities.find? fun identity => identity.subject == subject).map Identity.user

/-- The request goes on to a phase. -/
def goto (s : State) (i : ℕ) (r : Request) (phase : Phase) : State :=
  { s with requests := s.requests.set i { r with phase := phase } }

end State

/-! ### `google_login_start` -/

/-- The copy of the session a start saves. `drawn` is nothing where the rate limit or missing
settings turn it away, after the link has been set. -/
def Session.started (session : Session) (now : ℕ) (wantsLink : Bool) (drawn : Option Triple) :
    Session :=
  if wantsLink && session.user.isNone then session
  else
    { session with
      link := if wantsLink then session.user else none
      triple :=
        match drawn with
        | some triple => some (triple, now)
        | none => session.triple }

/-- `google_login_start` up to its response. -/
def start (s : State) (sid now : ℕ) (wantsLink : Bool) (drawn : Option Triple) : Request where
  sid := sid
  fresh := (s.sessions sid).isNone
  session := ((s.sessions sid).getD anonymous).started now wantsLink drawn
  modified := true
  triple := none
  link := none
  phase := .leaving

/-! ### The steps of `google_login_callback` -/

/-- The session without what the callback pops. -/
def Session.popped (session : Session) : Session :=
  { session with triple := none, link := none }

/-- The callback's checks of its session. -/
def opened (session : Session) (now : ℕ) (reply : Reply) : Phase :=
  match session.triple with
  | none => .leaving
  | some (triple, started) =>
      if triple.state = "" ∨ reply.state = "" then .leaving
      else if !(ascii triple.state && ascii reply.state) then .ended
      else if triple.state ≠ reply.state then .leaving
      else if started = 0 ∨ now - started > 600 then .leaving
      else if reply.error ≠ "" ∨ reply.code = "" then .leaving
      else if triple.nonce = "" ∨ triple.verifier = "" then .leaving
      else .exchanging

/-- `google_login_callback` reads its session and takes the keys out of its copy. -/
def callback (s : State) (sid now : ℕ) (reply : Reply) : Request :=
  let session := (s.sessions sid).getD anonymous
  { sid := sid
    fresh := (s.sessions sid).isNone
    session := session.popped
    modified := session.triple.isSome || session.link.isSome
    triple := session.triple.map Prod.fst
    link := session.link
    phase := opened session now reply }

/-- The exchange: the claims of the ID token, or nothing if any of it failed. -/
def exchanged (triple : Option Triple) (claims : Option Claims) : Phase :=
  match claims with
  | none => .leaving
  | some claims =>
      if claims.nonce = "" then .leaving
      else if !ascii claims.nonce then .ended
      else if triple.map Triple.nonce ≠ some claims.nonce then .leaving
      else if strip claims.sub = "" ∨ norm host claims.email = "" ∨ claims.email_verified = false
      then .leaving
      else .looking ⟨strip claims.sub, norm host claims.email⟩

/-- The branch of the transaction, from the user of the subject it read. -/
def decided (s : State) (r : Request) (claim : Subject) (found : Option ℕ) : Phase :=
  match r.link with
  | some link =>
      if r.session.user ≠ some link then .leaving
      else if (s.users.get? link).any fun user => user.email_verified then
        match found with
        | some owner => if owner ≠ link then .leaving else .linking claim link found
        | none => .linking claim link none
      else .leaving
  | none =>
      match found with
      | some owner =>
          if (s.users.get? owner).any fun user => user.is_active then .entering claim owner
          else .leaving
      | none =>
          if s.emailTaken host claim.email then .leaving
          else if s.usernameTaken (googleUsername host claim.subject) then .leaving
          else .creating claim

/-- The subject again, after an `IntegrityError`. -/
def resolved (s : State) (claim : Subject) : Phase :=
  match s.owner claim.subject with
  | some owner =>
      if (s.users.get? owner).any fun user => user.is_active then .signing claim owner else .leaving
  | none => .leaving

/-- The writes of a link. The constraints refuse a subject or a user that is in the table. -/
def commitLink (s : State) (i : ℕ) (r : Request) (claim : Subject) (user : ℕ)
    (found : Option ℕ) : State :=
  match found with
  | some _ =>
      { s.goto i r .leaving with
        identities := s.identities.map fun identity =>
          if identity.subject = claim.subject then { identity with email := claim.email }
          else identity
        history := .linked r.triple claim.subject user r.session.user :: s.history }
  | none =>
      if s.identities.any fun identity =>
          identity.subject == claim.subject || identity.user == user then
        s.goto i r .leaving
      else
        { s.goto i r .leaving with
          identities := ⟨user, claim.subject, claim.email⟩ :: s.identities
          history := .linked r.triple claim.subject user r.session.user :: s.history }

/-- The writes for a user that is known: the flag, if the address is Google's. -/
def commitEntry (s : State) (i : ℕ) (r : Request) (claim : Subject) (user : ℕ) : State :=
  { s.goto i r (.signing claim user) with
    users :=
      match s.users.get? user with
      | some row =>
          if row.email_verified = false ∧ norm host row.email = claim.email then
            s.users.set { row with email_verified := true }
          else s.users
      | none => s.users }

/-- The row `create_user` makes for a subject. -/
def newUser (claim : Subject) (pk : ℕ) : User where
  pk := pk
  username := googleUsername host claim.subject
  email := claim.email
  is_active := true
  email_verified := true
  two_factor_enabled := false

/-- The constraints of the tables on a new user: addresses and usernames whatever their case, and
the subject. -/
def refused (s : State) (claim : Subject) : Bool :=
  s.emailTaken host claim.email || (s.owner claim.subject).isSome ||
    s.users.rows.any fun user =>
      host.lower user.username == host.lower (googleUsername host claim.subject)

/-- The writes for a new user, all or none. -/
def commitCreate (s : State) (i : ℕ) (r : Request) (claim : Subject) : State :=
  if refused host s claim then s.goto i r (.resolving claim)
  else
    { s.goto i r (.signing claim s.users.nextPk) with
      users := s.users.create (newUser host claim) fun _ => rfl
      identities := ⟨s.users.nextPk, claim.subject, claim.email⟩ :: s.identities
      history := .created r.triple claim.subject s.users.nextPk :: s.history }

/-! ### The end of a request -/

/-- A copy is saved where the session still is, or creates it. -/
def save (s : State) (r : Request) (session : Session) : ℕ → Option Session :=
  if (s.sessions r.sid).isSome || r.fresh then Function.update s.sessions r.sid (some session)
  else s.sessions

/-- The end of a sign-in: a second factor to come, or `login`, which gives the session a new key
unless it is the user's already and drops what is in it if it is another user's. -/
def signIn (s : State) (i : ℕ) (r : Request) (claim : Subject) (user newSid : ℕ) : State :=
  { s.goto i r .ended with
    history := .signedIn r.triple claim.subject user :: s.history
    sessions :=
      if (s.users.get? user).any fun row => row.two_factor_enabled then
        save s r { r.session with pending := some user }
      else if r.session.user = some user then save s r r.session
      else
        Function.update (Function.update s.sessions r.sid none) newSid
          (some (if r.session.user.isNone then { r.session with user := some user }
            else { anonymous with user := some user })) }

/-- The end of any other request: its copy is saved if it was changed. -/
def leave (s : State) (i : ℕ) (r : Request) : State :=
  { s.goto i r .ended with
    sessions := if r.modified then save s r r.session else s.sessions }

/-! ### The system -/

/-- Whether a transaction holds the lock on the identity of the user. -/
def locked (s : State) (user : ℕ) : Bool :=
  s.requests.any fun r =>
    match r.phase with
    | .deciding _ found => found == some user
    | .linking _ _ found => found == some user
    | .entering _ owner => owner == user
    | _ => false

/-- `unlink_google_identity`, once the password was given. -/
def unlink (s : State) (user : ℕ) : State :=
  { s with identities := s.identities.filter fun identity => identity.user != user }

/-- Another registration; the table gives the user its key. -/
def register (s : State) (user : User) : State :=
  { s with users := s.users.create (fun pk => { user with pk := pk }) fun _ => rfl }

inductive Action
  | start (sid now : ℕ) (wantsLink : Bool) (drawn : Option Triple)
  | callback (sid now : ℕ) (reply : Reply)
  | exchange (i : ℕ) (claims : Option Claims)
  | look (i : ℕ)
  | decide (i : ℕ)
  | commit (i : ℕ)
  | resolve (i : ℕ)
  | finish (i newSid : ℕ)
  | unlink (user : ℕ)
  /-- The rest of the application registers a user or writes one's row. -/
  | register (user : User)
  | write (user : User)
  deriving DecidableEq

/-- The request a start or a callback is. -/
def request (s : State) : Action → Option Request
  | .start sid now wantsLink drawn => some (start s sid now wantsLink drawn)
  | .callback sid now reply => some (callback s sid now reply)
  | _ => none

/-- The step of a request from the phase it is in. -/
def advance (s : State) (i : ℕ) (r : Request) : Action → Phase → Option State
  | .exchange _ claims, .exchanging => some (s.goto i r (exchanged host r.triple claims))
  | .look _, .looking claim => some (s.goto i r (.deciding claim (s.owner claim.subject)))
  | .decide _, .deciding claim found => some (s.goto i r (decided host s r claim found))
  | .commit _, .linking claim user found => some (commitLink s i r claim user found)
  | .commit _, .entering claim user => some (commitEntry host s i r claim user)
  | .commit _, .creating claim => some (commitCreate host s i r claim)
  | .resolve _, .resolving claim => some (s.goto i r (resolved s claim))
  | .finish _ newSid, .signing claim user =>
      if (s.sessions newSid).isNone then some (signIn s i r claim user newSid) else none
  | .finish _ _, .leaving => some (leave s i r)
  | _, _ => none

/-- The random source does not repeat a state, a new session gets a key that is free, and a delete
waits for the lock. -/
def step (s : State) (a : Action) : Option State :=
  match a with
  | .start sid now wantsLink drawn =>
      if s.issued.all fun old => drawn.all fun new => old.1.state != new.state then
        some { s with
          requests := s.requests ++ [start s sid now wantsLink drawn]
          issued := (drawn.map fun new => (new, sid)).toList ++ s.issued }
      else none
  | .callback sid now reply =>
      some { s with requests := s.requests ++ [callback s sid now reply] }
  | .exchange i _ | .look i | .decide i | .commit i | .resolve i | .finish i _ =>
      (s.requests[i]?).bind fun r => advance host s i r a r.phase
  | .unlink user => if locked s user then none else some (unlink s user)
  | .register user => some (register s user)
  | .write user => some { s with users := s.users.set user }

def signIns : Machine State Action where
  next := step host

/-! ## What is claimed of a state -/

/-- The subject was bound to the user: at the user's creation, or by a link in a session of it. -/
def Event.Binds (subject : String) (user : ℕ) : Event → Prop
  | .created _ sub u => sub = subject ∧ u = user
  | .linked _ sub u session_user => sub = subject ∧ u = user ∧ session_user = some user
  | .signedIn .. => False

/-- A sign-in or a link by the triple. -/
def Event.spends (triple : Triple) : Event → Bool
  | .created .. => false
  | .linked by_triple .. => by_triple == some triple
  | .signedIn by_triple .. => by_triple == some triple

namespace State

def Bound (s : State) (subject : String) (user : ℕ) : Prop :=
  ∃ e ∈ s.history, e.Binds subject user

/-- The sign-ins and links a triple has led to. -/
def uses (s : State) (triple : Triple) : ℕ := s.history.countP (Event.spends triple)

/-- The triple in a stored session. -/
def stored (s : State) (sid : ℕ) : Option Triple :=
  (s.sessions sid).bind fun session => session.triple.map Prod.fst

/-- Every subject is bound to at most one user. -/
def OneUser (s : State) : Prop :=
  ∀ a ∈ s.identities, ∀ b ∈ s.identities, a.subject = b.subject → a.user = b.user

/-- Every sign-in was as a user the subject had been bound to. -/
def SignedAsBound (s : State) : Prop :=
  ∀ triple subject user, .signedIn triple subject user ∈ s.history → s.Bound subject user

/-- The bindings are what was asked for, and no triple was used twice. -/
def Proper (s : State) : Prop :=
  s.OneUser ∧ s.SignedAsBound ∧ ∀ triple, s.uses triple ≤ 1

/-- Before the first sign-in by Google: any users, and any sessions without a triple. -/
structure Initial (s : State) : Prop where
  identities : s.identities = []
  requests : s.requests = []
  issued : s.issued = []
  history : s.history = []
  stored : ∀ sid, s.stored sid = none

end State

namespace Request

/-- The triples a request carries: the one it took out of its session, and the one in its copy. -/
def triples (r : Request) : List Triple :=
  r.triple.toList ++ (r.session.triple.map Prod.fst).toList

end Request

/-- The request that a start or a callback is carries no triple that one still in flight carries. -/
def careful (s : State) (a : Action) : Prop :=
  ∀ r ∈ request s a, ∀ q ∈ s.requests, q.phase ≠ .ended → ∀ triple ∈ r.triples,
    triple ∉ q.triples

instance (s : State) (a : Action) : Decidable (careful s a) := by
  unfold careful
  infer_instance

variable {host} {s s' t : State} {a : Action} {as : List Action} {i : ℕ} {r : Request}

/-! ## The steps

A step opens a request, moves one on, commits, or ends one. -/

/-- What a step of a request does. -/
inductive Advances (host : Host) (s : State) (i : ℕ) (r : Request) : State → Prop
  /-- Nothing is written yet, or no more. -/
  | move (phase : Phase) (hlive : r.phase ≠ .leaving ∧ r.phase ≠ .ended)
      (hlinking : ∀ claim user found, phase = .linking claim user found →
        r.session.user = some user)
      (hbound : ∀ claim user, (phase = .deciding claim (some user) ∨
        phase = .signing claim user) → s.owner claim.subject = some user)
      (hentering : ∀ claim user, phase = .entering claim user →
        r.phase = .deciding claim (some user)) :
      Advances host s i r (s.goto i r phase)
  | link (claim : Subject) (user : ℕ) (found : Option ℕ)
      (hphase : r.phase = .linking claim user found) :
      Advances host s i r (commitLink s i r claim user found)
  | entry (claim : Subject) (user : ℕ) (hphase : r.phase = .entering claim user) :
      Advances host s i r (commitEntry host s i r claim user)
  | create (claim : Subject) (hphase : r.phase = .creating claim) :
      Advances host s i r (commitCreate host s i r claim)
  | sign (claim : Subject) (user newSid : ℕ) (hphase : r.phase = .signing claim user)
      (hnew : s.sessions newSid = none) :
      Advances host s i r (signIn s i r claim user newSid)
  | leave (hphase : r.phase = .leaving) : Advances host s i r (leave s i r)

/-- An exchange ends a callback or has it look up a subject. -/
theorem exchanged_cases (host : Host) (triple : Option Triple) (claims : Option Claims) :
    exchanged host triple claims = .leaving ∨ exchanged host triple claims = .ended ∨
      ∃ claim, exchanged host triple claims = .looking claim := by
  unfold exchanged
  split
  · exact Or.inl rfl
  · split_ifs
    · exact Or.inl rfl
    · exact Or.inr (Or.inl rfl)
    · exact Or.inl rfl
    · exact Or.inl rfl
    · exact Or.inr (Or.inr ⟨_, rfl⟩)

/-- What the transaction decides on: a link for the session's user, an entry as the user it found,
or a new user. -/
theorem decided_cases (host : Host) (claim : Subject) (found : Option ℕ) :
    decided host s r claim found = .leaving ∨ decided host s r claim found = .creating claim ∨
      (∃ user found', decided host s r claim found = .linking claim user found' ∧
        r.session.user = some user) ∨
      ∃ user, decided host s r claim found = .entering claim user ∧ found = some user := by
  unfold decided
  cases r.link with
  | some link =>
    by_cases huser : r.session.user = some link
    · simp only [huser, ne_eq, not_true_eq_false, if_false]
      split_ifs
      · cases found with
        | none => exact Or.inr (Or.inr (Or.inl ⟨link, none, rfl, rfl⟩))
        | some owner =>
          by_cases howner : owner = link
          · simp [howner]
          · simp [howner]
      · exact Or.inl rfl
    · simp only [ne_eq, huser, not_false_eq_true, if_true]
      exact Or.inl trivial
  | none =>
    cases found with
    | some owner =>
      simp only []
      split_ifs
      · exact Or.inr (Or.inr (Or.inr ⟨owner, rfl, rfl⟩))
      · exact Or.inl rfl
    | none =>
      simp only []
      split_ifs
      · exact Or.inl rfl
      · exact Or.inl rfl
      · exact Or.inr (Or.inl rfl)

theorem resolved_cases (claim : Subject) :
    resolved s claim = .leaving ∨
      ∃ user, resolved s claim = .signing claim user ∧ s.owner claim.subject = some user := by
  unfold resolved
  cases s.owner claim.subject with
  | none => exact Or.inl rfl
  | some owner =>
    simp only []
    split_ifs
    · exact Or.inr ⟨owner, rfl, rfl⟩
    · exact Or.inl rfl

/-- The inversion lemma of the steps of a request. -/
theorem advance_cases (h : advance host s i r a r.phase = some s') : Advances host s i r s' := by
  generalize hphase : r.phase = phase at h
  unfold advance at h
  split at h
  · -- the exchange
    next claims =>
    cases h
    refine .move _ (by simp [hphase]) ?_ ?_ ?_
    all_goals
      rcases exchanged_cases host r.triple claims with he | he | ⟨claim, he⟩
      all_goals simp [he]
  · next claim =>
    cases h
    refine .move _ (by simp [hphase]) (by simp) ?_ (by simp)
    rintro claim' user (heq | heq)
    · obtain ⟨rfl, howner⟩ : claim = claim' ∧ s.owner claim.subject = some user := by
        simpa using heq
      exact howner
    · cases heq
  · -- the branch of the transaction
    next claim found =>
    cases h
    refine .move _ (by simp [hphase]) ?_ ?_ ?_
    all_goals
      rcases decided_cases (s := s) (r := r) host claim found with
        hd | hd | ⟨user, found', hd, huser⟩ | ⟨user, hd, rfl⟩
      all_goals simp_all
  · next claim user found =>
    cases h
    exact .link claim user found hphase
  · next claim user =>
    cases h
    exact .entry claim user hphase
  · next claim =>
    cases h
    exact .create claim hphase
  · next claim =>
    cases h
    refine .move _ (by simp [hphase]) ?_ ?_ ?_
    all_goals
      rcases resolved_cases (s := s) claim with hr | ⟨user, hr, howner⟩
      all_goals simp_all
  · next newSid claim user =>
    rcases Option.ite_none_right_eq_some.mp h with ⟨hnew, hs'⟩
    cases hs'
    exact .sign claim user newSid hphase (Option.isNone_iff_eq_none.mp hnew)
  · cases h
    exact .leave hphase
  · cases h

/-- A callback has the triple no longer in its copy, and saves that; a request with a triple in its
copy is about to end. -/
structure Request.Shaped (r : Request) : Prop where
  popped : ∀ triple, r.triple = some triple → r.modified = true ∧ r.session.triple = none
  ending : r.session.triple ≠ none → r.phase = .leaving ∨ r.phase = .ended

/-- What a step of the system does. -/
inductive Steps (host : Host) (s : State) (a : Action) : State → Prop
  | opens (r : Request) (drawn : Option Triple) (hr : request s a = some r)
      (hnew : ∀ triple ∈ drawn, ∀ sid, (triple, sid) ∉ s.issued)
      (htriples : ∀ triple ∈ r.triples, drawn = some triple ∨ s.stored r.sid = some triple)
      (hshaped : r.Shaped)
      (hphase : r.phase = .exchanging ∨ r.phase = .leaving ∨ r.phase = .ended) :
      Steps host s a { s with
        requests := s.requests ++ [r]
        issued := (drawn.map fun new => (new, r.sid)).toList ++ s.issued }
  | advances (i : ℕ) (r : Request) (hr : s.requests[i]? = some r) {s' : State}
      (h : Advances host s i r s') : Steps host s a s'
  | unlinks (user : ℕ) : Steps host s a (unlink s user)
  | writes (users : Table User) : Steps host s a { s with users := users }

theorem triples_start {sid now : ℕ} {wantsLink : Bool} {drawn : Option Triple} {triple : Triple}
    (h : triple ∈ (start s sid now wantsLink drawn).triples) :
    drawn = some triple ∨ s.stored sid = some triple := by
  have hcopy : (((s.sessions sid).getD anonymous).started now wantsLink drawn).triple.map Prod.fst =
      some triple := by
    simpa [Request.triples, start] using h
  have hstored : ((s.sessions sid).getD anonymous).triple.map Prod.fst = s.stored sid := by
    unfold State.stored
    cases s.sessions sid with
    | none => rfl
    | some session => rfl
  unfold Session.started at hcopy
  split at hcopy
  · exact Or.inr (hstored.symm.trans hcopy)
  · cases drawn with
    | some new => exact Or.inl hcopy
    | none => exact Or.inr (hstored.symm.trans hcopy)

theorem triples_callback {sid now : ℕ} {reply : Reply} {triple : Triple}
    (h : triple ∈ (callback s sid now reply).triples) : s.stored sid = some triple := by
  have hpopped : ((s.sessions sid).getD anonymous).triple.map Prod.fst = some triple := by
    simpa [Request.triples, callback, Session.popped] using h
  unfold State.stored
  cases hsession : s.sessions sid with
  | none => simp [hsession, anonymous] at hpopped
  | some session => simpa [hsession] using hpopped

theorem opened_cases (session : Session) (now : ℕ) (reply : Reply) :
    opened session now reply = .exchanging ∨ opened session now reply = .leaving ∨
      opened session now reply = .ended := by
  unfold opened
  cases session.triple with
  | none => exact Or.inr (Or.inl rfl)
  | some drawn =>
    simp only []
    split_ifs
    all_goals simp

theorem shaped_start (sid now : ℕ) (wantsLink : Bool) (drawn : Option Triple) :
    (start s sid now wantsLink drawn).Shaped where
  popped := by
    intro triple h
    cases h
  ending := fun _ => Or.inl rfl

theorem shaped_callback (sid now : ℕ) (reply : Reply) : (callback s sid now reply).Shaped where
  popped := by
    intro triple h
    refine ⟨?_, rfl⟩
    cases hdrawn : ((s.sessions sid).getD anonymous).triple with
    | none => simp [callback, hdrawn] at h
    | some drawn => simp [callback, hdrawn]
  ending := fun h => absurd rfl h

/-- The inversion lemma of the system's steps. -/
theorem step_cases (h : (signIns host).next s a = some s') : Steps host s a s' := by
  cases a with
  | start sid now wantsLink drawn =>
    rcases Option.ite_none_right_eq_some.mp h with ⟨hnew, hs'⟩
    cases hs'
    refine .opens _ drawn rfl ?_ (fun _ => triples_start) (shaped_start sid now wantsLink drawn)
      (Or.inr (Or.inl rfl))
    -- a triple that was issued has its state among the issued ones
    rintro triple rfl sid' hissued
    simpa using List.all_eq_true.mp hnew _ hissued
  | callback sid now reply =>
    cases h
    exact .opens _ none rfl (by simp) (fun _ h => Or.inr (triples_callback h))
      (shaped_callback sid now reply) (opened_cases _ now reply)
  | exchange i claims =>
    rcases Option.bind_eq_some_iff.mp h with ⟨r, hr, hstep⟩
    exact .advances i r hr (advance_cases hstep)
  | look i =>
    rcases Option.bind_eq_some_iff.mp h with ⟨r, hr, hstep⟩
    exact .advances i r hr (advance_cases hstep)
  | decide i =>
    rcases Option.bind_eq_some_iff.mp h with ⟨r, hr, hstep⟩
    exact .advances i r hr (advance_cases hstep)
  | commit i =>
    rcases Option.bind_eq_some_iff.mp h with ⟨r, hr, hstep⟩
    exact .advances i r hr (advance_cases hstep)
  | resolve i =>
    rcases Option.bind_eq_some_iff.mp h with ⟨r, hr, hstep⟩
    exact .advances i r hr (advance_cases hstep)
  | finish i newSid =>
    rcases Option.bind_eq_some_iff.mp h with ⟨r, hr, hstep⟩
    exact .advances i r hr (advance_cases hstep)
  | unlink user =>
    rcases Option.ite_none_left_eq_some.mp h with ⟨_, hs'⟩
    cases hs'
    exact .unlinks user
  | register user =>
    cases h
    exact .writes _
  | write user =>
    cases h
    exact .writes _

/-! ## Bindings -/

/-- A request acts as a user the subject was bound to, and links for the user of its session. -/
def Request.Sound (s : State) (r : Request) : Prop :=
  match r.phase with
  | .deciding claim (some user) | .entering claim user | .signing claim user =>
      s.Bound claim.subject user
  | .linking _ user _ => r.session.user = some user
  | _ => True

/-- The invariant of every run. -/
structure Sound (s : State) : Prop where
  subjects : (s.identities.map Identity.subject).Nodup
  rows : ∀ identity ∈ s.identities, s.Bound identity.subject identity.user
  requests : ∀ r ∈ s.requests, r.Sound s
  signed : s.SignedAsBound

theorem State.Bound.mono {subject : String} {user : ℕ} (h : s.Bound subject user)
    (hhistory : ∀ e ∈ s.history, e ∈ s'.history) : s'.Bound subject user := by
  rcases h with ⟨e, he, hbinds⟩
  exact ⟨e, hhistory e he, hbinds⟩

theorem Request.Sound.mono (h : r.Sound s) (hhistory : ∀ e ∈ s.history, e ∈ s'.history) :
    r.Sound s' := by
  unfold Request.Sound at h ⊢
  split at h
  · exact h.mono hhistory
  · exact h.mono hhistory
  · exact h.mono hhistory
  · exact h
  · trivial

theorem State.mem_of_owner {subject : String} {user : ℕ} (h : s.owner subject = some user) :
    ∃ identity ∈ s.identities, identity.subject = subject ∧ identity.user = user := by
  rcases Option.map_eq_some_iff.mp h with ⟨identity, hfind, huser⟩
  refine ⟨identity, List.mem_of_find?_eq_some hfind, ?_, huser⟩
  simpa using List.find?_some hfind

theorem State.subject_not_mem {subject : String} (h : s.owner subject = none) :
    subject ∉ s.identities.map Identity.subject := by
  intro hmem
  rcases List.mem_map.mp hmem with ⟨identity, hidentity, hsubject⟩
  have hnone := List.find?_eq_none.mp (Option.map_eq_none_iff.mp h) identity hidentity
  exact hnone (by simpa using hsubject)

namespace Sound

/-- The user a lookup finds is one the subject was bound to. -/
theorem of_owner (hs : Sound s) {subject : String} {user : ℕ}
    (h : s.owner subject = some user) : s.Bound subject user := by
  rcases State.mem_of_owner h with ⟨identity, hmem, rfl, rfl⟩
  exact hs.rows identity hmem

/-- A step keeps the invariant if what it adds to the tables is borne out afterwards. -/
theorem extend (hs : Sound s) (hhistory : ∀ e ∈ s.history, e ∈ s'.history)
    (hsubjects : (s'.identities.map Identity.subject).Nodup)
    (hrows : ∀ identity ∈ s'.identities, (∃ old ∈ s.identities,
      old.subject = identity.subject ∧ old.user = identity.user) ∨
        s'.Bound identity.subject identity.user)
    (hrequests : ∀ q ∈ s'.requests, q ∈ s.requests ∨ q.Sound s')
    (hsigned : ∀ triple subject user, .signedIn triple subject user ∈ s'.history →
      .signedIn triple subject user ∈ s.history ∨ s'.Bound subject user) : Sound s' where
  subjects := hsubjects
  rows := by
    intro identity hmem
    rcases hrows identity hmem with ⟨old, hold, hsubject, huser⟩ | hbound
    · rw [← hsubject, ← huser]
      exact (hs.rows old hold).mono hhistory
    · exact hbound
  requests := by
    intro q hq
    rcases hrequests q hq with hold | hsound
    · exact (hs.requests q hold).mono hhistory
    · exact hsound
  signed := by
    intro triple subject user hmem
    rcases hsigned triple subject user hmem with hold | hbound
    · exact (hs.signed triple subject user hold).mono hhistory
    · exact hbound

/-- The requests after one of them went on. -/
theorem mem_goto {phase : Phase} {q : Request} (h : q ∈ (s.goto i r phase).requests) :
    q ∈ s.requests ∨ q = { r with phase := phase } :=
  List.mem_or_eq_of_mem_set h

theorem goto (hs : Sound s) (phase : Phase)
    (hr : ({ r with phase := phase } : Request).Sound s) : Sound (s.goto i r phase) := by
  refine hs.extend (fun _ he => he) hs.subjects ?_ ?_ fun _ _ _ he => Or.inl he
  · intro identity hmem
    exact Or.inl ⟨identity, hmem, rfl, rfl⟩
  · intro q hq
    rcases mem_goto hq with hold | rfl
    · exact Or.inl hold
    · exact Or.inr hr

/-- A new row of a new subject that the new event bears out. -/
theorem bind (hs : Sound s) {claim : Subject} {user : ℕ} {phase : Phase} {e : Event}
    (users : Table User) (hsubject : claim.subject ∉ s.identities.map Identity.subject)
    (hbinds : e.Binds claim.subject user)
    (hphase : phase = .leaving ∨ phase = .signing claim user) :
    Sound { s.goto i r phase with
      users := users
      identities := ⟨user, claim.subject, claim.email⟩ :: s.identities
      history := e :: s.history } := by
  refine hs.extend (fun _ he => List.mem_cons_of_mem e he)
    (List.nodup_cons.mpr ⟨hsubject, hs.subjects⟩) ?_ ?_ ?_
  · intro identity hmem
    rcases List.mem_cons.mp hmem with rfl | hmem
    · exact Or.inr ⟨e, List.mem_cons_self, hbinds⟩
    · exact Or.inl ⟨identity, hmem, rfl, rfl⟩
  · intro q hq
    rcases mem_goto hq with hold | rfl
    · exact Or.inl hold
    · right
      rcases hphase with rfl | rfl
      · trivial
      · exact ⟨e, List.mem_cons_self, hbinds⟩
  · intro triple subject user' hmem
    rcases List.mem_cons.mp hmem with rfl | hmem
    · cases hbinds
    · exact Or.inl hmem

theorem commitLink (hs : Sound s) {claim : Subject} {user : ℕ} (found : Option ℕ)
    (huser : r.session.user = some user) : Sound (commitLink s i r claim user found) := by
  unfold Google.commitLink
  cases found with
  | some owner =>
    refine hs.extend (fun _ he => List.mem_cons_of_mem _ he) ?_ ?_ ?_ ?_
    · -- the address changes, the subjects and the users do not
      have hmap : ((s.identities.map fun identity =>
          if identity.subject = claim.subject then { identity with email := claim.email }
          else identity).map Identity.subject) = s.identities.map Identity.subject := by
        rw [List.map_map]
        refine List.map_congr_left fun identity _ => ?_
        simp only [Function.comp]
        split <;> rfl
      rw [hmap]
      exact hs.subjects
    · intro identity hmem
      rcases List.mem_map.mp hmem with ⟨old, hold, rfl⟩
      refine Or.inl ⟨old, hold, ?_⟩
      split <;> exact ⟨rfl, rfl⟩
    · intro q hq
      rcases mem_goto hq with hold | rfl
      · exact Or.inl hold
      · exact Or.inr trivial
    · intro triple subject user' hmem
      rcases List.mem_cons.mp hmem with heq | hmem
      · cases heq
      · exact Or.inl hmem
  | none =>
    simp only []
    split_ifs with htaken
    · exact hs.goto .leaving trivial
    · refine hs.bind s.users ?_ ⟨rfl, rfl, huser⟩ (Or.inl rfl)
      intro hmem
      rcases List.mem_map.mp hmem with ⟨identity, hidentity, hsubject⟩
      exact htaken (List.any_eq_true.mpr ⟨identity, hidentity, by simp [hsubject]⟩)

theorem commitCreate (hs : Sound s) (claim : Subject) :
    Sound (commitCreate host s i r claim) := by
  unfold Google.commitCreate
  split_ifs with hrefused
  · exact hs.goto _ trivial
  · refine hs.bind _ (State.subject_not_mem ?_) ⟨rfl, rfl⟩ (Or.inr rfl)
    cases howner : s.owner claim.subject with
    | none => rfl
    | some owner =>
      refine absurd ?_ hrefused
      simp [refused, howner]

theorem signIn (hs : Sound s) {claim : Subject} {user : ℕ} (newSid : ℕ)
    (hbound : s.Bound claim.subject user) : Sound (signIn s i r claim user newSid) := by
  have hhistory : ∀ e ∈ s.history, e ∈ (Google.signIn s i r claim user newSid).history :=
    fun _ he => List.mem_cons_of_mem _ he
  refine hs.extend hhistory hs.subjects ?_ ?_ ?_
  · intro identity hmem
    exact Or.inl ⟨identity, hmem, rfl, rfl⟩
  · intro q hq
    rcases mem_goto hq with hold | rfl
    · exact Or.inl hold
    · exact Or.inr trivial
  · intro triple subject user' hmem
    rcases List.mem_cons.mp hmem with heq | hmem
    · cases heq
      exact Or.inr (hbound.mono hhistory)
    · exact Or.inl hmem

theorem advance (hs : Sound s) (hr : r ∈ s.requests) (h : Advances host s i r s') : Sound s' := by
  have hsound := hs.requests r hr
  cases h with
  | move phase hlive hlinking hbound hentering =>
    refine hs.goto phase ?_
    unfold Request.Sound
    split
    · next claim user hphase => exact hs.of_owner (hbound claim user (Or.inl hphase))
    · next claim user hphase =>
      simpa [Request.Sound, hentering claim user hphase] using hsound
    · next claim user hphase => exact hs.of_owner (hbound claim user (Or.inr hphase))
    · next claim user found hphase => exact hlinking claim user found hphase
    · trivial
  | link claim user found hphase =>
    exact hs.commitLink found (by simpa [Request.Sound, hphase] using hsound)
  | entry claim user hphase =>
    have hgoto : Sound (s.goto i r (.signing claim user)) :=
      hs.goto _ (by simpa [Request.Sound, hphase] using hsound)
    exact ⟨hgoto.subjects, hgoto.rows, hgoto.requests, hgoto.signed⟩
  | create claim hphase => exact hs.commitCreate claim
  | sign claim user newSid hphase hnew =>
    exact hs.signIn newSid (by simpa [Request.Sound, hphase] using hsound)
  | leave hphase =>
    have hgoto : Sound (s.goto i r .ended) := hs.goto _ trivial
    exact ⟨hgoto.subjects, hgoto.rows, hgoto.requests, hgoto.signed⟩

theorem step (hs : Sound s) (h : (signIns host).next s a = some s') : Sound s' := by
  cases step_cases h with
  | opens r drawn hr hnew htriples hshaped hphase =>
    refine hs.extend (fun _ he => he) hs.subjects ?_ ?_ fun _ _ _ he => Or.inl he
    · intro identity hmem
      exact Or.inl ⟨identity, hmem, rfl, rfl⟩
    · intro q hq
      rcases List.mem_append.mp hq with hold | hq
      · exact Or.inl hold
      · obtain rfl := List.mem_singleton.mp hq
        right
        rcases hphase with hphase | hphase | hphase
        all_goals simp [Request.Sound, hphase]
  | advances i r hr h => exact hs.advance (List.mem_of_getElem? hr) h
  | unlinks user =>
    refine hs.extend (fun _ he => he) ?_ ?_ (fun _ hq => Or.inl hq) fun _ _ _ he => Or.inl he
    · exact hs.subjects.sublist (List.filter_sublist.map _)
    · intro identity hmem
      exact Or.inl ⟨identity, (List.mem_filter.mp hmem).1, rfl, rfl⟩
  | writes users => exact ⟨hs.subjects, hs.rows, hs.requests, hs.signed⟩

theorem initial (hs : s.Initial) : Sound s where
  subjects := by simp [hs.identities]
  rows := by simp [hs.identities]
  requests := by simp [hs.requests]
  signed := by simp [State.SignedAsBound, hs.history]

theorem oneUser (hs : Sound s) : s.OneUser := by
  intro a ha b hb hsubject
  rw [List.inj_on_of_nodup_map hs.subjects ha hb hsubject]

end Sound

/-- In every run a subject belongs to at most one user, and a session is signed in only as a user
the subject was bound to by its creation or by a link. -/
theorem bindings_sound (hs : s.Initial) (hrun : (signIns host).Run s as t) :
    t.OneUser ∧ t.SignedAsBound := by
  have hsound : Sound t :=
    hrun.invariant (fun _ _ _ _ hs h => hs.step h) (Sound.initial hs)
  exact ⟨hsound.oneUser, hsound.signed⟩

/-! ## The uses of a triple

A triple is in the session it was drawn for and in the copies read from that. While one request in
flight carries it, the stored one does no harm as long as nobody reads it. -/

/-- The invariant of the runs in which nobody reads a triple that is carried. -/
structure Spending (s : State) : Prop where
  /-- A triple was drawn for one session, and is nowhere else. -/
  home : ∀ triple sid sid', (triple, sid) ∈ s.issued → (triple, sid') ∈ s.issued → sid = sid'
  stored : ∀ sid triple, s.stored sid = some triple → (triple, sid) ∈ s.issued
  carried : ∀ r ∈ s.requests, ∀ triple ∈ r.triples, (triple, r.sid) ∈ s.issued
  known : ∀ triple, s.uses triple ≠ 0 → ∃ sid, (triple, sid) ∈ s.issued
  shaped : ∀ r ∈ s.requests, r.Shaped
  /-- One request in flight carries it. -/
  alone : ∀ (i j : ℕ) (r q : Request), s.requests[i]? = some r → s.requests[j]? = some q →
    r.phase ≠ .ended → q.phase ≠ .ended → ∀ triple ∈ r.triples, triple ∈ q.triples → i = j
  once : ∀ triple, s.uses triple ≤ 1
  /-- Whoever carries a used triple is about to save a session without it. -/
  spent : ∀ triple, s.uses triple ≠ 0 → ∀ r ∈ s.requests, r.phase ≠ .ended →
    triple ∈ r.triples → r.phase = .leaving ∧ r.session.triple = none
  /-- A used triple is stored only while it is carried. -/
  covered : ∀ triple, s.uses triple ≠ 0 → ∀ sid, s.stored sid = some triple →
    ∃ r ∈ s.requests, r.phase ≠ .ended ∧ triple ∈ r.triples

theorem Request.mem_triples {triple : Triple} :
    triple ∈ r.triples ↔ r.triple = some triple ∨ r.session.triple.map Prod.fst = some triple := by
  simp only [Request.triples, List.mem_append, Option.mem_toList]

namespace State

theorem stored_congr (h : s'.sessions = s.sessions) (sid : ℕ) : s'.stored sid = s.stored sid := by
  unfold stored
  rw [h]

/-- A use is counted for the triple of the request, and for no other. -/
theorem uses_cons {e : Event} (h : s'.history = e :: s.history) (triple : Triple) :
    s'.uses triple = s.uses triple + if e.spends triple then 1 else 0 := by
  unfold uses
  rw [h, List.countP_cons]

/-- What a save leaves stored: the copy under its key, the rest as it was. -/
theorem stored_of_save {session : Session} (h : s'.sessions = save s r session) {sid : ℕ}
    {triple : Triple} (hstored : s'.stored sid = some triple) :
    (sid = r.sid ∧ session.triple.map Prod.fst = some triple) ∨
      (s.stored sid = some triple ∧ sid ≠ r.sid) := by
  unfold stored at hstored ⊢
  rw [h] at hstored
  by_cases hsid : sid = r.sid
  · subst hsid
    left
    unfold save at hstored
    split_ifs at hstored with hthere
    · exact ⟨rfl, by simpa using hstored⟩
    · -- the session is gone and nothing is stored under its key
      simp only [Bool.or_eq_true, not_or, Option.not_isSome_iff_eq_none] at hthere
      simp [hthere.1] at hstored
  · right
    refine ⟨?_, hsid⟩
    unfold save at hstored
    split_ifs at hstored with hthere
    · simpa [Function.update_of_ne hsid] using hstored
    · exact hstored

/-- `login` stores the session under a new key and leaves the old one to nobody. -/
theorem stored_of_login {session : Session} {newSid sid : ℕ} {triple : Triple}
    (h : s'.sessions =
      Function.update (Function.update s.sessions r.sid none) newSid (some session))
    (hnone : session.triple = none) (hstored : s'.stored sid = some triple) :
    s.stored sid = some triple ∧ sid ≠ r.sid := by
  unfold stored at hstored ⊢
  rw [h] at hstored
  by_cases hnew : sid = newSid
  · subst hnew
    simp [hnone] at hstored
  · rw [Function.update_of_ne hnew] at hstored
    by_cases hold : sid = r.sid
    · subst hold
      simp at hstored
    · rw [Function.update_of_ne hold] at hstored
      exact ⟨hstored, hold⟩

end State

namespace Spending

theorem initial (hs : s.Initial) : Spending s where
  home := by simp [hs.issued]
  stored := by simp [hs.stored]
  carried := by simp [hs.requests]
  known := by simp [State.uses, hs.history]
  shaped := by simp [hs.requests]
  alone := by simp [hs.requests]
  once := by simp [State.uses, hs.history]
  spent := by simp [hs.requests]
  covered := by simp [State.uses, hs.history]

theorem getElem?_concat_cases {l : List Request} {q : Request} (h : (l ++ [r])[i]? = some q) :
    l[i]? = some q ∨ (i = l.length ∧ q = r) := by
  rcases Nat.lt_or_ge i l.length with hlt | hge
  · exact Or.inl (by simpa [List.getElem?_append_left hlt] using h)
  · right
    rw [List.getElem?_append_right hge] at h
    have hlast : i - l.length = 0 := by
      by_contra hne
      simp [hne] at h
    refine ⟨by omega, ?_⟩
    simpa [hlast] using h.symm

/-- A request that carries no triple another one carries. -/
theorem opens (hs : Spending s) {drawn : Option Triple}
    (hfree : ∀ q ∈ s.requests, q.phase ≠ .ended → ∀ triple ∈ r.triples, triple ∉ q.triples)
    (hnew : ∀ triple ∈ drawn, ∀ sid, (triple, sid) ∉ s.issued)
    (htriples : ∀ triple ∈ r.triples, drawn = some triple ∨ s.stored r.sid = some triple)
    (hshaped : r.Shaped) :
    Spending { s with
      requests := s.requests ++ [r]
      issued := (drawn.map fun new => (new, r.sid)).toList ++ s.issued } := by
  have hissued : ∀ triple sid,
      (triple, sid) ∈ (drawn.map fun new => (new, r.sid)).toList ++ s.issued ↔
        (drawn = some triple ∧ sid = r.sid) ∨ (triple, sid) ∈ s.issued := by
    intro triple sid
    cases drawn with
    | none => simp
    | some new => simp [eq_comm]
  have hmem : ∀ q ∈ s.requests ++ [r], q ∈ s.requests ∨ q = r := by
    intro q hq
    simpa using hq
  constructor
  case home =>
    intro triple sid sid' h h'
    rcases (hissued triple sid).mp h with ⟨hdrawn, rfl⟩ | hold
    · rcases (hissued triple sid').mp h' with ⟨_, rfl⟩ | hold'
      · rfl
      · exact absurd hold' (hnew triple hdrawn sid')
    · rcases (hissued triple sid').mp h' with ⟨hdrawn, rfl⟩ | hold'
      · exact absurd hold (hnew triple hdrawn sid)
      · exact hs.home triple sid sid' hold hold'
  case stored =>
    intro sid triple h
    exact (hissued triple sid).mpr (Or.inr (hs.stored sid triple h))
  case carried =>
    intro q hq triple htriple
    rcases hmem q hq with hold | rfl
    · exact (hissued triple q.sid).mpr (Or.inr (hs.carried q hold triple htriple))
    · rcases htriples triple htriple with hdrawn | hstored
      · exact (hissued triple q.sid).mpr (Or.inl ⟨hdrawn, rfl⟩)
      · exact (hissued triple q.sid).mpr (Or.inr (hs.stored q.sid triple hstored))
  case known =>
    intro triple h
    rcases hs.known triple h with ⟨sid, hsid⟩
    exact ⟨sid, (hissued triple sid).mpr (Or.inr hsid)⟩
  case shaped =>
    intro q hq
    rcases hmem q hq with hold | rfl
    · exact hs.shaped q hold
    · exact hshaped
  case alone =>
    intro i j p q hp hq hlive hlive' triple htriple htriple'
    rcases getElem?_concat_cases hp with hold | ⟨rfl, rfl⟩
    · rcases getElem?_concat_cases hq with hold' | ⟨rfl, rfl⟩
      · exact hs.alone i j p q hold hold' hlive hlive' triple htriple htriple'
      · exact absurd htriple
          (hfree p (List.mem_of_getElem? hold) hlive triple htriple')
    · rcases getElem?_concat_cases hq with hold' | ⟨rfl, rfl⟩
      · exact absurd htriple'
          (hfree q (List.mem_of_getElem? hold') hlive' triple htriple)
      · rfl
  case once => exact hs.once
  case spent =>
    intro triple huses q hq hlive htriple
    rcases hmem q hq with hold | rfl
    · exact hs.spent triple huses q hold hlive htriple
    · -- a used triple is neither new nor stored without a carrier
      exfalso
      rcases htriples triple htriple with hdrawn | hstored
      · rcases hs.known triple huses with ⟨sid, hsid⟩
        exact hnew triple hdrawn sid hsid
      · rcases hs.covered triple huses q.sid hstored with ⟨p, hp, hlive', htriple'⟩
        exact hfree p hp hlive' triple htriple htriple'
  case covered =>
    intro triple huses sid hstored
    rcases hs.covered triple huses sid hstored with ⟨q, hq, hlive, htriple⟩
    exact ⟨q, List.mem_append_left _ hq, hlive, htriple⟩

/-- What is left of a request after one of them went on. -/
theorem getElem?_goto {phase : Phase} {j : ℕ} {q : Request}
    (hr : s.requests[i]? = some r) (h : (s.goto i r phase).requests[j]? = some q) :
    (j ≠ i ∧ s.requests[j]? = some q) ∨ (j = i ∧ q = { r with phase := phase }) := by
  by_cases hj : j = i
  · right
    have hlt : i < s.requests.length := (List.getElem?_eq_some_iff.mp hr).1
    rw [hj, State.goto, List.getElem?_set_self hlt] at h
    exact ⟨hj, (Option.some.inj h).symm⟩
  · left
    rw [State.goto, List.getElem?_set_ne (Ne.symm hj)] at h
    exact ⟨hj, h⟩

/-- A request goes on. It counts its triple at most once, on its way out, and it takes it out of the
stored session when it ends. -/
theorem goes (hs : Spending s) (phase : Phase) (hr : s.requests[i]? = some r)
    (hlive : r.phase ≠ .ended) (hleaving : r.phase = .leaving → phase = .ended)
    (hrequests : s'.requests = (s.goto i r phase).requests) (hissued : s'.issued = s.issued)
    (huses : ∀ triple, s'.uses triple = s.uses triple ∨
      (r.triple = some triple ∧ r.phase ≠ .leaving ∧ (phase = .leaving ∨ phase = .ended) ∧
        s'.uses triple = s.uses triple + 1))
    (hstored : ∀ sid triple, s'.stored sid = some triple →
      (s.stored sid = some triple ∧
        (phase = .ended → sid = r.sid → s'.uses triple ≠ 0 → r.triple ≠ some triple)) ∨
      (phase = .ended ∧ sid = r.sid ∧ r.session.triple.map Prod.fst = some triple)) :
    Spending s' := by
  have hmem : r ∈ s.requests := List.mem_of_getElem? hr
  have hshaped := hs.shaped r hmem
  have hmine : ∀ triple, r.triple = some triple → triple ∈ r.triples := by
    intro triple h
    exact Request.mem_triples.mpr (Or.inl h)
  -- a request that still counts its triple is the first to do so
  have hunused : ∀ triple ∈ r.triples, r.phase ≠ .leaving → s.uses triple = 0 := by
    intro triple htriple hphase
    by_contra hne
    exact hphase (hs.spent triple hne r hmem hlive htriple).1
  have hold : ∀ q ∈ s'.requests, q ∈ s.requests ∨ q = { r with phase := phase } := by
    intro q hq
    rw [hrequests] at hq
    exact Sound.mem_goto hq
  constructor
  case home =>
    rw [hissued]
    exact hs.home
  case stored =>
    intro sid triple h
    rw [hissued]
    rcases hstored sid triple h with ⟨hsame, _⟩ | ⟨_, rfl, htriple⟩
    · exact hs.stored sid triple hsame
    · exact hs.carried r hmem triple (Request.mem_triples.mpr (Or.inr htriple))
  case carried =>
    intro q hq triple htriple
    rw [hissued]
    rcases hold q hq with hq | rfl
    · exact hs.carried q hq triple htriple
    · exact hs.carried r hmem triple htriple
  case known =>
    intro triple h
    rw [hissued]
    rcases huses triple with hsame | ⟨htriple, _⟩
    · rw [hsame] at h
      exact hs.known triple h
    · exact ⟨r.sid, hs.carried r hmem triple (hmine triple htriple)⟩
  case shaped =>
    intro q hq
    rcases hold q hq with hq | rfl
    · exact hs.shaped q hq
    · refine ⟨hshaped.popped, fun h => Or.inr ?_⟩
      rcases hshaped.ending h with hphase | hphase
      · exact hleaving hphase
      · exact absurd hphase hlive
  case alone =>
    intro j k p q hp hq hplive hqlive triple htriple htriple'
    rw [hrequests] at hp hq
    rcases getElem?_goto hr hp with ⟨_, hpold⟩ | ⟨rfl, rfl⟩
    · rcases getElem?_goto hr hq with ⟨_, hqold⟩ | ⟨rfl, rfl⟩
      · exact hs.alone j k p q hpold hqold hplive hqlive triple htriple htriple'
      · exact hs.alone j k p r hpold hr hplive hlive triple htriple htriple'
    · rcases getElem?_goto hr hq with ⟨_, hqold⟩ | ⟨rfl, rfl⟩
      · exact hs.alone j k r q hr hqold hlive hqlive triple htriple htriple'
      · rfl
  case once =>
    intro triple
    rcases huses triple with hsame | ⟨htriple, hphase, _, hmore⟩
    · rw [hsame]
      exact hs.once triple
    · rw [hmore, hunused triple (hmine triple htriple) hphase]
  case spent =>
    intro triple h q hq hqlive htriple'
    rcases List.mem_iff_getElem?.mp hq with ⟨j, hj⟩
    rw [hrequests] at hj
    rcases huses triple with hsame | ⟨htriple, hphase, hout, _⟩
    · rw [hsame] at h
      rcases getElem?_goto hr hj with ⟨_, hj⟩ | ⟨_, rfl⟩
      · exact hs.spent triple h q (List.mem_of_getElem? hj) hqlive htriple'
      · -- it would have been leaving, and have ended by now
        exact absurd (hleaving (hs.spent triple h r hmem hlive htriple').1) hqlive
    · rcases getElem?_goto hr hj with ⟨hne, hj⟩ | ⟨_, rfl⟩
      · have hmine' := hmine triple htriple
        exact absurd (hs.alone j i q r hj hr hqlive hlive triple htriple' hmine') hne
      · rcases hout with hout | hout
        · exact ⟨hout, (hshaped.popped triple htriple).2⟩
        · exact absurd hout hqlive
  case covered =>
    intro triple h sid hstored'
    have hmine' : ({ r with phase := phase } : Request) ∈ s'.requests := by
      rw [hrequests]
      exact List.mem_set (List.getElem?_eq_some_iff.mp hr).1 _
    rcases hstored sid triple hstored' with ⟨hsame, hgone⟩ | ⟨_, _, hcopy⟩
    · have hsid : triple ∈ r.triples → sid = r.sid := fun htriple =>
        hs.home triple sid r.sid (hs.stored sid triple hsame) (hs.carried r hmem triple htriple)
      rcases huses triple with huse | ⟨htriple, _, hout, _⟩
      · -- somebody carried it before
        have hbefore : s.uses triple ≠ 0 := by rwa [huse] at h
        rcases hs.covered triple hbefore sid hsame with ⟨q, hq, hqlive, hqtriple⟩
        rcases List.mem_iff_getElem?.mp hq with ⟨j, hj⟩
        by_cases hji : j = i
        · obtain rfl : q = r := Option.some.inj (by rw [← hj, hji, hr])
          by_cases hended : phase = .ended
          · -- it ends with the triple where it was, although it has taken it out
            exfalso
            have hnone := (hs.spent triple hbefore q hmem hlive hqtriple).2
            rcases Request.mem_triples.mp hqtriple with htook | hcopy
            · exact hgone hended (hsid hqtriple) h htook
            · simp [hnone] at hcopy
          · exact ⟨_, hmine', hended, hqtriple⟩
        · refine ⟨q, ?_, hqlive, hqtriple⟩
          have hkept : (s.goto i r phase).requests[j]? = some q := by
            rw [State.goto, List.getElem?_set_ne (Ne.symm hji), hj]
          rw [hrequests]
          exact List.mem_of_getElem? hkept
      · rcases hout with hout | hout
        · refine ⟨_, hmine', ?_, hmine triple htriple⟩
          simp [hout]
        · exact absurd htriple (hgone hout (hsid (hmine triple htriple)) h)
    · -- a copy with the triple in it belongs to a request that has not used it, nor anyone
      exfalso
      rcases huses triple with huse | ⟨htriple, _⟩
      · rw [huse] at h
        have hspent := hs.spent triple h r hmem hlive (Request.mem_triples.mpr (Or.inr hcopy))
        simp [hspent.2] at hcopy
      · simp [(hshaped.popped triple htriple).2] at hcopy

/-- A request goes on without a use of a triple. -/
theorem moves (hs : Spending s) (phase : Phase) (hr : s.requests[i]? = some r)
    (hlive : r.phase ≠ .leaving ∧ r.phase ≠ .ended)
    (hrequests : s'.requests = (s.goto i r phase).requests) (hissued : s'.issued = s.issued)
    (hsessions : s'.sessions = s.sessions) (huses : ∀ triple, s'.uses triple = s.uses triple) :
    Spending s' := by
  refine hs.goes phase hr hlive.2 (fun h => absurd h hlive.1) hrequests hissued
    (fun triple => Or.inl (huses triple)) ?_
  intro sid triple hstored
  rw [State.stored_congr hsessions] at hstored
  refine Or.inl ⟨hstored, fun _ _ h htriple => ?_⟩
  -- a request that has used its triple is leaving
  rw [huses triple] at h
  have htriples : triple ∈ r.triples := Request.mem_triples.mpr (Or.inl htriple)
  exact hlive.1 (hs.spent triple h r (List.mem_of_getElem? hr) hlive.2 htriples).1

/-- A link that was made is a use of the triple of its request. -/
theorem links (hs : Spending s) {claim : Subject} {user : ℕ} {session_user : Option ℕ}
    (hr : s.requests[i]? = some r) (hlive : r.phase ≠ .leaving ∧ r.phase ≠ .ended)
    (hrequests : s'.requests = (s.goto i r .leaving).requests) (hissued : s'.issued = s.issued)
    (hsessions : s'.sessions = s.sessions)
    (hhistory : s'.history = .linked r.triple claim.subject user session_user :: s.history) :
    Spending s' := by
  refine hs.goes .leaving hr hlive.2 (fun h => absurd h hlive.1) hrequests hissued ?_ ?_
  · intro triple
    rw [State.uses_cons hhistory]
    by_cases htriple : r.triple = some triple
    · exact Or.inr ⟨htriple, hlive.1, Or.inl rfl, by simp [Event.spends, htriple]⟩
    · exact Or.inl (by simp [Event.spends, htriple])
  · intro sid triple hstored
    rw [State.stored_congr hsessions] at hstored
    exact Or.inl ⟨hstored, fun h => nomatch h⟩

theorem commitLink (hs : Spending s) {claim : Subject} {user : ℕ} (found : Option ℕ)
    (hr : s.requests[i]? = some r) (hlive : r.phase ≠ .leaving ∧ r.phase ≠ .ended) :
    Spending (commitLink s i r claim user found) := by
  unfold Google.commitLink
  cases found with
  | some owner => exact hs.links hr hlive rfl rfl rfl rfl
  | none =>
    simp only []
    split_ifs
    · exact hs.moves .leaving hr hlive rfl rfl rfl fun _ => rfl
    · exact hs.links hr hlive rfl rfl rfl rfl

theorem commitCreate (hs : Spending s) (claim : Subject) (hr : s.requests[i]? = some r)
    (hlive : r.phase ≠ .leaving ∧ r.phase ≠ .ended) :
    Spending (commitCreate host s i r claim) := by
  unfold Google.commitCreate
  split_ifs
  · exact hs.moves _ hr hlive rfl rfl rfl fun _ => rfl
  · refine hs.moves _ hr hlive rfl rfl rfl fun triple => ?_
    rw [State.uses_cons rfl]
    simp [Event.spends]

/-- What a sign-in leaves stored is no triple under the key of its session. -/
theorem stored_signIn {claim : Subject} {user newSid sid : ℕ} {triple : Triple}
    (hcopy : r.session.triple = none)
    (h : (Google.signIn s i r claim user newSid).stored sid = some triple) :
    s.stored sid = some triple ∧ sid ≠ r.sid := by
  unfold Google.signIn at h
  split_ifs at h with hsecond hsame
  · rcases State.stored_of_save rfl h with
      ⟨_, hnew⟩ | hold
    · simp [hcopy] at hnew
    · exact hold
  · rcases State.stored_of_save rfl h with ⟨_, hnew⟩ | hold
    · simp [hcopy] at hnew
    · exact hold
  · have hnone : ({ r.session with user := some user } : Session).triple = none := hcopy
    exact State.stored_of_login rfl hnone h
  · exact State.stored_of_login rfl rfl h

theorem signIn (hs : Spending s) {claim : Subject} {user : ℕ} (newSid : ℕ)
    (hr : s.requests[i]? = some r) (hphase : r.phase = .signing claim user) :
    Spending (signIn s i r claim user newSid) := by
  have hshaped := hs.shaped r (List.mem_of_getElem? hr)
  have hcopy : r.session.triple = none := by
    by_contra hne
    rcases hshaped.ending hne with h | h
    all_goals simp [hphase] at h
  refine hs.goes .ended hr (by simp [hphase]) (fun _ => rfl) rfl rfl ?_ ?_
  · intro triple
    have hhistory : (Google.signIn s i r claim user newSid).history =
        .signedIn r.triple claim.subject user :: s.history := rfl
    rw [State.uses_cons hhistory]
    by_cases htriple : r.triple = some triple
    · exact Or.inr ⟨htriple, by simp [hphase], Or.inr rfl, by simp [Event.spends, htriple]⟩
    · exact Or.inl (by simp [Event.spends, htriple])
  · intro sid triple hstored
    rcases stored_signIn hcopy hstored with ⟨hold, hsid⟩
    exact Or.inl ⟨hold, fun _ h => absurd h hsid⟩

theorem leave (hs : Spending s) (hr : s.requests[i]? = some r) (hphase : r.phase = .leaving) :
    Spending (leave s i r) := by
  have hshaped := hs.shaped r (List.mem_of_getElem? hr)
  refine hs.goes .ended hr (by simp [hphase]) (fun _ => rfl) rfl rfl (fun _ => Or.inl rfl) ?_
  intro sid triple hstored
  by_cases hmodified : r.modified = true
  · have hsessions : (Google.leave s i r).sessions = save s r r.session := by
      simp [Google.leave, hmodified]
    rcases State.stored_of_save hsessions hstored with ⟨rfl, hcopy⟩ | ⟨hold, hsid⟩
    · exact Or.inr ⟨rfl, rfl, hcopy⟩
    · exact Or.inl ⟨hold, fun _ h => absurd h hsid⟩
  · -- nothing was taken out
    have hsessions : (Google.leave s i r).sessions = s.sessions := by
      simp [Google.leave, hmodified]
    rw [State.stored_congr hsessions] at hstored
    exact Or.inl ⟨hstored, fun _ _ _ htriple => hmodified (hshaped.popped triple htriple).1⟩

theorem advance (hs : Spending s) (hr : s.requests[i]? = some r) (h : Advances host s i r s') :
    Spending s' := by
  cases h with
  | move phase hlive _ _ _ => exact hs.moves phase hr hlive rfl rfl rfl fun _ => rfl
  | link claim user found hphase => exact hs.commitLink found hr (by simp [hphase])
  | entry claim user hphase =>
    exact hs.moves (.signing claim user) hr (by simp [hphase]) rfl rfl rfl fun _ => rfl
  | create claim hphase => exact hs.commitCreate claim hr (by simp [hphase])
  | sign claim user newSid hphase _ => exact hs.signIn newSid hr hphase
  | leave hphase => exact hs.leave hr hphase

theorem step (hs : Spending s) (hcareful : careful s a)
    (h : (signIns host).next s a = some s') : Spending s' := by
  cases step_cases h with
  | opens r drawn hr hnew htriples hshaped _ =>
    refine hs.opens ?_ hnew htriples hshaped
    intro q hq hlive triple htriple
    exact hcareful r hr q hq hlive triple htriple
  | advances i r hr h => exact hs.advance hr h
  | unlinks user =>
    exact ⟨hs.home, hs.stored, hs.carried, hs.known, hs.shaped, hs.alone, hs.once, hs.spent,
      hs.covered⟩
  | writes users =>
    exact ⟨hs.home, hs.stored, hs.carried, hs.known, hs.shaped, hs.alone, hs.once, hs.spent,
      hs.covered⟩

end Spending

/-- Whatever the order of the steps, a subject belongs to at most one user and a session is signed
in only as a user its subject was bound to; and a triple leads to at most one sign-in or link as
long as no request takes a triple out of the session that one in flight carries. -/
theorem triple_once (hs : s.Initial) (hrun : (signIns host).RunIf careful s as t) :
    Machine.RunIf.Always (signIns host) State.Proper s as := by
  rintro before rest u rfl hu
  rcases hrun.split with ⟨u', hu', _⟩
  obtain rfl : u' = u := Option.some.inj (hu'.exec_eq.symm.trans hu.exec_eq)
  have hspending : Spending u' :=
    hu'.invariant (fun _ _ _ hcareful hs h => hs.step hcareful h) (Spending.initial hs)
  rcases bindings_sound hs hu with ⟨hone, hsigned⟩
  exact ⟨hone, hsigned, hspending.once⟩

/-! ## A triple used twice -/

def State.empty : State := ⟨Table.empty, [], fun _ => none, [], [], []⟩

theorem State.initial_empty : State.empty.Initial := ⟨rfl, rfl, rfl, rfl, fun _ => rfl⟩

def drawn : Triple := ⟨"state", "nonce", "verifier"⟩

def granted : Reply := ⟨"state", "", "code"⟩

def verified : Claims := ⟨"nonce", "108", "ada@example.com", true⟩

/-- A sign-in by a new subject. -/
def once : List Action :=
  [.start 1 1000 false (some drawn), .finish 0 0, .callback 1 1100 granted,
    .exchange 1 (some verified), .look 1, .decide 1, .commit 1, .finish 1 2]

/-- Google grants two codes for one request, and both callbacks read the session before either
saves it. -/
def twice : List Action :=
  [.start 1 1000 false (some drawn), .finish 0 0, .callback 1 1100 granted,
    .callback 1 1100 granted, .exchange 1 (some verified), .exchange 2 (some verified), .look 1,
    .decide 1, .commit 1, .finish 1 2, .look 2, .decide 2, .commit 2, .finish 2 3]

theorem triple_twice :
    ¬ Machine.RunIf.Always (signIns .ascii) State.Proper State.empty twice := by
  intro halways
  have hexec : ((signIns .ascii).exec State.empty twice).any (fun t =>
      t.uses drawn = 2) = true := by
    decide +kernel
  obtain ⟨t, ht, huses⟩ := (Option.any_eq_true _ _).mp hexec
  have hone := (halways.last ht).2.2 drawn
  have htwo := of_decide_eq_true huses
  omega

theorem triple_once_signed : ∃ t, (signIns .ascii).RunIf careful State.empty once t ∧
    Machine.RunIf.Always (signIns .ascii) State.Proper State.empty once := by
  have hsome : ((signIns .ascii).execIf careful State.empty once).isSome = true := by
    decide +kernel
  obtain ⟨t, ht⟩ := Machine.exists_runIf hsome
  exact ⟨t, ht, triple_once State.initial_empty ht⟩

end AlgoBot.Google
