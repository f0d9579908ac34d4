import AlgoBot.Brokers.ActiveAccount

/-!
# The credentials of the Deriv accounts of a user

All Deriv accounts of a user share one pair of tokens, and the provider accepts each
refresh token once. `refresh_deriv_token` and `reconnect_deriv` read the token of one
account, exchange it, and store the new pair in every active account in a transaction
that locks them row by row. The OAuth callback gets a pair of its own and saves the
accounts of its list one by one, then checks the connection of the selected one.
`disconnect_deriv` erases the credentials of one account.

* `rotation_settles`: once all requests of a run have finished, every active account
  has the newest pair and is not marked expired while that is valid, and in every
  state a disconnected account has no credentials and stays revoked, if no pair is
  stored over a newer one, the newest pair is never dropped, only accounts whose
  credentials do not work are marked expired, and the connection check does not come
  after a disconnect.
* `loser_expires`: two refreshes that read one token; the one that comes second marks
  the new credentials expired.
-/

namespace AlgoBot.TokenRotation

open AlgoBot.Core AlgoBot.Accounts AlgoBot.ActiveAccount

/-! ## The accounts and the provider -/

/-- A Deriv account of the user. A token is the number of its pair; none is the empty text. -/
structure Account where
  pk : ℕ
  account_id : String
  status : AccountStatus
  access_token : Option ℕ
  refresh_token : Option ℕ
  token_status : TokenStatus
  expires_at : Option ℕ
  deriving DecidableEq, Repr

instance : HasPk Account := ⟨Account.pk⟩

/-- What `_persist_refreshed_credentials` writes to an account. -/
def Account.refreshed (pair expires_at : ℕ) (a : Account) : Account :=
  { a with
    access_token := some pair
    refresh_token := some pair
    expires_at := some expires_at
    token_status := .active }

/-- What a failed refresh writes. -/
def Account.expire (a : Account) : Account := { a with token_status := .expired }

/-- What `disconnect_deriv` writes. -/
def Account.revoke (a : Account) : Account :=
  { a with
    token_status := .revoked
    status := .disabled
    access_token := none
    refresh_token := none }

/-- What `_persist_deriv_account` writes. -/
def Account.connect (pair expires_at : ℕ) (a : Account) : Account :=
  { a.refreshed pair expires_at with status := .active }

/-- What the connection check writes. -/
def Account.check (a : Account) : Account := { a with status := .active }

def Account.isActive (a : Account) : Bool := a.status = .active

/-- `is_token_expired`. -/
def Account.isTokenExpired (now : ℕ) (a : Account) : Bool := a.expires_at.any fun at_ => at_ ≤ now

/-- The pairs the provider has issued are numbered; the refresh tokens in `spent` were accepted
once, or are invalid for another reason. -/
structure Provider where
  newest : ℕ
  spent : List ℕ

def Provider.accepts (p : Provider) (token : ℕ) : Bool := token ≤ p.newest && token ∉ p.spent

/-- A new pair for a refresh token. -/
def Provider.exchange (p : Provider) (token : ℕ) : Provider := ⟨p.newest + 1, token :: p.spent⟩

/-- A new pair for an authorization code. -/
def Provider.authorize (p : Provider) : Provider := { p with newest := p.newest + 1 }

/-- The newest pair is valid. -/
def Provider.valid (p : Provider) : Bool := p.newest ∉ p.spent

/-! ## Requests -/

/-- Where a request stands. -/
inductive Request
  | idle
  /-- `refresh_deriv_token` and `reconnect_deriv` with the token they read, before the exchange. -/
  | refreshing (k token : ℕ)
  | reconnecting (k token : ℕ)
  /-- `refresh_deriv_token` after a failed exchange. -/
  | failed (k : ℕ)
  /-- A new pair, before its transaction, and in it with the accounts it has not come to. -/
  | exchanged (pair expires_in : ℕ)
  | storing (pair expires_in : ℕ) (todo : List ℕ)
  | disconnecting (k : ℕ)
  /-- The callback with the account ids it has not come to. -/
  | callback (pair expires_in : ℕ) (rest : List String) (selected_id : String) (selected : Option ℕ)
  /-- The connection check of the callback. -/
  | checking (k : ℕ)
  deriving DecidableEq, Repr

structure State where
  accounts : Table Account
  /-- The request whose transaction holds the row. -/
  locks : ℕ → Option ℕ
  provider : Provider
  requests : ℕ → Request
  /-- The account was disconnected and has not been connected again; nothing reads it. -/
  disconnected : ℕ → Bool

inductive Action
  /-- Request `i` begins, for the account `_account` resolves to. -/
  | refresh (i k : ℕ)
  | reconnect (i k now : ℕ)
  | disconnect (i k : ℕ)
  /-- A callback exchanges its code; `ids` are the accounts it then verifies. -/
  | authorize (i expires_in : ℕ) (ids : List String)
  /-- The exchange of request `i`: whether it reaches the provider, whether the answer comes back,
  and whether that is a valid token response. -/
  | exchange (i : ℕ) (reaches answered valid : Bool) (expires_in : ℕ)
  /-- The next query or write of request `i`, unless it waits for a row. -/
  | advance (i now : ℕ)
  /-- The connection check of request `i` ends. -/
  | check (i : ℕ) (verified : Bool)
  /-- An exception, and the rollback of an open transaction. -/
  | fail (i : ℕ)
  /-- The provider gives up a token. -/
  | invalidate (token : ℕ)

namespace State

variable (s : State)

def set (i : ℕ) (r : Request) : State := { s with requests := Function.update s.requests i r }

/-- The account, if it is active. -/
def account (k : ℕ) : Option Account := (s.accounts.get? k).filter Account.isActive

/-- The last write of request `i`, to one account. -/
def write (i : ℕ) (r : Request) (disconnected : Bool) (a : Account) : State :=
  { s.set i r with
    accounts := s.accounts.set a
    disconnected := Function.update s.disconnected a.pk disconnected }

/-- The `COMMIT` of a rotation. -/
def commit (i pair expires_at : ℕ) : State :=
  { s.set i .idle with
    accounts := s.accounts.update
      (fun a => if s.locks a.pk = some i then a.refreshed pair expires_at else a) (by
        intro a
        split <;> rfl)
    locks := fun k => if s.locks k = some i then none else s.locks k }

/-- The next query or write of a request; `none` while it waits. -/
def advance (i now : ℕ) : Request → Option State
  | .failed k =>
      match s.accounts.get? k with
      | none => some (s.set i .idle)
      | some a =>
          if s.locks k = none then some (s.write i .idle (s.disconnected k) a.expire) else none
  | .exchanged pair expires_in =>
      let linked := s.accounts.rows.filter Account.isActive
      some (s.set i (.storing pair expires_in (linked.map Account.pk)))
  | .storing pair expires_in (k :: todo) =>
      if (s.locks k).all fun j => j == i then
        -- the condition is looked at again once the row is free
        match s.account k with
        | some _ =>
            some { s.set i (.storing pair expires_in todo) with
              locks := Function.update s.locks k (some i) }
        | none => some (s.set i (.storing pair expires_in todo))
      else none
  | .storing pair expires_in [] => some (s.commit i pair (now + expires_in))
  | .disconnecting k =>
      match s.accounts.get? k with
      | none => some (s.set i .idle)
      | some a => if s.locks k = none then some (s.write i .idle true a.revoke) else none
  | .callback pair expires_in (id :: rest) selected_id selected =>
      let left := fun k : ℕ =>
        .callback pair expires_in rest selected_id (if id = selected_id then some k else selected)
      match s.accounts.find? fun a => a.account_id == id with
      | some a =>
          if s.locks a.pk = none then
            some (s.write i (left a.pk) false (a.connect pair (now + expires_in)))
          else none
      | none =>
          let k := s.accounts.nextPk
          some { s.set i (left k) with
            accounts := s.accounts.create (fun k =>
              ⟨k, id, .active, some pair, some pair, .active, some (now + expires_in)⟩) fun _ => rfl
            disconnected := Function.update s.disconnected k false }
  | .callback _ _ [] _ none => some (s.set i .idle)
  | .callback _ _ [] _ (some k) => some (s.set i (.checking k))
  | _ => none

/-- After an exchange that issued a pair or did not. -/
def exchanged (i : ℕ) (accepted answered valid : Bool) (expires_in : ℕ) (failed : Request) :
    State :=
  if accepted && answered then
    s.set i (if valid then .exchanged s.provider.newest expires_in else .idle)
  else s.set i failed

def next : Action → Option State
  | .refresh i k =>
      match s.requests i, (s.account k).bind Account.refresh_token with
      | .idle, some token => some (s.set i (.refreshing k token))
      | .idle, none => some s
      | _, _ => none
  | .reconnect i k now =>
      match s.requests i, s.account k with
      | .idle, some a =>
          if a.token_status = .active && !a.isTokenExpired now then some s
          else
            match a.refresh_token with
            | some token => some (s.set i (.reconnecting k token))
            | none => some s
      | .idle, none => some s
      | _, _ => none
  | .disconnect i k =>
      match s.requests i, s.account k with
      | .idle, some _ => some (s.set i (.disconnecting k))
      | .idle, none => some s
      | _, _ => none
  | .authorize i expires_in ids =>
      match s.requests i with
      | .idle =>
          let provider := s.provider.authorize
          some { s.set i (.callback provider.newest expires_in ids (ids.head?.getD "") none) with
            provider := provider }
      | _ => none
  | .exchange i reaches answered valid expires_in =>
      match s.requests i with
      | .refreshing k token =>
          let accepted := reaches && s.provider.accepts token
          let s := if accepted then { s with provider := s.provider.exchange token } else s
          some (s.exchanged i accepted answered valid expires_in (.failed k))
      | .reconnecting _ token =>
          let accepted := reaches && s.provider.accepts token
          let s := if accepted then { s with provider := s.provider.exchange token } else s
          some (s.exchanged i accepted answered valid expires_in .idle)
      | _ => none
  | .advance i now => s.advance i now (s.requests i)
  | .check i verified =>
      match s.requests i with
      | .checking k =>
          match s.accounts.get? k with
          | some a =>
              if !verified then some (s.set i .idle)
              else if s.locks k = none then some (s.write i .idle (s.disconnected k) a.check)
              else none
          | none => some (s.set i .idle)
      | _ => none
  | .fail i =>
      some { s.set i .idle with locks := fun k => if s.locks k = some i then none else s.locks k }
  | .invalidate token =>
      some { s with provider := { s.provider with spent := token :: s.provider.spent } }

end State

/-- Requests of the user, one query, exchange or write at a time. -/
def rotation : Machine State Action := ⟨State.next⟩

/-! ## What the claim asks -/

/-- The account has the newest pair. -/
def State.holds (s : State) (a : Account) : Bool :=
  a.access_token == some s.provider.newest && a.refresh_token == some s.provider.newest

/-- The account has the newest pair, and is marked active if that is valid. -/
def State.current (s : State) (a : Account) : Bool :=
  s.holds a && (!s.provider.valid || a.token_status = .active)

/-- All requests have finished. -/
def Finished (s : State) : Prop := ∀ i, s.requests i = .idle

/-- The account holds no credentials and is revoked. -/
def Account.Erased (a : Account) : Prop :=
  a.access_token = none ∧ a.refresh_token = none ∧ a.token_status = .revoked

structure Settled (s : State) : Prop where
  current : Finished s → ∀ k a, s.account k = some a → s.current a = true
  erased : ∀ k a, s.accounts.get? k = some a → s.disconnected k = true → a.Erased

/-! ## The condition -/

/-- The pair is at least as new as what the account has. -/
def Account.atMost (pair : ℕ) (a : Account) : Bool :=
  a.access_token.all (fun old => old ≤ pair) && a.refresh_token.all fun old => old ≤ pair

/-- The pair a request was given and has not stored in every account. -/
def Request.pair : Request → Option ℕ
  | .exchanged pair _ | .storing pair _ _ | .callback pair _ _ _ _ => some pair
  | _ => none

/-- Request `i` may end: it has not got the newest pair, or every active account has it. -/
def State.mayEnd (s : State) (i : ℕ) : Bool :=
  (s.requests i).pair != some s.provider.newest ||
    s.accounts.rows.all fun a => !a.isActive || s.current a

/-- No pair is stored over a newer one, the newest pair is not dropped, an account is marked expired
only if its credentials do not work, and the connection check saves no disconnected account. -/
def careful (s : State) : Action → Bool
  | .exchange i reaches answered valid _ =>
      match s.requests i with
      | .refreshing _ token | .reconnecting _ token =>
          !(reaches && s.provider.accepts token) || (answered && valid)
      | _ => true
  | .advance i _ =>
      match s.requests i with
      | .failed k =>
          !s.disconnected k && (s.account k).all fun a => !(s.provider.valid && s.holds a)
      | .storing pair _ (k :: _) => (s.account k).all (Account.atMost pair)
      | .callback pair _ (id :: _) _ _ =>
          pair == s.provider.newest || (s.accounts.find? fun a => a.account_id == id).any fun a =>
            a.isActive && a.atMost pair
      | .callback _ _ [] _ _ => s.mayEnd i
      | _ => true
  | .check i verified =>
      match s.requests i with
      | .checking k => !verified || !s.disconnected k
      | _ => true
  | .fail i => s.mayEnd i
  | _ => true

/-! ## The invariant -/

/-- Request `i` is going to store the newest pair in the account. -/
def State.Owes (s : State) (i k : ℕ) : Prop :=
  match s.requests i with
  | .exchanged pair _ => pair = s.provider.newest
  | .storing pair _ todo => pair = s.provider.newest ∧ (k ∈ todo ∨ s.locks k = some i)
  | .callback pair _ _ _ _ => pair = s.provider.newest
  | _ => False

/-- The account whose connection the request is going to check. -/
def Request.selected : Request → Option ℕ
  | .callback _ _ _ _ selected => selected
  | .checking k => some k
  | _ => none

structure Inv (s : State) : Prop where
  locks : ∀ k i, s.locks k = some i → ∃ pair expires_in todo,
    s.requests i = .storing pair expires_in todo ∧
      ∃ a, s.account k = some a ∧ a.atMost pair = true
  issued : ∀ i pair, (s.requests i).pair = some pair → pair ≤ s.provider.newest
  current : ∀ k a, s.account k = some a → s.current a = true ∨ ∃ i, s.Owes i k
  erased : ∀ k a, s.accounts.get? k = some a → s.disconnected k = true →
    a.isActive = false ∧ a.Erased
  selected : ∀ i k, (s.requests i).selected = some k → ∃ a, s.accounts.get? k = some a ∧
    (a.isActive = true ∨ s.disconnected k = true)

variable {s s' : State} {i j k l now pair : ℕ} {a b : Account} {r : Request} {d : Bool}

theorem account_eq_some : s.account k = some a ↔ s.accounts.get? k = some a ∧ a.isActive = true :=
  Option.filter_eq_some_iff

theorem set_requests (s : State) (i : ℕ) (r : Request) : (s.set i r).requests i = r :=
  Function.update_self _ _ _

/-- An account with the newest pair has it from no older one. -/
theorem newest_le (hholds : s.current a = true) (hle : a.atMost pair = true) :
    s.provider.newest ≤ pair := by
  simp only [State.current, State.holds, Bool.and_eq_true, beq_iff_eq] at hholds
  simp only [Account.atMost, Bool.and_eq_true, hholds.1.1, Option.all_some] at hle
  exact of_decide_eq_true hle.1

theorem owes_pair (howes : s.Owes i k) : (s.requests i).pair = some s.provider.newest := by
  unfold State.Owes at howes
  split at howes
  · next hr => rw [hr, Request.pair, howes]
  · next hr => rw [hr, Request.pair, howes.1]
  · next hr => rw [hr, Request.pair, howes]
  · exact howes.elim

/-- Where every active account is current nothing is owed. -/
theorem all_current (hall : (s.accounts.rows.all fun a => !a.isActive || s.current a) = true)
    (ha : s.account k = some a) : s.current a = true := by
  obtain ⟨hget, hactive⟩ := account_eq_some.mp ha
  have hmem := (Table.get?_eq_some.mp hget).1
  have hone := List.all_eq_true.mp hall a hmem
  rw [hactive] at hone
  exact hone

/-! ### A write to one account -/

theorem get?_write (hget : s.accounts.get? b.pk = some a) (l : ℕ) :
    (s.write i r d b).accounts.get? l = if l = b.pk then some b else s.accounts.get? l := by
  have hrow : s.accounts.get? (HasPk.pk b) = some a := hget
  exact Table.get?_set_of_some hrow l

/-- A request that stays where it is, with the rows it holds, owes what it owed. -/
theorem owes_mono {s' : State} (hrequest : s'.requests j = s.requests j)
    (hprovider : s'.provider = s.provider) (hlock : s.locks l = some j → s'.locks l = some j)
    (howes : s.Owes j l) : s'.Owes j l := by
  unfold State.Owes at howes ⊢
  rw [hrequest, hprovider]
  cases hr : s.requests j with
  | storing pair expires_in todo =>
    rw [hr] at howes
    exact ⟨howes.1, howes.2.imp_right hlock⟩
  | _ =>
    rw [hr] at howes
    exact howes

/-- What a request that writes to one account has to see to. -/
theorem Inv.of_write (hinv : Inv s) (hget : s.accounts.get? b.pk = some a)
    (hfree : s.locks b.pk = none) (hunlocked : ∀ l, s.locks l ≠ some i)
    (hpair : ∀ pair, r.pair = some pair → (s.requests i).pair = some pair)
    (howes : ∀ l, s.Owes i l → (s.write i r d b).Owes i l)
    (hcurrent : b.isActive = true → s.current b = true ∨ ∃ j, s.Owes j b.pk)
    (herased : d = true → b.isActive = false ∧ b.Erased)
    (hactive : a.isActive = true ∨ s.disconnected b.pk = true → b.isActive = true ∨ d = true)
    (hselected : ∀ k, r.selected = some k → (s.requests i).selected = some k ∨
      k = b.pk ∧ (b.isActive = true ∨ d = true)) : Inv (s.write i r d b) := by
  have hrequests : ∀ j, j ≠ i → (s.write i r d b).requests j = s.requests j := by
    intro j hj
    exact Function.update_of_ne hj _ _
  have hown : (s.write i r d b).requests i = r := Function.update_self _ _ _
  have hother : ∀ l, l ≠ b.pk → (s.write i r d b).accounts.get? l = s.accounts.get? l := by
    intro l hl
    rw [get?_write hget, if_neg hl]
  have hself : (s.write i r d b).accounts.get? b.pk = some b := by
    rw [get?_write hget, if_pos rfl]
  have hgone : ∀ l, l ≠ b.pk → (s.write i r d b).disconnected l = s.disconnected l := by
    intro l hl
    exact Function.update_of_ne hl _ _
  have hgone' : (s.write i r d b).disconnected b.pk = d := Function.update_self _ _ _
  have howes' : ∀ j l, s.Owes j l → (s.write i r d b).Owes j l := by
    intro j l hj
    by_cases hji : j = i
    · rw [hji] at hj ⊢
      exact howes l hj
    · exact owes_mono (hrequests j hji) rfl id hj
  have hstill : ∀ k, (∃ a, s.accounts.get? k = some a ∧
      (a.isActive = true ∨ s.disconnected k = true)) →
      ∃ a, (s.write i r d b).accounts.get? k = some a ∧
        (a.isActive = true ∨ (s.write i r d b).disconnected k = true) := by
    rintro k ⟨c, hc, hkeep⟩
    by_cases hk : k = b.pk
    · rw [hk, hget] at hc
      obtain rfl := Option.some.inj hc
      rw [hk] at hkeep ⊢
      rw [hgone']
      exact ⟨b, hself, hactive hkeep⟩
    · rw [hother k hk, hgone k hk]
      exact ⟨c, hc, hkeep⟩
  constructor
  · intro l j hlock
    have hlock' : s.locks l = some j := hlock
    have hji : j ≠ i := by
      rintro rfl
      exact hunlocked l hlock'
    have hl : l ≠ b.pk := by
      rintro rfl
      rw [hfree] at hlock'
      cases hlock'
    obtain ⟨pair, expires_in, todo, hstoring, c, hc, hle⟩ := hinv.locks l j hlock'
    refine ⟨pair, expires_in, todo, (hrequests j hji).trans hstoring, c, ?_, hle⟩
    rw [account_eq_some] at hc ⊢
    rw [hother l hl]
    exact hc
  · intro j pair hj
    by_cases hji : j = i
    · rw [hji, hown] at hj
      exact hinv.issued i pair (hpair pair hj)
    · rw [hrequests j hji] at hj
      exact hinv.issued j pair hj
  · intro l c hc
    rw [account_eq_some] at hc
    obtain ⟨hc, hcactive⟩ := hc
    by_cases hl : l = b.pk
    · rw [hl, hself] at hc
      obtain rfl := Option.some.inj hc
      rcases hcurrent hcactive with hyes | ⟨j, hj⟩
      · exact Or.inl hyes
      · rw [hl]
        exact Or.inr ⟨j, howes' j b.pk hj⟩
    · rw [hother l hl] at hc
      rcases hinv.current l c (account_eq_some.mpr ⟨hc, hcactive⟩) with hyes | ⟨j, hj⟩
      · exact Or.inl hyes
      · exact Or.inr ⟨j, howes' j l hj⟩
  · intro l c hc hgone''
    by_cases hl : l = b.pk
    · rw [hl, hself] at hc
      obtain rfl := Option.some.inj hc
      rw [hl, hgone'] at hgone''
      exact herased hgone''
    · rw [hother l hl] at hc
      rw [hgone l hl] at hgone''
      exact hinv.erased l c hc hgone''
  · intro j k hk
    by_cases hji : j = i
    · rw [hji, hown] at hk
      rcases hselected k hk with hold | ⟨rfl, hkeep⟩
      · exact hstill k (hinv.selected i k hold)
      · rw [hgone']
        exact ⟨b, hself, hkeep⟩
    · rw [hrequests j hji] at hk
      exact hstill k (hinv.selected j k hk)

/-! ### Requests that move on -/

/-- Only a request in its transaction holds rows. -/
theorem Inv.unlocked (hinv : Inv s)
    (hrequest : ∀ pair expires_in todo, s.requests i ≠ .storing pair expires_in todo) :
    ∀ l, s.locks l ≠ some i := by
  intro l hlock
  obtain ⟨pair, expires_in, todo, hstoring, _⟩ := hinv.locks l i hlock
  exact hrequest pair expires_in todo hstoring

/-- A request moves on, and other rows than its own may be released. -/
theorem Inv.of_set (hinv : Inv s) (locks : ℕ → Option ℕ)
    (hlocks : ∀ l j, locks l = some j → s.locks l = some j ∧ j ≠ i)
    (hkept : ∀ l j, j ≠ i → s.locks l = some j → locks l = some j)
    (hpair : ∀ pair, r.pair = some pair → (s.requests i).pair = some pair)
    (howes : ∀ l a, s.account l = some a → s.Owes i l →
      s.current a = true ∨ State.Owes { s.set i r with locks := locks } i l)
    (hselected : ∀ k, r.selected = some k → (s.requests i).selected = some k) :
    Inv { s.set i r with locks := locks } := by
  have hrequests : ∀ j, j ≠ i → (s.set i r).requests j = s.requests j := by
    intro j hj
    exact Function.update_of_ne hj _ _
  have hown : (s.set i r).requests i = r := Function.update_self _ _ _
  constructor
  · intro l j hlock
    obtain ⟨hlock', hji⟩ := hlocks l j hlock
    obtain ⟨pair, expires_in, todo, hstoring, hrow⟩ := hinv.locks l j hlock'
    exact ⟨pair, expires_in, todo, (hrequests j hji).trans hstoring, hrow⟩
  · intro j pair hj
    by_cases hji : j = i
    · rw [hji] at hj
      rw [show ({ s.set i r with locks := locks } : State).requests i = r from hown] at hj
      exact hinv.issued i pair (hpair pair hj)
    · rw [show ({ s.set i r with locks := locks } : State).requests j = s.requests j from
        hrequests j hji] at hj
      exact hinv.issued j pair hj
  · intro l c hc
    rcases hinv.current l c hc with hyes | ⟨j, hj⟩
    · exact Or.inl hyes
    · by_cases hji : j = i
      · rw [hji] at hj
        rcases howes l c hc hj with hyes | hstill
        · exact Or.inl hyes
        · exact Or.inr ⟨i, hstill⟩
      · exact Or.inr ⟨j, owes_mono (hrequests j hji) rfl (hkept l j hji) hj⟩
  · exact hinv.erased
  · intro j k hk
    by_cases hji : j = i
    · rw [hji] at hk
      rw [show ({ s.set i r with locks := locks } : State).requests i = r from hown] at hk
      exact hinv.selected i k (hselected k hk)
    · rw [show ({ s.set i r with locks := locks } : State).requests j = s.requests j from
        hrequests j hji] at hk
      exact hinv.selected j k hk

/-- A request that holds no row moves on. -/
theorem Inv.of_moved (hinv : Inv s) (hunlocked : ∀ l, s.locks l ≠ some i)
    (hpair : ∀ pair, r.pair = some pair → (s.requests i).pair = some pair)
    (howes : ∀ l a, s.account l = some a → s.Owes i l →
      s.current a = true ∨ (s.set i r).Owes i l)
    (hselected : ∀ k, r.selected = some k → (s.requests i).selected = some k) :
    Inv (s.set i r) := by
  refine hinv.of_set s.locks ?_ (fun _ _ _ hl => hl) hpair howes hselected
  intro l j hlock
  refine ⟨hlock, ?_⟩
  rintro rfl
  exact hunlocked l hlock

/-- A request without a pair that goes on without one. -/
theorem Inv.of_idle (hinv : Inv s) (hold : (s.requests i).pair = none) (hnew : r.pair = none)
    (hselected : r.selected = none) : Inv (s.set i r) := by
  have hunlocked : ∀ l, s.locks l ≠ some i := by
    refine hinv.unlocked ?_
    intro pair expires_in todo hstoring
    rw [hstoring] at hold
    cases hold
  refine hinv.of_moved hunlocked ?_ ?_ ?_
  · rw [hnew]
    simp
  · intro l a _ howes
    rw [owes_pair howes] at hold
    cases hold
  · rw [hselected]
    simp

/-- A new pair is issued to a request that is going to store it everywhere. -/
theorem Inv.of_issue (hinv : Inv s) {provider : Provider}
    (hnewest : provider.newest = s.provider.newest + 1) (hunlocked : ∀ l, s.locks l ≠ some i)
    (hpair : r.pair = some provider.newest) (hselected : r.selected = none)
    (howes : ∀ l, State.Owes { s.set i r with provider := provider } i l) :
    Inv { s.set i r with provider := provider } := by
  have hrequests : ∀ j, j ≠ i → (s.set i r).requests j = s.requests j := by
    intro j hj
    exact Function.update_of_ne hj _ _
  have hown : (s.set i r).requests i = r := Function.update_self _ _ _
  constructor
  · intro l j hlock
    have hji : j ≠ i := by
      rintro rfl
      exact hunlocked l hlock
    obtain ⟨pair, expires_in, todo, hstoring, hrow⟩ := hinv.locks l j hlock
    exact ⟨pair, expires_in, todo, (hrequests j hji).trans hstoring, hrow⟩
  · intro j pair hj
    show pair ≤ provider.newest
    by_cases hji : j = i
    · rw [hji] at hj
      have hown' : r.pair = some pair := by rw [← hown]; exact hj
      rw [hpair] at hown'
      exact (Option.some.inj hown').ge
    · have hold : (s.requests j).pair = some pair := by rw [← hrequests j hji]; exact hj
      have hle := hinv.issued j pair hold
      omega
  · intro l c _
    exact Or.inr ⟨i, howes l⟩
  · exact hinv.erased
  · intro j k hk
    by_cases hji : j = i
    · rw [hji] at hk
      have hown' : r.selected = some k := by rw [← hown]; exact hk
      rw [hselected] at hown'
      cases hown'
    · have hold : (s.requests j).selected = some k := by rw [← hrequests j hji]; exact hk
      exact hinv.selected j k hold

/-! ### The transaction of a rotation -/

/-- A row is locked, if its account is still active. -/
theorem storing_step {expires_in : ℕ} {todo : List ℕ} (hinv : Inv s)
    (hrequest : s.requests i = .storing pair expires_in (k :: todo))
    (hfree : ∀ j, s.locks k = some j → j = i) (hle : (s.account k).all (Account.atMost pair) = true)
    {locks : ℕ → Option ℕ}
    (hlocks : locks = s.locks ∧ s.account k = none ∨
      locks = Function.update s.locks k (some i) ∧ ∃ a, s.account k = some a) :
    Inv { s.set i (.storing pair expires_in todo) with locks := locks } := by
  have hrequests : ∀ j, j ≠ i →
      (s.set i (.storing pair expires_in todo)).requests j = s.requests j := by
    intro j hj
    exact Function.update_of_ne hj _ _
  have hown : (s.set i (.storing pair expires_in todo)).requests i =
      .storing pair expires_in todo := Function.update_self _ _ _
  have hold : ∀ l j, s.locks l = some j → locks l = some j := by
    intro l j hlock
    rcases hlocks with ⟨rfl, -⟩ | ⟨rfl, -⟩
    · exact hlock
    · by_cases hl : l = k
      · subst hl
        rw [Function.update_self, hfree j hlock]
      · rw [Function.update_of_ne hl]
        exact hlock
  have hnew : ∀ l j, locks l = some j → s.locks l = some j ∨ l = k ∧ j = i ∧
      ∃ a, s.account k = some a := by
    intro l j hlock
    rcases hlocks with ⟨rfl, -⟩ | ⟨rfl, hactive⟩
    · exact Or.inl hlock
    · by_cases hl : l = k
      · subst hl
        rw [Function.update_self] at hlock
        exact Or.inr ⟨rfl, (Option.some.inj hlock).symm, hactive⟩
      · rw [Function.update_of_ne hl] at hlock
        exact Or.inl hlock
  constructor
  · intro l j hlock
    rcases hnew l j hlock with hlock' | ⟨rfl, rfl, a, ha⟩
    · obtain ⟨pair', expires_in', todo', hstoring, hrow⟩ := hinv.locks l j hlock'
      by_cases hji : j = i
      · subst hji
        rw [hrequest] at hstoring
        cases hstoring
        exact ⟨pair, expires_in, todo, hown, hrow⟩
      · exact ⟨pair', expires_in', todo', (hrequests j hji).trans hstoring, hrow⟩
    · rw [ha] at hle
      exact ⟨pair, expires_in, todo, hown, a, ha, hle⟩
  · intro j pair' hj
    by_cases hji : j = i
    · subst hji
      have hpair : some pair = some pair' := by rw [← hj]; exact (congrArg Request.pair hown).symm
      refine hinv.issued j pair' ?_
      rw [hrequest]
      exact hpair
    · have hold' : (s.requests j).pair = some pair' := by rw [← hrequests j hji]; exact hj
      exact hinv.issued j pair' hold'
  · intro l c hc
    rcases hinv.current l c hc with hyes | ⟨j, hj⟩
    · exact Or.inl hyes
    · refine Or.inr ⟨j, ?_⟩
      by_cases hji : j = i
      · subst hji
        unfold State.Owes at hj ⊢
        rw [hrequest] at hj
        rw [show ({ s.set j (.storing pair expires_in todo) with locks := locks } :
          State).requests j = .storing pair expires_in todo from hown]
        obtain ⟨hnewest, hwhere⟩ := hj
        refine ⟨hnewest, ?_⟩
        rcases hwhere with hmem | hlock
        · rcases List.mem_cons.mp hmem with rfl | hmem
          · -- the row the step came to is active, so it is locked
            right
            rcases hlocks with ⟨-, hnone⟩ | ⟨rfl, -⟩
            · have hc' : s.account l = some c := hc
              rw [hnone] at hc'
              cases hc'
            · exact Function.update_self _ _ _
          · exact Or.inl hmem
        · exact Or.inr (hold l j hlock)
      · exact owes_mono (hrequests j hji) rfl (hold l j) hj
  · exact hinv.erased
  · intro j l hl
    by_cases hji : j = i
    · subst hji
      have hnone : (none : Option ℕ) = some l := by
        rw [← hl]
        exact (congrArg Request.selected hown).symm
      cases hnone
    · have hold' : (s.requests j).selected = some l := by rw [← hrequests j hji]; exact hl
      exact hinv.selected j l hold'

theorem get?_commit (s : State) (i pair expires_at l : ℕ) :
    (s.commit i pair expires_at).accounts.get? l = (s.accounts.get? l).map fun a =>
      if s.locks a.pk = some i then a.refreshed pair expires_at else a := by
  simp only [State.commit, Table.get?_update]

theorem current_refreshed (a : Account) (expires_at : ℕ) (hpair : pair = s.provider.newest) :
    s.current (a.refreshed pair expires_at) = true := by
  subst hpair
  simp [State.current, State.holds, Account.refreshed]

/-- The commit stores the pair in the accounts that were active, and nowhere over a newer one. -/
theorem commit_inv {expires_in expires_at : ℕ} (hinv : Inv s)
    (hrequest : s.requests i = .storing pair expires_in []) :
    Inv (s.commit i pair expires_at) := by
  have hrequests : ∀ j, j ≠ i → (s.commit i pair expires_at).requests j = s.requests j := by
    intro j hj
    exact Function.update_of_ne hj _ _
  have hown : (s.commit i pair expires_at).requests i = .idle := Function.update_self _ _ _
  have hreleased : ∀ l j, (s.commit i pair expires_at).locks l = some j →
      s.locks l = some j ∧ s.locks l ≠ some i := by
    intro l j hlock
    simp only [State.commit] at hlock
    split at hlock
    · cases hlock
    · next hother => exact ⟨hlock, hother⟩
  have hkept : ∀ l j, j ≠ i → s.locks l = some j →
      (s.commit i pair expires_at).locks l = some j := by
    intro l j hji hlock
    have hne : ¬ s.locks l = some i := by
      rw [hlock]
      exact fun heq => hji (Option.some.inj heq)
    simp only [State.commit]
    rw [if_neg hne]
    exact hlock
  have hpk : ∀ {l a}, s.accounts.get? l = some a → a.pk = l := fun ha => Table.pk_of_get? ha
  constructor
  · intro l j hlock
    obtain ⟨hlock', hother⟩ := hreleased l j hlock
    have hji : j ≠ i := by
      rintro rfl
      exact hother hlock'
    obtain ⟨pair', expires_in', todo, hstoring, a, ha, hle⟩ := hinv.locks l j hlock'
    refine ⟨pair', expires_in', todo, (hrequests j hji).trans hstoring, a, ?_, hle⟩
    rw [account_eq_some] at ha ⊢
    rw [get?_commit, ha.1, Option.map_some, hpk ha.1, if_neg hother]
    exact ⟨rfl, ha.2⟩
  · intro j pair' hj
    by_cases hji : j = i
    · rw [hji, hown] at hj
      cases hj
    · rw [hrequests j hji] at hj
      exact hinv.issued j pair' hj
  · intro l c hc
    rw [account_eq_some, get?_commit] at hc
    obtain ⟨hget, hcactive⟩ := hc
    obtain ⟨a, ha, rfl⟩ := Option.map_eq_some_iff.mp hget
    rw [hpk ha] at hcactive ⊢
    have hactive : a.isActive = true := by
      split at hcactive
      · exact hcactive
      · exact hcactive
    have hnow := hinv.current l a (account_eq_some.mpr ⟨ha, hactive⟩)
    split
    · next hlocked =>
      by_cases hpair : pair = s.provider.newest
      · exact Or.inl (current_refreshed a expires_at hpair)
      · -- an older pair: the row waits for the newest one anyway
        obtain ⟨pair', expires_in', todo, hstoring, a', ha', hle⟩ := hinv.locks l i hlocked
        rw [hrequest] at hstoring
        cases hstoring
        rw [account_eq_some, ha] at ha'
        obtain rfl := Option.some.inj ha'.1
        rcases hnow with hyes | ⟨j, hj⟩
        · have hge := newest_le hyes hle
          have hissued := hinv.issued i pair (by rw [hrequest]; rfl)
          omega
        · have hji : j ≠ i := by
            rintro rfl
            have howed := owes_pair hj
            rw [hrequest] at howed
            exact hpair (Option.some.inj howed)
          exact Or.inr ⟨j, owes_mono (hrequests j hji) rfl (hkept l j hji) hj⟩
    · next hlocked =>
      rcases hnow with hyes | ⟨j, hj⟩
      · exact Or.inl hyes
      · have hji : j ≠ i := by
          rintro rfl
          unfold State.Owes at hj
          rw [hrequest] at hj
          rcases hj.2 with hmem | hlock
          · cases hmem
          · exact hlocked hlock
        exact Or.inr ⟨j, owes_mono (hrequests j hji) rfl (hkept l j hji) hj⟩
  · intro l c hc hgone
    rw [get?_commit] at hc
    obtain ⟨a, ha, rfl⟩ := Option.map_eq_some_iff.mp hc
    obtain ⟨hinactive, herased⟩ := hinv.erased l a ha hgone
    rw [hpk ha]
    have hunlocked : s.locks l ≠ some i := by
      intro hlock
      obtain ⟨_, _, _, _, a', ha', _⟩ := hinv.locks l i hlock
      rw [account_eq_some, ha] at ha'
      obtain rfl := Option.some.inj ha'.1
      rw [hinactive] at ha'
      cases ha'.2
    rw [if_neg hunlocked]
    exact ⟨hinactive, herased⟩
  · intro j l hl
    by_cases hji : j = i
    · rw [hji, hown] at hl
      cases hl
    · rw [hrequests j hji] at hl
      obtain ⟨a, ha, hkeep⟩ := hinv.selected j l hl
      refine ⟨if s.locks a.pk = some i then a.refreshed pair expires_at else a, ?_, ?_⟩
      · rw [get?_commit, ha, Option.map_some]
      · split
        · exact hkeep
        · exact hkeep

/-- A callback inserts an account with the newest pair. -/
theorem create_inv {mk : ℕ → Account} {expires_in : ℕ} {rest : List String}
    {selected_id id : String} {selected selected' : Option ℕ} (hmk : ∀ k, (mk k).pk = k)
    (hinv : Inv s)
    (hrequest : s.requests i = .callback pair expires_in (id :: rest) selected_id selected)
    (hnew : (mk s.accounts.nextPk).isActive = true ∧ s.current (mk s.accounts.nextPk) = true)
    (hselected : selected' = selected ∨ selected' = some s.accounts.nextPk) :
    Inv { s.set i (.callback pair expires_in rest selected_id selected') with
      accounts := s.accounts.create mk hmk
      disconnected := Function.update s.disconnected s.accounts.nextPk false } := by
  have hrequests : ∀ j, j ≠ i →
      (s.set i (.callback pair expires_in rest selected_id selected')).requests j =
        s.requests j := by
    intro j hj
    exact Function.update_of_ne hj _ _
  have hown : (s.set i (.callback pair expires_in rest selected_id selected')).requests i =
      .callback pair expires_in rest selected_id selected' := Function.update_self _ _ _
  have hself : (s.accounts.create mk hmk).get? s.accounts.nextPk = some (mk s.accounts.nextPk) :=
    Table.get?_create_self hmk
  have hother : ∀ {l a}, s.accounts.get? l = some a →
      l ≠ s.accounts.nextPk ∧ (s.accounts.create mk hmk).get? l = some a := by
    intro l a ha
    refine ⟨?_, Table.get?_create_of_some hmk ha⟩
    rintro rfl
    rw [Table.get?_nextPk] at ha
    cases ha
  have hunlocked := hinv.unlocked (i := i) (by
    intro pair' expires_in' todo hstoring
    rw [hrequest] at hstoring
    cases hstoring)
  have hactive : ∀ {l a}, s.account l = some a → State.account
      { s.set i (.callback pair expires_in rest selected_id selected') with
        accounts := s.accounts.create mk hmk
        disconnected := Function.update s.disconnected s.accounts.nextPk false } l = some a := by
    intro l a ha
    rw [account_eq_some] at ha ⊢
    exact ⟨(hother ha.1).2, ha.2⟩
  constructor
  · intro l j hlock
    have hji : j ≠ i := by
      rintro rfl
      exact hunlocked l hlock
    obtain ⟨pair', expires_in', todo, hstoring, a, ha, hle⟩ := hinv.locks l j hlock
    exact ⟨pair', expires_in', todo, (hrequests j hji).trans hstoring, a, hactive ha, hle⟩
  · intro j pair' hj
    by_cases hji : j = i
    · subst hji
      have hold : some pair = some pair' := by
        rw [← hj]
        exact (congrArg Request.pair hown).symm
      exact hinv.issued j pair' (by rw [hrequest]; exact hold)
    · have hold : (s.requests j).pair = some pair' := by rw [← hrequests j hji]; exact hj
      exact hinv.issued j pair' hold
  · intro l c hc
    rw [account_eq_some] at hc
    obtain ⟨hget, hcactive⟩ := hc
    by_cases hl : l = s.accounts.nextPk
    · subst hl
      have hc : some (mk s.accounts.nextPk) = some c := hself.symm.trans hget
      rw [← Option.some.inj hc]
      exact Or.inl hnew.2
    · have hget' : s.accounts.get? l = some c := by
        rw [← Table.get?_create_ne hmk hl]
        exact hget
      rcases hinv.current l c (account_eq_some.mpr ⟨hget', hcactive⟩) with hyes | ⟨j, hj⟩
      · exact Or.inl hyes
      · refine Or.inr ⟨j, ?_⟩
        by_cases hji : j = i
        · subst hji
          unfold State.Owes at hj ⊢
          rw [hrequest] at hj
          rw [show State.requests { s.set j (.callback pair expires_in rest selected_id selected')
            with
              accounts := s.accounts.create mk hmk
              disconnected := Function.update s.disconnected s.accounts.nextPk false } j =
            .callback pair expires_in rest selected_id selected' from hown]
          exact hj
        · exact owes_mono (hrequests j hji) rfl (fun hlock => hlock) hj
  · intro l c hget hgone
    by_cases hl : l = s.accounts.nextPk
    · subst hl
      have hgone' : Function.update s.disconnected s.accounts.nextPk false s.accounts.nextPk =
        true := hgone
      rw [Function.update_self] at hgone'
      cases hgone'
    · have hgone' : Function.update s.disconnected s.accounts.nextPk false l = true := hgone
      rw [Function.update_of_ne hl] at hgone'
      have hget' : s.accounts.get? l = some c := by
        rw [← Table.get?_create_ne hmk hl]
        exact hget
      exact hinv.erased l c hget' hgone'
  · have hstill : ∀ l, (∃ a, s.accounts.get? l = some a ∧
        (a.isActive = true ∨ s.disconnected l = true)) →
        ∃ a, (s.accounts.create mk hmk).get? l = some a ∧ (a.isActive = true ∨
          Function.update s.disconnected s.accounts.nextPk false l = true) := by
      rintro l ⟨a, ha, hkeep⟩
      obtain ⟨hl, ha'⟩ := hother ha
      rw [Function.update_of_ne hl]
      exact ⟨a, ha', hkeep⟩
    intro j l hl
    by_cases hji : j = i
    · subst hji
      have hown' : selected' = some l := by
        rw [← hl]
        exact (congrArg Request.selected hown).symm
      rcases hselected with hold | hnew'
      · refine hstill l (hinv.selected j l ?_)
        rw [hrequest, ← hown', hold]
        rfl
      · rw [hnew'] at hown'
        obtain rfl := Option.some.inj hown'
        exact ⟨_, hself, Or.inl hnew.1⟩
    · have hold : (s.requests j).selected = some l := by rw [← hrequests j hji]; exact hl
      exact hstill l (hinv.selected j l hold)

/-! ### The steps -/

/-- A request without a pair owes nothing. -/
theorem not_owes (hpair : (s.requests i).pair = none) : ¬ s.Owes i l := by
  intro howes
  rw [owes_pair howes] at hpair
  cases hpair

theorem unlocked_of_pair (hinv : Inv s) (hpair : (s.requests i).pair = none) :
    ∀ l, s.locks l ≠ some i := by
  refine hinv.unlocked ?_
  intro pair expires_in todo hstoring
  rw [hstoring] at hpair
  cases hpair

/-- The last write of a request without a pair. -/
theorem Inv.of_last (hinv : Inv s) (hpair : (s.requests i).pair = none)
    (hget : s.accounts.get? b.pk = some a) (hfree : s.locks b.pk = none)
    (hcurrent : b.isActive = true → s.current b = true ∨ ∃ j, s.Owes j b.pk)
    (herased : d = true → b.isActive = false ∧ b.Erased)
    (hactive : a.isActive = true ∨ s.disconnected b.pk = true → b.isActive = true ∨ d = true) :
    Inv (s.write i .idle d b) :=
  hinv.of_write hget hfree (unlocked_of_pair hinv hpair) (by simp [Request.pair])
    (fun _ howes => absurd howes (not_owes hpair)) hcurrent herased hactive
    (by simp [Request.selected])

theorem expire_inv (hinv : Inv s) (hrequest : s.requests i = .failed k)
    (hget : s.accounts.get? k = some a) (hfree : s.locks k = none)
    (hcareful : careful s (.advance i now) = true) :
    Inv (s.write i .idle (s.disconnected k) a.expire) := by
  have hpk : a.pk = k := Table.pk_of_get? hget
  simp only [careful, hrequest, Bool.and_eq_true, Bool.not_eq_true'] at hcareful
  obtain ⟨hconnected, hbroken⟩ := hcareful
  subst hpk
  rw [hconnected]
  refine hinv.of_last (by rw [hrequest]; rfl) hget hfree ?_ (by simp) ?_
  · intro hactive
    have ha : s.account a.pk = some a := account_eq_some.mpr ⟨hget, hactive⟩
    rw [ha, Option.all_some, Bool.not_eq_true', Bool.and_eq_false_iff] at hbroken
    rcases hinv.current a.pk a ha with hyes | howed
    · left
      -- it has the newest pair, so that is not valid
      simp only [State.current, Bool.and_eq_true] at hyes ⊢
      rcases hbroken with hinvalid | hother
      · exact ⟨hyes.1, by rw [hinvalid]; rfl⟩
      · rw [hyes.1] at hother
        cases hother
    · exact Or.inr howed
  · rintro (hactive | hgone)
    · exact Or.inl hactive
    · have hgone' : s.disconnected a.pk = true := hgone
      rw [hconnected] at hgone'
      cases hgone'

theorem revoke_inv (hinv : Inv s) (hrequest : s.requests i = .disconnecting k)
    (hget : s.accounts.get? k = some a) (hfree : s.locks k = none) :
    Inv (s.write i .idle true a.revoke) := by
  have hpk : a.pk = k := Table.pk_of_get? hget
  subst hpk
  refine hinv.of_last (by rw [hrequest]; rfl) hget hfree ?_ ?_ ?_
  · intro hactive
    cases hactive
  · intro _
    exact ⟨rfl, rfl, rfl, rfl⟩
  · intro _
    exact Or.inr rfl

theorem check_inv (hinv : Inv s) (hrequest : s.requests i = .checking k)
    (hget : s.accounts.get? k = some a) (hfree : s.locks k = none)
    (hconnected : s.disconnected k = false) :
    Inv (s.write i .idle (s.disconnected k) a.check) := by
  have hpk : a.pk = k := Table.pk_of_get? hget
  subst hpk
  obtain ⟨a', ha', hkeep⟩ := hinv.selected i a.pk (by rw [hrequest]; rfl)
  rw [hget] at ha'
  obtain rfl := Option.some.inj ha'
  rw [hconnected] at hkeep ⊢
  have hactive : a.isActive = true := hkeep.resolve_right (by simp)
  refine hinv.of_last (by rw [hrequest]; rfl) hget hfree ?_ (by simp) (fun _ => Or.inl rfl)
  intro _
  exact hinv.current a.pk a (account_eq_some.mpr ⟨hget, hactive⟩)

/-- The callback saves an account that is there. -/
theorem connect_inv {expires_in expires_at : ℕ} {id selected_id : String} {rest : List String}
    {selected selected' : Option ℕ} (hinv : Inv s)
    (hrequest : s.requests i = .callback pair expires_in (id :: rest) selected_id selected)
    (hget : s.accounts.get? a.pk = some a) (hfree : s.locks a.pk = none)
    (hcareful : pair = s.provider.newest ∨ a.isActive = true ∧ a.atMost pair = true)
    (hselected : selected' = selected ∨ selected' = some a.pk) :
    Inv (s.write i (.callback pair expires_in rest selected_id selected') false
      (a.connect pair expires_at)) := by
  have hcurrent : pair = s.provider.newest → s.current (a.connect pair expires_at) = true := by
    intro hpair
    exact current_refreshed a expires_at hpair
  refine hinv.of_write hget hfree ?_ ?_ ?_ ?_ (by simp) (fun _ => Or.inl rfl) ?_
  · refine hinv.unlocked ?_
    intro pair' expires_in' todo hstoring
    rw [hrequest] at hstoring
    cases hstoring
  · intro pair' hpair'
    rw [hrequest]
    exact hpair'
  · intro l howes
    unfold State.Owes at howes ⊢
    rw [hrequest] at howes
    rw [show (s.write i (.callback pair expires_in rest selected_id selected') false
      (a.connect pair expires_at)).requests i = .callback pair expires_in rest selected_id selected'
      from Function.update_self _ _ _]
    exact howes
  · intro _
    rcases hcareful with hnewest | ⟨hactive, hle⟩
    · exact Or.inl (hcurrent hnewest)
    · rcases hinv.current a.pk a (account_eq_some.mpr ⟨hget, hactive⟩) with hyes | howed
      · have hge := newest_le hyes hle
        have hissued := hinv.issued i pair (by rw [hrequest]; rfl)
        exact Or.inl (hcurrent (by omega))
      · exact Or.inr howed
  · intro k hk
    have hk' : selected' = some k := hk
    rcases hselected with hold | hnew
    · left
      rw [hrequest, ← hk', hold]
      rfl
    · rw [hnew] at hk'
      exact Or.inr ⟨(Option.some.inj hk').symm, Or.inl rfl⟩

/-- A request that may end drops no pair an account needs. -/
theorem end_inv (hinv : Inv s) (hend : s.mayEnd i = true) {locks : ℕ → Option ℕ}
    (hlocks : ∀ l j, locks l = some j → s.locks l = some j ∧ j ≠ i)
    (hkept : ∀ l j, j ≠ i → s.locks l = some j → locks l = some j)
    (hpair : r.pair = none)
    (hselected : ∀ k, r.selected = some k → (s.requests i).selected = some k) :
    Inv { s.set i r with locks := locks } := by
  refine hinv.of_set locks hlocks hkept (by rw [hpair]; simp) ?_ hselected
  intro l a ha howes
  left
  rw [State.mayEnd, owes_pair howes, Bool.or_eq_true, bne_self_eq_false] at hend
  exact all_current (hend.resolve_left (by simp)) ha

theorem advance_inv (hinv : Inv s) (hcareful : careful s (.advance i now) = true)
    (hnext : s.advance i now (s.requests i) = some s') : Inv s' := by
  cases hrequest : s.requests i with
  | idle =>
    rw [hrequest] at hnext
    cases hnext
  | refreshing k token =>
    rw [hrequest] at hnext
    cases hnext
  | reconnecting k token =>
    rw [hrequest] at hnext
    cases hnext
  | checking k =>
    rw [hrequest] at hnext
    cases hnext
  | failed k =>
    rw [hrequest] at hnext
    simp only [State.advance] at hnext
    split at hnext
    · cases hnext
      exact hinv.of_idle (by rw [hrequest]; rfl) rfl rfl
    · next a hget =>
      split at hnext
      · next hfree =>
        cases hnext
        exact expire_inv hinv hrequest hget hfree hcareful
      · cases hnext
  | disconnecting k =>
    rw [hrequest] at hnext
    simp only [State.advance] at hnext
    split at hnext
    · cases hnext
      exact hinv.of_idle (by rw [hrequest]; rfl) rfl rfl
    · next a hget =>
      split at hnext
      · next hfree =>
        cases hnext
        exact revoke_inv hinv hrequest hget hfree
      · cases hnext
  | exchanged pair expires_in =>
    rw [hrequest] at hnext
    cases hnext
    have hunlocked := hinv.unlocked (i := i) (by
      intro pair' expires_in' todo hstoring
      rw [hrequest] at hstoring
      cases hstoring)
    refine hinv.of_moved hunlocked ?_ ?_ ?_
    · intro pair' hpair'
      rw [hrequest]
      exact hpair'
    · intro l a ha howes
      right
      unfold State.Owes at howes ⊢
      rw [hrequest] at howes
      rw [set_requests]
      obtain ⟨hget, hactive⟩ := account_eq_some.mp ha
      obtain ⟨hmem, hpk⟩ := Table.get?_eq_some.mp hget
      exact ⟨howes, Or.inl (List.mem_map.mpr ⟨a, List.mem_filter.mpr ⟨hmem, hactive⟩, hpk⟩)⟩
    · intro k hk
      cases hk
  | storing pair expires_in todo =>
    rw [hrequest] at hnext
    cases todo with
    | nil =>
      cases hnext
      exact commit_inv hinv hrequest
    | cons k todo =>
      simp only [State.advance] at hnext
      simp only [careful, hrequest] at hcareful
      split at hnext
      · next hfree =>
        have hfree' : ∀ j, s.locks k = some j → j = i := by
          intro j hj
          rw [hj] at hfree
          exact beq_iff_eq.mp hfree
        split at hnext
        · next a ha =>
          cases hnext
          exact storing_step hinv hrequest hfree' hcareful (Or.inr ⟨rfl, a, ha⟩)
        · next hnone =>
          cases hnext
          exact storing_step hinv hrequest hfree' hcareful (Or.inl ⟨rfl, hnone⟩)
      · cases hnext
  | callback pair expires_in rest selected_id selected =>
    rw [hrequest] at hnext
    cases rest with
    | nil =>
      have hend : s.mayEnd i = true := by
        simpa only [careful, hrequest] using hcareful
      have hunlocked := hinv.unlocked (i := i) (by
        intro pair' expires_in' todo hstoring
        rw [hrequest] at hstoring
        cases hstoring)
      have hlocks : ∀ l j, s.locks l = some j → s.locks l = some j ∧ j ≠ i := by
        intro l j hlock
        refine ⟨hlock, ?_⟩
        rintro rfl
        exact hunlocked l hlock
      cases selected with
      | none =>
        cases hnext
        refine end_inv hinv hend hlocks (fun _ _ _ hlock => hlock) rfl ?_
        intro k hk
        cases hk
      | some k =>
        cases hnext
        refine end_inv hinv hend hlocks (fun _ _ _ hlock => hlock) rfl ?_
        intro k' hk'
        rw [hrequest]
        exact hk'
    | cons id rest =>
      simp only [State.advance] at hnext
      simp only [careful, hrequest, Bool.or_eq_true, beq_iff_eq] at hcareful
      split at hnext
      · next a hfind =>
        split at hnext
        · next hfree =>
          cases hnext
          have hget : s.accounts.get? a.pk = some a := Table.get?_pk (Table.mem_of_find? hfind)
          rw [hfind, Option.any_some, Bool.and_eq_true] at hcareful
          refine connect_inv hinv hrequest hget hfree hcareful ?_
          split
          · exact Or.inr rfl
          · exact Or.inl rfl
        · cases hnext
      · next hfind =>
        cases hnext
        rw [hfind] at hcareful
        have hpair : pair = s.provider.newest := hcareful.resolve_right (by simp)
        refine create_inv (fun _ => rfl) hinv hrequest ?_ ?_
        · refine ⟨rfl, ?_⟩
          rw [hpair]
          simp [State.current, State.holds]
        · split
          · exact Or.inr rfl
          · exact Or.inl rfl

/-- An exchange gets the request the newest pair, or no pair. -/
theorem exchange_inv {answered valid accepted : Bool} {token expires_in : ℕ} {failed : Request}
    (hinv : Inv s) (hpair : (s.requests i).pair = none) (hfailed : failed.pair = none)
    (hselected : failed.selected = none)
    (harrives : accepted = true → answered = true ∧ valid = true)
    (hnext : State.exchanged
      (if accepted = true then { s with provider := s.provider.exchange token } else s)
      i accepted answered valid expires_in failed = s') : Inv s' := by
  subst hnext
  cases accepted with
  | false => exact hinv.of_idle hpair hfailed hselected
  | true =>
    obtain ⟨rfl, rfl⟩ := harrives rfl
    have hissued : Inv { s.set i (.exchanged (s.provider.newest + 1) expires_in) with
        provider := s.provider.exchange token } := by
      refine hinv.of_issue rfl (unlocked_of_pair hinv hpair) rfl rfl ?_
      intro l
      unfold State.Owes
      rw [show State.requests { s.set i (.exchanged (s.provider.newest + 1) expires_in) with
        provider := s.provider.exchange token } i = .exchanged (s.provider.newest + 1) expires_in
        from set_requests _ _ _]
      rfl
    exact hissued

theorem next_inv {x : Action} (hinv : Inv s) (hcareful : careful s x = true)
    (hnext : s.next x = some s') : Inv s' := by
  cases x with
  | refresh i k =>
    simp only [State.next] at hnext
    split at hnext
    · next hidle _ =>
      cases hnext
      exact hinv.of_idle (by rw [hidle]; rfl) rfl rfl
    · cases hnext
      exact hinv
    · cases hnext
  | reconnect i k now =>
    simp only [State.next] at hnext
    split at hnext
    · next hidle _ =>
      split at hnext
      · cases hnext
        exact hinv
      · split at hnext
        · cases hnext
          exact hinv.of_idle (by rw [hidle]; rfl) rfl rfl
        · cases hnext
          exact hinv
    · cases hnext
      exact hinv
    · cases hnext
  | disconnect i k =>
    simp only [State.next] at hnext
    split at hnext
    · next hidle _ =>
      cases hnext
      exact hinv.of_idle (by rw [hidle]; rfl) rfl rfl
    · cases hnext
      exact hinv
    · cases hnext
  | authorize i expires_in ids =>
    simp only [State.next] at hnext
    split at hnext
    · next hidle =>
      cases hnext
      have hpair : (s.requests i).pair = none := by rw [hidle]; rfl
      refine hinv.of_issue rfl (unlocked_of_pair hinv hpair) rfl rfl ?_
      intro l
      unfold State.Owes
      rw [show State.requests { s.set i (.callback s.provider.authorize.newest expires_in ids
          (ids.head?.getD "") none) with provider := s.provider.authorize } i =
        .callback s.provider.authorize.newest expires_in ids (ids.head?.getD "") none
        from set_requests _ _ _]
    · cases hnext
  | exchange i reaches answered valid expires_in =>
    simp only [State.next] at hnext
    split at hnext
    · next k token hrequest =>
      simp only [careful, hrequest, Bool.or_eq_true, Bool.not_eq_true', Bool.and_eq_true]
        at hcareful
      refine exchange_inv hinv (by rw [hrequest]; rfl) rfl rfl ?_ (Option.some.inj hnext)
      intro haccepted
      rw [haccepted] at hcareful
      exact hcareful.resolve_left (by simp)
    · next k token hrequest =>
      simp only [careful, hrequest, Bool.or_eq_true, Bool.not_eq_true', Bool.and_eq_true]
        at hcareful
      refine exchange_inv hinv (by rw [hrequest]; rfl) rfl rfl ?_ (Option.some.inj hnext)
      intro haccepted
      rw [haccepted] at hcareful
      exact hcareful.resolve_left (by simp)
    · cases hnext
  | advance i now => exact advance_inv hinv hcareful hnext
  | check i verified =>
    simp only [State.next] at hnext
    split at hnext
    · next k hrequest =>
      have hpair : (s.requests i).pair = none := by rw [hrequest]; rfl
      split at hnext
      · next a hget =>
        split at hnext
        · cases hnext
          exact hinv.of_idle hpair rfl rfl
        · next hverified =>
          split at hnext
          · next hfree =>
            cases hnext
            simp only [careful, hrequest, Bool.or_eq_true] at hcareful
            have hconnected := hcareful.resolve_left hverified
            exact check_inv hinv hrequest hget hfree (by simpa using hconnected)
          · cases hnext
      · cases hnext
        exact hinv.of_idle hpair rfl rfl
    · cases hnext
  | fail i =>
    cases hnext
    refine end_inv hinv hcareful ?_ ?_ rfl ?_
    · intro l j hlock
      split at hlock
      · cases hlock
      · next hother =>
        refine ⟨hlock, ?_⟩
        rintro rfl
        exact hother hlock
    · intro l j hji hlock
      have hne : ¬ s.locks l = some i := by
        rw [hlock]
        exact fun heq => hji (Option.some.inj heq)
      rw [if_neg hne]
      exact hlock
    · intro k hk
      cases hk
  | invalidate token =>
    cases hnext
    refine ⟨hinv.locks, hinv.issued, ?_, hinv.erased, hinv.selected⟩
    intro l c hc
    rcases hinv.current l c hc with hyes | ⟨j, hj⟩
    · left
      simp only [State.current, State.holds, Provider.valid, Bool.and_eq_true, Bool.or_eq_true,
        Bool.not_eq_true', decide_eq_false_iff_not, not_not] at hyes ⊢
      exact ⟨hyes.1, hyes.2.imp_left (List.mem_cons_of_mem token)⟩
    · exact Or.inr ⟨j, owes_mono rfl rfl id hj⟩

/-! ## Runs -/

/-- No request is in progress, no row is held, and a disconnected account is not active. -/
structure Resting (s : State) : Prop where
  finished : Finished s
  free : ∀ k, s.locks k = none
  inactive : ∀ k a, s.accounts.get? k = some a → s.disconnected k = true → a.isActive = false

theorem Resting.inv (hrest : Resting s) (hsettled : Settled s) : Inv s where
  locks k i hlock := by
    rw [hrest.free k] at hlock
    cases hlock
  issued i pair hpair := by
    rw [hrest.finished i] at hpair
    cases hpair
  current k a ha := Or.inl (hsettled.current hrest.finished k a ha)
  erased k a hget hgone := ⟨hrest.inactive k a hget hgone, hsettled.erased k a hget hgone⟩
  selected i k hk := by
    rw [hrest.finished i] at hk
    cases hk

/-- With no request in progress no pair is owed. -/
theorem Inv.settled (hinv : Inv s) : Settled s where
  current hfinished k a ha := by
    rcases hinv.current k a ha with hyes | ⟨i, hi⟩
    · exact hyes
    · exact absurd hi (not_owes (by rw [hfinished i]; rfl))
  erased k a hget hgone := (hinv.erased k a hget hgone).2

/-- In every interleaving of careful requests, whenever all have finished every active account has
the newest pair and is marked active if that is valid, and a disconnected account has no credentials
and stays revoked. -/
theorem rotation_settles {s t : State} {as : List Action} (hrest : Resting s)
    (hsettled : Settled s) (hrun : rotation.RunIf (fun s x => careful s x = true) s as t) :
    Machine.RunIf.Always rotation Settled s as := by
  have halways : Machine.RunIf.Always rotation Inv s as :=
    hrun.always (fun _ _ _ hcareful hinv hnext => next_inv hinv hcareful hnext)
      (hrest.inv hsettled)
  intro before rest u has hu
  exact (halways before rest u has hu).settled

/-- A demo and a real account with the pair 0. -/
def connected : State where
  accounts := ⟨[⟨2, "CR1", .active, some 0, some 0, .active, some 60⟩,
    ⟨1, "VRTC1", .active, some 0, some 0, .active, some 60⟩], by decide⟩
  locks _ := none
  provider := ⟨0, []⟩
  requests _ := .idle
  disconnected _ := false

theorem connected_resting : Resting connected where
  finished _ := rfl
  free _ := rfl
  inactive k a _ hgone := by cases hgone

theorem connected_settled : Settled connected where
  current _ k a ha := by
    obtain ⟨hget, -⟩ := account_eq_some.mp ha
    have hmem := (Table.get?_eq_some.mp hget).1
    simp only [connected, Table.mem_def, List.mem_cons, List.not_mem_nil, or_false] at hmem
    rcases hmem with rfl | rfl
    · decide
    · decide
  erased k a _ hgone := by cases hgone

/-- The real account is refreshed, and the demo account is disconnected before the pair is
stored. -/
theorem refreshed_settles :
    ∃ t, rotation.RunIf (fun s x => careful s x = true) connected
        [.refresh 0 2, .exchange 0 true true true 3600, .disconnect 1 1, .advance 0 10,
          .advance 1 10, .advance 0 10, .advance 0 10, .advance 0 10] t ∧
      Machine.RunIf.Always rotation Settled connected
        [.refresh 0 2, .exchange 0 true true true 3600, .disconnect 1 1, .advance 0 10,
          .advance 1 10, .advance 0 10, .advance 0 10, .advance 0 10] := by
  have hexec : (rotation.execIf (fun s x => careful s x = true) connected
      [.refresh 0 2, .exchange 0 true true true 3600, .disconnect 1 1, .advance 0 10,
        .advance 1 10, .advance 0 10, .advance 0 10, .advance 0 10]).isSome = true := by
    decide +kernel
  obtain ⟨t, ht⟩ := Machine.exists_runIf hexec
  exact ⟨t, ht, rotation_settles connected_resting connected_settled ht⟩

/-- Two refreshes read the pair 0; the second exchange is refused, and the credentials the first one
has stored by then are marked expired. -/
theorem loser_expires :
    Resting connected ∧ Settled connected ∧
      ∃ t, rotation.Run connected
          [.refresh 0 2, .refresh 1 2, .exchange 0 true true true 3600,
            .exchange 1 true true true 3600, .advance 0 10, .advance 0 10, .advance 0 10,
            .advance 0 10, .advance 1 10] t ∧
        Finished t ∧ ¬ Settled t := by
  refine ⟨connected_resting, connected_settled, ?_⟩
  have hexpired : (rotation.exec connected
      [.refresh 0 2, .refresh 1 2, .exchange 0 true true true 3600,
        .exchange 1 true true true 3600, .advance 0 10, .advance 0 10, .advance 0 10,
        .advance 0 10, .advance 1 10]).any (fun t => (t.account 2).any fun a => !t.current a) =
      true := by
    decide +kernel
  have hfinished : ∀ t, rotation.exec connected
      [.refresh 0 2, .refresh 1 2, .exchange 0 true true true 3600,
        .exchange 1 true true true 3600, .advance 0 10, .advance 0 10, .advance 0 10,
        .advance 0 10, .advance 1 10] = some t → Finished t := by
    intro t ht i
    cases ht
    match i with
    | 0 => rfl
    | 1 => rfl
    | i + 2 => rfl
  obtain ⟨t, ht, hrow⟩ := (Option.any_eq_true _ _).mp hexpired
  obtain ⟨a, ha, hmarked⟩ := (Option.any_eq_true _ _).mp hrow
  refine ⟨t, Machine.exec_eq_some_iff.mp ht, hfinished t ht, ?_⟩
  intro hsettled
  rw [hsettled.current (hfinished t ht) 2 a ha] at hmarked
  cases hmarked

end AlgoBot.TokenRotation
