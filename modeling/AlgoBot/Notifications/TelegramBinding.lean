import AlgoBot.Notifications.Telegram

/-!
# The binding of Telegram chats

`telegram_start` issues a code to a user, a chat presents it to the webhook, and either side
may disconnect. Each of the steps below is a transaction; what the endpoints have read before
is only the key of a row, so the steps of different endpoints come in any order. The check
whether a chat is bound is not repeated when the row is saved, but the constraint on the chats
refuses the row in that case.

* `telegram_bound`: a verified connection is bound to a chat that has presented a code of its
  user, unexpired and unused, and no chat is bound to two of them.
* `webhook_binds`: what an update does to the connections is one of the steps.
-/

namespace AlgoBot.Notifications.Telegram

open AlgoBot.Core AlgoBot.Python

/-! ## Steps -/

/-- What has happened to the codes. -/
inductive Event
  | issued (user : ℕ) (raw : String) (expires : ℕ)
  /-- A chat has presented a text, and is bound. -/
  | bound (user : ℕ) (chat_id token : String) (now : ℕ)
  deriving DecidableEq

def Event.user : Event → ℕ
  | .issued user _ _ => user
  | .bound user _ _ _ => user

/-- The tables, with the events of the codes, the latest first. -/
structure Bindings where
  store : Store
  log : List Event

def Bindings.initial : Bindings := ⟨fresh, []⟩

inductive BindingStep
  /-- The first query of `telegram_start`. -/
  | get_or_create (user : ℕ)
  /-- Its save, of the row that it has got. -/
  | issue (user pk : ℕ) (raw : String) (now : ℕ)
  /-- `/start` with a text. -/
  | start (chat : Dict) (token : String) (now : ℕ)
  /-- `/disconnect`, of a row that the chat was found in. -/
  | disconnect (pk : ℕ)
  /-- `telegram_disconnect`, of the site. -/
  | delete (user : ℕ)

/-- A new connection. -/
def newConnection (user pk : ℕ) : Connection where
  pk := pk
  user := user
  status := .pending
  address := ""
  external_id := ""
  verification_code_hash := ""
  verification_expires_at := none
  metadata := []
  verified_at := none

variable (c : Config)

/-- The connection with a code, which is good for 15 minutes. -/
def Connection.issue (conn : Connection) (raw : String) (now : ℕ) : Connection :=
  { conn with
    status := .pending
    verification_code_hash := c.sha256 raw
    verification_expires_at := some (now + 15 * 60) }

/-- The connection that `startLink` links. -/
def linked (s : Store) (chat : Dict) (token : String) (now : ℕ) : Option Connection :=
  (s.connections.find? fun conn =>
    conn.status = .pending && conn.verification_code_hash == c.sha256 token &&
      conn.verification_expires_at.any fun expires => now < expires).filter fun conn =>
    !s.connections.rows.any fun other =>
      other.external_id == (chat.get "id").toStr c.toHost && other.pk != conn.pk

def bindingStep (s : Bindings) : BindingStep → Option Bindings
  | .get_or_create user =>
    some (if s.store.connections.rows.any fun conn => conn.user == user then s
      else { s with store := { s.store with
        connections := s.store.connections.create (newConnection user) fun _ => rfl } })
  | .issue user pk raw now =>
    match s.store.connections.get? pk with
    | none => none
    | some conn =>
      if conn.user = user then
        some {
          store := { s.store with connections := s.store.connections.set (conn.issue c raw now) }
          log := .issued user raw (now + 15 * 60) :: s.log }
      else none
  | .start chat token now =>
    some {
      store := (startLink c s.store chat token now).1
      log :=
        match linked c s.store chat token now with
        | none => s.log
        | some conn => .bound conn.user ((chat.get "id").toStr c.toHost) token now :: s.log }
  | .disconnect pk =>
    (s.store.connections.get? pk).map fun conn => { s with store := (disconnect s.store conn).1 }
  | .delete user =>
    some (match s.store.connections.find? fun conn => conn.user == user with
      | none => s
      | some conn => { s with store := { s.store with
          connections := s.store.connections.delete conn.pk
          preferences := s.store.preferences.filter fun p => p.user != user } })

def binding : Machine Bindings BindingStep where
  next := bindingStep c

/-! ## Codes -/

/-- The code of an event is the last one of its user. -/
def LastIssued (log : List Event) (user : ℕ) (hash : String) (expires : ℕ) : Prop :=
  ∃ later raw earlier, log = later ++ .issued user raw expires :: earlier ∧ c.sha256 raw = hash ∧
    ∀ e ∈ later, e.user ≠ user

/-- A chat has presented the code of a user before it expired and before it was used: since the
code was issued nothing has happened to the codes of the user. -/
def Presented (log : List Event) (user : ℕ) (chat_id : String) : Prop :=
  ∃ later token now earlier expires,
    log = later ++ .bound user chat_id token now :: earlier ∧ now < expires ∧
      LastIssued c earlier user (c.sha256 token) expires

/-- Verified connections are bound to chats that have presented their codes, and to different
ones. -/
structure Bound (s : Bindings) : Prop where
  presented : ∀ conn ∈ s.store.connections, conn.status = .verified →
    Presented c s.log conn.user conn.external_id
  injective : ∀ a ∈ s.store.connections, ∀ b ∈ s.store.connections,
    a.status = .verified → b.status = .verified → a.external_id = b.external_id → a.user = b.user

/-- What holds in every run. -/
structure Bindings.Inv (s : Bindings) : Prop where
  users : s.store.connections.Unique fun a b => a.user = b.user
  codes : ∀ conn ∈ s.store.connections, ∀ expires, conn.status = .pending →
    conn.verification_expires_at = some expires →
    LastIssued c s.log conn.user conn.verification_code_hash expires
  presented : ∀ conn ∈ s.store.connections, conn.status = .verified →
    Presented c s.log conn.user conn.external_id
  chats : s.store.connections.Unique fun a b =>
    a.status = .verified ∧ b.status = .verified ∧ a.external_id = b.external_id

variable {c} {s s' : Bindings} {conn r : Connection} {user : ℕ} {e : Event}

theorem LastIssued.cons {log : List Event} {hash : String} {expires : ℕ}
    (h : LastIssued c log user hash expires) (he : e.user ≠ user) :
    LastIssued c (e :: log) user hash expires := by
  obtain ⟨later, raw, earlier, rfl, hraw, hlater⟩ := h
  exact ⟨e :: later, raw, earlier, rfl, hraw, List.forall_mem_cons.mpr ⟨he, hlater⟩⟩

theorem Presented.cons {log : List Event} {chat_id : String} (h : Presented c log user chat_id) :
    Presented c (e :: log) user chat_id := by
  obtain ⟨later, token, now, earlier, expires, rfl, hnow, hissued⟩ := h
  exact ⟨e :: later, token, now, earlier, expires, rfl, hnow, hissued⟩

/-! ## One step -/

namespace Bindings

theorem initial_inv : initial.Inv c := by
  constructor
  · exact Table.unique_empty _
  · intro conn hconn
    cases hconn
  · intro conn hconn
    cases hconn
  · exact Table.unique_empty _

/-- Overwriting a connection, with an event of its user or none. -/
theorem Inv.set (hs : s.Inv c) (hconn : conn ∈ s.store.connections) (hpk : r.pk = conn.pk)
    (huser : r.user = conn.user) (hrows : s'.store.connections = s.store.connections.set r)
    (hlog : s'.log = s.log ∨ ∃ e : Event, e.user = conn.user ∧ s'.log = e :: s.log)
    (hcode : ∀ expires, r.status = .pending → r.verification_expires_at = some expires →
      LastIssued c s'.log conn.user r.verification_code_hash expires)
    (hpresented : r.status = .verified → Presented c s'.log conn.user r.external_id)
    (hfree : r.status = .verified →
      ∀ other ∈ s.store.connections, other.pk ≠ r.pk → other.external_id ≠ r.external_id) :
    s'.Inv c := by
  have hsame : ∀ other ∈ s.store.connections, other.pk ≠ r.pk → other.user ≠ conn.user := by
    intro other hother hne heq
    exact hne (by rw [hs.users other hother conn hconn heq, hpk])
  constructor
  · rw [hrows]
    refine hs.users.set (fun a b h => h.symm) fun other hother hne heq => ?_
    exact hsame other hother hne (heq.trans huser)
  · rw [hrows]
    intro other hother expires hpending hexpires
    rcases Table.mem_set hother with rfl | ⟨hold, hne⟩
    · rw [huser]
      exact hcode expires hpending hexpires
    · have hissued := hs.codes other hold expires hpending hexpires
      rcases hlog with hlog | ⟨e, he, hlog⟩
      · rwa [hlog]
      · rw [hlog]
        exact hissued.cons (by rw [he]; exact (hsame other hold hne).symm)
  · rw [hrows]
    intro other hother hverified
    rcases Table.mem_set hother with rfl | ⟨hold, _⟩
    · rw [huser]
      exact hpresented hverified
    · have hbefore := hs.presented other hold hverified
      rcases hlog with hlog | ⟨e, _, hlog⟩
      · rwa [hlog]
      · rw [hlog]
        exact hbefore.cons
  · rw [hrows]
    refine hs.chats.set (fun a b h => ⟨h.2.1, h.1, h.2.2.symm⟩) fun other hother hne hclash => ?_
    exact hfree hclash.2.1 other hother hne hclash.2.2

/-- What the transaction of `/start` does. -/
theorem startLink_cases (t : Store) (chat : Dict) (token : String) (now : ℕ) :
    (linked c t chat token now = none ∧ (startLink c t chat token now).1 = t) ∨
      ∃ conn expires, linked c t chat token now = some conn ∧ conn ∈ t.connections ∧
        (startLink c t chat token now).1.connections = t.connections.set (conn.link c chat now) ∧
        conn.status = .pending ∧ conn.verification_code_hash = c.sha256 token ∧
        conn.verification_expires_at = some expires ∧ now < expires ∧
        ∀ other ∈ t.connections, other.pk ≠ conn.pk →
          other.external_id ≠ (chat.get "id").toStr c.toHost := by
  cases hfind : t.connections.find? fun conn =>
      conn.status = .pending && conn.verification_code_hash == c.sha256 token &&
        conn.verification_expires_at.any fun expires => now < expires with
  | none =>
    left
    constructor
    · rw [linked, hfind, Option.filter_none]
    · simp only [startLink, hfind]
  | some conn =>
    cases hbound : t.connections.rows.any fun other =>
        other.external_id == (chat.get "id").toStr c.toHost && other.pk != conn.pk with
    | true =>
      left
      constructor
      · rw [linked, hfind, Option.filter_some, hbound]
        rfl
      · simp only [startLink, hfind]
        rw [if_pos hbound]
    | false =>
      right
      have hcode := Table.of_find? hfind
      simp only [Bool.and_eq_true, decide_eq_true_eq, beq_iff_eq] at hcode
      obtain ⟨⟨hpending, hhash⟩, hexpires⟩ := hcode
      obtain ⟨expires, hsome, hnow⟩ :
          ∃ expires, conn.verification_expires_at = some expires ∧ now < expires := by
        cases h : conn.verification_expires_at with
        | none =>
          rw [h] at hexpires
          cases hexpires
        | some expires => exact ⟨expires, rfl, by simpa [h] using hexpires⟩
      refine ⟨conn, expires, ?_, Table.mem_of_find? hfind, ?_, hpending, hhash, hsome, hnow,
        ?_⟩
      · rw [linked, hfind, Option.filter_some, hbound]
        rfl
      · simp only [startLink, hfind]
        rw [if_neg (by rw [hbound]; decide)]
      · intro other hother hne heq
        have hnot := List.any_eq_false.mp hbound other hother
        simp [heq, hne] at hnot

/-- Every transaction keeps the bindings. -/
theorem inv_step {x : BindingStep} (hs : s.Inv c) (hnext : (binding c).next s x = some s') :
    s'.Inv c := by
  change bindingStep c s x = some s' at hnext
  cases x with
  | get_or_create user =>
    obtain rfl := Option.some.inj hnext
    split
    · exact hs
    · next hnew =>
      have hnone : ∀ conn ∈ s.store.connections, conn.user ≠ user := by
        intro conn hconn heq
        exact hnew (List.any_eq_true.mpr ⟨conn, hconn, by simp [heq]⟩)
      have hcreate : ∀ conn ∈ s.store.connections.create (newConnection user) fun _ => rfl,
          conn = newConnection user s.store.connections.nextPk ∨ conn ∈ s.store.connections :=
        fun conn hconn => List.mem_cons.mp hconn
      constructor
      · exact hs.users.create (fun a b h => h.symm) (fun _ => rfl) fun conn hconn heq =>
          hnone conn hconn heq
      · intro conn hconn expires hpending hexpires
        rcases hcreate conn hconn with rfl | hold
        · cases hexpires
        · exact hs.codes conn hold expires hpending hexpires
      · intro conn hconn hverified
        rcases hcreate conn hconn with rfl | hold
        · cases hverified
        · exact hs.presented conn hold hverified
      · refine hs.chats.create (fun a b h => ⟨h.2.1, h.1, h.2.2.symm⟩) (fun _ => rfl)
          fun conn _ hclash => ?_
        cases hclash.2.1
  | issue user pk raw now =>
    simp only [bindingStep] at hnext
    split at hnext
    · cases hnext
    · next conn hget =>
      split at hnext
      · next huser =>
        obtain rfl := Option.some.inj hnext
        obtain ⟨hconn, _⟩ := Table.get?_eq_some.mp hget
        refine hs.set (r := conn.issue c raw now) hconn rfl rfl rfl
          (Or.inr ⟨.issued user raw (now + 15 * 60), huser.symm, rfl⟩) ?_ nofun nofun
        intro expires _ hexpires
        obtain rfl := Option.some.inj hexpires
        exact ⟨[], raw, s.log, by rw [huser]; rfl, rfl, by simp⟩
      · cases hnext
  | start chat token now =>
    obtain rfl := Option.some.inj hnext
    rcases @startLink_cases c s.store chat token now with
      ⟨hnone, hstore⟩ | ⟨conn, expires, hsome, hconn, hrows, hpending, hhash, hexpires, hnow, hfree⟩
    · rw [hnone, hstore]
      exact hs
    · rw [hsome]
      have hissued := hs.codes conn hconn expires hpending hexpires
      rw [hhash] at hissued
      refine hs.set (r := conn.link c chat now) hconn rfl rfl hrows
        (Or.inr ⟨.bound conn.user ((chat.get "id").toStr c.toHost) token now, rfl, rfl⟩) nofun
        ?_ fun _ => hfree
      intro _
      exact ⟨[], token, now, s.log, expires, rfl, hnow, hissued⟩
  | disconnect pk =>
    obtain ⟨conn, hget, rfl⟩ := Option.map_eq_some_iff.mp hnext
    obtain ⟨hconn, _⟩ := Table.get?_eq_some.mp hget
    exact hs.set (r := { conn with
      status := .revoked
      external_id := ""
      verification_code_hash := ""
      verification_expires_at := none
      verified_at := none }) hconn rfl rfl rfl (Or.inl rfl) nofun nofun nofun
  | delete user =>
    obtain rfl := Option.some.inj hnext
    split
    · exact hs
    · next conn hfind =>
      have hsub : ∀ other ∈ s.store.connections.delete conn.pk, other ∈ s.store.connections :=
        fun other hother => (Table.mem_delete.mp hother).1
      constructor
      · intro a ha b hb hclash
        exact hs.users a (hsub a ha) b (hsub b hb) hclash
      · intro other hother
        exact hs.codes other (hsub other hother)
      · intro other hother
        exact hs.presented other (hsub other hother)
      · intro a ha b hb hclash
        exact hs.chats a (hsub a ha) b (hsub b hb) hclash

theorem Inv.bound (hs : s.Inv c) : Bound c s := by
  constructor
  · exact hs.presented
  · intro a ha b hb hverified hverified' heq
    rw [hs.chats a ha b hb ⟨hverified, hverified', heq⟩]

end Bindings

/-! ## Runs -/

/-- In every state that is reached, the verified connections are bound to chats that have presented
codes of their users, unexpired and unused, and to different ones. -/
theorem telegram_bound {c : Config} {xs : List BindingStep} {s : Bindings}
    (hrun : (binding c).Run Bindings.initial xs s) : Bound c s := by
  have hs : s.Inv c := by
    refine hrun.invariant ?_ Bindings.initial_inv
    intro s x s' _ hs hnext
    exact Bindings.inv_step hs hnext
  exact hs.bound

/-- A chat is bound, bound once more to the same user with a new code, and disconnected. -/
theorem chat_bound_again : ∃ s, (binding plain).Run Bindings.initial
      [.get_or_create 7, .issue 7 1 "code" 0, .start [("id", .int 777)] "code" 60,
        .issue 7 1 "other" 100, .start [("id", .int 777)] "code" 110,
        .start [("id", .int 777)] "other" 120, .disconnect 1] s ∧ Bound plain s := by
  have henabled : ((binding plain).exec Bindings.initial
      [.get_or_create 7, .issue 7 1 "code" 0, .start [("id", .int 777)] "code" 60,
        .issue 7 1 "other" 100, .start [("id", .int 777)] "code" 110,
        .start [("id", .int 777)] "other" 120, .disconnect 1]).isSome = true := by
    decide +kernel
  obtain ⟨s, hrun⟩ := Machine.exists_run henabled
  exact ⟨s, hrun, telegram_bound hrun⟩

/-! ## The webhook -/

/-- The connections after at most one of the transactions of the webhook. -/
def Binds (c : Config) (s : Store) (now : ℕ) (t : Table Connection) : Prop :=
  t = s.connections ∨
    (∃ chat token, t = (startLink c s chat token now).1.connections) ∨
    ∃ conn ∈ s.connections, t = (disconnect s conn).1.connections

section Webhook

variable {c : Config} {s s' : Store} {r : Request} {payload : Dict} {update_id : ℤ}

theorem startLink_connections (h : s'.connections = s.connections) (chat : Dict) (token : String)
    (now : ℕ) :
    (startLink c s' chat token now).1.connections = (startLink c s chat token now).1.connections := by
  simp only [startLink, h]
  split
  · exact h
  · split
    · exact h
    · rfl

/-- The other tables do not matter. -/
theorem Binds.congr {now : ℕ} {t : Table Connection} (h : s'.connections = s.connections)
    (hbinds : Binds c s' now t) : Binds c s now t := by
  rcases hbinds with rfl | ⟨chat, token, rfl⟩ | ⟨conn, hconn, rfl⟩
  · exact Or.inl h
  · exact Or.inr (Or.inl ⟨chat, token, startLink_connections h chat token now⟩)
  · refine Or.inr (Or.inr ⟨conn, h ▸ hconn, ?_⟩)
    simp only [disconnect, h]

theorem react_binds {chat : Dict} {text : String} {command : Option String} {reply : String}
    (h : react c s r chat text = some (s', command, reply)) : Binds c s r.now s'.connections := by
  simp only [react] at h
  split at h
  · cases h
    exact Or.inl rfl
  · split at h
    · cases h
    · cases h
      exact Or.inr (Or.inl ⟨chat, _, rfl⟩)
  · split at h
    · split at h
      · cases h
        exact Or.inl rfl
      · next conn hconn =>
        split at h
        · cases h
        · cases h
          exact Or.inr (Or.inr ⟨conn, Table.mem_of_find? hconn, rfl⟩)
    · split at h
      · cases h
      · cases h
        exact Or.inl rfl

theorem handle_binds {result : Result} (h : handle c s r payload update_id = some (s', result)) :
    Binds c s r.now s'.connections := by
  unfold handle at h
  split at h
  · cases h
  split at h
  · cases h
  split at h
  · cases h
    exact Or.inl rfl
  split at h
  · cases h
  split at h
  · cases h
  next hreact =>
    have hbinds := react_binds hreact
    cases h
    exact hbinds

theorem process_binds (s : Store) :
    Binds c s r.now (process c s r payload update_id).1.connections := by
  unfold process
  cases h : handle c s r payload update_id with
  | none =>
    dsimp only
    split <;> exact Or.inl rfl
  | some done =>
    have hbinds := handle_binds h
    dsimp only
    split
    · exact hbinds
    · split <;> exact hbinds

theorem deliver_binds (s : Store) :
    Binds c s r.now (deliver c s r payload update_id).1.connections := by
  have hmark : (mark_update s r update_id).1.connections = s.connections := by
    unfold mark_update
    split
    · split <;> rfl
    · dsimp only
      split
      · split <;> rfl
      · rfl
  unfold deliver
  split
  · next hmarked => exact Or.inl (by rw [hmarked] at hmark; exact hmark)
  · next hmarked => exact Or.inl (by rw [hmarked] at hmark; exact hmark)
  · next hmarked =>
    rw [hmarked] at hmark
    exact (process_binds _).congr hmark

/-- What an update does to the connections is a transaction of the machine, or nothing. -/
theorem webhook_binds (c : Config) (s : Store) (r : Request) (log : List Event) :
    (telegram_webhook_view c s r).1.connections = s.connections ∨
      ∃ x s', ((∃ chat token, x = .start chat token r.now) ∨ ∃ pk, x = .disconnect pk) ∧
        (binding c).next ⟨s, log⟩ x = some s' ∧
        (telegram_webhook_view c s r).1.connections = s'.store.connections := by
  have hbinds : Binds c s r.now (telegram_webhook_view c s r).1.connections := by
    cases hdelivered : delivered c r with
    | none => exact Or.inl (by rw [view_of_not_delivered hdelivered])
    | some found =>
      rw [view_of_delivered hdelivered]
      exact deliver_binds s
  rcases hbinds with hsame | ⟨chat, token, hstart⟩ | ⟨conn, hconn, hdisconnect⟩
  · exact Or.inl hsame
  · exact Or.inr ⟨.start chat token r.now, _, Or.inl ⟨chat, token, rfl⟩, rfl, hstart⟩
  · refine Or.inr ⟨.disconnect conn.pk, ⟨(disconnect s conn).1, log⟩, Or.inr ⟨conn.pk, rfl⟩, ?_,
      hdisconnect⟩
    have hget : s.connections.get? conn.pk = some conn := Table.get?_pk hconn
    show (s.connections.get? conn.pk).map _ = _
    rw [hget]
    rfl

end Webhook

end AlgoBot.Notifications.Telegram
