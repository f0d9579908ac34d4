import AlgoBot.Billing.Webhook

/-!
# What one delivery can do

A delivery leaves early, is a duplicate of a processed event row, or starts its
work with an open row under its key (`receive_cases`, `handle_shape`). Its work
moves a payment only by merging the status of a call it makes for it.
-/

namespace AlgoBot.Billing

open AlgoBot.Core AlgoBot.Python

variable {env : Env} {s s' t u : Store} {c : Call} {d : Delivery} {o : Outcome} {q : Receipt}
  {event : PaymentWebhookEvent} {w dup : WebhookReply} {now : Time} {e : String}
  {st : PaymentStatus} {work : Store → PaymentWebhookEvent → Handled}

/-! ## The event row -/

/-- The store in which the work of a delivery starts: its row is there and not processed. -/
structure Opened (s s' : Store) (q : Receipt) (event : PaymentWebhookEvent) : Prop where
  fresh : s.processed q.provider q.event_key = false
  row : s'.eventOf q.provider q.event_key = some event
  unprocessed : event.processed_at = none
  rest : s' = { s with events := s'.events }

/-- A delivery is a duplicate, starts its work, or fails on a column of the row. -/
theorem receive_cases (env : Env) (s : Store) (q : Receipt) (dup : WebhookReply)
    (work : Store → PaymentWebhookEvent → Handled) :
    (s.processed q.provider q.event_key = true ∧ receive env s q dup work = ⟨.ok (some dup), s⟩) ∨
    (∃ s' event, Opened s s' q event ∧ receive env s q dup work = work s' event) ∨
    (s.processed q.provider q.event_key = false ∧
      receive env s q dup work = ⟨.error .DataError, s⟩) := by
  unfold receive
  split
  · next event hrow =>
    split
    · next hp =>
      left
      exact ⟨by simp [Store.processed, hrow, hp], rfl⟩
    · next hp =>
      -- an open row, left by a delivery that raised or was finished with an error
      right
      left
      have hnone : event.processed_at = none := by simpa using hp
      exact ⟨s, event, ⟨by simp [Store.processed, hrow, hnone], hrow, hnone, rfl⟩, rfl⟩
  · next hrow =>
    -- the first delivery under the key creates the row, if its columns fit
    dsimp only
    split
    · right
      left
      refine ⟨_, _, ⟨by simp [Store.processed, hrow], ?_, rfl, rfl⟩, rfl⟩
      show Table.find? _ _ = _
      rw [Table.find?_create, if_pos]
      simp [freshEvent]
    · right
      right
      exact ⟨by simp [Store.processed, hrow], rfl⟩

/-- A finished row is processed unless it was finished with an error. -/
theorem processed_finish (hrow : s.eventOf q.provider q.event_key = some event) (now : Time)
    (status error : String) :
    (finishWebhook s event now status error).processed q.provider q.event_key = true ↔
      error = "" := by
  have hkey : (event.provider, event.event_key) = (q.provider, q.event_key) := by
    simpa using Table.of_find? hrow
  have hset := Table.find?_set_key (f := fun e : PaymentWebhookEvent => (e.provider, e.event_key))
    (r := { event with
        processed_status := take 32 status
        last_error := take 500 error
        processed_at := if error = "" then some now else none
        attempts := event.attempts + 1 }) hrow rfl hkey (q.provider, q.event_key)
  rw [if_pos rfl] at hset
  unfold Store.processed Store.eventOf finishWebhook
  rw [hset]
  by_cases he : error = "" <;> simp [he]

theorem receive_processed (h : s.processed q.provider q.event_key = true) :
    receive env s q dup work = ⟨.ok (some dup), s⟩ := by
  rcases receive_cases env s q dup work with ⟨_, heq⟩ | ⟨s', event, hopen, _⟩ | ⟨hfresh, _⟩
  · exact heq
  · rw [hopen.fresh] at h
    cases h
  · rw [hfresh] at h
    cases h

/-- `reconcile` does not touch the event rows. -/
theorem reconcile_events (h : reconcile env s c = .ok o) : o.store.events = s.events := by
  rcases call_cases env s c with ⟨_, _, o', _, hok, _, hrec⟩ | hidle
  · rw [hok] at h
    cases h
    exact hrec.events
  · have hev := hidle.events
    rw [after_of_ok h] at hev
    exact hev

/-! ## Moving a status -/

/-- The status after a report of `st`; a payment that is not there yet counts as pending. -/
def noted (st : PaymentStatus) (x : Option PaymentStatus) : Option PaymentStatus :=
  some (merge (x.getD .pending) st)

@[simp] theorem noted_noted (st : PaymentStatus) (x : Option PaymentStatus) :
    noted st (noted st x) = noted st x := by
  simp [noted]

/-- The payment `e` keeps its status or has a report of `st` merged into it. -/
def Moves (e : String) (st : PaymentStatus) (s t : Store) : Prop :=
  t.statusOf e = s.statusOf e ∨ t.statusOf e = noted st (s.statusOf e)

/-- The payment `e` has a report of `st` merged into it. -/
def Merges (e : String) (st : PaymentStatus) (s t : Store) : Prop :=
  t.statusOf e = noted st (s.statusOf e)

theorem Moves.trans (h : Moves e st s t) (h' : Moves e st t u) : Moves e st s u := by
  unfold Moves at *
  rcases h with h | h
  · rcases h' with h' | h'
    · left
      rw [h', h]
    · right
      rw [h', h]
  · right
    rcases h' with h' | h'
    · rw [h', h]
    · rw [h', h, noted_noted]

theorem Moves.merges_trans (h : Moves e st s t) (h' : Merges e st t u) : Merges e st s u := by
  unfold Moves Merges at *
  rcases h with h | h
  · rw [h', h]
  · rw [h', h, noted_noted]

theorem Merges.trans_moves (h : Merges e st s t) (h' : Moves e st t u) : Merges e st s u := by
  unfold Moves Merges at *
  rcases h' with h' | h'
  · rw [h', h]
  · rw [h', h, noted_noted]

theorem moves_of_payments (h : t.payments = s.payments) : Moves e st s t := by
  left
  unfold Store.statusOf Store.paymentOf
  rw [h]

/-! ## What a call reports -/

/-- The external id of a call. -/
def callId (env : Env) (c : Call) : String := strip (textOr env.host c.external_id "")

/-- The status of a call. -/
def callStatus (env : Env) (c : Call) : PaymentStatus := normalizeStatus env.host c.status

/-- Whatever the call reports of `e` is `st`. -/
def Says (env : Env) (e : String) (st : PaymentStatus) (c : Call) : Prop :=
  callId env c = e → callStatus env c = st

instance : Decidable (Says env e st c) := by
  unfold Says
  infer_instance

/-- The reply records a report of `e`. -/
def Reply.records (r : Reply) (e : String) : Bool :=
  r.external_id == e && match r.result with
    | .recorded _ => true
    | _ => false

/-- A call moves the payment, and merges the status if its reply says so. -/
theorem reconcile_moves (hok : reconcile env s c = .ok o) (hst : Says env e st c) :
    Moves e st s o.store ∧
      ∀ r, o.reply = some r → r.records e = true → Merges e st s o.store := by
  rcases call_cases env s c with ⟨r, invoice, o', hrep, hok', _, hrec⟩ | hidle
  · rw [hok] at hok'
    cases hok'
    rcases hrep.arguments with ⟨_, _, hstatus, hid⟩
    have hmerge : r.external_id = e → Merges e st s o.store := by
      intro he
      have hsay : r.status = st := by
        rw [hstatus]
        exact hst (hid.symm.trans he)
      unfold Merges noted
      rw [hrec.status e, if_pos he.symm, ← hsay, ← he]
      rfl
    constructor
    · by_cases he : r.external_id = e
      · exact Or.inr (hmerge he)
      · left
        rw [hrec.status e, if_neg fun h => he h.symm]
    · intro r' hr' hrecords
      rcases hrec.reply with ⟨k, hreply⟩
      rw [hreply] at hr'
      cases hr'
      apply hmerge
      simpa [Reply.records] using hrecords
  · constructor
    · apply moves_of_payments
      rw [← after_of_ok hok]
      exact hidle.payments
    · intro r hr hrecords
      have hnot := hidle.reply o r
      unfold Reply.records at hrecords
      cases hres : r.result with
      | recorded k => exact absurd hres (hnot k hok hr)
      | _ => simp [hres] at hrecords

/-! ## What a delivery reports -/

/-- The calls of a recurring event. -/
def recurringCalls (env : Env) (s : Store) (data : Dict) (payments : List Value) (now : Time) :
    List (Except PyError (Option Call)) :=
  let subscription_id := (Dict.get data "subscription_id").toStr env.host
  match (recurringSubscription s subscription_id).1 with
  | some subscription => payments.map (recurringCall env data subscription_id subscription now)
  | none => []

/-- The calls the handler makes if it gets as far as reconciling. -/
def callsOf (env : Env) (s : Store) (d : Delivery) : List Call :=
  match parsePayload env.host d.payload with
  | .dict data =>
    match d.handler with
    | .intasend =>
      match recurringPayments data with
      | some payments =>
        (recurringCalls env s data payments d.now).filterMap fun
          | .ok c => c
          | .error _ => none
      | none => [intasendCall env s data (intasendVerified env data d.lookup) d.now]
    | .paypal =>
      let reference := paypalReference env (d.lookup (paypalOrderId env data)).asDict
      ((paypalInvoice s reference).map fun i => paypalCall env data reference i d.now).toList
    | .pesapal =>
      let verified := (d.lookup ((pesapalTrackingId data).toStr env.host)).asDict
      [pesapalCall env s data verified d.now]
  | _ => []

/-- The answer records a report of `e`. -/
def WebhookReply.records (w : WebhookReply) (e : String) : Bool :=
  match w.outcome with
  | .reconciled r => r.records e
  | .recurring rs => rs.any fun r? => r?.any fun r => r.records e
  | _ => false

theorem reconcileAndFinish_moves {errorOf : Reply → String} {ack : Option Dict}
    (hst : Says env e st c) :
    Moves e st s (reconcileAndFinish env s event now c errorOf ack).store ∧
      ∀ w, (reconcileAndFinish env s event now c errorOf ack).reply = .ok (some w) →
        w.records e = true →
          Merges e st s (reconcileAndFinish env s event now c errorOf ack).store := by
  unfold reconcileAndFinish
  split
  · exact ⟨moves_of_payments rfl, by simp⟩
  · next o hok =>
    rcases reconcile_moves hok hst with ⟨hmoves, hmerges⟩
    split
    · exact ⟨hmoves, by simp⟩
    · next r hr =>
      -- finishing the row leaves the payments alone
      refine ⟨hmoves, ?_⟩
      intro w hw hrecords
      cases hw
      exact hmerges r hr hrecords

/-- The loop over the payments of a recurring event moves the payment, call by call. -/
theorem reconcileEach_moves (items : List (Except PyError (Option Call)))
    (hst : ∀ c, .ok (some c) ∈ items → Says env e st c) :
    Moves e st s (reconcileEach env s items).2 ∧
      ∀ results, (reconcileEach env s items).1 = .ok results →
        (results.any fun r? => r?.any fun r => r.records e) = true →
        Merges e st s (reconcileEach env s items).2 := by
  induction items generalizing s with
  | nil => exact ⟨moves_of_payments rfl, by rintro _ ⟨⟩; simp⟩
  | cons item rest ih =>
    have hrest : ∀ c, .ok (some c) ∈ rest → Says env e st c := by
      intro c hc
      exact hst c (List.mem_cons_of_mem _ hc)
    match item with
    | .error err => exact ⟨moves_of_payments rfl, by simp [reconcileEach]⟩
    | .ok none => exact ih hrest
    | .ok (some c) =>
      unfold reconcileEach
      split
      · exact ⟨moves_of_payments rfl, by simp⟩
      · next o hok =>
        rcases reconcile_moves hok (hst c List.mem_cons_self) with ⟨hmoves, hmerges⟩
        rcases ih (s := o.store) hrest with ⟨hmoves', hmerges'⟩
        split
        · next results t heq =>
          rw [heq] at hmoves' hmerges'
          refine ⟨hmoves.trans hmoves', ?_⟩
          intro results' hres hany
          cases hres
          rw [List.any_cons, Bool.or_eq_true] at hany
          rcases hany with hhead | htail
          · -- this call records the report, the later ones only repeat it
            rcases (Option.any_eq_true _ _).mp hhead with ⟨r, hr, hrecords⟩
            exact (hmerges r hr hrecords).trans_moves hmoves'
          · exact hmoves.merges_trans (hmerges' results rfl htail)
        · next err t heq =>
          rw [heq] at hmoves'
          exact ⟨hmoves.trans hmoves', by simp⟩

/-- The answer is retryable or unresolved. -/
def WebhookReply.asksAgain (w : WebhookReply) : Bool :=
  match w.outcome with
  | .retryable => true
  | .unresolved_subscription => true
  | .unresolved_invoice => true
  | .reconciled r => r.result == .unresolved_user || r.result == .unresolved_invoice
  | _ => false

/-! ## Keys of deliveries -/

/-- The provider column of the event rows of a handler. -/
def Handler.provider : Handler → String
  | .intasend => "intasend"
  | .paypal => "paypal"
  | .pesapal => "pesapal"

/-- The event key of a delivery; it depends on the payload only. -/
def deliveryKey (env : Env) (d : Delivery) : String :=
  eventKey env.host (parsePayload env.host d.payload).asDict (d.payload.raw env.host)

/-- A row under the key of the delivery has been processed. -/
def seen (env : Env) (s : Store) (d : Delivery) : Bool :=
  s.processed d.handler.provider (deliveryKey env d)

def WebhookReply.isDuplicate (w : WebhookReply) : Bool :=
  match w.outcome with
  | .duplicate => true
  | _ => false

/-- The handler leaves before the row is recorded. -/
structure LeavesEarly (s : Store) (h : Handled) : Prop where
  events : h.store.events = s.events
  payments : h.store.payments = s.payments
  answer : ∀ w, h.reply = .ok (some w) → w.isDuplicate = false
  silent : ∀ w e, h.reply = .ok (some w) → w.records e = false

/-- The work of a delivery moves a payment by what its calls say of it. -/
def WorkMoves (env : Env) (s s₁ : Store) (d : Delivery)
    (work : Store → PaymentWebhookEvent → Handled) : Prop :=
  ∀ e st s' event, s' = { s₁ with events := s'.events } → (∀ c ∈ callsOf env s d, Says env e st c) →
    Moves e st s' (work s' event).store ∧
      ∀ w, (work s' event).reply = .ok (some w) → w.records e = true →
        Merges e st s' (work s' event).store

/-- The handler records the delivery under its key. -/
structure RecordsKey (env : Env) (s s₁ : Store) (d : Delivery) (q : Receipt) (dup : WebhookReply)
    (work : Store → PaymentWebhookEvent → Handled) : Prop where
  handled : handle env s d = receive env s₁ q dup work
  events : s₁.events = s.events
  payments : s₁.payments = s.payments
  provider : q.provider = d.handler.provider
  event_key : q.event_key = deliveryKey env d
  duplicate : dup.isDuplicate = true
  asks : dup.asksAgain = false
  not_duplicate : ∀ s' event w, (work s' event).reply = .ok (some w) → w.isDuplicate = false
  moves : WorkMoves env s s₁ d work

theorem reconcileAndFinish_not_duplicate {errorOf : Reply → String} {ack : Option Dict}
    (h : (reconcileAndFinish env s event now c errorOf ack).reply = .ok (some w)) :
    w.isDuplicate = false := by
  unfold reconcileAndFinish at h
  split at h
  · cases h
  · split at h
    · cases h
    · cases h
      rfl

theorem leavesEarly_none (s : Store) : LeavesEarly s ⟨.ok none, s⟩ :=
  ⟨rfl, rfl, by simp, by simp⟩

theorem leavesEarly_error (s : Store) (e : PyError) : LeavesEarly s ⟨.error e, s⟩ :=
  ⟨rfl, rfl, by simp, by simp⟩

theorem leavesEarly_reply (he : t.events = s.events) (hp : t.payments = s.payments)
    (hw : w.isDuplicate = false) (hr : ∀ e, w.records e = false) :
    LeavesEarly s ⟨.ok (some w), t⟩ := by
  refine ⟨he, hp, ?_, ?_⟩
  · intro w' hw'
    cases hw'
    exact hw
  · intro w' e hw'
    cases hw'
    exact hr e

/-- Linking a recurring subscription leaves event rows and payments alone. -/
theorem recurringSubscription_frame (s : Store) (subscription_id : String) :
    (recurringSubscription s subscription_id).2.events = s.events ∧
    (recurringSubscription s subscription_id).2.payments = s.payments := by
  unfold recurringSubscription
  split
  · exact ⟨rfl, rfl⟩
  · split
    · exact ⟨rfl, rfl⟩
    · split <;> exact ⟨rfl, rfl⟩

/-- An exit that only finishes the row moves no payment and records none. -/
theorem finishRetryable_moves {error : String} {reply : WebhookReply}
    (hrec : reply.records e = false) :
    Moves e st s (finishRetryable s event now error reply).store ∧
      ∀ w, (finishRetryable s event now error reply).reply = .ok (some w) → w.records e = true →
        Merges e st s (finishRetryable s event now error reply).store := by
  refine ⟨moves_of_payments rfl, ?_⟩
  intro w hw hw'
  cases hw
  rw [hrec] at hw'
  cases hw'

/-! ## The three handlers -/

section Shapes

variable {data : Dict}

/-- Past its gates the IntaSend handler is one of its two branches. -/
theorem handle_intasend {payload : Payload} (s : Store) (lookup : String → Value) (now : Time)
    (hconf : env.settings.INTASEND_WEBHOOK_CHALLENGE ≠ "")
    (hdata : parsePayload env.host payload = .dict data) (hchal : challengeOk env data = true) :
    handle env s ⟨.intasend, payload, lookup, now⟩ =
      match recurringPayments data with
      | some payments => handleRecurring env s data (payload.raw env.host) payments now
      | none => handleCollection env s data (payload.raw env.host) lookup now := by
  have hnot : ¬ (!challengeOk env data) = true := by simp [hchal]
  unfold handle handleIntasendWebhook
  dsimp only
  rw [if_neg hconf, hdata]
  exact if_neg hnot

/-- Before them it leaves early, with nothing to say. -/
theorem handle_intasend_gate {payload : Payload} {lookup : String → Value}
    (hgate : env.settings.INTASEND_WEBHOOK_CHALLENGE = "" ∨
      ∀ data, parsePayload env.host payload = .dict data → challengeOk env data = false) :
    handle env s ⟨.intasend, payload, lookup, now⟩ = ⟨.ok none, s⟩ ∨
      handle env s ⟨.intasend, payload, lookup, now⟩ = ⟨.error .AttributeError, s⟩ := by
  unfold handle handleIntasendWebhook
  dsimp only
  split
  · exact Or.inl rfl
  · next hconf =>
    cases hdata : parsePayload env.host payload with
    | dict data =>
      rcases hgate with hgate | hgate
      · exact absurd hgate hconf
      · simp [hgate data hdata]
    | _ => exact Or.inr rfl

theorem recurring_shape {payload : Payload} {lookup : String → Value} {payments : List Value}
    (hconf : env.settings.INTASEND_WEBHOOK_CHALLENGE ≠ "")
    (hdata : parsePayload env.host payload = .dict data) (hchal : challengeOk env data = true)
    (hpay : recurringPayments data = some payments) :
    LeavesEarly s (handle env s ⟨.intasend, payload, lookup, now⟩) ∨
      ∃ s₁ q dup work, RecordsKey env s s₁ ⟨.intasend, payload, lookup, now⟩ q dup work := by
  have heq := handle_intasend s lookup now hconf hdata hchal
  rw [hpay] at heq
  rcases recurringSubscription_frame s ((Dict.get data "subscription_id").toStr env.host) with
    ⟨hevents, hpayments⟩
  simp only [handleRecurring] at heq
  split at heq
  · next s₁ hsub =>
    -- without a subscription the handler answers before it records the delivery
    left
    rw [heq]
    rw [hsub] at hevents hpayments
    exact leavesEarly_reply hevents hpayments rfl fun _ => rfl
  · next subscription s₁ hsub =>
    right
    rw [hsub] at hevents hpayments
    refine ⟨s₁, _, _, _, heq, hevents, hpayments, rfl, ?_, rfl, rfl, ?_, ?_⟩
    · simp [deliveryKey, hdata, Value.asDict]
    · intro s' event w hw
      split at hw
      · cases hw
      · cases hw
        rfl
    · -- every call of the loop is one of the calls of the delivery
      intro e st s' event _ hsays
      have hcalls : ∀ c, .ok (some c) ∈ payments.map (recurringCall env data
          ((Dict.get data "subscription_id").toStr env.host) subscription now) →
            Says env e st c := by
        intro c hc
        apply hsays
        simp only [callsOf, hdata, hpay, recurringCalls, hsub, List.mem_filterMap]
        exact ⟨_, hc, rfl⟩
      rcases reconcileEach_moves (s := s') _ hcalls with ⟨hmoves, hmerges⟩
      cases hres : reconcileEach env s' (payments.map (recurringCall env data
        ((Dict.get data "subscription_id").toStr env.host) subscription now)) with
      | mk results t =>
      rw [hres] at hmoves hmerges
      simp only [hres]
      split
      · next err t' heq' =>
        cases heq'
        exact ⟨hmoves, by simp⟩
      · next results' t' heq' =>
        cases heq'
        refine ⟨hmoves, ?_⟩
        intro w hw hrec
        cases hw
        exact hmerges results' rfl hrec

theorem collection_shape {payload : Payload} {lookup : String → Value}
    (hconf : env.settings.INTASEND_WEBHOOK_CHALLENGE ≠ "")
    (hdata : parsePayload env.host payload = .dict data) (hchal : challengeOk env data = true)
    (hpay : recurringPayments data = none) :
    LeavesEarly s (handle env s ⟨.intasend, payload, lookup, now⟩) ∨
      ∃ s₁ q dup work, RecordsKey env s s₁ ⟨.intasend, payload, lookup, now⟩ q dup work := by
  have heq := handle_intasend s lookup now hconf hdata hchal
  rw [hpay] at heq
  simp only [handleCollection] at heq
  split at heq
  · left
    rw [heq]
    exact leavesEarly_none s
  · right
    refine ⟨s, _, _, _, heq, rfl, rfl, rfl, ?_, rfl, rfl, ?_, ?_⟩
    · simp [deliveryKey, hdata, Value.asDict]
    · intro s' event w hw
      split at hw
      · cases hw
        rfl
      · exact reconcileAndFinish_not_duplicate hw
    · intro e st s' event hs' hsays
      split
      · exact finishRetryable_moves rfl
      · -- the call reads the invoices, which recording the delivery has not touched
        apply reconcileAndFinish_moves
        have hcall : intasendCall env s' data (intasendVerified env data lookup) now =
            intasendCall env s data (intasendVerified env data lookup) now := by
          rw [hs']
          rfl
        rw [hcall]
        apply hsays
        simp [callsOf, hdata, hpay]

theorem intasend_shape (env : Env) (s : Store) (payload : Payload) (lookup : String → Value)
    (now : Time) :
    LeavesEarly s (handle env s ⟨.intasend, payload, lookup, now⟩) ∨
      ∃ s₁ q dup work, RecordsKey env s s₁ ⟨.intasend, payload, lookup, now⟩ q dup work := by
  by_cases hgate : env.settings.INTASEND_WEBHOOK_CHALLENGE = "" ∨
      ∀ data, parsePayload env.host payload = .dict data → challengeOk env data = false
  · left
    rcases handle_intasend_gate hgate with heq | heq
    · rw [heq]
      exact leavesEarly_none s
    · rw [heq]
      exact leavesEarly_error s _
  · push Not at hgate
    rcases hgate with ⟨hconf, data, hdata, hchal⟩
    rw [ne_eq, Bool.not_eq_false] at hchal
    cases hpay : recurringPayments data with
    | some payments => exact recurring_shape hconf hdata hchal hpay
    | none => exact collection_shape hconf hdata hchal hpay

theorem paypal_shape (env : Env) (s : Store) (payload : Payload) (lookup : String → Value)
    (now : Time) :
    LeavesEarly s (handle env s ⟨.paypal, payload, lookup, now⟩) ∨
      ∃ s₁ q dup work, RecordsKey env s s₁ ⟨.paypal, payload, lookup, now⟩ q dup work := by
  cases hdata : parsePayload env.host payload with
  | dict data =>
    have heq : handle env s ⟨.paypal, payload, lookup, now⟩ =
        handlePaypalWebhook env s payload lookup now := rfl
    unfold handlePaypalWebhook at heq
    rw [hdata] at heq
    dsimp only at heq
    split at heq
    · left
      rw [heq]
      exact leavesEarly_reply rfl rfl rfl fun _ => rfl
    · split at heq
      · left
        rw [heq]
        exact leavesEarly_none s
      · right
        refine ⟨s, _, _, _, heq, rfl, rfl, rfl, ?_, rfl, rfl, ?_, ?_⟩
        · simp [deliveryKey, hdata, Value.asDict]
        · intro s' event w hw
          unfold paypalWork at hw
          dsimp only at hw
          split at hw
          · cases hw
            rfl
          · split at hw
            · cases hw
            · split at hw
              · cases hw
                rfl
              · split at hw
                · cases hw
                  rfl
                · exact reconcileAndFinish_not_duplicate hw
        · -- every exit before `reconcile` only finishes the row
          intro e st s' event hs' hsays
          unfold paypalWork
          dsimp only
          split
          · exact finishRetryable_moves rfl
          · split
            · exact ⟨moves_of_payments rfl, by simp⟩
            · split
              · exact finishRetryable_moves rfl
              · split
                · exact finishRetryable_moves rfl
                · next invoice hinv =>
                  apply reconcileAndFinish_moves
                  have hsome : paypalInvoice s
                      (paypalReference env (lookup (paypalOrderId env data)).asDict) =
                        some invoice := by
                    rw [hs'] at hinv
                    exact hinv
                  apply hsays
                  simp [callsOf, hdata, hsome]
  | _ =>
    left
    simp only [handle, handlePaypalWebhook, hdata]
    exact leavesEarly_error s _

theorem pesapal_shape (env : Env) (s : Store) (payload : Payload) (lookup : String → Value)
    (now : Time) :
    LeavesEarly s (handle env s ⟨.pesapal, payload, lookup, now⟩) ∨
      ∃ s₁ q dup work, RecordsKey env s s₁ ⟨.pesapal, payload, lookup, now⟩ q dup work := by
  cases hdata : parsePayload env.host payload with
  | dict data =>
    have heq : handle env s ⟨.pesapal, payload, lookup, now⟩ =
        handlePesapalWebhook env s payload lookup now := rfl
    unfold handlePesapalWebhook at heq
    rw [hdata] at heq
    dsimp only at heq
    split at heq
    · left
      rw [heq]
      exact leavesEarly_none s
    · split at heq
      · -- the status is looked up before the delivery is recorded
        left
        rw [heq]
        exact leavesEarly_reply rfl rfl rfl fun _ => rfl
      · split at heq
        · left
          rw [heq]
          exact leavesEarly_error s _
        · right
          refine ⟨s, _, _, _, heq, rfl, rfl, rfl, ?_, rfl, rfl, ?_, ?_⟩
          · simp [deliveryKey, hdata, Value.asDict]
          · intro s' event w hw
            exact reconcileAndFinish_not_duplicate hw
          · intro e st s' event hs' hsays
            apply reconcileAndFinish_moves
            have hcall : ∀ v, pesapalCall env s' data v now = pesapalCall env s data v now := by
              intro v
              rw [hs']
              rfl
            rw [hcall]
            apply hsays
            simp [callsOf, hdata]
  | _ =>
    left
    simp only [handle, handlePesapalWebhook, hdata]
    exact leavesEarly_error s _

end Shapes

/-- Every handler leaves early or records the delivery under its key. -/
theorem handle_shape (env : Env) (s : Store) (d : Delivery) :
    LeavesEarly s (handle env s d) ∨ ∃ s₁ q dup work, RecordsKey env s s₁ d q dup work := by
  rcases d with ⟨handler, payload, lookup, now⟩
  cases handler with
  | intasend => exact intasend_shape env s payload lookup now
  | paypal => exact paypal_shape env s payload lookup now
  | pesapal => exact pesapal_shape env s payload lookup now

/-- A duplicate answer means a processed row under the key. -/
theorem seen_of_duplicate (h : (handle env s d).reply = .ok (some w)) (hw : w.isDuplicate = true) :
    seen env s d = true := by
  rcases handle_shape env s d with hearly | ⟨s₁, q, dup, work, hrec⟩
  · rw [hearly.answer w h] at hw
    cases hw
  · have hproc : s₁.processed q.provider q.event_key = seen env s d := by
      unfold seen Store.processed Store.eventOf
      rw [hrec.events, hrec.provider, hrec.event_key]
    rcases receive_cases env s₁ q dup work with ⟨hp, _⟩ | ⟨s', event, _, heq⟩ | ⟨_, heq⟩
    · rw [← hproc]
      exact hp
    · -- the work of a delivery never answers so itself
      rw [hrec.handled, heq] at h
      rw [hrec.not_duplicate _ _ _ h] at hw
      cases hw
    · rw [hrec.handled, heq] at h
      cases h

theorem seen_congr (h : s'.events = s.events) : seen env s' d = seen env s d := by
  unfold seen Store.processed Store.eventOf
  rw [h]

end AlgoBot.Billing
