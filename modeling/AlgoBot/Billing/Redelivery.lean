import AlgoBot.Billing.Delivery

/-!
# Redelivery

A delivery that ends with a retryable or unresolved answer asks the provider to
deliver again. The next delivery of the payload is answered as a duplicate if
the event row under its key has been processed, so what decides is how the exit
taken marked that row.

`redelivery_iff`: the redelivery is processed exactly if the delivery did not
take one of the exits in `losesRetry`.
-/

namespace AlgoBot.Billing

open AlgoBot.Core AlgoBot.Python

variable {env : Env} {s s' t u : Store} {c : Call} {d : Delivery} {o : Outcome} {q : Receipt}
  {event : PaymentWebhookEvent} {w dup : WebhookReply} {now : Time}
  {work : Store → PaymentWebhookEvent → Handled}

/-! ## Unresolved reports -/

/-- The call names no user of the store. -/
def unresolvedUser (env : Env) (s : Store) (c : Call) : Bool :=
  match enter env s c with
  | .ok (.unresolved_user _ _ _) => true
  | _ => false

/-- The call needs an invoice and the store has none for it. -/
def unresolvedInvoice (env : Env) (s : Store) (c : Call) : Bool :=
  match enter env s c with
  | .ok (.report r) => r.require_existing_invoice && (lookupInvoice s r).isNone
  | _ => false

theorem enter_congr (h : s'.users = s.users) : enter env s' c = enter env s c := by
  unfold enter findUser
  rw [h]

theorem unresolvedUser_congr (h : s'.users = s.users) :
    unresolvedUser env s' c = unresolvedUser env s c := by
  unfold unresolvedUser
  rw [enter_congr h]

theorem unresolvedInvoice_congr (hu : s'.users = s.users) (hi : s'.invoices = s.invoices) :
    unresolvedInvoice env s' c = unresolvedInvoice env s c := by
  unfold unresolvedInvoice lookupInvoice
  rw [enter_congr hu, hi]

/-- The answer is unresolved exactly where the user or the invoice is. -/
theorem reconcile_unresolved {r : Reply} (h : reconcile env s c = .ok o) (hr : o.reply = some r) :
    (r.result = .unresolved_user ↔ unresolvedUser env s c = true) ∧
    (r.result = .unresolved_invoice ↔ unresolvedInvoice env s c = true) := by
  unfold reconcile at h
  rcases bind_ok.mp h with ⟨entry, hent, h⟩
  unfold unresolvedUser unresolvedInvoice
  rw [hent]
  cases entry with
  | no_external_id =>
    cases h
    cases hr
  | unresolved_user provider status external_id =>
    cases h
    cases hr
    simp
  | report p =>
    simp only [Bool.false_eq_true, iff_false, Bool.and_eq_true, Option.isNone_iff_eq_none]
    rcases transaction_cases h with ⟨invoice, hacc, hrec⟩ | ⟨_, href⟩
    · rcases hrec.reply with ⟨k, hreply⟩
      rw [hr] at hreply
      cases hreply
      have htarget := hacc.target
      unfold target? at htarget
      constructor
      · simp
      · simp only [reduceCtorEq, false_iff, not_and]
        intro hreq hnone
        simp [hnone, hreq] at htarget
    · rcases href.reply with ⟨status, result, hreply, _, huser, hinvoice⟩
      rw [hr] at hreply
      cases hreply
      exact ⟨huser, hinvoice⟩

/-! ## The exits that lose the retry -/

/-- No subscription for a processed recurring event, or an unresolved collection: the row of
the one stays processed and that of the other is finished without an error. -/
def intasendLosesRetry (env : Env) (s : Store) (data : Dict) (d : Delivery) : Bool :=
  match recurringPayments data with
  | some _ =>
    (recurringSubscription s ((Dict.get data "subscription_id").toStr env.host)).1.isNone &&
      seen env s d
  | none =>
    let verified := intasendVerified env data d.lookup
    let c := intasendCall env s data verified d.now
    (collectionId data).truthy && verified.truthy && !seen env s d &&
      (unresolvedUser env s c || unresolvedInvoice env s c)

/-- The invoice is there but its user is not: the row is finished without an error. -/
def paypalLosesRetry (env : Env) (s : Store) (data : Dict) (d : Delivery) : Bool :=
  let order := d.lookup (paypalOrderId env data)
  let reference := paypalReference env order.asDict
  let amount := ((paypalResource data).get "amount").asDict
  decide (paypalEventType env data ∈ paypalEvents) && paypalCaptureId env data != "" &&
    paypalOrderId env data != "" && order.truthy && order.isDict && (amount.get "value").truthy &&
    (amount.get "currency_code").truthy && !seen env s d &&
    (paypalInvoice s reference).any fun invoice =>
      unresolvedUser env s (paypalCall env data reference invoice d.now)

/-- No status for a processed notification, or an unresolved one. -/
def pesapalLosesRetry (env : Env) (s : Store) (data : Dict) (d : Delivery) : Bool :=
  let tracking_id := pesapalTrackingId data
  let verified := d.lookup (tracking_id.toStr env.host)
  let c := pesapalCall env s data verified.asDict d.now
  tracking_id.truthy &&
    (if verified.truthy then
      verified.isDict && !seen env s d && (unresolvedUser env s c || unresolvedInvoice env s c)
    else seen env s d)

/-- The delivery takes an exit after which its row counts as processed although the answer asks
for the delivery again. -/
def losesRetry (env : Env) (s : Store) (d : Delivery) : Bool :=
  match parsePayload env.host d.payload with
  | .dict data =>
    match d.handler with
    | .intasend =>
      env.settings.INTASEND_WEBHOOK_CHALLENGE != "" && challengeOk env data &&
        intasendLosesRetry env s data d
    | .paypal => paypalLosesRetry env s data d
    | .pesapal => pesapalLosesRetry env s data d
  | _ => false

theorem reconcileAndFinish_spec {errorOf : Reply → String} {ack : Option Dict}
    (hopen : Opened s s' q event)
    (h : reconcileAndFinish env s' event now c errorOf ack = ⟨.ok (some w), t⟩) :
    ∃ r, w.outcome = .reconciled r ∧
      (t.processed q.provider q.event_key = true ↔ errorOf r = "") ∧
      (r.result = .unresolved_user ↔ unresolvedUser env s c = true) ∧
      (r.result = .unresolved_invoice ↔ unresolvedInvoice env s c = true) := by
  have husers : s'.users = s.users := by rw [hopen.rest]
  have hinvoices : s'.invoices = s.invoices := by rw [hopen.rest]
  unfold reconcileAndFinish at h
  split at h
  · cases h
  · next o hok =>
    split at h
    · cases h
    · next r hr =>
      cases h
      have hrow : o.store.eventOf q.provider q.event_key = some event := by
        rw [← hopen.row]
        unfold Store.eventOf
        rw [reconcile_events hok]
      rcases reconcile_unresolved hok hr with ⟨huser, hinvoice⟩
      rw [unresolvedUser_congr husers] at huser
      rw [unresolvedInvoice_congr husers hinvoices] at hinvoice
      exact ⟨r, rfl, processed_finish hrow _ _ _, huser, hinvoice⟩

/-- A row finished without an error stays processed whatever the answer was. -/
theorem reconcileAndFinish_loses {ack : Option Dict} (hopen : Opened s s' q event)
    (h : reconcileAndFinish env s' event now c (fun _ => "") ack = ⟨.ok (some w), t⟩) :
    (w.asksAgain = true ∧ t.processed q.provider q.event_key = true) ↔
      (unresolvedUser env s c || unresolvedInvoice env s c) = true := by
  rcases reconcileAndFinish_spec hopen h with ⟨r, hw, hproc, huser, hinvoice⟩
  rw [hproc, Bool.or_eq_true, ← huser, ← hinvoice]
  simp [WebhookReply.asksAgain, hw]

/-- PayPal finishes the row of a retryable answer with an error, so only a missing user loses. -/
theorem paypal_reconcile_loses {ack : Option Dict} (hopen : Opened s s' q event)
    (h : reconcileAndFinish env s' event now c
      (fun r => if r.retryable then "invoice_reconciliation_retryable" else "") ack =
        ⟨.ok (some w), t⟩) :
    (w.asksAgain = true ∧ t.processed q.provider q.event_key = true) ↔
      unresolvedUser env s c = true := by
  rcases reconcileAndFinish_spec hopen h with ⟨r, hw, hproc, huser, _⟩
  rw [hproc, ← huser]
  unfold WebhookReply.asksAgain Reply.retryable
  cases hres : r.result <;> simp [hw, hres]

/-- Finishing with an error leaves the row open. -/
theorem finishRetryable_loses {reply : WebhookReply} {error : String} (hopen : Opened s s' q event)
    (he : error ≠ "") (h : finishRetryable s' event now error reply = ⟨.ok (some w), t⟩) :
    ¬ (w.asksAgain = true ∧ t.processed q.provider q.event_key = true) := by
  rintro ⟨_, hproc⟩
  cases h
  exact he ((processed_finish hopen.row _ _ _).mp hproc)

theorem recurring_loses {payload : Payload} {lookup : String → Value} {data : Dict}
    {payments : List Value} (hconf : env.settings.INTASEND_WEBHOOK_CHALLENGE ≠ "")
    (hdata : parsePayload env.host payload = .dict data) (hchal : challengeOk env data = true)
    (hpay : recurringPayments data = some payments)
    (h : handle env s ⟨.intasend, payload, lookup, now⟩ = ⟨.ok (some w), t⟩) :
    (w.asksAgain = true ∧ seen env t ⟨.intasend, payload, lookup, now⟩ = true) ↔
      intasendLosesRetry env s data ⟨.intasend, payload, lookup, now⟩ = true := by
  rcases recurringSubscription_frame s ((Dict.get data "subscription_id").toStr env.host) with
    ⟨hevents, _⟩
  rw [handle_intasend s lookup now hconf hdata hchal, hpay] at h
  simp only [handleRecurring] at h
  split at h
  · -- no subscription: the row is what it was
    next s₁ hsub =>
    rw [hsub] at hevents
    cases h
    simp [intasendLosesRetry, hpay, hsub, WebhookReply.asksAgain, seen_congr hevents]
  · next subscription s₁ hsub =>
    simp only [intasendLosesRetry, hpay, hsub, Option.isNone_some, Bool.false_and,
      Bool.false_eq_true, iff_false]
    rintro ⟨hasks, _⟩
    rcases receive_cases env s₁ _ _ _ with ⟨_, heq⟩ | ⟨s', event, _, heq⟩ | ⟨_, heq⟩
    · rw [heq] at h
      cases h
      cases hasks
    · rw [heq] at h
      split at h
      · cases h
      · cases h
        cases hasks
    · rw [heq] at h
      cases h

theorem collection_loses {payload : Payload} {lookup : String → Value} {data : Dict}
    (hconf : env.settings.INTASEND_WEBHOOK_CHALLENGE ≠ "")
    (hdata : parsePayload env.host payload = .dict data) (hchal : challengeOk env data = true)
    (hpay : recurringPayments data = none)
    (h : handle env s ⟨.intasend, payload, lookup, now⟩ = ⟨.ok (some w), t⟩) :
    (w.asksAgain = true ∧ seen env t ⟨.intasend, payload, lookup, now⟩ = true) ↔
      intasendLosesRetry env s data ⟨.intasend, payload, lookup, now⟩ = true := by
  have hseen : ∀ s₂ : Store, seen env s₂ ⟨.intasend, payload, lookup, now⟩ =
      s₂.processed "intasend" (eventKey env.host data (payload.raw env.host)) := by
    intro s₂
    simp [seen, deliveryKey, hdata, Value.asDict, Handler.provider]
  rw [handle_intasend s lookup now hconf hdata hchal, hpay] at h
  simp only [handleCollection] at h
  split at h
  · cases h
  · next hext =>
    rw [Bool.not_eq_true', Bool.not_eq_false] at hext
    simp only [intasendLosesRetry, hpay, hext, hseen, Bool.true_and, Bool.and_eq_true]
    rcases receive_cases env s _ _ _ with ⟨hdup, heq⟩ | ⟨s', event, hopen, heq⟩ | ⟨_, heq⟩
    · rw [heq] at h
      cases h
      simp only [receiptOf_provider, receiptOf_event_key] at hdup
      simp [WebhookReply.asksAgain, hdup]
    · rw [heq] at h
      have hfresh := hopen.fresh
      simp only [receiptOf_provider, receiptOf_event_key] at hfresh
      split at h
      · next hver =>
        -- the status is unavailable: the row is finished with an error
        have hnot := finishRetryable_loses hopen (by decide) h
        rw [Bool.not_eq_true'] at hver
        simpa [hver] using hnot
      · next hver =>
        rw [Bool.not_eq_true', Bool.not_eq_false] at hver
        have hcall : intasendCall env s' data (intasendVerified env data lookup) now =
            intasendCall env s data (intasendVerified env data lookup) now := by
          rw [hopen.rest]
          rfl
        have hiff := reconcileAndFinish_loses hopen h
        rw [hcall] at hiff
        simpa [hver, hfresh] using hiff
    · rw [heq] at h
      cases h

theorem intasend_loses {payload : Payload} {lookup : String → Value}
    (h : handle env s ⟨.intasend, payload, lookup, now⟩ = ⟨.ok (some w), t⟩) :
    (w.asksAgain = true ∧ seen env t ⟨.intasend, payload, lookup, now⟩ = true) ↔
      losesRetry env s ⟨.intasend, payload, lookup, now⟩ = true := by
  by_cases hgate : env.settings.INTASEND_WEBHOOK_CHALLENGE = "" ∨
      ∀ data, parsePayload env.host payload = .dict data → challengeOk env data = false
  · exfalso
    rcases handle_intasend_gate hgate with heq | heq
    · rw [heq] at h
      cases h
    · rw [heq] at h
      cases h
  · push Not at hgate
    rcases hgate with ⟨hconf, data, hdata, hchal⟩
    rw [ne_eq, Bool.not_eq_false] at hchal
    have hloses : losesRetry env s ⟨.intasend, payload, lookup, now⟩ =
        intasendLosesRetry env s data ⟨.intasend, payload, lookup, now⟩ := by
      simp [losesRetry, hdata, hconf, hchal]
    rw [hloses]
    cases hpay : recurringPayments data with
    | some payments => exact recurring_loses hconf hdata hchal hpay h
    | none => exact collection_loses hconf hdata hchal hpay h

/-- A recorded delivery loses its retry only where the invoice is there and its user is not. -/
theorem paypalWork_loses {data : Dict} {lookup : String → Value} (hopen : Opened s s' q event)
    (h : paypalWork env data lookup now s' event = ⟨.ok (some w), t⟩) :
    (w.asksAgain = true ∧ t.processed q.provider q.event_key = true) ↔
      ((lookup (paypalOrderId env data)).truthy = true ∧
        (lookup (paypalOrderId env data)).isDict = true ∧
        (((paypalResource data).get "amount").asDict.get "value").truthy = true ∧
        (((paypalResource data).get "amount").asDict.get "currency_code").truthy = true) ∧
      ∃ invoice, paypalInvoice s
          (paypalReference env (lookup (paypalOrderId env data)).asDict) = some invoice ∧
        unresolvedUser env s (paypalCall env data
          (paypalReference env (lookup (paypalOrderId env data)).asDict) invoice now) = true := by
  have hinvoice : paypalInvoice s' (paypalReference env (lookup (paypalOrderId env data)).asDict) =
      paypalInvoice s (paypalReference env (lookup (paypalOrderId env data)).asDict) := by
    rw [hopen.rest]
    rfl
  unfold paypalWork at h
  dsimp only at h
  rw [hinvoice] at h
  split at h
  · next horder =>
    have hnot := finishRetryable_loses hopen (by decide) h
    rw [Bool.not_eq_true'] at horder
    simpa [horder] using hnot
  · split at h
    · cases h
    · split at h
      · next hamount =>
        have hnot := finishRetryable_loses hopen (by decide) h
        rw [Bool.or_eq_true, Bool.not_eq_true', Bool.not_eq_true'] at hamount
        rcases hamount with hvalue | hcurrency
        · simpa [hvalue] using hnot
        · simpa [hcurrency] using hnot
      · next horder hdict hamount =>
        simp only [Bool.not_eq_true', Bool.not_eq_false, Bool.or_eq_true, not_or]
          at horder hdict hamount
        split at h
        · next hnone =>
          have hnot := finishRetryable_loses hopen (by decide) h
          simpa [hnone] using hnot
        · next invoice hsome =>
          have hiff := paypal_reconcile_loses hopen h
          simpa [horder, hdict, hamount, hsome] using hiff

theorem paypal_loses {payload : Payload} {lookup : String → Value}
    (h : handle env s ⟨.paypal, payload, lookup, now⟩ = ⟨.ok (some w), t⟩) :
    (w.asksAgain = true ∧ seen env t ⟨.paypal, payload, lookup, now⟩ = true) ↔
      losesRetry env s ⟨.paypal, payload, lookup, now⟩ = true := by
  cases hdata : parsePayload env.host payload with
  | dict data =>
    have hseen : ∀ s₂ : Store, seen env s₂ ⟨.paypal, payload, lookup, now⟩ =
        s₂.processed "paypal" (eventKey env.host data (payload.raw env.host)) := by
      intro s₂
      simp [seen, deliveryKey, hdata, Value.asDict, Handler.provider]
    have heq : handle env s ⟨.paypal, payload, lookup, now⟩ =
        handlePaypalWebhook env s payload lookup now := rfl
    rw [heq] at h
    unfold handlePaypalWebhook at h
    simp only [losesRetry, hdata, paypalLosesRetry, hseen]
    rw [hdata] at h
    dsimp only at h
    split at h
    · next hevent =>
      cases h
      simp [WebhookReply.asksAgain, hevent]
    · next hevent =>
      rw [not_not] at hevent
      split at h
      · cases h
      · next hids =>
        rw [not_or] at hids
        rcases receive_cases env s _ _ _ with ⟨hdup, heq'⟩ | ⟨s', event, hopen, heq'⟩ | ⟨_, heq'⟩
        · rw [heq'] at h
          cases h
          simp only [receiptOf_provider, receiptOf_event_key] at hdup
          simp [WebhookReply.asksAgain, hdup]
        · rw [heq'] at h
          have hfresh := hopen.fresh
          simp only [receiptOf_provider, receiptOf_event_key] at hfresh
          have hiff := paypalWork_loses hopen h
          simp only [receiptOf_provider, receiptOf_event_key] at hiff
          rw [hiff]
          simp [hevent, hids, hfresh, Option.any_eq_true, and_assoc]
        · rw [heq'] at h
          cases h
  | _ =>
    exfalso
    simp [handle, handlePaypalWebhook, hdata] at h

theorem pesapal_loses {payload : Payload} {lookup : String → Value}
    (h : handle env s ⟨.pesapal, payload, lookup, now⟩ = ⟨.ok (some w), t⟩) :
    (w.asksAgain = true ∧ seen env t ⟨.pesapal, payload, lookup, now⟩ = true) ↔
      losesRetry env s ⟨.pesapal, payload, lookup, now⟩ = true := by
  cases hdata : parsePayload env.host payload with
  | dict data =>
    have hseen : ∀ s₂ : Store, seen env s₂ ⟨.pesapal, payload, lookup, now⟩ =
        s₂.processed "pesapal" (eventKey env.host data (payload.raw env.host)) := by
      intro s₂
      simp [seen, deliveryKey, hdata, Value.asDict, Handler.provider]
    have heq : handle env s ⟨.pesapal, payload, lookup, now⟩ =
        handlePesapalWebhook env s payload lookup now := rfl
    rw [heq] at h
    unfold handlePesapalWebhook at h
    simp only [losesRetry, hdata, pesapalLosesRetry, hseen]
    rw [hdata] at h
    dsimp only at h
    split at h
    · cases h
    · next htrack =>
      rw [Bool.not_eq_true', Bool.not_eq_false] at htrack
      split at h
      · next hver =>
        -- the status is unavailable: the delivery is not recorded at all
        rw [Bool.not_eq_true'] at hver
        cases h
        simp [WebhookReply.asksAgain, htrack, hver]
      · next hver =>
        rw [Bool.not_eq_true', Bool.not_eq_false] at hver
        split at h
        · cases h
        · next hdict =>
          rw [Bool.not_eq_true', Bool.not_eq_false] at hdict
          rcases receive_cases env s _ _ _ with ⟨hdup, heq'⟩ | ⟨s', event, hopen, heq'⟩ | ⟨_, heq'⟩
          · rw [heq'] at h
            cases h
            simp only [receiptOf_provider, receiptOf_event_key] at hdup
            simp [WebhookReply.asksAgain, hdup, hver]
          · rw [heq'] at h
            have hfresh := hopen.fresh
            simp only [receiptOf_provider, receiptOf_event_key] at hfresh
            have hcall : ∀ v, pesapalCall env s' data v now = pesapalCall env s data v now := by
              intro v
              rw [hopen.rest]
              rfl
            have hiff := reconcileAndFinish_loses hopen h
            rw [hcall] at hiff
            simpa [htrack, hver, hdict, hfresh] using hiff
          · rw [heq'] at h
            cases h
  | _ =>
    exfalso
    simp [handle, handlePesapalWebhook, hdata] at h

/-! ## Redeliveries -/

/-- The exit taken leaves the row processed although the answer asks again exactly if the
delivery is one that loses its retry. -/
theorem loses_iff (h : (handle env s d).reply = .ok (some w)) :
    (w.asksAgain = true ∧ seen env (handle env s d).store d = true) ↔
      losesRetry env s d = true := by
  have heq : handle env s d = ⟨.ok (some w), (handle env s d).store⟩ := by rw [← h]
  rcases d with ⟨handler, payload, lookup, now⟩
  cases handler with
  | intasend => exact intasend_loses heq
  | paypal => exact paypal_loses heq
  | pesapal => exact pesapal_loses heq

/-- The same payload, delivered again with other answers of the provider and at another time. -/
def Delivery.again (d : Delivery) (lookup : String → Value) (now : Time) : Delivery :=
  { d with lookup := lookup, now := now }

@[simp] theorem seen_again (lookup : String → Value) (now : Time) :
    seen env s (d.again lookup now) = seen env s d := rfl

/-- A delivery that loses its retry can be answered as a duplicate next time. -/
theorem duplicate_of_losesRetry (hl : losesRetry env s d = true) (hseen : seen env t d = true) :
    ∃ u lookup now w, u.events = t.events ∧
      (handle env u (d.again lookup now)).reply = .ok (some w) ∧ w.isDuplicate = true := by
  rcases d with ⟨handler, payload, lookup, now⟩
  cases hdata : parsePayload env.host payload with
  | dict data =>
    have hproc :
        t.processed handler.provider (eventKey env.host data (payload.raw env.host)) = true := by
      simpa [seen, deliveryKey, hdata, Value.asDict] using hseen
    simp only [losesRetry, hdata] at hl
    cases handler with
    | intasend =>
      simp only [Bool.and_eq_true, bne_iff_ne, ne_eq] at hl
      rcases hl with ⟨⟨hconf, hchal⟩, hl⟩
      cases hpay : recurringPayments data with
      | some payments =>
        -- once there is a subscription again the processed row answers
        let row : Subscription := { freshSubscription ⟨0, none⟩ now 0 with
          provider_subscription_id := (Dict.get data "subscription_id").toStr env.host }
        let u : Store := { t with subscriptions := ⟨[row], by simp⟩ }
        have hsub : recurringSubscription u ((Dict.get data "subscription_id").toStr env.host) =
            (some row, u) := by
          simp [recurringSubscription, Table.find?, u, row]
        have hu : u.processed "intasend" (eventKey env.host data (payload.raw env.host)) = true :=
          hproc
        refine ⟨u, lookup, now, ⟨"intasend", (Dict.get data "subscription_id").toStr env.host,
          .duplicate, none⟩, rfl, ?_, rfl⟩
        simp only [Delivery.again, handle, handleIntasendWebhook, hconf, hdata, hchal, hpay,
          handleRecurring, hsub, if_false, Bool.not_true, Bool.false_eq_true]
        rw [receive_processed (by simpa using hu)]
      | none =>
        simp only [intasendLosesRetry, hpay, Bool.and_eq_true] at hl
        rcases hl with ⟨⟨⟨hext, _⟩, _⟩, _⟩
        refine ⟨t, lookup, now, ⟨"intasend", (collectionId data).toStr env.host, .duplicate, none⟩,
          rfl, ?_, rfl⟩
        simp only [Delivery.again, handle, handleIntasendWebhook, hconf, hdata, hchal, hpay,
          handleCollection, hext, if_false, Bool.not_true, Bool.false_eq_true]
        rw [receive_processed (by simpa [Handler.provider] using hproc)]
    | paypal =>
      simp only [paypalLosesRetry, Bool.and_eq_true, bne_iff_ne, ne_eq, decide_eq_true_eq] at hl
      rcases hl with ⟨⟨⟨⟨⟨⟨⟨⟨hevent, hcapture⟩, horder⟩, _⟩, _⟩, _⟩, _⟩, _⟩, _⟩
      refine ⟨t, lookup, now, ⟨"paypal", paypalCaptureId env data, .duplicate, none⟩, rfl, ?_, rfl⟩
      simp only [Delivery.again, handle, handlePaypalWebhook, hdata, hevent, hcapture, horder,
        not_true_eq_false, if_false, or_self]
      rw [receive_processed (by simpa [Handler.provider] using hproc)]
    | pesapal =>
      -- the provider answers the lookup again
      simp only [pesapalLosesRetry, Bool.and_eq_true] at hl
      rcases hl with ⟨htrack, _⟩
      refine ⟨t, fun _ => .dict [("status", .none)], now, ⟨"pesapal",
        (pesapalTrackingId data).toStr env.host, .duplicate, some (pesapalAck env data)⟩,
        rfl, ?_, rfl⟩
      have hstatus : (Value.dict [("status", Value.none)]).truthy = true := rfl
      have hdict : (Value.dict [("status", Value.none)]).isDict = true := rfl
      simp only [Delivery.again, handle, handlePesapalWebhook, hdata, htrack, hstatus, hdict,
        if_false, Bool.not_true, Bool.false_eq_true]
      rw [receive_processed (by simpa [Handler.provider] using hproc)]
  | _ => simp [losesRetry, hdata] at hl

/-- If the answer asks for the delivery again, then no redelivery of the payload is answered as
a duplicate, in any later store that has the same event rows. -/
def StaysRetryable (env : Env) (s : Store) (d : Delivery) (w : WebhookReply) : Prop :=
  w.asksAgain = true → ∀ u lookup now w', u.events = (handle env s d).store.events →
    (handle env u (d.again lookup now)).reply = .ok (some w') → w'.isDuplicate = false

theorem staysRetryable_of_keeps (h : (handle env s d).reply = .ok (some w))
    (hl : losesRetry env s d = false) : StaysRetryable env s d w := by
  intro hasks u lookup now w' hu hreply
  by_contra hdup
  rw [Bool.not_eq_false] at hdup
  -- the duplicate answer shows a processed row, and the row is the one the delivery left
  have hseen := seen_of_duplicate hreply hdup
  rw [seen_again, seen_congr hu] at hseen
  rw [(loses_iff h).mp ⟨hasks, hseen⟩] at hl
  cases hl

theorem not_staysRetryable_of_loses (h : (handle env s d).reply = .ok (some w))
    (hl : losesRetry env s d = true) : ¬ StaysRetryable env s d w := by
  intro hstays
  rcases (loses_iff h).mpr hl with ⟨hasks, hseen⟩
  rcases duplicate_of_losesRetry hl hseen with ⟨u, lookup, now, w', hu, hreply, hdup⟩
  rw [hstays hasks u lookup now w' hu hreply] at hdup
  cases hdup

/-- A retryable or unresolved delivery stays retryable if and only if it did not take an exit
that loses the retry. -/
theorem redelivery_iff (h : (handle env s d).reply = .ok (some w)) :
    StaysRetryable env s d w ↔ losesRetry env s d = false := by
  constructor
  · intro hstays
    by_contra hl
    rw [Bool.not_eq_false] at hl
    exact not_staysRetryable_of_loses h hl hstays
  · exact staysRetryable_of_keeps h

/-! ## Concrete deliveries -/

/-- A Pesapal notification; it names the transaction and nothing else. -/
def pesapalNotice (tracking_id reference : String) (lookup : String → Value) : Delivery where
  handler := .pesapal
  payload :=
    .dict [("OrderTrackingId", .str tracking_id), ("OrderMerchantReference", .str reference)]
  lookup := lookup
  now := 0

/-- The status Pesapal answers a lookup with. -/
def pesapalStatus (status : String) : String → Value := fun _ =>
  .dict [("payment_status_description", .str status), ("amount", .str "10.00"),
    ("currency", .str "USD")]

/-- The answer of a handler that does not raise. -/
def Handled.answer (h : Handled) : Option WebhookReply :=
  match h.reply with
  | .ok w => w
  | .error _ => none

theorem reply_of_answer {h : Handled} (hw : h.answer.isSome = true) :
    ∃ w, h.reply = .ok (some w) := by
  rcases Option.isSome_iff_exists.mp hw with ⟨w, hw⟩
  unfold Handled.answer at hw
  split at hw
  · next heq =>
    rw [hw] at heq
    exact ⟨w, heq⟩
  · cases hw

/-- A notification whose status is unavailable is not recorded and stays retryable. -/
theorem redelivery_iff_unavailable :
    ∃ w, (handle .default Store.empty (pesapalNotice "TX9" "PP-7-PRO-9" fun _ => .none)).reply =
        .ok (some w) ∧
      (StaysRetryable .default Store.empty (pesapalNotice "TX9" "PP-7-PRO-9" fun _ => .none) w ↔
        losesRetry .default Store.empty (pesapalNotice "TX9" "PP-7-PRO-9" fun _ => .none) =
          false) := by
  have hw : (handle .default Store.empty
      (pesapalNotice "TX9" "PP-7-PRO-9" fun _ => .none)).answer.isSome = true := by
    decide +kernel
  rcases reply_of_answer hw with ⟨w, hw⟩
  exact ⟨w, hw, redelivery_iff hw⟩

/-- A completed transaction without an invoice: the answer asks for the notification again, and
the notification is then a duplicate. -/
theorem unresolved_not_retryable :
    ∃ w, (handle .default twoInvoices
        (pesapalNotice "TX9" "PP-7-PRO-9" (pesapalStatus "COMPLETED"))).reply = .ok (some w) ∧
      ¬ StaysRetryable .default twoInvoices
        (pesapalNotice "TX9" "PP-7-PRO-9" (pesapalStatus "COMPLETED")) w := by
  have hw : (handle .default twoInvoices
      (pesapalNotice "TX9" "PP-7-PRO-9" (pesapalStatus "COMPLETED"))).answer.isSome = true := by
    decide +kernel
  have hl : losesRetry .default twoInvoices
      (pesapalNotice "TX9" "PP-7-PRO-9" (pesapalStatus "COMPLETED")) = true := by
    decide +kernel
  rcases reply_of_answer hw with ⟨w, hw⟩
  exact ⟨w, hw, not_staysRetryable_of_loses hw hl⟩

end AlgoBot.Billing
