import AlgoBot.Billing.Runs

/-!
# The webhook handlers

The three provider handlers share one shape: derive an event key from the
payload, get or create the event row under that key, answer a key whose row is
already processed as a duplicate, and otherwise ask the provider for the status,
reconcile it and mark the row. `receive` and `reconcileAndFinish` are that shape;
the handlers keep their own gates, exits and arguments.

Every step commits on its own, so a handler returns a store also when it raises.
What a provider answers to a status lookup is a parameter of the delivery.
-/

namespace AlgoBot.Billing

open AlgoBot.Core AlgoBot.Python

/-! ## Payloads -/

/-- A request body, or a dict that was parsed before. -/
inductive Payload where
  | bytes (raw : String)
  | dict (d : Dict)

/-- `payload if isinstance(payload, bytes) else json.dumps(payload).encode()`. -/
def Payload.raw (h : Host) : Payload → String
  | .bytes raw => raw
  | .dict d => h.dumps (.dict d)

/-- `PaymentService._parse_payload`. -/
def parsePayload (h : Host) : Payload → Value
  | .bytes raw => (h.loads (if raw = "" then "\x7b\x7d" else raw)).getD (.dict [])
  | .dict d => .dict d

/-- `_event_key`. -/
def eventKey (h : Host) (data : Dict) (raw : String) : String :=
  let value := data.firstOf ["event_id", "eventId", "event_uuid", "uuid", "id"]
  if value.truthy then take 255 (value.toStr h) else h.sha256 raw

/-- The names whose values are not stored. -/
def redactedNames : List String :=
  ["setup_url", "checkout_url", "payment_link", "authorization", "token", "access_token", "secret",
    "secret_key"]

mutual
/-- `_sanitize_provider_payload`. -/
def sanitize (h : Host) : Value → Value
  | .dict kvs => .dict (sanitizeItems h kvs)
  | .list xs => .list (sanitizeList h 100 xs)
  | .str s =>
    let lowered := h.lower s
    if contains "subscriptions/charge/" lowered || contains "authorization:" lowered then
      .str "[REDACTED]"
    else .str (take 1000 s)
  | v => v

def sanitizeItems (h : Host) : List (String × Value) → List (String × Value)
  | [] => []
  | (name, item) :: rest =>
    (name, if h.lower name ∈ redactedNames then .str "[REDACTED]" else sanitize h item) ::
      sanitizeItems h rest

/-- The first `n` items, sanitized. -/
def sanitizeList (h : Host) : ℕ → List Value → List Value
  | _, [] => []
  | 0, _ :: _ => []
  | n + 1, x :: xs => sanitize h x :: sanitizeList h n xs
end

/-! ## Event rows -/

/-- What `_record_webhook` stores of a delivery. -/
structure Receipt where
  provider : String
  event_key : String
  payload_hash : String
  external_id : String
  received_status : String
  payload : Value

/-- The arguments of `_record_webhook`. -/
def receiptOf (h : Host) (provider : String) (data : Dict) (raw : String)
    (external_id received_status : Value) : Receipt where
  provider := provider
  event_key := eventKey h data raw
  payload_hash := h.sha256 raw
  external_id := textOr h external_id ""
  received_status := take 32 (textOr h received_status "")
  payload := sanitize h (.dict data)

@[simp] theorem receiptOf_provider (h : Host) (provider : String) (data : Dict) (raw : String)
    (external_id received_status : Value) :
    (receiptOf h provider data raw external_id received_status).provider = provider := rfl

@[simp] theorem receiptOf_event_key (h : Host) (provider : String) (data : Dict) (raw : String)
    (external_id received_status : Value) :
    (receiptOf h provider data raw external_id received_status).event_key =
      eventKey h data raw := rfl

/-- The row of a first delivery. -/
def freshEvent (q : Receipt) (pk : ℕ) : PaymentWebhookEvent where
  pk := pk
  provider := q.provider
  event_key := q.event_key
  payload_hash := q.payload_hash
  external_id := q.external_id
  received_status := q.received_status
  processed_status := ""
  payload := q.payload
  processed_at := none
  attempts := 1
  last_error := ""

@[simp] theorem pk_freshEvent (q : Receipt) (k : ℕ) : HasPk.pk (freshEvent q k) = k := rfl

/-- The row under a provider and an event key. -/
def Store.eventOf (s : Store) (provider event_key : String) : Option PaymentWebhookEvent :=
  s.events.find? fun e => (e.provider, e.event_key) == (provider, event_key)

/-- There is a row under this key and it has been processed. -/
def Store.processed (s : Store) (provider event_key : String) : Bool :=
  (s.eventOf provider event_key).any fun e => e.processed_at.isSome

/-- The columns of an event row fit. -/
def Backend.eventFits (b : Backend) (e : PaymentWebhookEvent) : Bool :=
  b.textFits 255 e.event_key && b.textFits 255 e.external_id && b.textFits 32 e.received_status &&
    b.jsonFits e.payload.asDict

/-- `_finish_webhook`. -/
def finishWebhook (s : Store) (event : PaymentWebhookEvent) (now : Time) (status error : String) :
    Store :=
  { s with
    events := s.events.set
      { event with
        processed_status := take 32 status
        last_error := take 500 error
        processed_at := if error = "" then some now else none
        attempts := event.attempts + 1 } }

/-! ## Answers -/

inductive WebhookOutcome where
  | reconciled (r : Reply)
  | recurring (payments : List (Option Reply))
  | duplicate
  | retryable
  | unresolved_subscription
  | unresolved_invoice
  | ignored (event_type : String)

structure WebhookReply where
  provider : String
  external_id : String
  outcome : WebhookOutcome
  ipn_ack : Option Dict

/-- How a handler ends: its answer (`none` is a bad request) or exception, and the store. -/
structure Handled where
  reply : Except PyError (Option WebhookReply)
  store : Store

/-- Record the delivery; a processed row under its key makes it a duplicate. -/
def receive (env : Env) (s : Store) (q : Receipt) (duplicate : WebhookReply)
    (work : Store → PaymentWebhookEvent → Handled) : Handled :=
  match s.eventOf q.provider q.event_key with
  | some event => if event.processed_at.isSome then ⟨.ok (some duplicate), s⟩ else work s event
  | none =>
    let event := freshEvent q s.events.nextPk
    if env.backend.eventFits event then
      work { s with events := s.events.create _ (pk_freshEvent q) } event
    else ⟨.error .DataError, s⟩

/-- Finish the row with an error and ask for the delivery again. -/
def finishRetryable (s : Store) (event : PaymentWebhookEvent) (now : Time) (error : String)
    (reply : WebhookReply) : Handled :=
  ⟨.ok (some reply), finishWebhook s event now "" error⟩

/-- Reconcile, and finish the row with the error text the handler gives the result. -/
def reconcileAndFinish (env : Env) (s : Store) (event : PaymentWebhookEvent) (now : Time) (c : Call)
    (errorOf : Reply → String) (ack : Option Dict) : Handled :=
  match reconcile env s c with
  | .error e => ⟨.error e, s⟩
  | .ok o =>
    match o.reply with
    | none => ⟨.ok none, o.store⟩
    | some r =>
      ⟨.ok (some ⟨r.provider, r.external_id, .reconciled r, ack⟩),
        finishWebhook o.store event now r.status.text (errorOf r)⟩

/-! ## IntaSend -/

section Intasend

variable (env : Env)

/-- `Invoice.objects.filter(metadata__reference=str(ref or "")).first() if ref else None`. -/
def invoiceByReference (s : Store) (ref : Value) : Option Invoice :=
  if ref.truthy then
    s.invoices.find? fun i => (Dict.get i.metadata "reference").beq (.str (ref.toStr env.host))
  else none

/-- `verified.get("currency") or (matched_invoice.currency if matched_invoice else "USD")`. -/
def verifiedCurrency (verified : Dict) (matched : Option Invoice) : Value :=
  (verified.get "currency").or (.str ((matched.map Invoice.currency).getD "USD"))

/-- The subscription a recurring event is about, and the store with it linked. -/
def recurringSubscription (s : Store) (subscription_id : String) : Option Subscription × Store :=
  match s.subscriptions.find? fun u => u.provider_subscription_id == subscription_id with
  | some subscription => (some subscription, s)
  | none =>
    match s.invoices.find? fun i =>
      (Dict.get i.metadata "subscription_id").beq (.str subscription_id) with
    | none => (none, s)
    | some invoice =>
      -- the purchase is known but not linked to the provider's subscription yet
      match s.subscriptions.find? fun u => u.user_id == invoice.user_id with
      | none => (none, s)
      | some subscription =>
        let subscription :=
          { subscription with
            provider := "intasend"
            provider_subscription_id := take 255 subscription_id }
        (some subscription, { s with subscriptions := s.subscriptions.set subscription })

/-- The call for one item of a recurring event; `none` skips the item. -/
def recurringCall (data : Dict) (subscription_id : String) (subscription : Subscription)
    (now : Time) (item : Value) : Except PyError (Option Call) :=
  let invoice_data := (Dict.get item.asDict "invoice").asDict
  let recurring_id := invoice_data.get "invoice_id"
  -- the fallback is an attribute of the item, which is evaluated only when it is needed
  if !recurring_id.truthy && !item.isDict then .error .AttributeError
  else
    let recurring_id := recurring_id.or (Dict.get item.asDict "transaction_id")
    if !recurring_id.truthy then .ok none
    else .ok <| some
      { provider := .str "intasend"
        external_id := .str (recurring_id.toStr env.host)
        status := invoice_data.get "state"
        amount := invoice_data.firstOf ["value", "amount", "net_amount"]
        currency := invoice_data.getD "currency" (.str (orText subscription.currency "USD"))
        metadata := .dict
          [("user_id", .int subscription.user_id), ("plan", .str subscription.plan),
            ("provider", .str "intasend"), ("subscription_id", .str subscription_id),
            ("subscription_event", .bool true),
            ("provider_payload", sanitize env.host (.dict data))]
        require_existing_invoice := false
        now := now }

/-- The loop over the payments of a recurring event. -/
def reconcileEach : Store → List (Except PyError (Option Call)) →
    Except PyError (List (Option Reply)) × Store
  | s, [] => (.ok [], s)
  | s, .error e :: _ => (.error e, s)
  | s, .ok none :: rest => reconcileEach s rest
  | s, .ok (some c) :: rest =>
    match reconcile env s c with
    | .error e => (.error e, s)
    | .ok o =>
      match reconcileEach o.store rest with
      | (.ok results, t) => (.ok (o.reply :: results), t)
      | (.error e, t) => (.error e, t)

/-- The branch of `handle_intasend_webhook` for recurring events. -/
def handleRecurring (s : Store) (data : Dict) (raw : String) (payments : List Value) (now : Time) :
    Handled :=
  let subscription_id := (data.get "subscription_id").toStr env.host
  match recurringSubscription s subscription_id with
  | (none, s) => ⟨.ok (some ⟨"intasend", "", .unresolved_subscription, none⟩), s⟩
  | (some subscription, s) =>
    receive env s
      (receiptOf env.host "intasend" data raw (.str subscription_id) (data.get "status"))
      ⟨"intasend", subscription_id, .duplicate, none⟩ fun s event =>
        match reconcileEach env s
          (payments.map (recurringCall env data subscription_id subscription now)) with
        | (.error e, s) => ⟨.error e, s⟩
        | (.ok results, s) =>
          ⟨.ok (some ⟨"intasend", subscription_id, .recurring results, none⟩),
            finishWebhook s event now "RECURRING_PROCESSED" ""⟩

/-- The call for a verified collection. -/
def intasendCall (s : Store) (data : Dict) (verified : Value) (now : Time) : Call :=
  let invoice_id := data.firstOf ["invoice_id", "id"]
  let api_ref := data.firstOf ["api_ref", "reference"]
  let invoice_data := match verified with
    | .dict d => match Dict.get d "invoice" with
      | .dict i => i
      | _ => d
    | _ => []
  let matched := match invoiceByReference env s api_ref with
    | some invoice => some invoice
    | none => s.invoices.find? fun i => i.external_id == some (textOr env.host invoice_id "")
  { provider := .str "intasend"
    external_id :=
      .str (((Dict.firstOf invoice_data ["invoice_id", "id"]).or invoice_id).toStr env.host)
    status := Dict.get invoice_data "state"
    amount := Dict.firstOf invoice_data ["value", "amount", "net_amount"]
    currency := verifiedCurrency invoice_data matched
    metadata := sanitize env.host (.dict (data.merge invoice_data))
    require_existing_invoice := true
    now := now }

/-- `verified`, the status of the collection, where the payload names one. -/
def intasendVerified (data : Dict) (lookup : String → Value) : Value :=
  let invoice_id := data.firstOf ["invoice_id", "id"]
  if invoice_id.truthy then lookup (invoice_id.toStr env.host) else .none

/-- `invoice_id or api_ref`. -/
def collectionId (data : Dict) : Value :=
  (data.firstOf ["invoice_id", "id"]).or (data.firstOf ["api_ref", "reference"])

/-- The branch of `handle_intasend_webhook` for single collections. -/
def handleCollection (s : Store) (data : Dict) (raw : String) (lookup : String → Value)
    (now : Time) : Handled :=
  let external_id := collectionId data
  if !external_id.truthy then ⟨.ok none, s⟩
  else
    let reply := fun outcome => WebhookReply.mk "intasend" (external_id.toStr env.host) outcome none
    receive env s (receiptOf env.host "intasend" data raw external_id (data.get "state"))
      (reply .duplicate) fun s event =>
        let verified := intasendVerified env data lookup
        if !verified.truthy then
          finishRetryable s event now "provider_status_unavailable" (reply .retryable)
        else
          reconcileAndFinish env s event now (intasendCall env s data verified now)
            (fun _ => "") none

/-- The challenge of the payload is the configured one. -/
def challengeOk (data : Dict) : Bool :=
  (data.getD "challenge" (.str "")).toStr env.host == env.settings.INTASEND_WEBHOOK_CHALLENGE

/-- The list of payments, for a recurring event. -/
def recurringPayments (data : Dict) : Option (List Value) :=
  match data.get "payments" with
  | .list payments => if (data.get "subscription_id").truthy then some payments else none
  | _ => none

def handleIntasendWebhook (s : Store) (payload : Payload) (lookup : String → Value) (now : Time) :
    Handled :=
  if env.settings.INTASEND_WEBHOOK_CHALLENGE = "" then ⟨.ok none, s⟩
  else
    match parsePayload env.host payload with
    | .dict data =>
      if !challengeOk env data then ⟨.ok none, s⟩
      else
        match recurringPayments data with
        | some payments => handleRecurring env s data (payload.raw env.host) payments now
        | none => handleCollection env s data (payload.raw env.host) lookup now
    | _ => ⟨.error .AttributeError, s⟩

end Intasend

/-! ## PayPal -/

section Paypal

variable (env : Env)

/-- The capture events the handler reconciles. -/
def paypalEvents : List String :=
  ["PAYMENT.CAPTURE.COMPLETED", "PAYMENT.CAPTURE.PENDING", "PAYMENT.CAPTURE.DENIED"]

def paypalEventType (data : Dict) : String :=
  upper env.host (textOr env.host (data.get "event_type") "")

def paypalResource (data : Dict) : Dict := (data.get "resource").asDict

def paypalCaptureId (data : Dict) : String :=
  strip (textOr env.host ((paypalResource data).get "id") "")

def paypalOrderId (data : Dict) : String :=
  let related :=
    (Dict.get ((paypalResource data).get "supplementary_data").asDict "related_ids").asDict
  strip (textOr env.host (related.get "order_id") "")

/-- The reference PayPal keeps with the order. -/
def paypalReference (order : Dict) : String :=
  let unit := match order.get "purchase_units" with
    | .list (.dict u :: _) => u
    | _ => []
  strip (textOr env.host (Dict.firstOf unit ["custom_id", "invoice_id"]) "")

def paypalStatus (data : Dict) : String :=
  let event_type := paypalEventType env data
  if event_type = "PAYMENT.CAPTURE.COMPLETED" ∧
      upper env.host (((paypalResource data).getD "status" (.str "")).toStr env.host) =
        "COMPLETED" then
    "COMPLETED"
  else if event_type = "PAYMENT.CAPTURE.DENIED" then "FAILED"
  else "PENDING"

def paypalInvoice (s : Store) (reference : String) : Option Invoice :=
  if reference = "" then none
  else s.invoices.find? fun i =>
    (Dict.get i.metadata "reference").beq (.str reference) &&
      (Dict.get i.metadata "provider").beq (.str "paypal")

def paypalCall (data : Dict) (reference : String) (invoice : Invoice) (now : Time) : Call :=
  let amount := ((paypalResource data).get "amount").asDict
  { provider := .str "paypal"
    external_id := .str (paypalCaptureId env data)
    status := .str (paypalStatus env data)
    amount := amount.get "value"
    currency := amount.getD "currency_code" (.str invoice.currency)
    metadata := .dict
      [("reference", .str reference), ("user_id", .int invoice.user_id),
        ("plan", Dict.get invoice.metadata "plan"), ("order_id", .str (paypalOrderId env data))]
    require_existing_invoice := true
    now := now }

/-- The work of `handle_paypal_webhook` once the delivery is recorded. -/
def paypalWork (data : Dict) (lookup : String → Value) (now : Time) (s : Store)
    (event : PaymentWebhookEvent) : Handled :=
  let capture_id := paypalCaptureId env data
  let order := lookup (paypalOrderId env data)
  if !order.truthy then
    finishRetryable s event now "paypal_order_lookup_unavailable"
      ⟨"paypal", capture_id, .retryable, none⟩
  else if !order.isDict then ⟨.error .AttributeError, s⟩
  else
    let reference := paypalReference env order.asDict
    let amount := ((paypalResource data).get "amount").asDict
    if !(amount.get "value").truthy || !(amount.get "currency_code").truthy then
      finishRetryable s event now "paypal_capture_amount_missing"
        ⟨"paypal", capture_id, .retryable, none⟩
    else
      match paypalInvoice s reference with
      | none =>
        finishRetryable s event now "matching_invoice_not_found"
          ⟨"paypal", "", .unresolved_invoice, none⟩
      | some invoice =>
        -- the only handler that finishes a retryable result with an error
        reconcileAndFinish env s event now (paypalCall env data reference invoice now)
          (fun r => if r.retryable then "invoice_reconciliation_retryable" else "") none

def handlePaypalWebhook (s : Store) (payload : Payload) (lookup : String → Value) (now : Time) :
    Handled :=
  match parsePayload env.host payload with
  | .dict data =>
    let event_type := paypalEventType env data
    let capture_id := paypalCaptureId env data
    if event_type ∉ paypalEvents then
      ⟨.ok (some ⟨"paypal", "", .ignored event_type, none⟩), s⟩
    else if capture_id = "" ∨ paypalOrderId env data = "" then ⟨.ok none, s⟩
    else
      receive env s
        (receiptOf env.host "paypal" data (payload.raw env.host) (.str capture_id)
          (.str event_type))
        ⟨"paypal", capture_id, .duplicate, none⟩ (paypalWork env data lookup now)
  | _ => ⟨.error .AttributeError, s⟩

end Paypal

/-! ## Pesapal -/

section Pesapal

variable (env : Env)

def pesapalTrackingId (data : Dict) : Value :=
  data.firstOf ["OrderTrackingId", "orderTrackingId", "order_tracking_id"]

def pesapalReference (data : Dict) : Value :=
  (data.firstOf ["OrderMerchantReference", "orderMerchantReference", "merchant_reference"]).or
    (.str "")

def pesapalAck (data : Dict) : Dict :=
  [("orderNotificationType",
      (data.firstOf ["OrderNotificationType", "orderNotificationType"]).or (.str "IPNCHANGE")),
    ("orderTrackingId", .str ((pesapalTrackingId data).toStr env.host)),
    ("orderMerchantReference", pesapalReference data), ("status", .int 200)]

def pesapalCall (s : Store) (data : Dict) (verified : Dict) (now : Time) : Call :=
  let merchant_reference := pesapalReference data
  { provider := .str "pesapal"
    external_id := .str ((pesapalTrackingId data).toStr env.host)
    status := verified.get "payment_status_description"
    amount := verified.get "amount"
    currency := verifiedCurrency verified (invoiceByReference env s merchant_reference)
    metadata := .dict [("merchant_reference", merchant_reference), ("pesapal", .dict verified)]
    require_existing_invoice := true
    now := now }

def handlePesapalWebhook (s : Store) (payload : Payload) (lookup : String → Value) (now : Time) :
    Handled :=
  match parsePayload env.host payload with
  | .dict data =>
    let tracking_id := pesapalTrackingId data
    if !tracking_id.truthy then ⟨.ok none, s⟩
    else
      let external_id := tracking_id.toStr env.host
      let verified := lookup external_id
      -- this exit leaves no event row, unlike those of the other handlers
      if !verified.truthy then ⟨.ok (some ⟨"pesapal", external_id, .retryable, none⟩), s⟩
      else if !verified.isDict then ⟨.error .AttributeError, s⟩
      else
        let ack := some (pesapalAck env data)
        receive env s
          (receiptOf env.host "pesapal" data (payload.raw env.host) tracking_id
            (verified.asDict.get "payment_status_description"))
          ⟨"pesapal", external_id, .duplicate, ack⟩ fun s event =>
            reconcileAndFinish env s event now (pesapalCall env s data verified.asDict now)
              (fun _ => "") ack
  | _ => ⟨.error .AttributeError, s⟩

end Pesapal

/-! ## Deliveries -/

/-- The three webhook endpoints. -/
inductive Handler where
  | intasend
  | paypal
  | pesapal
deriving DecidableEq, Repr

/-- One delivery, with what the provider answers to lookups while it is handled. -/
structure Delivery where
  handler : Handler
  payload : Payload
  lookup : String → Value
  now : Time

def handle (env : Env) (s : Store) (d : Delivery) : Handled :=
  match d.handler with
  | .intasend => handleIntasendWebhook env s d.payload d.lookup d.now
  | .paypal => handlePaypalWebhook env s d.payload d.lookup d.now
  | .pesapal => handlePesapalWebhook env s d.payload d.lookup d.now

end AlgoBot.Billing
