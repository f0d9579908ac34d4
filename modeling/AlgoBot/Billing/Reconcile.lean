import AlgoBot.Billing.Status

/-!
# `PaymentReconciler.reconcile`

One call reads a provider report, resolves the user, and then works in a single
transaction with the rows it needs locked: it finds or creates the invoice,
checks owner, amount and currency, merges the status into the payment row and,
on completion, marks the invoice paid and activates the subscription.

The transaction is all or nothing, so a call is a function from the store to an
error (the store as it was) or an `Outcome`. The function is cut where the
source has its early returns.
-/

namespace AlgoBot.Billing

open AlgoBot.Core AlgoBot.Python

/-! ## Reading a report -/

/-- The arguments of a call, and the time it is made. -/
structure Call where
  provider : Value
  external_id : Value
  status : Value
  amount : Value
  currency : Value
  metadata : Value
  require_existing_invoice : Bool
  now : Time

/-- `_reference_parts`: user id and plan of a reference such as `PP-7-PRO-...`. -/
def referenceParts (h : Host) (reference : Value) : Option ℤ × String :=
  match split '-' (textOr h reference "") with
  | kind :: user :: plan :: _ =>
    if kind ∈ ["IS", "PP", "PY"] then
      match intOfText h user with
      | some user_id => (some user_id, upper h plan)
      | none => (none, "")
    else (none, "")
  | _ => (none, "")

/-- An optional integer as a Python value. -/
def ofInt? : Option ℤ → Value
  | some n => .int n
  | none => .none

/-- `a or b` on strings. -/
def orText (a b : String) : String := if a = "" then b else a

/-- `int(user_id) if user_id else None`; only an infinite float is an error. -/
def userIdOf (h : Host) (user_id : Value) : Except PyError (Option ℤ) :=
  if user_id.truthy then
    match user_id.toInt h with
    | .ok n => .ok (some n)
    | .error .OverflowError => .error .OverflowError
    | .error _ => .ok none
  else .ok none

/-- The body of `_resolve_user_and_plan`, given what the nested `metadata` resolved to. -/
def resolveFrom (h : Host) (metadata : Dict) (nested : Option (Option ℤ × String)) :
    Except PyError (Option ℤ × String) := do
  let plan := upper h (textOr h (metadata.firstOf ["plan", "plan_key"]) "")
  let user_id := metadata.firstOf ["user_id", "userId"]
  let (user_id, plan) := match nested with
    | some (nested_user, nested_plan) => (user_id.or (ofInt? nested_user), orText plan nested_plan)
    | none => (user_id, plan)
  let reference :=
    metadata.firstOf ["api_ref", "reference", "merchant_reference", "OrderMerchantReference"]
  let (ref_user, ref_plan) := referenceParts h reference
  let user_id ← userIdOf h (user_id.or (ofInt? ref_user))
  return (user_id, orText plan ref_plan)

mutual
/-- `_resolve_user_and_plan`; `reconcile` never passes it an invoice. -/
def resolveUserAndPlan (h : Host) : Value → Except PyError (Option ℤ × String)
  | .dict kvs => do
    let nested ← resolveNested h kvs
    resolveFrom h kvs nested
  | _ => resolveFrom h [] none

/-- The recursive call on the first `metadata` entry, if that is a `dict`. -/
def resolveNested (h : Host) : List (String × Value) → Except PyError (Option (Option ℤ × String))
  | [] => .ok none
  | (key, v) :: kvs =>
    if key = "metadata" then
      if v.isDict then do
        let r ← resolveUserAndPlan h v
        return some r
      else .ok none
    else resolveNested h kvs
end

/-- `get_user_model().objects.filter(pk=user_id).first() if user_id else None`. -/
def findUser (s : Store) (user_id : Option ℤ) : Option User :=
  match user_id with
  | some n => if 0 < n then s.users.get? n.toNat else none
  | none => none

/-! ## Replies -/

/-- Why a report was rejected. -/
inductive Rejection where
  | invoice_owner_mismatch
  | negative_amount
  | amount_mismatch (expected_amount_cents : ℕ) (received_amount_cents : ℤ)
  | currency_mismatch (expected_currency received_currency : String)
  | payment_owner_mismatch
deriving DecidableEq, Repr

/-- What a reply says happened. -/
inductive Result where
  | unresolved_user
  | unresolved_invoice
  | rejected (why : Rejection)
  | recorded (payment_id : ℕ)
deriving DecidableEq, Repr

structure Reply where
  provider : String
  status : PaymentStatus
  external_id : String
  result : Result
deriving DecidableEq, Repr

/-- `result.get("retryable")`. -/
def Reply.retryable (r : Reply) : Bool := r.result == .unresolved_invoice

/-- The outcome of a call: its return value, the store, and the invoice that
`_activate_subscription_and_referral` was executed for. -/
structure Outcome where
  reply : Option Reply
  store : Store
  activated : Option ℕ

/-! ## The transaction -/

/-- What a call has in hand when it enters the transaction. -/
structure Report where
  provider : String
  external_id : String
  user : User
  plan_key : String
  status : PaymentStatus
  amount_minor : ℤ
  currency : String
  metadata : Dict
  require_existing_invoice : Bool
  now : Time

/-- `metadata.get("api_ref") or metadata.get("reference") or metadata.get("merchant_reference")`. -/
def Report.reference (r : Report) : Value :=
  Dict.firstOf r.metadata ["api_ref", "reference", "merchant_reference"]

/-- The invoice the report is about: by external id, else by reference. -/
def lookupInvoice (s : Store) (r : Report) : Option Invoice :=
  match s.invoices.find? fun i => i.external_id == some r.external_id with
  | some invoice => some invoice
  | none =>
    if r.reference.truthy then
      s.invoices.find? fun i =>
        (Dict.get i.metadata "reference").beq r.reference && i.user_id == r.user.pk
    else none

/-- The invoice a report without one creates. -/
def freshInvoice (r : Report) (pk : ℕ) : Invoice where
  pk := pk
  user_id := r.user.pk
  external_id := some r.external_id
  amount_cents := r.amount_minor.toNat
  currency := r.currency
  paid := false
  metadata :=
    [("provider", .str r.provider), ("payment", .dict r.metadata), ("plan", .str r.plan_key)]

@[simp] theorem pk_freshInvoice (r : Report) (k : ℕ) : HasPk.pk (freshInvoice r k) = k := rfl

/-- The columns of an invoice row fit. -/
def Backend.invoiceFits (b : Backend) (i : Invoice) : Bool :=
  i.external_id.all (b.textFits 255) && b.intFits i.amount_cents && b.textFits 10 i.currency &&
    b.jsonFits i.metadata

/-- The columns of a payment row fit. -/
def Backend.paymentFits (b : Backend) (p : Payment) : Bool :=
  p.external_id.all (b.textFits 255) && b.intFits p.amount_cents && b.textFits 10 p.currency

/-- The columns of a subscription row fit. -/
def Backend.subscriptionFits (b : Backend) (u : Subscription) : Bool :=
  b.textFits 20 u.plan && b.intFits u.price_cents && b.textFits 10 u.currency &&
    b.textFits 32 u.provider && b.textFits 255 u.provider_subscription_id

/-- `expected_amount` and the currencies against the report; the first check that fails. -/
def check (h : Host) (r : Report) (invoice : Invoice) : Option Rejection :=
  let expected_amount := invoice.amount_cents
  let expected_currency := upper h (orText invoice.currency "USD")
  let received_currency := upper h (orText r.currency "USD")
  if r.amount_minor < 0 then some .negative_amount
  else if r.amount_minor ≠ 0 ∧ expected_amount ≠ 0 ∧ r.amount_minor ≠ expected_amount then
    some (.amount_mismatch expected_amount r.amount_minor)
  else if expected_currency ≠ "" ∧ received_currency ≠ "" ∧
      expected_currency ≠ received_currency then
    some (.currency_mismatch expected_currency received_currency)
  else none

/-- The invoice in memory after the report has been copied into it. -/
def amend (r : Report) (invoice : Invoice) : Invoice :=
  -- an invoice found by reference keeps the external id it has
  let external_id :=
    match invoice.external_id with
    | some e => if e = "" then some r.external_id else some e
    | none => some r.external_id
  let metadata :=
    if r.plan_key ≠ "" ∧ !(invoice.metadata.get "plan").truthy then
      invoice.metadata.insert "plan" (.str r.plan_key)
    else invoice.metadata
  { invoice with
    external_id := external_id
    metadata := (metadata.insert "provider" (.str r.provider)).insert "payment" (.dict r.metadata)
    amount_cents := if r.amount_minor ≠ 0 then r.amount_minor.toNat else invoice.amount_cents
    currency := r.currency }

/-- `amount_minor or dflt`. -/
def Report.amountOr (r : Report) (dflt : ℕ) : ℕ :=
  if r.amount_minor ≠ 0 then r.amount_minor.toNat else dflt

/-- The payment a report without one creates. -/
def freshPayment (r : Report) (invoice : Invoice) (pk : ℕ) : Payment where
  pk := pk
  user_id := r.user.pk
  invoice := some invoice.pk
  external_id := some r.external_id
  amount_cents := r.amountOr invoice.amount_cents
  currency := r.currency
  status := .pending

@[simp] theorem pk_freshPayment (r : Report) (invoice : Invoice) (k : ℕ) :
    HasPk.pk (freshPayment r invoice k) = k := rfl

/-- The payment with the report written into it. -/
def paymentWith (r : Report) (invoice : Invoice) (status : PaymentStatus) (payment : Payment) :
    Payment :=
  { payment with
    invoice := some invoice.pk
    amount_cents := r.amountOr payment.amount_cents
    currency := r.currency
    status := status }

/-! ## Activation -/

/-- A subscription with the defaults of its columns, `get_or_create(user=user)`. -/
def freshSubscription (user : User) (now : Time) (pk : ℕ) : Subscription where
  pk := pk
  user_id := user.pk
  plan := "FREE"
  price_cents := 0
  currency := "USD"
  recurring := false
  provider := ""
  provider_subscription_id := ""
  renewed_at := now
  expires_at := none
  is_active := true

@[simp] theorem pk_freshSubscription (user : User) (now : Time) (k : ℕ) :
    HasPk.pk (freshSubscription user now k) = k := rfl

/-- The subscription row after activation for the invoice. -/
def subscriptionWith (env : Env) (invoice : Invoice) (plan_key : String) (now : Time)
    (subscription : Subscription) : Subscription :=
  let plan := if plan_key ∈ planChoices then plan_key else ""
  let provider := env.host.lower (textOr env.host (invoice.metadata.get "provider") "")
  let provider_subscription_id :=
    strip (textOr env.host (invoice.metadata.get "subscription_id") "")
  { subscription with
    plan := if plan ≠ "" then plan else subscription.plan
    price_cents := invoice.amount_cents
    currency := upper env.host (orText invoice.currency "USD")
    provider := provider
    provider_subscription_id := provider_subscription_id
    recurring := plan ≠ "FREE" ∧ provider = "intasend" ∧ provider_subscription_id ≠ ""
    is_active := true
    renewed_at := now
    expires_at :=
      if plan ≠ "" ∧ plan ≠ "FREE" then
        some (now + day * env.settings.ALGOBOT_SUBSCRIPTION_PERIOD_DAYS)
      else none }

/-- The referral part of the activation: one reward for each pair of referrer and referee. -/
def rewardReferrer (env : Env) (s : Store) (user : User) (invoice : Invoice) : Store :=
  match user.trading_profile with
  | none => s
  | some profile =>
    match profile.referred_by with
    | none => s
    | some referrer =>
      let reward_amount : ℚ :=
        if env.settings.REFERRAL_CREDIT_AMOUNT ≤ 0 then (invoice.amount_cents / 100) * (5 / 100)
        else env.settings.REFERRAL_CREDIT_AMOUNT
      match s.rewards.find? fun w => w.referrer == referrer && w.referee == user.pk with
      -- `get_or_create` found the reward: no second credit
      | some _ => s
      | none =>
        let profile := { profile with referral_credits := profile.referral_credits + reward_amount }
        { s with
          rewards :=
            s.rewards.create (fun pk => ⟨pk, referrer, user.pk, reward_amount⟩) fun _ => rfl
          users := s.users.set { user with trading_profile := some profile } }

/-- `_activate_subscription_and_referral`. -/
def activateSubscriptionAndReferral (env : Env) (s : Store) (user : User) (invoice : Invoice)
    (plan_key : String) (now : Time) : Except PyError Store :=
  let subscriptions :=
    match s.subscriptions.find? fun u => u.user_id == user.pk with
    | some _ => s.subscriptions
    | none => s.subscriptions.create (freshSubscription user now) (pk_freshSubscription user now)
  match subscriptions.find? fun u => u.user_id == user.pk with
  | none => .ok s
  | some subscription =>
    let subscription := subscriptionWith env invoice plan_key now subscription
    if env.backend.subscriptionFits subscription then
      .ok (rewardReferrer env { s with subscriptions := subscriptions.set subscription }
        user invoice)
    else .error .DataError

/-! ## The call -/

section Reconcile

variable (env : Env)

/-- A reply to the report, with the store as given. -/
def answer (s : Store) (r : Report) (status : PaymentStatus) (result : Result) : Outcome where
  reply := some ⟨r.provider, status, r.external_id, result⟩
  store := s
  activated := none

/-- Save payment and invoice, and activate the subscription on the first completion. -/
def record (s : Store) (r : Report) (invoice : Invoice) (payment : Payment)
    (status : PaymentStatus) (was_completed : Bool) : Except PyError Outcome :=
  let payment := paymentWith r invoice status payment
  -- `paid` is among the saved columns only on completion; otherwise the row is unchanged there
  let invoice := { invoice with paid := invoice.paid || status == .completed }
  if !env.backend.paymentFits payment || !env.backend.invoiceFits invoice then .error .DataError
  else
    let s := { s with
      payments := s.payments.set payment
      invoices := s.invoices.set invoice }
    let reply := some ⟨r.provider, status, r.external_id, .recorded payment.pk⟩
    if status = .completed ∧ was_completed = false then
      match activateSubscriptionAndReferral env s r.user invoice r.plan_key r.now with
      | .ok s => .ok ⟨reply, s, some invoice.pk⟩
      | .error e => .error e
    else .ok ⟨reply, s, none⟩

/-- From the invoice on: check it, find or create the payment, merge the status. -/
def settle (s : Store) (r : Report) (invoice : Invoice) : Except PyError Outcome :=
  match check env.host r invoice with
  | some why => .ok (answer s r r.status (.rejected why))
  | none =>
    let invoice := amend r invoice
    match s.paymentOf r.external_id with
    | none =>
      let payment := freshPayment r invoice s.payments.nextPk
      if env.backend.paymentFits payment then
        record env { s with payments := s.payments.create _ (pk_freshPayment r invoice) } r
          invoice payment r.status false
      else .error .DataError
    | some payment =>
      -- the status is merged first, so the rejection of another user's payment reports the merge
      let was_completed := payment.status == .completed || invoice.paid
      let status := merge payment.status r.status
      if payment.user_id ≠ r.user.pk then
        .ok (answer s r status (.rejected .payment_owner_mismatch))
      else record env s r invoice payment status was_completed

/-- The body of `with transaction.atomic()`. -/
def transaction (s : Store) (r : Report) : Except PyError Outcome :=
  match lookupInvoice s r with
  | none =>
    if r.require_existing_invoice then .ok (answer s r r.status .unresolved_invoice)
    else
      let invoice := freshInvoice r s.invoices.nextPk
      -- the check constraint `core_invoice_amount_nonnegative`
      if r.amount_minor < 0 then .error .IntegrityError
      else if env.backend.invoiceFits invoice then
        settle env { s with invoices := s.invoices.create _ (pk_freshInvoice r) } r invoice
      else .error .DataError
  | some invoice =>
    if invoice.user_id ≠ r.user.pk then
      .ok (answer s r r.status (.rejected .invoice_owner_mismatch))
    else settle env s r invoice

/-- How far a call gets before the transaction. -/
inductive Entry where
  | no_external_id
  | unresolved_user (provider : String) (status : PaymentStatus) (external_id : String)
  | report (r : Report)

/-- The part of `reconcile` before the transaction. -/
def enter (s : Store) (c : Call) : Except PyError Entry :=
  let metadata := c.metadata.asDict
  let provider := env.host.lower (strip (textOr env.host c.provider ""))
  let external_id := strip (textOr env.host c.external_id "")
  if external_id = "" then .ok .no_external_id
  else do
    let (user_id, plan_key) ← resolveUserAndPlan env.host (.dict metadata)
    let status := normalizeStatus env.host c.status
    match findUser s user_id with
    | none => return .unresolved_user provider status external_id
    | some user =>
      let amount_minor ← minorUnits env.host c.amount
      return .report
        { provider := provider
          external_id := external_id
          user := user
          plan_key := plan_key
          status := status
          amount_minor := amount_minor
          currency := upper env.host (textOr env.host c.currency "USD")
          metadata := metadata
          require_existing_invoice := c.require_existing_invoice
          now := c.now }

def reconcile (s : Store) (c : Call) : Except PyError Outcome := do
  match ← enter env s c with
  | .no_external_id => return ⟨none, s, none⟩
  | .unresolved_user provider status external_id =>
    return ⟨some ⟨provider, status, external_id, .unresolved_user⟩, s, none⟩
  | .report r => transaction env s r

end Reconcile

end AlgoBot.Billing
