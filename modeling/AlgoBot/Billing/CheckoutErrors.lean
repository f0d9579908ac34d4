import AlgoBot.Billing.Checkout

/-!
# Exceptions while a checkout is created

The end of `_checkout`, from `create_checkout_session` on, with the handler of its
exceptions. The handler logs the exception before it writes the failure, and the
name it logs by is looked up in the module, where nothing binds it.

* `recorded_iff`: a failure is answered and recorded exactly if the exception is an
  `Exception` and the module binds `logger`.
* `never_recorded`: the module of `_checkout` does not.
* `left_attempting`: a claim is left as it was taken.
-/

namespace AlgoBot.Billing

open AlgoBot.Core

/-- What `create_checkout_session` raises: its class, and whether that derives from `Exception`. -/
structure Thrown where
  type_name : String
  is_exception : Bool

/-- How a call of `_checkout` ends. -/
inductive CheckoutEnd where
  /-- `return checkout_url, None`. -/
  | started
  /-- `return None, error`. -/
  | failed (error : String)
  | raises (type_name : String)
deriving DecidableEq, Repr

/-- The names `views_billing` binds, by its imports and definitions. -/
def viewsBillingNames : List String :=
  ["dataclass", "datetime", "timedelta", "urlparse", "reverse", "settings", "messages",
    "get_user_model", "login_required", "IntegrityError", "transaction", "HttpResponseRedirect",
    "redirect", "render", "timezone", "status", "api_view", "permission_classes",
    "IsAuthenticated", "Response", "Invoice", "Payment", "Subscription", "PaymentReconciler",
    "PaymentService", "CheckoutPlan", "RequestBoundPaymentService", "_safe_price", "_plans",
    "_plan", "_subscription_snapshot", "_provider_state", "_reconcile_invoice",
    "_find_callback_invoice", "billing_success_page", "billing_cancel_page", "_checkout",
    "billing_checkout_start", "billing_plans", "billing_status", "billing_checkout",
    "billing_change_plan", "billing_reconcile", "billing_cancel"]

/-- What the browser is told of every failure. -/
def couldNotStart : String :=
  "Payment provider could not start checkout. No subscription was activated. Please try again."

/-- The end of `_checkout` in a module that binds these names: the row it leaves and what it
returns. The copy is the invoice as claimed. -/
def finishCheckout (names : List String) (copy : CheckoutInvoice)
    (created : Except Thrown (Option (Option ℕ))) (saving : Saving) (row : CheckoutInvoice) :
    CheckoutInvoice × CheckoutEnd :=
  match created with
  | .error e =>
    -- `except Exception` lets the others through
    if e.is_exception = false then (row, .raises e.type_name)
    -- `logger.exception(...)` comes before the failure is written
    else if !names.contains "logger" then (row, .raises "NameError")
    else (recordedRow copy none saving row, .failed couldNotStart)
  | .ok none => (recordedRow copy none saving row, .failed couldNotStart)
  | .ok (some named) =>
    (recordedRow copy (some named) saving row,
      if saving.unique then .started else .failed couldNotStart)

/-- The caller gets an error and the checkout can be tried again. -/
def FailureKept (ended : CheckoutInvoice × CheckoutEnd) : Prop :=
  (∃ error, ended.2 = .failed error) ∧ ended.1.state = some .checkout_failed

variable {names : List String} {copy row : CheckoutInvoice} {e : Thrown} {saving : Saving}

theorem recorded_iff :
    FailureKept (finishCheckout names copy (.error e) saving row) ↔
      e.is_exception = true ∧ names.contains "logger" = true := by
  unfold finishCheckout
  dsimp only
  split
  · next hother =>
    constructor
    · rintro ⟨⟨error, herror⟩, _⟩
      cases herror
    · rintro ⟨hexception, _⟩
      rw [hother] at hexception
      cases hexception
  · next hexception =>
    rw [Bool.not_eq_false] at hexception
    split
    · next hunbound =>
      constructor
      · rintro ⟨⟨error, herror⟩, _⟩
        cases herror
      · rintro ⟨_, hbound⟩
        rw [hbound] at hunbound
        cases hunbound
    · next hbound =>
      refine iff_of_true ⟨⟨couldNotStart, rfl⟩, rfl⟩ ⟨hexception, ?_⟩
      simpa using hbound

theorem never_recorded (copy row : CheckoutInvoice) (e : Thrown) (saving : Saving) :
    ¬ FailureKept (finishCheckout viewsBillingNames copy (.error e) saving row) := by
  intro h
  have hlogger : viewsBillingNames.contains "logger" = true := (recorded_iff.mp h).2
  exact absurd hlogger (by decide)

/-- A `TimeoutError` of the provider. -/
theorem timeout_unrecorded :
    ¬ ∀ (copy row : CheckoutInvoice) (e : Thrown) (saving : Saving),
      FailureKept (finishCheckout viewsBillingNames copy (.error e) saving row) := by
  intro hall
  let row := claimed 0 "IS-7-PRO-1" (openedInvoice ⟨1000, "USD"⟩ 1)
  obtain ⟨⟨error, herror⟩, _⟩ := hall row row ⟨"TimeoutError", true⟩ ⟨true, true⟩
  have hraises : (finishCheckout viewsBillingNames row (.error ⟨"TimeoutError", true⟩) ⟨true, true⟩
      row).2 = .raises "NameError" := by decide
  rw [hraises] at herror
  cases herror

/-! ## In the machine -/

/-- An exception leaves the row to the next request as it is. -/
theorem row_of_error :
    (finishCheckout viewsBillingNames copy (.error e) saving row).1 = row := by
  have hunbound : viewsBillingNames.contains "logger" = false := by decide
  unfold finishCheckout
  dsimp only
  split
  · rfl
  · rw [hunbound]
    rfl

/-- The step of a request whose call raises writes what the end of `_checkout` does. -/
theorem create_raised {price : Price} {n : ℕ} {s : Site n} {i : Fin n} {invoice : CheckoutInvoice}
    {lease : Time} {opened : Bool} (hrequest : s.requests i = .creating invoice lease)
    (hrow : s.invoices.get? invoice.pk = some row) (e : Thrown) (saving : Saving) :
    ∃ s', checkoutStep price s (.create i (.raised opened)) = some s' ∧
      s'.invoices.get? invoice.pk =
        some (finishCheckout viewsBillingNames invoice (.error e) saving row).1 := by
  rw [row_of_error]
  refine ⟨_, by rw [checkoutStep, hrequest], ?_⟩
  exact hrow

/-- What the first transaction has claimed is left attempting. -/
theorem left_attempting (now : Time) (fresh : String) (invoice : CheckoutInvoice) :
    (finishCheckout viewsBillingNames (claimed now fresh invoice) (.error e) saving
      (claimed now fresh invoice)).1.state = some .checkout_attempting := by
  rw [row_of_error]
  rfl

end AlgoBot.Billing
