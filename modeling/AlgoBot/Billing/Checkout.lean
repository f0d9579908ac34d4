import Mathlib.Logic.Function.Basic
import Mathlib.Data.Fintype.Basic
import AlgoBot.Core.Machine
import AlgoBot.Core.Table
import AlgoBot.Billing.Models

/-!
# Starting a checkout

`_checkout` for one user, plan and provider, as `n` requests that interleave. A
request claims an invoice in a transaction on the user row, or finds an open
checkout, reads it, asks the provider about it and claims it in a second
transaction. It then has the provider open a session and records the result.
Between these steps it only holds the copy of the invoice it has read.

The provider's part is in the actions: what it answers about a session, whether
it opens one, and whether the result names the session that was opened.
-/

namespace AlgoBot.Billing

open AlgoBot.Core

/-! ## Rows -/

/-- `metadata["state"]`. -/
inductive CheckoutState where
  | checkout_attempting
  | checkout_open
  | checkout_failed
deriving DecidableEq, Repr

/-- The columns and metadata keys of an invoice that `_checkout` reads or writes. `session` is the
provider session that the recorded identifiers name; an unreadable lock is no lock. -/
structure CheckoutInvoice where
  pk : ℕ
  amount_cents : ℕ
  currency : String
  paid : Bool
  state : Option CheckoutState
  checkout_lock_until : Option Time
  reference : String
  attempt_count : ℕ
  session : Option ℕ
deriving DecidableEq

instance : HasPk CheckoutInvoice := ⟨CheckoutInvoice.pk⟩

@[simp] theorem pk_checkoutInvoice (i : CheckoutInvoice) : HasPk.pk i = i.pk := rfl

/-- `lease_seconds`. -/
def lease_seconds : Time := 120

/-- What the plan costs, in the currency of every checkout. -/
structure Price where
  amount_cents : ℕ
  currency : String

/-- `state == "checkout_attempting"` under a lock that has not expired. -/
def CheckoutInvoice.locked (invoice : CheckoutInvoice) (now : Time) : Bool :=
  invoice.state == some .checkout_attempting && invoice.checkout_lock_until.any (now < ·)

/-- `metadata.get("reference") or PaymentService._reference(...)`. -/
def CheckoutInvoice.referenceOr (invoice : CheckoutInvoice) (fresh : String) : String :=
  if invoice.reference = "" then fresh else invoice.reference

/-! ## The transactions -/

section Transactions

variable (price : Price) (now : Time) (fresh : String)

/-- `Invoice.objects.create(...)`. -/
def openedInvoice (pk : ℕ) : CheckoutInvoice where
  pk := pk
  amount_cents := price.amount_cents
  currency := price.currency
  paid := false
  state := none
  checkout_lock_until := none
  reference := ""
  attempt_count := 0
  session := none

@[simp] theorem pk_openedInvoice (k : ℕ) : HasPk.pk (openedInvoice price k) = k := rfl

/-- The newest unpaid invoice at this price, else the newest unpaid one with an open checkout. -/
def existingInvoice (invoices : Table CheckoutInvoice) : Option CheckoutInvoice :=
  (invoices.find? fun i =>
    !i.paid && i.amount_cents == price.amount_cents && i.currency == price.currency).or
    (invoices.find? fun i => !i.paid && i.state == some .checkout_open)

/-- The invoice as the first transaction claims it. -/
def claimed (invoice : CheckoutInvoice) : CheckoutInvoice :=
  { invoice with
    state := some .checkout_attempting
    reference := invoice.referenceOr fresh
    attempt_count := invoice.attempt_count + 1
    checkout_lock_until := some (now + lease_seconds) }

/-- The invoice as the second transaction claims it. Only an open checkout changes its state. -/
def reclaimed (invoice : CheckoutInvoice) : CheckoutInvoice :=
  { invoice with
    amount_cents := price.amount_cents
    currency := price.currency
    state :=
      if invoice.state = some .checkout_open then some .checkout_attempting else invoice.state
    reference := invoice.referenceOr fresh
    attempt_count := invoice.attempt_count + 1
    checkout_lock_until := some (now + lease_seconds) }

/-- How a transaction ends: the request returns, goes on to check the open checkout, or holds a
claim on the invoice. -/
inductive Entered where
  | returns
  | found (pk : ℕ)
  | claims (invoice : CheckoutInvoice)

/-- The first transaction. -/
def enterCheckout (invoices : Table CheckoutInvoice) : Table CheckoutInvoice × Entered :=
  match existingInvoice price invoices with
  | some invoice =>
    -- an open checkout is looked at outside the transaction, without a claim
    if invoice.state = some .checkout_open then (invoices, .found invoice.pk)
    else if invoice.locked now then (invoices, .returns)
    else (invoices.set (claimed now fresh invoice), .claims (claimed now fresh invoice))
  | none =>
    let invoice := claimed now fresh (openedInvoice price invoices.nextPk)
    ((invoices.create (openedInvoice price) (pk_openedInvoice price)).set invoice, .claims invoice)

/-- The second transaction, after a terminal verdict. -/
def reclaimCheckout (pk : ℕ) (invoices : Table CheckoutInvoice) : Table CheckoutInvoice × Entered :=
  match invoices.get? pk with
  | some invoice =>
    -- the row is locked now, but which session it names is not looked at
    if invoice.paid then (invoices, .returns)
    else if invoice.locked now then (invoices, .returns)
    else
      (invoices.set (reclaimed price now fresh invoice),
        .claims (reclaimed price now fresh invoice))
  | none => (invoices, .returns)

end Transactions

/-! ## The provider -/

/-- The sessions, numbered from 0: the newest one of each invoice, and those that were observed
in a terminal state. -/
structure Provider where
  opened : ℕ
  latest : ℕ → Option ℕ
  terminal : List ℕ

/-- The provider opens a session for the invoice. -/
def Provider.openSession (p : Provider) (pk : ℕ) : Provider :=
  { p with opened := p.opened + 1, latest := Function.update p.latest pk (some p.opened) }

/-- What `_reconcile_invoice` finds out about a session: a terminal state, a completed payment
(which the reconciler may accept for the invoice), or neither. -/
inductive ProviderState where
  | terminal
  | completed (accepted : Bool)
  | other
deriving DecidableEq, Repr

/-- What `_reconcile_invoice` returns, and what the reconciler writes to the invoice on the way. -/
structure ProviderAnswer where
  state : ProviderState
  relink : Bool
  amount_cents : Option ℕ
  currency : Option String
deriving DecidableEq, Repr

/-- How `create_checkout_session` ends. A result with a usable url has opened a session, and its
identifiers name one. Without one, or when the call raises, a session may have been opened. -/
inductive Creation where
  | opened (named : Option ℕ)
  | refused (opened : Bool)
  | raised (opened : Bool)
deriving DecidableEq, Repr

/-- How a request saves its result: without an `IntegrityError` on the external id, and for a
provider whose identifiers are also in the metadata, which is saved whole. -/
structure Saving where
  unique : Bool
  tracked : Bool
deriving DecidableEq, Repr

/-- The provider's side of a call that gives no session back. -/
def Provider.openIf (p : Provider) (opened : Bool) (pk : ℕ) : Provider :=
  if opened then p.openSession pk else p

/-! ## The machine -/

/-- What a request does next. A claim carries the time its lease runs out. -/
inductive Request where
  | out
  | checking (pk : ℕ)
  | asking (invoice : CheckoutInvoice)
  | reclaiming (pk : ℕ) (session : ℕ)
  | creating (invoice : CheckoutInvoice) (lease : Time)
  | recording (invoice : CheckoutInvoice) (lease : Time) (result : Option (Option ℕ))

structure Site (n : ℕ) where
  now : Time
  invoices : Table CheckoutInvoice
  provider : Provider
  requests : Fin n → Request

inductive CheckoutAction (n : ℕ) where
  | enter (i : Fin n) (fresh : String)
  | read (i : Fin n)
  | ask (i : Fin n) (answer : ProviderAnswer)
  | reclaim (i : Fin n) (fresh : String)
  | create (i : Fin n) (c : Creation)
  | record (i : Fin n) (saving : Saving)
  | die (i : Fin n)
  | tick (seconds : ℕ)

/-- The request after a transaction. -/
def Entered.request (now : Time) : Entered → Request
  | .returns => .out
  | .found pk => .checking pk
  | .claims invoice => .creating invoice (now + lease_seconds)

/-- The row after `PaymentReconciler.reconcile`, as far as `_checkout` reads it: it may be paid,
has the amount and currency that were accepted, and takes an identifier if it has none. -/
def reconciledRow (session : ℕ) (answer : ProviderAnswer) (row : CheckoutInvoice) :
    CheckoutInvoice :=
  { row with
    amount_cents := answer.amount_cents.getD row.amount_cents
    currency := answer.currency.getD row.currency
    paid := row.paid || answer.state == .completed true
    session := if answer.relink then row.session.or (some session) else row.session }

/-- The provider's book once the state of a session was observed. -/
def Provider.observe (p : Provider) (session : ℕ) (state : ProviderState) : Provider :=
  if state = .terminal then { p with terminal := session :: p.terminal } else p

/-- `_reconcile_invoice` and the branch on what it returns. -/
def askProvider (copy : CheckoutInvoice) (answer : ProviderAnswer)
    (invoices : Table CheckoutInvoice) (provider : Provider) :
    Table CheckoutInvoice × Provider × Request :=
  match copy.session, invoices.get? copy.pk with
  | some session, some row =>
    let row := reconciledRow session answer row
    (invoices.set row, provider.observe session answer.state,
      if row.paid = false ∧ answer.state = .terminal then .reclaiming copy.pk session else .out)
  | _, _ => (invoices, provider, .out)

/-- The metadata of the copy, saved over the row. -/
def savedOver (copy : CheckoutInvoice) (state : CheckoutState) (session : Option ℕ)
    (row : CheckoutInvoice) : CheckoutInvoice :=
  { row with
    state := some state
    checkout_lock_until := copy.checkout_lock_until
    reference := copy.reference
    attempt_count := copy.attempt_count
    session := session }

/-- The row after the result is recorded. -/
def recordedRow (copy : CheckoutInvoice) (result : Option (Option ℕ)) (saving : Saving)
    (row : CheckoutInvoice) : CheckoutInvoice :=
  match result with
  | none =>
    -- a failure saves the metadata only
    savedOver copy .checkout_failed
      (if saving.tracked then copy.session.or row.session else row.session) row
  | some named =>
    -- an `IntegrityError` saves a failure, and drops the external id
    if saving.unique then savedOver copy .checkout_open named row
    else savedOver copy .checkout_failed (if saving.tracked then named else none) row

@[simp] theorem recordedRow_pk (copy : CheckoutInvoice) (result : Option (Option ℕ))
    (saving : Saving) (row : CheckoutInvoice) :
    (recordedRow copy result saving row).pk = row.pk := by
  unfold recordedRow
  split
  · rfl
  · split <;> rfl

theorem recordedRow_of_unique {saving : Saving} (hunique : saving.unique = true)
    (copy : CheckoutInvoice) (named : Option ℕ) (row : CheckoutInvoice) :
    recordedRow copy (some named) saving row = savedOver copy .checkout_open named row := by
  simp [recordedRow, hunique]

def Site.setRequest {n : ℕ} (s : Site n) (i : Fin n) (r : Request) : Site n :=
  { s with requests := Function.update s.requests i r }

def checkoutStep (price : Price) {n : ℕ} (s : Site n) : CheckoutAction n → Option (Site n)
  | .enter i fresh =>
    match s.requests i with
    | .out =>
      let (invoices, entered) := enterCheckout price s.now fresh s.invoices
      some ({ s with invoices := invoices }.setRequest i (entered.request s.now))
    | _ => none
  | .read i =>
    match s.requests i with
    | .checking pk =>
      match s.invoices.get? pk with
      | some invoice => some (s.setRequest i (.asking invoice))
      | none => some (s.setRequest i .out)
    | _ => none
  | .ask i answer =>
    match s.requests i with
    | .asking copy =>
      let (invoices, provider, request) := askProvider copy answer s.invoices s.provider
      some ({ s with invoices := invoices, provider := provider }.setRequest i request)
    | _ => none
  | .reclaim i fresh =>
    match s.requests i with
    | .reclaiming pk _ =>
      let (invoices, entered) := reclaimCheckout price s.now fresh pk s.invoices
      some ({ s with invoices := invoices }.setRequest i (entered.request s.now))
    | _ => none
  | .create i c =>
    match s.requests i with
    | .creating invoice lease =>
      some (match c with
      | .opened named =>
        { s with provider := s.provider.openSession invoice.pk }.setRequest i
          (.recording invoice lease (some named))
      | .refused opened =>
        { s with provider := s.provider.openIf opened invoice.pk }.setRequest i
          (.recording invoice lease none)
      | .raised opened =>
        -- `logger` is not defined in the module, so the handler raises and records nothing
        { s with provider := s.provider.openIf opened invoice.pk }.setRequest i .out)
    | _ => none
  | .record i saving =>
    match s.requests i with
    | .recording copy _ result =>
      match s.invoices.get? copy.pk with
      | some row =>
        some ({ s with invoices := s.invoices.set (recordedRow copy result saving row) }.setRequest
          i .out)
      | none => some (s.setRequest i .out)
    | _ => none
  | .die i => some (s.setRequest i .out)
  | .tick seconds => some { s with now := s.now + seconds }

/-- `n` requests of one user for one plan and provider. -/
def checkout (price : Price) (n : ℕ) : Machine (Site n) (CheckoutAction n) := ⟨checkoutStep price⟩

end AlgoBot.Billing
