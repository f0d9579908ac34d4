import AlgoBot.Core.Table
import AlgoBot.Python.Value

/-!
# Billing rows

The tables the payment reconciler reads and writes, with the columns it uses.
A column with a non-negative check constraint is a natural number, and a column
with choices is an enumeration, so a row the database refuses cannot be built.

The database may also refuse a value that is too long or too large for its
column. Which ones depends on the vendor, so that is a `Backend`.
-/

namespace AlgoBot.Billing

open AlgoBot.Core AlgoBot.Python

/-- Seconds. -/
abbrev Time := ℤ

/-- Seconds in a day, `timedelta(days=1)`. -/
def day : Time := 86400

/-- `Payment.STATUS_CHOICES`. -/
inductive PaymentStatus where
  | pending
  | processing
  | completed
  | failed
  | cancelled
  | refunded
deriving DecidableEq, Repr

/-- The stored text of a status. -/
def PaymentStatus.text : PaymentStatus → String
  | .pending => "PENDING"
  | .processing => "PROCESSING"
  | .completed => "COMPLETED"
  | .failed => "FAILED"
  | .cancelled => "CANCELLED"
  | .refunded => "REFUNDED"

/-- The trading profile of a user. -/
structure Profile where
  referred_by : Option ℕ
  referral_credits : ℚ
deriving DecidableEq

structure User where
  pk : ℕ
  trading_profile : Option Profile
deriving DecidableEq

structure Invoice where
  pk : ℕ
  user_id : ℕ
  external_id : Option String
  amount_cents : ℕ
  currency : String
  paid : Bool
  metadata : Dict

structure Payment where
  pk : ℕ
  user_id : ℕ
  invoice : Option ℕ
  external_id : Option String
  amount_cents : ℕ
  currency : String
  status : PaymentStatus
deriving DecidableEq

structure Subscription where
  pk : ℕ
  user_id : ℕ
  plan : String
  price_cents : ℕ
  currency : String
  recurring : Bool
  provider : String
  provider_subscription_id : String
  renewed_at : Time
  expires_at : Option Time
  is_active : Bool
deriving DecidableEq

/-- `Subscription.PLAN_CHOICES`. -/
def planChoices : List String := ["FREE", "BASIC", "PRO", "ENTERPRISE"]

structure ReferralReward where
  pk : ℕ
  referrer : ℕ
  referee : ℕ
  amount_credits : ℚ
deriving DecidableEq

structure PaymentWebhookEvent where
  pk : ℕ
  provider : String
  event_key : String
  payload_hash : String
  external_id : String
  received_status : String
  processed_status : String
  payload : Value
  processed_at : Option Time
  attempts : ℕ
  last_error : String

instance : HasPk User := ⟨User.pk⟩
instance : HasPk Invoice := ⟨Invoice.pk⟩
instance : HasPk Payment := ⟨Payment.pk⟩
instance : HasPk Subscription := ⟨Subscription.pk⟩
instance : HasPk ReferralReward := ⟨ReferralReward.pk⟩
instance : HasPk PaymentWebhookEvent := ⟨PaymentWebhookEvent.pk⟩

@[simp] theorem pk_user (u : User) : HasPk.pk u = u.pk := rfl
@[simp] theorem pk_invoice (i : Invoice) : HasPk.pk i = i.pk := rfl
@[simp] theorem pk_payment (p : Payment) : HasPk.pk p = p.pk := rfl
@[simp] theorem pk_subscription (u : Subscription) : HasPk.pk u = u.pk := rfl
@[simp] theorem pk_reward (r : ReferralReward) : HasPk.pk r = r.pk := rfl
@[simp] theorem pk_event (e : PaymentWebhookEvent) : HasPk.pk e = e.pk := rfl

/-- The database. -/
structure Store where
  users : Table User
  invoices : Table Invoice
  payments : Table Payment
  subscriptions : Table Subscription
  rewards : Table ReferralReward
  events : Table PaymentWebhookEvent

/-- A database without rows. -/
def Store.empty : Store where
  users := Table.empty
  invoices := Table.empty
  payments := Table.empty
  subscriptions := Table.empty
  rewards := Table.empty
  events := Table.empty

/-- The invoice with this primary key exists and is paid. -/
def Store.isPaid (s : Store) (k : ℕ) : Bool := (s.invoices.get? k).any Invoice.paid

/-- `Payment.objects.filter(external_id=e).first()`. -/
def Store.paymentOf (s : Store) (e : String) : Option Payment :=
  s.payments.find? fun p => p.external_id == some e

/-- Status of the payment the provider knows as `e`. -/
def Store.statusOf (s : Store) (e : String) : Option PaymentStatus :=
  (s.paymentOf e).map Payment.status

/-- What the database vendor accepts in a column. -/
structure Backend where
  textFits : ℕ → String → Bool
  intFits : ℤ → Bool
  jsonFits : Dict → Bool

/-- A vendor that enforces the declared lengths and 32-bit integers. -/
def Backend.strict : Backend where
  textFits n t := t.length ≤ n
  intFits n := -2 ^ 31 ≤ n ∧ n < 2 ^ 31
  jsonFits _ := true

/-- The settings the reconciler reads. -/
structure Settings where
  ALGOBOT_SUBSCRIPTION_PERIOD_DAYS : ℤ
  /-- With the eight decimals of the columns it is added to, at most. -/
  REFERRAL_CREDIT_AMOUNT : ℚ
  INTASEND_WEBHOOK_CHALLENGE : String

/-- Interpreter, database vendor and settings a process runs with. -/
structure Env where
  host : Host
  backend : Backend
  settings : Settings

/-- An environment for concrete runs: ASCII text, enforced columns, default settings. -/
def Env.default : Env where
  host := Host.ascii
  backend := Backend.strict
  settings :=
    { ALGOBOT_SUBSCRIPTION_PERIOD_DAYS := 30
      REFERRAL_CREDIT_AMOUNT := 0
      INTASEND_WEBHOOK_CHALLENGE := "challenge" }

end AlgoBot.Billing
