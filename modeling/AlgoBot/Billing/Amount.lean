import AlgoBot.Billing.Runs

/-!
# The amount an invoice is paid for

A report that pays an invoice should carry the amount and the currency of that
invoice. The currency is always compared. The amount is compared only where
both numbers are nonzero, and an amount that is malformed, not finite or below
half a minor unit reads as zero, so `paysOwnAmount_iff` has a condition.
-/

namespace AlgoBot.Billing

open AlgoBot.Core AlgoBot.Python

variable {env : Env} {s : Store} {c : Call} {r : Report} {invoice : Invoice} {o : Outcome}

/-- The provider supplies an amount: a nonempty string or a number. -/
def Supplied : Value → Prop
  | .str a => a ≠ ""
  | .int _ => True
  | .float _ _ => True
  | _ => False

instance : DecidablePred Supplied := fun v => by
  unfold Supplied
  split <;> infer_instance

/-- If the call pays an invoice, it does so for the invoice's own amount and currency, and a
worthless amount pays no invoice with a positive one. -/
def PaysOwnAmount (env : Env) (s : Store) (c : Call) (t : Store) : Prop :=
  Supplied c.amount → ∀ r invoice, Reports env s c r → target? s r = some invoice →
    s.isPaid invoice.pk = false → t.isPaid invoice.pk = true →
      r.amount_minor = invoice.amount_cents ∧
      (∀ currency, c.currency = .str currency → currency ≠ "" →
        upper env.host currency = upper env.host (orText invoice.currency "USD")) ∧
      (Worthless env.host c.amount → invoice.amount_cents = 0)

/-- The report completes the payment and passes every check for an unpaid invoice. -/
structure Completes (env : Env) (s : Store) (r : Report) (invoice : Invoice) : Prop where
  accepts : Accepts env s r invoice
  unpaid : invoice.paid = false
  completed : mergedStatus s r = .completed

/-- Exactly the reports that complete a payment turn their target paid. -/
theorem pays_iff_completes (hrep : Reports env s c r) (htarget : target? s r = some invoice)
    (hok : reconcile env s c = .ok o) :
    (s.isPaid invoice.pk = false ∧ o.store.isPaid invoice.pk = true) ↔
      Completes env s r invoice := by
  rw [← after_of_ok hok]
  constructor
  · intro h
    rcases of_mem_newlyPaid (mem_newlyPaid.mpr h) with
      ⟨r', i, _, hrep', _, hacc, _, _, hunpaid, hmerged⟩
    have hr : r = r' := hrep.unique hrep'
    subst hr
    have hi := htarget.symm.trans hacc.target
    cases hi
    exact ⟨hacc, hunpaid, hmerged⟩
  · intro h
    have hrec := recorded_of_accepts hrep h.accepts hok
    constructor
    · rw [isPaid_target htarget, h.unpaid]
    · rw [after_of_ok hok, hrec.isPaid, if_pos rfl]
      simp [h.completed]

/-- The checks the amount passes. -/
theorem amount_of_check (h : check env.host r invoice = none) :
    0 ≤ r.amount_minor ∧
    (r.amount_minor ≠ 0 → invoice.amount_cents ≠ 0 → r.amount_minor = invoice.amount_cents) := by
  unfold check at h
  dsimp only at h
  split at h
  · cases h
  · next hneg =>
    split at h
    · cases h
    · next hmis =>
      constructor
      · omega
      · intro hm hc
        by_contra hne
        exact hmis ⟨hm, hc, hne⟩

/-- The check the currency passes. -/
theorem currency_of_check (h : check env.host r invoice = none) (hc : r.currency ≠ "") :
    upper env.host r.currency = upper env.host (orText invoice.currency "USD") := by
  have hdflt : orText invoice.currency "USD" ≠ "" := by
    unfold orText
    split
    · decide
    · assumption
  have hrec : orText r.currency "USD" = r.currency := by simp [orText, hc]
  unfold check at h
  dsimp only at h
  split at h
  · cases h
  · split at h
    · cases h
    · split at h
      · cases h
      · next hmis =>
        rw [hrec] at hmis
        by_contra hne
        exact hmis ⟨upper_ne_empty _ hdflt, upper_ne_empty _ hc, fun he => hne he.symm⟩

/-- Whatever report completes the payment of an unpaid invoice reads as zero exactly where the
invoice is free, and is not a fraction of a minor unit for an invoice of one minor unit. -/
def ComparesAmount (env : Env) (s : Store) (c : Call) : Prop :=
  Supplied c.amount → ∀ r invoice, Reports env s c r → Completes env s r invoice →
    (r.amount_minor = 0 ↔ invoice.amount_cents = 0) ∧
    ¬ (Worthless env.host c.amount ∧ invoice.amount_cents = 1)

/-- A call that returns pays only for the invoice's own amount if and only if the amounts it
would pay with are ones the code compares. -/
theorem paysOwnAmount_iff (hok : reconcile env s c = .ok o) :
    PaysOwnAmount env s c o.store ↔ ComparesAmount env s c := by
  constructor
  · intro hown hsup r invoice hrep hcomp
    have htarget := hcomp.accepts.target
    rcases (pays_iff_completes hrep htarget hok).mpr hcomp with ⟨hbefore, hafter⟩
    rcases hown hsup r invoice hrep htarget hbefore hafter with ⟨heq, _, hworth⟩
    constructor
    · omega
    · rintro ⟨hw, hone⟩
      have hzero := hworth hw
      omega
  · intro hcond hsup r invoice hrep htarget hbefore hafter
    have hcomp := (pays_iff_completes hrep htarget hok).mp ⟨hbefore, hafter⟩
    rcases hcond hsup r invoice hrep hcomp with ⟨hzero, hsub⟩
    rcases hrep.arguments with ⟨hminor, hcur, _, _⟩
    rcases amount_of_check hcomp.accepts.checked with ⟨_, hamount⟩
    have heq : r.amount_minor = invoice.amount_cents := by
      by_cases hm : r.amount_minor = 0
      · have hc := hzero.mp hm
        omega
      · exact hamount hm fun hc => hm (hzero.mpr (by exact_mod_cast hc))
    refine ⟨heq, ?_, ?_⟩
    · intro currency hc hne
      have htext : r.currency = upper env.host currency := by
        rw [hcur, hc]
        simp [textOr, Value.or, hne]
      have hcheck := currency_of_check hcomp.accepts.checked (by
        rw [htext]
        exact upper_ne_empty _ hne)
      rw [← hcheck, htext, upper_upper]
    · -- a worthless amount reads as zero or one, and both are excluded for a positive invoice
      intro hw
      have hle := minorUnits_le_one hw hminor
      by_contra hpos
      exact hsub ⟨hw, by omega⟩

/-- A report of 10.00 USD for an invoice of 10.00 USD. -/
theorem paysOwnAmount_iff_full :
    ∃ o, reconcile .default twoInvoices (reported "CHK1" "COMPLETE" "IS-7-PRO-1") = .ok o ∧
      (PaysOwnAmount .default twoInvoices (reported "CHK1" "COMPLETE" "IS-7-PRO-1") o.store ↔
        ComparesAmount .default twoInvoices (reported "CHK1" "COMPLETE" "IS-7-PRO-1")) := by
  cases h : reconcile .default twoInvoices (reported "CHK1" "COMPLETE" "IS-7-PRO-1") with
  | ok o => exact ⟨o, rfl, paysOwnAmount_iff h⟩
  | error e =>
    have hok : (reconcile .default twoInvoices (reported "CHK1" "COMPLETE" "IS-7-PRO-1")).isOk :=
      by decide
    simp [h, Except.isOk, Except.toBool] at hok

/-- The first invoice is reported complete with the amount `NaN`. -/
def reportedNaN : Call := { reported "CHK1" "COMPLETE" "IS-7-PRO-1" with amount := .str "NaN" }

/-- What the reconciler makes of that. -/
def reportNaN : Report where
  provider := "intasend"
  external_id := "CHK1"
  user := ⟨7, none⟩
  plan_key := "PRO"
  status := .completed
  amount_minor := 0
  currency := "USD"
  metadata := [("api_ref", .str "IS-7-PRO-1")]
  require_existing_invoice := false
  now := 0

/-- `NaN` pays the invoice of 10.00 USD. -/
theorem malformed_amount_pays :
    ¬ PaysOwnAmount .default twoInvoices reportedNaN (after .default twoInvoices reportedNaN) := by
  intro h
  have hbefore : twoInvoices.isPaid 1 = false := by decide
  have hafter : (after .default twoInvoices reportedNaN).isPaid 1 = true := by decide +kernel
  have hreport : Reports .default twoInvoices reportedNaN reportNaN := rfl
  have htarget : target? twoInvoices reportNaN = some firstInvoice := rfl
  rcases h (by decide) reportNaN firstInvoice hreport htarget hbefore hafter with ⟨heq, _, _⟩
  simp [reportNaN, firstInvoice] at heq

end AlgoBot.Billing
