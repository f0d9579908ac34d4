import AlgoBot.Billing.Reconcile

/-!
# What one call can do

Every result about `reconcile` starts from one case split. `Accepts` collects
the checks of the transaction, as predicates on the report and the store before
it, and `transaction_cases` says that a call that returns either passes them
and has `Recorded` its report for that invoice, or fails one and is `Refused`:
then nothing changes but a possible new, unpaid invoice.
-/

namespace AlgoBot.Billing

open AlgoBot.Core AlgoBot.Python

variable {env : Env} {s : Store} {c : Call} {r : Report} {invoice : Invoice} {o : Outcome}

/-! ## The checks -/

/-- The invoice the transaction works on, created or not. -/
def target? (s : Store) (r : Report) : Option Invoice :=
  match lookupInvoice s r with
  | none =>
    if r.require_existing_invoice ∨ r.amount_minor < 0 then none
    else some (freshInvoice r s.invoices.nextPk)
  | some invoice => if invoice.user_id = r.user.pk then some invoice else none

/-- The payment row, if there is one, belongs to the user of the report. -/
def paymentOwned (s : Store) (r : Report) : Bool :=
  (s.paymentOf r.external_id).all fun p => p.user_id == r.user.pk

/-- The status the payment has once the report is merged. -/
def mergedStatus (s : Store) (r : Report) : PaymentStatus :=
  merge ((s.statusOf r.external_id).getD .pending) r.status

/-- `was_completed`. -/
def wasCompleted (s : Store) (r : Report) (invoice : Invoice) : Bool :=
  (s.paymentOf r.external_id).any fun p => p.status == .completed || invoice.paid

/-- The report passes every check of the transaction, for this invoice. -/
structure Accepts (env : Env) (s : Store) (r : Report) (invoice : Invoice) : Prop where
  target : target? s r = some invoice
  checked : check env.host r invoice = none
  owned : paymentOwned s r = true

/-! ## The effects -/

/-- The row the invoice becomes. -/
def settledInvoice (s : Store) (r : Report) (invoice : Invoice) : Invoice :=
  { amend r invoice with paid := invoice.paid || mergedStatus s r == .completed }

/-- The effects of a report that was accepted for the invoice. -/
structure Recorded (s : Store) (r : Report) (invoice : Invoice) (o : Outcome) : Prop where
  invoices : ∀ k, o.store.invoices.get? k =
    if k = invoice.pk then some (settledInvoice s r invoice) else s.invoices.get? k
  status : ∀ e, o.store.statusOf e =
    if e = r.external_id then some (mergedStatus s r) else s.statusOf e
  payments : ∀ k p, s.payments.get? k = some p →
    ∃ p', o.store.payments.get? k = some p' ∧
      (p'.status = p.status ∨ p'.status = merge p.status r.status)
  events : o.store.events = s.events
  reply : ∃ k, o.reply = some ⟨r.provider, mergedStatus s r, r.external_id, .recorded k⟩
  activated : o.activated =
    if mergedStatus s r = .completed ∧ wasCompleted s r invoice = false then some invoice.pk
    else none

/-- The effects of a report that failed a check. -/
structure Refused (s : Store) (r : Report) (o : Outcome) : Prop where
  invoices : o.store.invoices = s.invoices ∨
    o.store.invoices = s.invoices.create _ (pk_freshInvoice r)
  payments : o.store.payments = s.payments
  events : o.store.events = s.events
  reply : ∃ status result, o.reply = some ⟨r.provider, status, r.external_id, result⟩ ∧
    (∀ k, result ≠ .recorded k) ∧ result ≠ .unresolved_user ∧
    (result = .unresolved_invoice ↔ r.require_existing_invoice = true ∧ lookupInvoice s r = none)
  activated : o.activated = none

@[simp] theorem amend_pk : (amend r invoice).pk = invoice.pk := rfl
@[simp] theorem amend_paid : (amend r invoice).paid = invoice.paid := rfl
@[simp] theorem amend_user_id : (amend r invoice).user_id = invoice.user_id := rfl
@[simp] theorem settledInvoice_pk : (settledInvoice s r invoice).pk = invoice.pk := rfl
@[simp] theorem freshInvoice_pk (k : ℕ) : (freshInvoice r k).pk = k := rfl
@[simp] theorem freshInvoice_paid (k : ℕ) : (freshInvoice r k).paid = false := rfl

/-! ## From the code to the effects -/

/-- The report passes the checks of the invoice it has created. -/
theorem check_freshInvoice (h : Host) (r : Report) (pk : ℕ) (hamount : 0 ≤ r.amount_minor) :
    check h r (freshInvoice r pk) = none := by
  have hcast : ((freshInvoice r pk).amount_cents : ℤ) = r.amount_minor :=
    Int.toNat_of_nonneg hamount
  have hcurrency : (freshInvoice r pk).currency = r.currency := rfl
  simp [check, hcast, hcurrency, not_lt.mpr hamount]

theorem activate_frame {u : User} {plan : String} {now : Time} {s' : Store}
    (h : activateSubscriptionAndReferral env s u invoice plan now = .ok s') :
    s'.invoices = s.invoices ∧ s'.payments = s.payments ∧ s'.events = s.events := by
  have hreward : ∀ t : Store, (rewardReferrer env t u invoice).invoices = t.invoices ∧
      (rewardReferrer env t u invoice).payments = t.payments ∧
      (rewardReferrer env t u invoice).events = t.events := by
    intro t
    unfold rewardReferrer
    split
    · simp
    · split
      · simp
      · dsimp only
        split <;> simp
  unfold activateSubscriptionAndReferral at h
  dsimp only at h
  split at h
  · cases h
    simp
  · split at h
    · cases h
      exact hreward _
    · cases h

/-- What `record` writes. -/
theorem record_spec {payment : Payment} {status : PaymentStatus} {was : Bool}
    (h : record env s r invoice payment status was = .ok o) :
    o.store.invoices =
      s.invoices.set { invoice with paid := invoice.paid || status == .completed } ∧
    o.store.payments = s.payments.set (paymentWith r invoice status payment) ∧
    o.store.events = s.events ∧
    o.reply = some ⟨r.provider, status, r.external_id, .recorded payment.pk⟩ ∧
    o.activated = if status = .completed ∧ was = false then some invoice.pk else none := by
  unfold record at h
  dsimp only at h
  split at h
  · cases h
  · split at h
    · next hfirst =>
      -- the first completion: the activation writes other tables
      split at h
      · next s' hact =>
        rcases activate_frame hact with ⟨hi, hp, he⟩
        cases h
        exact ⟨hi, hp, he, rfl, by rw [if_pos hfirst]⟩
      · cases h
    · next hfirst =>
      cases h
      exact ⟨rfl, rfl, rfl, rfl, by rw [if_neg hfirst]⟩

/-- Payments found by external id. -/
theorem paymentOf_eq (s : Store) (e : String) :
    s.paymentOf e = s.payments.find? fun p => p.external_id == some e := rfl

theorem mem_of_lookupInvoice (h : lookupInvoice s r = some invoice) : invoice ∈ s.invoices := by
  unfold lookupInvoice at h
  split at h
  · next i hi =>
    cases h
    exact Table.mem_of_find? hi
  · split at h
    · exact Table.mem_of_find? h
    · cases h

/-- `s'` is `s` with the rows of the report created where they were missing. -/
structure Prepared (s s' : Store) (r : Report) (invoice : Invoice) : Prop where
  invoice_row : ∃ q, s'.invoices.get? invoice.pk = some q
  invoices : ∀ k, k ≠ invoice.pk → s'.invoices.get? k = s.invoices.get? k
  payments : ∀ e, e ≠ r.external_id → s'.paymentOf e = s.paymentOf e
  payment_rows : ∀ k p, s.payments.get? k = some p → s'.payments.get? k = some p
  events : s'.events = s.events

theorem Prepared.refl {q : Invoice} (h : s.invoices.get? invoice.pk = some q) :
    Prepared s s r invoice := ⟨⟨q, h⟩, fun _ _ => rfl, fun _ _ => rfl, fun _ _ h => h, rfl⟩

/-- Creating the invoice prepares the store for it. -/
theorem Prepared.create_invoice :
    Prepared s { s with invoices := s.invoices.create _ (pk_freshInvoice r) } r
      (freshInvoice r s.invoices.nextPk) where
  invoice_row := ⟨_, Table.get?_create_self (pk_freshInvoice r)⟩
  invoices _ hk := Table.get?_create_ne (pk_freshInvoice r) hk
  payments _ _ := rfl
  payment_rows _ _ h := h
  events := rfl

/-- Creating the payment keeps it prepared. -/
theorem Prepared.create_payment {s' : Store} (h : Prepared s s' r invoice) (i : Invoice) :
    Prepared s { s' with payments := s'.payments.create _ (pk_freshPayment r i) } r invoice where
  invoice_row := h.invoice_row
  invoices := h.invoices
  payments e he := by
    rw [← h.payments e he, paymentOf_eq, paymentOf_eq, Table.find?_create, if_neg]
    simpa [freshPayment] using fun hr => he hr.symm
  payment_rows k p hk := Table.get?_create_of_some (pk_freshPayment r i) (h.payment_rows k p hk)
  events := h.events

/-- `record` on prepared rows records the report. -/
theorem record_recorded {s' : Store} {payment : Payment} (hprep : Prepared s s' r invoice)
    (hpay : s'.paymentOf r.external_id = some payment)
    (hmerged : mergedStatus s r = merge payment.status r.status)
    (h : record env s' r (amend r invoice) payment (mergedStatus s r) (wasCompleted s r invoice) =
      .ok o) :
    Recorded s r invoice o := by
  rcases record_spec h with ⟨hi, hp, he, hr, ha⟩
  rw [paymentOf_eq] at hpay
  have hext : payment.external_id = some r.external_id := by
    simpa using Table.of_find? hpay
  constructor
  · intro k
    rcases hprep.invoice_row with ⟨q, hq⟩
    have hset : o.store.invoices = s'.invoices.set (settledInvoice s r invoice) := hi
    rw [hset, Table.get?_set_of_some (r := settledInvoice s r invoice) hq k]
    by_cases hk : k = invoice.pk
    · simp [hk]
    · simp [hk, hprep.invoices k hk]
  · intro e
    have hkey := Table.find?_set_key (f := Payment.external_id)
      (r := paymentWith r (amend r invoice) (mergedStatus s r) payment) hpay rfl hext (some e)
    simp only [Store.statusOf, paymentOf_eq, hp, hkey, Option.some.injEq]
    by_cases hk : e = r.external_id
    · simp [hk, paymentWith]
    · have hkeep := hprep.payments e hk
      rw [paymentOf_eq, paymentOf_eq] at hkeep
      simp [hk, hkeep]
  · intro k p hk
    rw [hp, Table.get?_set, hprep.payment_rows k p hk]
    refine ⟨_, rfl, ?_⟩
    by_cases hkp : p.pk = payment.pk
    · -- the row the report is written into
      have hpp : p = payment :=
        Table.eq_of_pk_eq (Table.get?_eq_some.mp (hprep.payment_rows k p hk)).1
          (Table.mem_of_find? hpay) hkp
      right
      simp [Table.replace, paymentWith, hpp, hmerged]
    · left
      simp [Table.replace, paymentWith, hkp]
  · rw [he, hprep.events]
  · exact ⟨_, hr⟩
  · exact ha

/-- What the part after the invoice lookup does. -/
theorem settle_cases {s' : Store} (hprep : Prepared s s' r invoice)
    (hpays : s'.payments = s.payments) (h : settle env s' r invoice = .ok o) :
    (check env.host r invoice = none ∧ paymentOwned s r = true ∧ Recorded s r invoice o) ∨
    ((check env.host r invoice ≠ none ∨ paymentOwned s r = false) ∧
      ∃ status why, o = answer s' r status (.rejected why)) := by
  have hsame : s'.paymentOf r.external_id = s.paymentOf r.external_id := by
    rw [paymentOf_eq, paymentOf_eq, hpays]
  unfold settle at h
  rw [hsame] at h
  split at h
  · next why hwhy =>
    cases h
    right
    exact ⟨Or.inl (by simp [hwhy]), _, _, rfl⟩
  · next hcheck =>
    dsimp only at h
    split at h
    · next hnone =>
      -- no payment yet: one is created as pending and then written
      split at h
      · left
        have hmerged : mergedStatus s r = r.status := by
          simp [mergedStatus, Store.statusOf, hnone]
        have hwas : wasCompleted s r invoice = false := by simp [wasCompleted, hnone]
        refine ⟨hcheck, by simp [paymentOwned, hnone], ?_⟩
        apply record_recorded (hprep.create_payment (amend r invoice))
        · rw [paymentOf_eq, Table.find?_create, if_pos]
          simp [freshPayment]
        · simp [freshPayment, hmerged]
        · rw [hmerged, hwas]
          exact h
      · cases h
    · next payment hpay =>
      split at h
      · next howner =>
        cases h
        right
        exact ⟨Or.inr (by simpa [paymentOwned, hpay] using howner), _, _, rfl⟩
      · next howner =>
        -- the payment is there: the status is merged into its row
        left
        have hmerged : mergedStatus s r = merge payment.status r.status := by
          simp [mergedStatus, Store.statusOf, hpay]
        have hwas : wasCompleted s r invoice = (payment.status == .completed || invoice.paid) := by
          simp [wasCompleted, hpay]
        refine ⟨hcheck, by simpa [paymentOwned, hpay] using howner, ?_⟩
        apply record_recorded hprep (hsame.trans hpay) hmerged
        rw [hmerged, hwas]
        exact h

/-- What a transaction that returns has done. -/
theorem transaction_cases (h : transaction env s r = .ok o) :
    (∃ invoice, Accepts env s r invoice ∧ Recorded s r invoice o) ∨
    ((∀ invoice, ¬ Accepts env s r invoice) ∧ Refused s r o) := by
  unfold transaction at h
  split at h
  · next hlookup =>
    split at h
    · next hrequire =>
      -- no invoice, and the caller does not want a new one
      cases h
      right
      constructor
      · intro invoice hacc
        have ht := hacc.target
        simp [target?, hlookup, hrequire] at ht
      · exact ⟨Or.inl rfl, rfl, rfl, ⟨_, _, rfl, by simp [hrequire, hlookup]⟩, rfl⟩
    · next hrequire =>
      dsimp only at h
      split at h
      · cases h
      · next hpos =>
        have htarget : target? s r = some (freshInvoice r s.invoices.nextPk) := by
          simp [target?, hlookup, hrequire, hpos]
        split at h
        · rcases settle_cases Prepared.create_invoice rfl h with
            ⟨hc, ho, hrec⟩ | ⟨hbad, st, why, heq⟩
          · left
            exact ⟨_, ⟨htarget, hc, ho⟩, hrec⟩
          · -- the new invoice stays although the report was rejected
            right
            constructor
            · intro invoice hacc
              have hinv := hacc.target
              rw [htarget] at hinv
              cases hinv
              rcases hbad with hbad | hbad
              · exact hbad hacc.checked
              · simp [hacc.owned] at hbad
            · rw [heq]
              exact ⟨Or.inr rfl, rfl, rfl, ⟨_, _, rfl, by simp [hrequire]⟩, rfl⟩
        · cases h
  · next invoice hlookup =>
    split at h
    · next howner =>
      -- the invoice is somebody else's
      cases h
      right
      constructor
      · intro i hacc
        have ht := hacc.target
        simp [target?, hlookup, howner] at ht
      · exact ⟨Or.inl rfl, rfl, rfl, ⟨_, _, rfl, by simp [hlookup]⟩, rfl⟩
    · next howner =>
      have htarget : target? s r = some invoice := by
        simpa [target?, hlookup] using howner
      have hrow : s.invoices.get? invoice.pk = some invoice :=
        Table.get?_pk (mem_of_lookupInvoice hlookup)
      rcases settle_cases (Prepared.refl hrow) rfl h with ⟨hc, ho, hrec⟩ | ⟨hbad, st, why, heq⟩
      · left
        exact ⟨_, ⟨htarget, hc, ho⟩, hrec⟩
      · right
        constructor
        · intro i hacc
          have hinv := hacc.target
          rw [htarget] at hinv
          cases hinv
          rcases hbad with hbad | hbad
          · exact hbad hacc.checked
          · simp [hacc.owned] at hbad
        · rw [heq]
          exact ⟨Or.inl rfl, rfl, rfl, ⟨_, _, rfl, by simp [hlookup]⟩, rfl⟩

end AlgoBot.Billing
