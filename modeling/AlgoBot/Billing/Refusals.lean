import AlgoBot.Billing.Runs

/-!
# Refused reports

`reconcile` refuses a report before its transaction, when it looks for the invoice,
when it checks the amount and the currency, and last when the payment turns out to
be another user's. Only the last of these may come after a write.

* `refused_iff`: a refused call leaves the four tables as they were exactly if it
  has not just created the invoice of another user's payment.
* `refused_leaves_invoice`: it has.
-/

namespace AlgoBot.Billing

open AlgoBot.Core AlgoBot.Python

variable {env : Env} {s : Store} {c : Call} {o : Outcome} {r : Report} {invoice : Invoice}

/-- The call is answered as rejected or unresolved. -/
def Outcome.refused (o : Outcome) : Bool :=
  o.reply.any fun reply =>
    match reply.result with
    | .recorded _ => false
    | _ => true

/-- The tables a call writes to are as before. -/
structure SameTables (s t : Store) : Prop where
  invoices : t.invoices = s.invoices
  payments : t.payments = s.payments
  subscriptions : t.subscriptions = s.subscriptions
  rewards : t.rewards = s.rewards

/-- A refusal changes nothing. -/
def RefusesCleanly (env : Env) (s : Store) (c : Call) : Prop :=
  ∀ o, reconcile env s c = .ok o → o.refused = true → SameTables s o.store

/-- The report has no invoice yet, may create one whose columns fit, and names a payment of
another user. -/
def Orphans (env : Env) (s : Store) (r : Report) : Prop :=
  lookupInvoice s r = none ∧ r.require_existing_invoice = false ∧ 0 ≤ r.amount_minor ∧
    env.backend.invoiceFits (freshInvoice r s.invoices.nextPk) = true ∧
    ∃ p, s.paymentOf r.external_id = some p ∧ p.user_id ≠ r.user.pk

/-! ## The places a report is refused at -/

theorem SameTables.refl (s : Store) : SameTables s s := ⟨rfl, rfl, rfl, rfl⟩

/-- A created invoice is one more row. -/
theorem create_ne (invoices : Table Invoice) (mk : ℕ → Invoice) (hmk : ∀ k, HasPk.pk (mk k) = k) :
    invoices.create mk hmk ≠ invoices := by
  intro h
  have hlength := congrArg (fun t => t.rows.length) h
  simp [Table.create] at hlength

/-- What is recorded is not refused. -/
theorem not_refused_of_record {t : Store} {payment : Payment} {status : PaymentStatus} {w : Bool}
    (h : record env t r invoice payment status w = .ok o) : o.refused = false := by
  unfold record at h
  dsimp only at h
  split at h
  · cases h
  · split at h
    · split at h
      · cases h
        rfl
      · cases h
    · cases h
      rfl

/-- A settled report is refused by a check, or as another user's payment, with the store it had. -/
theorem settle_refused {t : Store} (h : settle env t r invoice = .ok o) (href : o.refused = true) :
    o.store = t ∧ (check env.host r invoice ≠ none ∨
      ∃ p, t.paymentOf r.external_id = some p ∧ p.user_id ≠ r.user.pk) := by
  unfold settle at h
  split at h
  · next why hwhy =>
    cases h
    exact ⟨rfl, Or.inl (by rw [hwhy]; exact Option.some_ne_none why)⟩
  · dsimp only at h
    split at h
    · split at h
      · rw [not_refused_of_record h] at href
        cases href
      · cases h
    · next p hp =>
      split at h
      · next howner =>
        cases h
        exact ⟨rfl, Or.inr ⟨p, hp, howner⟩⟩
      · rw [not_refused_of_record h] at href
        cases href

/-- Another user's payment is refused. -/
theorem settle_foreign {t : Store} {p : Payment} (hcheck : check env.host r invoice = none)
    (hpayment : t.paymentOf r.external_id = some p) (howner : p.user_id ≠ r.user.pk) :
    ∃ o, settle env t r invoice = .ok o ∧ o.refused = true ∧ o.store = t := by
  refine ⟨answer t r (merge p.status r.status) (.rejected .payment_owner_mismatch), ?_, rfl, rfl⟩
  unfold settle
  simp only [hcheck, hpayment, ne_eq, howner, not_false_eq_true, if_true]

theorem transaction_refused (h : transaction env s r = .ok o) (href : o.refused = true) :
    SameTables s o.store ↔ ¬ Orphans env s r := by
  unfold transaction at h
  split at h
  · next hlookup =>
    split at h
    · next hrequire =>
      cases h
      refine iff_of_true (SameTables.refl s) fun horphan => ?_
      rw [horphan.2.1] at hrequire
      cases hrequire
    · next hrequire =>
      dsimp only at h
      split at h
      · cases h
      · next hnonneg =>
        split at h
        · next hfits =>
          -- the created invoice is there, so the table is not as before
          obtain ⟨hstore, hwhy⟩ := settle_refused h href
          have hchanged : ¬ SameTables s o.store := by
            intro hsame
            have hinvoices := hsame.invoices
            rw [hstore] at hinvoices
            exact create_ne s.invoices _ (pk_freshInvoice r) hinvoices
          refine iff_of_false hchanged (not_not.mpr ?_)
          have hamount : 0 ≤ r.amount_minor := not_lt.mp hnonneg
          rcases hwhy with hcheck | hforeign
          · exact absurd (check_freshInvoice env.host r s.invoices.nextPk hamount) hcheck
          · exact ⟨hlookup, by simpa using hrequire, hamount, hfits, hforeign⟩
        · cases h
  · next found hlookup =>
    have horphan : ¬ Orphans env s r := by
      intro horphan
      rw [horphan.1] at hlookup
      cases hlookup
    split at h
    · cases h
      exact iff_of_true (SameTables.refl s) horphan
    · obtain ⟨hstore, _⟩ := settle_refused h href
      rw [hstore]
      exact iff_of_true (SameTables.refl s) horphan

/-- A report with nothing to go by but another user's payment is refused. -/
theorem refused_of_orphans (h : Orphans env s r) :
    ∃ o, transaction env s r = .ok o ∧ o.refused = true := by
  obtain ⟨hlookup, hrequire, hamount, hfits, p, hpayment, howner⟩ := h
  have hcheck := check_freshInvoice env.host r s.invoices.nextPk hamount
  have hnonneg : ¬ r.amount_minor < 0 := not_lt.mpr hamount
  let t : Store := { s with invoices := s.invoices.create _ (pk_freshInvoice r) }
  have hpayment' : t.paymentOf r.external_id = some p := hpayment
  obtain ⟨o, ho, href, _⟩ := settle_foreign hcheck hpayment' howner
  refine ⟨o, ?_, href⟩
  unfold transaction
  simp only [hlookup, hrequire, hnonneg, hfits, Bool.false_eq_true, if_false, if_true]
  exact ho

theorem refused_iff (env : Env) (s : Store) (c : Call) :
    RefusesCleanly env s c ↔ ∀ r, Reports env s c r → ¬ Orphans env s r := by
  constructor
  · intro hclean r hreport horphans
    obtain ⟨o, ho, href⟩ := refused_of_orphans horphans
    have hcall : reconcile env s c = .ok o := by
      rw [reconcile, hreport]
      exact ho
    exact (transaction_refused ho href).mp (hclean o hcall href) horphans
  · intro hnone o ho href
    unfold reconcile at ho
    obtain ⟨entry, hentry, ho⟩ := bind_ok.mp ho
    cases entry with
    | no_external_id =>
      cases ho
      exact SameTables.refl s
    | unresolved_user provider status external_id =>
      cases ho
      exact SameTables.refl s
    | report r => exact (transaction_refused ho href).mpr (hnone r hentry)

/-- Users 7 and 8, and a payment `CHK9` of user 8 whose invoice goes by another id. -/
def foreignPayment : Store :=
  { Store.empty with
    users := ⟨[⟨7, none⟩, ⟨8, none⟩], by decide⟩
    payments := ⟨[⟨1, 8, none, some "CHK9", 1000, "USD", .pending⟩], by decide⟩ }

/-- A report of user 7 about it is refused, and leaves an invoice. -/
theorem refused_leaves_invoice :
    ¬ RefusesCleanly .default foreignPayment (reported "CHK9" "COMPLETE" "IS-7-PRO-1") := by
  intro hclean
  have hrefused : ((reconcile .default foreignPayment
      (reported "CHK9" "COMPLETE" "IS-7-PRO-1")).toOption.any fun o =>
        o.refused && o.store.invoices.rows.length == 1) = true := by
    decide +kernel
  cases hcall : reconcile .default foreignPayment (reported "CHK9" "COMPLETE" "IS-7-PRO-1") with
  | error e =>
    rw [hcall] at hrefused
    cases hrefused
  | ok o =>
    rw [hcall] at hrefused
    obtain ⟨href, hlength⟩ := Bool.and_eq_true_iff.mp hrefused
    rw [(hclean o hcall href).invoices] at hlength
    cases hlength

end AlgoBot.Billing
