import AlgoBot.Billing.Redelivery

/-!
# One payment of a recurring event

A recurring event is reconciled with one call for each payment. Such a call names no reference,
so it is about the invoice and the payment row with its own id. `closed` tells that the payment
is done, `completes` that the call completes it for the first time, and `linkOf` which provider
subscription its invoice carries.

* `call_renewal`: a call that completes its payment overwrites the link of the subscription with
  that of the invoice, and any other call leaves the subscription as it is.
-/

namespace AlgoBot.Billing

open AlgoBot.Core AlgoBot.Python

/-! ## What activates, and what it links -/

/-- `Invoice.objects.filter(external_id=e).first()`. -/
def Store.invoiceOf (s : Store) (e : String) : Option Invoice :=
  s.invoices.find? fun i => i.external_id == some e

/-- The payment is done, or somebody else's. -/
def closed (s : Store) (user_id : ℕ) (e : String) : Bool :=
  (s.paymentOf e).any fun p => p.user_id != user_id || p.status == .completed ||
    p.status == .refunded || (s.invoiceOf e).any Invoice.paid

/-- The invoice with the id of the report, if there is one, is for the user and fits it. -/
def fits (env : Env) (s : Store) (r : Report) : Bool :=
  match s.invoiceOf r.external_id with
  | some invoice => invoice.user_id == r.user.pk && (check env.host r invoice).isNone
  | none => 0 ≤ r.amount_minor

/-- The call reports a payment that it completes. -/
def completes (env : Env) (s : Store) (c : Call) : Bool :=
  match enter env s c with
  | .ok (.report r) => fits env s r && !closed s r.user.pk r.external_id
  | _ => false

/-- The subscription id in the metadata of an invoice. -/
def linkText (env : Env) (invoice : Invoice) : String :=
  strip (textOr env.host (invoice.metadata.get "subscription_id") "")

/-- The subscription id that the invoice with this id carries. -/
def linkOf (env : Env) (s : Store) (e : String) : String :=
  match s.invoiceOf e with
  | some invoice => linkText env invoice
  | none => ""

variable {env : Env} {s t : Store} {c : Call} {r : Report} {invoice : Invoice} {o : Outcome}

/-! ## The report of a renewal -/

/-- The same users, by their keys. -/
def SameUsers (s t : Store) : Prop := ∀ n, (t.users.get? n).isSome = (s.users.get? n).isSome

theorem SameUsers.refl (s : Store) : SameUsers s s := fun _ => rfl

theorem SameUsers.symm (h : SameUsers s t) : SameUsers t s := fun n => (h n).symm

theorem SameUsers.trans {u : Store} (h : SameUsers s t) (h' : SameUsers t u) : SameUsers s u :=
  fun n => (h' n).trans (h n)

theorem findUser_congr (h : SameUsers s t) {n : Option ℤ} {user : User}
    (hfind : findUser s n = some user) :
    ∃ user', findUser t n = some user' ∧ user'.pk = user.pk := by
  cases n with
  | none => cases hfind
  | some n =>
    simp only [findUser] at hfind ⊢
    split at hfind
    · next hpos =>
      rw [if_pos hpos]
      have hsome : (t.users.get? n.toNat).isSome = true := by
        rw [h, hfind]
        rfl
      obtain ⟨user', huser'⟩ := Option.isSome_iff_exists.mp hsome
      exact ⟨user', huser', (Table.pk_of_get? huser').trans (Table.pk_of_get? hfind).symm⟩
    · cases hfind

/-- A call reports the same in a store with the same users, but for the row of the user. -/
theorem Reports.congr (h : SameUsers s t) (hrep : Reports env s c r) :
    ∃ user, user.pk = r.user.pk ∧ Reports env t c { r with user := user } := by
  unfold Reports enter at hrep ⊢
  dsimp only at hrep ⊢
  split at hrep
  · cases hrep
  · next hid =>
    rw [if_neg hid]
    obtain ⟨resolved, hresolved, hrep⟩ := bind_ok.mp hrep
    split at hrep
    · cases hrep
    · next user huser =>
      obtain ⟨amount, hamount, hrep⟩ := bind_ok.mp hrep
      obtain ⟨user', huser', hpk⟩ := findUser_congr h huser
      cases hrep
      refine ⟨user', hpk, bind_ok.mpr ⟨resolved, hresolved, ?_⟩⟩
      dsimp only
      rw [huser']
      exact bind_ok.mpr ⟨amount, hamount, rfl⟩

theorem completes_of_not_reports (h : ∀ r, ¬ Reports env s c r) : completes env s c = false := by
  unfold completes
  split
  · next r hrep => exact absurd hrep (h r)
  · rfl

/-- What completes a payment depends on the rows under its id only. -/
theorem completes_congr (h : SameUsers s t)
    (hinvoice : t.invoiceOf (callId env c) = s.invoiceOf (callId env c))
    (hpayment : t.paymentOf (callId env c) = s.paymentOf (callId env c)) :
    completes env t c = completes env s c := by
  by_cases hreports : ∃ r, Reports env s c r
  · obtain ⟨r, hrep⟩ := hreports
    obtain ⟨user, hpk, hrep'⟩ := hrep.congr h
    have hid : r.external_id = callId env c := hrep.arguments.2.2.2
    unfold Reports at hrep hrep'
    simp only [completes, hrep, hrep', fits, closed, hid, hinvoice, hpayment, hpk]
    rfl
  · have hnot : ∀ r, ¬ Reports env s c r := fun r hrep => hreports ⟨r, hrep⟩
    have hnot' : ∀ r, ¬ Reports env t c r := by
      intro r hrep
      obtain ⟨user, _, hback⟩ := hrep.congr h.symm
      exact hnot _ hback
    rw [completes_of_not_reports hnot, completes_of_not_reports hnot']

/-! ## The activation -/

/-- The subscription of the user is written for the invoice. -/
structure Activates (env : Env) (s t : Store) (r : Report) (invoice : Invoice) : Prop where
  users : SameUsers s t
  subscriptions : ∀ subscription,
    (s.subscriptions.find? fun u => u.user_id == r.user.pk) = some subscription →
      t.subscriptions =
        s.subscriptions.set (subscriptionWith env invoice r.plan_key r.now subscription)

/-- Users and subscriptions stay. -/
structure LeavesSubscriptions (s t : Store) : Prop where
  users : SameUsers s t
  subscriptions : t.subscriptions = s.subscriptions

theorem rewardReferrer_frame (env : Env) (s : Store) (user : User) (invoice : Invoice) :
    LeavesSubscriptions s (rewardReferrer env s user invoice) := by
  unfold rewardReferrer
  split
  · exact ⟨SameUsers.refl s, rfl⟩
  · split
    · exact ⟨SameUsers.refl s, rfl⟩
    · dsimp only
      split
      · exact ⟨SameUsers.refl s, rfl⟩
      · refine ⟨?_, rfl⟩
        intro n
        rw [Table.get?_set, Option.isSome_map]

theorem activate_activates
    (h : activateSubscriptionAndReferral env s r.user invoice r.plan_key r.now = .ok t) :
    Activates env s t r invoice := by
  unfold activateSubscriptionAndReferral at h
  dsimp only at h
  split at h
  · next hnone =>
    cases h
    refine ⟨SameUsers.refl s, ?_⟩
    intro subscription hfound
    rw [hfound, hfound] at hnone
    cases hnone
  · next subscription hsubscription =>
    split at h
    · cases h
      refine ⟨(rewardReferrer_frame env _ r.user invoice).users, ?_⟩
      intro found hfound
      rw [(rewardReferrer_frame env _ r.user invoice).subscriptions]
      rw [hfound] at hsubscription
      dsimp only at hsubscription
      rw [hfound] at hsubscription
      cases hsubscription
      simp only [hfound]
    · cases h

/-- The subscription is written on the first completion only. -/
theorem record_subscriptions {payment : Payment} {status : PaymentStatus} {was : Bool}
    (h : record env s r invoice payment status was = .ok o) :
    (status = .completed ∧ was = false → Activates env s o.store r
        { invoice with paid := invoice.paid || status == .completed }) ∧
      (¬ (status = .completed ∧ was = false) → LeavesSubscriptions s o.store) := by
  unfold record at h
  dsimp only at h
  split at h
  · cases h
  · split at h
    · next hfirst =>
      split at h
      · next s' hact =>
        cases h
        have hwrites := activate_activates hact
        exact ⟨fun _ => ⟨hwrites.users, hwrites.subscriptions⟩, fun hnot => absurd hfirst hnot⟩
      · cases h
    · next hfirst =>
      cases h
      exact ⟨fun h => absurd h hfirst, fun _ => ⟨SameUsers.refl s, rfl⟩⟩

/-! ## The rows -/

/-- The rows under the id stay. -/
structure SameRows (s t : Store) (e : String) : Prop where
  invoice : t.invoiceOf e = s.invoiceOf e
  payment : t.paymentOf e = s.paymentOf e

theorem SameRows.refl (s : Store) (e : String) : SameRows s s e := ⟨rfl, rfl⟩

theorem SameRows.trans {u : Store} {e : String} (h : SameRows s t e) (h' : SameRows t u e) :
    SameRows s u e := ⟨h'.invoice.trans h.invoice, h'.payment.trans h.payment⟩

theorem closed_congr {u : ℕ} {e : String} (h : SameRows s t e) : closed t u e = closed s u e := by
  simp only [closed, h.invoice, h.payment]

/-- What `record` writes under the id, and that it writes nothing else. -/
theorem record_rows {payment : Payment} {status : PaymentStatus} {was : Bool} {row : Invoice}
    (hrow : s.invoiceOf r.external_id = some row) (hpk : invoice.pk = row.pk)
    (hid : invoice.external_id = some r.external_id)
    (hpay : s.paymentOf r.external_id = some payment)
    (h : record env s r invoice payment status was = .ok o) :
    (∀ e, e ≠ r.external_id → SameRows s o.store e) ∧
      o.store.paymentOf r.external_id = some (paymentWith r invoice status payment) := by
  obtain ⟨hinvoices, hpayments, _⟩ := record_spec h
  have hpid : payment.external_id = some r.external_id := by
    simpa using Table.of_find? hpay
  have hinvoice : ∀ e, o.store.invoiceOf e = if e = r.external_id
      then some { invoice with paid := invoice.paid || status == .completed }
      else s.invoiceOf e := by
    intro e
    have hkey := Table.find?_set_key (f := Invoice.external_id)
      (r := { invoice with paid := invoice.paid || status == .completed }) hrow hpk hid (some e)
    simp only [Store.invoiceOf, hinvoices, hkey, Option.some.injEq]
  have hpayment : ∀ e, o.store.paymentOf e = if e = r.external_id
      then some (paymentWith r invoice status payment) else s.paymentOf e := by
    intro e
    have hkey := Table.find?_set_key (f := Payment.external_id)
      (r := paymentWith r invoice status payment) hpay rfl hpid (some e)
    simp only [Store.paymentOf, hpayments, hkey, Option.some.injEq]
  refine ⟨?_, by rw [hpayment, if_pos rfl]⟩
  intro e he
  exact ⟨by rw [hinvoice, if_neg he], by rw [hpayment, if_neg he]⟩

/-! ## One call -/

/-- A completed report never leaves a payment open. -/
theorem merge_completed (current : PaymentStatus) : Terminal (merge current .completed) := by
  unfold Terminal
  cases current <;> decide

/-- A payment that is open is completed for the first time. -/
theorem first_completion (current : PaymentStatus) (paid : Bool) :
    (current == .completed || current == .refunded || paid) = false ↔
      merge current .completed = .completed ∧ (current == .completed || paid) = false := by
  cases current <;> cases paid <;> decide

theorem closed_of_terminal {u : ℕ} {e : String} {p : Payment} (hp : s.paymentOf e = some p)
    (hterminal : Terminal p.status) : closed s u e = true := by
  rcases hterminal with hstatus | hstatus
  · simp [closed, hp, hstatus]
  · simp [closed, hp, hstatus]

theorem get_amend_subscription_id (r : Report) (invoice : Invoice) :
    (amend r invoice).metadata.get "subscription_id" = invoice.metadata.get "subscription_id" := by
  have hplan : "subscription_id" ≠ "plan" := by decide
  have hprovider : "subscription_id" ≠ "provider" := by decide
  have hpayment : "subscription_id" ≠ "payment" := by decide
  unfold amend
  dsimp only
  rw [Dict.get_insert, if_neg hpayment, Dict.get_insert, if_neg hprovider]
  split
  · rw [Dict.get_insert, if_neg hplan]
  · rfl

theorem get_amend_provider (r : Report) (invoice : Invoice) :
    (amend r invoice).metadata.get "provider" = .str r.provider := by
  have hpayment : "provider" ≠ "payment" := by decide
  unfold amend
  dsimp only
  rw [Dict.get_insert, if_neg hpayment, Dict.get_insert, if_pos rfl]

/-- The report completes its payment: from then on it is done, and the subscription is written for
the invoice. -/
structure CompletesPayment (env : Env) (s t : Store) (r : Report) (invoice : Invoice) : Prop where
  closed_after : closed t r.user.pk r.external_id = true
  activates : ∃ row : Invoice, row.metadata = (amend r invoice).metadata ∧ Activates env s t r row

/-- The report leaves the subscription alone, and its payment as it was or closed. -/
structure LeavesPayment (s t : Store) (r : Report) : Prop where
  subscriptions : LeavesSubscriptions s t
  rows : SameRows s t r.external_id ∨
    closed s r.user.pk r.external_id = true ∧ closed t r.user.pk r.external_id = true

/-- A completed report of an owned payment, from the checks on. -/
theorem record_renewal {payment : Payment} {row : Invoice}
    (hrow : s.invoiceOf r.external_id = some invoice) (hpk : row.pk = invoice.pk)
    (hid : row.external_id = some r.external_id)
    (hmetadata : row.metadata = (amend r invoice).metadata)
    (hpay : s.paymentOf r.external_id = some payment) (howner : payment.user_id = r.user.pk)
    (h : record env s r row payment (merge payment.status .completed)
      (payment.status == .completed || invoice.paid) = .ok o) :
    (∀ e, e ≠ r.external_id → SameRows s o.store e) ∧
      (closed s r.user.pk r.external_id = false → CompletesPayment env s o.store r invoice) ∧
      (closed s r.user.pk r.external_id = true → LeavesPayment s o.store r) := by
  obtain ⟨hothers, hpayment⟩ := record_rows hrow hpk hid hpay h
  obtain ⟨hfirst, hagain⟩ := record_subscriptions h
  have hclosed : closed o.store r.user.pk r.external_id = true :=
    closed_of_terminal hpayment (merge_completed payment.status)
  -- the payment was open exactly if this is its first completion
  have hopen : closed s r.user.pk r.external_id = false ↔
      merge payment.status .completed = .completed ∧
        (payment.status == .completed || invoice.paid) = false := by
    rw [← first_completion]
    simp only [closed, hpay, hrow, Option.any_some, howner, bne_self_eq_false, Bool.false_or]
  refine ⟨hothers, ?_, ?_⟩
  · intro hbefore
    refine ⟨hclosed, _, ?_, hfirst (hopen.mp hbefore)⟩
    exact hmetadata
  · intro hbefore
    refine ⟨hagain fun hcase => ?_, Or.inr ⟨hbefore, hclosed⟩⟩
    rw [hopen.mpr hcase] at hbefore
    cases hbefore

/-- The store with the payment that the report creates. -/
def withPayment (s : Store) (r : Report) (invoice : Invoice) : Store :=
  { s with payments := s.payments.create _ (pk_freshPayment r (amend r invoice)) }

/-- A completed report that creates its payment. -/
theorem record_created (hrow : s.invoiceOf r.external_id = some invoice)
    (hid : (amend r invoice).external_id = some r.external_id)
    (h : record env (withPayment s r invoice) r (amend r invoice)
      (freshPayment r (amend r invoice) s.payments.nextPk) .completed false = .ok o) :
    (∀ e, e ≠ r.external_id → SameRows s o.store e) ∧
      CompletesPayment env s o.store r invoice := by
  have hcreated : ∀ e, (withPayment s r invoice).paymentOf e =
      if e = r.external_id then some (freshPayment r (amend r invoice) s.payments.nextPk)
      else s.paymentOf e := by
    intro e
    rw [paymentOf_eq, paymentOf_eq, withPayment, Table.find?_create]
    by_cases he : e = r.external_id
    · rw [if_pos he, if_pos]
      simp [freshPayment, he]
    · rw [if_neg he, if_neg]
      simpa [freshPayment] using fun h => he h.symm
  have hfresh := (hcreated r.external_id).trans (if_pos rfl)
  have hsame : (withPayment s r invoice).invoiceOf r.external_id = some invoice := hrow
  obtain ⟨hothers, hpayment⟩ := record_rows hsame amend_pk hid hfresh h
  obtain ⟨hfirst, _⟩ := record_subscriptions h
  refine ⟨?_, closed_of_terminal hpayment (Or.inl rfl), _, ?_, (hfirst ⟨rfl, rfl⟩).users,
    (hfirst ⟨rfl, rfl⟩).subscriptions⟩
  · intro e he
    exact ⟨(hothers e he).invoice, ((hothers e he).payment.trans (hcreated e)).trans (if_neg he)⟩
  · rfl

/-- From the invoice on. -/
theorem settle_renewal (hinvoice : s.invoiceOf r.external_id = some invoice)
    (hstatus : r.status = .completed) (h : settle env s r invoice = .ok o) :
    (∀ e, e ≠ r.external_id → SameRows s o.store e) ∧
      (check env.host r invoice = none → closed s r.user.pk r.external_id = false →
        CompletesPayment env s o.store r invoice) ∧
      (check env.host r invoice ≠ none ∨ closed s r.user.pk r.external_id = true →
        LeavesPayment s o.store r) := by
  have hunchanged : LeavesPayment s s r :=
    ⟨⟨SameUsers.refl s, rfl⟩, Or.inl (SameRows.refl s r.external_id)⟩
  have hfound : invoice.external_id = some r.external_id := by
    simpa using Table.of_find? hinvoice
  have hid : (amend r invoice).external_id = some r.external_id := by
    simp only [amend, hfound]
    split <;> rfl
  unfold settle at h
  cases hcheck : check env.host r invoice with
  | some why =>
    rw [hcheck] at h
    cases h
    refine ⟨fun e _ => SameRows.refl s e, ?_, fun _ => hunchanged⟩
    intro hnone
    cases hnone
  | none =>
    rw [hcheck] at h
    dsimp only at h
    cases hpay : s.paymentOf r.external_id with
    | none =>
      rw [hpay] at h
      dsimp only at h
      split at h
      · rw [hstatus] at h
        obtain ⟨hothers, hcompletes⟩ := record_created hinvoice hid h
        have hopen : closed s r.user.pk r.external_id = false := by simp [closed, hpay]
        refine ⟨hothers, fun _ _ => hcompletes, ?_⟩
        rintro (hbad | hclosed)
        · exact absurd rfl hbad
        · rw [hopen] at hclosed
          cases hclosed
      · cases h
    | some payment =>
      rw [hpay] at h
      dsimp only at h
      split at h
      · next howner =>
        cases h
        have hclosed : closed s r.user.pk r.external_id = true := by
          simp [closed, hpay, howner]
        refine ⟨fun e _ => SameRows.refl s e, ?_, fun _ => hunchanged⟩
        intro _ hopen
        rw [hclosed] at hopen
        cases hopen
      · next howner =>
        rw [not_not] at howner
        rw [hstatus] at h
        obtain ⟨hothers, hopen, hclosed⟩ :=
          record_renewal hinvoice amend_pk hid rfl hpay howner h
        refine ⟨hothers, fun _ => hopen, ?_⟩
        rintro (hbad | hbefore)
        · exact absurd rfl hbad
        · exact hclosed hbefore

theorem lookupInvoice_renewal (hreference : r.reference.truthy = false) :
    lookupInvoice s r = s.invoiceOf r.external_id := by
  unfold lookupInvoice Store.invoiceOf
  cases s.invoices.find? fun i => i.external_id == some r.external_id with
  | some invoice => rfl
  | none => simp [hreference]

/-- The store with the invoice that the report creates. -/
def withInvoice (s : Store) (r : Report) : Store :=
  { s with invoices := s.invoices.create _ (pk_freshInvoice r) }

theorem invoiceOf_withInvoice (s : Store) (r : Report) (e : String) :
    (withInvoice s r).invoiceOf e =
      if e = r.external_id then some (freshInvoice r s.invoices.nextPk) else s.invoiceOf e := by
  simp only [Store.invoiceOf, withInvoice]
  rw [Table.find?_create]
  by_cases he : e = r.external_id
  · rw [if_pos he, if_pos]
    simp [freshInvoice, he]
  · rw [if_neg he, if_neg]
    simpa [freshInvoice] using fun h => he h.symm

theorem closed_withInvoice (hnone : s.invoiceOf r.external_id = none) {u : ℕ} :
    closed (withInvoice s r) u r.external_id = closed s u r.external_id := by
  have hpayment : (withInvoice s r).paymentOf r.external_id = s.paymentOf r.external_id := rfl
  simp only [closed, hpayment, hnone, invoiceOf_withInvoice, if_true, Option.any_some,
    Option.any_none, freshInvoice_paid]

/-- What a completed report does that reaches a store, given whether it completes its payment. -/
structure ReportEffect (env : Env) (s t : Store) (r : Report) : Prop where
  others : ∀ e, e ≠ r.external_id → SameRows s t e
  completes : fits env s r = true → closed s r.user.pk r.external_id = false →
    ∃ invoice, linkText env invoice = linkOf env s r.external_id ∧
      CompletesPayment env s t r invoice
  leaves : ¬ (fits env s r = true ∧ closed s r.user.pk r.external_id = false) →
    LeavesPayment s t r

/-- A report that is refused at once. -/
theorem reportEffect_refl (hfits : fits env s r = false) : ReportEffect env s s r where
  others e _ := SameRows.refl s e
  completes htrue := by
    rw [hfits] at htrue
    cases htrue
  leaves _ := ⟨⟨SameUsers.refl s, rfl⟩, Or.inl (SameRows.refl s r.external_id)⟩

/-- The report creates its invoice. -/
theorem reportEffect_created (hlookup : s.invoiceOf r.external_id = none)
    (hpos : 0 ≤ r.amount_minor) (hstatus : r.status = .completed)
    (h : settle env (withInvoice s r) r (freshInvoice r s.invoices.nextPk) = .ok o) :
    ReportEffect env s o.store r := by
  have hfresh := (invoiceOf_withInvoice s r r.external_id).trans (if_pos rfl)
  have hcheck := check_freshInvoice env.host r s.invoices.nextPk hpos
  have hfits : fits env s r = true := by simpa [fits, hlookup] using hpos
  obtain ⟨hothers, hopen, hclosed⟩ := settle_renewal hfresh hstatus h
  rw [closed_withInvoice hlookup] at hopen hclosed
  refine ⟨?_, ?_, ?_⟩
  · intro e he
    have hsame : SameRows s (withInvoice s r) e :=
      ⟨(invoiceOf_withInvoice s r e).trans (if_neg he), rfl⟩
    exact hsame.trans (hothers e he)
  · intro _ hbefore
    obtain ⟨hafter, row, hmetadata, hactivates⟩ := hopen hcheck hbefore
    refine ⟨freshInvoice r s.invoices.nextPk, ?_, hafter, row, hmetadata, hactivates.users,
      hactivates.subscriptions⟩
    -- its metadata has the subscription id one level further down
    simp only [linkText, linkOf, hlookup]
    rfl
  · intro hnot
    have hbefore : closed s r.user.pk r.external_id = true := by
      by_contra hopen
      exact hnot ⟨hfits, by simpa using hopen⟩
    obtain ⟨hsubscriptions, hrows⟩ := hclosed (Or.inr hbefore)
    refine ⟨⟨hsubscriptions.users, hsubscriptions.subscriptions⟩, Or.inr ⟨hbefore, ?_⟩⟩
    rcases hrows with hsame | ⟨_, hafter⟩
    · rw [closed_congr hsame, closed_withInvoice hlookup]
      exact hbefore
    · exact hafter

/-- The report is about an invoice of the user. -/
theorem reportEffect_found (hlookup : s.invoiceOf r.external_id = some invoice)
    (howner : invoice.user_id = r.user.pk) (hstatus : r.status = .completed)
    (h : settle env s r invoice = .ok o) : ReportEffect env s o.store r := by
  obtain ⟨hothers, hopen, hclosed⟩ := settle_renewal hlookup hstatus h
  have hfits : fits env s r = true ↔ check env.host r invoice = none := by
    simp [fits, hlookup, howner]
  refine ⟨hothers, ?_, ?_⟩
  · intro htrue hbefore
    refine ⟨invoice, ?_, hopen (hfits.mp htrue) hbefore⟩
    simp only [linkText, linkOf, hlookup]
  · intro hnot
    apply hclosed
    by_cases hcheck : check env.host r invoice = none
    · right
      by_contra hopen
      exact hnot ⟨hfits.mpr hcheck, by simpa using hopen⟩
    · exact Or.inl hcheck

/-- What a completed report without a reference does in a transaction that returns. -/
theorem transaction_renewal (hreference : r.reference.truthy = false)
    (hrequire : r.require_existing_invoice = false) (hstatus : r.status = .completed)
    (h : transaction env s r = .ok o) : ReportEffect env s o.store r := by
  unfold transaction at h
  rw [lookupInvoice_renewal hreference] at h
  cases hlookup : s.invoiceOf r.external_id with
  | none =>
    rw [hlookup] at h
    simp only [hrequire, Bool.false_eq_true, if_false] at h
    split at h
    · cases h
    · next hpos =>
      split at h
      · exact reportEffect_created hlookup (not_lt.mp hpos) hstatus h
      · cases h
  | some invoice =>
    rw [hlookup] at h
    dsimp only at h
    split at h
    · next howner =>
      -- somebody else's invoice
      cases h
      exact reportEffect_refl (by simp [fits, hlookup, howner])
    · next howner => exact reportEffect_found hlookup (not_not.mp howner) hstatus h

/-! ## The calls of an event -/

/-- What every report of the call says, if it reports at all. -/
structure RenewalReport (user_id : ℕ) (plan_key : String) (r : Report) : Prop where
  user : r.user.pk = user_id
  plan : r.plan_key = plan_key
  provider : r.provider = "intasend"
  reference : r.reference.truthy = false
  require : r.require_existing_invoice = false
  status : r.status = .completed

/-- A call for a completed payment of a subscription. -/
def IsRenewal (env : Env) (user_id : ℕ) (plan_key : String) (c : Call) : Prop :=
  ∀ s r, Reports env s c r → RenewalReport user_id plan_key r

/-- The metadata of the calls. -/
def renewalMetadata (env : Env) (data : Dict) (subscription_id : String)
    (subscription : Subscription) : Dict :=
  [("user_id", .int subscription.user_id), ("plan", .str subscription.plan),
    ("provider", .str "intasend"), ("subscription_id", .str subscription_id),
    ("subscription_event", .bool true), ("provider_payload", sanitize env.host (.dict data))]

theorem referenceParts_none (h : Host) : referenceParts h .none = (none, "") := by
  have hsplit : split '-' "" = [""] := by decide
  have htext : textOr h .none "" = "" := rfl
  unfold referenceParts
  rw [htext, hsplit]

theorem resolve_renewal (data : Dict) (subscription_id : String) (subscription : Subscription) :
    resolveUserAndPlan env.host (.dict (renewalMetadata env data subscription_id subscription)) =
      .ok (if subscription.user_id = 0 then none else some (subscription.user_id : ℤ),
        upper env.host subscription.plan) := by
  have hnested : resolveNested env.host
      (renewalMetadata env data subscription_id subscription) = .ok none := by
    simp [renewalMetadata, resolveNested]
  have hplan : textOr env.host
      ((renewalMetadata env data subscription_id subscription).firstOf ["plan", "plan_key"]) "" =
        subscription.plan := by
    have hfirst : (renewalMetadata env data subscription_id subscription).firstOf
        ["plan", "plan_key"] = (Value.str subscription.plan).or .none := by
      simp [renewalMetadata, Dict.firstOf, Dict.get, List.lookup_cons]
    rw [hfirst]
    by_cases hempty : subscription.plan = ""
    · simp [textOr, Value.or, Value.truthy, hempty]
    · simp [textOr, Value.or, Value.truthy, hempty]
  have huser : (renewalMetadata env data subscription_id subscription).firstOf
      ["user_id", "userId"] = (Value.int subscription.user_id).or .none := by
    simp [renewalMetadata, Dict.firstOf, Dict.get, List.lookup_cons]
  have hreference : (renewalMetadata env data subscription_id subscription).firstOf
      ["api_ref", "reference", "merchant_reference", "OrderMerchantReference"] = .none := by
    simp [renewalMetadata, Dict.firstOf, Dict.get, List.lookup_cons, Value.or, Value.truthy]
  have hid : userIdOf env.host (((Value.int subscription.user_id).or .none).or (ofInt? none)) =
      .ok (if subscription.user_id = 0 then none else some (subscription.user_id : ℤ)) := by
    by_cases hzero : subscription.user_id = 0
    · simp [userIdOf, Value.or, Value.truthy, ofInt?, hzero]
    · simp [userIdOf, Value.or, Value.truthy, Value.toInt, hzero]
  have htext : ∀ plan : String, orText plan "" = plan := by
    intro plan
    unfold orText
    split
    · next hempty => exact hempty.symm
    · rfl
  rw [resolveUserAndPlan, hnested]
  refine bind_ok.mpr ⟨none, rfl, ?_⟩
  unfold resolveFrom
  simp only [hplan, huser, hreference, referenceParts_none]
  exact bind_ok.mpr ⟨_, hid, by rw [htext]; rfl⟩

/-- Every call of a recurring event is a renewal, if its payment is completed. -/
theorem recurringCall_renewal {data : Dict} {subscription_id : String} {subscription : Subscription}
    {now : Time} {item : Value} (hlower : env.host.lower "intasend" = "intasend")
    (hcall : recurringCall env data subscription_id subscription now item = .ok (some c))
    (hcompleted : callStatus env c = .completed) :
    IsRenewal env subscription.user_id (upper env.host subscription.plan) c := by
  have hfields : c.provider = .str "intasend" ∧ c.require_existing_invoice = false ∧
      c.metadata = .dict (renewalMetadata env data subscription_id subscription) := by
    unfold recurringCall at hcall
    dsimp only at hcall
    split at hcall
    · cases hcall
    · split at hcall
      · cases hcall
      · cases hcall
        exact ⟨rfl, rfl, rfl⟩
  obtain ⟨hprovider, hrequire, hmetadata⟩ := hfields
  have htext : env.host.lower (strip (textOr env.host (.str "intasend") "")) = "intasend" := by
    have hstrip : strip "intasend" = "intasend" := by decide +kernel
    rw [textOr_str, hstrip, hlower]
  intro s r hrep
  have hstatus : r.status = .completed := hrep.arguments.2.2.1.trans hcompleted
  unfold Reports enter at hrep
  rw [hprovider, hmetadata, hrequire] at hrep
  dsimp only at hrep
  split at hrep
  · cases hrep
  · obtain ⟨resolved, hresolved, hrep⟩ := bind_ok.mp hrep
    have hsame : resolveUserAndPlan env.host
        (.dict (renewalMetadata env data subscription_id subscription)) = .ok resolved := hresolved
    rw [resolve_renewal] at hsame
    obtain rfl := Except.ok.inj hsame
    dsimp only at hrep
    split at hrep
    · cases hrep
    · next user huser =>
      obtain ⟨amount, _, hrep⟩ := bind_ok.mp hrep
      cases hrep
      have hpk : user.pk = subscription.user_id := by
        by_cases hzero : subscription.user_id = 0
        · rw [if_pos hzero] at huser
          cases huser
        · rw [if_neg hzero] at huser
          have hpos : (0 : ℤ) < subscription.user_id := by omega
          simp only [findUser, if_pos hpos, Int.toNat_natCast] at huser
          exact Table.pk_of_get? huser
      refine ⟨hpk, rfl, htext, ?_, rfl, hstatus⟩
      simp [Report.reference, renewalMetadata, Value.asDict, Dict.firstOf, Dict.get,
        List.lookup_cons, Value.or, Value.truthy]

/-- The row of the user gets this link, and the flag that goes with it. -/
def Writes (s t : Store) (user_id : ℕ) (plan_key link : String) : Prop :=
  ∀ subscription, (s.subscriptions.find? fun u => u.user_id == user_id) = some subscription →
    ∃ row : Subscription, t.subscriptions = s.subscriptions.set row ∧ row.pk = subscription.pk ∧
      row.user_id = subscription.user_id ∧ row.provider_subscription_id = link ∧
      (row.recurring = true ↔ plan_key ≠ "FREE" ∧ link ≠ "")

theorem writes_of_completes {user_id : ℕ} {plan_key : String}
    (hlower : env.host.lower "intasend" = "intasend") (hreport : RenewalReport user_id plan_key r)
    (h : CompletesPayment env s t r invoice) :
    Writes s t user_id plan_key (linkText env invoice) := by
  obtain ⟨_, row, hmetadata, hactivates⟩ := h
  intro subscription hfound
  rw [← hreport.user] at hfound
  refine ⟨_, hactivates.subscriptions subscription hfound, rfl, rfl, ?_, ?_⟩
  · simp only [subscriptionWith, hmetadata, get_amend_subscription_id]
    rfl
  · have hprovider : env.host.lower (textOr env.host (row.metadata.get "provider") "") =
        "intasend" := by
      rw [hmetadata, get_amend_provider, textOr_str, hreport.provider, hlower]
    have hlink : strip (textOr env.host (row.metadata.get "subscription_id") "") =
        linkText env invoice := by
      rw [hmetadata, get_amend_subscription_id]
      rfl
    have hplan : (if r.plan_key ∈ planChoices then r.plan_key else "") ≠ "FREE" ↔
        plan_key ≠ "FREE" := by
      rw [hreport.plan]
      by_cases hfree : plan_key = "FREE"
      · simp [hfree, planChoices]
      · by_cases hchoice : plan_key ∈ planChoices
        · rw [if_pos hchoice]
        · rw [if_neg hchoice]
          simp [hfree]
    simp only [subscriptionWith, hprovider, hlink, decide_eq_true_eq, hplan, true_and]

/-- What a call for a completed payment does. -/
structure CallEffect (env : Env) (s t : Store) (user_id : ℕ) (plan_key : String) (c : Call) :
    Prop where
  users : SameUsers s t
  others : ∀ e, e ≠ callId env c → SameRows s t e
  writes : completes env s c = true → closed t user_id (callId env c) = true ∧
    Writes s t user_id plan_key (linkOf env s (callId env c))
  leaves : completes env s c = false → t.subscriptions = s.subscriptions ∧
    (SameRows s t (callId env c) ∨
      closed s user_id (callId env c) = true ∧ closed t user_id (callId env c) = true)

theorem callEffect_of_not_reports {user_id : ℕ} {plan_key : String} (h : ∀ r, ¬ Reports env s c r) :
    CallEffect env s s user_id plan_key c where
  users := SameUsers.refl s
  others e _ := SameRows.refl s e
  writes hcompletes := by
    rw [completes_of_not_reports h] at hcompletes
    cases hcompletes
  leaves _ := ⟨rfl, Or.inl (SameRows.refl s (callId env c))⟩

theorem call_renewal {user_id : ℕ} {plan_key : String}
    (hlower : env.host.lower "intasend" = "intasend") (hcall : IsRenewal env user_id plan_key c)
    (hok : reconcile env s c = .ok o) : CallEffect env s o.store user_id plan_key c := by
  unfold reconcile at hok
  obtain ⟨entry, hentry, hok⟩ := bind_ok.mp hok
  have hnot : (∀ r, entry ≠ .report r) → ∀ r, ¬ Reports env s c r := by
    intro hother r hrep
    unfold Reports at hrep
    rw [hentry] at hrep
    exact hother r (Except.ok.inj hrep)
  cases entry with
  | no_external_id =>
    cases hok
    exact callEffect_of_not_reports (hnot fun r => nofun)
  | unresolved_user provider status external_id =>
    cases hok
    exact callEffect_of_not_reports (hnot fun r => nofun)
  | report r =>
    have hrep : Reports env s c r := hentry
    have hid : r.external_id = callId env c := hrep.arguments.2.2.2
    have hreport := hcall s r hrep
    obtain ⟨hothers, hopen, hleaves⟩ :=
      transaction_renewal hreport.reference hreport.require hreport.status hok
    have hcompletes : completes env s c = true ↔
        fits env s r = true ∧ closed s r.user.pk r.external_id = false := by
      unfold completes
      rw [hentry]
      simp
    rw [← hcompletes] at hleaves
    have hpays : completes env s c = true → ∃ invoice,
        linkText env invoice = linkOf env s r.external_id ∧
          CompletesPayment env s o.store r invoice := by
      intro hcompleted
      obtain ⟨hfits, hbefore⟩ := hcompletes.mp hcompleted
      exact hopen hfits hbefore
    refine ⟨?_, ?_, ?_, ?_⟩
    · by_cases hcompleted : completes env s c = true
      · obtain ⟨_, _, hpayment⟩ := hpays hcompleted
        obtain ⟨_, _, _, hactivates⟩ := hpayment
        exact hactivates.users
      · exact (hleaves hcompleted).subscriptions.users
    · rw [← hid]
      exact hothers
    · intro hcompleted
      obtain ⟨invoice, hlink, hpayment⟩ := hpays hcompleted
      have hafter := hpayment.closed_after
      rw [hreport.user, hid] at hafter
      rw [← hid, ← hlink]
      rw [← hid] at hafter
      exact ⟨hafter, writes_of_completes hlower hreport hpayment⟩
    · intro hcompleted
      have hleft := hleaves (by rw [hcompleted]; exact Bool.false_ne_true)
      have hrows := hleft.rows
      rw [hreport.user, hid] at hrows
      exact ⟨hleft.subscriptions.subscriptions, hrows⟩

end AlgoBot.Billing
