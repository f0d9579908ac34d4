import AlgoBot.Core.Machine
import AlgoBot.Billing.Effect

/-!
# Sequences of reconciler calls

The reconciler as a machine: any call may come next, in any store. A call that
raises leaves the store as it was.

* `run_advances`: over any sequence no payment moves to a lower rank, completed
  and refunded payments stay, and a paid invoice stays paid.
* `activated_once`: an invoice is activated at most once, as long as no call
  completes a paid invoice under an external id without a payment row.
  `reactivates_activates` shows that such a call does activate it again.
* `paid_once`: an external id pays at most one invoice, as long as no call
  replays a completed payment against an unpaid invoice. `repays_pays` shows
  that such a call does pay it.
-/

namespace AlgoBot.Billing

open AlgoBot.Core AlgoBot.Python

variable {env : Env} {s t : Store} {c : Call} {r : Report} {invoice : Invoice} {o : Outcome}

/-! ## The machine -/

/-- The store after a call; an exception rolls the transaction back. -/
def after (env : Env) (s : Store) (c : Call) : Store :=
  match reconcile env s c with
  | .ok o => o.store
  | .error _ => s

/-- The invoice a call activates the subscription for, if it does. -/
def activated (env : Env) (s : Store) (c : Call) : Option ℕ :=
  match reconcile env s c with
  | .ok o => o.activated
  | .error _ => none

/-- Calls in any order. -/
def reconciler (env : Env) : Machine Store Call := ⟨fun s c => some (after env s c)⟩

theorem next_reconciler : (reconciler env).next s c = some (after env s c) := rfl

theorem eq_after (h : (reconciler env).next s c = some t) : t = after env s c := by
  rw [next_reconciler] at h
  exact (Option.some.inj h).symm

/-- The call gets to the transaction with this report. -/
def Reports (env : Env) (s : Store) (c : Call) (r : Report) : Prop :=
  enter env s c = .ok (.report r)

theorem Reports.unique {r' : Report} (h : Reports env s c r) (h' : Reports env s c r') :
    r = r' := by
  unfold Reports at h h'
  rw [h] at h'
  cases h'
  rfl

/-- What a report takes over from the arguments of its call. -/
theorem Reports.arguments (h : Reports env s c r) :
    minorUnits env.host c.amount = .ok r.amount_minor ∧
    r.currency = upper env.host (textOr env.host c.currency "USD") ∧
    r.status = normalizeStatus env.host c.status ∧
    r.external_id = strip (textOr env.host c.external_id "") := by
  unfold Reports enter at h
  dsimp only at h
  split at h
  · cases h
  · rcases bind_ok.mp h with ⟨res, _, h⟩
    split at h
    · cases h
    · rcases bind_ok.mp h with ⟨m, hm, h⟩
      simp only [pure, Except.pure, Except.ok.injEq, Entry.report.injEq] at h
      rw [← h]
      simp only [hm, and_self]

theorem after_of_ok (h : reconcile env s c = .ok o) : after env s c = o.store := by
  simp [after, h]

theorem activated_of_ok (h : reconcile env s c = .ok o) : activated env s c = o.activated := by
  simp [activated, h]

/-- The call records nothing: at most there is a new, unpaid invoice. -/
structure Idle (env : Env) (s : Store) (c : Call) : Prop where
  invoices : (after env s c).invoices = s.invoices ∨
    ∃ r, (after env s c).invoices = s.invoices.create _ (pk_freshInvoice r)
  payments : (after env s c).payments = s.payments
  events : (after env s c).events = s.events
  activated : activated env s c = none
  reply : ∀ o r k, reconcile env s c = .ok o → o.reply = some r → r.result ≠ .recorded k

theorem idle_of_ok (hok : reconcile env s c = .ok o)
    (hi : o.store.invoices = s.invoices ∨
      ∃ r, o.store.invoices = s.invoices.create _ (pk_freshInvoice r))
    (hp : o.store.payments = s.payments) (he : o.store.events = s.events)
    (ha : o.activated = none) (hr : ∀ r k, o.reply = some r → r.result ≠ .recorded k) :
    Idle env s c := by
  constructor
  · rwa [after_of_ok hok]
  · rwa [after_of_ok hok]
  · rwa [after_of_ok hok]
  · rwa [activated_of_ok hok]
  · intro o' r k hok'
    rw [hok] at hok'
    cases hok'
    exact hr r k

/-- A call records its report for an invoice, or changes nothing but a possible new invoice. -/
theorem call_cases (env : Env) (s : Store) (c : Call) :
    (∃ r invoice o, Reports env s c r ∧ reconcile env s c = .ok o ∧ Accepts env s r invoice ∧
      Recorded s r invoice o) ∨ Idle env s c := by
  cases hcall : reconcile env s c with
  | error e =>
    right
    constructor <;> simp [after, activated, hcall]
  | ok o =>
    have h := hcall
    unfold reconcile at h
    cases hent : enter env s c with
    | error e => simp [hent, bind, Except.bind] at h
    | ok entry =>
      simp only [hent, bind, Except.bind] at h
      cases entry with
      | no_external_id =>
        right
        cases h
        exact idle_of_ok hcall (Or.inl rfl) rfl rfl rfl (by simp)
      | unresolved_user provider status external_id =>
        right
        cases h
        exact idle_of_ok hcall (Or.inl rfl) rfl rfl rfl (by rintro _ k ⟨⟩; simp)
      | report r =>
        rcases transaction_cases h with ⟨invoice, hacc, hrec⟩ | ⟨_, href⟩
        · left
          exact ⟨r, invoice, o, hent, rfl, hacc, hrec⟩
        · right
          rcases href.reply with ⟨status, result, hreply, hres, _⟩
          apply idle_of_ok hcall _ href.payments href.events href.activated
          · intro r' k hr'
            rw [hreply] at hr'
            cases hr'
            exact hres k
          · rcases href.invoices with hi | hi
            · exact Or.inl hi
            · exact Or.inr ⟨r, hi⟩

/-- A call that returns with a report for the target has done what `Recorded` says. -/
theorem recorded_of_accepts (hrep : Reports env s c r) (hacc : Accepts env s r invoice)
    (hok : reconcile env s c = .ok o) : Recorded s r invoice o := by
  have htrans : transaction env s r = .ok o := by
    unfold Reports at hrep
    simpa [reconcile, hrep, bind, Except.bind] using hok
  rcases transaction_cases htrans with ⟨i, hacc', hrec⟩ | ⟨hrefused, _⟩
  · have hi := hacc.target.symm.trans hacc'.target
    cases hi
    exact hrec
  · exact absurd hacc (hrefused invoice)

/-! ## Paid invoices -/

theorem isPaid_create (r : Report) (k : ℕ)
    (h : t.invoices = s.invoices.create _ (pk_freshInvoice r)) : t.isPaid k = s.isPaid k := by
  unfold Store.isPaid
  rw [h]
  by_cases hk : k = s.invoices.nextPk
  · -- the new invoice is unpaid, and there was none under its key
    rw [hk, Table.get?_create_self, Table.get?_nextPk]
    rfl
  · rw [Table.get?_create_ne (pk_freshInvoice r) hk]

/-- The target of the transaction is the row the store has, or a new one. -/
theorem isPaid_target (h : target? s r = some invoice) : s.isPaid invoice.pk = invoice.paid := by
  unfold target? at h
  split at h
  · split at h
    · cases h
    · cases h
      show (s.invoices.get? s.invoices.nextPk).any Invoice.paid = false
      rw [Table.get?_nextPk]
      rfl
  · next i hi =>
    split at h
    · cases h
      have hrow : s.invoices.get? invoice.pk = some invoice :=
        Table.get?_pk (mem_of_lookupInvoice hi)
      simp [Store.isPaid, hrow]
    · cases h

theorem Recorded.isPaid (h : Recorded s r invoice o) (k : ℕ) :
    o.store.isPaid k =
      if k = invoice.pk then invoice.paid || mergedStatus s r == .completed else s.isPaid k := by
  unfold Store.isPaid
  rw [h.invoices k]
  by_cases hk : k = invoice.pk
  · simp [hk, settledInvoice]
  · simp [hk]

/-! ## Statuses and paid flags only move forward -/

/-- No payment loses rank, terminal payments keep their status and paid invoices stay paid. -/
structure Advances (s t : Store) : Prop where
  payments : ∀ k p, s.payments.get? k = some p →
    ∃ q, t.payments.get? k = some q ∧ rank p.status ≤ rank q.status ∧
      (Terminal p.status → q.status = p.status)
  invoices : ∀ k, s.isPaid k = true → t.isPaid k = true

theorem Advances.refl (s : Store) : Advances s s :=
  ⟨fun _ p hp => ⟨p, hp, le_refl _, fun _ => rfl⟩, fun _ h => h⟩

theorem Advances.trans {u : Store} (h : Advances s t) (h' : Advances t u) : Advances s u := by
  constructor
  · intro k p hp
    rcases h.payments k p hp with ⟨q, hq, hle, hterm⟩
    rcases h'.payments k q hq with ⟨q', hq', hle', hterm'⟩
    refine ⟨q', hq', le_trans hle hle', ?_⟩
    intro ht
    have heq := hterm ht
    rw [← heq]
    apply hterm'
    rw [heq]
    exact ht
  · intro k hk
    exact h'.invoices k (h.invoices k hk)

/-- One call moves forward. -/
theorem step_advances (env : Env) (s : Store) (c : Call) : Advances s (after env s c) := by
  rcases call_cases env s c with ⟨r, invoice, o, _, hok, hacc, hrec⟩ | hidle
  · rw [after_of_ok hok]
    constructor
    · intro k p hp
      rcases hrec.payments k p hp with ⟨q, hq, hst | hst⟩
      · exact ⟨q, hq, by rw [hst], fun _ => hst⟩
      · -- the payment the report is merged into
        refine ⟨q, hq, ?_, ?_⟩
        · rw [hst]
          exact rank_le_merge _ _
        · intro ht
          rw [hst, merge_of_terminal _ ht]
    · intro k hk
      rw [hrec.isPaid k]
      split
      · next heq =>
        rw [heq, isPaid_target hacc.target] at hk
        simp [hk]
      · exact hk
  · constructor
    · intro k p hp
      rw [hidle.payments]
      exact ⟨p, hp, le_refl _, fun _ => rfl⟩
    · intro k hk
      rcases hidle.invoices with hinv | ⟨r, hinv⟩
      · simpa [Store.isPaid, hinv] using hk
      · rw [isPaid_create r k hinv]
        exact hk

/-- Any sequence of calls moves forward, and can be made. -/
theorem run_advances (env : Env) (s : Store) (cs : List Call) :
    ∃ t, (reconciler env).exec s cs = some t ∧ Advances s t := by
  have henabled : ∀ s c, ((reconciler env).next s c).isSome = true := by
    intro s c
    rfl
  rcases Machine.run_of_enabled henabled s cs with ⟨t, hrun⟩
  refine ⟨t, hrun.exec_eq, ?_⟩
  apply hrun.preorder Advances.refl
  · intro s t u hst htu
    exact hst.trans htu
  · intro s c s' _ hs
    rw [eq_after hs]
    exact step_advances env s c

/-! ## A concrete store -/

/-- An unpaid invoice of 10.00 USD with an open checkout. -/
def firstInvoice : Invoice where
  pk := 1
  user_id := 7
  external_id := some "CHK1"
  amount_cents := 1000
  currency := "USD"
  paid := false
  metadata := [("reference", .str "IS-7-PRO-1")]

/-- Another one of the same user, whose checkout has not been opened. -/
def secondInvoice : Invoice :=
  { firstInvoice with
    pk := 2
    external_id := none
    metadata := [("reference", .str "IS-7-PRO-2")] }

/-- A user with both invoices. -/
def twoInvoices : Store :=
  { Store.empty with
    users := ⟨[⟨7, none⟩], by decide⟩
    invoices := ⟨[secondInvoice, firstInvoice], by decide⟩ }

/-- IntaSend reports 10.00 USD under an external id and a reference. -/
def reported (external_id status reference : String) : Call where
  provider := .str "intasend"
  external_id := .str external_id
  status := .str status
  amount := .str "10.00"
  currency := .str "USD"
  metadata := .dict [("api_ref", .str reference)]
  require_existing_invoice := false
  now := 0

/-! ## One activation for each invoice -/

/-- Whether a call activates the subscription for invoice `k`, as a count. -/
def activations (env : Env) (k : ℕ) (s : Store) (c : Call) : ℕ :=
  if activated env s c = some k then 1 else 0

/-- The call completes a paid invoice under an external id no payment row carries. -/
def reactivates (env : Env) (s : Store) (c : Call) : Bool :=
  match enter env s c with
  | .ok (.report r) =>
    (target? s r).any fun invoice =>
      invoice.paid && r.status == .completed && (s.paymentOf r.external_id).isNone &&
        (check env.host r invoice).isNone
  | _ => false

/-- A call that activates has completed, for the first time it could tell, a payment of the
invoice. -/
theorem of_activated {k : ℕ} (h : activated env s c = some k) :
    ∃ r invoice o, Reports env s c r ∧ reconcile env s c = .ok o ∧ Accepts env s r invoice ∧
      Recorded s r invoice o ∧ invoice.pk = k ∧ mergedStatus s r = .completed ∧
      wasCompleted s r invoice = false := by
  rcases call_cases env s c with ⟨r, invoice, o, hrep, hok, hacc, hrec⟩ | hidle
  · rw [activated_of_ok hok, hrec.activated] at h
    split at h
    · next hfirst =>
      cases h
      exact ⟨r, invoice, o, hrep, hok, hacc, hrec, rfl, hfirst.1, hfirst.2⟩
    · cases h
  · rw [hidle.activated] at h
    cases h

/-- Activating a paid invoice takes a report of the kind the guard excludes. -/
theorem reactivates_of_activated {k : ℕ} (h : activated env s c = some k)
    (hpaid : s.isPaid k = true) : reactivates env s c = true := by
  rcases of_activated h with ⟨r, invoice, o, hrep, _, hacc, _, hpk, hmerged, hwas⟩
  have hp : invoice.paid = true := by
    rw [← isPaid_target hacc.target, hpk]
    exact hpaid
  have hnone : s.paymentOf r.external_id = none := by
    cases hpay : s.paymentOf r.external_id with
    | none => rfl
    | some p => simp [wasCompleted, hpay, hp] at hwas
  have hst : r.status = .completed := by
    simpa [mergedStatus, Store.statusOf, hnone] using hmerged
  unfold Reports at hrep
  simp [reactivates, hrep, hacc.target, hp, hst, hnone, hacc.checked]

/-- And a report of that kind does activate it again, if the call returns. -/
theorem reactivates_activates (h : reactivates env s c = true) (hok : reconcile env s c = .ok o) :
    ∃ k, s.isPaid k = true ∧ activated env s c = some k := by
  unfold reactivates at h
  split at h
  · next r hrep =>
    rcases (Option.any_eq_true _ _).mp h with ⟨invoice, htarget, hall⟩
    simp only [Bool.and_eq_true, beq_iff_eq, Option.isNone_iff_eq_none] at hall
    rcases hall with ⟨⟨⟨hpaid, hst⟩, hnone⟩, hcheck⟩
    have hacc : Accepts env s r invoice :=
      ⟨htarget, hcheck, by simp [paymentOwned, hnone]⟩
    have hmerged : mergedStatus s r = .completed := by
      simp [mergedStatus, Store.statusOf, hnone, hst]
    have hrec := recorded_of_accepts hrep hacc hok
    refine ⟨invoice.pk, by rw [isPaid_target htarget, hpaid], ?_⟩
    rw [activated_of_ok hok, hrec.activated, if_pos]
    exact ⟨hmerged, by simp [wasCompleted, hnone]⟩
  · cases h

theorem isPaid_of_activated {k : ℕ} (h : activated env s c = some k) :
    (after env s c).isPaid k = true := by
  rcases of_activated h with ⟨r, invoice, o, _, hok, _, hrec, hpk, hmerged, _⟩
  rw [after_of_ok hok, hrec.isPaid k, if_pos hpk.symm]
  simp [hmerged]

/-- The subscription is activated at most once for each invoice, in every sequence of calls
that never completes a paid invoice under an external id without a payment row. -/
theorem activated_once (env : Env) (k : ℕ) {s t : Store} {cs : List Call}
    (h : (reconciler env).RunIf (fun s c => reactivates env s c = false) s cs t) :
    (reconciler env).total (activations env k) s cs ≤ 1 := by
  apply Machine.RunIf.total_le_one (fun s => s.isPaid k = true) _ _ _ _ h
  · intro s c s' _ _
    unfold activations
    split <;> omega
  · intro s c s' _ hs hpaid
    rw [eq_after hs]
    exact (step_advances env s c).invoices k hpaid
  · -- a paid invoice is activated only by a report the guard excludes
    intro s c s' hg _ hpaid
    unfold activations
    rw [if_neg]
    intro hact
    rw [reactivates_of_activated hact hpaid] at hg
    cases hg
  · intro s c s' _ hs hcost
    rw [eq_after hs]
    apply isPaid_of_activated
    by_contra hne
    simp [activations, hne] at hcost

/-- The checkout reports twice: the second report is a plain repeat. -/
theorem activated_once_repeat :
    (reconciler .default).total (activations .default 1) twoInvoices
      [reported "CHK1" "COMPLETE" "IS-7-PRO-1", reported "CHK1" "COMPLETE" "IS-7-PRO-1"] ≤ 1 :=
  activated_once .default 1
    (.cons (by decide) rfl (.cons (by decide) rfl (.nil _)))

/-- The same purchase under the checkout id and then under the id of the invoice that was
settled: the subscription is activated twice. -/
theorem activated_twice :
    ¬ (reconciler .default).total (activations .default 1) twoInvoices
      [reported "CHK1" "COMPLETE" "IS-7-PRO-1", reported "INV1" "COMPLETE" "IS-7-PRO-1"] ≤ 1 := by
  decide +kernel

/-! ## One paid invoice for each external id -/

/-- The invoices that are paid in the second store but not in the first. -/
def newlyPaid (s t : Store) : List ℕ :=
  (t.invoices.rows.filter fun i => i.paid && !s.isPaid i.pk).map Invoice.pk

/-- How many invoices a call under external id `e` turns paid. -/
def invoicesPaid (env : Env) (e : String) (s : Store) (c : Call) : ℕ :=
  match enter env s c with
  | .ok (.report r) => if r.external_id = e then (newlyPaid s (after env s c)).length else 0
  | _ => 0

/-- How many subscriptions a call under external id `e` activates. -/
def activationsUnder (env : Env) (e : String) (s : Store) (c : Call) : ℕ :=
  match enter env s c with
  | .ok (.report r) => if r.external_id = e ∧ (activated env s c).isSome then 1 else 0
  | _ => 0

/-- The call replays an external id with a completed payment against an unpaid invoice. -/
def repays (env : Env) (s : Store) (c : Call) : Bool :=
  match enter env s c with
  | .ok (.report r) =>
    s.statusOf r.external_id == some .completed && paymentOwned s r &&
      (target? s r).any fun invoice => !invoice.paid && (check env.host r invoice).isNone
  | _ => false

theorem mem_newlyPaid {k : ℕ} : k ∈ newlyPaid s t ↔ s.isPaid k = false ∧ t.isPaid k = true := by
  unfold newlyPaid
  constructor
  · intro h
    rcases List.mem_map.mp h with ⟨i, hi, rfl⟩
    rw [List.mem_filter] at hi
    have hrow : t.invoices.get? i.pk = some i := Table.get?_pk hi.1
    have hflags := hi.2
    simp only [Bool.and_eq_true, Bool.not_eq_true'] at hflags
    exact ⟨hflags.2, by simp [Store.isPaid, hrow, hflags.1]⟩
  · rintro ⟨hs, ht⟩
    cases hrow : t.invoices.get? k with
    | none => simp [Store.isPaid, hrow] at ht
    | some i =>
      have hpk : i.pk = k := Table.pk_of_get? hrow
      have hpaid : i.paid = true := by simpa [Store.isPaid, hrow] using ht
      apply List.mem_map.mpr
      refine ⟨i, ?_, hpk⟩
      rw [List.mem_filter]
      exact ⟨(Table.get?_eq_some.mp hrow).1, by simp [hpaid, hpk, hs]⟩

theorem nodup_newlyPaid (s t : Store) : (newlyPaid s t).Nodup := by
  have hsub : (newlyPaid s t).Sublist (t.invoices.rows.map Invoice.pk) :=
    List.Sublist.map _ List.filter_sublist
  exact List.Nodup.sublist hsub t.invoices.nodup

/-- An invoice turns paid only by a report that completes a payment for it. -/
theorem of_mem_newlyPaid {k : ℕ} (h : k ∈ newlyPaid s (after env s c)) :
    ∃ r invoice o, Reports env s c r ∧ reconcile env s c = .ok o ∧ Accepts env s r invoice ∧
      Recorded s r invoice o ∧ invoice.pk = k ∧ invoice.paid = false ∧
      mergedStatus s r = .completed := by
  rcases mem_newlyPaid.mp h with ⟨hbefore, hafter⟩
  rcases call_cases env s c with ⟨r, invoice, o, hrep, hok, hacc, hrec⟩ | hidle
  · rw [after_of_ok hok, hrec.isPaid k] at hafter
    split at hafter
    · next hk =>
      have hunpaid : invoice.paid = false := by
        rw [← isPaid_target hacc.target, ← hk]
        exact hbefore
      have hmerged : mergedStatus s r = .completed := by simpa [hunpaid] using hafter
      exact ⟨r, invoice, o, hrep, hok, hacc, hrec, hk.symm, hunpaid, hmerged⟩
    · simp [hbefore] at hafter
  · rcases hidle.invoices with hinv | ⟨r, hinv⟩
    · simp [Store.isPaid, hinv] at hafter hbefore
      simp [hbefore] at hafter
    · rw [isPaid_create r k hinv, hbefore] at hafter
      cases hafter

/-- One call turns at most one invoice paid. -/
theorem length_newlyPaid_le_one (env : Env) (s : Store) (c : Call) :
    (newlyPaid s (after env s c)).length ≤ 1 := by
  have huniq : ∀ k ∈ newlyPaid s (after env s c), ∀ l ∈ newlyPaid s (after env s c), k = l := by
    intro k hk l hl
    rcases of_mem_newlyPaid hk with ⟨r, invoice, _, hrep, _, hacc, _, rfl, _⟩
    rcases of_mem_newlyPaid hl with ⟨r', invoice', _, hrep', _, hacc', _, rfl, _⟩
    have hr : r = r' := hrep.unique hrep'
    subst hr
    have hinv := hacc.target.symm.trans hacc'.target
    cases hinv
    rfl
  have hnodup := nodup_newlyPaid s (after env s c)
  revert huniq hnodup
  generalize newlyPaid s (after env s c) = l
  intro huniq hnodup
  match l with
  | [] => simp
  | [_] => simp
  | k :: m :: _ =>
    have hkm : k = m := huniq k (by simp) m (by simp)
    simp [hkm] at hnodup

theorem statusOf_after_of_completed {e : String} (h : s.statusOf e = some .completed) :
    (after env s c).statusOf e = some .completed := by
  rcases call_cases env s c with ⟨r, invoice, o, _, hok, _, hrec⟩ | hidle
  · rw [after_of_ok hok, hrec.status e]
    split
    · next he =>
      subst he
      simp [mergedStatus, h, merge_of_terminal r.status (Or.inl rfl)]
    · exact h
  · simpa [Store.statusOf, Store.paymentOf, hidle.payments] using h

/-- Paying another invoice with a completed payment takes a report the guard excludes. -/
theorem repays_of_mem_newlyPaid {k : ℕ} (hrep : Reports env s c r)
    (hst : s.statusOf r.external_id = some .completed) (h : k ∈ newlyPaid s (after env s c)) :
    repays env s c = true := by
  rcases of_mem_newlyPaid h with ⟨r', invoice, o, hrep', _, hacc, _, _, hunpaid, _⟩
  have hr : r = r' := hrep.unique hrep'
  subst hr
  unfold Reports at hrep
  simp [repays, hrep, hst, hacc.owned, hacc.target, hunpaid, hacc.checked]

/-- And a report of that kind does pay the invoice, if the call returns. -/
theorem repays_pays (h : repays env s c = true) (hok : reconcile env s c = .ok o) :
    ∃ k, k ∈ newlyPaid s (after env s c) := by
  unfold repays at h
  split at h
  · next r hrep =>
    simp only [Bool.and_eq_true, beq_iff_eq] at h
    rcases h with ⟨⟨hst, howned⟩, htarget⟩
    rcases (Option.any_eq_true _ _).mp htarget with ⟨invoice, htarget, hall⟩
    simp only [Bool.and_eq_true, Bool.not_eq_true', Option.isNone_iff_eq_none] at hall
    have hacc : Accepts env s r invoice := ⟨htarget, hall.2, howned⟩
    have hrec := recorded_of_accepts hrep hacc hok
    refine ⟨invoice.pk, mem_newlyPaid.mpr ⟨by rw [isPaid_target htarget, hall.1], ?_⟩⟩
    rw [after_of_ok hok, hrec.isPaid, if_pos rfl]
    simp [mergedStatus, hst, merge_of_terminal r.status (Or.inl rfl)]
  · cases h

/-- What pays an invoice is a completed payment afterwards. -/
theorem completed_of_mem_newlyPaid {k : ℕ} (hrep : Reports env s c r)
    (h : k ∈ newlyPaid s (after env s c)) :
    (after env s c).statusOf r.external_id = some .completed := by
  rcases of_mem_newlyPaid h with ⟨r', invoice, o, hrep', hok, _, hrec, _, _, hmerged⟩
  have hr : r = r' := hrep.unique hrep'
  subst hr
  rw [after_of_ok hok, hrec.status, if_pos rfl, hmerged]

/-- So is what activates a subscription. -/
theorem completed_of_activated {k : ℕ} (hrep : Reports env s c r)
    (h : activated env s c = some k) :
    (after env s c).statusOf r.external_id = some .completed := by
  rcases of_activated h with ⟨r', invoice, o, hrep', hok, _, hrec, _, hmerged, _⟩
  have hr : r = r' := hrep.unique hrep'
  subst hr
  rw [after_of_ok hok, hrec.status, if_pos rfl, hmerged]

/-- A completed payment row is what `was_completed` looks for, so it activates nothing. -/
theorem not_completed_of_activated {k : ℕ} (hrep : Reports env s c r)
    (h : activated env s c = some k) : s.statusOf r.external_id ≠ some .completed := by
  intro hst
  rcases of_activated h with ⟨r', invoice, o, hrep', _, _, _, _, _, hwas⟩
  have hr : r = r' := hrep.unique hrep'
  subst hr
  unfold Store.statusOf at hst
  rcases Option.map_eq_some_iff.mp hst with ⟨p, hp, hpst⟩
  simp [wasCompleted, hp, hpst] at hwas

theorem of_invoicesPaid_ne_zero {e : String} (h : invoicesPaid env e s c ≠ 0) :
    ∃ r k, Reports env s c r ∧ r.external_id = e ∧ k ∈ newlyPaid s (after env s c) := by
  unfold invoicesPaid at h
  split at h
  · next r hrep =>
    split at h
    · next he =>
      have hne : newlyPaid s (after env s c) ≠ [] := by simpa using h
      rcases List.exists_mem_of_ne_nil _ hne with ⟨k, hk⟩
      exact ⟨r, k, hrep, he, hk⟩
    · exact absurd rfl h
  · exact absurd rfl h

theorem of_activationsUnder_ne_zero {e : String} (h : activationsUnder env e s c ≠ 0) :
    ∃ r k, Reports env s c r ∧ r.external_id = e ∧ activated env s c = some k := by
  unfold activationsUnder at h
  split at h
  · next r hrep =>
    split at h
    · next hact =>
      rcases Option.isSome_iff_exists.mp hact.2 with ⟨k, hk⟩
      exact ⟨r, k, hrep, hact.1, hk⟩
    · exact absurd rfl h
  · exact absurd rfl h

theorem invoicesPaid_le_one (env : Env) (e : String) (s : Store) (c : Call) :
    invoicesPaid env e s c ≤ 1 := by
  unfold invoicesPaid
  split
  · split
    · exact length_newlyPaid_le_one env s c
    · omega
  · omega

theorem activationsUnder_le_one (env : Env) (e : String) (s : Store) (c : Call) :
    activationsUnder env e s c ≤ 1 := by
  unfold activationsUnder
  split
  · split <;> omega
  · omega

/-- Each external id is the reason for at most one invoice turning paid and for at most one
activation, in every sequence of calls that never replays a completed payment against an
unpaid invoice. -/
theorem paid_once (env : Env) (e : String) {s t : Store} {cs : List Call}
    (h : (reconciler env).RunIf (fun s c => repays env s c = false) s cs t) :
    (reconciler env).total (invoicesPaid env e) s cs ≤ 1 ∧
    (reconciler env).total (activationsUnder env e) s cs ≤ 1 := by
  -- the latch of both counts: the payment of the external id is completed
  have hkeep : ∀ s c s', repays env s c = false → (reconciler env).next s c = some s' →
      s.statusOf e = some .completed → s'.statusOf e = some .completed := by
    intro s c s' _ hs hst
    rw [eq_after hs]
    exact statusOf_after_of_completed hst
  constructor
  · apply Machine.RunIf.total_le_one (fun s => s.statusOf e = some .completed) _ hkeep _ _ h
    · intro s c s' _ _
      exact invoicesPaid_le_one env e s c
    · -- whatever the call pays is a replay
      intro s c s' hg _ hst
      by_contra hcost
      rcases of_invoicesPaid_ne_zero hcost with ⟨r, k, hrep, rfl, hk⟩
      rw [repays_of_mem_newlyPaid hrep hst hk] at hg
      cases hg
    · intro s c s' _ hs hcost
      rcases of_invoicesPaid_ne_zero hcost with ⟨r, k, hrep, rfl, hk⟩
      rw [eq_after hs]
      exact completed_of_mem_newlyPaid hrep hk
  · apply Machine.RunIf.total_le_one (fun s => s.statusOf e = some .completed) _ hkeep _ _ h
    · intro s c s' _ _
      exact activationsUnder_le_one env e s c
    · intro s c s' _ _ hst
      by_contra hcost
      rcases of_activationsUnder_ne_zero hcost with ⟨r, k, hrep, rfl, hk⟩
      exact not_completed_of_activated hrep hk hst
    · intro s c s' _ hs hcost
      rcases of_activationsUnder_ne_zero hcost with ⟨r, k, hrep, rfl, hk⟩
      rw [eq_after hs]
      exact completed_of_activated hrep hk

/-- A completed payment reported again under its own reference. -/
theorem paid_once_repeat :
    (reconciler .default).total (invoicesPaid .default "CHK1") twoInvoices
        [reported "CHK1" "COMPLETE" "IS-7-PRO-1", reported "CHK1" "PENDING" "IS-7-PRO-1"] ≤ 1 ∧
    (reconciler .default).total (activationsUnder .default "CHK1") twoInvoices
        [reported "CHK1" "COMPLETE" "IS-7-PRO-1", reported "CHK1" "PENDING" "IS-7-PRO-1"] ≤ 1 :=
  paid_once .default "CHK1"
    (.cons (by decide) rfl (.cons (by decide) rfl (.nil _)))

/-- A transaction found by reference pays one invoice, and its replay under the other reference
pays the other one, whatever status the replay carries. -/
theorem paid_twice :
    ¬ (reconciler .default).total (invoicesPaid .default "TX9") twoInvoices
      [reported "TX9" "COMPLETE" "IS-7-PRO-1", reported "TX9" "FAILED" "IS-7-PRO-2"] ≤ 1 := by
  decide +kernel

end AlgoBot.Billing
