import AlgoBot.Core.Owner
import AlgoBot.Billing.Checkout

/-!
# One open checkout for each invoice

When does a request open a provider session although another request holds a
claim on the invoice, or although the newest session of the invoice has not been
seen to end? `checkout_exclusive`: never, in a run of careful steps
(`Careful`). A claim is not careful when it takes over from a request that is
still at work, past its lease or on an invoice left `checkout_failed`, or when
it goes by the verdict about a session that is no longer the recorded one. And
each opened session has to be recorded under its own identifier.

`reopened` is a run in which two requests learn that session 0 has ended; one
opens session 1, and the other closes over it.
-/

namespace AlgoBot.Billing

open AlgoBot.Core

variable {price : Price} {n : ℕ} {s s' t : Site n} {a : CheckoutAction n} {i : Fin n}

/-! ## Claims -/

/-- The invoice a request holds a claim on, and when the lease runs out. -/
def Request.claim? : Request → Option (ℕ × Time)
  | .creating invoice lease => some (invoice.pk, lease)
  | .recording invoice lease _ => some (invoice.pk, lease)
  | _ => none

def Request.holds (pk : ℕ) (r : Request) : Bool := r.claim?.any fun c => c.1 == pk

theorem Request.holds_iff {pk : ℕ} {r : Request} :
    r.holds pk = true ↔ ∃ lease, r.claim? = some (pk, lease) := by
  unfold Request.holds
  constructor
  · intro h
    rcases (Option.any_eq_true _ _).mp h with ⟨⟨k, lease⟩, hc, hk⟩
    have hpk : k = pk := by simpa using hk
    exact ⟨lease, by rw [hc, hpk]⟩
  · rintro ⟨lease, hc⟩
    simp [hc]

/-- A session was opened and is not recorded yet. -/
def Request.unrecorded : Request → Bool
  | .recording _ _ (some _) => true
  | _ => false

/-- Whoever else is at work on the invoice is kept apart by the lock. -/
def Vacant (s : Site n) (i : Fin n) (invoice : CheckoutInvoice) : Prop :=
  ∀ j, j ≠ i → ∀ c ∈ (s.requests j).claim?, c.1 = invoice.pk →
    s.now < c.2 ∧ invoice.state = some .checkout_attempting

instance (s : Site n) (i : Fin n) (invoice : CheckoutInvoice) : Decidable (Vacant s i invoice) := by
  unfold Vacant
  infer_instance

/-- The invoice a request is about to claim again, with the session it has seen end. -/
def Request.reclaim? : Request → Option (ℕ × ℕ)
  | .reclaiming pk session => some (pk, session)
  | _ => none

/-- The call opens no session, or gives it back under its own identifier. -/
def Creation.reports (c : Creation) (session : ℕ) : Bool :=
  match c with
  | .opened given => given == some session
  | .refused unseen => !unseen
  | .raised unseen => !unseen

/-- A claim does not take over from a request that is still at work, and a second claim finds the
recorded session to be the one that was checked. A session that is opened is recorded. -/
def Careful (price : Price) (s : Site n) : CheckoutAction n → Prop
  | .enter i _ => ∀ invoice ∈ existingInvoice price s.invoices, Vacant s i invoice
  | .reclaim i _ =>
      ∀ c ∈ (s.requests i).reclaim?, ∀ invoice ∈ s.invoices.get? c.1,
        Vacant s i invoice ∧
          (invoice.state = some .checkout_open → invoice.session = some c.2)
  | .create _ c => c.reports s.provider.opened = true
  | .record _ saving => saving.unique = true
  | .die i => (s.requests i).unrecorded = false
  | _ => True

instance (s : Site n) (a : CheckoutAction n) : Decidable (Careful price s a) := by
  cases a <;> unfold Careful <;> infer_instance

/-! ## The invariant -/

/-- The newest session of the invoice was observed in a terminal state, if there is one. -/
def Ended (s : Site n) (pk : ℕ) : Prop :=
  ∀ session, s.provider.latest pk = some session → session ∈ s.provider.terminal

/-- What a request knows. -/
def Request.Knows (s : Site n) : Request → Prop
  | .reclaiming _ session => session ∈ s.provider.terminal
  | .creating invoice _ => Ended s invoice.pk
  | .recording invoice _ none => Ended s invoice.pk
  | .recording invoice _ (some named) =>
      ∃ session, named = some session ∧ s.provider.latest invoice.pk = some session
  | _ => True

/-- At most one request holds a claim on an invoice, and then no other may open a session for it;
an open checkout is the newest session of its invoice, and without one the newest has ended. -/
structure Sound (s : Site n) : Prop where
  owned : ∀ pk, Owned (Request.holds pk) True s.requests
  claimed : ∀ i pk lease, (s.requests i).claim? = some (pk, lease) →
    ∃ row, s.invoices.get? pk = some row ∧ row.state ≠ some .checkout_open ∧
      (row.state = some .checkout_attempting → row.checkout_lock_until = some lease)
  unopened : ∀ pk, s.invoices.get? pk = none → s.provider.latest pk = none
  opened : ∀ pk row, s.invoices.get? pk = some row → row.state = some .checkout_open →
    ∃ session, row.session = some session ∧ s.provider.latest pk = some session
  closed : ∀ pk row, s.invoices.get? pk = some row → row.state ≠ some .checkout_open →
    (∀ i, (s.requests i).holds pk = false) → Ended s pk
  knows : ∀ i, (s.requests i).Knows s

/-- A site without requests under way, whose rows agree with the provider's book. -/
structure Settled (s : Site n) : Prop where
  quiet : ∀ i, s.requests i = .out
  unopened : ∀ pk, s.invoices.get? pk = none → s.provider.latest pk = none
  opened : ∀ pk row, s.invoices.get? pk = some row → row.state = some .checkout_open →
    ∃ session, row.session = some session ∧ s.provider.latest pk = some session
  closed : ∀ pk row, s.invoices.get? pk = some row → row.state ≠ some .checkout_open → Ended s pk

theorem Settled.sound (h : Settled s) : Sound s := by
  constructor
  · intro pk
    apply Owned.of_idle
    intro i
    rw [h.quiet i]
    rfl
  · intro i pk lease hc
    rw [h.quiet i] at hc
    cases hc
  · exact h.unopened
  · exact h.opened
  · intro pk row hrow hstate _
    exact h.closed pk row hrow hstate
  · intro i
    rw [h.quiet i]
    trivial

/-! ## What a request knows lasts -/

/-- The book of the provider goes on: the newest sessions of all but one invoice are the same. -/
theorem Request.Knows.mono {r : Request} (hk : r.Knows s)
    (hterminal : ∀ m, m ∈ s.provider.terminal → m ∈ s'.provider.terminal)
    (hlatest : ∀ pk lease, r.claim? = some (pk, lease) →
      s'.provider.latest pk = s.provider.latest pk) : r.Knows s' := by
  cases r with
  | reclaiming pk session => exact hterminal session hk
  | creating invoice lease =>
    intro m hm
    rw [hlatest invoice.pk lease rfl] at hm
    exact hterminal m (hk m hm)
  | recording invoice lease result =>
    cases result with
    | none =>
      intro m hm
      rw [hlatest invoice.pk lease rfl] at hm
      exact hterminal m (hk m hm)
    | some named =>
      rcases hk with ⟨session, hnamed, hsession⟩
      exact ⟨session, hnamed, (hlatest invoice.pk lease rfl).trans hsession⟩
  | _ => trivial

theorem Sound.not_holds (h : Sound s) {pk : ℕ} {j : Fin n} (hi : (s.requests i).holds pk = true)
    (hj : j ≠ i) : (s.requests j).holds pk = false := (h.owned pk).others hi hj

/-! ## Steps -/

/-- A request without a claim goes on without one, or one gives up a claim on an invoice whose
newest session has ended. -/
theorem Sound.leave (h : Sound s) {r : Request} (hr : r.claim? = none) (hknows : r.Knows s)
    (hended : ∀ pk lease, (s.requests i).claim? = some (pk, lease) → Ended s pk) :
    Sound (s.setRequest i r) := by
  have hholds : ∀ pk, r.holds pk = false := by
    intro pk
    simp [Request.holds, hr]
  constructor
  · intro pk
    exact (h.owned pk).update_of_idle (hholds pk)
  · intro j pk lease hc
    have hc : (Function.update s.requests i r j).claim? = some (pk, lease) := hc
    by_cases hji : j = i
    · rw [hji, Function.update_self, hr] at hc
      cases hc
    · rw [Function.update_of_ne hji] at hc
      exact h.claimed j pk lease hc
  · exact h.unopened
  · exact h.opened
  · intro pk row hrow hstate hfree
    show Ended s pk
    cases hi : (s.requests i).holds pk with
    | true =>
      rcases Request.holds_iff.mp hi with ⟨lease, hc⟩
      exact hended pk lease hc
    | false =>
      apply h.closed pk row hrow hstate
      intro j
      by_cases hji : j = i
      · rw [hji, hi]
      · have hj : (Function.update s.requests i r j).holds pk = false := hfree j
        rwa [Function.update_of_ne hji] at hj
  · intro j
    show (Function.update s.requests i r j).Knows s
    by_cases hji : j = i
    · rw [hji, Function.update_self]
      exact hknows
    · rw [Function.update_of_ne hji]
      exact h.knows j

/-- What the invariant asks of one invoice, with the only request that may hold it. -/
structure SoundAt (p : Provider) (r : Request) (pk : ℕ) (row : CheckoutInvoice) : Prop where
  claimed : ∀ lease, r.claim? = some (pk, lease) → row.state ≠ some .checkout_open ∧
    (row.state = some .checkout_attempting → row.checkout_lock_until = some lease)
  opened : row.state = some .checkout_open →
    ∃ session, row.session = some session ∧ p.latest pk = some session
  closed : row.state ≠ some .checkout_open → r.claim? = none →
    ∀ session, p.latest pk = some session → session ∈ p.terminal

/-- A step of one request that touches one invoice has to be checked there only, if nobody else is
at work on the invoice. -/
theorem Sound.frame (h : Sound s) (pk : ℕ) (row : CheckoutInvoice)
    {invoices : Table CheckoutInvoice} {provider : Provider} {r : Request}
    (hbefore : ∀ k lease, (s.requests i).claim? = some (k, lease) → k = pk)
    (hafter : ∀ k lease, r.claim? = some (k, lease) → k = pk)
    (halone : ∀ j, j ≠ i → (s.requests j).holds pk = false)
    (hrow : invoices.get? pk = some row)
    (hrows : ∀ k, k ≠ pk → invoices.get? k = s.invoices.get? k)
    (hlatest : ∀ k, k ≠ pk → provider.latest k = s.provider.latest k)
    (hterminal : ∀ m, m ∈ s.provider.terminal → m ∈ provider.terminal)
    (hat : SoundAt provider r pk row) (hknows : r.Knows { s with provider := provider }) :
    Sound ({ s with invoices := invoices, provider := provider }.setRequest i r) := by
  -- what another request claims is another invoice
  have hne : ∀ j, j ≠ i → ∀ k lease, (s.requests j).claim? = some (k, lease) → k ≠ pk := by
    rintro j hji k lease hc rfl
    have hj := halone j hji
    rw [Request.holds_iff.mpr ⟨lease, hc⟩] at hj
    cases hj
  constructor
  · intro k
    by_cases hk : k = pk
    · rw [hk]
      apply Owned.of_others (i := i) trivial
      intro j hji
      show (Function.update s.requests i r j).holds pk = false
      rw [Function.update_of_ne hji]
      exact halone j hji
    · apply (h.owned k).update_of_idle
      rw [Bool.eq_false_iff]
      intro hholds
      rcases Request.holds_iff.mp hholds with ⟨lease, hc⟩
      exact hk (hafter k lease hc)
  · intro j k lease hc
    have hc : (Function.update s.requests i r j).claim? = some (k, lease) := hc
    show ∃ row, invoices.get? k = some row ∧ _
    by_cases hji : j = i
    · rw [hji, Function.update_self] at hc
      have hk := hafter k lease hc
      subst hk
      exact ⟨row, hrow, hat.claimed lease hc⟩
    · rw [Function.update_of_ne hji] at hc
      rw [hrows k (hne j hji k lease hc)]
      exact h.claimed j k lease hc
  · intro k hnone
    have hnone : invoices.get? k = none := hnone
    show provider.latest k = none
    by_cases hk : k = pk
    · rw [hk, hrow] at hnone
      cases hnone
    · rw [hrows k hk] at hnone
      rw [hlatest k hk]
      exact h.unopened k hnone
  · intro k row' hrow' hopen
    have hrow' : invoices.get? k = some row' := hrow'
    show ∃ session, row'.session = some session ∧ provider.latest k = some session
    by_cases hk : k = pk
    · rw [hk, hrow] at hrow'
      cases hrow'
      rw [hk]
      exact hat.opened hopen
    · rw [hrows k hk] at hrow'
      rw [hlatest k hk]
      exact h.opened k row' hrow' hopen
  · intro k row' hrow' hclosed hnobody session hsession
    have hrow' : invoices.get? k = some row' := hrow'
    have hsession : provider.latest k = some session := hsession
    show session ∈ provider.terminal
    have hfree : ∀ j, (Function.update s.requests i r j).holds k = false := hnobody
    by_cases hk : k = pk
    · rw [hk, hrow] at hrow'
      cases hrow'
      subst hk
      apply hat.closed hclosed _ session hsession
      cases hc : r.claim? with
      | none => rfl
      | some c =>
        have hi := hfree i
        rw [Function.update_self, ← hafter c.1 c.2 hc, Request.holds_iff.mpr ⟨c.2, hc⟩] at hi
        cases hi
    · rw [hrows k hk] at hrow'
      rw [hlatest k hk] at hsession
      apply hterminal
      apply h.closed k row' hrow' hclosed _ session hsession
      intro j
      by_cases hji : j = i
      · -- the request held no other invoice before the step
        rw [hji, Bool.eq_false_iff]
        intro hholds
        rcases Request.holds_iff.mp hholds with ⟨lease, hc⟩
        exact hk (hbefore k lease hc)
      · have hj := hfree j
        rwa [Function.update_of_ne hji] at hj
  · intro j
    show (Function.update s.requests i r j).Knows _
    by_cases hji : j = i
    · rw [hji, Function.update_self]
      exact hknows
    · rw [Function.update_of_ne hji]
      apply (h.knows j).mono hterminal
      intro k lease hc
      exact hlatest k (hne j hji k lease hc)

/-- A request takes a claim on an invoice nobody holds, and writes it into the row. -/
theorem Sound.claim (h : Sound s) (invoice : CheckoutInvoice) {found : CheckoutInvoice}
    {invoices : Table CheckoutInvoice} {lease : Time}
    (hfree : ∀ j, (s.requests j).holds invoice.pk = false)
    (hnone : (s.requests i).claim? = none) (hended : Ended s invoice.pk)
    (hfound : invoices.get? invoice.pk = some found)
    (hstate : invoice.state ≠ some .checkout_open)
    (hlock : invoice.checkout_lock_until = some lease)
    (hother : ∀ k, k ≠ invoice.pk → invoices.get? k = s.invoices.get? k) :
    Sound ({ s with invoices := invoices.set invoice }.setRequest i (.creating invoice lease)) := by
  have hset := Table.get?_set_of_some (r := invoice) hfound
  have hself : (Request.creating invoice lease).claim? = some (invoice.pk, lease) := rfl
  apply h.frame invoice.pk invoice
  · intro k lease' hc
    rw [hnone] at hc
    cases hc
  · intro k lease' hc
    rw [hself] at hc
    cases hc
    rfl
  · intro j _
    exact hfree j
  · exact (hset _).trans (if_pos rfl)
  · intro k hk
    exact ((hset k).trans (if_neg hk)).trans (hother k hk)
  · intro _ _
    rfl
  · intro _ hm
    exact hm
  · constructor
    · intro lease' hc
      rw [hself] at hc
      cases hc
      exact ⟨hstate, fun _ => hlock⟩
    · intro hopen
      exact absurd hopen hstate
    · intro _ hc
      cases hc
  · exact hended

/-- The lock keeps off whoever is at work, so a careful claim that passes it finds nobody there. -/
theorem Sound.nobody (h : Sound s) {invoice : CheckoutInvoice}
    (hnone : (s.requests i).claim? = none)
    (hmem : s.invoices.get? invoice.pk = some invoice) (hvacant : Vacant s i invoice)
    (hlocked : ¬ invoice.locked s.now = true) (j : Fin n) :
    (s.requests j).holds invoice.pk = false := by
  cases hj : (s.requests j).holds invoice.pk with
  | false => rfl
  | true =>
    exfalso
    rcases Request.holds_iff.mp hj with ⟨lease, hc⟩
    have hji : j ≠ i := by
      rintro rfl
      rw [hnone] at hc
      cases hc
    rcases hvacant j hji _ hc rfl with ⟨hlease, hattempting⟩
    rcases h.claimed j _ _ hc with ⟨row, hrow, _, hlock⟩
    rw [hmem] at hrow
    cases hrow
    apply hlocked
    simp [CheckoutInvoice.locked, hattempting, hlock hattempting, hlease]

/-- A request without a claim has nothing to give up. -/
theorem ended_of_unclaimed (hnone : (s.requests i).claim? = none) (pk : ℕ) (lease : Time)
    (hc : (s.requests i).claim? = some (pk, lease)) : Ended s pk := by
  rw [hnone] at hc
  cases hc

theorem step_enter {fresh : String} (h : Sound s) (hg : Careful price s (.enter i fresh))
    (hs : checkoutStep price s (.enter i fresh) = some s') : Sound s' := by
  simp only [checkoutStep] at hs
  split at hs
  · rename_i hout
    have hnone : (s.requests i).claim? = none := by
      rw [hout]
      rfl
    rw [← Option.some.inj hs]
    unfold enterCheckout
    cases hexisting : existingInvoice price s.invoices with
    | some invoice =>
      have hmem : s.invoices.get? invoice.pk = some invoice := by
        unfold existingInvoice at hexisting
        rcases Option.or_eq_some_iff.mp hexisting with hfind | ⟨_, hfind⟩
        · exact Table.get?_pk (Table.mem_of_find? hfind)
        · exact Table.get?_pk (Table.mem_of_find? hfind)
      dsimp only
      split
      · exact h.leave rfl trivial (ended_of_unclaimed hnone)
      · rename_i hstate
        split
        · exact h.leave rfl trivial (ended_of_unclaimed hnone)
        · rename_i hlocked
          have hfree := h.nobody hnone hmem (hg invoice hexisting) hlocked
          have hended : Ended s invoice.pk := h.closed invoice.pk invoice hmem hstate hfree
          show Sound ({ s with
            invoices := s.invoices.set (claimed s.now fresh invoice) }.setRequest i
              (.creating (claimed s.now fresh invoice) (s.now + lease_seconds)))
          apply h.claim (claimed s.now fresh invoice) hfree hnone hended hmem
          · simp [claimed]
          · rfl
          · intro _ _
            rfl
    | none =>
      -- the new invoice has no session yet, and nobody knows it
      have hnew : s.invoices.get? s.invoices.nextPk = none := Table.get?_nextPk
      have hfree : ∀ j, (s.requests j).holds s.invoices.nextPk = false := by
        intro j
        cases hj : (s.requests j).holds s.invoices.nextPk with
        | false => rfl
        | true =>
          exfalso
          rcases Request.holds_iff.mp hj with ⟨lease, hc⟩
          rcases h.claimed j _ _ hc with ⟨row, hrow, _⟩
          rw [hnew] at hrow
          cases hrow
      have hended : Ended s s.invoices.nextPk := by
        intro m hm
        rw [h.unopened _ hnew] at hm
        cases hm
      have hcreated : (s.invoices.create (openedInvoice price) (pk_openedInvoice price)).get?
          s.invoices.nextPk = some (openedInvoice price s.invoices.nextPk) :=
        Table.get?_create_self _
      show Sound ({ s with
        invoices := (s.invoices.create (openedInvoice price) (pk_openedInvoice price)).set
          (claimed s.now fresh (openedInvoice price s.invoices.nextPk)) }.setRequest i
            (.creating (claimed s.now fresh (openedInvoice price s.invoices.nextPk))
              (s.now + lease_seconds)))
      apply h.claim (claimed s.now fresh (openedInvoice price s.invoices.nextPk)) hfree hnone hended
        hcreated
      · simp [claimed]
      · rfl
      · intro k hk
        exact Table.get?_create_ne _ hk
  · cases hs

theorem step_read (h : Sound s) (hs : checkoutStep price s (.read i) = some s') : Sound s' := by
  simp only [checkoutStep] at hs
  split at hs
  · rename_i hchecking
    have hnone : (s.requests i).claim? = none := by
      rw [hchecking]
      rfl
    split at hs
    · rw [← Option.some.inj hs]
      exact h.leave rfl trivial (ended_of_unclaimed hnone)
    · rw [← Option.some.inj hs]
      exact h.leave rfl trivial (ended_of_unclaimed hnone)
  · cases hs

/-- The reconciler leaves the state, the lock and a recorded session of the row alone. -/
theorem Sound.reconcile (h : Sound s) {row : CheckoutInvoice} (session : ℕ)
    (answer : ProviderAnswer) (hrow : s.invoices.get? row.pk = some row) :
    Sound { s with
      invoices := s.invoices.set (reconciledRow session answer row)
      provider := s.provider.observe session answer.state } := by
  have hset := Table.get?_set_of_some (r := reconciledRow session answer row) hrow
  have hterminal : ∀ m, m ∈ s.provider.terminal →
      m ∈ (s.provider.observe session answer.state).terminal := by
    intro m hm
    unfold Provider.observe
    split
    · exact List.mem_cons_of_mem session hm
    · exact hm
  have hlatest : (s.provider.observe session answer.state).latest = s.provider.latest := by
    unfold Provider.observe
    split <;> rfl
  -- every row of the new table is one of the old, up to what the reconciler writes
  have hrows : ∀ k r', (s.invoices.set (reconciledRow session answer row)).get? k = some r' →
      ∃ r, s.invoices.get? k = some r ∧ r'.state = r.state ∧
        ∀ m, r.session = some m → r'.session = some m := by
    intro k r' hr'
    rw [hset] at hr'
    split at hr'
    · rename_i hk
      cases hr'
      refine ⟨row, by rw [hk]; exact hrow, rfl, ?_⟩
      intro m hm
      show (if answer.relink then row.session.or (some session) else row.session) = some m
      rw [hm]
      split <;> rfl
    · exact ⟨r', hr', rfl, fun m hm => hm⟩
  constructor
  · exact h.owned
  · intro j pk lease hc
    rcases h.claimed j pk lease hc with ⟨r, hr, hstate, hlock⟩
    show ∃ r', (s.invoices.set (reconciledRow session answer row)).get? pk = some r' ∧ _
    by_cases hpk : pk = row.pk
    · rw [hpk, hrow] at hr
      cases hr
      exact ⟨reconciledRow session answer row, (hset _).trans (if_pos hpk), hstate, hlock⟩
    · exact ⟨r, ((hset pk).trans (if_neg hpk)).trans hr, hstate, hlock⟩
  · intro pk hpk
    show (s.provider.observe session answer.state).latest pk = none
    have hpk : (s.invoices.set (reconciledRow session answer row)).get? pk = none := hpk
    rw [hset] at hpk
    split at hpk
    · cases hpk
    · rw [hlatest]
      exact h.unopened pk hpk
  · intro pk r' hr' hopen
    rcases hrows pk r' hr' with ⟨r, hr, hstate, hsession⟩
    rcases h.opened pk r hr (hstate.symm.trans hopen) with ⟨m, hm, hlat⟩
    exact ⟨m, hsession m hm, by rw [hlatest]; exact hlat⟩
  · intro pk r' hr' hclosed hnobody
    rcases hrows pk r' hr' with ⟨r, hr, hstate, _⟩
    rw [hstate] at hclosed
    intro m hm
    have hm : (s.provider.observe session answer.state).latest pk = some m := hm
    rw [hlatest] at hm
    exact hterminal m (h.closed pk r hr hclosed hnobody m hm)
  · intro j
    apply (h.knows j).mono hterminal
    intro pk _ _
    exact congrFun hlatest pk

theorem step_ask {answer : ProviderAnswer} (h : Sound s)
    (hs : checkoutStep price s (.ask i answer) = some s') : Sound s' := by
  simp only [checkoutStep] at hs
  split at hs
  · rename_i copy hasking
    have hnone : (s.requests i).claim? = none := by
      rw [hasking]
      rfl
    rw [← Option.some.inj hs]
    unfold askProvider
    cases hsession : copy.session with
    | none => exact h.leave rfl trivial (ended_of_unclaimed hnone)
    | some session =>
      cases hrow : s.invoices.get? copy.pk with
      | none => exact h.leave rfl trivial (ended_of_unclaimed hnone)
      | some row =>
        have hpk : row.pk = copy.pk := Table.pk_of_get? hrow
        have hrow' : s.invoices.get? row.pk = some row := by rw [hpk]; exact hrow
        have hsound := h.reconcile session answer hrow'
        dsimp only
        split
        · rename_i hterminal
          apply hsound.leave rfl _ (ended_of_unclaimed hnone)
          show session ∈ (s.provider.observe session answer.state).terminal
          unfold Provider.observe
          rw [if_pos hterminal.2]
          exact List.mem_cons_self
        · exact hsound.leave rfl trivial (ended_of_unclaimed hnone)
  · cases hs

theorem step_reclaim {fresh : String} (h : Sound s) (hg : Careful price s (.reclaim i fresh))
    (hs : checkoutStep price s (.reclaim i fresh) = some s') : Sound s' := by
  simp only [checkoutStep] at hs
  split at hs
  · rename_i pk session hreclaiming
    have hnone : (s.requests i).claim? = none := by
      rw [hreclaiming]
      rfl
    have hsees : (s.requests i).reclaim? = some (pk, session) := by
      rw [hreclaiming]
      rfl
    have hterminal : session ∈ s.provider.terminal := by
      have hknows := h.knows i
      rw [hreclaiming] at hknows
      exact hknows
    rw [← Option.some.inj hs]
    unfold reclaimCheckout
    cases hrow : s.invoices.get? pk with
    | none => exact h.leave rfl trivial (ended_of_unclaimed hnone)
    | some invoice =>
      have hpk : invoice.pk = pk := Table.pk_of_get? hrow
      have hmem : s.invoices.get? invoice.pk = some invoice := by
        rw [hpk]
        exact hrow
      rcases hg _ hsees invoice hrow with ⟨hvacant, hchecked⟩
      dsimp only
      split
      · exact h.leave rfl trivial (ended_of_unclaimed hnone)
      · split
        · exact h.leave rfl trivial (ended_of_unclaimed hnone)
        · rename_i hlocked
          have hfree := h.nobody hnone hmem hvacant hlocked
          have hended : Ended s invoice.pk := by
            by_cases hopen : invoice.state = some .checkout_open
            · -- the recorded session is the newest, and the one that was checked
              rcases h.opened _ _ hmem hopen with ⟨m, hm, hlat⟩
              rw [hchecked hopen] at hm
              cases hm
              intro m' hm'
              rw [hlat] at hm'
              cases hm'
              exact hterminal
            · exact h.closed invoice.pk invoice hmem hopen hfree
          show Sound ({ s with
            invoices := s.invoices.set (reclaimed price s.now fresh invoice) }.setRequest i
              (.creating (reclaimed price s.now fresh invoice) (s.now + lease_seconds)))
          apply h.claim (reclaimed price s.now fresh invoice) hfree hnone hended hmem
          · show (if invoice.state = some .checkout_open then some .checkout_attempting
              else invoice.state) ≠ some .checkout_open
            split
            · simp
            · rename_i hopen
              exact hopen
          · rfl
          · intro _ _
            rfl
  · cases hs

/-- The holder of a claim goes on to record, after the provider has opened a session or not. -/
theorem Sound.recording (h : Sound s) {invoice : CheckoutInvoice} {lease : Time}
    {result : Option (Option ℕ)} {provider : Provider}
    (hcreating : s.requests i = .creating invoice lease)
    (hterminal : provider.terminal = s.provider.terminal)
    (hlatest : ∀ pk, pk ≠ invoice.pk → provider.latest pk = s.provider.latest pk)
    (hknows : (Request.recording invoice lease result).Knows { s with provider := provider }) :
    Sound ({ s with provider := provider }.setRequest i (.recording invoice lease result)) := by
  have hclaim : (s.requests i).claim? = some (invoice.pk, lease) := by
    rw [hcreating]
    rfl
  have hself : (Request.recording invoice lease result).claim? = some (invoice.pk, lease) := rfl
  -- the claimed invoice has a row, which is not open
  rcases h.claimed i _ _ hclaim with ⟨row, hrow, hstate, hlock⟩
  apply h.frame invoice.pk row
  · intro k lease' hc
    rw [hclaim] at hc
    cases hc
    rfl
  · intro k lease' hc
    rw [hself] at hc
    cases hc
    rfl
  · intro j hji
    exact h.not_holds (Request.holds_iff.mpr ⟨lease, hclaim⟩) hji
  · exact hrow
  · intro _ _
    rfl
  · exact hlatest
  · intro m hm
    rw [hterminal]
    exact hm
  · constructor
    · intro lease' hc
      rw [hself] at hc
      cases hc
      exact ⟨hstate, hlock⟩
    · intro hopen
      exact absurd hopen hstate
    · intro _ hc
      cases hc
  · exact hknows

theorem step_create {c : Creation} (h : Sound s) (hg : Careful price s (.create i c))
    (hs : checkoutStep price s (.create i c) = some s') : Sound s' := by
  simp only [checkoutStep] at hs
  split at hs
  · rename_i invoice lease hcreating
    have hended : Ended s invoice.pk := by
      have hknows := h.knows i
      rw [hcreating] at hknows
      exact hknows
    rw [← Option.some.inj hs]
    cases c with
    | opened given =>
      -- the session is the newest one, and the request knows its identifier
      have hgiven : given = some s.provider.opened := by
        simpa [Careful, Creation.reports] using hg
      show Sound ({ s with provider := s.provider.openSession invoice.pk }.setRequest i
        (.recording invoice lease (some given)))
      apply Sound.recording h hcreating
      · rfl
      · intro pk hpk
        exact Function.update_of_ne hpk _ _
      · exact ⟨s.provider.opened, hgiven, Function.update_self ..⟩
    | refused unseen =>
      have hunseen : unseen = false := by simpa [Careful, Creation.reports] using hg
      rw [hunseen]
      exact h.recording hcreating rfl (fun _ _ => rfl) hended
    | raised unseen =>
      -- the request gives its claim up, and there is no new session to forget
      have hunseen : unseen = false := by simpa [Careful, Creation.reports] using hg
      rw [hunseen]
      show Sound (s.setRequest i .out)
      apply h.leave (r := .out) rfl trivial
      intro pk lease' hc
      rw [hcreating] at hc
      cases hc
      exact hended
  · cases hs

theorem step_record {saving : Saving} (h : Sound s) (hg : Careful price s (.record i saving))
    (hs : checkoutStep price s (.record i saving) = some s') : Sound s' := by
  have hunique : saving.unique = true := hg
  simp only [checkoutStep] at hs
  split at hs
  · rename_i copy lease result hrecording
    have hclaim : (s.requests i).claim? = some (copy.pk, lease) := by
      rw [hrecording]
      rfl
    have hholds : (s.requests i).holds copy.pk = true := Request.holds_iff.mpr ⟨lease, hclaim⟩
    have hknows := h.knows i
    rw [hrecording] at hknows
    rcases h.claimed i _ _ hclaim with ⟨row, hrow, _⟩
    rw [hrow] at hs
    rw [← Option.some.inj hs]
    have hrowpk : (recordedRow copy result saving row).pk = copy.pk :=
      (recordedRow_pk copy result saving row).trans (Table.pk_of_get? hrow)
    have hset := Table.get?_set_of_some (r := recordedRow copy result saving row)
      (by rw [pk_checkoutInvoice, hrowpk]; exact hrow)
    rw [pk_checkoutInvoice, hrowpk] at hset
    apply h.frame copy.pk (recordedRow copy result saving row)
    · intro k lease' hc
      rw [hclaim] at hc
      cases hc
      rfl
    · intro k lease' hc
      cases hc
    · intro j hji
      exact h.not_holds hholds hji
    · exact (hset _).trans (if_pos rfl)
    · intro k hk
      exact (hset k).trans (if_neg hk)
    · intro _ _
      rfl
    · intro _ hm
      exact hm
    · constructor
      · intro lease' hc
        cases hc
      · -- the row names the session, which is the newest
        intro hopen
        cases result with
        | none => simp [recordedRow, savedOver] at hopen
        | some named =>
          rcases hknows with ⟨m, hnamed, hlat⟩
          rw [recordedRow_of_unique hunique]
          exact ⟨m, hnamed, hlat⟩
      · -- without a session the newest one has ended
        intro hclosed _
        cases result with
        | none => exact hknows
        | some named =>
          rw [recordedRow_of_unique hunique] at hclosed
          exact absurd rfl hclosed
    · trivial
  · cases hs

theorem step_die (h : Sound s) (hg : Careful price s (.die i))
    (hs : checkoutStep price s (.die i) = some s') : Sound s' := by
  simp only [checkoutStep] at hs
  rw [← Option.some.inj hs]
  apply h.leave (r := .out) rfl trivial
  intro pk lease hc
  have hrecorded : (s.requests i).unrecorded = false := hg
  have hknows := h.knows i
  -- only a claim is given up, and without a session of its own
  cases hr : s.requests i with
  | creating invoice lease' =>
    rw [hr] at hc hknows
    cases hc
    exact hknows
  | recording invoice lease' result =>
    rw [hr] at hc hknows hrecorded
    cases hc
    cases result with
    | none => exact hknows
    | some named => cases hrecorded
  | _ =>
    rw [hr] at hc
    cases hc

theorem step_sound (hg : Careful price s a) (h : Sound s) (hs : checkoutStep price s a = some s') :
    Sound s' := by
  cases a with
  | enter i fresh => exact step_enter h hg hs
  | read i => exact step_read h hs
  | ask i answer => exact step_ask h hs
  | reclaim i fresh => exact step_reclaim h hg hs
  | create i c => exact step_create h hg hs
  | record i saving => exact step_record h hg hs
  | die i => exact step_die h hg hs
  | tick seconds =>
    simp only [checkoutStep] at hs
    rw [← Option.some.inj hs]
    exact ⟨h.owned, h.claimed, h.unopened, h.opened, h.closed, h.knows⟩

/-! ## Exclusive sessions -/

/-- Request `i` opens a session for an invoice on which no other request holds an unexpired claim,
and whose newest session was observed in a terminal state. -/
def Exclusive (s : Site n) (i : Fin n) : Prop :=
  ∀ invoice lease, s.requests i = .creating invoice lease →
    (∀ j, j ≠ i → ∀ lease', (s.requests j).claim? = some (invoice.pk, lease') → lease' ≤ s.now) ∧
      Ended s invoice.pk

theorem Sound.exclusive (h : Sound s) (i : Fin n) : Exclusive s i := by
  intro invoice lease hcreating
  have hknows := h.knows i
  rw [hcreating] at hknows
  refine ⟨?_, hknows⟩
  intro j hji lease' hc
  -- the claim of request `i` is the only one
  have hholds : (s.requests i).holds invoice.pk = true := by
    rw [hcreating]
    simp [Request.holds, Request.claim?]
  have hj := h.not_holds hholds hji
  rw [Request.holds_iff.mpr ⟨lease', hc⟩] at hj
  cases hj

/-- In a run of careful steps every session is opened exclusively. -/
theorem checkout_exclusive {as : List (CheckoutAction n)} (hstart : Settled s)
    (hrun : (checkout price n).RunIf (Careful price) s as t) :
    (checkout price n).RunIf (fun s a => ∀ i c, a = .create i c → Exclusive s i) s as t := by
  have hstep : ∀ s a s', Careful price s a → Sound s → (checkout price n).next s a = some s' →
      Sound s' ∧ ∀ i c, a = .create i c → Exclusive s i := by
    intro s a s' hg h hs
    refine ⟨step_sound hg h hs, ?_⟩
    intro i _ _
    exact h.exclusive i
  apply (hrun.forall_steps hstep hstart.sound).mono
  intro s a hgood
  exact hgood.2.2

/-! ## Closing over an open session -/

/-- Request `i` is about to open a session while the newest one has not been seen to end. -/
def Site.closesOver (s : Site n) (i : Fin n) : Bool :=
  match s.requests i with
  | .creating invoice _ =>
    (s.provider.latest invoice.pk).any fun session => decide (session ∉ s.provider.terminal)
  | _ => false

theorem not_exclusive_of_closesOver (hcloses : s.closesOver i = true) : ¬ Exclusive s i := by
  intro hexclusive
  unfold Site.closesOver at hcloses
  split at hcloses
  · rename_i invoice lease hcreating
    rcases (Option.any_eq_true _ _).mp hcloses with ⟨session, hlatest, hlive⟩
    have hended := (hexclusive invoice lease hcreating).2
    exact (of_decide_eq_true hlive) (hended session hlatest)
  · cases hcloses

/-- A second claim on an open checkout other than the one that was checked closes over it. -/
theorem reclaim_closesOver {fresh : String} {pk checked session : ℕ} {invoice : CheckoutInvoice}
    (h : Sound s) (hreclaiming : s.requests i = .reclaiming pk checked)
    (hrow : s.invoices.get? pk = some invoice) (hunpaid : invoice.paid = false)
    (hopen : invoice.state = some .checkout_open) (hsession : invoice.session = some session)
    (hlive : session ∉ s.provider.terminal)
    (hs : checkoutStep price s (.reclaim i fresh) = some s') : s'.closesOver i = true := by
  rcases h.opened pk invoice hrow hopen with ⟨m, hm, hlatest⟩
  rw [hsession] at hm
  cases hm
  have hlocked : invoice.locked s.now = false := by
    simp [CheckoutInvoice.locked, hopen]
  have hpk : invoice.pk = pk := Table.pk_of_get? hrow
  simp only [checkoutStep, hreclaiming, reclaimCheckout, hrow, hunpaid, hlocked] at hs
  rw [← Option.some.inj hs]
  simp [Site.closesOver, Site.setRequest, Entered.request, reclaimed, hpk, hlatest, hlive]

/-- No invoice, no session, no request. -/
def Site.empty (n : ℕ) : Site n where
  now := 0
  invoices := Table.empty
  provider := ⟨0, fun _ => none, []⟩
  requests := fun _ => .out

theorem settled_empty (n : ℕ) : Settled (Site.empty n) := by
  constructor
  · intro i
    rfl
  · intro pk _
    rfl
  · intro pk row hrow _
    cases hrow
  · intro pk row hrow _
    cases hrow

/-- The provider reports a terminal state. -/
def terminalAnswer : ProviderAnswer := ⟨.terminal, false, none, none⟩

/-- Request 0 opens session 0 and records it. -/
def firstSession : List (CheckoutAction 2) :=
  [.enter 0 "IS-7-PRO-1", .create 0 (.opened (some 0)), .record 0 ⟨true, false⟩]

/-- A request learns that the session has ended, claims the invoice again and opens the next. -/
theorem checkout_exclusive_again :
    ∃ t, (checkout ⟨1900, "USD"⟩ 2).RunIf (fun s a => ∀ i c, a = .create i c → Exclusive s i)
      (Site.empty 2)
      (firstSession ++ [.enter 1 "", .read 1, .ask 1 terminalAnswer, .reclaim 1 "",
        .create 1 (.opened (some 1)), .record 1 ⟨true, false⟩]) t := by
  have hexec : ((checkout ⟨1900, "USD"⟩ 2).execIf (Careful ⟨1900, "USD"⟩) (Site.empty 2)
      (firstSession ++ [.enter 1 "", .read 1, .ask 1 terminalAnswer, .reclaim 1 "",
        .create 1 (.opened (some 1)), .record 1 ⟨true, false⟩])).isSome = true := by
    decide +kernel
  obtain ⟨t, hrun⟩ := Machine.exists_runIf hexec
  exact ⟨t, checkout_exclusive (settled_empty 2) hrun⟩

/-- Both requests learn that session 0 has ended. Request 0 opens session 1 and records it, then
request 1 claims the invoice. -/
def bothLearn : List (CheckoutAction 2) :=
  firstSession ++ [.enter 0 "", .enter 1 "", .read 0, .read 1, .ask 0 terminalAnswer,
    .ask 1 terminalAnswer, .reclaim 0 "", .create 0 (.opened (some 1)), .record 0 ⟨true, false⟩,
    .reclaim 1 ""]

/-- Request 1 opens session 2 while session 1 is open. -/
theorem reopened :
    ∃ t, (checkout ⟨1900, "USD"⟩ 2).Run (Site.empty 2)
        (bothLearn ++ [.create 1 (.opened (some 2))]) t ∧
      ¬ (checkout ⟨1900, "USD"⟩ 2).RunIf (fun s a => ∀ i c, a = .create i c → Exclusive s i)
        (Site.empty 2) (bothLearn ++ [.create 1 (.opened (some 2))]) t := by
  have hlast : ((checkout ⟨1900, "USD"⟩ 2).exec (Site.empty 2) bothLearn).any (fun s =>
      s.closesOver 1 &&
        ((checkout ⟨1900, "USD"⟩ 2).next s (.create 1 (.opened (some 2)))).isSome) = true := by
    decide +kernel
  rcases (Option.any_eq_true _ _).mp hlast with ⟨s, hexec, hs⟩
  rw [Bool.and_eq_true] at hs
  rcases Option.isSome_iff_exists.mp hs.2 with ⟨t, ht⟩
  refine ⟨t, ?_, ?_⟩
  · apply (Machine.exec_eq_some_iff.mp hexec).append
    exact Machine.RunIf.cons trivial ht (Machine.RunIf.nil t)
  · intro hrun
    exact not_exclusive_of_closesOver hs.1 (hrun.guard_of_exec hexec 1 _ rfl)

end AlgoBot.Billing
