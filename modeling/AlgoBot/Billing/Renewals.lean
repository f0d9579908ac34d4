import AlgoBot.Billing.RenewalCalls

/-!
# Recurring renewals

A recurring IntaSend event names a provider subscription and lists its payments. The handler
links the subscription and reconciles each payment; a payment that is completed for the first
time activates the subscription, which writes the link again, from the metadata of the invoice
of that payment.

* `renewal_links_iff`: the subscription stays linked exactly if the last payment that activates
  it does so for an invoice that carries the provider's subscription id.
* `renewal_unlinks`: a plain renewal, whose invoice is created by the call, loses the link.
-/

namespace AlgoBot.Billing

open AlgoBot.Core AlgoBot.Python

/-! ## What keeps a link -/

/-- The id of the last payment that one of the calls completes, after others; a second report of a
payment completes nothing. -/
def lastCompleted (env : Env) (s : Store) : List String → List Call → Option String
  | _, [] => none
  | done, c :: calls =>
    if completes env s c = true ∧ callId env c ∉ done then
      (lastCompleted env s (callId env c :: done) calls).or (some (callId env c))
    else lastCompleted env s done calls

/-- The link, after the last completed payment of an event or without one. -/
def LastLinks (env : Env) (s : Store) (subscription : Subscription) (subscription_id : String) :
    Option String → Prop
  | some e => linkOf env s e = subscription_id ∧ subscription_id ≠ "" ∧
      upper env.host subscription.plan ≠ "FREE"
  | none => subscription.provider_subscription_id = subscription_id ∧ subscription.recurring = true

/-- The payments of the event keep the link of the subscription; a duplicate has none. -/
def KeepsLink (env : Env) (s : Store) (d : Delivery) (subscription : Subscription)
    (subscription_id : String) : Prop :=
  LastLinks env s subscription subscription_id
    (if seen env s d then none else lastCompleted env s [] (callsOf env s d))

/-- The subscription of the user is linked and recurring, and the next event finds it. -/
def Linked (s : Store) (user_id : ℕ) (subscription_id : String) : Prop :=
  ∃ subscription, (s.subscriptions.find? fun u => u.user_id == user_id) = some subscription ∧
    subscription.provider_subscription_id = subscription_id ∧ subscription.recurring = true ∧
    (recurringSubscription s subscription_id).1 = some subscription

variable {env : Env} {s t : Store} {c : Call} {r : Report} {invoice : Invoice} {o : Outcome}

/-! ## The payments of an event -/

/-- How far the calls are: the ids in `done` have been completed by them. -/
structure Progress (s t : Store) (user_id : ℕ) (done : List String) : Prop where
  users : SameUsers s t
  rows : ∀ e, e ∉ done ∧ SameRows s t e ∨
    closed t user_id e = true ∧ (e ∈ done ∨ closed s user_id e = true)

/-- A closed payment is not completed again. -/
theorem completes_of_closed {user_id : ℕ} {plan_key : String}
    (hcall : IsRenewal env user_id plan_key c) (hclosed : closed s user_id (callId env c) = true) :
    completes env s c = false := by
  unfold completes
  split
  · next r hrep =>
    have hid : r.external_id = callId env c := (Reports.arguments hrep).2.2.2
    rw [(hcall s r hrep).user, hid, hclosed]
    simp
  · rfl

/-- A call completes its payment now exactly if it would have before, and none of the calls so far
did. -/
theorem Progress.completes_iff {user_id : ℕ} {plan_key : String} {done : List String}
    (h : Progress s t user_id done) (hcall : IsRenewal env user_id plan_key c) :
    completes env t c = true ↔ completes env s c = true ∧ callId env c ∉ done := by
  rcases h.rows (callId env c) with ⟨hnew, hsame⟩ | ⟨hclosed, hwhy⟩
  · -- nothing has touched the rows under the id
    rw [completes_congr h.users hsame.invoice hsame.payment]
    simp [hnew]
  · rw [completes_of_closed hcall hclosed]
    rcases hwhy with hdone | hbefore
    · simp [hdone]
    · simp [completes_of_closed hcall hbefore]

/-- The progress of one call. -/
theorem Progress.step {user_id : ℕ} {plan_key : String} {done : List String} {u : Store}
    (h : Progress s t user_id done) (heffect : CallEffect env t u user_id plan_key c) :
    Progress s u user_id (if completes env t c = true then callId env c :: done else done) := by
  refine ⟨h.users.trans heffect.users, ?_⟩
  intro e
  by_cases he : e = callId env c
  · rw [he]
    by_cases hcompletes : completes env t c = true
    · rw [if_pos hcompletes]
      exact Or.inr ⟨(heffect.writes hcompletes).1, Or.inl List.mem_cons_self⟩
    · rw [if_neg hcompletes]
      obtain ⟨_, hrows⟩ := heffect.leaves (by simpa using hcompletes)
      rcases h.rows (callId env c) with ⟨hnew, hsame⟩ | ⟨hclosed, hwhy⟩
      · rcases hrows with hkept | ⟨hbefore, hafter⟩
        · exact Or.inl ⟨hnew, hsame.trans hkept⟩
        · rw [closed_congr hsame] at hbefore
          exact Or.inr ⟨hafter, Or.inr hbefore⟩
      · right
        refine ⟨?_, hwhy⟩
        rcases hrows with hkept | ⟨_, hafter⟩
        · rw [closed_congr hkept]
          exact hclosed
        · exact hafter
  · have hkept := heffect.others e he
    rcases h.rows e with ⟨hnew, hsame⟩ | ⟨hclosed, hwhy⟩
    · left
      refine ⟨?_, hsame.trans hkept⟩
      split
      · simpa [he] using hnew
      · exact hnew
    · right
      refine ⟨by rw [closed_congr hkept]; exact hclosed, ?_⟩
      rcases hwhy with hdone | hbefore
      · left
        split
        · exact List.mem_cons_of_mem _ hdone
        · exact hdone
      · exact Or.inr hbefore

/-- The calls among the items of an event. -/
def callsIn (items : List (Except PyError (Option Call))) : List Call :=
  items.filterMap fun
    | .ok c => c
    | .error _ => none

/-- What the row of the subscription has become, if this payment was the last one to write it. -/
def Carries (env : Env) (s : Store) (plan_key : String) (subscription row : Subscription) :
    Option String → Prop
  | none => row = subscription
  | some e => row.provider_subscription_id = linkOf env s e ∧
      (row.recurring = true ↔ plan_key ≠ "FREE" ∧ linkOf env s e ≠ "")

/-- A later payment overwrites the link. -/
theorem Carries.or {plan_key e : String} {subscription row last : Subscription}
    {later : Option String} (h : Carries env s plan_key subscription row (some e))
    (hlater : Carries env s plan_key row last later) :
    Carries env s plan_key subscription last (later.or (some e)) := by
  cases later with
  | none =>
    obtain rfl := hlater
    exact h
  | some e' => exact hlater

/-- The row after one completed payment. -/
theorem Progress.writes {user_id : ℕ} {plan_key : String} {done : List String} {u : Store}
    {subscription : Subscription} (h : Progress s t user_id done)
    (hcall : IsRenewal env user_id plan_key c) (heffect : CallEffect env t u user_id plan_key c)
    (hcompletes : completes env t c = true)
    (hfound : (t.subscriptions.find? fun x => x.user_id == user_id) = some subscription) :
    ∃ row : Subscription, u.subscriptions = t.subscriptions.set row ∧ row.pk = subscription.pk ∧
      row.user_id = user_id ∧ Carries env s plan_key subscription row (some (callId env c)) := by
  have howner : subscription.user_id = user_id := by simpa using Table.of_find? hfound
  have hlink : linkOf env t (callId env c) = linkOf env s (callId env c) := by
    rcases h.rows (callId env c) with ⟨_, hsame⟩ | ⟨hclosed, _⟩
    · simp only [linkOf, hsame.invoice]
    · rw [completes_of_closed hcall hclosed] at hcompletes
      cases hcompletes
  obtain ⟨_, hwrites⟩ := heffect.writes hcompletes
  rw [hlink] at hwrites
  obtain ⟨row, hrow, hpk, huser, hcarries⟩ := hwrites subscription hfound
  exact ⟨row, hrow, hpk, huser.trans howner, hcarries⟩

/-- After the payments the row carries the link of the last one that was completed. -/
theorem reconcileEach_carries {user_id : ℕ} {plan_key : String} {done : List String} {u : Store}
    {items : List (Except PyError (Option Call))} {results : List (Option Reply)}
    {subscription : Subscription} (hlower : env.host.lower "intasend" = "intasend")
    (hitems : ∀ c, .ok (some c) ∈ items → IsRenewal env user_id plan_key c)
    (h : Progress s t user_id done)
    (hfound : (t.subscriptions.find? fun x => x.user_id == user_id) = some subscription)
    (hrun : reconcileEach env t items = (.ok results, u)) :
    ∃ row : Subscription, u.subscriptions = t.subscriptions.set row ∧ row.pk = subscription.pk ∧
      row.user_id = user_id ∧
      Carries env s plan_key subscription row (lastCompleted env s done (callsIn items)) := by
  -- `Progress` relates the store of the call to the one before the event
  induction items generalizing t done subscription results with
  | nil =>
    cases hrun
    have howner : subscription.user_id = user_id := by simpa using Table.of_find? hfound
    exact ⟨subscription, (Table.set_of_mem (Table.mem_of_find? hfound)).symm, rfl, howner, rfl⟩
  | cons item rest ih =>
    have hrest : ∀ c, .ok (some c) ∈ rest → IsRenewal env user_id plan_key c := by
      intro c hc
      exact hitems c (List.mem_cons_of_mem _ hc)
    match item with
    | .error err => cases hrun
    | .ok none => exact ih hrest h hfound hrun
    | .ok (some c) =>
      have hcall := hitems c List.mem_cons_self
      unfold reconcileEach at hrun
      split at hrun
      · cases hrun
      · next o hok =>
        have heffect := call_renewal hlower hcall hok
        have hstep := h.step heffect
        have hiff := h.completes_iff hcall
        split at hrun
        · next results' v hlater =>
          cases hrun
          have hlast : lastCompleted env s done (callsIn (.ok (some c) :: rest)) =
              if completes env s c = true ∧ callId env c ∉ done then
                (lastCompleted env s (callId env c :: done) (callsIn rest)).or
                  (some (callId env c))
              else lastCompleted env s done (callsIn rest) := rfl
          rw [hlast]
          by_cases hcompletes : completes env t c = true
          · rw [if_pos hcompletes] at hstep
            rw [if_pos (hiff.mp hcompletes)]
            obtain ⟨row, hrow, hpk, huser, hcarries⟩ := h.writes hcall heffect hcompletes hfound
            have howner : subscription.user_id = user_id := by simpa using Table.of_find? hfound
            have hfound' : (o.store.subscriptions.find? fun x => x.user_id == user_id) =
                some row := by
              rw [hrow, Table.find?_set_key (f := Subscription.user_id) hfound hpk huser,
                if_pos rfl]
            obtain ⟨last, hlastrow, hlastpk, hlastuser, hlastcarries⟩ :=
              ih hrest hstep hfound' hlater
            have hset : u.subscriptions = t.subscriptions.set last := by
              rw [hlastrow, hrow]
              exact Table.set_set hlastpk.symm
            exact ⟨last, hset, hlastpk.trans hpk, hlastuser, hcarries.or hlastcarries⟩
          · rw [if_neg hcompletes] at hstep
            rw [if_neg fun hfirst => hcompletes (hiff.mpr hfirst)]
            obtain ⟨hsame, _⟩ := heffect.leaves (by simpa using hcompletes)
            rw [← hsame] at hfound
            rw [← hsame]
            exact ih hrest hstep hfound hlater
        · cases hrun

/-! ## The event -/

/-- The user of a subscription is unique, as the column is a one-to-one relation. -/
def OneSubscription (s : Store) : Prop :=
  s.subscriptions.Unique fun a b => a.user_id = b.user_id

/-- The store once the subscription of an event has been found. -/
structure Found (s s₁ : Store) (subscription : Subscription) (subscription_id : String) : Prop where
  rest : s₁ = { s with subscriptions := s₁.subscriptions }
  found : (s₁.subscriptions.find? fun u => u.user_id == subscription.user_id) = some subscription
  /-- The next event finds the row once it is linked. -/
  again : ∀ row : Subscription, row.pk = subscription.pk →
    row.provider_subscription_id = subscription_id →
      ((s₁.subscriptions.set row).find? fun u => u.provider_subscription_id == subscription_id) =
        some row

theorem found_of_recurringSubscription {s₁ : Store} {subscription : Subscription}
    {subscription_id : String} (hunique : OneSubscription s)
    (h : recurringSubscription s subscription_id = (some subscription, s₁)) :
    Found s s₁ subscription subscription_id := by
  unfold recurringSubscription at h
  split at h
  · next known hknown =>
    cases h
    have hmem := Table.mem_of_find? hknown
    refine ⟨rfl, ?_, ?_⟩
    · apply Table.find?_of_only hmem (by simp)
      intro q hq huser
      exact hunique q hq subscription hmem (by simpa using huser)
    · intro row hpk hlink
      have hbefore : subscription.provider_subscription_id = subscription_id := by
        simpa using Table.of_find? hknown
      have hreplaced : Table.replace row subscription = row := if_pos hpk.symm
      rw [Table.find?_set, hknown, Option.map_some, hreplaced]
      intro q hq hqpk
      obtain rfl := Table.eq_of_pk_eq hq hmem (hqpk.trans hpk)
      rw [hbefore, hlink]
  · next hnone =>
    split at h
    · cases h
    · split at h
      · cases h
      · next old hold =>
        cases h
        have hmem := Table.mem_of_find? hold
        have howner := Table.of_find? hold
        refine ⟨rfl, ?_, ?_⟩
        · have hkey := Table.find?_set_key (f := Subscription.user_id)
            (r := { old with
              provider := "intasend"
              provider_subscription_id := take 255 subscription_id }) hold rfl
            (by simpa using howner) old.user_id
          rw [hkey, if_pos (by simpa using howner)]
        · intro row hpk hlink
          have hset := Table.set_set (t := s.subscriptions) (q := row) (r := { old with
            provider := "intasend"
            provider_subscription_id := take 255 subscription_id }) hpk.symm
          rw [hset]
          apply Table.find?_of_only (Table.mem_set_self hmem hpk.symm) (by simpa using hlink)
          -- no other row carries the link
          intro q hq hqlink
          rcases Table.mem_set hq with rfl | ⟨hqmem, _⟩
          · rfl
          · rw [Table.not_of_find?_none hnone hqmem] at hqlink
            cases hqlink

theorem recurringSubscription_of_find {t : Store} {row : Subscription} {subscription_id : String}
    (h : (t.subscriptions.find? fun u => u.provider_subscription_id == subscription_id) =
      some row) :
    recurringSubscription t subscription_id = (some row, t) := by
  unfold recurringSubscription
  rw [h]

/-- What the last write leaves is linked exactly if it carries the id and is recurring. -/
theorem Found.linked_iff {s₁ t : Store} {subscription row : Subscription} {subscription_id : String}
    (h : Found s s₁ subscription subscription_id)
    (hrow : t.subscriptions = s₁.subscriptions.set row) (hpk : row.pk = subscription.pk)
    (huser : row.user_id = subscription.user_id) :
    Linked t subscription.user_id subscription_id ↔
      row.provider_subscription_id = subscription_id ∧ row.recurring = true := by
  have hfound : (t.subscriptions.find? fun u => u.user_id == subscription.user_id) = some row := by
    rw [hrow, Table.find?_set_key (f := Subscription.user_id) h.found hpk huser, if_pos rfl]
  constructor
  · rintro ⟨found, hfind, hlink, hrecurring, _⟩
    rw [hfound] at hfind
    obtain rfl := Option.some.inj hfind
    exact ⟨hlink, hrecurring⟩
  · rintro ⟨hlink, hrecurring⟩
    refine ⟨row, hfound, hlink, hrecurring, ?_⟩
    have hagain := h.again row hpk hlink
    rw [← hrow] at hagain
    rw [recurringSubscription_of_find hagain]

/-- A recurring event that is answered. -/
structure Renewal (env : Env) (s : Store) (d : Delivery) (data : Dict) (payments : List Value)
    (subscription : Subscription) : Prop where
  handler : d.handler = .intasend
  parsed : parsePayload env.host d.payload = .dict data
  payments : recurringPayments data = some payments
  found : (recurringSubscription s ((data.get "subscription_id").toStr env.host)).1 =
    some subscription
  completed : ∀ c ∈ callsOf env s d, callStatus env c = .completed
  answered : ∃ w, (handle env s d).reply = .ok (some w)

/-- An answered event has passed the gates of the handler. -/
theorem Renewal.handled {d : Delivery} {data : Dict} {payments : List Value}
    {subscription : Subscription} (h : Renewal env s d data payments subscription) :
    handle env s d = handleRecurring env s data (d.payload.raw env.host) payments d.now := by
  obtain ⟨handler, payload, lookup, now⟩ := d
  obtain rfl : handler = .intasend := h.handler
  obtain ⟨w, hw⟩ := h.answered
  by_cases hgate : env.settings.INTASEND_WEBHOOK_CHALLENGE = "" ∨
      ∀ data, parsePayload env.host payload = .dict data → challengeOk env data = false
  · rcases handle_intasend_gate hgate with heq | heq
    · rw [heq] at hw
      cases hw
    · rw [heq] at hw
      cases hw
  · rw [not_or] at hgate
    obtain ⟨hconf, hchallenge⟩ := hgate
    have hok : challengeOk env data = true := by
      by_contra hbad
      apply hchallenge
      intro data' hdata'
      have hsame := h.parsed
      rw [hdata'] at hsame
      cases hsame
      simpa using hbad
    rw [handle_intasend s lookup now hconf h.parsed hok, h.payments]

/-- The calls of the delivery are those of the loop. -/
theorem Renewal.calls {d : Delivery} {data : Dict} {payments : List Value}
    {subscription : Subscription} (h : Renewal env s d data payments subscription) :
    callsOf env s d = callsIn (payments.map (recurringCall env data
      ((data.get "subscription_id").toStr env.host) subscription d.now)) := by
  unfold callsOf
  rw [h.parsed]
  dsimp only
  rw [h.handler, h.payments]
  dsimp only
  unfold recurringCalls
  dsimp only
  rw [h.found]
  rfl

/-- What holds of a duplicate, of an error and after the work holds of a delivery. -/
theorem receive_elim {P : Handled → Prop} {q : Receipt} {dup : WebhookReply}
    {work : Store → PaymentWebhookEvent → Handled}
    (hdup : s.processed q.provider q.event_key = true → P ⟨.ok (some dup), s⟩)
    (hwork : ∀ s' event, Opened s s' q event → P (work s' event))
    (herror : P ⟨.error .DataError, s⟩) : P (receive env s q dup work) := by
  rcases receive_cases env s q dup work with ⟨hproc, heq⟩ | ⟨s', event, hopen, heq⟩ | ⟨_, heq⟩
  · rw [heq]
    exact hdup hproc
  · rw [heq]
    exact hwork s' event hopen
  · rw [heq]
    exact herror

/-- The row in the end, as the condition says it. -/
theorem carries_iff {subscription_id : String} {subscription row : Subscription}
    {last : Option String}
    (h : Carries env s (upper env.host subscription.plan) subscription row last) :
    row.provider_subscription_id = subscription_id ∧ row.recurring = true ↔
      LastLinks env s subscription subscription_id last := by
  cases last with
  | none =>
    obtain rfl := h
    rfl
  | some e =>
    obtain ⟨hlink, hrecurring⟩ := h
    unfold LastLinks
    rw [hlink, hrecurring]
    constructor
    · rintro ⟨rfl, hplan, hne⟩
      exact ⟨rfl, hne, hplan⟩
    · rintro ⟨rfl, hne, hplan⟩
      exact ⟨rfl, hplan, hne⟩

/-- The calls of the event, from the store in which its work starts. -/
theorem Renewal.carries {d : Delivery} {data : Dict} {payments : List Value}
    {subscription : Subscription} {s₁ s' t : Store} {results : List (Option Reply)}
    (h : Renewal env s d data payments subscription)
    (hlower : env.host.lower "intasend" = "intasend")
    (hfound : Found s s₁ subscription ((data.get "subscription_id").toStr env.host))
    (hopen : s' = { s₁ with events := s'.events })
    (hrun : reconcileEach env s' (payments.map (recurringCall env data
      ((data.get "subscription_id").toStr env.host) subscription d.now)) = (.ok results, t)) :
    ∃ row : Subscription, t.subscriptions = s₁.subscriptions.set row ∧
      row.pk = subscription.pk ∧ row.user_id = subscription.user_id ∧
      Carries env s (upper env.host subscription.plan) subscription row
        (lastCompleted env s [] (callsOf env s d)) := by
  -- only the subscription and the event row have been written so far
  have hrest : s' = { s with subscriptions := s₁.subscriptions, events := s'.events } := by
    rw [hopen, hfound.rest]
  have hprogress : Progress s s' subscription.user_id [] := by
    rw [hrest]
    exact ⟨SameUsers.refl s, fun e => Or.inl ⟨List.not_mem_nil, rfl, rfl⟩⟩
  have hrow : (s'.subscriptions.find? fun u => u.user_id == subscription.user_id) =
      some subscription := by
    rw [hrest]
    exact hfound.found
  have hcompleted := h.completed
  rw [h.calls] at hcompleted ⊢
  have hitems : ∀ c, .ok (some c) ∈ payments.map (recurringCall env data
      ((data.get "subscription_id").toStr env.host) subscription d.now) →
        IsRenewal env subscription.user_id (upper env.host subscription.plan) c := by
    intro c hc
    obtain ⟨item, _, hcall⟩ := List.mem_map.mp hc
    exact recurringCall_renewal hlower hcall
      (hcompleted c (List.mem_filterMap.mpr ⟨_, hc, rfl⟩))
  have hsame : s'.subscriptions = s₁.subscriptions := by rw [hrest]
  rw [← hsame]
  exact reconcileEach_carries hlower hitems hprogress hrow hrun

/-- The subscription of a recurring event stays linked exactly if the last payment that activates it
does so for an invoice with the id of the event, or if none does and it was linked and recurring
already. -/
theorem renewal_links_iff (env : Env) (s : Store) (d : Delivery) (data : Dict)
    (payments : List Value) (subscription : Subscription)
    (hlower : env.host.lower "intasend" = "intasend") (hunique : OneSubscription s)
    (h : Renewal env s d data payments subscription) :
    Linked (handle env s d).store subscription.user_id
        ((data.get "subscription_id").toStr env.host) ↔
      KeepsLink env s d subscription ((data.get "subscription_id").toStr env.host) := by
  obtain ⟨w, hw⟩ := h.answered
  obtain ⟨s₁, hsub⟩ : ∃ s₁, recurringSubscription s
      ((data.get "subscription_id").toStr env.host) = (some subscription, s₁) :=
    ⟨_, Prod.ext h.found rfl⟩
  have hfound := found_of_recurringSubscription hunique hsub
  have hseen : seen env s d =
      s₁.processed "intasend" (eventKey env.host data (d.payload.raw env.host)) := by
    unfold seen deliveryKey
    rw [h.handler, h.parsed, hfound.rest]
    rfl
  have hlinked : ∀ t row, t.subscriptions = s₁.subscriptions.set row → row.pk = subscription.pk →
      row.user_id = subscription.user_id →
      Carries env s (upper env.host subscription.plan) subscription row
        (if seen env s d then none else lastCompleted env s [] (callsOf env s d)) →
      (Linked t subscription.user_id ((data.get "subscription_id").toStr env.host) ↔
        KeepsLink env s d subscription ((data.get "subscription_id").toStr env.host)) := by
    intro t row hrow hpk huser hcarries
    rw [hfound.linked_iff hrow hpk huser]
    exact carries_iff hcarries
  rw [h.handled] at hw ⊢
  revert hw
  unfold handleRecurring
  simp only [hsub]
  refine receive_elim (P := fun handled => handled.reply = .ok (some w) →
    (Linked handled.store subscription.user_id ((data.get "subscription_id").toStr env.host) ↔
      KeepsLink env s d subscription ((data.get "subscription_id").toStr env.host))) ?_ ?_ ?_
  · -- a duplicate leaves the row as it was found
    intro hproc _
    have hmem := Table.mem_of_find? hfound.found
    apply hlinked s₁ subscription (Table.set_of_mem hmem).symm rfl rfl
    rw [if_pos (hseen.trans hproc)]
    rfl
  · intro s' event hopen hw
    have hfresh : ¬ seen env s d = true := by
      rw [hseen.trans hopen.fresh]
      exact Bool.false_ne_true
    cases hrun : reconcileEach env s' (payments.map (recurringCall env data
      ((data.get "subscription_id").toStr env.host) subscription d.now)) with
    | mk results t =>
      rw [hrun] at hw
      cases results with
      | error e => cases hw
      | ok results =>
        obtain ⟨row, hset, hpk, huser, hcarries⟩ := h.carries hlower hfound hopen.rest hrun
        refine hlinked _ row hset hpk huser ?_
        rw [if_neg hfresh]
        exact hcarries
  · intro hw
    cases hw

/-! ## Two renewals -/

/-- A linked subscription of user 7. -/
def linkedRow : Subscription :=
  { freshSubscription ⟨7, none⟩ 0 1 with
    plan := "PRO"
    recurring := true
    provider := "intasend"
    provider_subscription_id := "SUB1" }

/-- A store with that subscription, and with the invoice of its first payment. -/
def subscribed : Store :=
  { twoInvoices with
    invoices := ⟨[{ firstInvoice with
      external_id := some "INV1"
      metadata := [("subscription_id", .str "SUB1")] }], by decide⟩
    subscriptions := ⟨[linkedRow], by decide⟩ }

/-- One completed payment. -/
def renewalPayments (invoice_id : String) : List Value :=
  [.dict [("invoice", .dict [("invoice_id", .str invoice_id), ("state", .str "COMPLETE"),
    ("value", .str "10.00")])]]

def renewalData (invoice_id : String) : Dict :=
  [("challenge", .str "challenge"), ("subscription_id", .str "SUB1"),
    ("payments", .list (renewalPayments invoice_id))]

def renewalOf (invoice_id : String) : Delivery where
  handler := .intasend
  payload := .dict (renewalData invoice_id)
  lookup _ := .none
  now := 0

theorem renewal_renewalOf {invoice_id : String}
    (hcompleted : ∀ c ∈ callsOf .default subscribed (renewalOf invoice_id),
      callStatus .default c = .completed)
    (hanswer : (handle .default subscribed (renewalOf invoice_id)).answer.isSome = true) :
    Renewal .default subscribed (renewalOf invoice_id) (renewalData invoice_id)
      (renewalPayments invoice_id) linkedRow where
  handler := rfl
  parsed := rfl
  payments := rfl
  found := by
    have hid : ((renewalData invoice_id).get "subscription_id").toStr Env.default.host = "SUB1" :=
      rfl
    rw [hid]
    decide +kernel
  completed := hcompleted
  answered := reply_of_answer hanswer

/-- A payment for the invoice that carries the subscription id keeps the link. -/
theorem renewal_links_first :
    Linked (handle .default subscribed (renewalOf "INV1")).store 7 "SUB1" := by
  have hlower : Env.default.host.lower "intasend" = "intasend" := by decide +kernel
  have hunique : OneSubscription subscribed := by
    intro a ha b hb _
    rw [List.mem_singleton.mp ha, List.mem_singleton.mp hb]
  have hrenewal : Renewal .default subscribed (renewalOf "INV1") (renewalData "INV1")
      (renewalPayments "INV1") linkedRow :=
    renewal_renewalOf (by decide +kernel) (by decide +kernel)
  have hlast : lastCompleted .default subscribed [] (callsOf .default subscribed
      (renewalOf "INV1")) = some "INV1" := by decide +kernel
  have hlink : linkOf .default subscribed "INV1" = "SUB1" := by decide +kernel
  refine (renewal_links_iff .default subscribed (renewalOf "INV1") (renewalData "INV1")
    (renewalPayments "INV1") linkedRow hlower hunique hrenewal).mpr ?_
  unfold KeepsLink
  rw [if_neg (by decide +kernel), hlast]
  exact ⟨hlink, by decide, by decide +kernel⟩

/-- A payment with an id of its own: the invoice that it creates carries no subscription id, and
the subscription is neither linked nor recurring any more. -/
theorem renewal_unlinks :
    Renewal .default subscribed (renewalOf "INV2") (renewalData "INV2") (renewalPayments "INV2")
        linkedRow ∧
      ((handle .default subscribed (renewalOf "INV2")).store.subscriptions.find? fun u =>
        u.user_id == 7).map (fun u => (u.provider_subscription_id, u.recurring)) =
          some ("", false) ∧
      ¬ Linked (handle .default subscribed (renewalOf "INV2")).store 7 "SUB1" := by
  have hrow : ((handle .default subscribed (renewalOf "INV2")).store.subscriptions.find? fun u =>
      u.user_id == 7).map (fun u => (u.provider_subscription_id, u.recurring)) =
        some ("", false) := by decide +kernel
  refine ⟨renewal_renewalOf (by decide +kernel) (by decide +kernel), hrow, ?_⟩
  rintro ⟨subscription, hfound, hlink, _⟩
  rw [hfound, Option.map_some, hlink] at hrow
  have hempty : "SUB1" = "" := congrArg Prod.fst (Option.some.inj hrow)
  exact absurd hempty (by decide)

end AlgoBot.Billing
