import AlgoBot.Billing.Runs
import Mathlib.Tactic.Linarith

/-!
# Referral credits

`_activate_subscription_and_referral` writes a reward row that names the referrer and
the referee, and adds its amount to the credits of a trading profile. The profile is
the one of the referee, who has just paid.

* `credits_received`: in every sequence of calls the credits of every profile are what
  its user has received as a referee, and no pair of users is rewarded twice.
* `credits_granted_iff`: they follow the rows that name the user as a referrer exactly
  if no call rewards somebody else than the payer. `credits_not_granted` is the first
  payment of a referred user.
-/

namespace AlgoBot.Billing

open AlgoBot.Core AlgoBot.Python

variable {env : Env} {s t : Store} {c : Call} {r : Report} {invoice : Invoice} {o : Outcome}

/-! ## The ledger and the balances -/

/-- The referral credits on the user's trading profile. -/
def credits (s : Store) (u : ℕ) : ℚ :=
  (((s.users.get? u).bind User.trading_profile).map Profile.referral_credits).getD 0

/-- What the reward rows of a referee add up to, `user.referral_rewards_received`. -/
def received (s : Store) (u : ℕ) : ℚ :=
  s.rewards.sum fun w => if w.referee = u then w.amount_credits else 0

/-- What the reward rows of a referrer add up to, `user.referral_rewards_given`. -/
def granted (s : Store) (u : ℕ) : ℚ :=
  s.rewards.sum fun w => if w.referrer = u then w.amount_credits else 0

/-- Everybody's credits beyond the initial value are what they have received as a referee. -/
def Received (initial : ℕ → ℚ) (s : Store) : Prop := ∀ u, credits s u - initial u = received s u

/-- Everybody's credits beyond the initial value are what they are granted as a referrer. -/
def Granted (initial : ℕ → ℚ) (s : Store) : Prop := ∀ u, credits s u - initial u = granted s u

/-- `unique_together = ('referrer', 'referee')`. -/
def OneReward (s : Store) : Prop :=
  ∀ w ∈ s.rewards, ∀ v ∈ s.rewards, w.referrer = v.referrer → w.referee = v.referee → w = v

/-- The rewards are once a pair, and the credits are what the referees have received. -/
structure Balanced (initial : ℕ → ℚ) (s : Store) : Prop where
  received : Received initial s
  once : OneReward s

/-- `reward_amount`. -/
def rewardAmount (env : Env) (invoice : Invoice) : ℚ :=
  if env.settings.REFERRAL_CREDIT_AMOUNT ≤ 0 then (invoice.amount_cents / 100) * (5 / 100)
  else env.settings.REFERRAL_CREDIT_AMOUNT

/-- `ReferralReward.objects.filter(referrer=..., referee=...).first()`. -/
def findReward (s : Store) (referrer referee : ℕ) : Option ReferralReward :=
  s.rewards.find? fun w => w.referrer == referrer && w.referee == referee

/-- An activation for the user grants a first reward to somebody else. -/
def rewardsOther (env : Env) (s : Store) (user : User) (invoice : Invoice) : Bool :=
  (user.trading_profile.bind Profile.referred_by).any fun referrer =>
    referrer != user.pk && (findReward s referrer user.pk).isNone && rewardAmount env invoice != 0

/-- The call completes a payment for the first time, of a user somebody else is rewarded for. -/
def misdirects (env : Env) (s : Store) (c : Call) : Bool :=
  match enter env s c with
  | .ok (.report r) =>
    (target? s r).any fun invoice =>
      (check env.host r invoice).isNone && paymentOwned s r && mergedStatus s r == .completed &&
        !wasCompleted s r invoice && rewardsOther env s r.user (settledInvoice s r invoice)
  | _ => false

/-- The call misdirects no credits, or is rolled back. -/
def Directs (env : Env) (s : Store) (c : Call) : Prop :=
  misdirects env s c = true → ∃ e, reconcile env s c = .error e

/-! ## What an activation does to them -/

/-- The two stores have the same users and rewards. -/
structure SameRewards (s t : Store) : Prop where
  users : t.users = s.users
  rewards : t.rewards = s.rewards

theorem SameRewards.refl (s : Store) : SameRewards s s := ⟨rfl, rfl⟩

theorem rewardReferrer_same (env : Env) (user : User) (invoice : Invoice)
    (h : SameRewards s t) :
    SameRewards (rewardReferrer env s user invoice) (rewardReferrer env t user invoice) := by
  unfold rewardReferrer
  rw [h.rewards, h.users]
  split
  · exact h
  · split
    · exact h
    · dsimp only
      split
      · exact h
      · exact ⟨rfl, rfl⟩

/-- The activation writes the subscription, and then the reward. -/
theorem activate_rewards {user : User} {plan : String} {now : Time}
    (h : activateSubscriptionAndReferral env s user invoice plan now = .ok t) :
    SameRewards (rewardReferrer env s user invoice) t := by
  unfold activateSubscriptionAndReferral at h
  dsimp only at h
  split at h
  · next hnone =>
    -- the subscription is there once it has been created
    split at hnone
    · next hfound =>
      rw [hfound] at hnone
      cases hnone
    · rw [Table.find?_create, if_pos (by simp [freshSubscription])] at hnone
      cases hnone
  · split at h
    · cases h
      exact rewardReferrer_same env user invoice ⟨rfl, rfl⟩
    · cases h

/-- The store as far as users and rewards go: rewarded or not. -/
def rewarded (env : Env) (s : Store) (user : User) (invoice : Invoice) : Option ℕ → Store
  | some _ => rewardReferrer env s user invoice
  | none => s

theorem record_rewards {payment : Payment} {status : PaymentStatus} {was : Bool}
    (h : record env s r invoice payment status was = .ok o) :
    SameRewards
      (rewarded env s r.user { invoice with paid := invoice.paid || status == .completed }
        o.activated) o.store := by
  unfold record at h
  dsimp only at h
  split at h
  · cases h
  · split at h
    · split at h
      · next s' hact =>
        cases h
        have hrew := activate_rewards hact
        have hsaved : SameRewards s { s with
            payments := s.payments.set (paymentWith r invoice status payment)
            invoices := s.invoices.set
              { invoice with paid := invoice.paid || status == .completed } } := ⟨rfl, rfl⟩
        have hbase := rewardReferrer_same env r.user
          { invoice with paid := invoice.paid || status == .completed } hsaved
        exact ⟨hrew.users.trans hbase.users, hrew.rewards.trans hbase.rewards⟩
      · cases h
    · cases h
      exact ⟨rfl, rfl⟩

theorem SameRewards.trans {u : Store} (h : SameRewards s t) (h' : SameRewards t u) :
    SameRewards s u := ⟨h'.users.trans h.users, h'.rewards.trans h.rewards⟩

theorem rewarded_same {user : User} (h : SameRewards s t) (activated : Option ℕ) :
    SameRewards (rewarded env s user invoice activated)
      (rewarded env t user invoice activated) := by
  cases activated with
  | none => exact h
  | some k => exact rewardReferrer_same env user invoice h

theorem settle_rewards {s' : Store} (hsame : SameRewards s s') (hpays : s'.payments = s.payments)
    (h : settle env s' r invoice = .ok o) :
    SameRewards (rewarded env s r.user (settledInvoice s r invoice) o.activated) o.store := by
  have hpay : s'.paymentOf r.external_id = s.paymentOf r.external_id := by
    rw [paymentOf_eq, paymentOf_eq, hpays]
  unfold settle at h
  rw [hpay] at h
  split at h
  · cases h
    exact hsame
  · dsimp only at h
    split at h
    · next hnone =>
      split at h
      · have hmerged : mergedStatus s r = r.status := by
          simp [mergedStatus, Store.statusOf, hnone]
        rw [settledInvoice, hmerged]
        have hcreated : SameRewards s { s' with
            payments := s'.payments.create _ (pk_freshPayment r (amend r invoice)) } :=
          ⟨hsame.users, hsame.rewards⟩
        exact (rewarded_same hcreated o.activated).trans (record_rewards h)
      · cases h
    · next payment hfound =>
      split at h
      · cases h
        exact hsame
      · have hmerged : mergedStatus s r = merge payment.status r.status := by
          simp [mergedStatus, Store.statusOf, hfound]
        rw [settledInvoice, hmerged]
        exact (rewarded_same hsame o.activated).trans (record_rewards h)

/-- What a transaction does to users and rewards. -/
theorem transaction_rewards (h : transaction env s r = .ok o) :
    ∃ invoice, (o.activated ≠ none → target? s r = some invoice) ∧
      SameRewards (rewarded env s r.user (settledInvoice s r invoice) o.activated) o.store := by
  unfold transaction at h
  split at h
  · next hlookup =>
    split at h
    · cases h
      exact ⟨freshInvoice r s.invoices.nextPk, by simp [answer], SameRewards.refl s⟩
    · next hrequire =>
      dsimp only at h
      split at h
      · cases h
      · next hpos =>
        split at h
        · have hcreated : SameRewards s
              { s with invoices := s.invoices.create _ (pk_freshInvoice r) } := ⟨rfl, rfl⟩
          refine ⟨freshInvoice r s.invoices.nextPk, ?_, settle_rewards hcreated rfl h⟩
          intro _
          simp [target?, hlookup, hrequire, hpos]
        · cases h
  · next invoice hlookup =>
    split at h
    · cases h
      exact ⟨invoice, by simp [answer], SameRewards.refl s⟩
    · next howner =>
      refine ⟨invoice, ?_, settle_rewards (SameRewards.refl s) rfl h⟩
      intro _
      simp only [ne_eq, Decidable.not_not] at howner
      simp [target?, hlookup, howner]

/-- The user of a report is a row of the store. -/
theorem Reports.user_row (h : Reports env s c r) : s.users.get? r.user.pk = some r.user := by
  have hfind : ∀ {n : Option ℤ} {u : User}, findUser s n = some u →
      s.users.get? u.pk = some u := by
    intro n u hu
    unfold findUser at hu
    split at hu
    · split at hu
      · exact Table.get?_pk (Table.get?_eq_some.mp hu).1
      · cases hu
    · cases hu
  unfold Reports enter at h
  dsimp only at h
  split at h
  · cases h
  · rcases bind_ok.mp h with ⟨res, _, h⟩
    split at h
    · cases h
    · next user huser =>
      rcases bind_ok.mp h with ⟨m, _, h⟩
      simp only [pure, Except.pure, Except.ok.injEq, Entry.report.injEq] at h
      rw [← h]
      exact hfind huser

/-- A call leaves users and rewards as they are, or activates a subscription and rewards. -/
theorem call_rewards (env : Env) (s : Store) (c : Call) :
    activated env s c = none ∧ SameRewards s (after env s c) ∨
    ∃ r invoice o, Reports env s c r ∧ reconcile env s c = .ok o ∧ Accepts env s r invoice ∧
      mergedStatus s r = .completed ∧ wasCompleted s r invoice = false ∧
      SameRewards (rewardReferrer env s r.user (settledInvoice s r invoice)) (after env s c) := by
  cases hact : activated env s c with
  | some k =>
    right
    rcases of_activated hact with ⟨r, invoice, o, hrep, hok, hacc, _, _, hmerged, hwas⟩
    have htrans : transaction env s r = .ok o := by
      unfold Reports at hrep
      simpa [reconcile, hrep, bind, Except.bind] using hok
    rcases transaction_rewards htrans with ⟨i, htarget, hsame⟩
    rw [activated_of_ok hok] at hact
    have hi := htarget (by simp [hact])
    rw [hacc.target, Option.some.injEq] at hi
    subst hi
    rw [hact] at hsame
    refine ⟨r, invoice, o, hrep, hok, hacc, hmerged, hwas, ?_⟩
    rw [after_of_ok hok]
    exact hsame
  | none =>
    refine Or.inl ⟨rfl, ?_⟩
    cases hcall : reconcile env s c with
    | error e => simpa [after, hcall] using SameRewards.refl s
    | ok o =>
      rw [after_of_ok hcall]
      rw [activated_of_ok hcall] at hact
      unfold reconcile at hcall
      rcases bind_ok.mp hcall with ⟨entry, _, hentry⟩
      cases entry with
      | no_external_id =>
        cases hentry
        exact SameRewards.refl s
      | unresolved_user provider status external_id =>
        cases hentry
        exact SameRewards.refl s
      | report r =>
        rcases transaction_rewards hentry with ⟨i, _, hsame⟩
        rw [hact] at hsame
        exact hsame

/-! ## What a reward does to the credits -/

theorem credits_same (h : SameRewards s t) (u : ℕ) : credits t u = credits s u := by
  rw [credits, credits, h.users]

theorem received_same (h : SameRewards s t) (u : ℕ) : received t u = received s u := by
  rw [received, received, h.rewards]

theorem granted_same (h : SameRewards s t) (u : ℕ) : granted t u = granted s u := by
  rw [granted, granted, h.rewards]

/-- Writing the row of a user changes the credits of that user only. -/
theorem credits_set {row old : User} (hset : t.users = s.users.set row)
    (hrow : s.users.get? row.pk = some old) (u : ℕ) :
    credits t u = if u = row.pk then (row.trading_profile.map Profile.referral_credits).getD 0
      else credits s u := by
  have hget := Table.get?_set_of_some (r := row) hrow u
  rw [credits, hset, hget, pk_user]
  by_cases hu : u = row.pk
  · rw [if_pos hu, if_pos hu]
    rfl
  · rw [if_neg hu, if_neg hu]
    rfl

/-- The rows an activation writes when it creates the reward. -/
def grant (s : Store) (user : User) (profile : Profile) (referrer : ℕ) (amount : ℚ) : Store :=
  { s with
    rewards := s.rewards.create (fun pk => ⟨pk, referrer, user.pk, amount⟩) fun _ => rfl
    users := s.users.set
      { user with
        trading_profile :=
          some { profile with referral_credits := profile.referral_credits + amount } } }

/-- The activation of `user` rewards `referrer`: the row names the referrer, the credits go to
the profile of `user`. -/
structure Grants (env : Env) (s t : Store) (user : User) (invoice : Invoice) (referrer : ℕ) :
    Prop where
  fresh : findReward s referrer user.pk = none
  other : rewardsOther env s user invoice = true ↔
    referrer ≠ user.pk ∧ rewardAmount env invoice ≠ 0
  credits : ∀ u, credits t u =
    credits s u + if u = user.pk then rewardAmount env invoice else 0
  received : ∀ u, received t u =
    received s u + if user.pk = u then rewardAmount env invoice else 0
  granted : ∀ u, granted t u =
    granted s u + if referrer = u then rewardAmount env invoice else 0
  rewards : t.rewards = s.rewards.create
    (fun pk => ⟨pk, referrer, user.pk, rewardAmount env invoice⟩) fun _ => rfl

theorem grants_grant {user : User} {profile : Profile} {referrer : ℕ}
    (hrow : s.users.get? user.pk = some user) (hprofile : user.trading_profile = some profile)
    (hnone : findReward s referrer user.pk = none)
    (hother : rewardsOther env s user invoice = true ↔
      referrer ≠ user.pk ∧ rewardAmount env invoice ≠ 0) :
    Grants env s (grant s user profile referrer (rewardAmount env invoice)) user invoice
      referrer := by
  refine ⟨hnone, hother, ?_, ?_, ?_, rfl⟩
  · intro u
    have hold : credits s user.pk = profile.referral_credits := by
      simp [credits, hrow, hprofile]
    have hnew : credits (grant s user profile referrer (rewardAmount env invoice)) u =
        if u = user.pk then profile.referral_credits + rewardAmount env invoice
        else credits s u := credits_set (t := grant s user profile referrer _) rfl hrow u
    rw [hnew]
    by_cases hu : u = user.pk
    · rw [if_pos hu, if_pos hu, hu, hold]
    · rw [if_neg hu, if_neg hu, add_zero]
  · intro u
    rw [received, grant, Table.sum_create, add_comm]
    rfl
  · intro u
    rw [granted, grant, Table.sum_create, add_comm]
    rfl

/-- The reward part of an activation does nothing, or grants a reward. -/
theorem rewardReferrer_cases (env : Env) (invoice : Invoice) {user : User}
    (hrow : s.users.get? user.pk = some user) :
    rewardReferrer env s user invoice = s ∧ rewardsOther env s user invoice = false ∨
    ∃ referrer, Grants env s (rewardReferrer env s user invoice) user invoice referrer := by
  unfold rewardReferrer
  split
  · next hprofile => exact Or.inl ⟨rfl, by simp [rewardsOther, hprofile]⟩
  · next profile hprofile =>
    split
    · next hreferrer => exact Or.inl ⟨rfl, by simp [rewardsOther, hprofile, hreferrer]⟩
    · next referrer hreferrer =>
      dsimp only
      split
      · next w hfound =>
        refine Or.inl ⟨rfl, ?_⟩
        simp [rewardsOther, hprofile, hreferrer, findReward, hfound]
      · next hnone =>
        have hother : rewardsOther env s user invoice = true ↔
            referrer ≠ user.pk ∧ rewardAmount env invoice ≠ 0 := by
          simp [rewardsOther, hprofile, hreferrer, findReward, hnone]
        exact Or.inr ⟨referrer, grants_grant hrow hprofile hnone hother⟩

/-! ## One step -/

/-- A call that activates, once it is known to return, misdirects what its activation rewards. -/
theorem misdirects_eq (hrep : Reports env s c r) (hacc : Accepts env s r invoice)
    (hmerged : mergedStatus s r = .completed) (hwas : wasCompleted s r invoice = false) :
    misdirects env s c = rewardsOther env s r.user (settledInvoice s r invoice) := by
  unfold Reports at hrep
  simp [misdirects, hrep, hacc.target, hacc.checked, hacc.owned, hmerged, hwas]

/-- A call that misdirects and returns does activate. -/
theorem activated_of_misdirects (h : misdirects env s c = true) (hok : reconcile env s c = .ok o) :
    activated env s c ≠ none := by
  unfold misdirects at h
  split at h
  · next r hrep =>
    rcases (Option.any_eq_true _ _).mp h with ⟨invoice, htarget, hall⟩
    simp only [Bool.and_eq_true, beq_iff_eq, Option.isNone_iff_eq_none, Bool.not_eq_true'] at hall
    rcases hall with ⟨⟨⟨⟨hcheck, howned⟩, hmerged⟩, hwas⟩, _⟩
    have hrec := recorded_of_accepts hrep ⟨htarget, hcheck, howned⟩ hok
    rw [activated_of_ok hok, hrec.activated, if_pos ⟨hmerged, hwas⟩]
    simp
  · cases h

/-- The payer's share, seen from either side. -/
theorem share_comm (amount : ℚ) (payer u : ℕ) :
    (if u = payer then amount else 0) = if payer = u then amount else 0 := by
  by_cases hu : u = payer
  · rw [if_pos hu, if_pos hu.symm]
  · rw [if_neg hu, if_neg (Ne.symm hu)]

/-- A call gives credits to the referee of the reward it creates. -/
theorem call_received {initial : ℕ → ℚ} (h : Received initial s) :
    Received initial (after env s c) := by
  rcases call_rewards env s c with ⟨_, hsame⟩ | ⟨r, invoice, o, hrep, _, _, _, _, hsame⟩
  · intro u
    rw [credits_same hsame, received_same hsame]
    exact h u
  · intro u
    have hbefore := h u
    rw [credits_same hsame, received_same hsame]
    rcases rewardReferrer_cases env (settledInvoice s r invoice)
      hrep.user_row with ⟨heq, _⟩ | ⟨referrer, hgrant⟩
    · rw [heq]
      exact hbefore
    · rw [hgrant.credits, hgrant.received, share_comm]
      linarith

/-- A call keeps the credits in step with the rewards exactly if it directs them. -/
theorem call_granted {initial : ℕ → ℚ} (h : Granted initial s) :
    Granted initial (after env s c) ↔ Directs env s c := by
  rcases call_rewards env s c with ⟨hnone, hsame⟩ | ⟨r, invoice, o, hrep, hok, hacc, hmerged,
    hwas, hsame⟩
  · constructor
    · intro _ hmis
      cases hcall : reconcile env s c with
      | error e => exact ⟨e, rfl⟩
      | ok o => exact absurd hnone (activated_of_misdirects hmis hcall)
    · intro _ u
      rw [credits_same hsame, granted_same hsame]
      exact h u
  · have hdirects : Directs env s c ↔
        rewardsOther env s r.user (settledInvoice s r invoice) = false := by
      rw [Directs, misdirects_eq hrep hacc hmerged hwas, hok]
      simp
    rw [hdirects]
    rcases rewardReferrer_cases env (settledInvoice s r invoice)
      hrep.user_row with ⟨heq, hnot⟩ | ⟨referrer, hgrant⟩
    · rw [heq] at hsame
      refine iff_of_true ?_ hnot
      intro u
      rw [credits_same hsame, granted_same hsame]
      exact h u
    · have hcredits : ∀ u, credits (after env s c) u = credits s u + _ := fun u =>
        (credits_same hsame u).trans (hgrant.credits u)
      have hgranted : ∀ u, granted (after env s c) u = granted s u + _ := fun u =>
        (granted_same hsame u).trans (hgrant.granted u)
      constructor
      · intro hafter
        by_contra hother
        rw [Bool.not_eq_false, hgrant.other] at hother
        rcases hother with ⟨hne, hamount⟩
        -- the payer has credits that no reward accounts for
        have hpayer := hafter r.user.pk
        have hbefore := h r.user.pk
        rw [hcredits, hgranted, if_pos rfl, if_neg hne] at hpayer
        apply hamount
        linarith
      · intro hnot u
        have hself : referrer = r.user.pk ∨ rewardAmount env (settledInvoice s r invoice) = 0 := by
          by_contra hneither
          rw [not_or] at hneither
          rw [hgrant.other.mpr hneither] at hnot
          cases hnot
        have hbefore := h u
        rw [hcredits, hgranted]
        rcases hself with hself | hzero
        · rw [hself, share_comm]
          linarith
        · rw [hzero]
          simpa using hbefore

/-- A reward is only created where there is none for the pair. -/
theorem call_oneReward (h : OneReward s) : OneReward (after env s c) := by
  rcases call_rewards env s c with ⟨_, hsame⟩ | ⟨r, invoice, o, hrep, hok, hacc, hmerged,
    hwas, hsame⟩
  · unfold OneReward
    rw [hsame.rewards]
    exact h
  · unfold OneReward
    rw [hsame.rewards]
    rcases rewardReferrer_cases env (settledInvoice s r invoice)
      hrep.user_row with ⟨heq, _⟩ | ⟨referrer, hgrant⟩
    · rw [heq]
      exact h
    · rw [hgrant.rewards]
      have hold : ∀ w ∈ s.rewards, w.referrer = referrer → w.referee = r.user.pk → False := by
        intro w hw href hre
        have hnot := Table.not_of_find?_none hgrant.fresh hw
        simp [href, hre] at hnot
      intro w hw v hv href hre
      rcases List.mem_cons.mp hw with rfl | hw <;> rcases List.mem_cons.mp hv with rfl | hv
      · rfl
      · exact absurd hre.symm (hold v hv href.symm)
      · exact absurd hre (hold w hw href)
      · exact h w hw v hv href hre

/-! ## Every sequence of calls -/

theorem run_after (env : Env) (s : Store) (cs : List Call) :
    (reconciler env).Run s cs (cs.foldl (after env) s) :=
  (Machine.run_iff_foldl fun _ _ => next_reconciler).mpr rfl

/-- All along any sequence of calls everybody's credits are what they have received as a
referee, and no pair of users is rewarded twice. -/
theorem credits_received (env : Env) (initial : ℕ → ℚ) (s : Store) (cs : List Call)
    (hinitial : Balanced initial s) :
    Machine.RunIf.Always (reconciler env) (Balanced initial) s cs := by
  intro before rest u _ hu
  refine hu.invariant ?_ hinitial
  intro s c s' _ hs hn
  rw [eq_after hn]
  exact ⟨call_received hs.received, call_oneReward hs.once⟩

/-- A store in which user 9 has referred user 7, who has yet to pay. -/
def referred : Store :=
  { twoInvoices with
    users := ⟨[⟨7, some ⟨some 9, 0⟩⟩, ⟨9, some ⟨none, 0⟩⟩], by decide⟩ }

theorem credits_referred (u : ℕ) : credits referred u = 0 := by
  simp only [credits, referred, Table.get?, Table.find?, List.find?_cons, List.find?_nil]
  split
  · rfl
  · split
    · rfl
    · rfl

/-- The first payment of the referred user, and a repeat of it. -/
theorem credits_received_twice :
    Machine.RunIf.Always (reconciler .default) (Balanced fun _ => 0) referred
      [reported "CHK1" "COMPLETE" "IS-7-PRO-1", reported "CHK1" "COMPLETE" "IS-7-PRO-1"] :=
  credits_received .default (fun _ => 0) referred _
    { received := by
        intro u
        have hreceived : received referred u = 0 := rfl
        rw [credits_referred, hreceived, sub_zero]
      once := by
        intro w hw
        cases hw }

/-- The first payment of the referred user: the reward names user 9 as the referrer, and its
0.50 go to user 7. -/
theorem credits_not_granted :
    OneReward referred ∧ Granted (fun _ => 0) referred ∧
    ¬ Machine.RunIf.Always (reconciler .default) (Granted fun _ => 0) referred
      [reported "CHK1" "COMPLETE" "IS-7-PRO-1"] := by
  refine ⟨?_, ?_, ?_⟩
  · intro w hw
    cases hw
  · intro u
    have hgranted : granted referred u = 0 := rfl
    rw [credits_referred, hgranted, sub_zero]
  · intro halways
    have hpaid := halways.last rfl 9
    revert hpaid
    decide +kernel

/-- The credits follow the rows that name a user as the referrer exactly if no call rewards
somebody else than the payer. -/
theorem credits_granted_iff (env : Env) (initial : ℕ → ℚ) (s : Store) (cs : List Call) :
    Machine.RunIf.Always (reconciler env) (Granted initial) s cs ↔
      Granted initial s ∧
        (reconciler env).RunIf (Directs env) s cs (cs.foldl (after env) s) := by
  have hstep : ∀ s c s', True → Granted initial s → (reconciler env).next s c = some s' →
      (Granted initial s' ↔ Directs env s c) := by
    intro s c s' _ hs hn
    rw [eq_after hn]
    exact call_granted hs
  exact Machine.RunIf.always_iff (fun _ _ _ _ _ => trivial) hstep (run_after env s cs) trivial

end AlgoBot.Billing
