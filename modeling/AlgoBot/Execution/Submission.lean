import AlgoBot.Execution.Ownership

/-!
# Submissions of one order

When is an order passed to `adapter.place_order` although the broker has not
rejected an earlier submission? `submitted_once`: never, in a run whose accepted
retries find every earlier submission rejected, the order placed and its entry
free. Neither the workers, nor the placing call, nor a broker event, nor
recovery submits twice.

The status a retry looks at does not say as much. `resubmitted` is a run in which
the worker's last handler records `failed` after a reply of unknown status, and
the retry of the order is accepted; `retry_resubmits` shows that from an accepted
retry an idle worker always gets to a second submission.
-/

namespace AlgoBot.Execution

open AlgoBot.Core AlgoBot.Python

variable {h : Host} {manual : Bool} {t t' : State} {a : Action}

/-! ## The condition on retries -/

/-- A retry is accepted only when the broker has rejected every submission so far, the order is
placed, and no worker holds the entry. -/
def Confirmed (t : State) : Action → Prop
  | .retry _ =>
      t.shared.broker.allRejected = true ∧ t.placer.ahead = false ∧
        t.shared.queue ≠ some .processing
  | _ => True

instance (t : State) : (a : Action) → Decidable (Confirmed t a)
  | .retry _ => inferInstanceAs (Decidable (_ = true ∧ _ = false ∧ _ ≠ _))
  | .place _ | .work _ _ | .lookup _ | .cancel _ | .eventRead _ _ _ | .eventSave _ _ =>
      inferInstanceAs (Decidable True)

theorem Confirmed.orderly (hg : Confirmed t a) : Orderly t a := by
  cases a with
  | retry i => exact hg.right
  | _ => trivial

/-! ## The invariant -/

/-- Whoever may still submit finds every earlier submission rejected. -/
structure Confirms (t : State) : Prop where
  placing : t.placer.ahead = true → t.shared.broker.allRejected = true
  queued : claimable t.shared.queue = true → t.shared.broker.allRejected = true
  working : ∀ i, (t.workers i).ahead = true → t.shared.broker.allRejected = true

theorem confirms_start (order : Order) : Confirms (State.start order) := by
  have hnone : (State.start order).shared.broker.allRejected = true := rfl
  constructor
  · intro _
    exact hnone
  · intro _
    exact hnone
  · intro _ _
    exact hnone

/-- Where the book only grows, and nobody comes closer to a submission, the invariant stays. -/
theorem Confirms.grow (hi : Confirms t) (hb : t.shared.broker.Grows t'.shared.broker)
    (hp : t'.placer.ahead = true → t.placer.ahead = true ∨ claimable t.shared.queue = true)
    (hq : claimable t'.shared.queue = true →
      t.placer.ahead = true ∨ claimable t.shared.queue = true)
    (hw : ∀ i, (t'.workers i).ahead = true →
      (t.workers i).ahead = true ∨ claimable t.shared.queue = true) : Confirms t' := by
  have hahead : t.placer.ahead = true ∨ claimable t.shared.queue = true →
      t'.shared.broker.allRejected = true := by
    intro hor
    apply hb.allRejected
    rcases hor with hor | hor
    · exact hi.placing hor
    · exact hi.queued hor
  constructor
  · intro hn
    exact hahead (hp hn)
  · intro hn
    exact hahead (hq hn)
  · intro i hn
    rcases hw i hn with hn | hn
    · exact hb.allRejected (hi.working i hn)
    · exact hahead (Or.inr hn)

/-- When nobody can submit any more, nothing has to be rejected. -/
theorem Confirms.of_finished (hp : t.placer.ahead = false)
    (hq : claimable t.shared.queue = false) (hw : ∀ i, (t.workers i).ahead = false) :
    Confirms t := by
  constructor
  · intro hn
    simp [hp] at hn
  · intro hn
    simp [hq] at hn
  · intro i hn
    simp [hw i] at hn

theorem Owns.not_ahead (ho : Owns t) (hfree : t.shared.queue ≠ some .processing) (i : ℕ) :
    (t.workers i).ahead = false := by
  cases hw : (t.workers i).ahead with
  | false => rfl
  | true =>
    have hbusy := busy_of_ahead hw
    rw [ho.idle_of_free hfree i] at hbusy
    cases hbusy

theorem step_confirms_place {o : Outcome} (ho : Owns t) (hi : Confirms t)
    (hs : step h manual t (.place o) = some t') : Confirms t' := by
  rcases step_place hs with ⟨p, r, hp, rfl⟩
  rcases placeStep_effect hp with ⟨hahead, hp', _, _, hb⟩ | ⟨hsub, hp', hq, _⟩ | ⟨_, hp', hq, hb⟩
  · -- the enqueue makes the entry claimable; the order was not submitted yet
    apply hi.grow (Broker.Grows.of_eq hb)
    · intro _
      exact Or.inl hahead
    · intro _
      exact Or.inl hahead
    · intro i hn
      exact Or.inl hn
  · -- the submission by `place_manual_order`: there is no entry, so no worker follows
    have hahead := Placer.ahead_of_submits hsub
    have hnone := ho.unqueued hahead
    apply Confirms.of_finished hp'
    · show claimable r.queue = false
      rw [hq, hnone]
      rfl
    · exact ho.not_ahead (by simp [hnone])
  · apply hi.grow hb
    · intro hn
      rcases hp' with hp' | hp'
      · simp [hp'] at hn
      · exact Or.inl hp'
    · intro hn
      right
      rw [← hq]
      exact hn
    · intro i hn
      exact Or.inl hn

theorem step_confirms_work {i : ℕ} {o : Outcome} (ho : Owns t) (hi : Confirms t)
    (hs : step h manual t (.work i o) = some t') : Confirms t' := by
  rcases step_work hs with ⟨w, r, hw, rfl⟩
  -- what holds of the other workers is unchanged
  have hothers : ∀ (j : ℕ) (P : Prop),
      (Function.update t.workers i w j).ahead = true → (w.ahead = true → P) →
      (t.workers j).ahead = true ∨ P := by
    intro j P hj hP
    by_cases hji : j = i
    · rw [hji, Function.update_self] at hj
      exact Or.inr (hP hj)
    · rw [Function.update_of_ne hji] at hj
      exact Or.inl hj
  rcases workStep_effect hw with ⟨_, _, hclaim, hq, hb⟩ | ⟨hbusy, _, hw', hq, _⟩ |
    ⟨hbusy, _, hw', hq, hb⟩ | ⟨hbusy, _, hidle, hq, hb⟩
  · -- the claim: the entry was claimable
    apply hi.grow (Broker.Grows.of_eq hb)
    · intro hn
      exact Or.inl hn
    · intro hn
      simp [hq, claimable] at hn
    · intro j hn
      exact hothers j _ hn fun _ => hclaim
  · -- the submission: the worker holds the entry, so nobody else is ahead
    have hheld := ho.owned.holds i hbusy
    apply Confirms.of_finished
    · exact ho.placed hbusy
    · show claimable r.queue = false
      rw [hq, hheld]
      rfl
    · intro j
      show (Function.update t.workers i w j).ahead = false
      by_cases hji : j = i
      · rw [hji, Function.update_self, hw']
      · rw [Function.update_of_ne hji]
        cases hj : (t.workers j).ahead with
        | false => rfl
        | true =>
          have hidle := ho.owned.others hbusy hji
          rw [busy_of_ahead hj] at hidle
          cases hidle
  · apply hi.grow hb
    · intro hn
      exact Or.inl hn
    · intro hn
      right
      rw [← hq]
      exact hn
    · intro j hn
      by_cases hji : j = i
      · left
        rw [hji]
        have hn : w.ahead = true := by simpa [hji] using hn
        rcases hw' with hw' | hw'
        · simp [hw'] at hn
        · exact hw'
      · left
        simpa [hji] using hn
  · -- the worker stops, and the entry it leaves is not claimable
    apply hi.grow (Broker.Grows.of_eq hb)
    · intro hn
      exact Or.inl hn
    · intro hn
      rcases hq with hq | hq <;> simp [hq, claimable] at hn
    · intro j hn
      apply hothers j _ hn
      intro hw'
      simp [hidle, Worker.ahead] at hw'

theorem Confirms.of_event (hi : Confirms t) (he : EventEffect t t') : Confirms t' := by
  apply hi.grow he.grows
  · intro hn
    rw [he.placer] at hn
    exact Or.inl hn
  · intro hn
    rw [he.queue] at hn
    exact Or.inr hn
  · intro i hn
    rw [he.workers] at hn
    exact Or.inl hn

theorem step_confirms (hg : Confirmed t a) (ho : Owns t) (hi : Confirms t)
    (hs : step h manual t a = some t') : Confirms t' := by
  cases a with
  | place o => exact step_confirms_place ho hi hs
  | work i o => exact step_confirms_work ho hi hs
  | lookup i =>
    rcases step_lookup hs with ⟨_, rfl⟩
    exact ⟨hi.placing, hi.queued, hi.working⟩
  | cancel i =>
    rcases step_cancel hs with ⟨r, hr, rfl⟩
    rcases cancelOrder_effect hr with ⟨_, rfl⟩
    -- a cancelled entry is not claimable; any other is the one that was there
    refine ⟨hi.placing, ?_, hi.working⟩
    intro hn
    cases hclaim : claimable (t.entry i) with
    | false => exact hi.queued (by simpa [hclaim] using hn)
    | true =>
      simp only [hclaim, if_true] at hn
      cases hn
  | retry i =>
    rcases step_retry hs with ⟨r, hr, rfl⟩
    rcases retryOrder_effect hr with ⟨_, _, rfl⟩
    -- the condition is what makes the entry safe to claim
    have hall := hg.1
    exact ⟨fun _ => hall, fun _ => hall, fun _ _ => hall⟩
  | eventRead j about event => exact hi.of_event (step_eventRead hs)
  | eventSave j saved => exact hi.of_event (step_eventSave hs)

/-! ## No second submission -/

/-- The invariant at a submission. -/
theorem Confirms.allRejected (hi : Confirms t) (hsub : submits t a = true) :
    t.shared.broker.allRejected = true := by
  cases a with
  | place o => exact hi.placing (Placer.ahead_of_submits hsub)
  | work i o => exact hi.working i (Worker.ahead_of_submits hsub)
  | _ => cases hsub

/-- In a run whose accepted retries are confirmed, every submission finds all earlier ones
definitively rejected. -/
theorem submitted_once {order : Order} {as : List Action}
    (hrun : (engine h manual).RunIf Confirmed (State.start order) as t) :
    (engine h manual).RunIf
      (fun s a => submits s a = true → ∀ k, k < s.shared.broker.invoked →
        k ∈ s.shared.broker.rejected)
      (State.start order) as t := by
  have hstep : ∀ s a s', Confirmed s a → Owns s ∧ Confirms s →
      (engine h manual).next s a = some s' →
      (Owns s' ∧ Confirms s') ∧ (submits s a = true → s.shared.broker.allRejected = true) := by
    intro s a s' hg hinv hs
    rcases hinv with ⟨ho, hi⟩
    refine ⟨⟨step_owns hg.orderly ho hs, step_confirms hg ho hi hs⟩, ?_⟩
    intro hsub
    exact hi.allRejected hsub
  have hsteps := hrun.forall_steps hstep ⟨owns_start order, confirms_start order⟩
  apply hsteps.mono
  intro s a hgood hsub
  exact Broker.allRejected_iff.mp (hgood.2.2 hsub)

/-! ## Concrete runs -/

/-- `place_order` from the created order to its last log entry. -/
def placing : List Action := List.replicate 7 (.place .ok)

/-- Worker 0 claims the entry, reads the order, passes the checks and saves `sent_to_broker`. -/
def working : List Action := List.replicate 4 (.work 0 .ok)

/-- The broker answers worker 0 with a status. -/
def answered (status : String) : Action :=
  .work 0 (.reply (.returns (.dict [("status", .str status)])))

/-- A rejected order is retried and submitted again. -/
theorem submitted_once_rejected :
    ∃ t, (engine .ascii false).RunIf
      (fun s a => submits s a = true → ∀ k, k < s.shared.broker.invoked →
        k ∈ s.shared.broker.rejected)
      (State.start draft)
      (placing ++ working ++ [.work 0 .ok, answered "rejected"] ++ List.replicate 3 (.work 0 .ok) ++
        [.retry 0] ++ working ++ [.work 0 .ok]) t := by
  have hexec : ((engine .ascii false).execIf Confirmed (State.start draft)
      (placing ++ working ++ [.work 0 .ok, answered "rejected"] ++
        List.replicate 3 (.work 0 .ok) ++ [.retry 0] ++ working ++ [.work 0 .ok])).isSome =
      true := by
    decide +kernel
  obtain ⟨t, hrun⟩ := Machine.exists_runIf hexec
  exact ⟨t, submitted_once hrun⟩

/-- The reply has a status the engine does not know, and the log entry about it fails. The last
handler finds the order `queued`, records `failed`, and the retry is accepted. -/
def unknownReply : List Action :=
  placing ++ working ++ [.work 0 .ok, answered "pending_new", .work 0 .ok,
    .work 0 (.fail ⟨.Exception, "log"⟩)] ++ List.replicate 3 (.work 0 .ok) ++ [.retry 0] ++ working

/-- Submission 0 may be live at the broker when the worker submits again. -/
theorem resubmitted :
    ∃ t, (engine .ascii false).Run (State.start draft) (unknownReply ++ [.work 0 .ok]) t ∧
      ¬ (engine .ascii false).RunIf
        (fun s a => submits s a = true → ∀ k, k < s.shared.broker.invoked →
          k ∈ s.shared.broker.rejected)
        (State.start draft) (unknownReply ++ [.work 0 .ok]) t := by
  have hsub : ((engine .ascii false).exec (State.start draft) unknownReply).any (fun s =>
      submits s (.work 0 .ok) && !s.shared.broker.allRejected &&
        ((engine .ascii false).next s (.work 0 .ok)).isSome) = true := by decide +kernel
  rcases (Option.any_eq_true _ _).mp hsub with ⟨s, hexec, hlast⟩
  simp only [Bool.and_eq_true, Bool.not_eq_true'] at hlast
  rcases hlast with ⟨⟨hsubmits, hopen⟩, hnext⟩
  rcases Option.isSome_iff_exists.mp hnext with ⟨t, ht⟩
  refine ⟨t, ?_, ?_⟩
  · apply (Machine.exec_eq_some_iff.mp hexec).append
    exact Machine.RunIf.cons trivial ht (Machine.RunIf.nil t)
  · intro hrun
    have hall := Broker.allRejected_iff.mpr (hrun.guard_of_exec hexec hsubmits)
    rw [hopen] at hall
    cases hall

/-- From an accepted retry an idle worker gets to a submission, with nothing new rejected. -/
theorem retry_resubmits {i w : ℕ} (hs : step h manual t (.retry i) = some t')
    (hidle : t.workers w = .idle) :
    ∃ u, (engine h manual).Run t' (List.replicate 4 (.work w .ok)) u ∧
      submits u (.work w .ok) = true ∧ u.shared.broker = t.shared.broker := by
  rcases step_retry hs with ⟨r, hr, rfl⟩
  rcases retryOrder_effect hr with ⟨_, _, rfl⟩
  refine ⟨_, Machine.exec_eq_some_iff.mp (by
    simp [Machine.exec, List.replicate, engine, step, workStep, claimable, execStep, execOk,
      checkStep,
      Exec.start, Worker.after, Shared.setStatus, hidle]
    rfl), ?_, ?_⟩
  · simp [submits, Worker.submits, Exec.submits]
  · rfl

end AlgoBot.Execution
