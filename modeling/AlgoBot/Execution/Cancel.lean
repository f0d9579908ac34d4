import AlgoBot.Execution.Ownership

/-!
# Cancelled orders

`OrderService.cancel` against the placing call and the workers. Each of them
holds its own copy of the order and saves it at its own time.

`cancel_final`: after a cancel that finds nothing left to write in the placing
call, no worker at the entry, and a claimable entry only where it has seen it,
no step submits the order and its status stays `cancelled`. `cancel_submitted`
is a manual order that is cancelled after it is validated: `execute` goes by the
status in its memory, saves over the cancellation, and submits.
-/

namespace AlgoBot.Execution

open AlgoBot.Core AlgoBot.Python

variable {h : Host} {manual : Bool} {t t' u : State} {a : Action}

/-! ## The condition on cancels -/

/-- The placing call has a write of the order or its entry, or a submission, still to come. -/
def Placer.writes : Placer → Bool
  | .placing pc _ => pc != .logQueued
  | .exec _ => true
  | .done => false

/-- Only the placing call, the workers and cancel act. A cancel succeeds only once the order is
placed, while no worker holds the entry, and not past an entry that came after it looked. -/
def CancelsPlaced (t : State) : Action → Prop
  | .cancel i =>
      t.placer.writes = false ∧ t.shared.queue ≠ some .processing ∧
        (claimable t.shared.queue = true → t.absent i = false)
  | .place _ | .work _ _ | .lookup _ => True
  | _ => False

instance (t : State) (a : Action) : Decidable (CancelsPlaced t a) := by
  cases a <;> unfold CancelsPlaced <;> infer_instance

theorem CancelsPlaced.orderly (hg : CancelsPlaced t a) : Orderly t a := by
  cases a with
  | retry i => exact hg.elim
  | _ => trivial

/-! ## After a cancel -/

/-- The order is cancelled and nobody has anything left to do with it. -/
structure Cancelled (t : State) : Prop where
  status : t.shared.order.status = .cancelled
  placed : t.placer.writes = false
  idle : ∀ i, (t.workers i).busy = false
  unclaimable : claimable t.shared.queue = false

theorem cancelled_of_cancel {i : ℕ} (hg : CancelsPlaced t (.cancel i)) (ho : Owns t)
    (hs : step h manual t (.cancel i) = some t') : Cancelled t' := by
  rcases hg with ⟨hplaced, hfree, hseen⟩
  rcases step_cancel hs with ⟨r, hr, rfl⟩
  rcases cancelOrder_effect hr with ⟨_, rfl⟩
  constructor
  · rfl
  · exact hplaced
  · exact ho.idle_of_free hfree
  · show claimable (if claimable (t.entry i) then some .cancelled else t.shared.queue) = false
    split
    · rfl
    · -- an entry that is claimable would have been seen
      rename_i hentry
      cases hclaim : claimable t.shared.queue with
      | false => rfl
      | true =>
        have habsent := hseen hclaim
        simp [State.entry, habsent, hclaim] at hentry

/-- A placing call with nothing left to write ends or is already over. -/
theorem placeStep_of_placed {p p' : Placer} {s s' : Shared} {o : Outcome}
    (hp : p.writes = false) (hs : placeStep h manual s p o = some (p', s')) :
    p'.writes = false ∧ s' = s ∧ p.submits o = false := by
  cases p with
  | placing pc order =>
    have hpc : pc = .logQueued := by simpa [Placer.writes] using hp
    subst hpc
    cases o with
    | reply r => cases hs
    | _ =>
      cases hs
      exact ⟨rfl, rfl, rfl⟩
  | exec x => cases hp
  | done => cases o <;> cases hs

/-- Nothing but the end of the placing call is left, and it changes no row. -/
theorem step_cancelled (hg : CancelsPlaced t a) (hi : Cancelled t)
    (hs : step h manual t a = some t') : Cancelled t' ∧ submits t a = false := by
  cases a with
  | place o =>
    rcases step_place hs with ⟨p, r, hp, rfl⟩
    rcases placeStep_of_placed hi.placed hp with ⟨hplaced, rfl, hsub⟩
    exact ⟨⟨hi.status, hplaced, hi.idle, hi.unclaimable⟩, hsub⟩
  | work i o =>
    -- an idle worker could only claim the entry
    rcases step_work hs with ⟨w, r, hw, rfl⟩
    have hidle := hi.idle i
    rcases workStep_effect hw with ⟨_, _, hclaim, _⟩ | ⟨hbusy, _⟩ | ⟨hbusy, _⟩ | ⟨hbusy, _⟩
    · rw [hi.unclaimable] at hclaim
      cases hclaim
    all_goals
      rw [hidle] at hbusy
      cases hbusy
  | lookup i =>
    -- what another cancel has read does not matter any more
    rcases step_lookup hs with ⟨_, rfl⟩
    exact ⟨⟨hi.status, hi.placed, hi.idle, hi.unclaimable⟩, rfl⟩
  | cancel i =>
    -- a cancelled order cannot be cancelled again
    rcases step_cancel hs with ⟨r, hr, rfl⟩
    simp [cancelOrder, hi.status] at hr
  | _ => exact hg.elim

/-! ## Cancel is final -/

/-- Once a cancel of the run has succeeded, no step submits the order and every state has it
`cancelled`. -/
theorem cancel_final {order : Order} {as bs : List Action} {i : ℕ}
    (hrun : (engine h manual).RunIf CancelsPlaced (State.start order) (as ++ .cancel i :: bs) u) :
    ∃ t', (engine h manual).Run (State.start order) (as ++ [.cancel i]) t' ∧
      (engine h manual).RunIf
        (fun s a => s.shared.order.status = .cancelled ∧ submits s a = false) t' bs u ∧
      u.shared.order.status = .cancelled := by
  rcases hrun.split with ⟨t, hbefore, hrest⟩
  cases hrest with
  | @cons _ t' _ _ _ hg hcancel hlater =>
    have howns : Owns t := by
      apply hbefore.invariant _ (owns_start order)
      intro s a s' hg ho hs
      exact step_owns hg.orderly ho hs
    have hstep_cancel : step h manual t (.cancel i) = some t' := hcancel
    have hcancelled : Cancelled t' := cancelled_of_cancel hg howns hstep_cancel
    have hstep : ∀ s a s', CancelsPlaced s a → Cancelled s →
        (engine h manual).next s a = some s' → Cancelled s' ∧ submits s a = false := by
      intro s a s' hg hi hs
      exact step_cancelled hg hi hs
    refine ⟨t', ?_, ?_, ?_⟩
    · apply (hbefore.mono fun _ _ _ => trivial).append
      exact Machine.RunIf.cons trivial hcancel (Machine.RunIf.nil t')
    · apply (hlater.forall_steps hstep hcancelled).mono
      intro s a hgood
      exact ⟨hgood.2.1.status, hgood.2.2⟩
    · have hend : Cancelled u := by
        apply hlater.invariant _ hcancelled
        intro s a s' hg hi hs
        exact (hstep s a s' hg hi hs).1
      exact hend.status

/-- The order is cancelled while the placing call still has its log entry to write. -/
theorem cancel_final_queued :
    ∃ t' u, (engine .ascii false).Run (State.start draft)
        (List.replicate 6 (.place .ok) ++ [.cancel 0]) t' ∧
      (engine .ascii false).RunIf
        (fun s a => s.shared.order.status = .cancelled ∧ submits s a = false) t' [.place .ok] u ∧
      u.shared.order.status = .cancelled := by
  have hexec : ((engine .ascii false).execIf CancelsPlaced (State.start draft)
      (List.replicate 6 (.place .ok) ++ .cancel 0 :: [.place .ok])).isSome = true := by
    decide +kernel
  obtain ⟨u, hrun⟩ := Machine.exists_runIf hexec
  rcases cancel_final hrun with ⟨t', hbefore, hlater, hend⟩
  exact ⟨t', u, hbefore, hlater, hend⟩

/-- A manual order is validated, then cancelled, then passes the risk gate and the checks of
`execute`, which look at the status in memory. It is saved as sent and submitted. -/
theorem cancel_submitted :
    ∃ t' u, (engine .ascii true).Run (State.start draft)
        (List.replicate 3 (.place .ok) ++ [.cancel 0]) t' ∧
      t'.shared.order.status = .cancelled ∧
      (engine .ascii true).Run t' (List.replicate 4 (.place .ok)) u ∧
      u.shared.order.status = .sent_to_broker ∧ u.shared.broker.invoked = 1 := by
  have hcancelled : ((engine .ascii true).exec (State.start draft)
      (List.replicate 3 (.place .ok) ++ [.cancel 0])).any (fun t' =>
        t'.shared.order.status == .cancelled &&
          ((engine .ascii true).exec t' (List.replicate 4 (.place .ok))).any fun u =>
            u.shared.order.status == .sent_to_broker && u.shared.broker.invoked == 1) = true := by
    decide +kernel
  rcases (Option.any_eq_true _ _).mp hcancelled with ⟨t', ht', hlater⟩
  rw [Bool.and_eq_true, Option.any_eq_true] at hlater
  rcases hlater with ⟨hstatus, u, hu, hend⟩
  rw [Bool.and_eq_true, beq_iff_eq, beq_iff_eq] at hend
  exact ⟨t', u, Machine.exec_eq_some_iff.mp ht', beq_iff_eq.mp hstatus,
    Machine.exec_eq_some_iff.mp hu, hend.1, hend.2⟩

end AlgoBot.Execution
