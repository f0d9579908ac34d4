import AlgoBot.Core.Owner
import AlgoBot.Execution.Engine

/-!
# What a step does to the queue entry and the broker

One lemma for each actor says what its step does to the queue entry, to the
broker's book and to its own chance of still submitting. From these comes the
invariant the claims about the engine share, `Owns`: a busy worker owns the
entry, no two workers are busy, and while the placing call has yet to enqueue or
submit, there is no entry. It holds along every run in which no retry is
accepted over an entry a worker holds, or while the order is still being placed
(`Orderly`).
-/

namespace AlgoBot.Execution

open AlgoBot.Core AlgoBot.Python

variable {h : Host} {manual : Bool} {s s' : Shared} {o : Outcome}

/-! ## The broker's book -/

/-- The book `b'` rejects at least what `b` rejects, over the same submissions. -/
structure Broker.Grows (b b' : Broker) : Prop where
  invoked : b'.invoked = b.invoked
  rejected : ∀ k, k ∈ b.rejected → k ∈ b'.rejected

theorem Broker.Grows.refl (b : Broker) : b.Grows b := ⟨rfl, fun _ hk => hk⟩

theorem Broker.Grows.of_eq {b b' : Broker} (hb : b' = b) : b.Grows b' := by
  rw [hb]
  exact Broker.Grows.refl b

theorem Broker.grows_reject (b : Broker) (k : ℕ) : b.Grows (b.reject k) := by
  unfold Broker.reject
  split
  · constructor
    · rfl
    · intro j hj
      exact List.mem_cons_of_mem k hj
  · exact Broker.Grows.refl b

theorem Broker.mem_reject {b : Broker} {k : ℕ} (hk : k < b.invoked) :
    k ∈ (b.reject k).rejected := by
  unfold Broker.reject
  rw [dif_pos hk]
  exact List.mem_cons_self

theorem ExecutionEvent.grows_book (ev : ExecutionEvent) (about : ℕ) (b : Broker) :
    b.Grows (ev.book about b) := by
  unfold ExecutionEvent.book
  split
  · exact b.grows_reject about
  · exact Broker.Grows.refl b

theorem Broker.Grows.allRejected {b b' : Broker} (hb : b.Grows b') (hall : b.allRejected = true) :
    b'.allRejected = true := by
  rw [Broker.allRejected_iff] at hall ⊢
  intro k hk
  rw [hb.invoked] at hk
  exact hb.rejected k (hall k hk)

/-! ## A step of `execute` -/

/-- `execute` has its submission still ahead of it. -/
def Exec.ahead (x : Exec) : Bool := x.pc == .check || x.pc == .saveSent || x.pc == .submit

def ExecNext.ahead : ExecNext → Bool
  | .running x => x.ahead
  | _ => false

theorem Exec.ahead_of_submits {x : Exec} (hsub : x.submits o = true) : x.ahead = true := by
  cases o with
  | ok =>
    have hpc : x.pc = .submit := by simpa [Exec.submits] using hsub
    simp [Exec.ahead, hpc]
  | fail e => simp [Exec.submits] at hsub
  | reply r => simp [Exec.submits] at hsub

/-- A step of `execute` submits, or submits nothing and goes no closer to a submission. -/
inductive ExecEffect (x : Exec) (o : Outcome) (n : ExecNext) (s s' : Shared) : Prop
  | submits : x.submits o = true → n.ahead = false → s'.queue = s.queue →
      s'.broker = s.broker.invoke → ExecEffect x o n s s'
  | goes_on : x.submits o = false → (n.ahead = false ∨ x.ahead = true) → s'.queue = s.queue →
      s.broker.Grows s'.broker → ExecEffect x o n s s'

theorem awaitStep_effect (h : Host) (x : Exec) (s : Shared) (r : BrokerReply) :
    (awaitStep h x s r).1.ahead = false ∧ (awaitStep h x s r).2.queue = s.queue ∧
      s.broker.Grows (awaitStep h x s r).2.broker := by
  cases r with
  | raises e => exact ⟨rfl, rfl, Broker.Grows.refl _⟩
  | returns v =>
    cases v with
    | dict response =>
      simp only [awaitStep, replyStep]
      split
      · exact ⟨rfl, rfl, Broker.Grows.refl _⟩
      · exact ⟨rfl, rfl, Broker.grows_reject _ _⟩
      · exact ⟨rfl, rfl, Broker.Grows.refl _⟩
    | _ => exact ⟨rfl, rfl, Broker.Grows.refl _⟩

theorem execStep_effect {x : Exec} {n : ExecNext} (hs : execStep h x s o = some (n, s')) :
    ExecEffect x o n s s' := by
  rcases x with ⟨pc, order, attempt⟩
  cases o with
  | ok =>
    cases pc with
    | submit =>
      cases hs
      exact ExecEffect.submits rfl rfl rfl rfl
    | check =>
      simp only [execStep, execOk, Option.map_eq_some_iff] at hs
      rcases hs with ⟨n', _, hn⟩
      cases hn
      exact ExecEffect.goes_on rfl (Or.inr rfl) rfl (Broker.Grows.refl _)
    | saveSent =>
      cases hs
      exact ExecEffect.goes_on rfl (Or.inr rfl) rfl (Broker.Grows.refl _)
    | await => cases hs
    | _ =>
      -- after the submission nothing is left ahead
      cases hs
      exact ExecEffect.goes_on rfl (Or.inl rfl) rfl (Broker.Grows.refl _)
  | fail e =>
    cases pc with
    | check =>
      simp only [execStep, Option.map_eq_some_iff] at hs
      rcases hs with ⟨n', _, hn⟩
      cases hn
      exact ExecEffect.goes_on rfl (Or.inr rfl) rfl (Broker.Grows.refl _)
    | await => cases hs
    | _ =>
      cases hs
      exact ExecEffect.goes_on rfl (Or.inl rfl) rfl (Broker.Grows.refl _)
  | reply r =>
    simp only [execStep] at hs
    split at hs
    · -- the reply may only add a rejection to the book
      have heff := awaitStep_effect h ⟨pc, order, attempt⟩ s r
      rw [Option.some.inj hs] at heff
      rcases heff with ⟨hn, hq, hb⟩
      exact ExecEffect.goes_on rfl (Or.inl hn) hq hb
    · cases hs

/-! ## A step of the placing call -/

/-- The placing call has yet to enqueue the order or to submit it. -/
def Placer.ahead : Placer → Bool
  | .placing pc _ => pc != .saveQueued && pc != .logQueued
  | .exec x => x.ahead
  | .done => false

theorem Placer.ahead_of_submits {p : Placer} (hsub : p.submits o = true) : p.ahead = true := by
  cases p with
  | exec x => exact Exec.ahead_of_submits hsub
  | placing pc order => simp [Placer.submits] at hsub
  | done => simp [Placer.submits] at hsub

theorem ahead_placerAfter (n : ExecNext) : (Placer.after n).ahead = n.ahead := by
  cases n <;> rfl

/-- The placing call enqueues, or submits, or does neither. -/
inductive PlaceEffect (p : Placer) (o : Outcome) (p' : Placer) (s s' : Shared) : Prop
  | enqueues : p.ahead = true → p'.ahead = false → p.submits o = false →
      s'.queue = some .pending → s'.broker = s.broker → PlaceEffect p o p' s s'
  | submits : p.submits o = true → p'.ahead = false → s'.queue = s.queue →
      s'.broker = s.broker.invoke → PlaceEffect p o p' s s'
  | goes_on : p.submits o = false → (p'.ahead = false ∨ p.ahead = true) → s'.queue = s.queue →
      s.broker.Grows s'.broker → PlaceEffect p o p' s s'

theorem placeStep_effect {p p' : Placer} (hs : placeStep h manual s p o = some (p', s')) :
    PlaceEffect p o p' s s' := by
  cases p with
  | placing pc order =>
    cases o with
    | ok =>
      cases pc with
      | enqueue =>
        cases hs
        exact PlaceEffect.enqueues rfl rfl rfl rfl rfl
      | saveQueued =>
        -- the entry is there already, this is the status of the order
        cases hs
        exact PlaceEffect.goes_on rfl (Or.inl rfl) rfl (Broker.Grows.refl _)
      | logQueued =>
        cases hs
        exact PlaceEffect.goes_on rfl (Or.inl rfl) rfl (Broker.Grows.refl _)
      | _ =>
        -- before the enqueue the call is ahead of it
        cases hs
        exact PlaceEffect.goes_on rfl (Or.inr rfl) rfl (Broker.Grows.refl _)
    | fail e =>
      cases hs
      exact PlaceEffect.goes_on rfl (Or.inl rfl) rfl (Broker.Grows.refl _)
    | reply r => cases hs
  | exec x =>
    simp only [placeStep, Option.map_eq_some_iff] at hs
    rcases hs with ⟨⟨n, s₁⟩, hx, hn⟩
    cases hn
    have hahead := ahead_placerAfter n
    rcases execStep_effect hx with ⟨hsub, hn, hq, hb⟩ | ⟨hsub, hn, hq, hb⟩
    · exact PlaceEffect.submits hsub (hahead.trans hn) hq hb
    · rw [← hahead] at hn
      exact PlaceEffect.goes_on hsub hn hq hb
  | done => cases o <;> cases hs

/-! ## A step of a worker -/

def Worker.busy : Worker → Bool
  | .idle => false
  | _ => true

/-- The worker has its submission still ahead of it. -/
def Worker.ahead : Worker → Bool
  | .claimed => true
  | .exec x => x.ahead
  | _ => false

theorem busy_of_ahead {w : Worker} (hw : w.ahead = true) : w.busy = true := by
  cases w with
  | idle => exact hw
  | _ => rfl

theorem Worker.ahead_of_submits {w : Worker} (hsub : w.submits o = true) : w.ahead = true := by
  cases w with
  | exec x => exact Exec.ahead_of_submits hsub
  | _ => simp [Worker.submits] at hsub

theorem ahead_caught (order : Order) (e : Exc) : (caught order e).ahead = false := by
  unfold caught
  split <;> rfl

theorem ahead_onCurrent (current order : Order) (e : Exc) :
    (onCurrent current order e).ahead = false := by
  unfold onCurrent
  split
  · split <;> rfl
  · rfl

theorem ahead_workerAfter (n : ExecNext) : (Worker.after n).ahead = n.ahead := by
  cases n with
  | running x => rfl
  | returned order => rfl
  | raised order e => exact ahead_caught order e

/-- A worker claims the entry, submits, goes on, or stops and leaves the entry unclaimable. -/
inductive WorkEffect (w : Worker) (o : Outcome) (w' : Worker) (s s' : Shared) : Prop
  | claims : w = .idle → w' = .claimed → claimable s.queue = true →
      s'.queue = some .processing → s'.broker = s.broker → WorkEffect w o w' s s'
  | submits : w.busy = true → w.submits o = true → w'.ahead = false → s'.queue = s.queue →
      s'.broker = s.broker.invoke → WorkEffect w o w' s s'
  | goes_on : w.busy = true → w.submits o = false → (w'.ahead = false ∨ w.ahead = true) →
      s'.queue = s.queue → s.broker.Grows s'.broker → WorkEffect w o w' s s'
  | stops : w.busy = true → w.submits o = false → w' = .idle →
      (s'.queue = some .done ∨ s'.queue = some .failed) → s'.broker = s.broker →
      WorkEffect w o w' s s'

/-- A step of a busy worker outside `execute` that keeps the entry and the book. -/
theorem WorkEffect.quiet {w w' : Worker} (hbusy : w.busy = true) (hsub : w.submits o = false)
    (hahead : w'.ahead = false ∨ w.ahead = true) (hq : s'.queue = s.queue)
    (hb : s'.broker = s.broker) : WorkEffect w o w' s s' :=
  WorkEffect.goes_on hbusy hsub hahead hq (Broker.Grows.of_eq hb)

theorem workStep_effect {w w' : Worker} (hs : workStep h s w o = some (w', s')) :
    WorkEffect w o w' s s' := by
  cases w with
  | idle =>
    cases o with
    | ok =>
      simp only [workStep] at hs
      split at hs
      · cases hs
        exact WorkEffect.claims rfl rfl ‹_› rfl rfl
      · cases hs
    | fail e => cases hs
    | reply r => cases hs
  | exec x =>
    have hs : (execStep h x s o).map (fun r => (Worker.after r.1, r.2)) = some (w', s') := by
      cases o <;> exact hs
    rw [Option.map_eq_some_iff] at hs
    rcases hs with ⟨⟨n, s₁⟩, hx, hn⟩
    cases hn
    have hahead := ahead_workerAfter n
    rcases execStep_effect hx with ⟨hsub, hn, hq, hb⟩ | ⟨hsub, hn, hq, hb⟩
    · exact WorkEffect.submits rfl hsub (hahead.trans hn) hq hb
    · rw [← hahead] at hn
      exact WorkEffect.goes_on rfl hsub hn hq hb
  | claimed =>
    cases o with
    | reply r => cases hs
    | _ =>
      cases hs
      exact WorkEffect.quiet rfl rfl (Or.inr rfl) rfl rfl
  | markDone order =>
    cases o with
    | ok =>
      cases hs
      exact WorkEffect.stops rfl rfl rfl (Or.inl rfl) rfl
    | fail e =>
      -- an exception of the update is caught like one of `execute`
      cases hs
      exact WorkEffect.quiet rfl rfl (Or.inl (ahead_caught order e)) rfl rfl
    | reply r => cases hs
  | readCurrent order e =>
    cases o with
    | ok =>
      cases hs
      exact WorkEffect.quiet rfl rfl (Or.inl (ahead_onCurrent s.order order e)) rfl rfl
    | fail e' =>
      cases hs
      exact WorkEffect.quiet rfl rfl (Or.inl rfl) rfl rfl
    | reply r => cases hs
  | readContext e =>
    cases o with
    | reply r => cases hs
    | _ =>
      cases hs
      exact WorkEffect.quiet rfl rfl (Or.inl rfl) rfl rfl
  | writeOrder status context =>
    cases o with
    | ok =>
      cases hs
      cases context <;> exact WorkEffect.quiet rfl rfl (Or.inl rfl) rfl rfl
    | fail e =>
      cases hs
      exact WorkEffect.quiet rfl rfl (Or.inl rfl) rfl rfl
    | reply r => cases hs
  | writeQueue =>
    cases o with
    | ok =>
      cases hs
      exact WorkEffect.stops rfl rfl rfl (Or.inr rfl) rfl
    | fail e =>
      cases hs
      exact WorkEffect.quiet rfl rfl (Or.inl rfl) rfl rfl
    | reply r => cases hs

/-! ## Cancel and retry -/

/-- A cancel that succeeds takes a claimable entry away and leaves any other as it is. -/
theorem cancelOrder_effect {entry : Option QueueStatus} (hs : cancelOrder entry s = some s') :
    entry ≠ some .processing ∧
      s' = { s.setStatus .cancelled with
        queue := if claimable entry then some .cancelled else s.queue } := by
  unfold cancelOrder at hs
  split at hs
  · cases hs
  · split at hs
    · cases hs
    · split at hs
      · cases hs
      · rename_i hfree
        exact ⟨hfree, (Option.some.inj hs).symm⟩

/-- A retry is accepted for a failed order whose entry no worker is seen to hold. -/
theorem retryOrder_effect {entry : Option QueueStatus} (hs : retryOrder entry s = some s') :
    s.order.status = .failed ∧ entry ≠ some .processing ∧
      s' = { s.setStatus .queued with queue := some .pending } := by
  unfold retryOrder at hs
  split at hs
  · cases hs
  · split at hs
    · cases hs
    · rename_i hstatus hfree
      exact ⟨not_not.mp hstatus, hfree, (Option.some.inj hs).symm⟩

/-! ## Steps of the machine -/

section Step

variable {a : Action} {t t' : State}

theorem step_place (hs : step h manual t (.place o) = some t') :
    ∃ p r, placeStep h manual t.shared t.placer o = some (p, r) ∧
      t' = { t with placer := p, shared := r } := by
  simp only [step, Option.map_eq_some_iff] at hs
  rcases hs with ⟨⟨p, r⟩, hp, rfl⟩
  exact ⟨p, r, hp, rfl⟩

theorem step_work {i : ℕ} (hs : step h manual t (.work i o) = some t') :
    ∃ w r, workStep h t.shared (t.workers i) o = some (w, r) ∧
      t' = { t with workers := Function.update t.workers i w, shared := r } := by
  simp only [step, Option.map_eq_some_iff] at hs
  rcases hs with ⟨⟨w, r⟩, hw, rfl⟩
  exact ⟨w, r, hw, rfl⟩

theorem step_lookup {i : ℕ} (hs : step h manual t (.lookup i) = some t') :
    t.shared.queue = none ∧ t' = { t with absent := Function.update t.absent i true } := by
  simp only [step] at hs
  split at hs
  · exact ⟨‹_›, (Option.some.inj hs).symm⟩
  · cases hs

theorem step_cancel {i : ℕ} (hs : step h manual t (.cancel i) = some t') :
    ∃ r, cancelOrder (t.entry i) t.shared = some r ∧
      t' = { t with shared := r, absent := Function.update t.absent i false } := by
  simp only [step, Option.map_eq_some_iff] at hs
  rcases hs with ⟨r, hr, rfl⟩
  exact ⟨r, hr, rfl⟩

theorem step_retry {i : ℕ} (hs : step h manual t (.retry i) = some t') :
    ∃ r, retryOrder (t.entry i) t.shared = some r ∧
      t' = { t with shared := r, absent := Function.update t.absent i false } := by
  simp only [step, Option.map_eq_some_iff] at hs
  rcases hs with ⟨r, hr, rfl⟩
  exact ⟨r, hr, rfl⟩

/-- Broker events change neither the entry nor an actor, and submit nothing. -/
structure EventEffect (t t' : State) : Prop where
  queue : t'.shared.queue = t.shared.queue
  grows : t.shared.broker.Grows t'.shared.broker
  placer : t'.placer = t.placer
  workers : t'.workers = t.workers

theorem step_eventRead {j about : ℕ} {event : Dict}
    (hs : step h manual t (.eventRead j about event) = some t') : EventEffect t t' := by
  simp only [step] at hs
  split at hs
  · split at hs
    · cases hs
      exact ⟨rfl, ExecutionEvent.grows_book _ _ _, rfl, rfl⟩
    · cases hs
  · cases hs

theorem step_eventSave {j : ℕ} {saved : Bool}
    (hs : step h manual t (.eventSave j saved) = some t') : EventEffect t t' := by
  simp only [step, Option.map_eq_some_iff] at hs
  rcases hs with ⟨order, _, rfl⟩
  cases saved <;> exact ⟨rfl, Broker.Grows.refl _, rfl, rfl⟩

/-- A claimable entry is held by nobody. -/
theorem not_processing_of_claimable {queue : Option QueueStatus} (hclaim : claimable queue = true) :
    queue ≠ some .processing := by
  rintro rfl
  cases hclaim

/-! ## Who may act -/

/-- A busy worker owns the entry and is the only one; before the call that places the order
enqueues or submits it, there is no entry. -/
structure Owns (t : State) : Prop where
  owned : Owned Worker.busy (t.shared.queue = some .processing) t.workers
  unqueued : t.placer.ahead = true → t.shared.queue = none

/-- A retry is accepted only once the order is placed and while no worker holds the entry; the
view itself checks the entry it has read, which may have been none. -/
def Orderly (t : State) : Action → Prop
  | .retry _ => t.placer.ahead = false ∧ t.shared.queue ≠ some .processing
  | _ => True

theorem owns_start (order : Order) : Owns (State.start order) := by
  constructor
  · exact Owned.of_idle fun _ => rfl
  · intro _
    rfl

theorem Owns.idle_of_free (hi : Owns t) (hfree : t.shared.queue ≠ some .processing) (i : ℕ) :
    (t.workers i).busy = false := hi.owned.idle hfree i

/-- While a worker is busy the order is placed. -/
theorem Owns.placed {i : ℕ} (hi : Owns t) (hbusy : (t.workers i).busy = true) :
    t.placer.ahead = false := by
  cases hp : t.placer.ahead with
  | false => rfl
  | true =>
    have hq := hi.owned.holds i hbusy
    rw [hi.unqueued hp] at hq
    cases hq

theorem Owns.of_event (hi : Owns t) (he : EventEffect t t') : Owns t' := by
  constructor
  · rw [he.workers, he.queue]
    exact hi.owned
  · rw [he.placer, he.queue]
    exact hi.unqueued

theorem step_owns (hg : Orderly t a) (hi : Owns t) (hs : step h manual t a = some t') :
    Owns t' := by
  cases a with
  | place o =>
    rcases step_place hs with ⟨p, r, hp, rfl⟩
    rcases placeStep_effect hp with ⟨hahead, hp', _, hq, _⟩ | ⟨hsub, hp', hq, _⟩ | ⟨_, hp', hq, _⟩
    · -- the enqueue: without an entry nobody was busy
      have hfree : t.shared.queue ≠ some .processing := by simp [hi.unqueued hahead]
      constructor
      · exact Owned.of_idle (hi.idle_of_free hfree)
      · intro hn
        simp [hp'] at hn
    · -- the submission: it leaves the entry alone
      constructor
      · exact hi.owned.mono (fun hheld => hq.trans hheld)
      · intro hn
        simp [hp'] at hn
    · constructor
      · exact hi.owned.mono (fun hheld => hq.trans hheld)
      · intro hn
        rcases hp' with hp' | hp'
        · simp [hp'] at hn
        · exact hq.trans (hi.unqueued hp')
  | work i o =>
    rcases step_work hs with ⟨w, r, hw, rfl⟩
    rcases workStep_effect hw with ⟨hidle, _, hclaim, hq, _⟩ | ⟨hbusy, _, _, hq, _⟩ |
      ⟨hbusy, _, _, hq, _⟩ | ⟨hbusy, _, hidle, hq, _⟩
    · -- the claim: the entry was claimable, so it was nobody's
      have hfree := not_processing_of_claimable hclaim
      constructor
      · exact hi.owned.acquire hfree hq
      · intro hn
        simp [hi.unqueued hn, claimable] at hclaim
    · constructor
      · exact hi.owned.keep hbusy (fun hheld => hq.trans hheld)
      · intro hn
        simp [hi.placed hbusy] at hn
    · constructor
      · exact hi.owned.keep hbusy (fun hheld => hq.trans hheld)
      · intro hn
        simp [hi.placed hbusy] at hn
    · -- the worker gives the entry up, and nobody else had it
      constructor
      · apply Owned.of_idle
        apply hi.owned.release hbusy
        rw [hidle]
        rfl
      · intro hn
        simp [hi.placed hbusy] at hn
  | lookup i =>
    rcases step_lookup hs with ⟨_, rfl⟩
    exact ⟨hi.owned, hi.unqueued⟩
  | cancel i =>
    rcases step_cancel hs with ⟨r, hr, rfl⟩
    rcases cancelOrder_effect hr with ⟨_, rfl⟩
    cases hclaim : claimable (t.entry i) with
    | false =>
      exact ⟨hi.owned, hi.unqueued⟩
    | true =>
      -- a claimable entry was read, so there is one, and it is nobody's
      have hentry : t.entry i = t.shared.queue := by
        unfold State.entry at hclaim ⊢
        split at hclaim
        · cases hclaim
        · simp [*]
      rw [hentry] at hclaim
      have hfree := not_processing_of_claimable hclaim
      constructor
      · exact Owned.of_idle (hi.idle_of_free hfree)
      · intro hn
        simp [hi.unqueued hn, claimable] at hclaim
  | retry i =>
    rcases step_retry hs with ⟨r, hr, rfl⟩
    rcases retryOrder_effect hr with ⟨_, _, rfl⟩
    -- the entry is made pending again, which must not happen under a worker
    rcases hg with ⟨hplaced, hfree⟩
    constructor
    · exact Owned.of_idle (hi.idle_of_free hfree)
    · intro hn
      rw [hplaced] at hn
      cases hn
  | eventRead j about event => exact hi.of_event (step_eventRead hs)
  | eventSave j saved => exact hi.of_event (step_eventSave hs)

end Step

end AlgoBot.Execution
