import AlgoBot.Execution.Calls

/-!
# What a submission leaves behind

`recoverable_iff`: a call that submits the order leaves it rejected, recorded as
accepted or executed, or in the status the recovery scan selects, except when it
saves a reply of unknown status (`queuedForgets`, `manualForgets`). That save
makes the order `queued`. A manual order stays so; a worker goes on to write
`sent_to_broker`, unless the log entry or that write fails.
-/

namespace AlgoBot.Execution

open AlgoBot.Core AlgoBot.Python

variable {h : Host} {s s' : Shared}

/-! ## What is forgotten -/

/-- Every submission of the call is rejected, recorded as accepted or executed, or left for the
recovery scan. -/
def Recoverable (before after : Shared) : Prop :=
  before.broker.invoked < after.broker.invoked →
    before.broker.invoked ∉ after.broker.rejected →
      after.order.status ≠ .accepted → after.order.status ≠ .executed →
        candidateOrder after.order = true

instance (before after : Shared) : Decidable (Recoverable before after) :=
  inferInstanceAs (Decidable (_ → _ → _ → _ → candidateOrder after.order = true))

/-- `execute` does not stop at the status of the order it is given. -/
def OrderStatus.executable (status : OrderStatus) : Bool :=
  status != .accepted && status != .executed && status != .cancelled && status != .failed

/-- `execute` gets to `adapter.place_order`. -/
def Sites.submits (f : Sites) (status : OrderStatus) : Bool :=
  status.executable && f.gate.isNone && f.save_sent.isNone && f.adapter.isNone

/-- The reply is a `dict` whose status the engine does not know. -/
def Sites.unknownReply (h : Host) (f : Sites) : Bool :=
  match f.reply with
  | .returns (.dict response) => verdict h response == .unknown
  | _ => false

/-- `execute` saves the order as `queued` after such a reply. -/
def Sites.savesUnknown (h : Host) (f : Sites) (status : OrderStatus) : Bool :=
  f.submits status && f.unknownReply h && f.save_reply.isNone

/-- The exception that then leaves `execute` is one of the first handler's. -/
def Sites.transported (f : Sites) : Bool := f.log_reply.all fun e => e.cls.transport

/-- The worker's call saves an unknown reply and does not get to write `sent_to_broker`. -/
def Sites.queuedForgets (h : Host) (f : Sites) (s : Shared) : Bool :=
  f.read_order.isNone && f.savesUnknown h s.order.status &&
    !(f.transported && f.write_order.isNone)

/-- The manual call saves an unknown reply. -/
def Sites.manualForgets (h : Host) (f : Sites) : Bool :=
  f.log_created.isNone && f.log_validated.isNone && f.save_validated.isNone && f.risk.isNone &&
    f.savesUnknown h .validated

/-! ## Where a call is -/

section Trace

variable {f : Sites} {status : OrderStatus} {n : ℕ}

/-- Submission `n` is made and not rejected. -/
def Open (n : ℕ) (s : Shared) : Prop := s.broker.invoked = n + 1 ∧ n ∉ s.broker.rejected

/-- Submission `n` is not made, or rejected, or the order says it may be live. -/
def Kept (n : ℕ) (s : Shared) : Prop :=
  s.broker.invoked = n ∨ n ∈ s.broker.rejected ∨ s.order.status.inFlight = true

/-- What holds inside `execute`, from an order of this status and with `n` earlier submissions. -/
def ExecAt (h : Host) (f : Sites) (status : OrderStatus) (n : ℕ) (x : Exec) (s : Shared) : Prop :=
  match x.pc with
  | .check => x.order.status = status ∧ s.broker.invoked = n
  | .saveSent =>
      (status.executable = true ∧ f.gate = none) ∧ x.order.status = .sent_to_broker ∧
        s.broker.invoked = n
  | .submit =>
      (status.executable = true ∧ f.gate = none ∧ f.save_sent = none) ∧
        s.order.status = .sent_to_broker ∧ s.broker.invoked = n
  | .await =>
      f.submits status = true ∧ s.order.status = .sent_to_broker ∧ x.attempt = n ∧ Open n s
  | .saveInvalid => f.unknownReply h = false ∧ s.order.status = .sent_to_broker
  | .saveUnknown =>
      f.submits status = true ∧ f.unknownReply h = true ∧ s.order.status = .sent_to_broker ∧
        x.order.status = .queued ∧ Open n s
  | .logUnknown =>
      f.savesUnknown h status = true ∧ s.order.status = .queued ∧ x.order.status = .queued ∧
        Open n s
  | .saveReply =>
      f.unknownReply h = false ∧
        (n ∈ s.broker.rejected ∨
          s.order.status = .sent_to_broker ∧ x.order.status.inFlight = true)
  | .logReply =>
      f.unknownReply h = false ∧ (n ∈ s.broker.rejected ∨ s.order.status.inFlight = true)

/-- What holds when `execute` raises. -/
def RaisedAt (h : Host) (f : Sites) (status : OrderStatus) (n : ℕ) (order : Order) (e : Exc)
    (s : Shared) : Prop :=
  f.savesUnknown h status = false ∧ Kept n s ∨
    f.savesUnknown h status = true ∧ s.order.status = .queued ∧ order.status = .queued ∧
      e.cls.transport = f.transported ∧ Open n s

def NextAt (h : Host) (f : Sites) (status : OrderStatus) (n : ℕ) (s : Shared) : ExecNext → Prop
  | .running x => ExecAt h f status n x s
  | .returned _ => f.savesUnknown h status = false ∧ Kept n s
  | .raised order e => RaisedAt h f status n order e s

theorem savesUnknown_of_not_submits (hsub : f.submits status = false) :
    f.savesUnknown h status = false := by
  simp [Sites.savesUnknown, hsub]

theorem savesUnknown_of_known (hreply : f.unknownReply h = false) :
    f.savesUnknown h status = false := by
  simp [Sites.savesUnknown, hreply]

/-- An exception before the submission. -/
theorem raisedAt_of_not_submits {order : Order} {e : Exc} (hsub : f.submits status = false)
    (hn : s.broker.invoked = n) : RaisedAt h f status n order e s :=
  Or.inl ⟨savesUnknown_of_not_submits hsub, Or.inl hn⟩

/-- An exception after it, while the order is saved as sent. -/
theorem raisedAt_of_sent {order : Order} {e : Exc} (hsaves : f.savesUnknown h status = false)
    (hs : s.order.status = .sent_to_broker) : RaisedAt h f status n order e s := by
  refine Or.inl ⟨hsaves, Or.inr (Or.inr ?_)⟩
  rw [hs]
  rfl

theorem awaitStep_at {x : Exec} (hpc : x.pc = .await) (hx : ExecAt h f status n x s) :
    NextAt h f status n (awaitStep h x s f.reply).2 (awaitStep h x s f.reply).1 := by
  simp only [ExecAt, hpc] at hx
  rcases hx with ⟨hsub, hsent, hattempt, hopen⟩
  cases hreply : f.reply with
  | raises e =>
    have hknown : f.unknownReply h = false := by simp [Sites.unknownReply, hreply]
    exact raisedAt_of_sent (savesUnknown_of_known hknown) hsent
  | returns v =>
    cases v with
    | dict response =>
      cases hv : verdict h response with
      | unknown =>
        have hunknown : f.unknownReply h = true := by simp [Sites.unknownReply, hreply, hv]
        simp only [awaitStep, replyStep, hv]
        refine ⟨hsub, hunknown, hsent, ?_, hopen⟩
        simp [withResponse, hv, Verdict.status]
      | rejected =>
        have hknown : f.unknownReply h = false := by simp [Sites.unknownReply, hreply, hv]
        simp only [awaitStep, replyStep, hv]
        refine ⟨hknown, Or.inl ?_⟩
        -- the submission was made, so the rejection is booked
        have hlt : n < s.broker.invoked := by
          rw [hopen.1]
          exact Nat.lt_succ_self n
        rw [hattempt]
        exact Broker.mem_reject hlt
      | executed =>
        have hknown : f.unknownReply h = false := by simp [Sites.unknownReply, hreply, hv]
        simp only [awaitStep, replyStep, hv]
        refine ⟨hknown, Or.inr ⟨hsent, ?_⟩⟩
        simp [withResponse, hv, Verdict.status, OrderStatus.inFlight]
      | accepted =>
        have hknown : f.unknownReply h = false := by simp [Sites.unknownReply, hreply, hv]
        simp only [awaitStep, replyStep, hv]
        refine ⟨hknown, Or.inr ⟨hsent, ?_⟩⟩
        simp [withResponse, hv, Verdict.status, OrderStatus.inFlight]
    | _ =>
      have hknown : f.unknownReply h = false := by simp [Sites.unknownReply, hreply]
      exact ⟨hknown, hsent⟩

theorem checkStep_at {x : Exec} {o : Outcome} {next : ExecNext} (hpc : x.pc = .check)
    (hx : ExecAt h f status n x s) (ho : o = .of f.gate) (hs : checkStep x o = some next) :
    NextAt h f status n s next := by
  simp only [ExecAt, hpc] at hx
  rcases hx with ⟨hstatus, hn⟩
  unfold checkStep at hs
  rw [hstatus] at hs
  split at hs
  · rename_i hrecorded
    have hsub : f.submits status = false := by
      rcases hrecorded with hrec | hrec <;> simp [Sites.submits, OrderStatus.executable, hrec]
    cases hs
    exact ⟨savesUnknown_of_not_submits hsub, Or.inl hn⟩
  · rename_i hrecorded
    split at hs
    · rename_i hended
      have hsub : f.submits status = false := by
        rcases hended with hend | hend <;> simp [Sites.submits, OrderStatus.executable, hend]
      cases hs
      exact raisedAt_of_not_submits hsub hn
    · rename_i hended
      cases hgate : f.gate with
      | none =>
        simp only [hgate, Outcome.of] at ho
        subst ho
        cases hs
        refine ⟨⟨?_, hgate⟩, rfl, hn⟩
        simp only [not_or] at hrecorded hended
        simp [OrderStatus.executable, hrecorded, hended]
      | some e =>
        simp only [hgate, Outcome.of] at ho
        subst ho
        cases hs
        exact raisedAt_of_not_submits (by simp [Sites.submits, hgate]) hn

/-- A step of `execute` raises, after the checks. -/
theorem execFail_at {x : Exec} {e : Exc} (hx : ExecAt h f status n x s) (hpc : x.pc ≠ .check)
    (hfail : x.site f = .fail e) : RaisedAt h f status n x.order e s := by
  rcases x with ⟨pc, order, attempt⟩
  cases pc with
  | check => exact absurd rfl hpc
  | await => cases hfail
  | saveSent =>
    have hf : f.save_sent = some e := Outcome.of_eq_fail.mp hfail
    exact raisedAt_of_not_submits (by simp [Sites.submits, hf]) hx.2.2
  | submit =>
    have hf : f.adapter = some e := Outcome.of_eq_fail.mp hfail
    exact raisedAt_of_not_submits (by simp [Sites.submits, hf]) hx.2.2
  | saveInvalid => exact raisedAt_of_sent (savesUnknown_of_known hx.1) hx.2
  | saveUnknown =>
    have hf : f.save_reply = some e := Outcome.of_eq_fail.mp hfail
    exact raisedAt_of_sent (by simp [Sites.savesUnknown, hf]) hx.2.2.1
  | logUnknown =>
    -- the row is `queued` already, and the exception decides which handler sees it
    have hf : f.log_reply = some e := Outcome.of_eq_fail.mp hfail
    rcases hx with ⟨hsaves, hrow, hmem, hopen⟩
    exact Or.inr ⟨hsaves, hrow, hmem, by simp [Sites.transported, hf], hopen⟩
  | saveReply =>
    rcases hx with ⟨hknown, hrej | ⟨hsent, _⟩⟩
    · exact Or.inl ⟨savesUnknown_of_known hknown, Or.inr (Or.inl hrej)⟩
    · exact raisedAt_of_sent (savesUnknown_of_known hknown) hsent
  | logReply =>
    rcases hx with ⟨hknown, hkept⟩
    exact Or.inl ⟨savesUnknown_of_known hknown, Or.inr hkept⟩

/-- A step of `execute` succeeds. -/
theorem execOk_at {x : Exec} {next : ExecNext} (hx : ExecAt h f status n x s)
    (hok : x.site f = .ok) (hs : execOk x s = some (next, s')) :
    NextAt h f status n s' next := by
  rcases x with ⟨pc, order, attempt⟩
  cases pc with
  | check =>
    simp only [execOk, Option.map_eq_some_iff] at hs
    rcases hs with ⟨next', hnext, heq⟩
    cases heq
    exact checkStep_at rfl hx hok.symm hnext
  | await => cases hs
  | saveSent =>
    have hf : f.save_sent = none := Outcome.of_eq_ok.mp hok
    rcases hx with ⟨⟨hexec, hgate⟩, hmem, hn⟩
    cases hs
    exact ⟨⟨hexec, hgate, hf⟩, hmem, hn⟩
  | submit =>
    have hf : f.adapter = none := Outcome.of_eq_ok.mp hok
    rcases hx with ⟨⟨hexec, hgate, hsave⟩, hsent, hn⟩
    cases hs
    refine ⟨?_, hsent, hn, ?_, ?_⟩
    · simp [Sites.submits, hexec, hgate, hsave, hf]
    · show s.broker.invoked + 1 = n + 1
      rw [hn]
    · -- the book rejects only what was submitted
      intro hmem
      have hlt := s.broker.submitted n hmem
      omega
  | saveInvalid =>
    cases hs
    exact raisedAt_of_sent (savesUnknown_of_known hx.1) hx.2
  | saveUnknown =>
    have hf : f.save_reply = none := Outcome.of_eq_ok.mp hok
    rcases hx with ⟨hsub, hunknown, _, hmem, hopen⟩
    cases hs
    refine ⟨?_, hmem, hmem, hopen⟩
    simp [Sites.savesUnknown, hsub, hunknown, hf]
  | logUnknown =>
    have hf : f.log_reply = none := Outcome.of_eq_ok.mp hok
    have htransported : f.transported = true := by simp [Sites.transported, hf]
    rcases hx with ⟨hsaves, hrow, hmem, hopen⟩
    cases hs
    exact Or.inr ⟨hsaves, hrow, hmem, htransported.symm, hopen⟩
  | saveReply =>
    rcases hx with ⟨hknown, hkept⟩
    cases hs
    refine ⟨hknown, ?_⟩
    rcases hkept with hrej | ⟨_, hmem⟩
    · exact Or.inl hrej
    · exact Or.inr hmem
  | logReply =>
    rcases hx with ⟨hknown, hkept⟩
    cases hs
    exact ⟨savesUnknown_of_known hknown, Or.inr hkept⟩

/-- One step of `execute`, as `f` has it end. -/
theorem execStep_at {x : Exec} {next : ExecNext} (hx : ExecAt h f status n x s)
    (hs : execStep h x s (x.site f) = some (next, s')) : NextAt h f status n s' next := by
  cases hsite : x.site f with
  | ok =>
    rw [hsite] at hs
    exact execOk_at hx hsite hs
  | fail e =>
    rw [hsite] at hs
    by_cases hcheck : x.pc = .check
    · have hgate : Outcome.of f.gate = .fail e := by simpa [Exec.site, hcheck] using hsite
      simp only [execStep, hcheck, Option.map_eq_some_iff] at hs
      rcases hs with ⟨next', hnext, heq⟩
      cases heq
      exact checkStep_at hcheck hx hgate.symm hnext
    · have hawait : x.pc ≠ .await := by
        intro hpc
        simp [Exec.site, hpc] at hsite
      have hraised := execFail_at hx hcheck hsite
      have hnext : execStep h x s (.fail e) = some (.raised x.order e, s) := by
        rcases x with ⟨pc, order, attempt⟩
        cases pc with
        | check => exact absurd rfl hcheck
        | await => exact absurd rfl hawait
        | _ => rfl
      rw [hnext] at hs
      cases hs
      exact hraised
  | reply r =>
    -- only the call of the broker is answered
    have hawait : x.pc = .await := by
      rcases x with ⟨pc, order, attempt⟩
      cases pc with
      | await => rfl
      | _ => exact absurd hsite (Outcome.of_ne_reply _ r)
    have hreply : f.reply = r := by simpa [Exec.site, hawait] using hsite
    have hat := awaitStep_at hawait hx
    rw [hsite] at hs
    simp only [execStep, hawait, if_true, Option.some.injEq] at hs
    rw [hreply, hs] at hat
    exact hat

/-! ## The worker's call -/

/-- The worker's call saves an unknown reply. -/
def Sites.queuedUnknown (h : Host) (f : Sites) (status : OrderStatus) : Bool :=
  f.read_order.isNone && f.savesUnknown h status

/-- What holds of a worker's call on an order of this status, with `n` earlier submissions. -/
def WorkerAt (h : Host) (f : Sites) (status : OrderStatus) (n : ℕ) (w : Worker) (s : Shared) :
    Prop :=
  match w with
  | .claimed => s.order.status = status ∧ s.broker.invoked = n
  | .exec x => f.read_order = none ∧ ExecAt h f status n x s
  | .markDone _ => f.queuedUnknown h status = false ∧ Kept n s
  | .readCurrent order _ =>
      f.queuedUnknown h status = false ∧ Kept n s ∨
        f.queuedUnknown h status = true ∧ f.transported = false ∧
          s.order.status = .queued ∧ order.status = .queued ∧ Open n s
  | .readContext _ => f.queuedUnknown h status = false ∧ Kept n s
  | .writeOrder written _ =>
      f.queuedUnknown h status = false ∧ Kept n s ∧
          (written = .sent_to_broker ∨ s.broker.invoked = n ∨ n ∈ s.broker.rejected) ∨
        f.queuedUnknown h status = true ∧ s.order.status = .queued ∧
          written = (if f.transported then .sent_to_broker else .failed) ∧ Open n s
  | .writeQueue | .idle =>
      f.queuedUnknown h status = false ∧ Kept n s ∨
        f.queuedUnknown h status = true ∧ Open n s ∧
          if f.transported && f.write_order.isNone then s.order.status = .sent_to_broker
          else s.order.status = .queued ∨ s.order.status = .failed

/-- The handler that catches an exception of `execute`, or of the update after it. -/
theorem caught_at {order : Order} {e : Exc} (hread : f.read_order = none)
    (hr : RaisedAt h f status n order e s) : WorkerAt h f status n (caught order e) s := by
  have hunknown : f.queuedUnknown h status = f.savesUnknown h status := by
    simp [Sites.queuedUnknown, hread]
  unfold caught
  split
  · rename_i htransport
    rcases hr with ⟨hsaves, hkept⟩ | ⟨hsaves, hrow, _, htrans, hopen⟩
    · exact Or.inl ⟨hunknown.trans hsaves, hkept, Or.inl rfl⟩
    · refine Or.inr ⟨hunknown.trans hsaves, hrow, ?_, hopen⟩
      rw [← htrans, htransport]
      rfl
  · rename_i htransport
    rcases hr with ⟨hsaves, hkept⟩ | ⟨hsaves, hrow, hmem, htrans, hopen⟩
    · exact Or.inl ⟨hunknown.trans hsaves, hkept⟩
    · refine Or.inr ⟨hunknown.trans hsaves, ?_, hrow, hmem, hopen⟩
      rw [← htrans]
      exact Bool.eq_false_iff.mpr htransport

/-- The two last handlers go by the current row and the order in memory. -/
theorem onCurrent_at {order : Order} {e : Exc}
    (hw : WorkerAt h f status n (.readCurrent order e) s) :
    WorkerAt h f status n (onCurrent s.order order e) s := by
  unfold onCurrent
  rcases hw with ⟨hsaves, hkept⟩ | ⟨hsaves, htrans, hrow, hmem, hopen⟩
  · split
    · split
      · exact Or.inl ⟨hsaves, hkept, Or.inl rfl⟩
      · exact ⟨hsaves, hkept⟩
    · -- no order that may be live is written `failed`
      rename_i hflight
      refine Or.inl ⟨hsaves, hkept, Or.inr ?_⟩
      rcases hkept with hn | hrej | hrow
      · exact Or.inl hn
      · exact Or.inr hrej
      · simp [hrow] at hflight
  · -- the unknown branch has left both copies `queued`
    have hflight : ¬ (s.order.status.inFlight || order.status.inFlight) = true := by
      simp [hrow, hmem, OrderStatus.inFlight]
    rw [if_neg hflight]
    refine Or.inr ⟨hsaves, hrow, ?_, hopen⟩
    simp [htrans]

theorem writeOrder_at {written : OrderStatus} {context : Option Dict}
    (hw : WorkerAt h f status n (.writeOrder written context) s) (hf : f.write_order = none) :
    WorkerAt h f status n .writeQueue (s.writeOrder written context) := by
  have hstatus : (s.writeOrder written context).order.status = written := by
    cases context <;> rfl
  have hbroker : (s.writeOrder written context).broker = s.broker := by
    cases context <;> rfl
  rcases hw with ⟨hsaves, hkept, hwritten⟩ | ⟨hsaves, _, hwritten, hopen⟩
  · refine Or.inl ⟨hsaves, ?_⟩
    unfold Kept
    rw [hbroker, hstatus]
    rcases hwritten with rfl | hn | hrej
    · exact Or.inr (Or.inr rfl)
    · exact Or.inl hn
    · exact Or.inr (Or.inl hrej)
  · refine Or.inr ⟨hsaves, ?_, ?_⟩
    · unfold Open
      rw [hbroker]
      exact hopen
    · show if f.transported && f.write_order.isNone then
          (s.writeOrder written context).order.status = .sent_to_broker
        else (s.writeOrder written context).order.status = .queued ∨
          (s.writeOrder written context).order.status = .failed
      rw [hstatus, hwritten, hf]
      cases f.transported with
      | true => rfl
      | false => exact Or.inr rfl

/-- One step of the worker, as `f` has it end. -/
theorem workStep_at {w w' : Worker} {o : Outcome} (hw : WorkerAt h f status n w s)
    (ho : w.site f = some o) (hs : workStep h s w o = some (w', s')) :
    WorkerAt h f status n w' s' := by
  cases w with
  | idle => cases ho
  | claimed =>
    cases ho
    rcases hw with ⟨hstatus, hn⟩
    cases hf : f.read_order with
    | none =>
      simp only [hf, Outcome.of] at hs
      cases hs
      exact ⟨hf, hstatus, hn⟩
    | some e =>
      simp only [hf, Outcome.of] at hs
      cases hs
      exact Or.inl ⟨by simp [Sites.queuedUnknown, hf], Or.inl hn⟩
  | exec x =>
    cases ho
    rcases hw with ⟨hread, hx⟩
    have hs : (execStep h x s (x.site f)).map (fun r => (Worker.after r.1, r.2)) =
        some (w', s') := by
      cases ho : x.site f <;> simpa [workStep, ho] using hs
    rw [Option.map_eq_some_iff] at hs
    rcases hs with ⟨⟨next, s₁⟩, hstep, heq⟩
    cases heq
    have hnext := execStep_at hx hstep
    cases next with
    | running x' => exact ⟨hread, hnext⟩
    | returned order => exact ⟨by simpa [Sites.queuedUnknown, hread] using hnext.1, hnext.2⟩
    | raised order e => exact caught_at hread hnext
  | markDone order =>
    -- `execute` has returned, so whatever happens to the entry the order is as it left it
    cases ho
    rcases hw with ⟨hsaves, hkept⟩
    cases hf : f.mark_done with
    | none =>
      simp only [hf, Outcome.of] at hs
      cases hs
      exact Or.inl ⟨hsaves, hkept⟩
    | some e =>
      simp only [hf, Outcome.of] at hs
      cases hs
      unfold caught
      split
      · exact Or.inl ⟨hsaves, hkept, Or.inl rfl⟩
      · exact Or.inl ⟨hsaves, hkept⟩
  | readCurrent order e =>
    cases ho
    cases hf : f.read_current with
    | none =>
      simp only [hf, Outcome.of] at hs
      cases hs
      exact onCurrent_at hw
    | some e' =>
      simp only [hf, Outcome.of] at hs
      cases hs
      rcases hw with ⟨hsaves, hkept⟩ | ⟨hsaves, htrans, hrow, _, hopen⟩
      · exact Or.inl ⟨hsaves, hkept⟩
      · exact Or.inr ⟨hsaves, hopen, by simp [htrans, hrow]⟩
  | readContext e =>
    -- this handler writes `sent_to_broker`
    cases ho
    rcases hw with ⟨hsaves, hkept⟩
    cases hf : f.read_context with
    | none =>
      simp only [hf, Outcome.of] at hs
      cases hs
      exact Or.inl ⟨hsaves, hkept, Or.inl rfl⟩
    | some e' =>
      simp only [hf, Outcome.of] at hs
      cases hs
      exact Or.inl ⟨hsaves, hkept⟩
  | writeOrder written context =>
    cases ho
    cases hf : f.write_order with
    | none =>
      simp only [hf, Outcome.of] at hs
      cases hs
      exact writeOrder_at hw hf
    | some e =>
      simp only [hf, Outcome.of] at hs
      cases hs
      rcases hw with ⟨hsaves, hkept, _⟩ | ⟨hsaves, hrow, _, hopen⟩
      · exact Or.inl ⟨hsaves, hkept⟩
      · exact Or.inr ⟨hsaves, hopen, by simp [hf, hrow]⟩
  | writeQueue =>
    cases ho
    cases hf : f.write_queue with
    | none =>
      simp only [hf, Outcome.of] at hs
      cases hs
      exact hw
    | some e =>
      simp only [hf, Outcome.of] at hs
      cases hs
      exact hw

/-- Where the worker's call ends. -/
theorem queued_at (h : Host) (f : Sites) (s : Shared) :
    WorkerAt h f s.order.status s.broker.invoked (queuedCall h f s).1 (queuedCall h f s).2 := by
  apply Machine.drive_invariant (fun p : Worker × Shared => p.1.site f)
    (fun p => WorkerAt h f s.order.status s.broker.invoked p.1 p.2)
  · intro p o p' ho hp hs
    exact workStep_at hp ho hs
  · exact ⟨rfl, rfl⟩

/-! ## The manual call -/

/-- `place_manual_order` gets to `execute`. -/
def Sites.placed (f : Sites) : Prop :=
  f.log_created = none ∧ f.log_validated = none ∧ f.save_validated = none ∧ f.risk = none

/-- What holds of a manual call with `n` earlier submissions. -/
def PlacerAt (h : Host) (f : Sites) (n : ℕ) (p : Placer) (s : Shared) : Prop :=
  match p with
  | .placing .logCreated _ => s.broker.invoked = n
  | .placing .logValidated _ => f.log_created = none ∧ s.broker.invoked = n
  | .placing .saveValidated _ =>
      f.log_created = none ∧ f.log_validated = none ∧ s.broker.invoked = n
  | .placing .risk order =>
      f.log_created = none ∧ f.log_validated = none ∧ f.save_validated = none ∧
        order.status = .validated ∧ s.broker.invoked = n
  | .placing _ _ => False
  | .exec x => f.placed ∧ ExecAt h f .validated n x s
  | .done =>
      f.manualForgets h = false ∧ Kept n s ∨
        f.manualForgets h = true ∧ s.order.status = .queued ∧ Open n s

theorem manualForgets_of_placed (hf : f.placed) :
    f.manualForgets h = f.savesUnknown h .validated := by
  rcases hf with ⟨h₁, h₂, h₃, h₄⟩
  simp [Sites.manualForgets, h₁, h₂, h₃, h₄]

/-- One step of the manual call, as `f` has it end. -/
theorem placeStep_at {p p' : Placer} {o : Outcome} (hp : PlacerAt h f n p s)
    (ho : p.site f = some o) (hs : placeStep h true s p o = some (p', s')) :
    PlacerAt h f n p' s' := by
  cases p with
  | done => cases ho
  | exec x =>
    cases ho
    rcases hp with ⟨hplaced, hx⟩
    simp only [placeStep, Option.map_eq_some_iff] at hs
    rcases hs with ⟨⟨next, s₁⟩, hstep, heq⟩
    cases heq
    have hnext := execStep_at hx hstep
    have hforgets := manualForgets_of_placed (h := h) hplaced
    cases next with
    | running x' => exact ⟨hplaced, hnext⟩
    | returned order => exact Or.inl ⟨hforgets.trans hnext.1, hnext.2⟩
    | raised order e =>
      -- nothing catches the exception, so the row stays as it is
      rcases hnext with ⟨hsaves, hkept⟩ | ⟨hsaves, hrow, _, _, hopen⟩
      · exact Or.inl ⟨hforgets.trans hsaves, hkept⟩
      · exact Or.inr ⟨hforgets.trans hsaves, hrow, hopen⟩
  | placing pc order =>
    cases pc with
    | logCreated =>
      cases ho
      cases hf : f.log_created with
      | none =>
        simp only [hf, Outcome.of] at hs
        cases hs
        exact ⟨hf, hp⟩
      | some e =>
        simp only [hf, Outcome.of] at hs
        cases hs
        exact Or.inl ⟨by simp [Sites.manualForgets, hf], Or.inl hp⟩
    | logValidated =>
      cases ho
      rcases hp with ⟨h₁, hn⟩
      cases hf : f.log_validated with
      | none =>
        simp only [hf, Outcome.of] at hs
        cases hs
        exact ⟨h₁, hf, hn⟩
      | some e =>
        simp only [hf, Outcome.of] at hs
        cases hs
        exact Or.inl ⟨by simp [Sites.manualForgets, hf], Or.inl hn⟩
    | saveValidated =>
      cases ho
      rcases hp with ⟨h₁, h₂, hn⟩
      cases hf : f.save_validated with
      | none =>
        simp only [hf, Outcome.of] at hs
        cases hs
        exact ⟨h₁, h₂, hf, rfl, hn⟩
      | some e =>
        simp only [hf, Outcome.of] at hs
        cases hs
        exact Or.inl ⟨by simp [Sites.manualForgets, hf], Or.inl hn⟩
    | risk =>
      cases ho
      rcases hp with ⟨h₁, h₂, h₃, hstatus, hn⟩
      cases hf : f.risk with
      | none =>
        simp only [hf, Outcome.of] at hs
        cases hs
        exact ⟨⟨h₁, h₂, h₃, hf⟩, hstatus, hn⟩
      | some e =>
        simp only [hf, Outcome.of] at hs
        cases hs
        exact Or.inl ⟨by simp [Sites.manualForgets, hf], Or.inl hn⟩
    | _ => cases ho

theorem manual_at (h : Host) (f : Sites) (order : Order) (s : Shared) :
    PlacerAt h f s.broker.invoked (manualCall h f order s).1 (manualCall h f order s).2 := by
  apply Machine.drive_invariant (fun p : Placer × Shared => p.1.site f)
    (fun p => PlacerAt h f s.broker.invoked p.1 p.2)
  · intro p o p' ho hp hs
    exact placeStep_at hp ho hs
  · rfl

end Trace

/-! ## When a submission is recoverable -/

theorem recoverable_of_kept {before after : Shared} (hk : Kept before.broker.invoked after) :
    Recoverable before after := by
  intro hlt hrej hacc hexe
  rcases hk with hn | hmem | hflight
  · omega
  · exact absurd hmem hrej
  · -- of the statuses in flight only the sent one is left
    unfold candidateOrder
    simpa [OrderStatus.inFlight, hacc, hexe] using hflight

theorem recoverable_of_open {before after : Shared} (ho : Open before.broker.invoked after)
    (hacc : after.order.status ≠ .accepted) (hexe : after.order.status ≠ .executed) :
    Recoverable before after ↔ after.order.status = .sent_to_broker := by
  rcases ho with ⟨hn, hrej⟩
  constructor
  · intro hrec
    have hlt : before.broker.invoked < after.broker.invoked := by omega
    simpa [candidateOrder] using hrec hlt hrej hacc hexe
  · intro hsent _ _ _ _
    simp [candidateOrder, hsent]

/-- A submission is recoverable exactly when the call does not forget it. -/
theorem recoverable_iff (h : Host) (f : Sites) (order : Order) (s : Shared) :
    (Recoverable s (queuedCall h f s).2 ↔ f.queuedForgets h s = false) ∧
      (Recoverable s (manualCall h f order s).2 ↔ f.manualForgets h = false) := by
  constructor
  · -- what holds of an idle worker is what the call leaves behind
    have hat := queued_at h f s
    rw [queued_ends h f s] at hat
    have hforgets : f.queuedForgets h s =
        (f.queuedUnknown h s.order.status && !(f.transported && f.write_order.isNone)) := rfl
    rw [hforgets]
    rcases hat with ⟨hsaves, hkept⟩ | ⟨hsaves, hopen, hrow⟩
    · simp [hsaves, recoverable_of_kept hkept]
    · cases hrepairs : f.transported && f.write_order.isNone with
      | true =>
        simp only [hrepairs, if_true] at hrow
        have hrec := recoverable_of_open hopen (by simp [hrow]) (by simp [hrow])
        simp [hrec, hrow]
      | false =>
        -- the order ends `queued` or `failed`, and the scan selects neither
        simp only [hrepairs] at hrow
        have hne : ∀ status, status ≠ .queued → status ≠ .failed →
            (queuedCall h f s).2.order.status ≠ status := by
          intro status hqueued hfailed heq
          rcases hrow with hrow | hrow
          · exact hqueued (heq.symm.trans hrow)
          · exact hfailed (heq.symm.trans hrow)
        have hrec := recoverable_of_open hopen
          (hne .accepted (by decide) (by decide)) (hne .executed (by decide) (by decide))
        have hsent := hne .sent_to_broker (by decide) (by decide)
        simp [hrec, hsent, hsaves]
  · have hat := manual_at h f order s
    rw [manual_ends h f order s] at hat
    rcases hat with ⟨hforgets, hkept⟩ | ⟨hforgets, hrow, hopen⟩
    · simp [hforgets, recoverable_of_kept hkept]
    · have hrec := recoverable_of_open hopen (by simp [hrow]) (by simp [hrow])
      simp [hrec, hrow, hforgets]

/-- No step fails, and the broker answers with this status. -/
def Sites.answered (status : String) : Sites where
  log_created := none
  log_validated := none
  save_validated := none
  risk := none
  read_order := none
  gate := none
  save_sent := none
  adapter := none
  reply := .returns (.dict [("status", .str status)])
  save_reply := none
  log_reply := none
  mark_done := none
  read_current := none
  read_context := none
  write_order := none
  write_queue := none

/-- A manual order answered with a status the engine does not know ends `queued`: it is neither
rejected nor recorded as live, and the recovery scan does not select it. -/
theorem manual_forgotten :
    ¬ Recoverable ⟨draft, none, Broker.empty⟩
      (manualCall .ascii (Sites.answered "pending_new") draft ⟨draft, none, Broker.empty⟩).2 := by
  decide +kernel

end AlgoBot.Execution
