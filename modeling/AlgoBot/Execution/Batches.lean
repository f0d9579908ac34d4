import Mathlib.Data.List.MinMax
import Mathlib.Data.Prod.Lex
import AlgoBot.Execution.Calls

/-!
# Batches of the queue worker

`process_execution_queue` claims one entry after the other and runs each execution to
its end, with the rows of its order to itself. An execution ends as its steps do: it
returns, or one of them raises. The statements of the worker itself do not raise here.

* `batch_sound_iff`: for every queue and every way in which the executions end, a batch
  closes what it claims, counts it, and marks an order failed only where nothing was
  submitted or the broker rejected it, exactly if no execution loses the log entry of an
  unrecognised answer.
* `unlogged_fails`: one that does.
* `queuedCall_sites`: what is processed is the worker's call in the engine.
-/

namespace AlgoBot.Execution

open AlgoBot.Core AlgoBot.Python

namespace Batches

/-! ## One execution -/

/-- How the steps of `ExecutionEngine.execute` end. -/
structure Attempt where
  gate : Option Exc
  save_sent : Option Exc
  adapter : Option Exc
  reply : BrokerReply
  save_reply : Option Exc
  log_reply : Option Exc

/-- The statements around the execution return. -/
def Attempt.sites (f : Attempt) : Sites where
  log_created := none
  log_validated := none
  save_validated := none
  risk := none
  read_order := none
  gate := f.gate
  save_sent := f.save_sent
  adapter := f.adapter
  reply := f.reply
  save_reply := f.save_reply
  log_reply := f.log_reply
  mark_done := none
  read_current := none
  read_context := none
  write_order := none
  write_queue := none

/-- How an execution ends, with the order it has in memory. -/
inductive Ended where
  | returned (order : Order)
  | raised (order : Order) (e : Exc)

/-- The branch of `execute` for an answer that says nothing about the order. -/
def executeUnknown (f : Attempt) (order : Order) (s : Shared) : Ended × Shared :=
  match f.save_reply with
  | some e => (.raised order e, s)
  | none =>
    let s := (s.saveReply order).setContext order.validation_context
    match f.log_reply with
    | some e => (.raised order e, s)
    | none => (.raised order unknownState, s)

/-- `execute` from the broker's answer on. -/
def executeReply (h : Host) (f : Attempt) (order : Order) (attempt : ℕ) (s : Shared) :
    Ended × Shared :=
  match f.reply with
  | .raises e => (.raised order e, s)
  | .returns (.dict response) =>
    let order := withResponse h order response
    if verdict h response = .unknown then executeUnknown f order s
    else
      let s :=
        if verdict h response = .rejected then { s with broker := s.broker.reject attempt } else s
      match f.save_reply with
      | some e => (.raised order e, s)
      | none =>
        match f.log_reply with
        | some e => (.raised order e, s.saveReply order)
        | none => (.returned order, s.saveReply order)
  | .returns _ =>
    let order := withInvalidResponse order
    match f.save_reply with
    | some e => (.raised order e, s)
    | none => (.raised order invalidResponse, s.setContext order.validation_context)

/-- `execute`. -/
def execute (h : Host) (f : Attempt) (s : Shared) : Ended × Shared :=
  let order := s.order
  if order.status = .accepted ∨ order.status = .executed then (.returned order, s)
  else if order.status = .cancelled ∨ order.status = .failed then
    (.raised order (cannotExecute order.status), s)
  else
    match f.gate with
    | some e => (.raised order e, s)
    | none =>
      let order := { order with status := OrderStatus.sent_to_broker }
      match f.save_sent with
      | some e => (.raised order e, s)
      | none =>
        let s := s.setStatus .sent_to_broker
        match f.adapter with
        | some e => (.raised order e, s)
        | none => executeReply h f order s.broker.invoked { s with broker := s.broker.invoke }

/-! ## One entry -/

/-- The counter that goes up. -/
inductive Count where
  | succeeded
  | failed
  | uncertain
deriving DecidableEq, Repr

def Shared.setQueue (s : Shared) (status : QueueStatus) : Shared := { s with queue := some status }

/-- The three handlers. -/
def handle (order : Order) (e : Exc) (s : Shared) : Count × Shared :=
  if e.cls.transport then
    (.uncertain, Shared.setQueue
      (s.writeOrder .sent_to_broker (some (withError order.validation_context e))) .failed)
  else if s.order.status.inFlight || order.status.inFlight then
    (.uncertain, Shared.setQueue
      (s.writeOrder .sent_to_broker (some (withError s.order.validation_context e))) .failed)
  else (.failed, Shared.setQueue (s.writeOrder .failed none) .failed)

/-- The `try` statement for an entry that has been claimed. -/
def processEntry (h : Host) (f : Attempt) (s : Shared) : Count × Shared :=
  match execute h f s with
  | (.returned _, s') => (.succeeded, Shared.setQueue s' .done)
  | (.raised order e, s') => handle order e s'

/-! ## The loop -/

/-- A queue entry, with the rows of its order. -/
structure Entry where
  id : ℕ
  priority : ℕ
  created_at : ℕ
  attempts : ℕ
  next_retry : Option ℕ
  shared : Shared

/-- The filter of the query. -/
def Entry.due (now : ℕ) (entry : Entry) : Bool :=
  (entry.shared.queue == some .pending && entry.next_retry.isNone) ||
    (entry.shared.queue == some .retry && entry.next_retry.any fun t => t ≤ now)

def Entry.claim (entry : Entry) : Entry :=
  { entry with
    shared := Shared.setQueue entry.shared .processing
    attempts := entry.attempts + 1
    next_retry := none }

/-- `order_by("priority", "created_at").first()`; which of two equal entries is first is up to the
database. -/
structure Query where
  first : List Entry → Option Entry
  mem : ∀ entries entry, first entries = some entry → entry ∈ entries
  least : ∀ entries entry, first entries = some entry → ∀ other ∈ entries,
    entry.priority < other.priority ∨
      entry.priority = other.priority ∧ entry.created_at ≤ other.created_at
  isSome : ∀ entries, entries ≠ [] → (first entries).isSome = true

/-- Of equal entries the one that comes first. -/
def Query.oldest : Query where
  first := List.argmin fun entry => toLex (entry.priority, entry.created_at)
  mem _ _ hfirst := List.argmin_mem hfirst
  least entries entry hfirst other hother := by
    have hle := List.le_of_mem_argmin hother hfirst
    rwa [Prod.Lex.toLex_le_toLex] at hle
  isSome entries hne := by
    rw [Option.isSome_iff_ne_none]
    intro hnone
    exact hne (List.argmin_eq_none.mp hnone)

structure Report where
  processed : ℕ
  succeeded : ℕ
  failed : ℕ
  uncertain : ℕ
deriving DecidableEq, Repr

def Report.zero : Report := ⟨0, 0, 0, 0⟩

/-- An entry has been processed. -/
def Report.add (report : Report) : Count → Report
  | .succeeded =>
    { report with processed := report.processed + 1, succeeded := report.succeeded + 1 }
  | .failed => { report with processed := report.processed + 1, failed := report.failed + 1 }
  | .uncertain =>
    { report with processed := report.processed + 1, uncertain := report.uncertain + 1 }

/-- How the execution of each entry ends. -/
abbrev Executions := ℕ → Attempt

/-- The entry after it has been claimed and processed. -/
def Entry.processed (h : Host) (exec : Executions) (entry : Entry) : Entry :=
  { entry.claim with shared := (processEntry h (exec entry.id) entry.claim.shared).2 }

def Entry.count (h : Host) (exec : Executions) (entry : Entry) : Count :=
  (processEntry h (exec entry.id) entry.claim.shared).1

/-- The `for` loop. -/
def loop (h : Host) (q : Query) (exec : Executions) (now : ℕ) :
    ℕ → List Entry → Report → List Entry × Report
  | 0, entries, report => (entries, report)
  | n + 1, entries, report =>
    match q.first (entries.filter (Entry.due now)) with
    | none => (entries, report)
    | some entry =>
      loop h q exec now n
        (entries.map fun e => if e.id = entry.id then e.processed h exec else e)
        (report.add (entry.count h exec))

/-- `max(1, min(int(batch_size or 10), 100))`. -/
def batchLimit (batch_size : ℤ) : ℕ :=
  (max 1 (min (if batch_size = 0 then 10 else batch_size) 100)).toNat

/-- `process_execution_queue`; without the lock of the singleton nothing is done. -/
def processExecutionQueue (h : Host) (q : Query) (exec : Executions) (now : ℕ) (acquired : Bool)
    (batch_size : ℤ) (entries : List Entry) : List Entry × Report :=
  if acquired then loop h q exec now (batchLimit batch_size) entries .zero else (entries, .zero)

/-! ## What an execution leaves -/

/-- The log entry of an unrecognised answer is lost: the row is saved as `queued` by then, which
no handler takes for a submission. -/
def unlogged (h : Host) (f : Attempt) (order : Order) : Bool :=
  (order.status ∉ [OrderStatus.accepted, .executed, .cancelled, .failed]) && f.gate.isNone &&
    f.save_sent.isNone && f.adapter.isNone &&
    (match f.reply with
      | .returns (.dict response) => verdict h response == .unknown
      | _ => false) &&
    f.save_reply.isNone && f.log_reply.any fun e => !e.cls.transport

/-- The adapter was not invoked, or the broker rejected what was submitted. -/
def Unsubmitted (before after : Shared) : Prop :=
  after.broker.invoked = before.broker.invoked ∨ before.broker.invoked ∈ after.broker.rejected

section Execute

variable {h : Host} {f : Attempt} {s s' : Shared} {order : Order} {e : Exc}

theorem mem_rejected_reject (b : Broker) : b.invoked ∈ (b.invoke.reject b.invoked).rejected := by
  have hlt : b.invoked < b.invoke.invoked := Nat.lt_succ_self _
  rw [Broker.reject, dif_pos hlt]
  exact List.mem_cons_self

theorem status_withResponse (order : Order) (response : Dict) :
    (withResponse h order response).status = (verdict h response).status := rfl

/-- The execution gets as far as the adapter. -/
structure Invokes (f : Attempt) (order : Order) : Prop where
  status : order.status ∉ [OrderStatus.accepted, .executed, .cancelled, .failed]
  gate : f.gate = none
  save_sent : f.save_sent = none
  adapter : f.adapter = none

/-- The rows when the adapter has been invoked. -/
def sentRows (s : Shared) : Shared :=
  { s.setStatus .sent_to_broker with broker := s.broker.invoke }

theorem execute_of_invokes (hinvokes : Invokes f s.order) :
    execute h f s =
      executeReply h f { s.order with status := .sent_to_broker } s.broker.invoked (sentRows s) := by
  obtain ⟨hstatus, hgate, hsave, hadapter⟩ := hinvokes
  have hopen : ¬ (s.order.status = .accepted ∨ s.order.status = .executed) := by
    rintro (heq | heq) <;> simp [heq] at hstatus
  have hnotclosed : ¬ (s.order.status = .cancelled ∨ s.order.status = .failed) := by
    rintro (heq | heq) <;> simp [heq] at hstatus
  simp only [execute, if_neg hopen, if_neg hnotclosed, hgate, hsave, hadapter]
  rfl

/-- Every other execution leaves the broker alone. -/
theorem broker_or_invokes (h : Host) (f : Attempt) (s : Shared) :
    (execute h f s).2.broker = s.broker ∨ Invokes f s.order := by
  unfold execute
  dsimp only
  split
  · exact Or.inl rfl
  next hopen =>
  split
  · exact Or.inl rfl
  next hnotclosed =>
  split
  · exact Or.inl rfl
  next hgate =>
  split
  · exact Or.inl rfl
  next hsave =>
  split
  · exact Or.inl rfl
  next hadapter =>
  have hstatus : s.order.status ∉ [OrderStatus.accepted, .executed, .cancelled, .failed] := by
    simp only [List.mem_cons, List.not_mem_nil, or_false]
    tauto
  exact Or.inr ⟨hstatus, hgate, hsave, hadapter⟩

/-- An execution that returns has marked the order failed only if the broker rejected it. -/
theorem unsubmitted_of_returned (hexecute : execute h f s = (.returned order, s'))
    (hfailed : s'.order.status = .failed) : Unsubmitted s s' := by
  rcases broker_or_invokes h f s with hbroker | hinvokes
  · left
    rw [hexecute] at hbroker
    exact congrArg Broker.invoked hbroker
  rw [execute_of_invokes hinvokes] at hexecute
  unfold executeReply at hexecute
  split at hexecute
  · cases hexecute
  · next response _ =>
    dsimp only at hexecute
    split at hexecute
    · -- an unrecognised answer always raises
      unfold executeUnknown at hexecute
      split at hexecute
      · cases hexecute
      · dsimp only at hexecute
        split at hexecute <;> cases hexecute
    · split at hexecute
      · cases hexecute
      · split at hexecute
        · cases hexecute
        · obtain ⟨_, rfl⟩ := Prod.mk.inj hexecute
          have hverdict : verdict h response = .rejected := by
            have hstatus : (verdict h response).status = .failed := hfailed
            cases hv : verdict h response with
            | rejected => rfl
            | _ =>
              rw [hv] at hstatus
              cases hstatus
          right
          rw [if_pos hverdict]
          exact mem_rejected_reject s.broker
  · dsimp only at hexecute
    split at hexecute <;> cases hexecute

/-- What the handlers see of an execution that raised, so that they do not take it for one that
submitted nothing. -/
def Signed (order : Order) (e : Exc) (s' : Shared) : Prop :=
  e.cls.transport = true ∨ (s'.order.status.inFlight || order.status.inFlight) = true

/-- A recognised answer other than a rejection has the order in flight. -/
theorem inFlight_of_known {response : Dict} (hknown : verdict h response ≠ .unknown)
    (hnot : verdict h response ≠ .rejected) : (verdict h response).status.inFlight = true := by
  cases hv : verdict h response with
  | unknown => exact absurd hv hknown
  | rejected => exact absurd hv hnot
  | _ => rfl

/-- An unrecognised answer raises with a sign, unless its log entry is lost. -/
theorem signed_of_unknown {response : Dict} {sent : Shared}
    (hsent : sent.order.status.inFlight = true)
    (hlogged : f.save_reply.isNone = true → (f.log_reply.any fun e => !e.cls.transport) = false)
    (hexecute : executeUnknown f (withResponse h s.order response) sent = (.raised order e, s')) :
    Signed order e s' := by
  unfold executeUnknown at hexecute
  split at hexecute
  · obtain ⟨_, rfl⟩ := Prod.mk.inj hexecute
    right
    rw [hsent, Bool.true_or]
  · next hsaved =>
    dsimp only at hexecute
    split at hexecute
    · next e' hlog =>
      obtain ⟨hraised, rfl⟩ := Prod.mk.inj hexecute
      obtain ⟨_, rfl⟩ := Ended.raised.inj hraised
      left
      simpa [hlog] using hlogged (by rw [hsaved]; rfl)
    · obtain ⟨hraised, rfl⟩ := Prod.mk.inj hexecute
      obtain ⟨_, rfl⟩ := Ended.raised.inj hraised
      exact Or.inl rfl

/-- An execution that raises after the adapter is invoked leaves a sign of it that a handler
sees, if it does not lose the log entry. -/
theorem unsubmitted_of_raised (hexecute : execute h f s = (.raised order e, s'))
    (hlogged : unlogged h f s.order = false) :
    Signed order e s' ∨ Unsubmitted s s' := by
  rcases broker_or_invokes h f s with hbroker | hinvokes
  · right; left
    rw [hexecute] at hbroker
    exact congrArg Broker.invoked hbroker
  rw [execute_of_invokes hinvokes] at hexecute
  -- from here on the row says `sent_to_broker` until the answer is saved
  unfold executeReply at hexecute
  split at hexecute
  · obtain ⟨_, rfl⟩ := Prod.mk.inj hexecute
    exact Or.inl (Or.inr rfl)
  · next response hreply =>
    dsimp only at hexecute
    split at hexecute
    · next hunknown =>
      left
      refine signed_of_unknown rfl ?_ hexecute
      intro hsaved
      simpa [unlogged, hinvokes.status, hinvokes.gate, hinvokes.save_sent, hinvokes.adapter, hreply,
        hunknown, hsaved] using hlogged
    · next hknown =>
      by_cases hrejected : verdict h response = .rejected
      · right; right
        rw [if_pos hrejected] at hexecute
        split at hexecute
        · obtain ⟨_, rfl⟩ := Prod.mk.inj hexecute
          exact mem_rejected_reject s.broker
        · split at hexecute
          · obtain ⟨_, rfl⟩ := Prod.mk.inj hexecute
            exact mem_rejected_reject s.broker
          · cases hexecute
      · left; right
        have hmemory : ∀ order', (withResponse h order' response).status.inFlight = true :=
          fun _ => inFlight_of_known hknown hrejected
        split at hexecute
        · obtain ⟨hraised, rfl⟩ := Prod.mk.inj hexecute
          obtain ⟨rfl, _⟩ := Ended.raised.inj hraised
          rw [hmemory, Bool.or_true]
        · split at hexecute
          · obtain ⟨hraised, rfl⟩ := Prod.mk.inj hexecute
            obtain ⟨rfl, _⟩ := Ended.raised.inj hraised
            rw [hmemory, Bool.or_true]
          · cases hexecute
  · dsimp only at hexecute
    split at hexecute
    · obtain ⟨_, rfl⟩ := Prod.mk.inj hexecute
      exact Or.inl (Or.inr rfl)
    · obtain ⟨hraised, rfl⟩ := Prod.mk.inj hexecute
      obtain ⟨_, rfl⟩ := Ended.raised.inj hraised
      exact Or.inl (Or.inl rfl)

/-- The execution that loses the log entry: the order is queued again, and was submitted. -/
theorem execute_unlogged (hlost : unlogged h f s.order = true) :
    ∃ order e s', execute h f s = (.raised order e, s') ∧ e.cls.transport = false ∧
      (s'.order.status.inFlight || order.status.inFlight) = false ∧ ¬ Unsubmitted s s' := by
  simp only [unlogged, Bool.and_eq_true, decide_eq_true_eq, Option.isNone_iff_eq_none,
    Option.any_eq_true] at hlost
  obtain ⟨⟨⟨⟨⟨⟨hstatus, hgate⟩, hsave⟩, hadapter⟩, hreply⟩, hreplied⟩, e, hlog, hclass⟩ := hlost
  split at hreply
  · next response hresponse =>
    have hunknown : verdict h response = .unknown := by simpa using hreply
    let order := withResponse h { s.order with status := .sent_to_broker } response
    have hexecute : execute h f s =
        (.raised order e, ((sentRows s).saveReply order).setContext order.validation_context) := by
      rw [execute_of_invokes ⟨hstatus, hgate, hsave, hadapter⟩]
      simp only [executeReply, hresponse, if_pos hunknown, executeUnknown, hreplied, hlog]
      rfl
    have hqueued : order.status = .queued := by
      rw [status_withResponse, hunknown]
      rfl
    refine ⟨order, e, _, hexecute, by simpa using hclass, ?_, ?_⟩
    · change (order.status.inFlight || order.status.inFlight) = false
      rw [hqueued]
      rfl
    · rintro (hinvoked | hrejected)
      · exact absurd hinvoked (Nat.succ_ne_self _)
      · exact absurd (s.broker.submitted _ hrejected) (lt_irrefl _)
  · cases hreply

end Execute

/-! ## What an entry is left as -/

/-- A claimed entry is closed, as done if the execution returned, and its order is marked failed
only if nothing was submitted or the broker rejected it. -/
structure Closed (h : Host) (f : Attempt) (before after : Shared) : Prop where
  queue : after.queue = some .done ∨ after.queue = some .failed
  done_iff : after.queue = some .done ↔ ∃ order, (execute h f before).1 = .returned order
  failed : after.order.status = .failed → Unsubmitted before after

section Entry

variable {h : Host} {f : Attempt} {s : Shared}

theorem handle_queue (order : Order) (e : Exc) (s : Shared) :
    (handle order e s).2.queue = some .failed := by
  unfold handle
  split
  · rfl
  · split <;> rfl

theorem handle_broker (order : Order) (e : Exc) (s : Shared) :
    (handle order e s).2.broker = s.broker := by
  unfold handle
  split
  · rfl
  · split <;> rfl

/-- Only the last branch marks the order failed. -/
theorem handle_failed {order : Order} {e : Exc} {s : Shared} :
    (handle order e s).2.order.status = .failed ↔
      e.cls.transport = false ∧ (s.order.status.inFlight || order.status.inFlight) = false := by
  unfold handle
  split
  · next htransport => simp [htransport, Shared.setQueue, Shared.writeOrder, Shared.setContext,
      Shared.setStatus]
  · next htransport =>
    split
    · next hflight => simp [hflight, Shared.setQueue, Shared.writeOrder, Shared.setContext,
        Shared.setStatus]
    · next hflight => simp [htransport, hflight, Shared.setQueue, Shared.writeOrder,
        Shared.setStatus]

/-- An entry is closed as it should be exactly if the execution does not lose the log entry. -/
theorem closed_iff : Closed h f s (processEntry h f s).2 ↔ unlogged h f s.order = false := by
  constructor
  · intro hclosed
    by_contra hlost
    obtain ⟨order, e, s', hexecute, hclass, hflight, hsubmitted⟩ :=
      execute_unlogged (s := s) (by simpa using hlost)
    have hprocess : (processEntry h f s).2 = (handle order e s').2 := by
      simp only [processEntry, hexecute]
    have hunsubmitted := hclosed.failed
    rw [hprocess] at hunsubmitted
    have hnot := hunsubmitted (handle_failed.mpr ⟨hclass, hflight⟩)
    rw [Unsubmitted, handle_broker] at hnot
    exact hsubmitted hnot
  · intro hlogged
    cases hexecute : execute h f s with
    | mk ended s' =>
      cases ended with
      | returned order =>
        have hprocess : (processEntry h f s).2 = Shared.setQueue s' .done := by
          simp only [processEntry, hexecute]
        rw [hprocess]
        refine ⟨Or.inl rfl, ⟨fun _ => ⟨order, by rw [hexecute]⟩, fun _ => rfl⟩, fun hfailed => ?_⟩
        have hunsubmitted : Unsubmitted s s' := unsubmitted_of_returned hexecute hfailed
        exact hunsubmitted
      | raised order e =>
        have hprocess : (processEntry h f s).2 = (handle order e s').2 := by
          simp only [processEntry, hexecute]
        rw [hprocess]
        refine ⟨Or.inr (handle_queue order e s'), ⟨fun hdone => ?_, ?_⟩, fun hfailed => ?_⟩
        · rw [handle_queue] at hdone
          cases hdone
        · rintro ⟨returned, hreturned⟩
          rw [hexecute] at hreturned
          cases hreturned
        · obtain ⟨hclass, hflight⟩ := handle_failed.mp hfailed
          rw [Unsubmitted, handle_broker]
          rcases unsubmitted_of_raised hexecute hlogged with (htransport | hseen) | hnot
          · rw [hclass] at htransport
            cases htransport
          · rw [hflight] at hseen
            cases hseen
          · exact hnot

end Entry

/-! ## What a batch claims -/

/-- The entries that are claimed, one after the other, from those that are due. -/
def claims (q : Query) : ℕ → List Entry → List Entry
  | 0, _ => []
  | n + 1, due =>
    match q.first due with
    | none => []
    | some entry => entry :: claims q n (due.filter fun e => e.id ≠ entry.id)

/-- The entries a batch claims. -/
def batch (q : Query) (now : ℕ) (batch_size : ℤ) (entries : List Entry) : List Entry :=
  claims q (batchLimit batch_size) (entries.filter (Entry.due now))

section Loop

variable {h : Host} {q : Query} {exec : Executions} {now : ℕ}

theorem length_claims (n : ℕ) (due : List Entry) : (claims q n due).length ≤ n := by
  induction n generalizing due with
  | zero => exact le_refl 0
  | succ n ih =>
    unfold claims
    split
    · exact Nat.zero_le _
    · rw [List.length_cons]
      exact Nat.succ_le_succ (ih _)

theorem mem_of_mem_claims {n : ℕ} {due : List Entry} {entry : Entry}
    (hentry : entry ∈ claims q n due) : entry ∈ due := by
  induction n generalizing due with
  | zero => cases hentry
  | succ n ih =>
    unfold claims at hentry
    split at hentry
    · cases hentry
    · next first hfirst =>
      rcases List.mem_cons.mp hentry with rfl | hrest
      · exact q.mem due entry hfirst
      · exact List.mem_of_mem_filter (ih hrest)

theorem processed_queue (entry : Entry) : (entry.processed h exec).shared.queue = some .done ∨
    (entry.processed h exec).shared.queue = some .failed := by
  unfold Entry.processed processEntry
  dsimp only
  split
  · exact Or.inl rfl
  · exact Or.inr (handle_queue ..)

/-- What is processed is not due any more. -/
theorem not_due_processed (entry : Entry) : (entry.processed h exec).due now = false := by
  have hclosed : (entry.processed h exec).shared.queue = some .done ∨
      (entry.processed h exec).shared.queue = some .failed := processed_queue entry
  unfold Entry.due
  rcases hclosed with hqueue | hqueue <;> simp [hqueue]

/-- The entries that are due after one is processed. -/
theorem filter_due_processed (entry : Entry) (entries : List Entry) :
    (entries.map fun e => if e.id = entry.id then e.processed h exec else e).filter
        (Entry.due now) =
      (entries.filter (Entry.due now)).filter fun e => e.id ≠ entry.id := by
  induction entries with
  | nil => rfl
  | cons e entries ih =>
    rw [List.map_cons]
    by_cases hid : e.id = entry.id
    · -- the entry that is processed
      rw [if_pos hid, List.filter_cons_of_neg (by simp [not_due_processed]), ih]
      by_cases hdue : e.due now = true
      · rw [List.filter_cons_of_pos hdue, List.filter_cons_of_neg (by simpa using hid)]
      · rw [List.filter_cons_of_neg hdue]
    · rw [if_neg hid]
      by_cases hdue : e.due now = true
      · rw [List.filter_cons_of_pos hdue, List.filter_cons_of_pos hdue,
          List.filter_cons_of_pos (by simpa using hid), ih]
      · rw [List.filter_cons_of_neg hdue, List.filter_cons_of_neg hdue, ih]

/-- The loop processes what it claims, each entry once, and counts it. -/
theorem loop_eq (n : ℕ) (entries : List Entry) (report : Report) :
    loop h q exec now n entries report =
      (entries.map fun e =>
          if e.id ∈ (claims q n (entries.filter (Entry.due now))).map Entry.id
          then e.processed h exec else e,
        (claims q n (entries.filter (Entry.due now))).foldl
          (fun report entry => report.add (entry.count h exec)) report) := by
  induction n generalizing entries report with
  | zero => simp [loop, claims]
  | succ n ih =>
    unfold loop claims
    cases hfirst : q.first (entries.filter (Entry.due now)) with
    | none => simp
    | some entry =>
      dsimp only
      rw [ih, filter_due_processed, List.foldl_cons, List.map_map]
      refine Prod.ext ?_ rfl
      dsimp only
      refine List.map_congr_left fun e _ => ?_
      have hclaimed : entry.id ∉ (claims q n ((entries.filter (Entry.due now)).filter
          fun e => e.id ≠ entry.id)).map Entry.id := by
        intro hmem
        obtain ⟨other, hother, hid⟩ := List.mem_map.mp hmem
        have hne := (List.mem_filter.mp (mem_of_mem_claims hother)).2
        simp [hid] at hne
      by_cases hid : e.id = entry.id
      · have hprocessed : (e.processed h exec).id ∉ (claims q n
            ((entries.filter (Entry.due now)).filter fun e => e.id ≠ entry.id)).map Entry.id := by
          change e.id ∉ _
          rw [hid]
          exact hclaimed
        have hfirst : e.id ∈ entry.id :: (claims q n ((entries.filter (Entry.due now)).filter
            fun e => e.id ≠ entry.id)).map Entry.id := by
          rw [hid]
          exact List.mem_cons_self
        rw [Function.comp_apply, if_pos hid, if_neg hprocessed, List.map_cons, if_pos hfirst]
      · simp [hid]

end Loop

/-! ## The batch is sound -/

theorem report_foldl (h : Host) (exec : Executions) (entries : List Entry) (report : Report)
    (hreport : report.processed = report.succeeded + report.failed + report.uncertain) :
    let report' := entries.foldl (fun report entry => report.add (entry.count h exec)) report
    report'.processed = report.processed + entries.length ∧
      report'.processed = report'.succeeded + report'.failed + report'.uncertain := by
  induction entries generalizing report with
  | nil => exact ⟨rfl, hreport⟩
  | cons entry entries ih =>
    have hadd : (report.add (entry.count h exec)).processed = report.processed + 1 ∧
        (report.add (entry.count h exec)).processed =
          (report.add (entry.count h exec)).succeeded +
            (report.add (entry.count h exec)).failed +
            (report.add (entry.count h exec)).uncertain := by
      cases entry.count h exec with
      | succeeded => exact ⟨rfl, by simp only [Report.add]; omega⟩
      | failed => exact ⟨rfl, by simp only [Report.add]; omega⟩
      | uncertain => exact ⟨rfl, by simp only [Report.add]; omega⟩
    obtain ⟨hlength, hsum⟩ := ih _ hadd.2
    refine ⟨?_, hsum⟩
    simp only [List.foldl_cons] at hlength ⊢
    rw [hlength, hadd.1, List.length_cons]
    omega

/-- What a batch should do with the entries. Each entry keeps its place in the queue. -/
structure Sound (h : Host) (exec : Executions) (limit : ℕ) (claimed : List Entry)
    (entries entries' : List Entry) (report : Report) : Prop where
  entries : List.Forall₂ (fun e e' => if e.id ∈ claimed.map Entry.id
    then Closed h (exec e.id) e.claim.shared e'.shared else e' = e) entries entries'
  counts : report.processed = report.succeeded + report.failed + report.uncertain
  limit : report.processed ≤ limit

/-- A batch is sound exactly if no execution of what it claims loses the log entry of an
unrecognised answer. -/
theorem batch_sound_iff (h : Host) (q : Query) (exec : Executions) (now : ℕ) (batch_size : ℤ)
    (entries : List Entry) :
    Sound h exec (batchLimit batch_size) (batch q now batch_size entries) entries
        (processExecutionQueue h q exec now true batch_size entries).1
        (processExecutionQueue h q exec now true batch_size entries).2 ↔
      ∀ e ∈ entries, e.id ∈ (batch q now batch_size entries).map Entry.id →
        unlogged h (exec e.id) e.shared.order = false := by
  rw [processExecutionQueue, if_pos rfl, loop_eq]
  change Sound h exec _ (batch q now batch_size entries) entries (entries.map fun e =>
      if e.id ∈ (batch q now batch_size entries).map Entry.id then e.processed h exec else e)
    ((batch q now batch_size entries).foldl _ Report.zero) ↔ _
  have hentries : List.Forall₂ (fun e e' => if e.id ∈ (batch q now batch_size entries).map Entry.id
      then Closed h (exec e.id) e.claim.shared e'.shared else e' = e) entries
      (entries.map fun e => if e.id ∈ (batch q now batch_size entries).map Entry.id
        then e.processed h exec else e) ↔
      ∀ e ∈ entries, e.id ∈ (batch q now batch_size entries).map Entry.id →
        unlogged h (exec e.id) e.shared.order = false := by
    rw [List.forall₂_map_right_iff, List.forall₂_same]
    refine forall₂_congr fun e _ => ?_
    by_cases hclaimed : e.id ∈ (batch q now batch_size entries).map Entry.id
    · simp only [hclaimed, if_true, true_imp_iff]
      exact closed_iff
    · simp [hclaimed]
  constructor
  · intro hsound
    exact hentries.mp hsound.entries
  · intro hlogged
    obtain ⟨hlength, hcounts⟩ :=
      report_foldl h exec (batch q now batch_size entries) .zero rfl
    refine ⟨hentries.mpr hlogged, hcounts, ?_⟩
    rw [hlength]
    exact le_trans (Nat.le_of_eq (Nat.zero_add _)) (length_claims _ _)

/-! ## The engine -/

section Engine

variable {h : Host} {f : Attempt}

/-- The rest of a worker's call that runs alone. -/
def rest (h : Host) (f : Attempt) : ℕ → Worker × Shared → Worker × Shared :=
  (worker h).drive fun p => p.1.site f.sites

theorem rest_step {p p' : Worker × Shared} {n : ℕ}
    (hstep : (p.1.site f.sites).bind ((worker h).next p) = some p') :
    rest h f (n + 1) p = rest h f n p' := by
  simp only [rest, Machine.drive, hstep]

theorem rest_idle (n : ℕ) (s : Shared) : rest h f n (.idle, s) = (.idle, s) := by
  cases n <;> rfl

/-- What is left when an order and a queue entry are to be written. -/
theorem rest_writeOrder (n : ℕ) (status : OrderStatus) (context : Option Dict) (s : Shared) :
    rest h f (n + 2) (.writeOrder status context, s) =
      (.idle, Shared.setQueue (s.writeOrder status context) .failed) := by
  have horder : rest h f (n + 2) (.writeOrder status context, s) =
      rest h f (n + 1) (.writeQueue, s.writeOrder status context) := rest_step rfl
  have hqueue : rest h f (n + 1) (.writeQueue, s.writeOrder status context) =
      rest h f n (.idle, Shared.setQueue (s.writeOrder status context) .failed) := rest_step rfl
  rw [horder, hqueue, rest_idle]

/-- The handlers of the worker are `handle`. -/
theorem rest_caught (n : ℕ) (order : Order) (e : Exc) (s : Shared) :
    rest h f (n + 4) (caught order e, s) = (.idle, (handle order e s).2) := by
  unfold caught handle
  split
  · exact rest_writeOrder ..
  · have hread : rest h f (n + 4) (.readCurrent order e, s) =
        rest h f (n + 3) (onCurrent s.order order e, s) := rest_step rfl
    rw [hread, onCurrent]
    split
    · split
      · exact rest_writeOrder ..
      · have hcontext : rest h f (n + 3) (.readContext e, s) = rest h f (n + 2)
            (.writeOrder .sent_to_broker (some (withError s.order.validation_context e)), s) :=
          rest_step rfl
        rw [hcontext]
        exact rest_writeOrder ..
    · exact rest_writeOrder ..

theorem rest_markDone (n : ℕ) (order : Order) (s : Shared) :
    rest h f (n + 1) (.markDone order, s) = (.idle, Shared.setQueue s .done) := by
  have hdone : rest h f (n + 1) (.markDone order, s) =
      rest h f n (.idle, Shared.setQueue s .done) := rest_step rfl
  rw [hdone, rest_idle]

/-- The worker after the execution. -/
def Ended.worker : Ended → Worker
  | .returned order => .markDone order
  | .raised order e => caught order e

theorem rest_ended (n : ℕ) {s : Shared} {p : Ended × Shared} (hexecute : execute h f s = p) :
    rest h f (n + 4) (p.1.worker, p.2) = (.idle, (processEntry h f s).2) := by
  obtain ⟨ended, s'⟩ := p
  unfold processEntry
  rw [hexecute]
  cases ended with
  | returned order => exact rest_markDone ..
  | raised order e => exact rest_caught ..

theorem rest_executeUnknown (n : ℕ) (order : Order) (attempt : ℕ) (s : Shared) :
    ∃ k, rest h f (n + 6) (.exec ⟨.saveUnknown, order, attempt⟩, s) =
      rest h f (k + 4) ((executeUnknown f order s).1.worker, (executeUnknown f order s).2) := by
  obtain ⟨gate, save_sent, adapter, reply, save_reply, log_reply⟩ := f
  cases save_reply with
  | some e => exact ⟨n + 1, rest_step rfl⟩
  | none =>
    cases log_reply with
    | some e => exact ⟨n, (rest_step rfl).trans (rest_step rfl)⟩
    | none => exact ⟨n, (rest_step rfl).trans (rest_step rfl)⟩

/-- The rest of an execution, after the broker's answer. -/
theorem rest_executeReply (n : ℕ) (order : Order) (attempt : ℕ) (s : Shared) :
    ∃ k, rest h f (n + 7) (.exec ⟨.await, order, attempt⟩, s) =
      rest h f (k + 4) ((executeReply h f order attempt s).1.worker,
        (executeReply h f order attempt s).2) := by
  have hawait : rest h f (n + 7) (.exec ⟨.await, order, attempt⟩, s) =
      rest h f (n + 6) (Worker.after (awaitStep h ⟨.await, order, attempt⟩ s f.reply).1,
        (awaitStep h ⟨.await, order, attempt⟩ s f.reply).2) := rest_step rfl
  rw [hawait]
  unfold executeReply awaitStep
  cases hreply : f.reply with
  | raises e => exact ⟨n + 2, rfl⟩
  | returns v =>
    cases v with
    | dict response =>
      dsimp only
      by_cases hunknown : verdict h response = .unknown
      · rw [if_pos hunknown]
        have hrunning : replyStep h ⟨.await, order, attempt⟩ s response =
            (.running ⟨.saveUnknown, withResponse h order response, attempt⟩, s) := by
          simp only [replyStep, hunknown]
        rw [hrunning]
        exact rest_executeUnknown n _ attempt s
      · rw [if_neg hunknown]
        have hrunning : replyStep h ⟨.await, order, attempt⟩ s response =
            (.running ⟨.saveReply, withResponse h order response, attempt⟩,
              if verdict h response = .rejected then { s with broker := s.broker.reject attempt }
              else s) := by
          unfold replyStep
          split
          · next heq => exact absurd heq hunknown
          · next heq => rw [if_pos heq]
          · next hnot => rw [if_neg hnot]
        rw [hrunning]
        clear hreply hrunning hawait
        obtain ⟨gate, save_sent, adapter, reply, save_reply, log_reply⟩ := f
        cases save_reply with
        | some e => exact ⟨n + 1, rest_step rfl⟩
        | none =>
          cases log_reply with
          | some e => exact ⟨n, (rest_step rfl).trans (rest_step rfl)⟩
          | none => exact ⟨n, (rest_step rfl).trans (rest_step rfl)⟩
    | _ =>
      clear hreply hawait
      obtain ⟨gate, save_sent, adapter, reply, save_reply, log_reply⟩ := f
      cases save_reply with
      | some e => exact ⟨n + 1, rest_step rfl⟩
      | none => exact ⟨n + 1, rest_step rfl⟩

theorem rest_execute (n : ℕ) (s : Shared) :
    ∃ k, rest h f (n + 10) (.exec (Exec.start s.order), s) =
      rest h f (k + 4) ((execute h f s).1.worker, (execute h f s).2) := by
  have hcheck : ∀ next, checkStep (Exec.start s.order) (.of f.gate) = some next →
      rest h f (n + 10) (.exec (Exec.start s.order), s) =
        rest h f (n + 9) (Worker.after next, s) := by
    intro next hnext
    refine rest_step ?_
    cases hgate : f.gate <;> rw [hgate] at hnext <;>
      simp [Worker.site, Exec.site, Exec.start, Attempt.sites, hgate, Outcome.of, worker, workStep,
        execStep, execOk] <;> exact ⟨next, hnext, rfl⟩
  unfold execute
  dsimp only
  split
  · next hopen =>
    rw [hcheck (.returned s.order) (if_pos hopen)]
    exact ⟨n + 5, rfl⟩
  next hopen =>
  split
  · next hclosed =>
    rw [hcheck (.raised s.order (cannotExecute s.order.status))
      ((if_neg hopen).trans (if_pos hclosed))]
    exact ⟨n + 5, rfl⟩
  next hclosed =>
  split
  · next e hgate =>
    rw [hcheck (.raised s.order e)
      ((if_neg hopen).trans ((if_neg hclosed).trans (by rw [hgate]; rfl)))]
    exact ⟨n + 5, rfl⟩
  next hgate =>
  rw [hcheck (.running ⟨.saveSent, { s.order with status := .sent_to_broker }, 0⟩)
    ((if_neg hopen).trans ((if_neg hclosed).trans (by rw [hgate]; rfl)))]
  split
  · next e hsave =>
    refine ⟨n + 4, rest_step ?_⟩
    simp [Worker.after, Worker.site, Exec.site, Attempt.sites, hsave, Outcome.of, worker, workStep,
      execStep, Ended.worker]
  next hsave =>
  have hsent : rest h f (n + 9) (.exec ⟨.saveSent, { s.order with status := .sent_to_broker }, 0⟩,
      s) = rest h f (n + 8) (.exec ⟨.submit, { s.order with status := .sent_to_broker }, 0⟩,
        s.setStatus .sent_to_broker) := by
    refine rest_step ?_
    simp [Worker.after, Worker.site, Exec.site, Attempt.sites, hsave, Outcome.of, worker, workStep,
      execStep, execOk]
  rw [Worker.after, hsent]
  split
  · next e hadapter =>
    refine ⟨n + 3, rest_step ?_⟩
    simp [Worker.after, Worker.site, Exec.site, Attempt.sites, hadapter, Outcome.of, worker,
      workStep, execStep, Ended.worker]
  next hadapter =>
  have hinvoked : rest h f (n + 8) (.exec ⟨.submit, { s.order with status := .sent_to_broker }, 0⟩,
      s.setStatus .sent_to_broker) = rest h f (n + 7)
        (.exec ⟨.await, { s.order with status := .sent_to_broker }, s.broker.invoked⟩,
          { s.setStatus .sent_to_broker with broker := s.broker.invoke }) := by
    refine rest_step ?_
    simp [Worker.after, Worker.site, Exec.site, Attempt.sites, hadapter, Outcome.of, worker,
      workStep, execStep, execOk, Shared.setStatus]
  rw [hinvoked]
  exact rest_executeReply n _ _ _

/-- What is processed is the worker's call in the engine. -/
theorem queuedCall_sites (f : Attempt) (s : Shared) :
    queuedCall h f.sites s = (.idle, (processEntry h f s).2) := by
  have hclaimed : queuedCall h f.sites s = rest h f 11 (.exec (Exec.start s.order), s) :=
    rest_step rfl
  obtain ⟨k, hk⟩ := rest_execute (h := h) (f := f) 1 s
  rw [hclaimed, hk]
  exact rest_ended k rfl

end Engine

/-! ## An unrecognised answer -/

/-- The broker answers with a status the engine does not know, and the log of it fails. -/
def lost : Attempt where
  gate := none
  save_sent := none
  adapter := none
  reply := .returns (.dict [("status", .str "under_review")])
  save_reply := none
  log_reply := some ⟨.Exception, "server closed the connection unexpectedly"⟩

/-- A queued order. -/
def queued : Entry :=
  ⟨1, 5, 0, 0, none, ⟨{ draft with status := .queued }, some .pending, Broker.empty⟩⟩

/-- The order is marked failed, though it was submitted and not rejected. -/
theorem unlogged_fails :
    ¬ Sound .ascii (fun _ => lost) 1 (batch .oldest 0 1 [queued]) [queued]
      (processExecutionQueue .ascii .oldest (fun _ => lost) 0 true 1 [queued]).1
      (processExecutionQueue .ascii .oldest (fun _ => lost) 0 true 1 [queued]).2 := by
  intro hsound
  have hentries := hsound.entries
  have hbatch : batch .oldest 0 1 [queued] = [queued] := rfl
  have hresult : (processExecutionQueue .ascii .oldest (fun _ => lost) 0 true 1 [queued]).1 =
      [queued.processed .ascii fun _ => lost] := rfl
  rw [hbatch, hresult, List.forall₂_cons] at hentries
  have hclosed : Closed .ascii lost queued.claim.shared
      (queued.processed .ascii fun _ => lost).shared := by simpa using hentries.1
  have hfailed : (queued.processed .ascii fun _ => lost).shared.order.status = .failed := by
    decide +kernel
  rcases hclosed.failed hfailed with hinvoked | hrejected
  · have hsubmitted : (queued.processed .ascii fun _ => lost).shared.broker.invoked = 1 := by
      decide +kernel
    rw [hsubmitted] at hinvoked
    cases hinvoked
  · have hnone : (queued.processed .ascii fun _ => lost).shared.broker.rejected = [] := by
      decide +kernel
    rw [hnone] at hrejected
    cases hrejected

end Batches

end AlgoBot.Execution
