import Mathlib.Data.List.Sort
import AlgoBot.Core.Once
import AlgoBot.Automation.Models

/-!
# Scheduled tasks

`process_due_scheduled_tasks`, run by any number of workers at once. A worker lists
the due tasks, claims them one after the other under a lock on the row, runs the
workflow of a claimed task and writes what came of it.

`executed_once`: a task is executed at most once, its row is completed, paused or
failed when its worker is through with it, and it is never claimed again.
-/

namespace AlgoBot.Automation

open AlgoBot.Core AlgoBot.Python

/-! ## `process_due_scheduled_tasks` -/

/-- `status="pending", next_execution__lte=now`. -/
def due (now : ℤ) (task : ScheduledTask) : Bool :=
  task.status == .pending && task.next_execution.any fun t => t ≤ now

/-- `order_by("next_execution", "id")`. -/
def earlier (task other : ScheduledTask) : Bool :=
  match task.next_execution, other.next_execution with
  | some t, some u => t < u || (t == u && task.pk ≤ other.pk)
  | _, _ => true

/-- `candidate_ids`. -/
def candidateIds (tasks : Table ScheduledTask) (now limit : ℤ) : List ℕ :=
  (((tasks.rows.filter (due now)).insertionSort fun t u => earlier t u = true).map
    ScheduledTask.pk).take (max 1 (min limit 500)).toNat

/-- The status of a task whose workflow has been executed. -/
def statusAfter : Status → Status
  | .completed => .completed
  | .paused | .pending => .paused
  | _ => .failed

/-- The three statuses a worker leaves. -/
def Status.ended : Status → Bool
  | .completed | .paused | .failed => true
  | _ => false

theorem ended_statusAfter (status : Status) : (statusAfter status).ended = true := by
  cases status <;> rfl

/-- A task object with the status that is still to be saved. -/
abbrev Processed := { task : ScheduledTask // task.status.ended = true }

/-- What the worker makes of the task it has claimed. -/
def processed (task : ScheduledTask) (processed_at : String) : RunResult → Processed
  | .returns pk status result =>
      ⟨{ task with
          metadata := .dict (task.metadata.asDict.merge
            [("execution_id", .int pk), ("execution_status", .str status.text),
              ("execution_result", .dict result.asDict), ("processed_at", .str processed_at)])
          status := statusAfter status }, ended_statusAfter status⟩
  | .raises detail =>
      ⟨{ task with
          metadata := .dict (task.metadata.asDict.merge
            [("error", .str (take 1000 detail)), ("processed_at", .str processed_at)])
          status := .failed }, rfl⟩

/-! ## Workers -/

/-- The variables of the loop. -/
structure Loop where
  now : ℤ
  left : List ℕ
  processed : ℕ
  checked : ℕ

/-- Where a worker is. -/
inductive Worker where
  | idle
  | looping (l : Loop)
  | claimed (l : Loop) (task : ScheduledTask)
  | executing (l : Loop) (task : ScheduledTask)
  | executed (l : Loop) (task : Processed)
  | returned (processed checked : ℕ)

structure State where
  tasks : Table ScheduledTask
  workers : ℕ → Worker

def State.start (tasks : Table ScheduledTask) : State := ⟨tasks, fun _ => .idle⟩

inductive Action where
  /-- `SchedulerService.schedule`. -/
  | schedule (next_execution : ℤ)
  | start (w : ℕ) (now limit : ℤ)
  /-- The transaction that claims the next candidate; it may fail. -/
  | claim (w : ℕ) (commits : Bool)
  /-- `run` is called. -/
  | execute (w : ℕ)
  /-- `run` ends. -/
  | finish (w : ℕ) (result : RunResult) (processed_at : String)
  | save (w : ℕ)
  /-- The worker is stopped. -/
  | die (w : ℕ)

/-- The transaction around one candidate. -/
def claim (tasks : Table ScheduledTask) (now : ℤ) (task_id : ℕ) : Option ScheduledTask :=
  ((tasks.get? task_id).filter (due now)).map fun task => { task with status := .running }

/-- `task.save(update_fields=["status", "metadata"])`. -/
def saveTask (tasks : Table ScheduledTask) (task : ScheduledTask) : Table ScheduledTask :=
  match tasks.get? task.pk with
  | some row => tasks.set { row with status := task.status, metadata := task.metadata }
  | none => tasks

/-- A row of `SchedulerService.schedule`. -/
def newTask (next_execution : ℤ) (pk : ℕ) : ScheduledTask :=
  ⟨pk, some next_execution, .pending, .dict []⟩

def State.move (s : State) (w : ℕ) (worker : Worker) : State :=
  { s with workers := Function.update s.workers w worker }

def step (s : State) : Action → Option State
  | .schedule next_execution =>
      some { s with tasks := s.tasks.create (newTask next_execution) fun _ => rfl }
  | .start w now limit =>
      let ids := candidateIds s.tasks now limit
      match s.workers w with
      | .idle | .returned _ _ => some (s.move w (.looping ⟨now, ids, 0, ids.length⟩))
      | _ => none
  | .claim w commits =>
      match s.workers w with
      | .looping ⟨_, [], processed, checked⟩ => some (s.move w (.returned processed checked))
      | .looping ⟨now, task_id :: left, processed, checked⟩ =>
          if commits then
            match claim s.tasks now task_id with
            | some task =>
                some ({ s with tasks := s.tasks.set task }.move w
                  (.claimed ⟨now, left, processed, checked⟩ task))
            | none => some (s.move w (.looping ⟨now, left, processed, checked⟩))
          else some (s.move w .idle)
      | _ => none
  | .execute w =>
      match s.workers w with
      | .claimed l task => some (s.move w (.executing l task))
      | _ => none
  | .finish w result processed_at =>
      match s.workers w with
      | .executing l task => some (s.move w (.executed l (processed task processed_at result)))
      | _ => none
  | .save w =>
      match s.workers w with
      | .executed l task =>
          some ({ s with tasks := saveTask s.tasks task.1 }.move w
            (.looping { l with processed := l.processed + 1 }))
      | _ => none
  | .die w => some (s.move w .idle)

/-- Workers and the scheduling view, in any order. -/
def scheduler : Machine State Action := ⟨step⟩

/-! ## What is to be shown -/

/-- The step claims the task. -/
def claims (k : ℕ) (s : State) : Action → ℕ
  | .claim w true =>
      match s.workers w with
      | .looping ⟨now, task_id :: _, _, _⟩ =>
          if task_id = k ∧ (claim s.tasks now task_id).isSome = true then 1 else 0
      | _ => 0
  | _ => 0

/-- The step executes the workflow of the task. -/
def executes (k : ℕ) (s : State) : Action → ℕ
  | .execute w =>
      match s.workers w with
      | .claimed _ task => if task.pk = k then 1 else 0
      | _ => 0
  | _ => 0

/-- The step ends a worker's work on the task. -/
def Saves (k : ℕ) (s : State) (a : Action) : Prop :=
  ∃ w l task, a = .save w ∧ s.workers w = .executed l task ∧ task.1.pk = k

/-- The row is completed, paused or failed. -/
def Ended (k : ℕ) (s : State) : Prop :=
  (s.tasks.get? k).any (fun task => task.status.ended) = true

/-- A worker that is through with a task leaves it ended, and ended tasks stay so and are not
claimed. -/
structure LeavesEnded (s : State) (a : Action) : Prop where
  saved : ∀ k, Saves k s a → ∀ s', step s a = some s' → Ended k s'
  kept : scheduler.Keeps Ended s a
  unclaimed : ∀ k, Ended k s → claims k s a = 0 ∧ executes k s a = 0

section Steps

variable {k : ℕ} {s s' t : State} {a : Action} {as : List Action} {tasks : Table ScheduledTask}

/-! ## What a step does to one task -/

/-- The worker has claimed the task and is not through with it. -/
def Worker.on (k : ℕ) : Worker → Bool
  | .claimed _ task | .executing _ task => task.pk == k
  | .executed _ task => task.1.pk == k
  | _ => false

/-- The worker is still to execute the task. -/
def Worker.ahead (k : ℕ) : Worker → Bool
  | .claimed _ task => task.pk == k
  | _ => false

theorem Worker.on_of_ahead (worker : Worker) (h : worker.ahead k = true) : worker.on k = true := by
  cases worker with
  | claimed l task => exact h
  | _ => cases h

/-- The row has this status. -/
def RowIs (k : ℕ) (status : Status) (s : State) : Prop :=
  ∃ task, s.tasks.get? k = some task ∧ task.status = status

/-- What a step does to task `k`. -/
inductive TaskEffect (k : ℕ) (s s' : State) : (claimed executed : ℕ) → Prop where
  /-- A task is scheduled. -/
  | rests (workers : s'.workers = s.workers)
      (row : ∀ task, s.tasks.get? k = some task → s'.tasks.get? k = some task) :
      TaskEffect k s s' 0 0
  /-- A worker is about something else. -/
  | leaves (w : ℕ) (y : Worker) (workers : s'.workers = Function.update s.workers w y)
      (off : y.on k = false) (row : s'.tasks.get? k = s.tasks.get? k) : TaskEffect k s s' 0 0
  | claims (w : ℕ) (y : Worker) (workers : s'.workers = Function.update s.workers w y)
      (pending : RowIs k .pending s) (running : RowIs k .running s') : TaskEffect k s s' 1 0
  | executes (w : ℕ) (y : Worker) (workers : s'.workers = Function.update s.workers w y)
      (ahead : (s.workers w).ahead k = true) (spent : y.ahead k = false)
      (row : s'.tasks.get? k = s.tasks.get? k) : TaskEffect k s s' 0 1
  | finishes (w : ℕ) (y : Worker) (workers : s'.workers = Function.update s.workers w y)
      (on : (s.workers w).on k = true) (spent : y.ahead k = false)
      (row : s'.tasks.get? k = s.tasks.get? k) : TaskEffect k s s' 0 0
  | saves (w : ℕ) (y : Worker) (workers : s'.workers = Function.update s.workers w y)
      (on : (s.workers w).on k = true) (off : y.on k = false)
      (ended : RowIs k .running s → Ended k s') : TaskEffect k s s' 0 0

/-- A row has one status. -/
theorem RowIs.status_eq {status status' : Status} (h : RowIs k status s) (h' : RowIs k status' s) :
    status = status' := by
  rcases h with ⟨task, htask, rfl⟩
  rcases h' with ⟨task', htask', rfl⟩
  rw [htask, Option.some.injEq] at htask'
  rw [htask']

/-- A step that leaves the row alone keeps its status. -/
theorem RowIs.of_row {status : Status} (hrow : s'.tasks.get? k = s.tasks.get? k)
    (h : RowIs k status s) : RowIs k status s' := by
  rcases h with ⟨task, htask, hstatus⟩
  exact ⟨task, hrow ▸ htask, hstatus⟩

/-- An ended row has one of the three statuses. -/
theorem rowIs_of_ended (h : Ended k s) : ∃ status, status.ended = true ∧ RowIs k status s := by
  rcases (Option.any_eq_true _ _).mp h with ⟨task, htask, hended⟩
  exact ⟨task.status, hended, task, htask, rfl⟩

theorem Ended.of_rowIs {status : Status} (h : Ended k s) (hrow : RowIs k status s) :
    status.ended = true := by
  rcases rowIs_of_ended h with ⟨status', hended, hrow'⟩
  rw [hrow.status_eq hrow']
  exact hended

/-- A claim that succeeds finds the task pending and makes it running. -/
theorem claim_cases {now : ℤ} {task_id : ℕ} {task : ScheduledTask}
    (h : claim tasks now task_id = some task) :
    task.pk = task_id ∧ task.status = .running ∧
      ∃ row, tasks.get? task_id = some row ∧ row.status = .pending := by
  rcases Option.map_eq_some_iff.mp h with ⟨row, hrow, rfl⟩
  rcases Option.filter_eq_some_iff.mp hrow with ⟨hget, hdue⟩
  simp only [due, Bool.and_eq_true, beq_iff_eq] at hdue
  exact ⟨Table.pk_of_get? hget, rfl, row, hget, hdue.1⟩

/-- What a claim that succeeds does to task `k`. -/
theorem claim_effect {w task_id : ℕ} {now : ℤ} {l : Loop} {task : ScheduledTask}
    (h : claim s.tasks now task_id = some task) :
    TaskEffect k s ({ s with tasks := s.tasks.set task }.move w (.claimed l task))
      (if task_id = k then 1 else 0) 0 := by
  rcases claim_cases h with ⟨hpk, hrunning, row, hrow, hpending⟩
  subst hpk
  have hget : ∀ j, (s.tasks.set task).get? j =
      if j = task.pk then some task else s.tasks.get? j := Table.get?_set_of_some hrow
  by_cases hk : task.pk = k
  · subst hk
    rw [if_pos rfl]
    refine .claims w _ rfl ⟨row, hrow, hpending⟩ ⟨task, ?_, hrunning⟩
    show (s.tasks.set task).get? task.pk = some task
    rw [hget, if_pos rfl]
  · rw [if_neg hk]
    refine .leaves w _ rfl (by simp [Worker.on, hk]) ?_
    show (s.tasks.set task).get? k = s.tasks.get? k
    rw [hget, if_neg (Ne.symm hk)]

theorem get?_saveTask_ne {task : ScheduledTask} (hk : k ≠ task.pk) :
    (saveTask tasks task).get? k = tasks.get? k := by
  unfold saveTask
  split
  · next row hrow =>
    have hpk : row.pk = task.pk := Table.pk_of_get? hrow
    apply Table.get?_set_ne
    show k ≠ row.pk
    rw [hpk]
    exact hk
  · rfl

/-- The row that is saved has the status of the object. -/
theorem get?_saveTask_self {task row : ScheduledTask} (hrow : tasks.get? task.pk = some row) :
    (saveTask tasks task).get? task.pk =
      some { row with status := task.status, metadata := task.metadata } := by
  have hpk : row.pk = task.pk := Table.pk_of_get? hrow
  have hself : tasks.get? row.pk = some row := by rw [hpk, hrow]
  rw [saveTask, hrow, ← hpk]
  exact Table.get?_set_self hself

theorem step_effect (hs : step s a = some s') :
    TaskEffect k s s' (claims k s a) (executes k s a) := by
  cases a with
  | schedule next_execution =>
    cases hs
    exact .rests rfl fun task htask => Table.get?_create_of_some (fun _ => rfl) htask
  | start w now limit =>
    simp only [step] at hs
    split at hs
    · cases hs
      exact .leaves w _ rfl rfl rfl
    · cases hs
      exact .leaves w _ rfl rfl rfl
    · cases hs
  | claim w commits =>
    simp only [step] at hs
    split at hs
    · next hw =>
      cases hs
      have hcount : claims k s (.claim w commits) = 0 := by
        cases commits <;> simp [claims, hw]
      rw [hcount]
      exact .leaves w _ rfl rfl rfl
    · next now task_id left processed checked hw =>
      cases commits with
      | false =>
        cases hs
        exact .leaves w _ rfl rfl rfl
      | true =>
        cases hc : claim s.tasks now task_id with
        | none =>
          simp only [if_true, hc] at hs
          cases hs
          have hcount : claims k s (.claim w true) = 0 := by simp [claims, hw, hc]
          rw [hcount]
          exact .leaves w _ rfl rfl rfl
        | some task =>
          simp only [if_true, hc] at hs
          cases hs
          have hcount : claims k s (.claim w true) = if task_id = k then 1 else 0 := by
            simp [claims, hw, hc]
          rw [hcount]
          exact claim_effect hc
    · cases hs
  | execute w =>
    simp only [step] at hs
    split at hs
    · next l task hw =>
      cases hs
      by_cases hk : task.pk = k
      · have hcount : executes k s (.execute w) = 1 := by simp [executes, hw, hk]
        rw [hcount]
        exact .executes w _ rfl (by simp [hw, Worker.ahead, hk]) rfl rfl
      · have hcount : executes k s (.execute w) = 0 := by simp [executes, hw, hk]
        rw [hcount]
        exact .leaves w _ rfl (by simp [Worker.on, hk]) rfl
    · cases hs
  | finish w result processed_at =>
    simp only [step] at hs
    split at hs
    · next l task hw =>
      cases hs
      have hpk : (processed task processed_at result).1.pk = task.pk := by
        cases result <;> rfl
      by_cases hk : task.pk = k
      · exact .finishes w _ rfl (by simp [hw, Worker.on, hk]) rfl rfl
      · exact .leaves w _ rfl (by simp [Worker.on, hpk, hk]) rfl
    · cases hs
  | save w =>
    simp only [step] at hs
    split at hs
    · next l task hw =>
      cases hs
      by_cases hk : task.1.pk = k
      · refine .saves w _ rfl (by simp [hw, Worker.on, hk]) rfl ?_
        rintro ⟨row, hrow, _⟩
        rw [← hk] at hrow ⊢
        have hsaved := get?_saveTask_self hrow
        show ((saveTask s.tasks task.1).get? task.1.pk).any _ = true
        rw [hsaved]
        exact task.2
      · exact .leaves w _ rfl rfl (get?_saveTask_ne (Ne.symm hk))
    · cases hs
  | die w =>
    cases hs
    exact .leaves w _ rfl rfl rfl

/-! ## Once -/

/-- The workers, around task `k`. Its token is that the row is not pending any more. -/
def processing (k : ℕ) : Family State ℕ Worker where
  procs := State.workers
  active := Worker.on k
  ahead := Worker.ahead k
  held s := ∃ task, s.tasks.get? k = some task ∧ task.status ≠ .pending
  active_of_ahead := Worker.on_of_ahead

theorem held_of_running (h : RowIs k .running s) : (processing k).held s := by
  rcases h with ⟨task, htask, hstatus⟩
  refine ⟨task, htask, ?_⟩
  rw [hstatus]
  decide

theorem held_of_ended (h : Ended k s) : (processing k).held s := by
  rcases rowIs_of_ended h with ⟨status, hended, task, htask, rfl⟩
  refine ⟨task, htask, ?_⟩
  intro hpending
  rw [hpending] at hended
  cases hended

/-- A step that leaves the row alone keeps the token. -/
theorem held_of_row (hrow : s'.tasks.get? k = s.tasks.get? k) (h : (processing k).held s) :
    (processing k).held s' := by
  rcases h with ⟨task, htask, hstatus⟩
  exact ⟨task, hrow ▸ htask, hstatus⟩

theorem not_held_of_pending (h : RowIs k .pending s) : ¬(processing k).held s := by
  rintro ⟨task, htask, hstatus⟩
  have hpending : task.status = .pending := RowIs.status_eq ⟨task, htask, rfl⟩ h
  exact hstatus hpending

/-- Of a task that is being worked on the row is running, and only one worker is at it. -/
def Locked (s : State) : Prop := ∀ k, Owned (Worker.on k) (RowIs k .running s) s.workers

theorem locked_start : Locked (State.start tasks) := fun _ => Owned.of_idle fun _ => rfl

theorem step_locked (hi : Locked s) (hs : step s a = some s') : Locked s' := by
  intro k
  have ho := hi k
  obtain ⟨_, _, heff⟩ : ∃ m n, TaskEffect k s s' m n := ⟨_, _, step_effect hs⟩
  cases heff with
  | rests hworkers hrow =>
    rw [hworkers]
    refine ho.mono ?_
    rintro ⟨task, htask, hstatus⟩
    exact ⟨task, hrow task htask, hstatus⟩
  | leaves w y hworkers hoff hrow =>
    rw [hworkers]
    exact (ho.update_of_idle hoff).mono (RowIs.of_row hrow)
  | claims w y hworkers hpending hrunning =>
    rw [hworkers]
    refine ho.acquire ?_ hrunning
    intro hbefore
    cases hpending.status_eq hbefore
  | executes w y hworkers hahead _ hrow =>
    rw [hworkers]
    exact ho.keep (Worker.on_of_ahead _ hahead) (RowIs.of_row hrow)
  | finishes w y hworkers hon _ hrow =>
    rw [hworkers]
    exact ho.keep hon (RowIs.of_row hrow)
  | saves w y hworkers hon hoff =>
    rw [hworkers]
    exact Owned.of_idle (ho.release hon hoff)

theorem step_once (hi : Locked s) (hs : step s a = some s') :
    OnceStep (processing k) s s' (claims k s a) (executes k s a) := by
  have heff : TaskEffect k s s' (claims k s a) (executes k s a) := step_effect hs
  generalize claims k s a = claimed, executes k s a = executed at heff ⊢
  cases heff with
  | rests hworkers hrow =>
    refine .rests hworkers ?_ rfl rfl
    rintro ⟨task, htask, hstatus⟩
    exact ⟨task, hrow task htask, hstatus⟩
  | leaves w y hworkers hoff hrow =>
    exact .stops w y hworkers hoff (held_of_row hrow) rfl rfl
  | claims w y hworkers hpending hrunning =>
    have hfree := not_held_of_pending hpending
    exact .takes w y hworkers hfree (held_of_running hrunning) le_rfl rfl
  | executes w y hworkers hahead hover hrow =>
    exact .fires w y hworkers hahead (held_of_row hrow) hover rfl le_rfl
  | finishes w y hworkers hon hover hrow =>
    refine .goes w y hworkers hon (held_of_row hrow) ?_ rfl rfl
    intro hy
    have hover : (processing k).ahead y = false := hover
    rw [hover] at hy
    cases hy
  | saves w y hworkers hon hoff hended =>
    -- the worker is at the task, so its row is running
    have hrunning := (hi k).holds w hon
    exact .stops w y hworkers hoff (fun _ => held_of_ended (hended hrunning)) rfl rfl

/-! ## Ended tasks -/

/-- Nobody works on an ended task. -/
theorem off_of_ended (hi : Locked s) (hended : Ended k s) (w : ℕ) :
    (s.workers w).on k = false := by
  apply (hi k).idle
  intro hrunning
  cases hended.of_rowIs hrunning

theorem keeps_ended (hi : Locked s) : scheduler.Keeps Ended s a := by
  intro k hended s' hs
  obtain ⟨_, _, heff⟩ : ∃ m n, TaskEffect k s s' m n := ⟨_, _, step_effect hs⟩
  rcases (Option.any_eq_true _ _).mp hended with ⟨task, htask, hstatus⟩
  cases heff with
  | rests _ hrow => exact (Option.any_eq_true _ _).mpr ⟨task, hrow task htask, hstatus⟩
  | leaves _ _ _ _ hrow => simpa [Ended, hrow] using hended
  | claims _ _ _ hpending => cases hended.of_rowIs hpending
  | executes _ _ _ _ _ hrow => simpa [Ended, hrow] using hended
  | finishes _ _ _ _ _ hrow => simpa [Ended, hrow] using hended
  | saves w _ _ hon =>
    rw [off_of_ended hi hended w] at hon
    cases hon

theorem unclaimed_of_ended (hi : Locked s) (hended : Ended k s) (hs : step s a = some s') :
    claims k s a = 0 ∧ executes k s a = 0 := by
  have heff : TaskEffect k s s' (claims k s a) (executes k s a) := step_effect hs
  generalize claims k s a = claimed, executes k s a = executed at heff ⊢
  cases heff with
  | claims _ _ _ hpending => cases hended.of_rowIs hpending
  | executes w _ _ hahead =>
    have hon := Worker.on_of_ahead _ hahead
    rw [off_of_ended hi hended w] at hon
    cases hon
  | _ => exact ⟨rfl, rfl⟩

/-- The row is ended when its worker is through with it. -/
theorem ended_of_saves (hi : Locked s) (hsaves : Saves k s a) (hs : step s a = some s') :
    Ended k s' := by
  rcases hsaves with ⟨w, l, task, rfl, hw, hk⟩
  have hon : (s.workers w).on k = true := by simp [hw, Worker.on, hk]
  rcases (hi k).holds w hon with ⟨row, hrow, _⟩
  simp only [step, hw, Option.some.injEq] at hs
  subst hs
  rw [← hk] at hrow ⊢
  have hsaved := get?_saveTask_self hrow
  refine (Option.any_eq_true _ _).mpr ⟨_, hsaved, ?_⟩
  exact task.2

theorem step_leavesEnded (hi : Locked s) (hs : step s a = some s') : LeavesEnded s a where
  saved _ hsaves _ hs := ended_of_saves hi hsaves hs
  kept := keeps_ended hi
  unclaimed _ hended := unclaimed_of_ended hi hended hs

/-- A task is claimed and executed at most once, and is ended for good when its worker is through
with it. -/
theorem executed_once (hrun : scheduler.Run (State.start tasks) as t) :
    (∀ k, scheduler.total (claims k) (State.start tasks) as ≤ 1 ∧
      scheduler.total (executes k) (State.start tasks) as ≤ 1) ∧
      scheduler.RunIf LeavesEnded (State.start tasks) as t := by
  have hsteps : ∀ s a s', True → Locked s → scheduler.next s a = some s' →
      Locked s' ∧ LeavesEnded s a := by
    intro s a s' _ hi hs
    exact ⟨step_locked hi hs, step_leavesEnded hi hs⟩
  have hlocked := hrun.forall_steps hsteps locked_start
  refine ⟨?_, hlocked.mono fun _ _ h => h.2.2⟩
  intro k
  have honce : ∀ s a s', (True ∧ Locked s ∧ LeavesEnded s a) → scheduler.next s a = some s' →
      OnceStep (processing k) s s' (claims k s a) (executes k s a) := by
    intro s a s' hi hs
    exact step_once hi.2.1 hs
  have hidle : Owned (processing k).active ((processing k).held (State.start tasks))
      ((processing k).procs (State.start tasks)) := Owned.of_idle fun _ => rfl
  exact ⟨takes_once honce hlocked, fires_once honce hidle hlocked⟩

end Steps

/-! ## A concrete run -/

/-- Two tasks that are due at 10. -/
def dueTasks : Table ScheduledTask where
  rows := [newTask 8 1, newTask 5 2]
  nodup := by decide

/-- Two workers list both tasks. Worker 0 claims task 2, whose workflow raises; worker 1 finds it
claimed and goes on with task 1. -/
def race : List Action :=
  [.start 0 10 100, .start 1 10 100, .claim 0 true, .claim 1 true, .execute 0,
    .finish 0 (.raises "Workflow is paused.") "2026-01-01T00:00:10", .claim 1 true, .save 0,
    .execute 1, .finish 1 (.returns 4 .completed (.dict [])) "2026-01-01T00:00:11", .save 1,
    .claim 0 true, .claim 0 true, .claim 1 true]

theorem executed_once_race :
    ∃ t, scheduler.Run (State.start dueTasks) race t ∧
      (∀ k, scheduler.total (claims k) (State.start dueTasks) race ≤ 1 ∧
        scheduler.total (executes k) (State.start dueTasks) race ≤ 1) ∧
      scheduler.RunIf LeavesEnded (State.start dueTasks) race t := by
  have hexec : (scheduler.exec (State.start dueTasks) race).isSome = true := by decide +kernel
  obtain ⟨t, hrun⟩ := Machine.exists_run hexec
  exact ⟨t, hrun, executed_once hrun⟩

/-- Each task is executed. -/
example : [1, 2].map (fun k => scheduler.total (executes k) (State.start dueTasks) race) = [1, 1] ∧
    ((scheduler.exec (State.start dueTasks) race).map fun t => [1, 2].map fun k =>
      (t.tasks.get? k).map ScheduledTask.status) = some [some .completed, some .failed] := by
  decide +kernel

end AlgoBot.Automation
