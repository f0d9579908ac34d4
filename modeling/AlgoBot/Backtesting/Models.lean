import AlgoBot.Core.Machine
import AlgoBot.Python.Value

/-!
# One backtest, its queue entry and its results

The rows `execute_backtest`, `reconcile_backtest_queue` and the views keep of one
backtest. The worker and the queue reconciliation lock the row and decide on what
they then read; the views save a row they have read without a lock. So the state
counts the saves of the row, and a copy in memory remembers the count it was read
at.

`stored` and `persisted` are histories: the parameters that were stored under
each version, and the results that were recorded, with the version they were
recorded under and the parameters they were computed from.
-/

namespace AlgoBot.Backtesting

open AlgoBot.Core AlgoBot.Python

/-- `STATUS` of a backtest and of its queue entry. -/
inductive Status where
  | pending
  | running
  | completed
  | failed
  | cancelled
deriving DecidableEq, Repr

/-- Completed or cancelled. -/
def Status.final (status : Status) : Bool := status == .completed || status == .cancelled

/-- The columns a worker computes a result from. Dates are microseconds since the epoch. -/
structure Params where
  strategy : String
  symbol : String
  timeframe : String
  start_date : ℤ
  end_date : ℤ
  mode : String
deriving DecidableEq, Repr

structure Backtest where
  params : Params
  status : Status
  result_snapshot : Dict
  result_version : ℕ

/-- A row of `BacktestClusterJob`. -/
structure ClusterJob where
  status : Status
  scheduled_at : ℕ
  locked_at : Option ℕ

/-- A result as it was recorded. -/
structure Persisted where
  version : ℕ
  params : Params
  result : Dict

/-- What the deployment decides. -/
structure Settings where
  /-- `USE_CELERY` is on and the task has `apply_async`. -/
  celery : Bool
  isoformat : ℤ → String

structure Shared where
  backtest : Backtest
  job : Option ClusterJob
  /-- The `BacktestTrade` and `BacktestStatistics` rows. -/
  results : Option Dict
  /-- Backtests `reconcile_backtest_queue` has picked and not published yet. -/
  recovered : ℕ
  writes : ℕ
  stored : List (ℕ × Params)
  persisted : List Persisted

namespace Shared

/-- `backtest.save(...)`. -/
def save (s : Shared) (backtest : Backtest) : Shared :=
  { s with backtest := backtest, writes := s.writes + 1 }

/-- A save that gives the backtest a version. -/
def store (s : Shared) (backtest : Backtest) : Shared :=
  { s.save backtest with stored := (backtest.result_version, backtest.params) :: s.stored }

/-- `BacktestClusterJob.objects.filter(backtest=...).update(...)`. -/
def updateJob (s : Shared) (f : ClusterJob → ClusterJob) : Shared := { s with job := s.job.map f }

/-- `status="failed"`, with the reason in the snapshot, and the queue entry closed. -/
def fail (s : Shared) (snapshot : Dict) : Shared :=
  (s.save { s.backtest with status := .failed, result_snapshot := snapshot }).updateJob fun j =>
    { j with status := .failed, locked_at := none }

end Shared

/-! ## Snapshots -/

section Snapshots

variable (S : Settings) (p : Params)

def dates : Dict :=
  [("start_date", .str (S.isoformat p.start_date)), ("end_date", .str (S.isoformat p.end_date))]

def workerUnavailable : Dict :=
  [("status", .str "failed"), ("code", .str "BACKTEST_WORKER_UNAVAILABLE"),
    ("error", .str ("Backtest worker is not configured. " ++
      "Start the Celery worker before running historical tests."))] ++ dates S p

/-- `detail` is the exception of `apply_async` as text. -/
def queueUnavailable (detail : String) : Dict :=
  [("status", .str "failed"), ("code", .str "BACKTEST_QUEUE_UNAVAILABLE"),
    ("error", .str detail)] ++ dates S p

def strategyNotFound : Dict :=
  [("status", .str "failed"), ("code", .str "STRATEGY_NOT_FOUND"),
    ("error", .str "Strategy no longer exists in the strategy catalog.")] ++ dates S p

def executionFailed : Dict :=
  [("status", .str "failed"), ("code", .str "BACKTEST_EXECUTION_FAILED"),
    ("error", .str ("AlgoBot could not complete this backtest. " ++
      "The failure has been recorded for investigation.")),
    ("user_message", .str ("This backtest did not finish successfully. " ++
      "Your account and strategy settings were not changed.")),
    ("failure_source", .str "backtest_worker"),
    ("suggested_action", .str ("Try again once. If it fails again, open Mission Control " ++
      "and share the failure time with an administrator."))] ++ dates S p

def workerTimeout : Dict :=
  [("status", .str "failed"), ("code", .str "BACKTEST_WORKER_TIMEOUT"),
    ("error",
      .str "The backtest worker stopped reporting progress before the run completed."),
    ("user_message", .str "This historical test did not finish. You can retry it safely."),
    ("failure_source", .str "worker_timeout")] ++ dates S p

def completedSnapshot (strategy : String) (result : Dict) : Dict :=
  [("status", .str "completed")] ++ dates S p ++
    [("strategy", .str strategy), ("symbol", .str p.symbol), ("timeframe", .str p.timeframe),
      ("result", .dict result)]

def recoveryFailed : Dict :=
  [("status", .str "failed"), ("code", .str "BACKTEST_QUEUE_UNAVAILABLE"),
    ("user_message", .str ("The historical test could not be queued. " ++
      "Please retry when the worker is available.")),
    ("failure_source", .str "queue_recovery")]

/-- `{**(snapshot or {}), 'status': 'cancelled', 'error': 'Cancelled by user.'}`. -/
def cancelledSnapshot (snapshot : Dict) : Dict :=
  snapshot.merge [("status", .str "cancelled"), ("error", .str "Cancelled by user.")]

end Snapshots

/-! ## Views -/

/-- The backtest as a view has it in memory, and the number of saves when it was read. -/
structure Copy where
  backtest : Backtest
  seen : ℕ

/-- What a request does next. -/
inductive Request where
  | idle
  /-- `update` has read and validated; `perform_update` reads the row once more. -/
  | editing (copy : Copy) (start_date end_date : ℤ)
  | updating (copy : Copy) (start_date end_date : ℤ) (result_version : ℕ)
  | cancelling (copy : Copy)
  | cancelJob
  | retrying (copy : Copy)
  | queueJob (copy : Copy)
  | queueSave (copy : Copy)
  | publishing (copy : Copy)
  | failing (copy : Copy) (snapshot : Dict)
  | failJob

/-- A request that comes in, or the next step of one. -/
inductive RequestStep where
  | edit (start_date end_date : Option ℤ) (now : ℤ)
  | cancel
  | retry
  | queue (now : ℕ)
  | publish (error : Option String)
  | go

/-- `update` up to `perform_update`. A request that names another column is rejected. -/
def editRead (s : Shared) (start_date end_date : Option ℤ) (now : ℤ) :
    Option (Request × Shared) :=
  let start := start_date.getD s.backtest.params.start_date
  let stop := end_date.getD s.backtest.params.end_date
  if s.backtest.status ≠ .pending then none
  else if stop ≤ start then none
  else if now < stop then none
  else some (.editing ⟨s.backtest, s.writes⟩ start stop, s)

/-- The row `serializer.save` writes: every column of the copy, with the validated ones replaced. -/
def edited (backtest : Backtest) (start_date end_date : ℤ) (result_version : ℕ) : Backtest where
  params := { backtest.params with start_date := start_date, end_date := end_date }
  status := .pending
  result_snapshot := []
  result_version := result_version + 1

/-- The row `retry` leaves: only these three columns are saved. -/
def retried (backtest : Backtest) (result_version : ℕ) : Backtest :=
  { backtest with
    status := .pending
    result_snapshot := []
    result_version := result_version + 1 }

/-- One step of `update`, `cancel`, `retry` or `_queue`. -/
def requestStep (S : Settings) (s : Shared) : Request → RequestStep → Option (Request × Shared)
  | .idle, .edit start_date end_date now => editRead s start_date end_date now
  | .editing c start stop, .go =>
      some (.updating c start stop s.backtest.result_version, s)
  | .updating c start stop version, .go =>
      let row := edited c.backtest start stop version
      some (.queueJob ⟨row, s.writes + 1⟩, { s.store row with results := none })
  | .idle, .cancel =>
      if s.backtest.status = .pending ∨ s.backtest.status = .running then
        some (.cancelling ⟨s.backtest, s.writes⟩, s)
      else none
  | .cancelling c, .go =>
      some (.cancelJob, s.save { s.backtest with
        status := .cancelled
        result_snapshot := cancelledSnapshot c.backtest.result_snapshot })
  | .cancelJob, .go =>
      some (.idle, s.updateJob fun j =>
        if j.status = .pending ∨ j.status = .running then
          { j with status := .cancelled, locked_at := none }
        else j)
  | .idle, .retry =>
      if s.backtest.status = .failed ∨ s.backtest.status = .cancelled then
        some (.retrying ⟨s.backtest, s.writes⟩, s)
      else none
  | .retrying c, .go =>
      let version := c.backtest.result_version
      some (.queueJob ⟨retried c.backtest version, s.writes + 1⟩,
        s.store (retried s.backtest version))
  | .queueJob c, .queue now =>
      some (if S.celery then .queueSave c else .failing c (workerUnavailable S c.backtest.params),
        { s with job := some ⟨.pending, now, none⟩ })
  | .queueSave c, .go =>
      some (.publishing ⟨{ c.backtest with status := .pending }, s.writes + 1⟩,
        s.save { s.backtest with status := .pending })
  | .publishing _, .publish none => some (.idle, s)
  | .publishing c, .publish (some detail) =>
      some (.failing c (queueUnavailable S c.backtest.params detail), s)
  | .failing _ snapshot, .go =>
      some (.failJob, s.save { s.backtest with status := .failed, result_snapshot := snapshot })
  | .failJob, .go =>
      some (.idle, s.updateJob fun j => { j with status := .failed, locked_at := none })
  | _, _ => none

/-! ## `execute_backtest` -/

/-- What a worker does next, with the row as it claimed it. -/
inductive Worker where
  | idle
  | claimed (backtest : Backtest)
  | missing (backtest : Backtest)
  | computing (backtest : Backtest) (strategy : String)
  | computed (backtest : Backtest) (strategy : String) (result : Dict)
  | raised (backtest : Backtest)

/-- The row a worker has claimed. -/
def Worker.claim : Worker → Option Backtest
  | .idle => none
  | .claimed b | .missing b | .computing b _ | .computed b _ _ | .raised b => some b

/-- The next step of a worker: how the lookup or the computation ends, or the last transaction,
which may raise. -/
inductive WorkStep where
  | claim (now : ℕ)
  | lookup (strategy : Option String)
  | compute (result : Option Dict)
  | commit (trade_count : ℕ)
  | abort

/-- `current.status == 'running' and current.result_version == claimed_version`. -/
def Shared.holds (s : Shared) (b : Backtest) : Bool :=
  s.backtest.status == .running && s.backtest.result_version == b.result_version

/-- The transaction that records a result; the row is written from its own columns. -/
def Shared.complete (S : Settings) (s : Shared) (b : Backtest) (strategy : String) (result : Dict)
    (trade_count : ℕ) : Shared :=
  -- the statistics are saved before the number of trade rows is added
  let counted := result.insert "persisted_trade_count" (.int trade_count)
  let s' := (s.save { s.backtest with
      status := .completed
      result_snapshot := completedSnapshot S s.backtest.params strategy counted }).updateJob
    fun j => { j with status := .completed, locked_at := none }
  { s' with
    results := some result
    persisted := ⟨s.backtest.result_version, b.params, result⟩ :: s.persisted }

/-- One step of `execute_backtest`. -/
def workStep (S : Settings) (s : Shared) : Worker → WorkStep → Option (Worker × Shared)
  | .idle, .claim now =>
      if s.backtest.status = .pending then
        let row := { s.backtest with status := .running }
        some (.claimed row,
          (s.save row).updateJob fun j => { j with status := .running, locked_at := some now })
      else none
  | .claimed b, .lookup none => some (.missing b, s)
  | .claimed b, .lookup (some strategy) => some (.computing b strategy, s)
  | .missing b, .commit _ =>
      some (.idle, if s.holds b then s.fail (strategyNotFound S s.backtest.params) else s)
  | .computing b strategy, .compute (some result) => some (.computed b strategy result, s)
  | .computing b _, .compute none => some (.raised b, s)
  | .computed b strategy result, .commit trade_count =>
      -- a cancel, retry or edit that has won the race makes the result stale
      some (.idle, if s.holds b then s.complete S b strategy result trade_count else s)
  | .computed b _ _, .abort => some (.raised b, s)
  | .raised b, .commit _ =>
      some (.idle, if s.holds b then s.fail (executionFailed S s.backtest.params) else s)
  | _, _ => none

/-! ## `reconcile_backtest_queue` -/

/-- The part about entries whose worker has stopped. -/
def reconcileRunning (S : Settings) (s : Shared) (now running_after : ℕ) : Shared :=
  match s.job with
  | some j =>
      if j.status = .running ∧ j.locked_at.any (fun at_ => at_ + max 300 running_after ≤ now) then
        if s.backtest.status = .running then s.fail (workerTimeout S s.backtest.params)
        else { s with job := some { j with status := s.backtest.status, locked_at := none } }
      else s
  | none => s

/-- The part about entries whose message is lost. -/
def reconcilePending (s : Shared) (now pending_after : ℕ) : Shared :=
  match s.job with
  | some j =>
      if j.status = .pending ∧ j.scheduled_at + max 60 pending_after ≤ now ∧
          s.backtest.status = .pending then
        { s with job := some { j with scheduled_at := now }, recovered := s.recovered + 1 }
      else s
  | none => s

/-- A message that cannot be published again. -/
def republishFails (s : Shared) : Shared :=
  if s.backtest.status = .pending then s.fail recoveryFailed else s

/-! ## The machine -/

structure State where
  shared : Shared
  requests : ℕ → Request
  workers : ℕ → Worker

/-- The last two arguments of `reconcile` tell whether the entry is among the first `limit` ones
of each query. -/
inductive Action where
  | request (i : ℕ) (r : RequestStep)
  | work (j : ℕ) (w : WorkStep)
  | reconcile (now pending_after running_after : ℕ) (running pending : Bool)
  | republish (published : Bool)

def step (S : Settings) (t : State) : Action → Option State
  | .request i r =>
      (requestStep S t.shared (t.requests i) r).map fun x =>
        { t with requests := Function.update t.requests i x.1, shared := x.2 }
  | .work j w =>
      (workStep S t.shared (t.workers j) w).map fun x =>
        { t with workers := Function.update t.workers j x.1, shared := x.2 }
  | .reconcile now pending_after running_after running pending =>
      let s := if running then reconcileRunning S t.shared now running_after else t.shared
      some { t with shared := if pending then reconcilePending s now pending_after else s }
  | .republish published =>
      if t.shared.recovered = 0 then none
      else
        let s := { t.shared with recovered := t.shared.recovered - 1 }
        some { t with shared := if published then s else republishFails s }

/-- The actors on one backtest. -/
def lab (S : Settings) : Machine State Action := ⟨step S⟩

/-- `perform_create` has saved the row; its request 0 is about to queue it. -/
def State.start (p : Params) : State where
  shared :=
    { backtest := ⟨p, .pending, [], 1⟩
      job := none
      results := none
      recovered := 0
      writes := 1
      stored := [(1, p)]
      persisted := [] }
  requests i := if i = 0 then .queueJob ⟨⟨p, .pending, [], 1⟩, 1⟩ else .idle
  workers _ := .idle

end AlgoBot.Backtesting
