import AlgoBot.Core.Cache
import AlgoBot.Core.Lock
import AlgoBot.Python.Value

/-!
# The dispatch endpoint of the scheduled tasks

`cloudflare_task_dispatch` gets each scheduled run of a task as a request that may be
delivered again. It reserves the slot of the run in the cache, publishes the task, and
writes the id of the published task to the slot; where it fails after the reservation, it
deletes the slot.

A request takes one step for each access to the cache and for the publication, and time
may pass between any two steps.

* `dispatch_slot`: a slot publishes at most once, a request that fails leaves the slot
  free, a slot nobody works on and nothing was published for is free, and a free slot
  publishes for the next valid request.
-/

namespace AlgoBot.Dispatch

open AlgoBot.Core AlgoBot.Python

/-! ## The request -/

/-- What `json.loads` can raise. -/
inductive LoadError where
  | TypeError
  | ValueError
  | UnicodeDecodeError
  | RecursionError
deriving DecidableEq, Repr

/-- What leaves the view as an exception. -/
inductive Raised where
  | TypeError
  | OverflowError
  | RecursionError
deriving DecidableEq, Repr

/-- The token of the environment, the JSON codec and the digest. -/
structure Env where
  token : String
  loads : List UInt8 → Except LoadError Value
  sha256 : String → String

structure Request where
  authorization : String
  body : List UInt8

/-- A `JsonResponse`: its status code and its members. -/
structure Response where
  code : ℕ
  members : Dict

/-- A response that only says what went wrong. -/
def refuse (status : String) (code : ℕ) : Response := ⟨code, [("status", .str status)]⟩

def ALLOWED_TASKS : List (String × List String) :=
  [("apps.automation.tasks.process_due_scheduled_tasks", ["limit"]),
   ("apps.backtesting.tasks.reconcile_backtest_queue",
     ["limit", "pending_after_seconds", "running_after_seconds"]),
   ("apps.execution.process_execution_queue", ["batch_size"]),
   ("apps.ai_engine.tasks.check_ai_data_health", ["timeframe"]),
   ("apps.ai_engine.tasks.check_model_degradation", []),
   ("apps.ai_engine.tasks.scheduled_ai_training", ["timeframe", "min_accuracy"]),
   ("apps.ai_engine.tasks.ingest_market_sentiment", []),
   ("apps.ai_engine.tasks.ingest_orderbook_depth", []),
   ("apps.ai_engine.tasks.resolve_prediction_outcomes",
     ["timeframe", "horizon_candles", "batch_size"]),
   ("apps.notifications.tasks.telegram_watchdog", []),
   ("apps.notifications.tasks.recover_stuck_notifications", [])]

def ALLOWED_SCHEDULES : List (String × String) :=
  [("automation-due-schedules-every-30-seconds",
     "apps.automation.tasks.process_due_scheduled_tasks"),
   ("backtest-queue-recovery-every-minute", "apps.backtesting.tasks.reconcile_backtest_queue"),
   ("execution-queue-recovery-every-30-seconds", "apps.execution.process_execution_queue"),
   ("ai-data-health-every-15-minutes", "apps.ai_engine.tasks.check_ai_data_health"),
   ("ai-model-degradation-every-15-minutes", "apps.ai_engine.tasks.check_model_degradation"),
   ("ai-training-every-6-hours", "apps.ai_engine.tasks.scheduled_ai_training"),
   ("ai-training-daily", "apps.ai_engine.tasks.scheduled_ai_training"),
   ("ai-sentiment-every-15-minutes", "apps.ai_engine.tasks.ingest_market_sentiment"),
   ("ai-orderbook-every-minute", "apps.ai_engine.tasks.ingest_orderbook_depth"),
   ("ai-resolve-predictions-every-5-minutes",
     "apps.ai_engine.tasks.resolve_prediction_outcomes"),
   ("telegram-watchdog-every-minute", "apps.notifications.tasks.telegram_watchdog"),
   ("telegram-recover-stuck-every-5-minutes",
     "apps.notifications.tasks.recover_stuck_notifications")]

def ALLOWED_TIMEFRAMES : List String :=
  ["M1", "M2", "M5", "M10", "M15", "M30", "H1", "H4", "D1",
   "1m", "2m", "5m", "10m", "15m", "30m", "1h", "4h", "1d"]

def IDEMPOTENCY_TTL_SECONDS : ℕ := 86400

def MAX_TASK_DISPATCH_BODY_BYTES : ℕ := 4096

/-! ## Its arguments -/

/-- An integer, not a `bool`, within the bounds. -/
def intWithin (lo hi : ℤ) : Value → Bool
  | .int n => lo ≤ n && n ≤ hi
  | _ => false

/-- A text among the timeframes. -/
def isTimeframe : Value → Bool
  | .str s => ALLOWED_TIMEFRAMES.contains s
  | _ => false

/-- The least integer that `float()` has no room for. -/
def floatLimit : ℤ := 2 ^ 1024 - 2 ^ 970

/-- A number, not a `bool`, within zero and one as a float. -/
def isFraction : Value → Except Raised Bool
  | .int n => if floatLimit ≤ |n| then .error .OverflowError else .ok (0 ≤ n && n ≤ 1)
  | .float r _ =>
    match (Dec.ofChars r.toList).bind Dec.toRat with
    | some q => .ok (0 ≤ q && q ≤ 1)
    -- a NaN and the infinities
    | none => .ok false
  | _ => .ok false

/-- `key in clean and ...`: a member that is there has to pass its check. -/
def passes (check : Value → Bool) (clean : Dict) (key : String) : Bool :=
  match clean.lookup key with
  | some v => check v
  | none => true

/-- `_validate_kwargs`; `none` for arguments that are refused. -/
def validateKwargs (task_name : String) (kwargs : Value) : Except Raised (Option Dict) :=
  match kwargs with
  | .dict clean =>
    let allowed := (ALLOWED_TASKS.lookup task_name).getD []
    if clean.any fun kv => !allowed.contains kv.1 then .ok none
    else if !passes (intWithin 1 100) clean "limit" then .ok none
    else if !passes (intWithin 1 500) clean "batch_size" then .ok none
    else if !passes (intWithin 1 100) clean "horizon_candles" then .ok none
    else if !passes (intWithin 60 86400) clean "pending_after_seconds" then .ok none
    else if !passes (intWithin 300 86400) clean "running_after_seconds" then .ok none
    else if !passes isTimeframe clean "timeframe" then .ok none
    else
      match clean.lookup "min_accuracy" with
      | some v => (isFraction v).map fun ok => if ok then some clean else none
      | none => .ok (some clean)
  | _ => .ok none

/-- What is published for one run of a schedule is identified by its slot. -/
structure Slot where
  schedule_id : String
  task_name : String
  scheduled_minute : ℤ
deriving DecidableEq, Repr

/-- What the view goes on with after the checks. -/
structure Task where
  slot : Slot
  kwargs : Dict
  expires : Value

/-- `expires`, if there is one, is an integer within the bounds. -/
def Task.expiresOk (d : Task) : Bool :=
  match d.expires with
  | .none => true
  | v => intWithin 1 300 v

/-- The checks that lead up to the reservation. -/
inductive Checked where
  | raised (e : Raised)
  | refused (r : Response)
  | accepted (d : Task)

def isAscii (s : String) : Bool := s.toList.all fun c => c.val < 128

/-- `hmac.compare_digest` on two texts. -/
def compareDigest (a b : String) : Except Raised Bool :=
  if isAscii a && isAscii b then .ok (a == b) else .error .TypeError

/-- `not expected or not hmac.compare_digest(...)`. -/
def unauthorized (env : Env) (request : Request) : Except Raised Bool :=
  if env.token = "" then .ok true
  else (compareDigest request.authorization ("Bearer " ++ env.token)).map (!·)

/-- The slot that the members of the payload name. -/
def slotOf (payload : Dict) : Option Slot :=
  match payload.get "schedule_id", payload.get "task", payload.get "scheduled_minute" with
  | .str schedule_id, .str task_name, .int scheduled_minute =>
    if schedule_id = "" ∨ 100 < schedule_id.length ∨ (ALLOWED_TASKS.lookup task_name).isNone ∨
        ALLOWED_SCHEDULES.lookup schedule_id ≠ some task_name ∨ scheduled_minute < 0
    then none
    else some ⟨schedule_id, task_name, scheduled_minute⟩
  | _, _, _ => none

/-- The part of the view before the slot is reserved. -/
def check (env : Env) (request : Request) : Checked :=
  match unauthorized env request with
  | .error e => .raised e
  | .ok true => .refused (refuse "unauthorized" 401)
  | .ok false =>
    if MAX_TASK_DISPATCH_BODY_BYTES < request.body.length then
      .refused (refuse "payload_too_large" 413)
    else
      match env.loads (if request.body = [] then "{}".toUTF8.toList else request.body) with
      | .error .RecursionError => .raised .RecursionError
      | .error _ => .refused (refuse "invalid_json" 400)
      | .ok (.dict payload) =>
        match slotOf payload with
        | none => .refused (refuse "invalid_payload" 400)
        | some slot =>
          match validateKwargs slot.task_name (Dict.getD payload "kwargs" (.dict [])) with
          | .error e => .raised e
          | .ok none => .refused (refuse "invalid_kwargs" 400)
          | .ok (some kwargs) => .accepted ⟨slot, kwargs, Dict.get payload "expires"⟩
      | .ok _ => .refused (refuse "invalid_payload" 400)

/-- The cache key of a slot. -/
def Env.idempotencyKey (env : Env) (slot : Slot) : String :=
  "cf-task-dispatch:" ++ env.sha256
    (slot.schedule_id ++ ":" ++ slot.task_name ++ ":" ++ toString slot.scheduled_minute)

def duplicate (slot : Slot) : Response :=
  ⟨202, [("status", .str "duplicate"), ("schedule_id", .str slot.schedule_id)]⟩

def queued (slot : Slot) (id : String) : Response :=
  ⟨202, [("status", .str "queued"), ("schedule_id", .str slot.schedule_id),
    ("task", .str slot.task_name), ("task_id", .str id)]⟩

/-! ## Requests as processes -/

/-- How a request ends. -/
inductive Outcome where
  | raised (e : Raised)
  | responded (r : Response)

/-- Where a request is. -/
inductive Pc where
  | idle
  /-- The checks are passed and `cache.add` is next. -/
  | checked (d : Task)
  /-- The slot is reserved and `send_task` is next. -/
  | sending (d : Task)
  /-- The slot is reserved and `cache.delete` is next, then the response. -/
  | releasing (d : Task) (r : Response)
  /-- The task is published under an id and `cache.set` is next. -/
  | published (d : Task) (id : String)
  | done (o : Outcome)

structure State where
  now : ℕ
  cache : Cache String String
  procs : ℕ → Pc

inductive Action where
  /-- A delivery of a request. -/
  | receive (i : ℕ) (request : Request)
  | reserve (i : ℕ)
  /-- `send_task` gives the id of the published task, or raises. -/
  | send (i : ℕ) (result : Option String)
  | release (i : ℕ)
  | settle (i : ℕ)
  | tick (seconds : ℕ)

def State.goTo (s : State) (i : ℕ) (pc : Pc) : State :=
  { s with procs := Function.update s.procs i pc }

variable (env : Env)

/-- What the checks lead to. -/
def Checked.next : Checked → Pc
  | .raised e => .done (.raised e)
  | .refused r => .done (.responded r)
  | .accepted d => .checked d

/-- Once the slot is reserved the expiry is looked at. -/
def Task.reserved (d : Task) : Pc :=
  if d.expiresOk then .sending d else .releasing d (refuse "invalid_expires" 400)

def step (s : State) : Action → Option State
  | .receive i request =>
    match s.procs i with
    | .idle => some (s.goTo i (check env request).next)
    | _ => none
  | .reserve i =>
    match s.procs i with
    | .checked d =>
      match s.cache.add s.now (env.idempotencyKey d.slot) "dispatching"
          IDEMPOTENCY_TTL_SECONDS with
      | some cache => some { s.goTo i d.reserved with cache := cache }
      | none => some (s.goTo i (.done (.responded (duplicate d.slot))))
    | _ => none
  | .send i result =>
    match s.procs i with
    | .sending d =>
      match result with
      | some id => some (s.goTo i (.published d id))
      | none => some (s.goTo i (.releasing d (refuse "dispatch_unavailable" 503)))
    | _ => none
  | .release i =>
    match s.procs i with
    | .releasing d r =>
      some { s.goTo i (.done (.responded r)) with
        cache := s.cache.delete (env.idempotencyKey d.slot) }
    | _ => none
  | .settle i =>
    match s.procs i with
    | .published d id =>
      some { s.goTo i (.done (.responded (queued d.slot id))) with
        cache := s.cache.set (env.idempotencyKey d.slot) (if id = "" then "queued" else id)
          (s.now + IDEMPOTENCY_TTL_SECONDS) }
    | _ => none
  | .tick seconds => some { s with now := s.now + seconds }

/-- `cloudflare_task_dispatch`, any number of requests at a time. -/
def dispatch : Machine State Action := ⟨step env⟩

/-- No request has come in yet. -/
def State.Start (s : State) : Prop := ∀ i, s.procs i = .idle

/-! ## What a slot sees -/

/-- The request has the slot reserved and has not ended its publication. -/
def Pc.holds (slot : Slot) : Pc → Bool
  | .sending d => env.idempotencyKey d.slot = env.idempotencyKey slot
  | .releasing d _ => env.idempotencyKey d.slot = env.idempotencyKey slot
  | _ => false

/-- The slot can be reserved. -/
def State.Free (s : State) (slot : Slot) : Prop :=
  s.cache.get s.now (env.idempotencyKey slot) = none

/-- The task of the slot is published by this step. -/
def publishes (slot : Slot) (s : State) : Action → ℕ
  | .send i (some _) =>
    match s.procs i with
    | .sending d => if env.idempotencyKey d.slot = env.idempotencyKey slot then 1 else 0
    | _ => 0
  | _ => 0

/-- The entry of the slot has not come to its time to live. -/
def WithinTtl (slot : Slot) (s : State) (_ : Action) : Prop :=
  s.cache.Fresh s.now (env.idempotencyKey slot)

instance (slot : Slot) (s : State) (a : Action) : Decidable (WithinTtl env slot s a) :=
  inferInstanceAs (Decidable (Cache.Fresh _ _ _))

/-- The response says that nothing was published, or there is none. -/
def Outcome.failed : Outcome → Bool
  | .raised _ => true
  | .responded r => 400 ≤ r.code

/-- Request `i` comes to its end by the step, and fails. -/
def Fails (s s' : State) (i : ℕ) : Prop :=
  ∃ o, s'.procs i = .done o ∧ o.failed = true ∧ s.procs i ≠ .done o

/-- Any request for the slot that passes the checks and has a good expiry is published when it
runs by itself, whatever id it gets. -/
def Publishable (s : State) (slot : Slot) : Prop :=
  ∀ i request d id, s.procs i = .idle → check env request = .accepted d → d.slot = slot →
    d.expiresOk = true →
    ∃ t, (dispatch env).Run s [.receive i request, .reserve i, .send i (some id), .settle i] t ∧
      t.procs i = .done (.responded (queued slot id)) ∧
      (dispatch env).total (publishes env slot) s
        [.receive i request, .reserve i, .send i (some id), .settle i] = 1

variable {env} {slot : Slot} {s s' t : State} {a : Action} {as : List Action}

/-! ## Steps -/

/-- What a step does. -/
inductive Steps (env : Env) (s : State) : Action → State → Prop where
  | receives (i : ℕ) (request : Request) (at_pc : s.procs i = .idle) :
      Steps env s (.receive i request) (s.goTo i (check env request).next)
  | reserves (i : ℕ) (d : Task) (at_pc : s.procs i = .checked d) (free : s.Free env d.slot) :
      Steps env s (.reserve i) { s.goTo i d.reserved with
        cache := s.cache.set (env.idempotencyKey d.slot) "dispatching"
          (s.now + IDEMPOTENCY_TTL_SECONDS) }
  | repeats (i : ℕ) (d : Task) (at_pc : s.procs i = .checked d) :
      Steps env s (.reserve i) (s.goTo i (.done (.responded (duplicate d.slot))))
  | sends (i : ℕ) (d : Task) (id : String) (at_pc : s.procs i = .sending d) :
      Steps env s (.send i (some id)) (s.goTo i (.published d id))
  | raises (i : ℕ) (d : Task) (at_pc : s.procs i = .sending d) :
      Steps env s (.send i none) (s.goTo i (.releasing d (refuse "dispatch_unavailable" 503)))
  | releases (i : ℕ) (d : Task) (r : Response) (at_pc : s.procs i = .releasing d r) :
      Steps env s (.release i) { s.goTo i (.done (.responded r)) with
        cache := s.cache.delete (env.idempotencyKey d.slot) }
  | settles (i : ℕ) (d : Task) (id value : String) (at_pc : s.procs i = .published d id) :
      Steps env s (.settle i) { s.goTo i (.done (.responded (queued d.slot id))) with
        cache := s.cache.set (env.idempotencyKey d.slot) value
          (s.now + IDEMPOTENCY_TTL_SECONDS) }
  | ticks (seconds : ℕ) : Steps env s (.tick seconds) { s with now := s.now + seconds }

theorem steps_of_step (hs : step env s a = some s') : Steps env s a s' := by
  cases a with
  | receive i request =>
    cases hpc : s.procs i <;> simp [step, hpc] at hs
    rw [← hs]
    exact Steps.receives i request hpc
  | reserve i =>
    cases hpc : s.procs i <;> simp only [step, hpc, reduceCtorEq] at hs
    case checked d =>
      split at hs
      · next cache hadd =>
        rcases Cache.add_eq_some.mp hadd with ⟨hfree, rfl⟩
        cases hs
        exact Steps.reserves i d hpc hfree
      · cases hs
        exact Steps.repeats i d hpc
  | send i result =>
    cases hpc : s.procs i <;> simp only [step, hpc, reduceCtorEq] at hs
    case sending d =>
      cases result with
      | some id =>
        cases hs
        exact Steps.sends i d id hpc
      | none =>
        cases hs
        exact Steps.raises i d hpc
  | release i =>
    cases hpc : s.procs i <;> simp only [step, hpc, reduceCtorEq] at hs
    case releasing d r =>
      cases hs
      exact Steps.releases i d r hpc
  | settle i =>
    cases hpc : s.procs i <;> simp only [step, hpc, reduceCtorEq] at hs
    case published d id =>
      cases hs
      exact Steps.settles i d id _ hpc
  | tick seconds =>
    cases hs
    exact Steps.ticks seconds

/-- The checks reserve nothing. -/
theorem holds_next (c : Checked) : Pc.holds env slot c.next = false := by
  cases c <;> rfl

theorem holds_reserved (d : Task) : Pc.holds env slot d.reserved =
    decide (env.idempotencyKey d.slot = env.idempotencyKey slot) := by
  unfold Task.reserved
  split <;> rfl

/-! ## The slot as a lock -/

/-- A slot, with the requests that have it reserved. -/
def lock (env : Env) (slot : Slot) : Lock State ℕ Pc where
  procs := State.procs
  holds := Pc.holds env slot
  locked s := s.cache (env.idempotencyKey slot) ≠ none

/-- While the entry of the slot lives, it is a lock: who reserves it finds it free, and only the
request that reserved it deletes it. -/
theorem lockStep (hg : WithinTtl env slot s a) (hs : step env s a = some s') :
    LockStep (lock env slot) s s' (publishes env slot s a) := by
  cases steps_of_step hs with
  | receives i request hpc =>
    exact .passes i _ rfl (holds_next _) id rfl
  | reserves i d hpc hfree =>
    by_cases hkey : env.idempotencyKey d.slot = env.idempotencyKey slot
    · refine .takes i _ rfl ?_ ?_ rfl
      · show ¬ s.cache (env.idempotencyKey slot) ≠ none
        have hget : s.cache.get s.now (env.idempotencyKey slot) = none := by
          rw [← hkey]
          exact hfree
        simpa using Cache.Fresh.eq_none hg hget
      · show (s.cache.set _ _ _) (env.idempotencyKey slot) ≠ none
        rw [hkey, Cache.set_self]
        simp
    · refine .passes i _ rfl ?_ ?_ rfl
      · show Pc.holds env slot d.reserved = false
        simp [holds_reserved, hkey]
      · show s.cache _ ≠ none → (s.cache.set _ _ _) (env.idempotencyKey slot) ≠ none
        rw [Cache.set_of_ne _ _ _ (Ne.symm hkey)]
        exact id
  | repeats i d hpc => exact .passes i _ rfl rfl id rfl
  | sends i d id' hpc =>
    by_cases hkey : env.idempotencyKey d.slot = env.idempotencyKey slot
    · refine .fires i _ rfl ?_ rfl id ?_
      · show Pc.holds env slot (s.procs i) = true
        simp [hpc, Pc.holds, hkey]
      · simp [publishes, hpc, hkey]
    · refine .passes i _ rfl rfl id ?_
      simp [publishes, hpc, hkey]
  | raises i d hpc =>
    by_cases hkey : env.idempotencyKey d.slot = env.idempotencyKey slot
    · refine .goes i _ rfl ?_ id rfl
      show Pc.holds env slot (s.procs i) = true
      simp [hpc, Pc.holds, hkey]
    · refine .passes i _ rfl ?_ id rfl
      show Pc.holds env slot (.releasing d (refuse "dispatch_unavailable" 503)) = false
      simp [Pc.holds, hkey]
  | releases i d r hpc =>
    by_cases hkey : env.idempotencyKey d.slot = env.idempotencyKey slot
    · refine .gives i _ rfl ?_ rfl rfl
      show Pc.holds env slot (s.procs i) = true
      simp [hpc, Pc.holds, hkey]
    · refine .passes i _ rfl rfl ?_ rfl
      show s.cache _ ≠ none → (s.cache.delete _) (env.idempotencyKey slot) ≠ none
      rw [Cache.delete_of_ne _ (Ne.symm hkey)]
      exact id
  | settles i d id' value hpc =>
    refine .passes i _ rfl rfl ?_ rfl
    intro hlocked
    show (s.cache.set _ _ _) (env.idempotencyKey slot) ≠ none
    by_cases hkey : env.idempotencyKey slot = env.idempotencyKey d.slot
    · rw [hkey, Cache.set_self]
      simp
    · rw [Cache.set_of_ne _ _ _ hkey]
      exact hlocked
  | ticks seconds => exact .rests rfl id rfl

theorem owned_of_start (hstart : s.Start) :
    Owned (Pc.holds env slot) ((lock env slot).locked s) s.procs := by
  apply Owned.of_idle
  intro i
  rw [hstart i]
  rfl

theorem publishes_once (hstart : s.Start)
    (hrun : (dispatch env).RunIf (WithinTtl env slot) s as t) :
    (dispatch env).total (publishes env slot) s as ≤ 1 := by
  apply lock_fires_once (L := lock env slot) _ (owned_of_start hstart) hrun
  intro s a s' hg hs
  exact lockStep hg hs

/-! ## Failing requests -/

/-- Only the request that moves can come to its end. -/
theorem eq_of_fails {i j : ℕ} {pc : Pc} (hprocs : s'.procs = Function.update s.procs j pc)
    (hfail : Fails s s' i) : i = j ∧ ∃ o, pc = .done o ∧ o.failed = true := by
  rcases hfail with ⟨o, hdone, hbad, hopen⟩
  rw [hprocs] at hdone
  by_cases hij : i = j
  · rw [hij, Function.update_self] at hdone
    exact ⟨hij, o, hdone, hbad⟩
  · rw [Function.update_of_ne hij] at hdone
    exact absurd hdone hopen

/-- A request that fails deletes the slot if it had it reserved, and else leaves it as it was. -/
theorem free_of_fails {i : ℕ} (hs : step env s a = some s') (hfail : Fails s s' i)
    (hslot : Pc.holds env slot (s.procs i) = true ∨ s.Free env slot) : s'.Free env slot := by
  cases steps_of_step hs with
  | receives j request hpc =>
    rcases eq_of_fails rfl hfail with ⟨rfl, _⟩
    rcases hslot with hholds | hfree
    · rw [hpc] at hholds
      cases hholds
    · exact hfree
  | reserves j d hpc =>
    -- what follows the reservation is no end
    rcases eq_of_fails rfl hfail with ⟨_, o, hpc', _⟩
    unfold Task.reserved at hpc'
    split at hpc' <;> cases hpc'
  | repeats j d =>
    rcases eq_of_fails rfl hfail with ⟨_, o, hpc', hbad⟩
    cases hpc'
    cases hbad
  | sends j d id =>
    rcases eq_of_fails rfl hfail with ⟨_, o, hpc', _⟩
    cases hpc'
  | raises j d =>
    rcases eq_of_fails rfl hfail with ⟨_, o, hpc', _⟩
    cases hpc'
  | releases j d r hpc =>
    rcases eq_of_fails rfl hfail with ⟨rfl, _⟩
    show (s.cache.delete _).get s.now _ = none
    by_cases hkey : env.idempotencyKey slot = env.idempotencyKey d.slot
    · rw [hkey]
      exact Cache.get_eq_none (Cache.delete_self _ _)
    · rw [Cache.get_congr _ (Cache.delete_of_ne _ hkey)]
      rcases hslot with hholds | hfree
      · rw [hpc] at hholds
        have heq : env.idempotencyKey d.slot = env.idempotencyKey slot := by
          simpa [Pc.holds] using hholds
        exact absurd heq.symm hkey
      · exact hfree
  | settles j d id value =>
    rcases eq_of_fails rfl hfail with ⟨_, o, hpc', hbad⟩
    cases hpc'
    cases hbad
  | ticks seconds =>
    rcases hfail with ⟨o, hdone, _, hopen⟩
    exact absurd hdone hopen

/-! ## A free slot is used -/

theorem procs_goTo (s : State) (i : ℕ) (pc : Pc) : (s.goTo i pc).procs i = pc := by
  simp [State.goTo]

theorem step_receive {i : ℕ} {request : Request} {d : Task} (hpc : s.procs i = .idle)
    (hcheck : check env request = .accepted d) :
    step env s (.receive i request) = some (s.goTo i (.checked d)) := by
  simp [step, hpc, hcheck, Checked.next]

theorem step_reserve {i : ℕ} {d : Task} (hpc : s.procs i = .checked d)
    (hfree : s.Free env d.slot) (hexpires : d.expiresOk = true) :
    ∃ s', step env s (.reserve i) = some s' ∧ s'.procs i = .sending d := by
  have hadd : s.cache.add s.now (env.idempotencyKey d.slot) "dispatching"
      IDEMPOTENCY_TTL_SECONDS = some (s.cache.set (env.idempotencyKey d.slot) "dispatching"
        (s.now + IDEMPOTENCY_TTL_SECONDS)) := Cache.add_eq_some.mpr ⟨hfree, rfl⟩
  simp [step, hpc, hadd, Task.reserved, hexpires, State.goTo]

theorem step_send {i : ℕ} {d : Task} {id : String} (hpc : s.procs i = .sending d) :
    step env s (.send i (some id)) = some (s.goTo i (.published d id)) := by
  simp [step, hpc]

theorem step_settle {i : ℕ} {d : Task} {id : String} (hpc : s.procs i = .published d id) :
    ∃ s', step env s (.settle i) = some s' ∧
      s'.procs i = .done (.responded (queued d.slot id)) := by
  simp [step, hpc, State.goTo]

/-- A valid request for a free slot reserves it, publishes and settles. -/
theorem publishable_of_free (hfree : s.Free env slot) : Publishable env s slot := by
  intro i request d id hidle hcheck hslot hexpires
  subst hslot
  have hreceive := step_receive hidle hcheck
  have hfree' : (s.goTo i (.checked d)).Free env d.slot := hfree
  rcases step_reserve (procs_goTo s i _) hfree' hexpires with ⟨s₂, hreserve, hsending⟩
  have hsend : step env s₂ (.send i (some id)) = some (s₂.goTo i (.published d id)) :=
    step_send hsending
  rcases step_settle (procs_goTo s₂ i _) with ⟨t, hsettle, hdone⟩
  refine ⟨t, .cons trivial hreceive (.cons trivial hreserve (.cons trivial hsend
    (.cons trivial hsettle (.nil t)))), hdone, ?_⟩
  have hcount : publishes env d.slot s₂ (.send i (some id)) = 1 := by
    simp [publishes, hsending]
  simp only [Machine.total, dispatch, hreceive, hreserve, hsend, hsettle, hcount]
  rfl

/-! ## Nothing is lost -/

/-- The slot is free or reserved, and nothing published for it has still to be written to it. -/
structure Unpublished (env : Env) (slot : Slot) (s : State) : Prop where
  accounted : s.Free env slot ∨ ∃ i, Pc.holds env slot (s.procs i) = true
  unsettled : ∀ i d id, s.procs i = .published d id →
    env.idempotencyKey d.slot ≠ env.idempotencyKey slot

theorem unpublished_of_start (hstart : s.Start) (hfree : s.Free env slot) :
    Unpublished env slot s := by
  constructor
  · exact .inl hfree
  · intro i d id hpc
    rw [hstart i] at hpc
    cases hpc

/-- A process that moves leaves the slot reserved if it did not hold it, or holds it now. -/
theorem exists_holds_update {i : ℕ} {pc : Pc} (h : ∃ j, Pc.holds env slot (s.procs j) = true)
    (hi : Pc.holds env slot (s.procs i) = false ∨ Pc.holds env slot pc = true) :
    ∃ j, Pc.holds env slot (Function.update s.procs i pc j) = true := by
  rcases h with ⟨j, hj⟩
  by_cases hji : j = i
  · subst hji
    rcases hi with hidle | hholds
    · rw [hidle] at hj
      cases hj
    · exact ⟨j, by rwa [Function.update_self]⟩
  · exact ⟨j, by rwa [Function.update_of_ne hji]⟩

theorem unsettled_update {i : ℕ} {pc : Pc} (h : Unpublished env slot s)
    (hpc : ∀ d id, pc = .published d id → env.idempotencyKey d.slot ≠ env.idempotencyKey slot) :
    ∀ j d id, Function.update s.procs i pc j = .published d id →
      env.idempotencyKey d.slot ≠ env.idempotencyKey slot := by
  intro j d id hj
  by_cases hji : j = i
  · rw [hji, Function.update_self] at hj
    exact hpc d id hj
  · rw [Function.update_of_ne hji] at hj
    exact h.unsettled j d id hj

theorem unpublished_step (h : Unpublished env slot s) (hs : step env s a = some s')
    (hzero : publishes env slot s a = 0) : Unpublished env slot s' := by
  -- a move that leaves the entry of the slot as it is
  have hmove : ∀ (i : ℕ) (pc : Pc) (cache : Cache String String),
      cache (env.idempotencyKey slot) = s.cache (env.idempotencyKey slot) →
      (Pc.holds env slot (s.procs i) = false ∨ Pc.holds env slot pc = true) →
      (∀ d id, pc = .published d id → env.idempotencyKey d.slot ≠ env.idempotencyKey slot) →
      Unpublished env slot { s.goTo i pc with cache := cache } := by
    intro i pc cache hcache hholds hpc
    constructor
    · rcases h.accounted with hfree | hheld
      · left
        show cache.get s.now _ = none
        rw [Cache.get_congr _ hcache]
        exact hfree
      · exact .inr (exists_holds_update hheld hholds)
    · exact unsettled_update h hpc
  cases steps_of_step hs with
  | receives i request hpc =>
    refine hmove i _ s.cache rfl (.inl (by simp [hpc, Pc.holds])) ?_
    intro d id hnext
    cases hcheck : check env request <;> simp [hcheck, Checked.next] at hnext
  | reserves i d hpc hfree =>
    have hreserved : ∀ d' id, d.reserved ≠ .published d' id := by
      intro d' id
      unfold Task.reserved
      split <;> simp
    by_cases hkey : env.idempotencyKey slot = env.idempotencyKey d.slot
    · constructor
      · refine .inr ⟨i, ?_⟩
        show Pc.holds env slot (Function.update s.procs i d.reserved i) = true
        rw [Function.update_self, holds_reserved, hkey]
        simp
      · refine unsettled_update h ?_
        intro d' id hpc'
        exact absurd hpc' (hreserved d' id)
    · refine hmove i _ _ (Cache.set_of_ne _ _ _ hkey) (.inl (by simp [hpc, Pc.holds])) ?_
      intro d' id hpc'
      exact absurd hpc' (hreserved d' id)
  | repeats i d hpc =>
    exact hmove i _ s.cache rfl (.inl (by simp [hpc, Pc.holds])) (by simp)
  | sends i d id hpc =>
    have hkey : env.idempotencyKey d.slot ≠ env.idempotencyKey slot := by
      simpa [publishes, hpc] using hzero
    refine hmove i _ s.cache rfl (.inl (by simp [hpc, Pc.holds, hkey])) ?_
    intro d' id' hpc'
    cases hpc'
    exact hkey
  | raises i d hpc =>
    refine hmove i _ s.cache rfl ?_ (by simp)
    by_cases hkey : env.idempotencyKey d.slot = env.idempotencyKey slot
    · exact .inr (by simp [Pc.holds, hkey])
    · exact .inl (by simp [hpc, Pc.holds, hkey])
  | releases i d r hpc =>
    by_cases hkey : env.idempotencyKey slot = env.idempotencyKey d.slot
    · constructor
      · left
        show (s.cache.delete _).get s.now _ = none
        rw [hkey]
        exact Cache.get_eq_none (Cache.delete_self _ _)
      · exact unsettled_update h (by simp)
    · refine hmove i _ _ (Cache.delete_of_ne _ hkey) (.inl ?_) (by simp)
      simp [hpc, Pc.holds, Ne.symm hkey]
  | settles i d id value hpc =>
    have hkey := h.unsettled i d id hpc
    exact hmove i _ _ (Cache.set_of_ne _ _ _ (Ne.symm hkey)) (.inl (by simp [hpc, Pc.holds]))
      (by simp)
  | ticks seconds =>
    constructor
    · rcases h.accounted with hfree | hheld
      · exact .inl (Cache.get_later hfree (Nat.le_add_right _ _))
      · exact .inr hheld
    · exact h.unsettled

/-- A slot for which nothing was published, and that no request has reserved, is still free. -/
theorem free_of_unpublished (hstart : s.Start) (hfree : s.Free env slot)
    (hrun : (dispatch env).Run s as t) (hzero : (dispatch env).total (publishes env slot) s as = 0)
    (hidle : ∀ i, Pc.holds env slot (t.procs i) = false) : t.Free env slot := by
  have hstep : ∀ s a s', (True ∧ publishes env slot s a = 0) → Unpublished env slot s →
      (dispatch env).next s a = some s' → Unpublished env slot s' := by
    intro s a s' hg h hs
    exact unpublished_step h hs hg.2
  have ht := (hrun.of_total_eq_zero hzero).invariant hstep (unpublished_of_start hstart hfree)
  rcases ht.accounted with hfree' | ⟨i, hi⟩
  · exact hfree'
  · rw [hidle i] at hi
    cases hi

/-! ## The slot -/

/-- For any deliveries of requests, in any order of their steps, while the entry of the slot
lives: its task is published at most once. Whatever the times, a request that fails leaves the
slot free, where it had it reserved or found it free, and a slot that no request has reserved and
for which nothing was published is free; the next valid request for it is then published. -/
theorem dispatch_slot (env : Env) (slot : Slot) {s t : State} {as : List Action}
    (hstart : s.Start) (hrun : (dispatch env).Run s as t) :
    ((dispatch env).RunIf (WithinTtl env slot) s as t →
      (dispatch env).total (publishes env slot) s as ≤ 1) ∧
    (dispatch env).RunIf (fun u a => ∀ u' i, step env u a = some u' → Fails u u' i →
      Pc.holds env slot (u.procs i) = true ∨ u.Free env slot →
      u'.Free env slot ∧ Publishable env u' slot) s as t ∧
    (s.Free env slot → (dispatch env).total (publishes env slot) s as = 0 →
      (∀ i, Pc.holds env slot (t.procs i) = false) →
      t.Free env slot ∧ Publishable env t slot) := by
  refine ⟨?_, ?_, ?_⟩
  · intro hwithin
    exact publishes_once hstart hwithin
  · apply hrun.mono
    intro u a _ u' i hs hfail hslot
    have hfree := free_of_fails hs hfail hslot
    exact ⟨hfree, publishable_of_free hfree⟩
  · intro hfree hzero hidle
    have hfree' := free_of_unpublished hstart hfree hrun hzero hidle
    exact ⟨hfree', publishable_of_free hfree'⟩

/-! ## Redelivery -/

/-- An environment whose codec knows one payload. -/
def healthEnv : Env where
  token := "test-secret"
  loads _ := .ok (.dict [
    ("schedule_id", .str "ai-data-health-every-15-minutes"),
    ("task", .str "apps.ai_engine.tasks.check_ai_data_health"),
    ("kwargs", .dict [("timeframe", .str "M1")]),
    ("scheduled_minute", .int 29999999)])
  sha256 := id

def healthSlot : Slot :=
  ⟨"ai-data-health-every-15-minutes", "apps.ai_engine.tasks.check_ai_data_health", 29999999⟩

def healthRequest : Request := ⟨"Bearer test-secret", [123, 125]⟩

/-- The first publication fails, and of the two redeliveries one comes too early. -/
def redelivered : List Action :=
  [.receive 0 healthRequest, .reserve 0, .send 0 none, .receive 1 healthRequest, .tick 5,
    .reserve 1, .release 0, .receive 2 healthRequest, .reserve 2, .send 2 (some "celery-task-123"),
    .tick 5, .settle 2]

def noRequests : State := ⟨0, fun _ => none, fun _ => .idle⟩

theorem dispatch_slot_redelivered :
    ∃ t, (dispatch healthEnv).Run noRequests redelivered t ∧
      (dispatch healthEnv).total (publishes healthEnv healthSlot) noRequests redelivered ≤ 1 := by
  have hexec : ((dispatch healthEnv).execIf (WithinTtl healthEnv healthSlot) noRequests
      redelivered).isSome = true := by decide +kernel
  have hstart : noRequests.Start := by
    intro i
    rfl
  rcases Machine.exists_runIf hexec with ⟨t, hwithin⟩
  have hrun : (dispatch healthEnv).Run noRequests redelivered t :=
    hwithin.mono fun _ _ _ => trivial
  exact ⟨t, hrun, (dispatch_slot healthEnv healthSlot hstart hrun).1 hwithin⟩

example :
    (dispatch healthEnv).total (publishes healthEnv healthSlot) noRequests redelivered = 1 := by
  decide +kernel

end AlgoBot.Dispatch
