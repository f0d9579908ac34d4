import AlgoBot.Python.Value

/-!
# The consumers of the two queues

The consumers of `background-scheduler` and `market-stream` post each message of a batch to the
backend and acknowledge it or have it delivered again. A message the backend refuses goes to the
dead-letter queue first. Every request can fail and every send can throw, and a step that throws
must neither lose the message nor stop the loop.

* `queue_settles`: a loop over messages each of which is settled settles all of them.
* `queues_settle`: both consumers settle each message of a batch exactly once, and acknowledge it
  only after a success or after the dead-letter queue has it.
-/

namespace AlgoBot.Cloudflare

open AlgoBot.Python

/-! ## Effects -/

structure Message where
  id : String
  body : Value

structure Post where
  url : String
  authorization : String
  body : Value

structure DeadLetter where
  source : String
  original_message_id : String
  failure_status : ℕ
  failed_at : String
  body : Value

/-- What a consumer has done, each with the place of its message in the batch. -/
inductive Event
  | posted (i : ℕ) (post : Post)
  | answered (i status : ℕ)
  | deadLettered (i : ℕ) (letter : DeadLetter)
  | ack (i : ℕ)
  | retry (i delaySeconds : ℕ)

/-- A computation that leaves its effects behind also where it throws. -/
abbrev Consumer := ExceptT String (StateM (List Event))

/-- The bindings of a worker, and how each request and each send turns out. -/
structure Env where
  vars : String → Option String
  /-- The status of the answer, or what `fetch` throws. -/
  fetch : ℕ → Except String ℕ
  /-- What the send to the dead-letter queue throws, if it does. -/
  send : ℕ → Except String Unit
  clock : ℕ → String

def emit (e : Event) : Consumer Unit := modify fun log => log ++ [e]

def message_ack (i : ℕ) : Consumer Unit := emit (.ack i)

def message_retry (i delaySeconds : ℕ) : Consumer Unit := emit (.retry i delaySeconds)

def fetch (env : Env) (i : ℕ) (post : Post) : Consumer ℕ := do
  emit (.posted i post)
  let status ← env.fetch i
  emit (.answered i status)
  return status

def send (env : Env) (i : ℕ) (letter : DeadLetter) : Consumer Unit := do
  env.send i
  emit (.deadLettered i letter)

/-- `response.ok`. -/
def ok (status : ℕ) : Bool := 200 ≤ status && status ≤ 299

/-- What `trim` strips. -/
def isBlank (c : Char) : Bool :=
  [0x9, 0xA, 0xB, 0xC, 0xD, 0x20, 0xA0, 0x1680, 0x2028, 0x2029, 0x202F, 0x205F, 0x3000,
    0xFEFF].contains c.toNat || (0x2000 ≤ c.toNat && c.toNat ≤ 0x200A)

/-- The names whose value is missing or blank. -/
def missing (env : Env) (names : List String) : List String :=
  names.filter fun name => ((env.vars name).getD "").toList.all isBlank

def binding (env : Env) (name : String) : String := (env.vars name).getD "undefined"

/-! ## The consumers -/

namespace Scheduler

def RETRY_DELAY_SECONDS : ℕ := 60

/-- The turn of the loop of `background-scheduler`. -/
def consume (env : Env) (i : ℕ) (message : Message) : Consumer Unit := do
  if missing env ["ALGOBOT_TASK_DISPATCH_URL", "ALGOBOT_TASK_DISPATCH_TOKEN"] ≠ [] then
    message_retry i RETRY_DELAY_SECONDS
  else
    let response ←
      try
        some <$> fetch env i {
          url := binding env "ALGOBOT_TASK_DISPATCH_URL"
          authorization := "Bearer " ++ binding env "ALGOBOT_TASK_DISPATCH_TOKEN"
          body := message.body }
      catch _ =>
        message_retry i RETRY_DELAY_SECONDS
        pure none
    match response with
    | none => pure ()
    | some status =>
      if ok status then message_ack i
      else if [400, 413, 422].contains status then
        try
          send env i {
            source := "algobot-background-scheduler"
            original_message_id := message.id
            failure_status := status
            failed_at := env.clock i
            body := message.body }
          message_ack i
        catch _ =>
          message_retry i RETRY_DELAY_SECONDS
      else message_retry i RETRY_DELAY_SECONDS

end Scheduler

namespace MarketStream

def RETRY_DELAY_SECONDS : ℕ := 10

/-- The turn of the loop of `market-stream`. -/
def consume (env : Env) (i : ℕ) (message : Message) : Consumer Unit := do
  if missing env ["CLOUDFLARE_MARKET_STREAM_TOKEN", "ALGOBOT_MARKET_TICK_URL"] ≠ [] then
    message_retry i RETRY_DELAY_SECONDS
  else
    try
      let status ← fetch env i {
        url := binding env "ALGOBOT_MARKET_TICK_URL"
        authorization := "Bearer " ++ binding env "CLOUDFLARE_MARKET_STREAM_TOKEN"
        body := .dict [("tick", message.body)] }
      if ok status then message_ack i
      else if [400, 413, 422].contains status then
        try
          send env i {
            source := "algobot-market-stream"
            original_message_id := message.id
            failure_status := status
            failed_at := env.clock i
            body := message.body }
          message_ack i
        catch _ =>
          message_retry i RETRY_DELAY_SECONDS
      else message_retry i RETRY_DELAY_SECONDS
    catch _ =>
      message_retry i RETRY_DELAY_SECONDS

end MarketStream

/-- The loop over the messages from the `i`-th on. -/
def queue (consume : ℕ → Message → Consumer Unit) (i : ℕ) : List Message → Consumer Unit
  | [] => pure ()
  | message :: rest => do
    consume i message
    queue consume (i + 1) rest

/-! ## Settling -/

def Event.index : Event → ℕ
  | .posted i _ | .answered i _ | .deadLettered i _ | .ack i | .retry i _ => i

/-- An `ack` or a `retry` of a message. -/
def Event.settles (i : ℕ) : Event → Bool
  | .ack j | .retry j _ => j == i
  | _ => false

/-- The backend has answered with success, or the dead-letter queue has the message. -/
def Earned (i : ℕ) (log : List Event) : Prop :=
  (∃ status, ok status = true ∧ .answered i status ∈ log) ∨ ∃ letter, .deadLettered i letter ∈ log

/-- The message is settled once, and acknowledged only when that is earned. -/
structure Settled (i : ℕ) (log : List Event) : Prop where
  once : log.countP (Event.settles i) = 1
  earned : ∀ k, log[k]? = some (.ack i) → Earned i (log.take k)

/-- The consumer ends without an exception and has settled the first `n` messages. -/
def SettlesAll (run : Consumer Unit) (n : ℕ) : Prop :=
  ∃ log, run.run.run [] = (.ok (), log) ∧ ∀ i < n, Settled i log

/-! ## Rules -/

section Rules

variable {α β : Type} {c : Consumer α} {f : α → Consumer β} {g : String → Consumer α}
  {log xs ys : List Event} {a : α} {e : String} {result : Except String α}
  {result' : Except String β}

/-- From this log on the computation adds these events and ends so. -/
def Runs (c : Consumer α) (log : List Event) (result : Except String α) (events : List Event) :
    Prop :=
  c.run.run log = (result, log ++ events)

theorem Runs.pure (a : α) : Runs (Pure.pure a) log (.ok a) [] :=
  congrArg (Prod.mk _) (List.append_nil log).symm

theorem Runs.lift (log : List Event) (r : Except String α) : Runs (liftM r) log r [] := by
  rw [Runs, List.append_nil]
  cases r <;> rfl

theorem Runs.emit (e : Event) : Runs (emit e) log (.ok ()) [e] := rfl

theorem run_bind : (c >>= f).run.run log =
    match c.run.run log with
    | (.ok a, log') => (f a).run.run log'
    | (.error e, log') => (.error e, log') := by
  simp only [ExceptT.run_bind, StateT.run_bind]
  rcases c.run.run log with ⟨_ | _, _⟩ <;> rfl

theorem run_tryCatch : (tryCatch c g).run.run log =
    match c.run.run log with
    | (.ok a, log') => (.ok a, log')
    | (.error e, log') => (g e).run.run log' := by
  simp only [ExceptT.run_tryCatch, StateT.run_bind]
  rcases c.run.run log with ⟨_ | _, _⟩ <;> rfl

theorem Runs.bind (hc : Runs c log (.ok a) xs) (hf : Runs (f a) (log ++ xs) result' ys) :
    Runs (c >>= f) log result' (xs ++ ys) := by
  rw [Runs, run_bind, hc, ← List.append_assoc]
  exact hf

theorem Runs.bind_throw (hc : Runs c log (.error e) xs) : Runs (c >>= f) log (.error e) xs := by
  rw [Runs, run_bind, hc]

theorem Runs.map (h : α → β) (hc : Runs c log (.ok a) xs) : Runs (h <$> c) log (.ok (h a)) xs := by
  rw [← bind_pure_comp, ← List.append_nil xs]
  exact hc.bind (Runs.pure (h a))

theorem Runs.map_throw (h : α → β) (hc : Runs c log (.error e) xs) :
    Runs (h <$> c) log (.error e) xs := by
  rw [← bind_pure_comp]
  exact hc.bind_throw

theorem Runs.catch_ok (hc : Runs c log (.ok a) xs) : Runs (tryCatch c g) log (.ok a) xs := by
  rw [Runs, run_tryCatch, hc]

theorem Runs.catch_throw (hc : Runs c log (.error e) xs)
    (hg : Runs (g e) (log ++ xs) result ys) : Runs (tryCatch c g) log result (xs ++ ys) := by
  rw [Runs, run_tryCatch, hc, ← List.append_assoc]
  exact hg

end Rules

/-- A turn adds events of its own message, which settle it, and does not throw. -/
def Settling (consume : ℕ → Message → Consumer Unit) : Prop :=
  ∀ i message log, ∃ events, Runs (consume i message) log (.ok ()) events ∧
    (∀ e ∈ events, e.index = i) ∧ Settled i events

variable {env : Env} {i j : ℕ} {message : Message} {log events : List Event}

/-- A log without a settlement has no acknowledgement. -/
theorem getElem?_ne_ack {before : List Event} (hbefore : ∀ e ∈ before, e.settles i = false) (k : ℕ) :
    before[k]? ≠ some (.ack i) := by
  intro hack
  have hsettles := hbefore _ (List.mem_of_getElem? hack)
  simp [Event.settles] at hsettles

theorem countP_eq_zero {before : List Event} (hbefore : ∀ e ∈ before, e.settles i = false) :
    before.countP (Event.settles i) = 0 :=
  List.countP_eq_zero.mpr fun e he => Bool.eq_false_iff.mp (hbefore e he)

theorem Settled.retry (before : List Event) (delay : ℕ)
    (hbefore : ∀ e ∈ before, e.settles i = false) : Settled i (before ++ [.retry i delay]) where
  once := by simp [countP_eq_zero hbefore, Event.settles]
  earned k hack := by
    rcases List.mem_append.mp (List.mem_of_getElem? hack) with hmem | hmem
    · have hsettles := hbefore _ hmem
      simp [Event.settles] at hsettles
    · cases List.mem_singleton.mp hmem

theorem Settled.ack {before : List Event} (hbefore : ∀ e ∈ before, e.settles i = false)
    (hearned : Earned i before) : Settled i (before ++ [.ack i]) where
  once := by simp [countP_eq_zero hbefore, Event.settles]
  earned k hack := by
    by_cases hk : k < before.length
    · rw [List.getElem?_append_left hk] at hack
      exact absurd hack (getElem?_ne_ack hbefore k)
    · have hlast : k < (before ++ [Event.ack i]).length := (List.getElem?_eq_some_iff.mp hack).1
      have hlength : k = before.length := by
        rw [List.length_append, List.length_singleton] at hlast
        omega
      rw [hlength, List.take_left]
      exact hearned

theorem fetch_throws {e : String} {post : Post} (h : env.fetch i = .error e) :
    Runs (fetch env i post) log (.error e) [.posted i post] := by
  have hlift := Runs.lift (log ++ [.posted i post]) (env.fetch i)
  rw [h] at hlift
  exact (Runs.emit _).bind (by rw [h]; exact hlift.bind_throw)

theorem fetch_answers {status : ℕ} {post : Post} (h : env.fetch i = .ok status) :
    Runs (fetch env i post) log (.ok status) [.posted i post, .answered i status] := by
  have hlift := Runs.lift (log ++ [.posted i post]) (env.fetch i)
  rw [h] at hlift
  exact (Runs.emit _).bind (by rw [h]; exact hlift.bind ((Runs.emit _).bind (Runs.pure status)))

/-- A refused message is acknowledged if the dead-letter queue takes it. -/
theorem refused_settles (env : Env) {before : List Event} (letter : DeadLetter) (delay : ℕ)
    (hown : ∀ e ∈ before, e.index = i) (hbefore : ∀ e ∈ before, e.settles i = false) :
    ∃ events, Runs (tryCatch (send env i letter >>= fun _ => message_ack i)
        fun _ => message_retry i delay) log (.ok ()) events ∧
      (∀ e ∈ before ++ events, e.index = i) ∧ Settled i (before ++ events) := by
  have hlift := Runs.lift log (env.send i)
  cases hsend : env.send i with
  | error e =>
    rw [hsend] at hlift
    have hthrows : Runs (send env i letter) log (.error e) [] := by
      rw [send, hsend]
      exact hlift.bind_throw
    refine ⟨[.retry i delay], hthrows.bind_throw.catch_throw (Runs.emit _), ?_,
      Settled.retry _ delay hbefore⟩
    simpa [or_imp, forall_and, Event.index] using hown
  | ok taken =>
    rw [hsend] at hlift
    have hsends : Runs (send env i letter) log (.ok ()) [.deadLettered i letter] := by
      rw [send, hsend]
      exact hlift.bind (Runs.emit _)
    refine ⟨[.deadLettered i letter, .ack i], (hsends.bind (Runs.emit _)).catch_ok, ?_, ?_⟩
    · simpa [or_imp, forall_and, Event.index] using hown
    · rw [List.append_cons]
      refine Settled.ack ?_ (Or.inr ⟨letter, List.mem_append_right _ List.mem_cons_self⟩)
      simpa [or_imp, forall_and, Event.settles] using hbefore

/-- What both consumers do once the backend has answered. -/
theorem answered_settles (env : Env) (post : Post) (status : ℕ) (letter : DeadLetter) (delay : ℕ) :
    ∃ events, Runs (if ok status then message_ack i
        else if [400, 413, 422].contains status then
          tryCatch (send env i letter >>= fun _ => message_ack i) fun _ => message_retry i delay
        else message_retry i delay) log (.ok ()) events ∧
      (∀ e ∈ [.posted i post, .answered i status] ++ events, e.index = i) ∧
        Settled i ([.posted i post, .answered i status] ++ events) := by
  have hown : ∀ e ∈ [Event.posted i post, .answered i status], e.index = i := by
    simp [Event.index]
  have hbefore : ∀ e ∈ [Event.posted i post, .answered i status], e.settles i = false := by
    simp [Event.settles]
  split
  · next hok =>
    refine ⟨[.ack i], Runs.emit _, by simp [Event.index], Settled.ack hbefore (Or.inl ?_)⟩
    exact ⟨status, hok, List.mem_cons_of_mem _ List.mem_cons_self⟩
  · split
    · exact refused_settles env letter delay hown hbefore
    · exact ⟨[.retry i delay], Runs.emit _, by simp [Event.index], Settled.retry _ delay hbefore⟩

theorem scheduler_settling (env : Env) : Settling (Scheduler.consume env) := by
  intro i message log
  unfold Scheduler.consume
  split
  · exact ⟨[.retry i 60], Runs.emit _, by simp [Event.index], Settled.retry [] 60 nofun⟩
  · cases hfetch : env.fetch i with
    | error e =>
      refine ⟨_, Runs.bind (((fetch_throws hfetch).map_throw some).catch_throw
        ((Runs.emit _).bind (Runs.pure none))) (Runs.pure ()), by simp [Event.index], ?_⟩
      exact Settled.retry [.posted i _] 60 (by simp [Event.settles])
    | ok status =>
      obtain ⟨events, hruns, hown, hsettled⟩ := answered_settles env _ status _ 60
      exact ⟨_, ((fetch_answers hfetch).map some).catch_ok.bind hruns, hown, hsettled⟩

theorem market_settling (env : Env) : Settling (MarketStream.consume env) := by
  intro i message log
  unfold MarketStream.consume
  -- the outer catch is for the request alone: the inner one has what the dead-letter queue throws
  split
  · exact ⟨[.retry i 10], Runs.emit _, by simp [Event.index], Settled.retry [] 10 nofun⟩
  · cases hfetch : env.fetch i with
    | error e =>
      refine ⟨_, (fetch_throws hfetch).bind_throw.catch_throw (Runs.emit (.retry i 10)),
        by simp [Event.index], Settled.retry [.posted i _] 10 (by simp [Event.settles])⟩
    | ok status =>
      obtain ⟨events, hruns, hown, hsettled⟩ := answered_settles env _ status _ 10
      exact ⟨_, ((fetch_answers hfetch).bind hruns).catch_ok, hown, hsettled⟩

/-! ## Batches -/

/-- Events of other messages do not matter. -/
theorem Settled.frame {before after : List Event} (hbefore : ∀ e ∈ before, e.index ≠ i)
    (hafter : ∀ e ∈ after, e.index ≠ i) (hsettled : Settled i events) :
    Settled i (before ++ (events ++ after)) := by
  have hother : ∀ {log : List Event}, (∀ e ∈ log, e.index ≠ i) → ∀ e ∈ log, e.settles i = false := by
    intro log hlog e he
    have hne := hlog e he
    cases e with
    | ack j | retry j _ => simpa [Event.settles, Event.index] using hne
    | posted | answered | deadLettered => rfl
  constructor
  · rw [List.countP_append, List.countP_append, hsettled.once, countP_eq_zero (hother hbefore),
      countP_eq_zero (hother hafter)]
  · intro k hack
    -- an acknowledgement of the message is among the events of the message
    by_cases hk : k < before.length
    · rw [List.getElem?_append_left hk] at hack
      exact absurd hack (getElem?_ne_ack (hother hbefore) k)
    · rw [List.getElem?_append_right (Nat.not_lt.mp hk)] at hack
      by_cases hevents : k - before.length < events.length
      · rw [List.getElem?_append_left hevents] at hack
        have hsub : events.take (k - before.length) ⊆ (before ++ (events ++ after)).take k := by
          rw [List.take_append, List.take_append]
          intro e he
          exact List.mem_append_right _ (List.mem_append_left _ he)
        exact (hsettled.earned _ hack).imp
          (fun ⟨status, hok, hmem⟩ => ⟨status, hok, hsub hmem⟩)
          (fun ⟨letter, hmem⟩ => ⟨letter, hsub hmem⟩)
      · rw [List.getElem?_append_right (Nat.not_lt.mp hevents)] at hack
        exact absurd hack (getElem?_ne_ack (hother hafter) _)

/-- A loop whose turns settle their messages settles all of them. -/
theorem queue_settles {consume : ℕ → Message → Consumer Unit} (hconsume : Settling consume)
    (start : ℕ) (log : List Event) (messages : List Message) :
    ∃ events, Runs (queue consume start messages) log (.ok ()) events ∧
      (∀ e ∈ events, start ≤ e.index) ∧
        ∀ i, start ≤ i → i < start + messages.length → Settled i events := by
  induction messages generalizing start log with
  | nil => exact ⟨[], Runs.pure (), nofun, fun i hle hlt => absurd hlt (Nat.not_lt.mpr hle)⟩
  | cons message rest ih =>
    -- the turn settles its own message, the loop over the rest the later ones
    obtain ⟨first, hfirst, hown, hsettled⟩ := hconsume start message log
    obtain ⟨later, hlater, hafter, hrest⟩ := ih (start + 1) (log ++ first)
    refine ⟨first ++ later, hfirst.bind hlater, ?_, fun i hle hlt => ?_⟩
    · intro e he
      rcases List.mem_append.mp he with he | he
      · exact (hown e he).ge
      · exact Nat.le_of_succ_le (hafter e he)
    · rcases hle.eq_or_lt with rfl | hnext
      · exact Settled.frame (List.forall_mem_nil _) (fun e he => Nat.ne_of_gt (hafter e he)) hsettled
      · rw [List.length_cons] at hlt
        rw [← List.append_nil later]
        refine (hrest i hnext (by omega)).frame (fun e he => ?_) nofun
        rw [hown e he]
        exact Nat.ne_of_lt hnext

/-- Both consumers settle each message of every batch once, and acknowledge none that is neither
processed nor in the dead-letter queue. -/
theorem queues_settle (env : Env) (batch : List Message) :
    SettlesAll (queue (Scheduler.consume env) 0 batch) batch.length ∧
      SettlesAll (queue (MarketStream.consume env) 0 batch) batch.length := by
  have hall : ∀ consume, Settling consume → SettlesAll (queue consume 0 batch) batch.length := by
    intro consume hconsume
    obtain ⟨events, hruns, _, hsettled⟩ := queue_settles hconsume 0 [] batch
    exact ⟨events, hruns, fun i hi => hsettled i (Nat.zero_le i) (by omega)⟩
  exact ⟨hall _ (scheduler_settling env), hall _ (market_settling env)⟩

end AlgoBot.Cloudflare
