import AlgoBot.Python.Value

/-!
# Telegram notifications: rows, replies of the channel and the retry delay

The rows of `apps/notifications/models.py` that a delivery reads and writes, the
loop of `api_call` over the replies of the channel, and the outcome
`deliver_notification` settles on. Times are microseconds, as Python keeps them.

* `api_call_mem`: the loop ends in what some reply of it says.
* `countdown_le_delay`: a countdown is at most the delay it is cut from.
-/

namespace AlgoBot.Notifications

/-- The values `status` takes. -/
inductive Status
  | queued
  | processing
  | retrying
  | delivered
  | opened
  | failed
  | dead_letter
  deriving DecidableEq, Repr

/-- The statuses a notification ends in. -/
def Status.Terminal (status : Status) : Bool :=
  status = .delivered ∨ status = .opened ∨ status = .failed ∨ status = .dead_letter

inductive Channel
  | in_app
  | gmail
  | telegram
  deriving DecidableEq, Repr

/-- A row of `Notification`, without the columns no delivery looks at. -/
structure Notification where
  id : ℕ
  title : String
  message : String
  status : Status
  channel : Channel
  attempts : ℕ
  available_at : Option ℕ
  last_error : String
  telegram_message_id : String
  updated_at : ℕ
  sent_at : Option ℕ
  read_at : Option ℕ
  deriving DecidableEq, Repr

/-- The values `status` takes in `DeliveryLog`. -/
inductive LogStatus
  | sending
  | delivered
  | failed
  | dead_letter
  | retrying
  deriving DecidableEq, Repr

/-- A row of `DeliveryLog`. -/
structure DeliveryLog where
  status : LogStatus
  attempts : ℕ
  error : String
  sent_at : Option ℕ
  delivered_at : Option ℕ
  deriving DecidableEq, Repr

/-- `Notification.objects.create(...)` of `NotificationEngine.publish`. -/
def created (id : ℕ) (title message : String) (channel : Channel) (now : ℕ) : Notification where
  id := id
  title := title
  message := message
  status := .queued
  channel := channel
  attempts := 0
  available_at := some now
  last_error := ""
  telegram_message_id := ""
  updated_at := now
  sent_at := none
  read_at := none

/-! ## The checks a run starts with -/

inductive Check
  | ignored
  | unsupported
  | deferred
  | attempt
  deriving DecidableEq, Repr

/-- What `deliver_notification` decides from the row it read and the clock. -/
def check (n : Notification) (now : ℕ) : Check :=
  if n.status = .delivered then .ignored
  else if n.channel ≠ .telegram then .unsupported
  else if n.available_at.any fun due => now < due then .deferred
  else .attempt

theorem check_eq_attempt {n : Notification} {now : ℕ} :
    check n now = .attempt ↔
      n.status ≠ .delivered ∧ n.channel = .telegram ∧ ∀ due ∈ n.available_at, due ≤ now := by
  unfold check
  split
  · next h => simp [h]
  · next h =>
    split
    · next hc => simp [hc]
    · next hc =>
      cases n.available_at with
      | none => simp [h, not_not.mp hc]
      | some due =>
        by_cases hdue : now < due
        · simp [hdue]
        · simp [hdue, h, not_not.mp hc, not_lt.mp hdue]

/-! ## The channel -/

/-- Why a send failed: the two exceptions of `telegram_runtime`, or any other exception. -/
inductive Failure
  | permanent (error : String)
  | transient (error : String)
  | other (error : String)
  deriving DecidableEq, Repr

def Failure.error : Failure → String
  | .permanent error => error
  | .transient error => error
  | .other error => error

/-- The fields of a JSON reply of the bot API that the code looks at. -/
structure Reply where
  status_code : ℕ
  ok : Bool
  error_code : Option ℤ
  description : Option String
  retry_after : Option ℤ
  message_id : Option String
  deriving DecidableEq, Repr

/-- What becomes of one POST. The channel has accepted the message or not; the reply was read, or
reading it raised `requests.RequestException` or `ValueError`. -/
structure Answer where
  accepted : Bool
  reply : Except String Reply

/-- A reply that can be read says what the channel did, server errors apart. -/
def Answer.Honest (a : Answer) : Bool :=
  match a.reply with
  | .error _ => true
  | .ok reply => 500 ≤ reply.status_code ∨ a.accepted = reply.ok

/-- `api_call` on one reply: the message id, or what is raised. -/
def Answer.read (a : Answer) : Except Failure String :=
  match a.reply with
  | .error error => .error (.transient error)
  | .ok reply =>
      if reply.status_code = 429 then
        .error (.transient
          ("Telegram rate limit; retry after " ++ toString (reply.retry_after.getD 1) ++ "s"))
      else if 500 ≤ reply.status_code then
        .error (.transient ("Telegram server error: HTTP " ++ toString reply.status_code))
      else if reply.ok then .ok (reply.message_id.getD "")
      else
        let code := reply.error_code.getD reply.status_code
        let description := reply.description.getD "Telegram API request failed"
        if code = 408 ∨ code = 409 ∨ code = 429 ∨ 500 ≤ code then .error (.transient description)
        else .error (.permanent description)

/-- `retries` of the call `send_telegram` makes. -/
def retries : ℕ := 3

/-- After the POST number `attempt` of the loop: what `api_call` ends in, or `none` to go on. -/
def afterPost (attempt : ℕ) (result : Except Failure String) : Option (Except Failure String) :=
  match result with
  | .error (.transient error) =>
      if retries ≤ attempt + 1 then some (.error (.transient error)) else none
  | result => some result

/-- The loop of `api_call` from its POST number `attempt` on, with `left` more to come. -/
def api_call (answers : ℕ → Answer) : ℕ → ℕ → Except Failure String
  | attempt, 0 => (answers attempt).read
  | attempt, left + 1 =>
      (afterPost attempt (answers attempt).read).getD (api_call answers (attempt + 1) left)

theorem afterPost_eq_some {attempt : ℕ} {result final : Except Failure String}
    (h : afterPost attempt result = some final) : final = result := by
  unfold afterPost at h
  split at h
  · split at h
    · exact (Option.some.inj h).symm
    · cases h
  · exact (Option.some.inj h).symm

/-- The loop ends in what one of its replies says. -/
theorem api_call_mem (answers : ℕ → Answer) (attempt left : ℕ) :
    ∃ k, api_call answers attempt left = (answers k).read := by
  induction left generalizing attempt with
  | zero => exact ⟨attempt, rfl⟩
  | succ left ih =>
    cases h : afterPost attempt (answers attempt).read with
    | none =>
      obtain ⟨k, hk⟩ := ih (attempt + 1)
      exact ⟨k, by rw [api_call, h, Option.getD_none, hk]⟩
    | some final =>
      exact ⟨attempt, by rw [api_call, h, Option.getD_some, afterPost_eq_some h]⟩

/-- A message that is answered as accepted was accepted. -/
theorem Answer.accepted_of_read {a : Answer} {message_id : String} (hhonest : a.Honest = true)
    (h : a.read = .ok message_id) : a.accepted = true := by
  rcases a with ⟨accepted, error | reply⟩
  · cases h
  · simp only [Answer.read] at h
    simp only [Answer.Honest, decide_eq_true_eq] at hhonest
    split at h
    · cases h
    · split at h
      · cases h
      · next hcode =>
        split at h
        · next hok =>
          have haccepted := hhonest.resolve_left hcode
          rw [haccepted, hok]
        · split at h <;> cases h

/-- `TELEGRAM_MAX_MESSAGE`. -/
def TELEGRAM_MAX_MESSAGE : ℕ := 4096

/-- The text `sendMessage` is called with. -/
def text (n : Notification) : String :=
  String.ofList ((n.title ++ "\n\n" ++ n.message).toList.take TELEGRAM_MAX_MESSAGE)

/-- What stands before the first POST: `external_id` of the verified connection, if there is one. -/
def connect (configured : Bool) (connection : Option String) : Except Failure String :=
  match connection with
  | none => .error (.permanent "Telegram channel is not verified.")
  | some external_id =>
      if !configured || external_id = "" then
        .error (.permanent "Telegram channel is not configured or has no chat identifier.")
      else .ok external_id

/-! ## The retry delay -/

def second : ℕ := 1000000

/-- `base` of `retry_delay`, in seconds. -/
def retryBase (attempt : ℕ) : ℕ := min 3600 (2 ^ min attempt 10)

/-- The largest value of `random.uniform(0, min(30, base * 0.25))`. -/
def jitterBound (attempt : ℕ) : ℕ := min (30 * second) (retryBase attempt * 250000)

/-- `retry_delay` with what the random source added. -/
def retry_delay (attempt jitter : ℕ) : ℕ := retryBase attempt * second + jitter

/-- `max(1, int(delay.total_seconds()))`. -/
def countdown (delay : ℕ) : ℕ := max 1 (delay / second)

theorem second_le_retry_delay (attempt jitter : ℕ) : second ≤ retry_delay attempt jitter := by
  have hpow : 0 < 2 ^ min attempt 10 := Nat.two_pow_pos _
  have hbase : 1 ≤ retryBase attempt := by
    unfold retryBase
    omega
  have hmul : 1 * second ≤ retryBase attempt * second := Nat.mul_le_mul_right _ hbase
  unfold retry_delay
  omega

/-- The countdown leaves out what the delay has over whole seconds. -/
theorem countdown_add_mod (attempt jitter : ℕ) :
    countdown (retry_delay attempt jitter) * second + retry_delay attempt jitter % second =
      retry_delay attempt jitter := by
  have hone : 1 ≤ retry_delay attempt jitter / second :=
    (Nat.one_le_div_iff (by decide)).mpr (second_le_retry_delay attempt jitter)
  rw [countdown, Nat.max_eq_right hone]
  have hdiv := Nat.div_add_mod (retry_delay attempt jitter) second
  rw [Nat.mul_comm] at hdiv
  exact hdiv

/-! ## What a run writes -/

/-- What a run settles on. -/
inductive Outcome
  | delivered (message_id : String)
  | failed (error : String)
  | dead_letter (error : String)
  | retrying (error : String) (delay : ℕ)
  deriving DecidableEq, Repr

/-- `str(exc)[:2000]`. -/
def errorText (error : String) : String := String.ofList (error.toList.take 2000)

/-- The branch `deliver_notification` takes once its send has ended. -/
def settle (max_attempts attempts jitter : ℕ) (result : Except Failure String) : Outcome :=
  match result with
  | .ok message_id => .delivered message_id
  | .error (.permanent error) => .failed (errorText error)
  | .error failure =>
      if max_attempts ≤ attempts then .dead_letter (errorText failure.error)
      else .retrying (errorText failure.error) (retry_delay attempts jitter)

/-- A retry waits for the delay of its attempt. -/
theorem settle_retrying {max_attempts attempts jitter delay : ℕ} {result : Except Failure String}
    {error : String} (h : settle max_attempts attempts jitter result = .retrying error delay) :
    delay = retry_delay attempts jitter := by
  have hlast : ∀ text, (if max_attempts ≤ attempts then Outcome.dead_letter text
      else .retrying text (retry_delay attempts jitter)) = .retrying error delay →
      delay = retry_delay attempts jitter := by
    intro text htext
    split at htext
    · cases htext
    · injection htext with _ hdelay
      exact hdelay.symm
  cases result with
  | ok message_id => cases h
  | error failure =>
    cases failure with
    | permanent text => cases h
    | transient text => exact hlast _ h
    | other text => exact hlast _ h

def Outcome.status : Outcome → Status
  | .delivered _ => .delivered
  | .failed _ => .failed
  | .dead_letter _ => .dead_letter
  | .retrying _ _ => .retrying

namespace Notification

/-- The save that claims the row, with the count of the run's own copy. -/
def claim (n : Notification) (attempts now : ℕ) : Notification :=
  { n with status := .processing, attempts := attempts, updated_at := now }

/-- The save of what a run settled on. -/
def record (n : Notification) (outcome : Outcome) (now : ℕ) : Notification :=
  match outcome with
  | .delivered message_id =>
      { n with
        status := .delivered
        sent_at := some now
        last_error := ""
        telegram_message_id := message_id
        updated_at := now }
  | .failed error => { n with status := .failed, last_error := error, updated_at := now }
  | .dead_letter error => { n with status := .dead_letter, last_error := error, updated_at := now }
  | .retrying error delay =>
      { n with
        status := .retrying
        available_at := some (now + delay)
        last_error := error
        updated_at := now }

/-- The update of `recover_stuck_notifications`; `updated_at` is not among its columns. -/
def recover (n : Notification) (now : ℕ) : Notification :=
  { n with status := .retrying, available_at := some now }

/-- `TrackingService.mark_read`; `updated_at` is not among its columns. -/
def mark_read (n : Notification) (now : ℕ) : Notification :=
  { n with read_at := some now, status := .opened }

/-- The filter of `recover_stuck_notifications`. -/
def stuck (n : Notification) (now : ℕ) : Bool :=
  n.channel = .telegram ∧ n.status = .processing ∧ n.updated_at + 600 * second < now

@[simp] theorem record_status (n : Notification) (o : Outcome) (now : ℕ) :
    (n.record o now).status = o.status := by
  cases o with
  | delivered message_id => rfl
  | failed error => rfl
  | dead_letter error => rfl
  | retrying error delay => rfl

@[simp] theorem record_attempts (n : Notification) (o : Outcome) (now : ℕ) :
    (n.record o now).attempts = n.attempts := by
  cases o with
  | delivered message_id => rfl
  | failed error => rfl
  | dead_letter error => rfl
  | retrying error delay => rfl

@[simp] theorem record_channel (n : Notification) (o : Outcome) (now : ℕ) :
    (n.record o now).channel = n.channel := by
  cases o with
  | delivered message_id => rfl
  | failed error => rfl
  | dead_letter error => rfl
  | retrying error delay => rfl

@[simp] theorem record_id (n : Notification) (o : Outcome) (now : ℕ) :
    (n.record o now).id = n.id := by
  cases o with
  | delivered message_id => rfl
  | failed error => rfl
  | dead_letter error => rfl
  | retrying error delay => rfl

end Notification

/-- `DeliveryLog.objects.create(...)` of the claim. -/
def DeliveryLog.sending (attempts : ℕ) : DeliveryLog where
  status := .sending
  attempts := attempts
  error := ""
  sent_at := none
  delivered_at := none

/-- The log's save of what a run settled on. -/
def DeliveryLog.record (log : DeliveryLog) (outcome : Outcome) (now : ℕ) : DeliveryLog :=
  match outcome with
  | .delivered _ =>
      { log with status := .delivered, delivered_at := some now, sent_at := some now, error := "" }
  | .failed error => { log with status := .failed, error := error }
  | .dead_letter error => { log with status := .dead_letter, error := error }
  | .retrying error _ => { log with status := .retrying, error := error }

end AlgoBot.Notifications
