import AlgoBot.Core.Machine
import AlgoBot.Core.Table
import AlgoBot.Notifications.Models

/-!
# The queue of deliveries and the notifications nobody comes back to

Notifications are published, their tasks run when the queue hands them out, and
`recover_stuck_notifications` picks up what stays in `processing`. A task never
runs before its countdown is over; everything else about the clock is free.

A retry stores its due time to the microsecond but counts down whole seconds.
A task that finds its row not yet due returns without queueing another, and no
recovery looks at a row that is `retrying`.

* `none_stranded_iff`: every open telegram notification is tended in every state
  of a run exactly if the run begins that way and each of its steps hands it on.
* `forgotten_stays`: a notification nobody comes back to stays as it is for good.
* `early_strands`: a task that comes a fraction of a second early is the end of it.
-/

namespace AlgoBot.Notifications.Queue

open AlgoBot.Core

/-! ## Model -/

instance : HasPk Notification := ⟨Notification.id⟩

/-- A message of the queue: what to deliver, and the time before which it does not run. -/
structure Task where
  notification : ℕ
  eta : ℕ
  deriving DecidableEq, Repr

structure State where
  now : ℕ
  rows : Table Notification
  queue : List Task
  /-- The runs of the recovery: the ids each has selected and not come to yet. -/
  recoveries : List (List ℕ)

/-- The settings. -/
structure Config where
  use_celery : Bool
  max_attempts : ℕ

/-- What a run of `deliver_notification` meets: the clock each time it is read, the channel, the
random source and the queue. -/
structure Delivery where
  checked : ℕ
  claimed : ℕ
  settled : ℕ
  published : ℕ
  configured : Bool
  connection : Option String
  answers : ℕ → Answer
  jitter : ℕ
  /-- The worker is lost after the claim. -/
  lost : Bool
  /-- The queue takes the retry. -/
  queued : Bool

inductive Action
  | wait (now : ℕ)
  /-- `publish` on one channel; `sent` is the send made at once where no task is queued. -/
  | publish (title message : String) (channel : Channel) (created published : ℕ) (queued : Bool)
      (sent : Except Failure String)
  /-- The task at this place of the queue runs. -/
  | deliver (place : ℕ) (d : Delivery)
  /-- A recovery selects. -/
  | select (now : ℕ)
  /-- A recovery comes to the next of its ids. -/
  | recover (place updated published : ℕ) (queued : Bool)

/-- `send_telegram`, up to what it returns or raises. -/
def send (d : Delivery) : Except Failure String :=
  match connect d.configured d.connection with
  | .error failure => .error failure
  | .ok _ => api_call d.answers 0 (retries - 1)

/-- `DeliveryService.deliver`: any exception closes the row. -/
def deliverNow (n : Notification) (sent : Except Failure String) (now : ℕ) : Notification :=
  match sent with
  | .ok message_id => n.record (.delivered message_id) now
  | .error failure => n.record (.failed (errorText failure.error)) now

/-- Whether `publish` queues a task. -/
def byTask (c : Config) (channel : Channel) : Bool := channel = .telegram ∧ c.use_celery = true

/-- The row `publish` leaves, and the send it made where it queues no task. -/
def publishedRow (c : Config) (title message : String) (channel : Channel) (at0 at1 : ℕ)
    (sent : Except Failure String) (id : ℕ) : Notification :=
  if byTask c channel then created id title message channel at0
  else deliverNow (created id title message channel at0) sent at1

theorem publishedRow_id (c : Config) (title message : String) (channel : Channel) (at0 at1 : ℕ)
    (sent : Except Failure String) (id : ℕ) :
    (publishedRow c title message channel at0 at1 sent id).id = id := by
  unfold publishedRow
  split
  · rfl
  · cases sent with
    | ok message_id => rfl
    | error failure => rfl

/-- What a run that was not lost settles on. -/
def settles (c : Config) (n : Notification) (d : Delivery) : Outcome :=
  settle c.max_attempts (n.attempts + 1) d.jitter (send d)

/-- The task a retry queues. -/
def retryTask (n : Notification) (d : Delivery) : Outcome → List Task
  | .retrying _ delay =>
      if d.queued then [⟨n.id, d.published + countdown delay * second⟩] else []
  | _ => []

namespace State

/-- `publish` on one channel: the row, then its task or its send. -/
def publish (c : Config) (s : State) (title message : String) (channel : Channel) (at0 at1 : ℕ)
    (queued : Bool) (sent : Except Failure String) : State where
  now := at1
  rows := s.rows.create (publishedRow c title message channel at0 at1 sent)
    (publishedRow_id c title message channel at0 at1 sent)
  queue := s.queue ++ (if byTask c channel && queued then [⟨s.rows.nextPk, at1⟩] else [])
  recoveries := s.recoveries

/-- `deliver_notification` past its checks. -/
def attempt (c : Config) (s : State) (n : Notification) (d : Delivery) : State :=
  if d.lost then
    { s with now := d.claimed, rows := s.rows.set (n.claim (n.attempts + 1) d.claimed) }
  else
    { s with
      now := d.published
      rows := s.rows.set ((n.claim (n.attempts + 1) d.claimed).record (settles c n d) d.settled)
      queue := s.queue ++ retryTask n d (settles c n d) }

/-- `deliver_notification` on the notification of a task that was taken from the queue. -/
def deliver (c : Config) (s : State) (id : ℕ) (d : Delivery) : State :=
  match s.rows.get? id with
  | none => { s with now := d.checked }
  | some n =>
      if check n d.checked = .attempt then s.attempt c n d else { s with now := d.checked }

/-- `recover_stuck_notifications` on one id: the update of a row still `processing`, and a task. -/
def recover (s : State) (id updated published : ℕ) (queued : Bool) : State where
  now := published
  rows :=
    match s.rows.get? id with
    | none => s.rows
    | some n => if n.status = .processing then s.rows.set (n.recover updated) else s.rows
  queue := s.queue ++ (if queued then [⟨id, published⟩] else [])
  recoveries := s.recoveries

end State

/-- The clock is read in this order, and the random source keeps to its range. -/
def Delivery.Timely (d : Delivery) (s : State) (task : Task) : Prop :=
  task.eta ≤ d.checked ∧ s.now ≤ d.checked ∧ d.checked ≤ d.claimed ∧ d.claimed ≤ d.settled ∧
    d.settled ≤ d.published ∧
      ∀ n ∈ s.rows.get? task.notification, d.jitter ≤ jitterBound (n.attempts + 1)

instance (d : Delivery) (s : State) (task : Task) : Decidable (d.Timely s task) :=
  inferInstanceAs (Decidable (_ ∧ _ ∧ _ ∧ _ ∧ _ ∧ _))

def step (c : Config) (s : State) : Action → Option State
  | .wait now => if s.now ≤ now then some { s with now := now } else none
  | .publish title message channel at0 at1 queued sent =>
      if s.now ≤ at0 ∧ at0 ≤ at1 then
        some (s.publish c title message channel at0 at1 queued sent)
      else none
  | .deliver place d =>
      match s.queue[place]? with
      | some task =>
          if d.Timely s task then
            let taken : State := { s with queue := s.queue.eraseIdx place }
            some (taken.deliver c task.notification d)
          else none
      | none => none
  | .select now =>
      if s.now ≤ now then
        some { s with
          now := now
          recoveries := s.recoveries ++
            [((s.rows.rows.filter fun n => n.stuck now).take 500).map Notification.id] }
      else none
  | .recover place updated published queued =>
      match s.recoveries[place]? with
      | some (id :: ids) =>
          if s.now ≤ updated ∧ updated ≤ published then
            -- an exception ends the run of the recovery
            some (({ s with recoveries := s.recoveries.set place (if queued then ids else []) } :
              State).recover id updated published queued)
          else none
      | _ => none

/-- The notifications and the queue. -/
def deliveries (c : Config) : Machine State Action where
  next := step c

/-- Nothing published yet. -/
def empty : State := ⟨0, Table.empty, [], []⟩

/-! ## The claim -/

/-- The task is for this notification, and whenever it runs it attempts the delivery. -/
def WillAttempt (now : ℕ) (n : Notification) (task : Task) : Prop :=
  task.notification = n.id ∧ ∀ t, task.eta ≤ t → now ≤ t → check n t = .attempt

/-- An open telegram notification has a task that will attempt it, or a recovery selects it. -/
def Tended (s : State) (n : Notification) : Prop :=
  n.channel = .telegram → n.status.Terminal = false →
    (∃ task ∈ s.queue, WillAttempt s.now n task) ∨ n.stuck s.now = true

def NoneStranded (s : State) : Prop := ∀ n ∈ s.rows, Tended s n

/-- Tasks and recoveries are about notifications that are there. -/
structure WellFormed (s : State) : Prop where
  queue : ∀ task ∈ s.queue, (s.rows.get? task.notification).isSome = true
  recoveries : ∀ ids ∈ s.recoveries, ∀ id ∈ ids, (s.rows.get? id).isSome = true

/-- A step that leaves no notification behind. The first task is queued. A run that is lost after
its claim leaves another task for the notification. A retry is queued, and publishing it takes at
least the fraction of a second its countdown leaves out, or another task for the notification comes
at its due time or later. A recovery queues its task, or there is one. -/
def HandsOn (c : Config) (s : State) : Action → Prop
  | .publish _ _ channel _ _ queued _ => byTask c channel = true → queued = true
  | .deliver place d =>
      ∀ task ∈ s.queue[place]?, ∀ n ∈ s.rows.get? task.notification,
        check n d.checked = .attempt →
          if d.lost then ∃ other ∈ s.queue.eraseIdx place, other.notification = n.id
          else
            match settles c n d with
            | .retrying _ delay =>
                (d.queued = true ∧ delay % second ≤ d.published - d.settled) ∨
                  ∃ other ∈ s.queue.eraseIdx place, other.notification = n.id ∧
                    d.settled + delay ≤ max other.eta d.published
            | _ => True
  | .recover place _ _ queued =>
      ∀ ids ∈ s.recoveries[place]?, ∀ id ∈ ids.head?, ∀ n ∈ s.rows.get? id,
        n.channel = .telegram → n.status = .processing →
          queued = true ∨ ∃ other ∈ s.queue, other.notification = id
  | _ => True

/-! ## What tends to a notification -/

theorem willAttempt_iff {now : ℕ} {n : Notification} {task : Task}
    (hchannel : n.channel = .telegram) (hopen : n.status.Terminal = false) :
    WillAttempt now n task ↔
      task.notification = n.id ∧ ∀ due ∈ n.available_at, due ≤ max task.eta now := by
  have hstatus : n.status ≠ .delivered := by
    intro h
    rw [h] at hopen
    cases hopen
  unfold WillAttempt
  refine and_congr_right fun _ => ?_
  constructor
  · intro h due hdue
    have hat := h (max task.eta now) (le_max_left _ _) (le_max_right _ _)
    exact (check_eq_attempt.mp hat).2.2 due hdue
  · intro h t heta hnow
    refine check_eq_attempt.mpr ⟨hstatus, hchannel, ?_⟩
    intro due hdue
    exact (h due hdue).trans (max_le heta hnow)

theorem WillAttempt.later {now now' : ℕ} {n : Notification} {task : Task}
    (h : WillAttempt now n task) (hnow : now ≤ now') : WillAttempt now' n task :=
  ⟨h.1, fun t heta ht => h.2 t heta (hnow.trans ht)⟩

theorem stuck_later {n : Notification} {now now' : ℕ} (h : n.stuck now = true) (hnow : now ≤ now') :
    n.stuck now' = true := by
  simp only [Notification.stuck, decide_eq_true_eq] at h ⊢
  exact ⟨h.1, h.2.1, by omega⟩

/-- Time and more tasks leave a notification tended. -/
theorem Tended.mono {s s' : State} {n : Notification} (h : Tended s n)
    (hqueue : ∀ task ∈ s.queue, WillAttempt s.now n task → task ∈ s'.queue)
    (hnow : s.now ≤ s'.now) : Tended s' n := by
  intro hchannel hopen
  rcases h hchannel hopen with ⟨task, htask, hwill⟩ | hstuck
  · exact Or.inl ⟨task, hqueue task htask hwill, hwill.later hnow⟩
  · exact Or.inr (stuck_later hstuck hnow)

/-- A closed notification needs no tending. -/
theorem tended_of_closed {s : State} {n : Notification} (h : n.status.Terminal = true) :
    Tended s n := by
  intro _ hopen
  rw [h] at hopen
  cases hopen

/-! ## A task that runs -/

section Deliver

variable {c : Config} {s : State} {place : ℕ} {task : Task} {n : Notification} {d : Delivery}

theorem mem_eraseIdx_of_ne {other : Task} (hplace : s.queue[place]? = some task)
    (hother : other ∈ s.queue) (hne : other ≠ task) : other ∈ s.queue.eraseIdx place := by
  obtain ⟨i, hi⟩ := List.mem_iff_getElem?.mp hother
  refine List.mem_eraseIdx_iff_getElem?.mpr ⟨i, ?_, hi⟩
  rintro rfl
  exact hne (Option.some.inj (hi.symm.trans hplace))

/-- The task that runs is not the one that will attempt another notification, nor this one if it
does not attempt it now. -/
theorem rest_of_willAttempt (hplace : s.queue[place]? = some task) (htimely : d.Timely s task)
    {r : Notification} (hr : r.id = task.notification → check r d.checked ≠ .attempt)
    {other : Task} (hother : other ∈ s.queue) (hwill : WillAttempt s.now r other) :
    other ∈ s.queue.eraseIdx place := by
  refine mem_eraseIdx_of_ne hplace hother ?_
  rintro rfl
  exact hr hwill.1.symm (hwill.2 d.checked htimely.1 htimely.2.1)

/-- Rows the task is not about stay tended, whatever else becomes of the queue. -/
theorem Tended.rest {s' : State} {r : Notification} (h : Tended s r)
    (hplace : s.queue[place]? = some task) (htimely : d.Timely s task)
    (hr : r.id = task.notification → check r d.checked ≠ .attempt)
    (hqueue : ∀ other ∈ s.queue.eraseIdx place, other ∈ s'.queue) (hnow : d.checked ≤ s'.now) :
    Tended s' r := by
  refine h.mono ?_ (htimely.2.1.trans hnow)
  intro other hother hwill
  exact hqueue other (rest_of_willAttempt hplace htimely hr hother hwill)

/-- After a run that is lost only another task is left. -/
theorem tended_lost (htimely : d.Timely s task) (hcheck : check n d.checked = .attempt)
    {s' : State} (hnow : s'.now = d.claimed) :
    Tended s' (n.claim (n.attempts + 1) d.claimed) ↔
      ∃ other ∈ s'.queue, other.notification = n.id := by
  obtain ⟨-, hchannel, hdue⟩ := check_eq_attempt.mp hcheck
  have hstuck : (n.claim (n.attempts + 1) d.claimed).stuck s'.now = false := by
    simp [Notification.stuck, Notification.claim, hnow]
  constructor
  · intro h
    rcases h hchannel rfl with ⟨other, hother, hwill⟩ | hbad
    · exact ⟨other, hother, hwill.1⟩
    · rw [hstuck] at hbad
      cases hbad
  · rintro ⟨other, hother, hid⟩ _ _
    have hclaimed : (n.claim (n.attempts + 1) d.claimed).channel = .telegram := hchannel
    refine Or.inl ⟨other, hother, (willAttempt_iff hclaimed rfl).mpr ⟨hid, ?_⟩⟩
    intro due hmem
    have hle : due ≤ d.checked := hdue due hmem
    rw [hnow]
    exact (hle.trans htimely.2.2.1).trans (le_max_right _ _)

/-- After a retry: the task it queued if that comes late enough, or another that does. -/
theorem tended_retrying (htimely : d.Timely s task) (hcheck : check n d.checked = .attempt)
    {error : String} {delay : ℕ} (hsettles : settles c n d = .retrying error delay)
    {s' : State} (rest : List Task) (hnow : s'.now = d.published)
    (hqueue : s'.queue = rest ++ retryTask n d (.retrying error delay)) :
    Tended s' ((n.claim (n.attempts + 1) d.claimed).record (.retrying error delay) d.settled) ↔
      (d.queued = true ∧ delay % second ≤ d.published - d.settled) ∨
        ∃ other ∈ rest, other.notification = n.id ∧
          d.settled + delay ≤ max other.eta d.published := by
  obtain ⟨-, hchannel, -⟩ := check_eq_attempt.mp hcheck
  obtain rfl := settle_retrying hsettles
  have hle : d.settled ≤ d.published := htimely.2.2.2.2.1
  -- the countdown is the delay without its fraction of a second
  have hcover : d.settled + retry_delay (n.attempts + 1) d.jitter ≤
      max (d.published + countdown (retry_delay (n.attempts + 1) d.jitter) * second) d.published ↔
      retry_delay (n.attempts + 1) d.jitter % second ≤ d.published - d.settled := by
    have hsum := countdown_add_mod (n.attempts + 1) d.jitter
    omega
  have hwill : ∀ other : Task,
      WillAttempt s'.now ((n.claim (n.attempts + 1) d.claimed).record
        (.retrying error (retry_delay (n.attempts + 1) d.jitter)) d.settled) other ↔
      other.notification = n.id ∧ d.settled + retry_delay (n.attempts + 1) d.jitter ≤
        max other.eta d.published := by
    intro other
    have hretried : ((n.claim (n.attempts + 1) d.claimed).record
        (.retrying error (retry_delay (n.attempts + 1) d.jitter)) d.settled).channel =
        .telegram := hchannel
    rw [willAttempt_iff hretried rfl, hnow]
    simp [Notification.record, Notification.claim]
  constructor
  · intro h
    rcases h hchannel rfl with ⟨other, hother, hattempts⟩ | hbad
    · rw [hwill] at hattempts
      rw [hqueue] at hother
      rcases List.mem_append.mp hother with hrest | hretry
      · exact Or.inr ⟨other, hrest, hattempts⟩
      · simp only [retryTask] at hretry
        split at hretry
        · next hqueued =>
          rw [List.mem_singleton.mp hretry] at hattempts
          exact Or.inl ⟨hqueued, hcover.mp hattempts.2⟩
        · cases hretry
    · simp [Notification.stuck, Notification.record] at hbad
  · rintro (⟨hqueued, hfraction⟩ | ⟨other, hother, hattempts⟩) _ _
    · let retry : Task :=
        ⟨n.id, d.published + countdown (retry_delay (n.attempts + 1) d.jitter) * second⟩
      refine Or.inl ⟨retry, ?_, (hwill retry).mpr ⟨rfl, hcover.mpr hfraction⟩⟩
      rw [hqueue, retryTask, if_pos hqueued]
      exact List.mem_append_right _ (List.mem_singleton.mpr rfl)
    · refine Or.inl ⟨other, ?_, (hwill other).mpr hattempts⟩
      rw [hqueue]
      exact List.mem_append_left _ hother

/-- A task that runs leaves no notification behind exactly if it hands its own on. -/
theorem noneStranded_deliver (h : NoneStranded s) (hplace : s.queue[place]? = some task)
    (htimely : d.Timely s task) :
    NoneStranded (({ s with queue := s.queue.eraseIdx place } : State).deliver c
      task.notification d) ↔ HandsOn c s (.deliver place d) := by
  have hrest : ∀ (s' : State) (r : Notification), r ∈ s.rows →
      (r.id = task.notification → check r d.checked ≠ .attempt) →
      (∀ other ∈ s.queue.eraseIdx place, other ∈ s'.queue) → d.checked ≤ s'.now →
      Tended s' r := fun s' r hr hid hqueue hnow => (h r hr).rest hplace htimely hid hqueue hnow
  cases hget : s.rows.get? task.notification with
  | none =>
    constructor
    · intro _ task' htask' n hn
      obtain rfl : task = task' := Option.some.inj (hplace.symm.trans htask')
      rw [hget] at hn
      cases hn
    · intro _ r hr
      simp only [State.deliver, hget] at hr ⊢
      refine hrest _ r hr ?_ (fun _ hother => hother) le_rfl
      intro hid
      have hsome := Table.get?_pk hr
      rw [show HasPk.pk r = task.notification from hid, hget] at hsome
      cases hsome
  | some n =>
    obtain ⟨hmem, hid⟩ := Table.get?_eq_some.mp hget
    have hhands : HandsOn c s (.deliver place d) ↔ (check n d.checked = .attempt →
        if d.lost then ∃ other ∈ s.queue.eraseIdx place, other.notification = n.id
        else
          match settles c n d with
          | .retrying _ delay =>
              (d.queued = true ∧ delay % second ≤ d.published - d.settled) ∨
                ∃ other ∈ s.queue.eraseIdx place, other.notification = n.id ∧
                  d.settled + delay ≤ max other.eta d.published
          | _ => True) := by
      simp [HandsOn, hplace, hget]
    rw [hhands]
    by_cases hcheck : check n d.checked = .attempt
    · have hothers : ∀ (s' : State) (n' : Notification), n'.id = n.id →
          s'.rows = s.rows.set n' →
          (∀ other ∈ s.queue.eraseIdx place, other ∈ s'.queue) → d.checked ≤ s'.now →
          (NoneStranded s' ↔ Tended s' n') := by
        intro s' n' hn' hrows hqueue hnow
        unfold NoneStranded
        rw [hrows]
        refine Table.forall_mem_set hmem hn'.symm ?_
        intro r hr hne
        refine hrest s' r hr ?_ hqueue hnow
        intro hrid
        exact absurd (hrid.trans (hid.symm.trans hn'.symm)) hne
      simp only [State.deliver, hget, hcheck, if_true, true_implies]
      cases hlost : d.lost with
      | true =>
        simp only [State.attempt, hlost, if_true]
        exact (hothers _ (n.claim (n.attempts + 1) d.claimed) rfl rfl (fun _ hother => hother)
          htimely.2.2.1).trans (tended_lost htimely hcheck rfl)
      | false =>
        simp only [State.attempt, hlost, Bool.false_eq_true, if_false]
        have hlate : d.checked ≤ d.published :=
          (htimely.2.2.1.trans htimely.2.2.2.1).trans htimely.2.2.2.2.1
        refine (hothers _ ((n.claim (n.attempts + 1) d.claimed).record (settles c n d) d.settled)
          (Notification.record_id _ _ _) rfl (fun _ hother => List.mem_append_left _ hother)
          hlate).trans ?_
        cases hsettles : settles c n d with
        | delivered message_id => exact iff_of_true (tended_of_closed rfl) trivial
        | failed error => exact iff_of_true (tended_of_closed rfl) trivial
        | dead_letter error => exact iff_of_true (tended_of_closed rfl) trivial
        | retrying error delay =>
          exact tended_retrying htimely hcheck hsettles (s.queue.eraseIdx place) rfl rfl
    · refine iff_of_true ?_ fun hattempt => absurd hattempt hcheck
      intro r hr
      simp only [State.deliver, hget, if_neg hcheck] at hr ⊢
      refine hrest _ r hr ?_ (fun _ hother => hother) le_rfl
      intro hrid
      have hsame : r = n := Table.eq_of_pk_eq hr hmem (hrid.trans hid.symm)
      rw [hsame]
      exact hcheck

end Deliver

/-! ## Publishing and recovering -/

section Rows

variable {c : Config} {s s' : State}

/-- Rows as they were stay tended while the queue only grows. -/
theorem NoneStranded.grow (h : NoneStranded s) (hrows : s'.rows = s.rows)
    (hqueue : ∀ task ∈ s.queue, task ∈ s'.queue) (hnow : s.now ≤ s'.now) : NoneStranded s' := by
  intro r hr
  rw [hrows] at hr
  exact (h r hr).mono (fun task htask _ => hqueue task htask) hnow

/-- A published notification is tended if its task was queued. -/
theorem noneStranded_publish (h : NoneStranded s) (hwf : WellFormed s) {title message : String}
    {channel : Channel} {at0 at1 : ℕ} {queued : Bool} {sent : Except Failure String}
    (hnow : s.now ≤ at0) (hat : at0 ≤ at1) :
    NoneStranded (s.publish c title message channel at0 at1 queued sent) ↔
      HandsOn c s (.publish title message channel at0 at1 queued sent) := by
  -- the new row is the only one to look at
  have hnew : NoneStranded (s.publish c title message channel at0 at1 queued sent) ↔
      Tended (s.publish c title message channel at0 at1 queued sent)
        (publishedRow c title message channel at0 at1 sent s.rows.nextPk) := by
    refine ⟨fun hall => hall _ List.mem_cons_self, fun hrow r hr => ?_⟩
    rcases List.mem_cons.mp hr with rfl | hold
    · exact hrow
    · exact (h r hold).mono (fun task htask _ => List.mem_append_left _ htask) (hnow.trans hat)
  refine hnew.trans ?_
  simp only [HandsOn]
  cases hby : byTask c channel with
  | false =>
    refine iff_of_true (tended_of_closed ?_) fun hno => absurd hno Bool.false_ne_true
    rw [publishedRow, hby]
    cases sent with
    | ok message_id => rfl
    | error failure => rfl
  | true =>
    have hchannel : channel = .telegram := by
      simp only [byTask, decide_eq_true_eq] at hby
      exact hby.1
    rw [hchannel] at hby ⊢
    have hrow : publishedRow c title message .telegram at0 at1 sent s.rows.nextPk =
        created s.rows.nextPk title message .telegram at0 := by
      rw [publishedRow, hby, if_pos rfl]
    rw [hrow]
    have hwill : ∀ task : Task, WillAttempt at1 (created s.rows.nextPk title message .telegram at0)
        task ↔ task.notification = s.rows.nextPk := by
      intro task
      rw [willAttempt_iff rfl rfl]
      have hdue : at0 ≤ max task.eta at1 := hat.trans (le_max_right _ _)
      simpa [created] using fun _ => hdue
    cases queued with
    | false =>
      refine iff_of_false ?_ fun hno => absurd (hno rfl) Bool.false_ne_true
      intro htended
      rcases htended rfl rfl with ⟨task, htask, hattempts⟩ | hstuck
      · -- no task is about a notification that was not there
        have hid := (hwill task).mp hattempts
        have hold : task ∈ s.queue := by simpa [State.publish] using htask
        have hknown := hwf.queue task hold
        rw [hid, Table.get?_nextPk] at hknown
        cases hknown
      · simp [Notification.stuck, created] at hstuck
    | true =>
      refine iff_of_true ?_ fun _ => rfl
      intro _ _
      refine Or.inl ⟨⟨s.rows.nextPk, at1⟩, ?_, (hwill _).mpr rfl⟩
      simp [State.publish, hby]

/-- A recovered notification is tended if a task was queued or there is one. -/
theorem noneStranded_recover (h : NoneStranded s) {place id updated published : ℕ} {ids : List ℕ}
    {queued : Bool} {recoveries : List (List ℕ)} (hplace : s.recoveries[place]? = some (id :: ids))
    (hnow : s.now ≤ updated) (hpub : updated ≤ published) :
    NoneStranded (({ s with recoveries := recoveries } : State).recover id updated published
      queued) ↔ HandsOn c s (.recover place updated published queued) := by
  have hgrow : ∀ task ∈ s.queue,
      task ∈ s.queue ++ (if queued then [⟨id, published⟩] else []) :=
    fun task htask => List.mem_append_left _ htask
  cases hget : s.rows.get? id with
  | none =>
    refine iff_of_true ?_ (by simp [HandsOn, hplace, hget])
    exact h.grow (by simp [State.recover, hget]) hgrow (hnow.trans hpub)
  | some n =>
    obtain ⟨hmem, hid⟩ := Table.get?_eq_some.mp hget
    have hhands : HandsOn c s (.recover place updated published queued) ↔
        (n.channel = .telegram → n.status = .processing →
          queued = true ∨ ∃ other ∈ s.queue, other.notification = id) := by
      simp [HandsOn, hplace, hget]
    rw [hhands]
    by_cases hstatus : n.status = .processing
    · have hrow : NoneStranded (({ s with recoveries := recoveries } : State).recover id updated
          published queued) ↔ Tended (({ s with recoveries := recoveries } : State).recover id
            updated published queued) (n.recover updated) := by
        unfold NoneStranded
        simp only [State.recover, hget, if_pos hstatus]
        refine Table.forall_mem_set hmem rfl ?_
        intro r hr _
        exact (h r hr).mono (fun task htask _ => hgrow task htask) (hnow.trans hpub)
      refine hrow.trans ?_
      have hwill : n.channel = .telegram → ∀ task : Task,
          WillAttempt published (n.recover updated) task ↔ task.notification = id := by
        intro hchannel task
        rw [← show (n.recover updated).id = id from hid]
        have hrecovered : (n.recover updated).channel = .telegram := hchannel
        rw [willAttempt_iff hrecovered rfl]
        have hdue : updated ≤ max task.eta published := hpub.trans (le_max_right _ _)
        simpa [Notification.recover] using fun _ => hdue
      constructor
      · intro htended hchannel _
        rcases htended hchannel rfl with ⟨task, htask, hattempts⟩ | hstuck
        · have htid := (hwill hchannel task).mp hattempts
          rcases List.mem_append.mp htask with hold | hnew
          · exact Or.inr ⟨task, hold, htid⟩
          · cases queued with
            | true => exact Or.inl rfl
            | false => cases hnew
        · simp [Notification.stuck, Notification.recover] at hstuck
      · intro hhand hchannel _
        rcases hhand hchannel hstatus with hqueued | ⟨task, htask, htid⟩
        · refine Or.inl ⟨⟨id, published⟩, ?_, (hwill hchannel _).mpr rfl⟩
          simp [State.recover, hqueued]
        · exact Or.inl ⟨task, hgrow task htask, (hwill hchannel task).mpr htid⟩
    · refine iff_of_true ?_ fun _ hyes => absurd hyes hstatus
      exact h.grow (by simp [State.recover, hget, hstatus]) hgrow (hnow.trans hpub)

end Rows

/-! ## Runs -/

section Runs

variable {c : Config} {s s' t : State} {as : List Action}

theorem isSome_set (rows : Table Notification) (n : Notification) (k : ℕ) :
    ((rows.set n).get? k).isSome = (rows.get? k).isSome := by
  rw [Table.get?_set, Option.isSome_map]

/-- Rows are never deleted, and what is added to the queue or a recovery is about one of them. -/
theorem WellFormed.mono (h : WellFormed s)
    (hrows : ∀ k, (s.rows.get? k).isSome = true → (s'.rows.get? k).isSome = true)
    (hqueue : ∀ task ∈ s'.queue, task ∈ s.queue ∨ (s'.rows.get? task.notification).isSome = true)
    (hrec : ∀ ids ∈ s'.recoveries, ∀ id ∈ ids,
      (∃ old ∈ s.recoveries, id ∈ old) ∨ (s'.rows.get? id).isSome = true) : WellFormed s' where
  queue := by
    intro task htask
    rcases hqueue task htask with hold | hnew
    · exact hrows _ (h.queue task hold)
    · exact hnew
  recoveries := by
    intro ids hids id hid
    rcases hrec ids hids id hid with ⟨old, hold, hmem⟩ | hnew
    · exact hrows _ (h.recoveries old hold id hmem)
    · exact hnew

theorem wellFormed_publish (h : WellFormed s) (title message : String) (channel : Channel)
    (at0 at1 : ℕ) (queued : Bool) (sent : Except Failure String) :
    WellFormed (s.publish c title message channel at0 at1 queued sent) := by
  refine h.mono ?_ ?_ fun ids hids id hid => Or.inl ⟨ids, hids, hid⟩
  · intro k hk
    obtain ⟨n, hn⟩ := Option.isSome_iff_exists.mp hk
    have hkeep := Table.get?_create_of_some
      (publishedRow_id c title message channel at0 at1 sent) hn
    exact Option.isSome_iff_exists.mpr ⟨n, hkeep⟩
  · intro task htask
    rcases List.mem_append.mp htask with hold | hnew
    · exact Or.inl hold
    · split at hnew
      · rw [List.mem_singleton.mp hnew]
        exact Or.inr (by simp [State.publish, Table.get?_create_self])
      · cases hnew

theorem wellFormed_deliver (h : WellFormed s) (id : ℕ) (d : Delivery) :
    WellFormed (s.deliver c id d) := by
  cases hget : s.rows.get? id with
  | none =>
    simp only [State.deliver, hget]
    exact h.mono (fun k hk => hk) (fun task htask => Or.inl htask)
      fun ids hids id hid => Or.inl ⟨ids, hids, hid⟩
  | some n =>
    obtain ⟨hmem, hid⟩ := Table.get?_eq_some.mp hget
    simp only [State.deliver, hget]
    split
    · simp only [State.attempt]
      split
      · refine h.mono ?_ (fun task htask => Or.inl htask)
          fun ids hids id hid => Or.inl ⟨ids, hids, hid⟩
        intro k hk
        rwa [isSome_set]
      · refine h.mono ?_ ?_ fun ids hids id hid => Or.inl ⟨ids, hids, hid⟩
        · intro k hk
          rwa [isSome_set]
        · intro task htask
          rcases List.mem_append.mp htask with hold | hnew
          · exact Or.inl hold
          · refine Or.inr ?_
            have htid : task.notification = n.id := by
              unfold retryTask at hnew
              split at hnew
              · split at hnew
                · rw [List.mem_singleton.mp hnew]
                · cases hnew
              · cases hnew
            rw [isSome_set, htid]
            exact Option.isSome_iff_exists.mpr ⟨n, Table.get?_pk hmem⟩
    · exact h.mono (fun k hk => hk) (fun task htask => Or.inl htask)
        fun ids hids id hid => Or.inl ⟨ids, hids, hid⟩

theorem wellFormed_recover (h : WellFormed s) {id updated published : ℕ} {queued : Bool}
    (hid : (s.rows.get? id).isSome = true) :
    WellFormed (s.recover id updated published queued) := by
  have hrows : ∀ k, (s.rows.get? k).isSome = true →
      ((s.recover id updated published queued).rows.get? k).isSome = true := by
    intro k hk
    simp only [State.recover]
    split
    · exact hk
    · split
      · rwa [isSome_set]
      · exact hk
  refine h.mono hrows ?_ fun ids hids id hid => Or.inl ⟨ids, hids, hid⟩
  intro task htask
  rcases List.mem_append.mp htask with hold | hnew
  · exact Or.inl hold
  · split at hnew
    · rw [List.mem_singleton.mp hnew]
      exact Or.inr (hrows id hid)
    · cases hnew

/-- One step: the records stay well formed, and no notification is left behind exactly if the step
hands it on. -/
theorem step_spec (hwf : WellFormed s) {a : Action} (hstep : step c s a = some s') :
    WellFormed s' ∧ (NoneStranded s → (NoneStranded s' ↔ HandsOn c s a)) := by
  cases a with
  | wait now =>
    have hs := Option.ite_none_right_eq_some.mp hstep
    obtain rfl := Option.some.inj hs.2
    refine ⟨⟨hwf.queue, hwf.recoveries⟩, fun h => iff_of_true ?_ trivial⟩
    exact h.grow rfl (fun task htask => htask) hs.1
  | publish title message channel at0 at1 queued sent =>
    have hs := Option.ite_none_right_eq_some.mp hstep
    obtain rfl := Option.some.inj hs.2
    exact ⟨wellFormed_publish hwf _ _ _ _ _ _ _,
      fun h => noneStranded_publish h hwf hs.1.1 hs.1.2⟩
  | deliver place d =>
    simp only [step] at hstep
    split at hstep
    · next task hplace =>
      have hs := Option.ite_none_right_eq_some.mp hstep
      obtain rfl := Option.some.inj hs.2
      refine ⟨wellFormed_deliver ?_ _ _, fun h => noneStranded_deliver h hplace hs.1⟩
      exact ⟨fun other hother => hwf.queue other (List.mem_of_mem_eraseIdx hother), hwf.recoveries⟩
    · cases hstep
  | select now =>
    have hs := Option.ite_none_right_eq_some.mp hstep
    obtain rfl := Option.some.inj hs.2
    refine ⟨hwf.mono (fun k hk => hk) (fun task htask => Or.inl htask) ?_,
      fun h => iff_of_true (h.grow rfl (fun task htask => htask) hs.1) trivial⟩
    intro ids hids id hid
    rcases List.mem_append.mp hids with hold | hnew
    · exact Or.inl ⟨ids, hold, hid⟩
    · rw [List.mem_singleton.mp hnew] at hid
      obtain ⟨n, hn, rfl⟩ := List.mem_map.mp hid
      have hmem : n ∈ s.rows := (List.mem_filter.mp (List.mem_of_mem_take hn)).1
      exact Or.inr (Option.isSome_iff_exists.mpr ⟨n, Table.get?_pk hmem⟩)
  | recover place updated published queued =>
    simp only [step] at hstep
    split at hstep
    · next id ids hplace =>
      have hs := Option.ite_none_right_eq_some.mp hstep
      obtain rfl := Option.some.inj hs.2
      have hmem : (id :: ids) ∈ s.recoveries := List.mem_of_getElem? hplace
      refine ⟨wellFormed_recover ?_ (hwf.recoveries _ hmem id List.mem_cons_self),
        fun h => noneStranded_recover h hplace hs.1.1 hs.1.2⟩
      refine hwf.mono (fun k hk => hk) (fun task htask => Or.inl htask) ?_
      intro jds hjds jd hjd
      rcases List.mem_or_eq_of_mem_set hjds with hold | rfl
      · exact Or.inl ⟨jds, hold, hjd⟩
      · split at hjd
        · exact Or.inl ⟨id :: ids, hmem, List.mem_cons_of_mem _ hjd⟩
        · cases hjd
    · cases hstep

/-- No notification is ever left behind exactly if none is at the start and each step hands its own
on. -/
theorem none_stranded_iff (hrun : (deliveries c).Run s as t) (hwf : WellFormed s) :
    Machine.RunIf.Always (deliveries c) NoneStranded s as ↔
      NoneStranded s ∧ (deliveries c).RunIf (HandsOn c) s as t := by
  have hinv : ∀ s a s', WellFormed s → (deliveries c).next s a = some s' → WellFormed s' := by
    intro s a s' hs hn
    exact (step_spec hs hn).1
  have hstep : ∀ s a s', WellFormed s → NoneStranded s → (deliveries c).next s a = some s' →
      (NoneStranded s' ↔ HandsOn c s a) := by
    intro s a s' hs hp hn
    exact (step_spec hs hn).2 hp
  exact Machine.RunIf.always_iff hinv hstep hrun hwf

/-! ## A notification nobody comes back to -/

/-- Nothing in the queue or in a recovery is about the notification, and no recovery will be. -/
structure Forgotten (n : Notification) (s : State) : Prop where
  row : s.rows.get? n.id = some n
  status : n.status ≠ .processing
  queue : ∀ task ∈ s.queue, task.notification ≠ n.id
  recoveries : ∀ ids ∈ s.recoveries, n.id ∉ ids

theorem forgotten_publish {n : Notification} (h : Forgotten n s) (title message : String)
    (channel : Channel) (at0 at1 : ℕ) (queued : Bool) (sent : Except Failure String) :
    Forgotten n (s.publish c title message channel at0 at1 queued sent) where
  row := Table.get?_create_of_some (publishedRow_id c title message channel at0 at1 sent) h.row
  status := h.status
  queue := by
    intro task htask
    rcases List.mem_append.mp htask with hold | hnew
    · exact h.queue task hold
    · split at hnew
      · rw [List.mem_singleton.mp hnew]
        intro hid
        have hrow := h.row
        rw [← hid, Table.get?_nextPk] at hrow
        cases hrow
      · cases hnew
  recoveries := h.recoveries

theorem forgotten_deliver {n : Notification} (h : Forgotten n s) {id : ℕ} (hne : id ≠ n.id)
    (d : Delivery) : Forgotten n (s.deliver c id d) := by
  cases hget : s.rows.get? id with
  | none =>
    simp only [State.deliver, hget]
    exact ⟨h.row, h.status, h.queue, h.recoveries⟩
  | some m =>
    have hid : m.id = id := Table.pk_of_get? hget
    have hother : ∀ m' : Notification, m'.id = m.id → (s.rows.set m').get? n.id = some n := by
      intro m' hm'
      have hne' : n.id ≠ HasPk.pk m' := by
        intro heq
        exact hne (hid.symm.trans (hm'.symm.trans heq.symm))
      rw [Table.get?_set_ne hne']
      exact h.row
    simp only [State.deliver, hget]
    split
    · simp only [State.attempt]
      split
      · exact ⟨hother _ rfl, h.status, h.queue, h.recoveries⟩
      · refine ⟨hother _ (Notification.record_id _ _ _), h.status, ?_, h.recoveries⟩
        intro task htask
        rcases List.mem_append.mp htask with hold | hnew
        · exact h.queue task hold
        · unfold retryTask at hnew
          split at hnew
          · split at hnew
            · rw [List.mem_singleton.mp hnew]
              exact fun heq => hne (hid.symm.trans heq)
            · cases hnew
          · cases hnew
    · exact ⟨h.row, h.status, h.queue, h.recoveries⟩

theorem forgotten_recover {n : Notification} (h : Forgotten n s) {id : ℕ} (hne : id ≠ n.id)
    (updated published : ℕ) (queued : Bool) :
    Forgotten n (s.recover id updated published queued) where
  row := by
    simp only [State.recover]
    split
    · exact h.row
    · next m hget =>
      split
      · have hid : m.id = id := Table.pk_of_get? hget
        have hne' : n.id ≠ HasPk.pk (m.recover updated) := fun heq => hne (hid.symm.trans heq.symm)
        rw [Table.get?_set_ne hne']
        exact h.row
      · exact h.row
  status := h.status
  queue := by
    intro task htask
    rcases List.mem_append.mp htask with hold | hnew
    · exact h.queue task hold
    · split at hnew
      · rw [List.mem_singleton.mp hnew]
        exact hne
      · cases hnew
  recoveries := h.recoveries

theorem forgotten_step {n : Notification} (h : Forgotten n s) {a : Action}
    (hstep : step c s a = some s') : Forgotten n s' := by
  cases a with
  | wait now =>
    have hs := Option.ite_none_right_eq_some.mp hstep
    obtain rfl := Option.some.inj hs.2
    exact ⟨h.row, h.status, h.queue, h.recoveries⟩
  | publish title message channel at0 at1 queued sent =>
    have hs := Option.ite_none_right_eq_some.mp hstep
    obtain rfl := Option.some.inj hs.2
    exact forgotten_publish h _ _ _ _ _ _ _
  | deliver place d =>
    simp only [step] at hstep
    split at hstep
    · next task hplace =>
      have hs := Option.ite_none_right_eq_some.mp hstep
      obtain rfl := Option.some.inj hs.2
      have htaken : Forgotten n { s with queue := s.queue.eraseIdx place } :=
        ⟨h.row, h.status, fun other hother => h.queue other (List.mem_of_mem_eraseIdx hother),
          h.recoveries⟩
      exact forgotten_deliver htaken (h.queue task (List.mem_of_getElem? hplace)) d
    · cases hstep
  | select now =>
    have hs := Option.ite_none_right_eq_some.mp hstep
    obtain rfl := Option.some.inj hs.2
    refine ⟨h.row, h.status, h.queue, ?_⟩
    intro ids hids
    rcases List.mem_append.mp hids with hold | hnew
    · exact h.recoveries ids hold
    · rw [List.mem_singleton.mp hnew]
      intro hid
      obtain ⟨m, hm, hmid⟩ := List.mem_map.mp hid
      obtain ⟨hmem, hstuck⟩ := List.mem_filter.mp (List.mem_of_mem_take hm)
      have hsame : m = n := Table.eq_of_pk_eq hmem (Table.get?_eq_some.mp h.row).1 hmid
      rw [hsame] at hstuck
      simp only [Notification.stuck, decide_eq_true_eq] at hstuck
      exact h.status hstuck.2.1
  | recover place updated published queued =>
    simp only [step] at hstep
    split at hstep
    · next id ids hplace =>
      have hs := Option.ite_none_right_eq_some.mp hstep
      obtain rfl := Option.some.inj hs.2
      have hids := h.recoveries _ (List.mem_of_getElem? hplace)
      have hne : id ≠ n.id := by
        rintro rfl
        exact hids List.mem_cons_self
      have htaken : Forgotten n { s with
          recoveries := s.recoveries.set place (if queued then ids else []) } := by
        refine ⟨h.row, h.status, h.queue, ?_⟩
        intro jds hjds hjd
        rcases List.mem_or_eq_of_mem_set hjds with hold | rfl
        · exact h.recoveries jds hold hjd
        · split at hjd
          · exact hids (List.mem_cons_of_mem _ hjd)
          · cases hjd
      exact forgotten_recover htaken hne updated published queued
    · cases hstep

/-- A notification nobody comes back to stays as it is for good. -/
theorem forgotten_stays {n : Notification} (hrun : (deliveries c).Run s as t)
    (h : Forgotten n s) : Forgotten n t := by
  have hstep : ∀ s a s', True → Forgotten n s → (deliveries c).next s a = some s' →
      Forgotten n s' := fun s a s' _ hs hn => forgotten_step hs hn
  exact hrun.invariant hstep h

end Runs

/-! ## A task that comes too early -/

/-- A run of the task with three server errors, whose clock moves by a millisecond. -/
def refused (now jitter : ℕ) : Delivery where
  checked := now
  claimed := now
  settled := now + 1000
  published := now + 2000
  configured := true
  connection := some "888"
  answers := fun _ => ⟨false, .ok ⟨503, false, none, none, none, none⟩⟩
  jitter := jitter
  lost := false
  queued := true

/-- The first attempt fails and is due again 2.4 seconds later; its task comes after two. -/
def early : List Action :=
  [.publish "Trade" "Executed" .telegram 0 0 true (.ok ""), .deliver 0 (refused 0 400000),
    .deliver 0 (refused 2002000 0)]

/-- The same with a delay of whole seconds: the second attempt is made. -/
def punctual : List Action :=
  [.publish "Trade" "Executed" .telegram 0 0 true (.ok ""), .deliver 0 (refused 0 0),
    .deliver 0 (refused 2002000 0)]

theorem early_strands :
    ¬ Machine.RunIf.Always (deliveries ⟨true, 6⟩) NoneStranded empty early := by
  intro halways
  have hexec : ((deliveries ⟨true, 6⟩).exec empty early).any (fun t =>
      t.queue.isEmpty && t.rows.rows.any fun n =>
        n.channel = .telegram ∧ n.status.Terminal = false ∧ n.stuck t.now = false) = true := by
    decide +kernel
  obtain ⟨t, ht, hbad⟩ := (Option.any_eq_true _ _).mp hexec
  obtain ⟨hempty, hrow⟩ := Bool.and_eq_true_iff.mp hbad
  obtain ⟨n, hn, hopen⟩ := List.any_eq_true.mp hrow
  obtain ⟨hchannel, hstatus, hstuck⟩ := of_decide_eq_true hopen
  rcases halways.last ht n hn hchannel hstatus with ⟨task, htask, -⟩ | hyes
  · rw [List.isEmpty_iff.mp hempty] at htask
    cases htask
  · rw [hstuck] at hyes
    cases hyes

theorem wellFormed_empty : WellFormed empty := by
  constructor
  · intro task htask
    cases htask
  · intro ids hids
    cases hids

theorem none_stranded_punctual : ∃ t, (deliveries ⟨true, 6⟩).Run empty punctual t ∧
    (Machine.RunIf.Always (deliveries ⟨true, 6⟩) NoneStranded empty punctual ↔
      NoneStranded empty ∧ (deliveries ⟨true, 6⟩).RunIf (HandsOn ⟨true, 6⟩) empty punctual t) := by
  have hsome : ((deliveries ⟨true, 6⟩).exec empty punctual).isSome = true := by decide +kernel
  obtain ⟨t, ht⟩ := Machine.exists_run hsome
  exact ⟨t, ht, none_stranded_iff ht wellFormed_empty⟩

end AlgoBot.Notifications.Queue
