import AlgoBot.Core.Machine
import AlgoBot.Notifications.Models

/-!
# Overlapping runs of `deliver_notification` on one notification

Any number of runs of the task work on one telegram notification. Each goes
through its phases one read, POST or save at a time and in any order with the
others, and any save may fail, any run may be lost. A run keeps the copy of
`attempts` it read at its start; no save looks at what the row holds by then.

The only check a run makes is at its start, and it knows `delivered` alone. So
a message goes out twice when two runs overlap, when the save after an accepted
send fails, or when the row was closed in another way; `careful` says of a step
that it is none of these.

* `sent_once`: in careful runs an accepted message is never sent again, the
  attempts stay within their maximum and a closed notification stays closed.
* `sends_twice`: a failing save of the log has a delivered notification sent again.
-/

namespace AlgoBot.Notifications

open AlgoBot.Core

/-! ## Model -/

/-- Where a run of `deliver_notification` stands. -/
inductive Phase
  /-- The row was read and passed the checks. -/
  | start
  /-- The row is `processing`, the log is there. -/
  | claimed
  /-- In the loop of `api_call`, before its POST number `attempt`. -/
  | sending (attempt : ℕ)
  /-- The send ended; the save of the outcome comes next. -/
  | settling (result : Except Failure String)
  /-- The row holds the outcome; the save of the log comes next. -/
  | logging (outcome : Outcome)
  | ended

structure Run where
  /-- `attempts` of the run's own copy of the row. -/
  attempts : ℕ
  /-- Its delivery log, by position. -/
  log : ℕ
  phase : Phase

/-- A POST to the channel. -/
structure Post where
  text : String
  accepted : Bool
  deriving DecidableEq

structure State where
  notification : Notification
  logs : List DeliveryLog
  runs : List Run
  /-- What the channel was sent, oldest first. -/
  posts : List Post
  /-- The recoveries that have selected the row and not updated it yet. -/
  selected : ℕ

inductive Action
  /-- A message of the queue reaches a worker: first dispatch, redelivery, retry or recovery. -/
  | deliver (now : ℕ)
  | claim (run now : ℕ) (fault : Option String)
  | connect (run : ℕ) (configured : Bool) (connection : Option String)
  | post (run : ℕ) (answer : Answer)
  | record (run now jitter : ℕ) (fault : Option String)
  | log (run now : ℕ) (fault : Option String)
  /-- The worker is lost. -/
  | die (run : ℕ)
  | select (now : ℕ)
  | recover (now : ℕ)
  | mark_read (now : ℕ)

namespace State

/-- The run goes on to a phase. -/
def goto (s : State) (i : ℕ) (run : Run) (phase : Phase) : State :=
  { s with runs := s.runs.set i { run with phase := phase } }

/-- The claiming transaction: the row's save and the new log. -/
def claim (s : State) (i : ℕ) (run : Run) (now : ℕ) : State :=
  { s with
    notification := s.notification.claim (run.attempts + 1) now
    logs := s.logs ++ [.sending (run.attempts + 1)]
    runs := s.runs.set i ⟨run.attempts + 1, s.logs.length, .claimed⟩ }

/-- A POST of the run, and where the loop goes from its answer. -/
def post (s : State) (i : ℕ) (run : Run) (attempt : ℕ) (answer : Answer) : State :=
  { s with
    posts := s.posts ++ [⟨text s.notification, answer.accepted⟩]
    runs := s.runs.set i { run with
      phase := match afterPost attempt answer.read with
        | some result => .settling result
        | none => .sending (attempt + 1) } }

/-- The save of the outcome. A failing save of `delivered` is caught like a failed send; one in the
handlers is not. -/
def record (s : State) (i : ℕ) (run : Run) (outcome : Outcome) (now : ℕ) (fault : Option String) :
    State :=
  match fault with
  | none =>
      { s with
        notification := s.notification.record outcome now
        runs := s.runs.set i { run with phase := .logging outcome } }
  | some error =>
      match outcome with
      | .delivered _ => s.goto i run (.settling (.error (.other error)))
      | _ => s.goto i run .ended

/-- The save of the log, with the same two ways to fail. -/
def log (s : State) (i : ℕ) (run : Run) (outcome : Outcome) (now : ℕ) (fault : Option String) :
    State :=
  match fault with
  | none =>
      { s with
        logs := s.logs.modify run.log fun log => log.record outcome now
        runs := s.runs.set i { run with phase := .ended } }
  | some error =>
      match outcome with
      | .delivered _ => s.goto i run (.settling (.error (.other error)))
      | _ => s.goto i run .ended

end State

/-- One step of the workers, the recovery or a reader. -/
def step (max_attempts : ℕ) (s : State) : Action → Option State
  | .deliver now =>
      if check s.notification now = .attempt then
        some { s with runs := s.runs ++ [⟨s.notification.attempts, 0, .start⟩] }
      else some s
  | .claim i now fault =>
      match s.runs[i]? with
      | some run =>
          match run.phase with
          | .start =>
              match fault with
              | none => some (s.claim i run now)
              | some _ => some (s.goto i run .ended)
          | _ => none
      | none => none
  | .connect i configured connection =>
      match s.runs[i]? with
      | some run =>
          match run.phase with
          | .claimed =>
              match connect configured connection with
              | .ok _ => some (s.goto i run (.sending 0))
              | .error failure => some (s.goto i run (.settling (.error failure)))
          | _ => none
      | none => none
  | .post i answer =>
      match s.runs[i]? with
      | some run =>
          match run.phase with
          | .sending attempt => if answer.Honest then some (s.post i run attempt answer) else none
          | _ => none
      | none => none
  | .record i now jitter fault =>
      match s.runs[i]? with
      | some run =>
          match run.phase with
          | .settling result =>
              if jitter ≤ jitterBound run.attempts then
                some (s.record i run (settle max_attempts run.attempts jitter result) now fault)
              else none
          | _ => none
      | none => none
  | .log i now fault =>
      match s.runs[i]? with
      | some run =>
          match run.phase with
          | .logging outcome => some (s.log i run outcome now fault)
          | _ => none
      | none => none
  | .die i =>
      match s.runs[i]? with
      | some run => some (s.goto i run .ended)
      | none => none
  | .select now =>
      if s.notification.stuck now then some { s with selected := s.selected + 1 } else some s
  | .recover now =>
      if 0 < s.selected then
        if s.notification.status = .processing then
          some { s with
            notification := s.notification.recover now
            selected := s.selected - 1 }
        else some { s with selected := s.selected - 1 }
      else none
  | .mark_read now => some { s with notification := s.notification.mark_read now }

/-- The deliveries of one notification. -/
def deliveries (max_attempts : ℕ) : Machine State Action where
  next := step max_attempts

/-- A notification as `publish` creates it. -/
def fresh (id : ℕ) (title message : String) (now : ℕ) : State where
  notification := created id title message .telegram now
  logs := []
  runs := []
  posts := []
  selected := 0

/-! ## Careful runs -/

/-- The run may still send or save an outcome. -/
def Phase.busy : Phase → Bool
  | .start => true
  | .claimed => true
  | .sending _ => true
  | .settling _ => true
  | .logging _ => false
  | .ended => false

/-- The send came back accepted and the row does not say so yet. -/
def Phase.accepted : Phase → Bool
  | .settling (.ok _) => true
  | _ => false

/-- The row says `delivered`, the log does not yet. -/
def Phase.delivered : Phase → Bool
  | .logging (.delivered _) => true
  | _ => false

/-- The next POST is the last of the loop. -/
def Phase.lastPost : Phase → Bool
  | .sending attempt => retries ≤ attempt + 1
  | _ => false

namespace State

/-- No run may still send or save an outcome. -/
def idle (s : State) : Bool := s.runs.all fun run => !run.phase.busy

/-- The run is in such a phase. -/
def inPhase (s : State) (i : ℕ) (p : Phase → Bool) : Bool := s.runs[i]?.any fun run => p run.phase

/-- The run makes the last attempt. -/
def exhausted (s : State) (max_attempts i : ℕ) : Bool :=
  s.runs[i]?.any fun run => max_attempts ≤ run.attempts

end State

/-- The step is none of those the code does not provide for. A run that passes the checks of its
start finds the row open, with attempts left, and no other run at work on it; before the last
attempt nothing fails between an acceptance and the save of `delivered`; once that is saved the log
is saved too; and the row is opened by its reader while no run is at work on it. -/
def careful (max_attempts : ℕ) (s : State) : Action → Bool
  | .deliver now =>
      check s.notification now ≠ .attempt ∨
        (s.notification.status.Terminal = false ∧ s.notification.attempts < max_attempts ∧
          s.idle = true)
  | .post i answer =>
      answer.accepted = false ∨ answer.read.isOk = true ∨
        (s.inPhase i Phase.lastPost = true ∧ s.exhausted max_attempts i = true)
  | .record i _ _ (some _) => !s.inPhase i Phase.accepted || s.exhausted max_attempts i
  | .die i => !s.inPhase i Phase.accepted || s.exhausted max_attempts i
  | .log i _ (some _) => !s.inPhase i Phase.delivered
  | .mark_read _ => s.idle
  | _ => true

/-! ## The claim -/

/-- Nothing was sent after a message the channel accepted. -/
def Once (posts : List Post) : Prop := posts.Pairwise fun post _ => post.accepted = false

/-- A closed notification stays as it is, or is opened by its reader. -/
def StaysClosed (n n' : Notification) : Prop :=
  n.status.Terminal = true → n'.status = n.status ∨ n'.status = .opened

/-- At most one accepted message, at most `max_attempts` attempts, and no closed status is left,
between any two states of the run. -/
def SentOnce (max_attempts : ℕ) (s : State) (as : List Action) : Prop :=
  ∀ bs cs ds u v, as = bs ++ cs ++ ds → (deliveries max_attempts).Run s bs u →
    (deliveries max_attempts).Run u cs v →
      Once v.posts ∧ v.notification.attempts ≤ max_attempts ∧ v.logs.length ≤ max_attempts ∧
        StaysClosed u.notification v.notification

/-! ## The invariant of careful runs -/

/-- No message was accepted. -/
def Unsent (posts : List Post) : Prop := ∀ post ∈ posts, post.accepted = false

/-- At most one run is at work. -/
def Sole (runs : List Run) : Prop :=
  ∀ (i j : ℕ) (run run' : Run), runs[i]? = some run → runs[j]? = some run' →
    run.phase.busy = true → run'.phase.busy = true → i = j

/-- What a run at work knows of the row and the channel, by phase. -/
def Holds (max_attempts : ℕ) (n : Notification) (posts : List Post) : Phase → Prop
  | .start => n.attempts < max_attempts ∧ Unsent posts
  | .claimed => Unsent posts
  | .sending _ => Unsent posts
  | .settling (.ok _) => True
  | .settling (.error _) => Unsent posts ∨ max_attempts ≤ n.attempts
  | .logging _ => True
  | .ended => True

structure Held (max_attempts : ℕ) (s : State) (run : Run) : Prop where
  copy : run.attempts = s.notification.attempts
  opn : s.notification.status.Terminal = false
  holds : Holds max_attempts s.notification s.posts run.phase

/-- An accepted message closed the row or used up the attempts, or its run is about to close it. -/
def Closing (max_attempts : ℕ) (s : State) : Prop :=
  Unsent s.posts ∨ s.notification.status.Terminal = true ∨
    max_attempts ≤ s.notification.attempts ∨ ∃ run ∈ s.runs, run.phase.accepted = true

structure Inv (max_attempts : ℕ) (s : State) : Prop where
  once : Once s.posts
  bound : s.notification.attempts ≤ max_attempts
  logs : s.logs.length = s.notification.attempts
  sole : Sole s.runs
  held : ∀ run ∈ s.runs, run.phase.busy = true → Held max_attempts s run
  closing : Closing max_attempts s

theorem Unsent.once {posts : List Post} (h : Unsent posts) (post : Post) :
    Once (posts ++ [post]) := by
  unfold Once
  rw [List.pairwise_append]
  refine ⟨?_, List.pairwise_singleton _ _, ?_⟩
  · exact List.pairwise_of_forall_mem_list fun a ha b _ => h a ha
  · intro a ha b _
    exact h a ha

theorem Unsent.append {posts : List Post} (h : Unsent posts) {post : Post}
    (hpost : post.accepted = false) : Unsent (posts ++ [post]) := by
  intro a ha
  rcases List.mem_append.mp ha with ha | ha
  · exact h a ha
  · rw [List.mem_singleton.mp ha]
    exact hpost

theorem busy_of_accepted {phase : Phase} (h : phase.accepted = true) : phase.busy = true := by
  cases phase with
  | settling result => rfl
  | start => cases h
  | claimed => cases h
  | sending attempt => cases h
  | logging outcome => cases h
  | ended => cases h

section Advance

variable {runs : List Run} {i : ℕ} {run run' q : Run}

/-- Of the runs at work only the one that moves is left. -/
theorem Sole.eq_of_mem_set (h : Sole runs) (hi : runs[i]? = some run)
    (hbusy : run.phase.busy = true) (hq : q ∈ runs.set i run') (hqb : q.phase.busy = true) :
    q = run' := by
  obtain ⟨j, hj⟩ := List.mem_iff_getElem?.mp hq
  rw [List.getElem?_set] at hj
  split at hj
  · split at hj
    · exact (Option.some.inj hj).symm
    · cases hj
  · next hne => exact absurd (h i j run q hi hj hbusy hqb) hne

theorem Sole.set (h : Sole runs) (hi : runs[i]? = some run)
    (hbusy : run'.phase.busy = true → run.phase.busy = true) : Sole (runs.set i run') := by
  -- a run at work after the move was at work at the same place before it
  have hbefore : ∀ (j : ℕ) (q : Run), (runs.set i run')[j]? = some q → q.phase.busy = true →
      ∃ p, runs[j]? = some p ∧ p.phase.busy = true := by
    intro j q hj hq
    rw [List.getElem?_set] at hj
    split at hj
    · next hij =>
      split at hj
      · rw [← Option.some.inj hj] at hq
        rw [← hij]
        exact ⟨run, hi, hbusy hq⟩
      · cases hj
    · exact ⟨q, hj, hq⟩
  intro j k p q hj hk hp hq
  obtain ⟨p', hp', hpb⟩ := hbefore j p hj hp
  obtain ⟨q', hq', hqb⟩ := hbefore k q hk hq
  exact h j k p' q' hp' hq' hpb hqb

theorem sole_append (hidle : ∀ q ∈ runs, q.phase.busy = false) (run : Run) :
    Sole (runs ++ [run]) := by
  -- a run at work is the new one
  have hlast : ∀ (j : ℕ) (q : Run), (runs ++ [run])[j]? = some q → q.phase.busy = true →
      j = runs.length := by
    intro j q hj hq
    by_cases hlt : j < runs.length
    · rw [List.getElem?_append_left hlt] at hj
      rw [hidle q (List.mem_of_getElem? hj)] at hq
      cases hq
    · have hle : j < (runs ++ [run]).length := (List.getElem?_eq_some_iff.mp hj).1
      rw [List.length_append, List.length_singleton] at hle
      omega
  intro j k p q hj hk hp hq
  rw [hlast j p hj hp, hlast k q hk hq]

/-- A run other than the one that moves stays. -/
theorem mem_set_or_eq (hi : runs[i]? = some run) (hq : q ∈ runs) (run' : Run) :
    q ∈ runs.set i run' ∨ q = run := by
  obtain ⟨j, hj⟩ := List.mem_iff_getElem?.mp hq
  by_cases hij : i = j
  · rw [← hij, hi] at hj
    exact Or.inr (Option.some.inj hj).symm
  · refine Or.inl (List.mem_of_getElem? (i := j) ?_)
    rw [List.getElem?_set, if_neg hij]
    exact hj

theorem self_mem_set (hi : runs[i]? = some run) (run' : Run) : run' ∈ runs.set i run' := by
  refine List.mem_of_getElem? (i := i) ?_
  rw [List.getElem?_set, if_pos rfl, if_pos (List.getElem?_eq_some_iff.mp hi).1]

end Advance

theorem Holds.congr {max_attempts : ℕ} {n n' : Notification} {posts : List Post} {phase : Phase}
    (hn : n'.attempts = n.attempts) (h : Holds max_attempts n posts phase) :
    Holds max_attempts n' posts phase := by
  cases phase with
  | start => exact ⟨hn ▸ h.1, h.2⟩
  | claimed => exact h
  | sending attempt => exact h
  | settling result =>
    cases result with
    | ok message_id => trivial
    | error failure => exact h.imp_right fun hle => hn ▸ hle
  | logging outcome => trivial
  | ended => trivial

namespace Inv

variable {max_attempts i : ℕ} {s s' : State} {run : Run} (run' : Run)

/-- A run at work moves on: what it and the row come to has to be shown. -/
theorem advance (h : Inv max_attempts s) (hi : s.runs[i]? = some run)
    (hbusy : run.phase.busy = true) (hruns : s'.runs = s.runs.set i run') (honce : Once s'.posts)
    (hbound : s'.notification.attempts ≤ max_attempts)
    (hlogs : s'.logs.length = s'.notification.attempts)
    (hheld : run'.phase.busy = true → Held max_attempts s' run')
    (hclosing : Closing max_attempts s') : Inv max_attempts s' where
  once := honce
  bound := hbound
  logs := hlogs
  sole := by
    rw [hruns]
    exact h.sole.set hi fun _ => hbusy
  held := by
    intro q hq hqb
    rw [hruns] at hq
    have hself : q = run' := h.sole.eq_of_mem_set hi hbusy hq hqb
    rw [hself] at hqb ⊢
    exact hheld hqb
  closing := hclosing

/-- A run leaves the work without a word to the row or the channel. -/
theorem leave (h : Inv max_attempts s) (hi : s.runs[i]? = some run)
    (hleft : run'.phase.busy = false)
    (haccepted : run.phase.accepted = true → max_attempts ≤ run.attempts)
    (hruns : s'.runs = s.runs.set i run') (hn : s'.notification = s.notification)
    (hp : s'.posts = s.posts) (hl : s'.logs.length = s.logs.length) : Inv max_attempts s' where
  once := by
    rw [hp]
    exact h.once
  bound := by
    rw [hn]
    exact h.bound
  logs := by
    rw [hl, hn]
    exact h.logs
  sole := by
    rw [hruns]
    refine h.sole.set hi ?_
    intro hb
    rw [hleft] at hb
    cases hb
  held := by
    intro q hq hqb
    rw [hruns] at hq
    rcases List.mem_or_eq_of_mem_set hq with hq | rfl
    · have hheld := h.held q hq hqb
      exact ⟨hn ▸ hheld.copy, hn ▸ hheld.opn, hn ▸ hp ▸ hheld.holds⟩
    · rw [hleft] at hqb
      cases hqb
  closing := by
    unfold Closing
    rw [hn, hp, hruns]
    rcases h.closing with hun | hterm | hmax | ⟨q, hq, hqa⟩
    · exact Or.inl hun
    · exact Or.inr (Or.inl hterm)
    · exact Or.inr (Or.inr (Or.inl hmax))
    · rcases mem_set_or_eq hi hq run' with hq' | rfl
      · exact Or.inr (Or.inr (Or.inr ⟨q, hq', hqa⟩))
      · -- the run that gives up after an acceptance made the last attempt
        have hcopy := (h.held q hq (busy_of_accepted hqa)).copy
        exact Or.inr (Or.inr (Or.inl (hcopy ▸ haccepted hqa)))

end Inv

/-! ## What one step keeps -/

theorem inPhase_eq {s : State} {i : ℕ} {run : Run} (hi : s.runs[i]? = some run) (p : Phase → Bool) :
    s.inPhase i p = p run.phase := by
  simp [State.inPhase, hi]

theorem exhausted_eq {s : State} {i max_attempts : ℕ} {run : Run} (hi : s.runs[i]? = some run) :
    s.exhausted max_attempts i = true ↔ max_attempts ≤ run.attempts := by
  simp [State.exhausted, hi]

theorem of_idle {s : State} (h : s.idle = true) {run : Run} (hrun : run ∈ s.runs) :
    run.phase.busy = false := by
  simpa using List.all_eq_true.mp h run hrun

theorem Closing.unsent {max_attempts : ℕ} {s : State} (h : Closing max_attempts s)
    (hopen : s.notification.status.Terminal = false)
    (hleft : s.notification.attempts < max_attempts) (hidle : s.idle = true) : Unsent s.posts := by
  rcases h with hun | hterm | hmax | ⟨q, hq, hqa⟩
  · exact hun
  · rw [hopen] at hterm
    cases hterm
  · omega
  · have hbusy := busy_of_accepted hqa
    rw [of_idle hidle hq] at hbusy
    cases hbusy

theorem log_notification (s : State) (i now : ℕ) (run : Run) (outcome : Outcome)
    (fault : Option String) : (s.log i run outcome now fault).notification = s.notification := by
  cases fault with
  | none => rfl
  | some error =>
    cases outcome with
    | delivered message_id => rfl
    | failed text => rfl
    | dead_letter text => rfl
    | retrying text delay => rfl

/-- Only an accepted send settles on `delivered`. -/
theorem settle_of_error (max_attempts attempts jitter : ℕ) (failure : Failure)
    (message_id : String) :
    settle max_attempts attempts jitter (.error failure) ≠ .delivered message_id := by
  cases failure with
  | permanent error => simp [settle]
  | transient error =>
    simp only [settle]
    split <;> simp
  | other error =>
    simp only [settle]
    split <;> simp

namespace Inv

variable {max_attempts i now : ℕ} {s s' : State} {run : Run}

theorem deliver (h : Inv max_attempts s) (hopen : s.notification.status.Terminal = false)
    (hleft : s.notification.attempts < max_attempts) (hidle : s.idle = true) :
    Inv max_attempts { s with runs := s.runs ++ [⟨s.notification.attempts, 0, .start⟩] } where
  once := h.once
  bound := h.bound
  logs := h.logs
  sole := sole_append (fun q hq => of_idle hidle hq) _
  held := by
    intro q hq hqb
    rcases List.mem_append.mp hq with hq | hq
    · rw [of_idle hidle hq] at hqb
      cases hqb
    · rw [List.mem_singleton.mp hq]
      exact ⟨rfl, hopen, hleft, h.closing.unsent hopen hleft hidle⟩
  closing := Or.inl (h.closing.unsent hopen hleft hidle)

theorem claim (h : Inv max_attempts s) (hi : s.runs[i]? = some run) (hphase : run.phase = .start)
    (now : ℕ) : Inv max_attempts (s.claim i run now) := by
  have hbusy : run.phase.busy = true := by rw [hphase]; rfl
  have hheld := h.held run (List.mem_of_getElem? hi) hbusy
  have hcopy := hheld.copy
  have hholds := hheld.holds
  rw [hphase] at hholds
  rcases hholds with ⟨hlt, hunsent⟩
  have hbound : run.attempts + 1 ≤ max_attempts := by omega
  have hlogs : (s.logs ++ [DeliveryLog.sending (run.attempts + 1)]).length = run.attempts + 1 := by
    rw [List.length_append, List.length_singleton, h.logs, hcopy]
  exact h.advance _ hi hbusy rfl h.once hbound hlogs (fun _ => ⟨rfl, rfl, hunsent⟩) (Or.inl hunsent)

/-- The send has not begun, or it failed before its first POST. -/
theorem connect (h : Inv max_attempts s) (hi : s.runs[i]? = some run)
    (hphase : run.phase = .claimed) (r : Except Failure String) :
    Inv max_attempts (s.goto i run (match r with
      | .ok _ => .sending 0
      | .error failure => .settling (.error failure))) := by
  have hbusy : run.phase.busy = true := by rw [hphase]; rfl
  have hheld := h.held run (List.mem_of_getElem? hi) hbusy
  have hunsent : Unsent s.posts := by
    have hholds := hheld.holds
    rwa [hphase] at hholds
  refine h.advance _ hi hbusy rfl h.once h.bound h.logs ?_ (Or.inl hunsent)
  intro _
  refine ⟨hheld.copy, hheld.opn, ?_⟩
  cases r with
  | ok external_id => exact hunsent
  | error failure => exact Or.inl hunsent

theorem post (h : Inv max_attempts s) {attempt : ℕ} (hi : s.runs[i]? = some run)
    (hphase : run.phase = .sending attempt) {answer : Answer}
    (hcareful : careful max_attempts s (.post i answer) = true) :
    Inv max_attempts (s.post i run attempt answer) := by
  have hbusy : run.phase.busy = true := by rw [hphase]; rfl
  have hheld := h.held run (List.mem_of_getElem? hi) hbusy
  have hunsent : Unsent s.posts := by
    have hholds := hheld.holds
    rwa [hphase] at hholds
  simp only [careful, decide_eq_true_eq, inPhase_eq hi, exhausted_eq hi, hphase, Phase.lastPost]
    at hcareful
  have hafter : answer.accepted = false →
      Unsent (s.posts ++ [⟨text s.notification, answer.accepted⟩]) := fun hno => hunsent.append hno
  have honce : Once (s.post i run attempt answer).posts := hunsent.once _
  cases hnext : afterPost attempt answer.read with
  | none =>
    -- the loop goes on only after a transient answer that is not its last
    have hno : answer.accepted = false := by
      rcases hcareful with hno | hok | ⟨hlast, _⟩
      · exact hno
      · cases hread : answer.read with
        | ok message_id =>
          rw [hread] at hnext
          cases hnext
        | error failure =>
          rw [hread] at hok
          cases hok
      · unfold afterPost at hnext
        split at hnext
        · rw [if_pos hlast] at hnext
          cases hnext
        · cases hnext
    refine h.advance _ hi hbusy rfl honce h.bound h.logs ?_ (Or.inl (hafter hno))
    intro _
    refine ⟨hheld.copy, hheld.opn, ?_⟩
    simp only [hnext]
    exact hafter hno
  | some result =>
    have hresult := afterPost_eq_some hnext
    cases result with
    | ok message_id =>
      refine h.advance _ hi hbusy rfl honce h.bound h.logs ?_ ?_
      · intro _
        refine ⟨hheld.copy, hheld.opn, ?_⟩
        simp only [hnext]
        trivial
      · refine Or.inr (Or.inr (Or.inr ⟨_, self_mem_set hi _, ?_⟩))
        simp only [hnext]
        rfl
    | error failure =>
      have hdone : Unsent (s.posts ++ [⟨text s.notification, answer.accepted⟩]) ∨
          max_attempts ≤ s.notification.attempts := by
        rcases hcareful with hno | hok | ⟨_, hmax⟩
        · exact Or.inl (hafter hno)
        · rw [← hresult] at hok
          cases hok
        · exact Or.inr (hheld.copy ▸ hmax)
      refine h.advance _ hi hbusy rfl honce h.bound h.logs ?_ ?_
      · intro _
        refine ⟨hheld.copy, hheld.opn, ?_⟩
        simp only [hnext]
        exact hdone
      · exact hdone.imp_right fun hmax => Or.inr (Or.inl hmax)

theorem record (h : Inv max_attempts s) {jitter : ℕ} {fault : Option String}
    {result : Except Failure String} (hi : s.runs[i]? = some run)
    (hphase : run.phase = .settling result)
    (hcareful : careful max_attempts s (.record i now jitter fault) = true) :
    Inv max_attempts
      (s.record i run (settle max_attempts run.attempts jitter result) now fault) := by
  have hbusy : run.phase.busy = true := by rw [hphase]; rfl
  have hheld := h.held run (List.mem_of_getElem? hi) hbusy
  have hholds := hheld.holds
  rw [hphase] at hholds
  cases fault with
  | none =>
    refine h.advance { run with
      phase := .logging (settle max_attempts run.attempts jitter result) }
      hi hbusy rfl h.once ?_ ?_ (fun hb => by cases hb) ?_
    · simpa [State.record] using h.bound
    · simpa [State.record] using h.logs
    · cases result with
      | ok message_id => exact Or.inr (Or.inl rfl)
      | error failure =>
        rcases hholds with hunsent | hmax
        · exact Or.inl hunsent
        · refine Or.inr (Or.inr (Or.inl ?_))
          simpa [State.record] using hmax
  | some error =>
    have hlast : run.phase.accepted = true → max_attempts ≤ run.attempts := by
      intro hacc
      simp only [careful, inPhase_eq hi, hacc, Bool.not_true, Bool.false_or] at hcareful
      exact (exhausted_eq hi).mp hcareful
    cases result with
    | ok message_id =>
      have hmax : max_attempts ≤ s.notification.attempts := by
        rw [← hheld.copy]
        exact hlast (by rw [hphase]; rfl)
      refine h.advance { run with phase := .settling (.error (.other error)) }
        hi hbusy rfl h.once h.bound h.logs ?_ (Or.inr (Or.inr (Or.inl hmax)))
      intro _
      exact ⟨hheld.copy, hheld.opn, Or.inr hmax⟩
    | error failure =>
      have hnot := settle_of_error max_attempts run.attempts jitter failure
      cases houtcome : settle max_attempts run.attempts jitter (.error failure) with
      | delivered message_id => exact absurd houtcome (hnot message_id)
      | failed text => exact h.leave _ hi rfl hlast rfl rfl rfl rfl
      | dead_letter text => exact h.leave _ hi rfl hlast rfl rfl rfl rfl
      | retrying text delay => exact h.leave _ hi rfl hlast rfl rfl rfl rfl

theorem log (h : Inv max_attempts s) {fault : Option String} {outcome : Outcome}
    (hi : s.runs[i]? = some run) (hphase : run.phase = .logging outcome)
    (hcareful : careful max_attempts s (.log i now fault) = true) :
    Inv max_attempts (s.log i run outcome now fault) := by
  have hnone : run.phase.accepted = true → max_attempts ≤ run.attempts := by
    intro hacc
    rw [hphase] at hacc
    cases hacc
  cases fault with
  | none => exact h.leave { run with phase := .ended } hi rfl hnone rfl rfl rfl (by
      simp [State.log])
  | some error =>
    cases outcome with
    | delivered message_id =>
      simp only [careful, inPhase_eq hi, hphase, Phase.delivered] at hcareful
      cases hcareful
    | failed text => exact h.leave _ hi rfl hnone rfl rfl rfl rfl
    | dead_letter text => exact h.leave _ hi rfl hnone rfl rfl rfl rfl
    | retrying text delay => exact h.leave _ hi rfl hnone rfl rfl rfl rfl

theorem die (h : Inv max_attempts s) (hi : s.runs[i]? = some run)
    (hcareful : careful max_attempts s (.die i) = true) :
    Inv max_attempts (s.goto i run .ended) := by
  refine h.leave _ hi rfl ?_ rfl rfl rfl rfl
  intro hacc
  simp only [careful, inPhase_eq hi, hacc, Bool.not_true, Bool.false_or] at hcareful
  exact (exhausted_eq hi).mp hcareful

/-- The columns a recovery writes are none the invariant depends on while the row is open. -/
theorem recover (h : Inv max_attempts s) (hstatus : s.notification.status = .processing)
    (now selected : ℕ) :
    Inv max_attempts { s with
      notification := s.notification.recover now
      selected := selected } where
  once := h.once
  bound := h.bound
  logs := h.logs
  sole := h.sole
  held := by
    intro q hq hqb
    have hheld := h.held q hq hqb
    exact ⟨hheld.copy, rfl, hheld.holds.congr rfl⟩
  closing := by
    rcases h.closing with hunsent | hterm | hrest
    · exact Or.inl hunsent
    · rw [hstatus] at hterm
      cases hterm
    · exact Or.inr (Or.inr hrest)

theorem mark_read (h : Inv max_attempts s) (hidle : s.idle = true) (now : ℕ) :
    Inv max_attempts { s with notification := s.notification.mark_read now } where
  once := h.once
  bound := h.bound
  logs := h.logs
  sole := h.sole
  held := by
    intro q hq hqb
    rw [of_idle hidle hq] at hqb
    cases hqb
  closing := Or.inr (Or.inl rfl)

/-- A count the invariant does not mention. -/
theorem selecting (h : Inv max_attempts s) (selected : ℕ) :
    Inv max_attempts { s with selected := selected } where
  once := h.once
  bound := h.bound
  logs := h.logs
  sole := h.sole
  held := fun q hq hqb => ⟨(h.held q hq hqb).copy, (h.held q hq hqb).opn, (h.held q hq hqb).holds⟩
  closing := h.closing

end Inv

/-- A careful step keeps the invariant and what is closed. -/
theorem step_inv {max_attempts : ℕ} {s s' : State} {a : Action} (h : Inv max_attempts s)
    (hcareful : careful max_attempts s a = true) (hstep : step max_attempts s a = some s') :
    Inv max_attempts s' ∧ StaysClosed s.notification s'.notification := by
  -- a step that leaves the row alone, or a run at work, which finds it open
  have hsame : StaysClosed s.notification s.notification := fun _ => Or.inl rfl
  have hopen : ∀ n : Notification, s.notification.status.Terminal = false →
      StaysClosed s.notification n := by
    intro n hno hyes
    rw [hno] at hyes
    cases hyes
  cases a with
  | deliver now =>
    simp only [step] at hstep
    split at hstep
    · next hcheck =>
      obtain rfl := Option.some.inj hstep
      simp only [careful, hcheck, ne_eq, not_true_eq_false, false_or, decide_eq_true_eq] at hcareful
      exact ⟨h.deliver hcareful.1 hcareful.2.1 hcareful.2.2, hsame⟩
    · obtain rfl := Option.some.inj hstep
      exact ⟨h, hsame⟩
  | claim i now fault =>
    simp only [step] at hstep
    split at hstep
    · next run hi =>
      split at hstep
      · next hphase =>
        have hbusy : run.phase.busy = true := by rw [hphase]; rfl
        have hheld := h.held run (List.mem_of_getElem? hi) hbusy
        cases fault with
        | none =>
          obtain rfl := Option.some.inj hstep
          exact ⟨h.claim hi hphase now, hopen _ hheld.opn⟩
        | some error =>
          obtain rfl := Option.some.inj hstep
          refine ⟨h.leave _ hi rfl ?_ rfl rfl rfl rfl, hsame⟩
          intro hacc
          rw [hphase] at hacc
          cases hacc
      · cases hstep
    · cases hstep
  | connect i configured connection =>
    simp only [step] at hstep
    split at hstep
    · next run hi =>
      split at hstep
      · next hphase =>
        have hnext := h.connect hi hphase (Notifications.connect configured connection)
        split at hstep
        · next hr =>
          obtain rfl := Option.some.inj hstep
          rw [hr] at hnext
          exact ⟨hnext, hsame⟩
        · next hr =>
          obtain rfl := Option.some.inj hstep
          rw [hr] at hnext
          exact ⟨hnext, hsame⟩
      · cases hstep
    · cases hstep
  | post i answer =>
    simp only [step] at hstep
    split at hstep
    · next run hi =>
      split at hstep
      · next hphase =>
        have hs := Option.ite_none_right_eq_some.mp hstep
        obtain rfl := Option.some.inj hs.2
        exact ⟨h.post hi hphase hcareful, hsame⟩
      · cases hstep
    · cases hstep
  | record i now jitter fault =>
    simp only [step] at hstep
    split at hstep
    · next run hi =>
      split at hstep
      · next hphase =>
        have hs := Option.ite_none_right_eq_some.mp hstep
        obtain rfl := Option.some.inj hs.2
        have hbusy : run.phase.busy = true := by rw [hphase]; rfl
        have hheld := h.held run (List.mem_of_getElem? hi) hbusy
        exact ⟨h.record hi hphase hcareful, hopen _ hheld.opn⟩
      · cases hstep
    · cases hstep
  | log i now fault =>
    simp only [step] at hstep
    split at hstep
    · next run hi =>
      split at hstep
      · next hphase =>
        obtain rfl := Option.some.inj hstep
        refine ⟨h.log hi hphase hcareful, ?_⟩
        rw [log_notification]
        exact hsame
      · cases hstep
    · cases hstep
  | die i =>
    simp only [step] at hstep
    split at hstep
    · next run hi =>
      obtain rfl := Option.some.inj hstep
      exact ⟨h.die hi hcareful, hsame⟩
    · cases hstep
  | select now =>
    simp only [step] at hstep
    split at hstep
    · obtain rfl := Option.some.inj hstep
      exact ⟨h.selecting _, hsame⟩
    · obtain rfl := Option.some.inj hstep
      exact ⟨h, hsame⟩
  | recover now =>
    simp only [step] at hstep
    have hs := Option.ite_none_right_eq_some.mp hstep
    have hs2 := hs.2
    split at hs2
    · next hstatus =>
      obtain rfl := Option.some.inj hs2
      refine ⟨h.recover hstatus now _, hopen _ ?_⟩
      rw [hstatus]
      rfl
    · obtain rfl := Option.some.inj hs2
      exact ⟨h.selecting _, hsame⟩
  | mark_read now =>
    obtain rfl := Option.some.inj hstep
    exact ⟨h.mark_read hcareful now, fun _ => Or.inr rfl⟩

theorem StaysClosed.trans {n n' n'' : Notification} (h : StaysClosed n n')
    (h' : StaysClosed n' n'') : StaysClosed n n'' := by
  intro hclosed
  rcases h hclosed with hsame | hopened
  · have hclosed' : n'.status.Terminal = true := by
      rw [hsame]
      exact hclosed
    rcases h' hclosed' with hsame' | hopened'
    · exact Or.inl (hsame'.trans hsame)
    · exact Or.inr hopened'
  · have hclosed' : n'.status.Terminal = true := by
      rw [hopened]
      rfl
    rcases h' hclosed' with hsame' | hopened'
    · exact Or.inr (hsame'.trans hopened)
    · exact Or.inr hopened'

theorem inv_fresh (max_attempts id : ℕ) (title message : String) (now : ℕ) :
    Inv max_attempts (fresh id title message now) where
  once := List.Pairwise.nil
  bound := Nat.zero_le _
  logs := rfl
  sole := by
    intro i j run run' hi
    cases hi
  held := by
    intro run hrun
    cases hrun
  closing := Or.inl (by
    intro post hpost
    cases hpost)

/-- Careful runs of the task send the message at most once after its acceptance, make at most
`max_attempts` attempts and leave no closed status. -/
theorem sent_once {max_attempts id now : ℕ} {title message : String} {as : List Action} {t : State}
    (hrun : (deliveries max_attempts).RunIf (fun s a => careful max_attempts s a = true)
      (fresh id title message now) as t) :
    SentOnce max_attempts (fresh id title message now) as := by
  rintro bs cs ds u v rfl hu hv
  rcases hrun.split with ⟨v', hv', _⟩
  rcases hv'.split with ⟨u', hu', hcs⟩
  obtain rfl : u' = u := Option.some.inj (hu'.exec_eq.symm.trans hu.exec_eq)
  obtain rfl : v' = v := Option.some.inj (hcs.exec_eq.symm.trans hv.exec_eq)
  have hinv : Inv max_attempts u' :=
    hu'.invariant (fun s a s' hg hs hn => (step_inv hs hg hn).1) (inv_fresh _ _ _ _ _)
  have hstep : ∀ s a s', careful max_attempts s a = true →
      Inv max_attempts s ∧ StaysClosed u'.notification s.notification →
      (deliveries max_attempts).next s a = some s' →
      Inv max_attempts s' ∧ StaysClosed u'.notification s'.notification := by
    rintro s a s' hg ⟨hs, hclosed⟩ hn
    have hnext := step_inv hs hg hn
    exact ⟨hnext.1, hclosed.trans hnext.2⟩
  have hboth := hcs.invariant hstep ⟨hinv, fun _ => Or.inl rfl⟩
  refine ⟨hboth.1.once, hboth.1.bound, ?_, hboth.2⟩
  rw [hboth.1.logs]
  exact hboth.1.bound

/-! ## A refused message, and a message that goes out twice -/

/-- A reply that accepts the message. -/
def accepting : Answer := ⟨true, .ok ⟨200, true, none, none, none, some "71"⟩⟩

/-- A reply that refuses it for now. -/
def refusing : Answer := ⟨false, .ok ⟨503, false, none, none, none, none⟩⟩

/-- A run up to its last POST. -/
def upTo (i now : ℕ) : List Action :=
  [.deliver now, .claim i now none, .connect i true (some "888")]

/-- Three server errors, a retry that is accepted, and a reader. -/
def retried : List Action :=
  upTo 0 0 ++ [.post 0 refusing, .post 0 refusing, .post 0 refusing, .record 0 1 0 none,
    .log 0 1 none] ++ upTo 1 2000001 ++ [.post 1 accepting, .record 1 2000002 0 none,
    .log 1 2000002 none, .deliver 3000000, .mark_read 3000001]

/-- The save of the log fails after `delivered` was saved, so the run is retried. -/
def resent : List Action :=
  upTo 0 0 ++ [.post 0 accepting, .record 0 1 0 none, .log 0 2 (some "database is locked"),
    .record 0 3 0 none, .log 0 4 none] ++ upTo 1 5000000 ++ [.post 1 accepting]

theorem sent_once_retried : SentOnce 6 (fresh 1 "Trade" "Executed" 0) retried := by
  have hsome : ((deliveries 6).execIf (fun s a => careful 6 s a = true)
      (fresh 1 "Trade" "Executed" 0) retried).isSome = true := by decide +kernel
  obtain ⟨t, ht⟩ := Machine.exists_runIf hsome
  exact sent_once ht

instance (posts : List Post) : Decidable (Once posts) :=
  inferInstanceAs (Decidable (posts.Pairwise _))

theorem sends_twice : ¬ SentOnce 6 (fresh 1 "Trade" "Executed" 0) resent := by
  intro honce
  have hexec : ((deliveries 6).exec (fresh 1 "Trade" "Executed" 0) resent).any
      (fun t => !decide (Once t.posts)) = true := by decide +kernel
  obtain ⟨t, ht, hbad⟩ := (Option.any_eq_true _ _).mp hexec
  have hgood := (honce [] resent [] _ t (List.append_nil resent).symm (Machine.RunIf.nil _)
    (Machine.exec_eq_some_iff.mp ht)).1
  simp [hgood] at hbad

end AlgoBot.Notifications
