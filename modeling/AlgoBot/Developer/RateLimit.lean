import Mathlib.Data.Nat.Basic
import Mathlib.Logic.Function.Basic
import AlgoBot.Core.Machine

/-!
# The rate limit of the developer API

A request increments the counter of its identity in Redis and, if it is the one that has
created it, sets its expiry with a second command. A failure of either command sends the
request to the counter of its process, and the later requests of the process for a while.

* `rate_recovers_iff`: no counter admits more than `limit` requests in a window and the identity
  is admitted again after one, exactly if each increment that creates the counter of Redis is
  followed by its expiry.
* `counter_stays`: the expiry fails once.
-/

namespace AlgoBot.Developer

open AlgoBot.Core

/-! ## Counters -/

/-- A counter, and when it expires. -/
structure RateCounter where
  count : ℕ
  deadline : Option ℕ
  deriving DecidableEq

/-- The counters of one identity, in Redis (`none`) and in the processes, and the time until which
a process leaves Redis alone. -/
structure Rates where
  now : ℕ
  counters : Option ℕ → Option RateCounter
  redis_unavailable_until : ℕ → ℕ

def Rates.initial : Rates := ⟨0, fun _ => none, fun _ => 0⟩

/-- Where Redis fails a request. -/
inductive Failure
  | never
  /-- The counter is not incremented. -/
  | incr
  /-- The counter is incremented, and the reply is lost. -/
  | incrReply
  | expire
  | expireReply
  deriving DecidableEq

inductive RateStep
  | request (process : ℕ) (failure : Failure)
  | wait (seconds : ℕ)
  deriving DecidableEq

/-- `_REDIS_FAILURE_COOLDOWN_SECONDS`. -/
def REDIS_FAILURE_COOLDOWN_SECONDS : ℕ := 30

/-- `INCR`; a new counter has no expiry. -/
def RateCounter.incr : Option RateCounter → RateCounter
  | none => ⟨1, none⟩
  | some c => { c with count := c.count + 1 }

variable (limit window : ℕ)

namespace Rates

/-- `_increment_rate_counter` in the cache of a process; it counts and returns the count. -/
def countLocal (s : Rates) (process : ℕ) : Rates × ℕ :=
  let c : RateCounter :=
    match s.counters (some process) with
    | none => ⟨1, some (s.now + window)⟩
    | some c => { c with count := c.count + 1 }
  ({ s with counters := Function.update s.counters (some process) (some c) }, c.count)

/-- `_increment_rate_counter` in Redis; without a count it has raised an exception. -/
def countShared (s : Rates) (failure : Failure) : Rates × Option ℕ :=
  let c := RateCounter.incr (s.counters none)
  let expiring : RateCounter := { c with deadline := some (s.now + max 1 window) }
  let stored (c : RateCounter) : Rates := { s with counters := Function.update s.counters none (some c) }
  match failure with
  | .incr => (s, none)
  | .incrReply => (stored c, none)
  | .never => if c.count = 1 then (stored expiring, some 1) else (stored c, some c.count)
  -- only the first request of a counter sends `EXPIRE`
  | .expire => if c.count = 1 then (stored c, none) else (stored c, some c.count)
  | .expireReply => if c.count = 1 then (stored expiring, none) else (stored c, some c.count)

/-- `_next_rate_limit_count`, with the counter that has counted. -/
def next_rate_limit_count (s : Rates) (process : ℕ) (failure : Failure) : Rates × Option ℕ × ℕ :=
  if s.now < s.redis_unavailable_until process then
    let (s, count) := s.countLocal window process
    (s, some process, count)
  else
    match s.countShared window failure with
    | (s, some count) =>
      ({ s with redis_unavailable_until := Function.update s.redis_unavailable_until process 0 },
        none, count)
    | (s, none) =>
      let s := { s with
        redis_unavailable_until := Function.update s.redis_unavailable_until process
          (s.now + REDIS_FAILURE_COOLDOWN_SECONDS) }
      let (s, count) := s.countLocal window process
      (s, some process, count)

/-- The time has come. -/
def expired (time : ℕ) (c : RateCounter) : Bool := c.deadline.any fun deadline => deadline ≤ time

/-- Time passes. -/
def wait (s : Rates) (seconds : ℕ) : Rates :=
  { s with
    now := s.now + seconds
    counters := fun who => (s.counters who).filter fun c => !expired (s.now + seconds) c }

end Rates

def rateStep (s : Rates) : RateStep → Rates
  | .request process failure => (s.next_rate_limit_count window process failure).1
  | .wait seconds => s.wait seconds

def rates : Machine Rates RateStep where
  next s x := some (rateStep window s x)

/-! ## Admissions -/

/-- The request is not answered with 429. -/
def admitted (s : Rates) (process : ℕ) (failure : Failure) : Bool :=
  (s.next_rate_limit_count window process failure).2.2 ≤ limit

/-- The requests that a counter admits. -/
def admittedBy (who : Option ℕ) (s : Rates) : RateStep → ℕ
  | .request process failure =>
    if (s.next_rate_limit_count window process failure).2.1 = who ∧
        admitted limit window s process failure = true then 1 else 0
  | .wait _ => 0

/-- The step does not end the window of a counter. -/
def lasts (who : Option ℕ) (s : Rates) : RateStep → Prop
  | .request _ _ => True
  | .wait seconds => ∀ c, s.counters who = some c → Rates.expired (s.now + seconds) c = false

/-- An increment that creates the counter in Redis is followed by its expiry. -/
def expires (s : Rates) : RateStep → Bool
  | .request process failure =>
    s.now < s.redis_unavailable_until process || (s.counters none).isSome ||
      !(failure = .incrReply || failure = .expire)
  | .wait _ => true

/-- Every counter will expire. -/
def Rates.Expiring (s : Rates) : Prop := ∀ who c, s.counters who = some c → c.deadline.isSome = true

/-- The counters of a run limit the requests and recover. -/
structure Recovers (xs : List RateStep) : Prop where
  /-- What starts without the counter and does not get to its expiry is one window. -/
  limited : ∀ who before inside after u v, xs = before ++ (inside ++ after) →
    (rates window).Run Rates.initial before u → u.counters who = none →
    (rates window).RunIf (lasts who) u inside v →
    (rates window).total (admittedBy limit window who) u inside ≤ limit
  /-- A full window without requests. -/
  again : ∀ before quiet after u v, xs = before ++ (quiet ++ after) →
    (rates window).Run Rates.initial before u →
    (rates window).RunIf (fun _ x => ∃ seconds, x = .wait seconds) u quiet v →
    u.now + window ≤ v.now → ∀ process failure, admitted limit window v process failure = true
  expiring : Machine.RunIf.Always (rates window) Rates.Expiring Rates.initial xs

namespace Rates

variable {limit window} {s s' : Rates} {process : ℕ} {failure : Failure} {who : Option ℕ}

/-! ## One request -/

/-- What has been counted. -/
def countOf (c : Option RateCounter) : ℕ := c.elim 0 RateCounter.count

/-- One more request in a counter. -/
structure Counted (window : ℕ) (s : Rates) (who : Option ℕ) (c : RateCounter) : Prop where
  count : c.count = countOf (s.counters who) + 1
  deadline : c.deadline = (s.counters who).bind RateCounter.deadline ∨
    c.deadline = some (s.now + window)

/-- No expiry is later. -/
def Due (s : Rates) (time : ℕ) : Prop :=
  ∀ who c deadline, s.counters who = some c → c.deadline = some deadline → deadline ≤ time

/-- What holds of the counters in every run. -/
structure Inv (window : ℕ) (s : Rates) : Prop where
  positive : ∀ who c, s.counters who = some c → 1 ≤ c.count
  soon : s.Due (s.now + window)
  live : ∀ who c deadline, s.counters who = some c → c.deadline = some deadline → s.now < deadline
  processes : ∀ process c, s.counters (some process) = some c → c.deadline.isSome = true

theorem initial_inv : initial.Inv window := by
  constructor
  · intro who c hc
    cases hc
  · intro who c deadline hc
    cases hc
  · intro who c deadline hc
    cases hc
  · intro process c hc
    cases hc

/-- The counter of a process. -/
theorem countLocal_counted : ∃ c, Counted window s (some process) c ∧
    (s.countLocal window process).2 = c.count ∧
    (s.countLocal window process).1 =
      { s with counters := Function.update s.counters (some process) (some c) } ∧
    (s.counters (some process) = none → c.deadline.isSome = true) := by
  cases hold : s.counters (some process) with
  | none =>
    refine ⟨⟨1, some (s.now + window)⟩, ⟨?_, Or.inr rfl⟩, ?_, ?_, fun _ => rfl⟩
    · rw [hold]
      rfl
    · rw [countLocal, hold]
    · rw [countLocal, hold]
  | some c =>
    refine ⟨{ c with count := c.count + 1 }, ⟨?_, Or.inl ?_⟩, ?_, ?_, nofun⟩
    · rw [hold]
      rfl
    · rw [hold]
      rfl
    · rw [countLocal, hold]
    · rw [countLocal, hold]

/-- The counter of Redis: it is not incremented, or it is, and has an expiry unless the request that
has created it fails before. -/
theorem countShared_counted (hs : s.Inv window) (hwindow : 1 ≤ window) :
    (failure = .incr ∧ s.countShared window failure = (s, none)) ∨
      ∃ c, Counted window s none c ∧
        (s.countShared window failure).1 =
          { s with counters := Function.update s.counters none (some c) } ∧
        ((s.countShared window failure).2 = none ∨
          (s.countShared window failure).2 = some c.count) ∧
        (s.counters none = none →
          (c.deadline.isSome = true ↔ ¬ (failure = .incrReply ∨ failure = .expire))) := by
  have hmax : max 1 window = window := max_eq_right hwindow
  cases hold : s.counters none with
  | none =>
    -- this request creates the counter
    have hplain : Counted window s none ⟨1, none⟩ := ⟨by rw [hold]; rfl, Or.inl (by rw [hold]; rfl)⟩
    have hexpiring : Counted window s none ⟨1, some (s.now + window)⟩ :=
      ⟨by rw [hold]; rfl, Or.inr rfl⟩
    cases failure with
    | incr => exact Or.inl ⟨rfl, rfl⟩
    | incrReply =>
      exact Or.inr ⟨_, hplain, by simp [countShared, hold, RateCounter.incr],
        Or.inl rfl, by simp⟩
    | never =>
      exact Or.inr ⟨_, hexpiring, by simp [countShared, hold, RateCounter.incr, hmax],
        Or.inr (by simp [countShared, hold, RateCounter.incr]), by simp⟩
    | expire =>
      exact Or.inr ⟨_, hplain, by simp [countShared, hold, RateCounter.incr],
        Or.inl (by simp [countShared, hold, RateCounter.incr]), by simp⟩
    | expireReply =>
      exact Or.inr ⟨_, hexpiring, by simp [countShared, hold, RateCounter.incr, hmax],
        Or.inl (by simp [countShared, hold, RateCounter.incr]), by simp⟩
  | some c =>
    have hcount : c.count ≠ 0 := Nat.one_le_iff_ne_zero.mp (hs.positive none c hold)
    have hcounted : Counted window s none { c with count := c.count + 1 } :=
      ⟨by rw [hold]; rfl, Or.inl (by rw [hold]; rfl)⟩
    cases failure with
    | incr => exact Or.inl ⟨rfl, rfl⟩
    | incrReply =>
      exact Or.inr ⟨_, hcounted, by simp [countShared, hold, RateCounter.incr], Or.inl rfl, nofun⟩
    | never | expire | expireReply =>
      exact Or.inr ⟨_, hcounted, by simp [countShared, hold, RateCounter.incr, hcount],
        Or.inr (by simp [countShared, hold, RateCounter.incr, hcount]), nofun⟩

/-- What a request does: each counter stays or counts the request, one of them decides, and the
counter of Redis is left without an expiry only as `expires` says. -/
structure Requested (window : ℕ) (s : Rates) (process : ℕ) (failure : Failure) (s' : Rates)
    (who : Option ℕ) (count : ℕ) : Prop where
  now : s'.now = s.now
  counters : ∀ who, s'.counters who = s.counters who ∨
    ∃ c, s'.counters who = some c ∧ Counted window s who c
  decides : ∃ c, s'.counters who = some c ∧ Counted window s who c ∧ c.count = count
  expiry : ∀ who c, s.counters who = none → s'.counters who = some c →
    (c.deadline.isSome = true ↔ who ≠ none ∨ expires s (.request process failure) = true)
  forgotten : expires s (.request process failure) = false → ∃ c, s'.counters none = some c

theorem Counted.congr {t : Rates} {c : RateCounter} (hnow : t.now = s.now)
    (hwho : t.counters who = s.counters who) (h : Counted window t who c) :
    Counted window s who c := by
  constructor
  · rw [h.count, hwho]
  · rw [← hnow, ← hwho]
    exact h.deadline

/-- The counter of the process decides, after what Redis has done. -/
theorem requested_local {t : Rates} (hnow : t.now = s.now)
    (hprocesses : ∀ q, t.counters (some q) = s.counters (some q))
    (hshared : t.counters none = s.counters none ∨
      ∃ c, t.counters none = some c ∧ Counted window s none c)
    (hexpiry : ∀ c, s.counters none = none → t.counters none = some c →
      (c.deadline.isSome = true ↔ expires s (.request process failure) = true))
    (hforgotten : expires s (.request process failure) = false → ∃ c, t.counters none = some c) :
    Requested window s process failure (t.countLocal window process).1 (some process)
      (t.countLocal window process).2 := by
  obtain ⟨c, hcounted, hcount, hstate, hnew⟩ := @countLocal_counted window t process
  have hcounted' := hcounted.congr hnow (hprocesses process)
  have hown : (t.countLocal window process).1.counters (some process) = some c := by
    rw [hstate]
    exact Function.update_self ..
  have hother : ∀ who, who ≠ some process →
      (t.countLocal window process).1.counters who = t.counters who := by
    intro who hwho
    rw [hstate]
    exact Function.update_of_ne hwho ..
  constructor
  · rw [hstate]
    exact hnow
  · intro who
    by_cases hwho : who = some process
    · rw [hwho]
      exact Or.inr ⟨c, hown, hcounted'⟩
    · rw [hother who hwho]
      cases who with
      | none => exact hshared
      | some q => exact Or.inl (hprocesses q)
  · exact ⟨c, hown, hcounted', hcount.symm⟩
  · intro who d hnone hd
    by_cases hwho : who = some process
    · rw [hwho] at hd hnone
      obtain rfl := Option.some.inj (hown.symm.trans hd)
      refine iff_of_true (hnew ?_) (Or.inl (by rw [hwho]; nofun))
      rw [hprocesses, hnone]
    · rw [hother who hwho] at hd
      cases who with
      | none => simpa using hexpiry d hnone hd
      | some q =>
        rw [hprocesses, hnone] at hd
        cases hd
  · intro hfalse
    rw [hother none nofun]
    exact hforgotten hfalse

theorem requested (hs : s.Inv window) (hwindow : 1 ≤ window) :
    Requested window s process failure (s.next_rate_limit_count window process failure).1
      (s.next_rate_limit_count window process failure).2.1
      (s.next_rate_limit_count window process failure).2.2 := by
  unfold next_rate_limit_count
  split
  · next hcooling =>
    have hexpires : expires s (.request process failure) = true := by simp [expires, hcooling]
    refine requested_local rfl (fun _ => rfl) (Or.inl rfl) ?_ ?_
    · intro c hnone hc
      rw [hnone] at hc
      cases hc
    · intro hfalse
      rw [hexpires] at hfalse
      cases hfalse
  · next hcalm =>
    -- whether the expiry is set depends on the failure if there is no counter
    have hexpires : s.counters none = none → (expires s (.request process failure) = true ↔
        ¬ (failure = .incrReply ∨ failure = .expire)) := by
      intro hnone
      simp [expires, hcalm, hnone]
    rcases @countShared_counted window s failure hs hwindow with
      ⟨rfl, hnot⟩ | ⟨c, hcounted, hstate, hresult, hdeadline⟩
    · rw [hnot]
      refine requested_local rfl (fun _ => rfl) (Or.inl rfl) ?_ ?_
      · intro c hnone hc
        change s.counters none = some c at hc
        rw [hnone] at hc
        cases hc
      · intro hfalse
        simp [expires] at hfalse
    · cases hcall : s.countShared window failure with
      | mk t result =>
      rw [hcall] at hstate hresult
      dsimp only at hstate hresult
      have hshared : t.counters none = some c := by
        rw [hstate]
        exact Function.update_self none (some c) s.counters
      have hprocesses : ∀ q, t.counters (some q) = s.counters (some q) := by
        intro q
        rw [hstate]
        exact Function.update_of_ne (Option.some_ne_none q) (some c) s.counters
      have hnow : t.now = s.now := by rw [hstate]
      rcases hresult with rfl | rfl
      · refine requested_local hnow hprocesses (Or.inr ⟨c, hshared, hcounted⟩) ?_ ?_
        · intro d hnone hd
          change t.counters none = some d at hd
          obtain rfl := Option.some.inj (hshared.symm.trans hd)
          rw [hdeadline hnone, hexpires hnone]
        · intro _
          exact ⟨c, hshared⟩
      · constructor
        · exact hnow
        · intro who
          cases who with
          | none => exact Or.inr ⟨c, hshared, hcounted⟩
          | some q => exact Or.inl (hprocesses q)
        · exact ⟨c, hshared, hcounted, rfl⟩
        · intro who d hnone hd
          cases who with
          | none =>
            change t.counters none = some d at hd
            obtain rfl := Option.some.inj (hshared.symm.trans hd)
            rw [hdeadline hnone, ← hexpires hnone]
            simp
          | some q =>
            change t.counters (some q) = some d at hd
            rw [hprocesses, hnone] at hd
            cases hd
        · intro _
          exact ⟨c, hshared⟩

theorem Inv.request (hs : s.Inv window) (hwindow : 1 ≤ window) :
    (s.next_rate_limit_count window process failure).1.Inv window := by
  have hrequest := @requested window s process failure hs hwindow
  constructor
  · intro who c hc
    rcases hrequest.counters who with hsame | ⟨d, hd, hcounted⟩
    · exact hs.positive who c (hsame ▸ hc)
    · obtain rfl := Option.some.inj (hd.symm.trans hc)
      rw [hcounted.count]
      omega
  · intro who c deadline hc hdeadline
    rw [hrequest.now]
    rcases hrequest.counters who with hsame | ⟨d, hd, hcounted⟩
    · exact hs.soon who c deadline (hsame ▸ hc) hdeadline
    · obtain rfl := Option.some.inj (hd.symm.trans hc)
      rcases hcounted.deadline with hold | hnew
      · obtain ⟨old, hstored, hold'⟩ := Option.bind_eq_some_iff.mp (hold.symm.trans hdeadline)
        exact hs.soon who old deadline hstored hold'
      · exact le_of_eq (Option.some.inj (hnew.symm.trans hdeadline)).symm
  · intro who c deadline hc hdeadline
    rw [hrequest.now]
    rcases hrequest.counters who with hsame | ⟨d, hd, hcounted⟩
    · exact hs.live who c deadline (hsame ▸ hc) hdeadline
    · obtain rfl := Option.some.inj (hd.symm.trans hc)
      rcases hcounted.deadline with hold | hnew
      · obtain ⟨old, hstored, hold'⟩ := Option.bind_eq_some_iff.mp (hold.symm.trans hdeadline)
        exact hs.live who old deadline hstored hold'
      · have hsum := Option.some.inj (hnew.symm.trans hdeadline)
        omega
  · intro q c hc
    rcases hrequest.counters (some q) with hsame | ⟨d, hd, hcounted⟩
    · exact hs.processes q c (hsame ▸ hc)
    · obtain rfl := Option.some.inj (hd.symm.trans hc)
      cases hold : s.counters (some q) with
      | none => exact (hrequest.expiry (some q) d hold hc).mpr (Or.inl nofun)
      | some old =>
        rcases hcounted.deadline with hkept | hnew
        · rw [hkept, hold]
          exact hs.processes q old hold
        · rw [hnew]
          rfl

/-! ## Time -/

theorem wait_counters {seconds : ℕ} {c : RateCounter} :
    (s.wait seconds).counters who = some c ↔
      s.counters who = some c ∧ expired (s.now + seconds) c = false := by
  show (s.counters who).filter _ = some c ↔ _
  rw [Option.filter_eq_some_iff, Bool.not_eq_true']

theorem Inv.wait {seconds : ℕ} (hs : s.Inv window) : (s.wait seconds).Inv window := by
  constructor
  · intro who c hc
    exact hs.positive who c (wait_counters.mp hc).1
  · intro who c deadline hc hdeadline
    have hsoon := hs.soon who c deadline (wait_counters.mp hc).1 hdeadline
    show deadline ≤ s.now + seconds + window
    omega
  · intro who c deadline hc hdeadline
    have hfresh := (wait_counters.mp hc).2
    show s.now + seconds < deadline
    simpa [expired, hdeadline] using hfresh
  · intro q c hc
    exact hs.processes q c (wait_counters.mp hc).1

theorem inv_step {x : RateStep} (hwindow : 1 ≤ window) (hs : s.Inv window)
    (hnext : (rates window).next s x = some s') : s'.Inv window := by
  obtain rfl := Option.some.inj hnext
  cases x with
  | request process failure => exact hs.request hwindow
  | wait seconds => exact hs.wait

/-! ## What a step admits and leaves -/

/-- Within a window, what a counter admits is taken from what it has left. -/
theorem admittedBy_step {x : RateStep} (hwindow : 1 ≤ window) (hs : s.Inv window)
    (hlasts : lasts who s x) (hnext : (rates window).next s x = some s') :
    admittedBy limit window who s x + (limit - countOf (s'.counters who)) ≤
      limit - countOf (s.counters who) := by
  obtain rfl := Option.some.inj hnext
  cases x with
  | request process failure =>
    have hrequest := @requested window s process failure hs hwindow
    obtain ⟨c, hc, hcounted, hcount⟩ := hrequest.decides
    show (if _ then 1 else 0) + (limit - countOf ((s.next_rate_limit_count window process
      failure).1.counters who)) ≤ _
    split
    · next hadmitted =>
      obtain ⟨rfl, hle⟩ := hadmitted
      have hlimit : (s.next_rate_limit_count window process failure).2.2 ≤ limit := by
        simpa [admitted] using hle
      have hnew := hcounted.count
      rw [hc, countOf, Option.elim_some]
      omega
    · rcases hrequest.counters who with hsame | ⟨d, hd, hcounted'⟩
      · rw [hsame]
        omega
      · have hnew := hcounted'.count
        rw [hd, countOf, Option.elim_some]
        omega
  | wait seconds =>
    have hsame : (s.wait seconds).counters who = s.counters who := by
      cases hc : s.counters who with
      | none =>
        show (s.counters who).filter _ = none
        rw [hc]
        rfl
      | some c => exact wait_counters.mpr ⟨hc, hlasts c hc⟩
    show 0 + (limit - countOf ((s.wait seconds).counters who)) ≤ _
    rw [hsame]
    omega

/-- A step leaves only counters that expire exactly if an expiry follows each creation. -/
theorem expiring_step {x : RateStep} (hwindow : 1 ≤ window) (hs : s.Inv window)
    (hexpiring : s.Expiring) (hnext : (rates window).next s x = some s') :
    s'.Expiring ↔ expires s x = true := by
  obtain rfl := Option.some.inj hnext
  cases x with
  | request process failure =>
    have hrequest := @requested window s process failure hs hwindow
    constructor
    · intro hall
      by_contra hfalse
      have hexpires : expires s (.request process failure) = false := by simpa using hfalse
      obtain ⟨c, hc⟩ := hrequest.forgotten hexpires
      have hnone : s.counters none = none := by
        simp only [expires, Bool.or_eq_false_iff] at hexpires
        simpa using hexpires.1.2
      have hsome := (hrequest.expiry none c hnone hc).mp (hall none c hc)
      exact hfalse (hsome.resolve_left fun h => h rfl)
    · intro hexpires who c hc
      rcases hrequest.counters who with hsame | ⟨d, hd, hcounted⟩
      · exact hexpiring who c (hsame ▸ hc)
      · obtain rfl := Option.some.inj (hd.symm.trans hc)
        cases hold : s.counters who with
        | none => exact (hrequest.expiry who d hold hc).mpr (Or.inr hexpires)
        | some old =>
          rcases hcounted.deadline with hkept | hnew
          · rw [hkept, hold]
            exact hexpiring who old hold
          · rw [hnew]
            rfl
  | wait seconds =>
    refine iff_of_true (fun who c hc => ?_) rfl
    exact hexpiring who c (wait_counters.mp hc).1

/-- Without a counter every request is admitted. -/
theorem admitted_fresh (hlimit : 1 ≤ limit) (hwindow : 1 ≤ window) (hs : s.Inv window)
    (hfresh : ∀ who, s.counters who = none) : admitted limit window s process failure = true := by
  obtain ⟨c, _, hcounted, hcount⟩ := (@requested window s process failure hs hwindow).decides
  have hone := hcounted.count
  rw [hfresh, hcount] at hone
  have hfirst : (s.next_rate_limit_count window process failure).2.2 = 1 := hone
  rw [admitted, hfirst]
  exact decide_eq_true hlimit

end Rates

/-! ## Runs -/

/-- The limit holds in each window, and the identity recovers, exactly if each increment that creates
the counter of Redis is followed by its expiry. -/
theorem rate_recovers_iff {xs : List RateStep} {s : Rates} (hlimit : 1 ≤ limit)
    (hwindow : 1 ≤ window) (hrun : (rates window).Run Rates.initial xs s) :
    Recovers limit window xs ↔
      (rates window).RunIf (fun s x => expires s x = true) Rates.initial xs s := by
  have hinv : ∀ {ys : List RateStep} {t : Rates}, (rates window).Run Rates.initial ys t →
      t.Inv window := by
    intro ys t ht
    exact ht.invariant (fun s x s' _ hs hnext => Rates.inv_step hwindow hs hnext) Rates.initial_inv
  have hinitial : Rates.initial.Expiring := by
    intro who c hc
    cases hc
  have hexpiring : Machine.RunIf.Always (rates window) Rates.Expiring Rates.initial xs ↔
      (rates window).RunIf (fun s x => expires s x = true) Rates.initial xs s := by
    rw [Machine.RunIf.always_iff (fun s x s' hs hnext => Rates.inv_step hwindow hs hnext)
      (fun s x s' hs hexpiring hnext => Rates.expiring_step hwindow hs hexpiring hnext) hrun
      Rates.initial_inv]
    exact and_iff_right hinitial
  rw [← hexpiring]
  constructor
  · intro hrecovers
    exact hrecovers.expiring
  · intro halways
    constructor
    · intro who before inside after u v _ hbefore hnone hinside
      have hsteps := hinside.forall_steps (P := fun s _ => s.Inv window)
        (fun s x s' _ (hs : s.Inv window) hnext => ⟨Rates.inv_step hwindow hs hnext, hs⟩) (hinv hbefore)
      have htotal : (rates window).total (admittedBy limit window who) u inside +
          (limit - Rates.countOf (v.counters who)) ≤ limit - Rates.countOf (u.counters who) :=
        hsteps.total_le_potential (fun s => limit - Rates.countOf (s.counters who))
          fun s x s' hguard hnext => Rates.admittedBy_step hwindow hguard.2.1 hguard.1 hnext
      rw [hnone] at htotal
      have hfull : limit - Rates.countOf none = limit := rfl
      omega
    · rintro before quiet after u v rfl hbefore hquiet hlong process failure
      have hv : (rates window).Run Rates.initial (before ++ quiet) v :=
        hbefore.append (hquiet.mono fun _ _ _ => trivial)
      have hv_expiring : v.Expiring :=
        halways (before ++ quiet) after v (List.append_assoc ..).symm hv
      -- no deadline is later than a window after the last request
      have hsoon : v.Due (u.now + window) := by
        have hkeep : ∀ (s : Rates) (x : RateStep) (s' : Rates), (∃ seconds, x = .wait seconds) →
            s.Due (u.now + window) → (rates window).next s x = some s' → s'.Due (u.now + window) := by
          rintro s x s' ⟨seconds, rfl⟩ hs hnext who c deadline hc hdeadline
          obtain rfl := Option.some.inj hnext
          exact hs who c deadline (Rates.wait_counters.mp hc).1 hdeadline
        exact @Machine.RunIf.invariant _ _ (rates window) _ u v quiet
          (fun t => t.Due (u.now + window)) hkeep hquiet (hinv hbefore).soon
      refine Rates.admitted_fresh hlimit hwindow (hinv hv) fun who => ?_
      cases hc : v.counters who with
      | none => rfl
      | some c =>
        obtain ⟨deadline, hdeadline⟩ := Option.isSome_iff_exists.mp (hv_expiring who c hc)
        have hlive := (hinv hv).live who c deadline hc hdeadline
        have hle := hsoon who c deadline hc hdeadline
        omega
    · exact halways

/-- Three requests of a window with a limit of two, one of them by way of the process, and a
request after it. -/
theorem window_recovers : ∃ s, (rates 60).Run Rates.initial
      [.request 0 .never, .request 0 .never, .request 0 .never, .request 1 .incr, .wait 60,
        .request 0 .never] s ∧
    (Recovers 2 60 [.request 0 .never, .request 0 .never, .request 0 .never, .request 1 .incr,
        .wait 60, .request 0 .never] ↔
      (rates 60).RunIf (fun s x => expires s x = true) Rates.initial
        [.request 0 .never, .request 0 .never, .request 0 .never, .request 1 .incr, .wait 60,
          .request 0 .never] s) := by
  have henabled : ((rates 60).exec Rates.initial
      [.request 0 .never, .request 0 .never, .request 0 .never, .request 1 .incr, .wait 60,
        .request 0 .never]).isSome = true := rfl
  obtain ⟨s, hrun⟩ := Machine.exists_run henabled
  exact ⟨s, hrun, rate_recovers_iff 2 60 (by decide) (by decide) hrun⟩

/-- The expiry of the first request fails, and the counter stays: after the limit of one the identity
is never admitted by Redis again. -/
theorem counter_stays : ¬ ∀ limit window xs s, 1 ≤ limit → 1 ≤ window →
    (rates window).Run Rates.initial xs s → Recovers limit window xs := by
  intro hall
  have hrun : ∃ s, (rates 60).Run Rates.initial [.request 0 .expire, .wait 3600] s :=
    Machine.exists_run rfl
  obtain ⟨s, hrun⟩ := hrun
  have hrecovers := hall 1 60 _ s le_rfl (by decide) hrun
  have hadmitted := hrecovers.again [.request 0 .expire] [.wait 3600] [] _ _ rfl
    (Machine.exec_eq_some_iff.mp rfl)
    (Machine.RunIf.cons ⟨3600, rfl⟩ rfl (Machine.RunIf.nil _)) (by decide) 0 .never
  exact absurd hadmitted (by decide)

end AlgoBot.Developer
