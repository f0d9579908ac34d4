import Mathlib.Logic.Function.Basic
import Mathlib.Data.Nat.Basic
import AlgoBot.Core.Machine

/-!
# The limit of authentication attempts

`allow_auth_attempt` adds the key of a window to the shared cache, increments it where it
exists, and tries both once more where it has expired in between. Calls interleave at each
command, and the key expires anywhere between them. An exception leads to the cache of the
process, which is meant for an outage; a key that expires twice in one call is an exception.

* `attempts_limited`: calls none of which finds the key gone at its second increment admit at
  most `limit` attempts in a window, and the first attempt after one.
* `fallback_exceeds`: a call in which two windows end.
-/

namespace AlgoBot.Auth

open AlgoBot.Core

/-! ## Calls -/

/-- The next command of a call, or its result. -/
inductive Attempt
  | add
  | incr
  /-- After a `ValueError` of the increment. -/
  | addAgain
  | incrAgain
  /-- After an exception. -/
  | fallback
  | returned (allowed : Bool)
  deriving DecidableEq

/-- The counter of one key in the shared cache and in each process, and the calls. -/
structure Attempts where
  key : Option ℕ
  fallback : ℕ → Option ℕ
  calls : ℕ → Attempt

def Attempts.initial : Attempts := ⟨none, fun _ => none, fun _ => .add⟩

inductive AttemptStep
  /-- The next command of a call. -/
  | command (call : ℕ)
  /-- The fallback of a call in a process, whose counter may expire before the increment. -/
  | fallback (call process : ℕ) (expires : Bool)
  /-- The window of the shared counter ends. -/
  | expire
  /-- The window of the counter of a process ends. -/
  | expireLocal (process : ℕ)
  deriving DecidableEq

variable (limit : ℕ)

/-- What `add` and `incr` do to the shared counter and to the call. -/
def sharedCommand (key : Option ℕ) : Attempt → Option (Option ℕ × Attempt)
  | .add =>
    match key with
    | none => some (some 1, .returned true)
    | some n => some (some n, .incr)
  | .incr =>
    match key with
    | none => some (none, .addAgain)
    | some n => some (some (n + 1), .returned (n + 1 ≤ limit))
  | .addAgain =>
    match key with
    | none => some (some 1, .returned true)
    | some n => some (some n, .incrAgain)
  | .incrAgain =>
    match key with
    -- this `ValueError` is none of a backend that is down
    | none => some (none, .fallback)
    | some n => some (some (n + 1), .returned (n + 1 ≤ limit))
  | .fallback => none
  | .returned _ => none

/-- The counter of a process, under its lock: where it expires, it is added again. -/
def localCommand (key : Option ℕ) (expires : Bool) : ℕ × Bool :=
  match key with
  | none => (1, true)
  | some n => if expires then (1, true) else (n + 1, n + 1 ≤ limit)

def attemptStep (s : Attempts) : AttemptStep → Option Attempts
  | .command call =>
    (sharedCommand limit s.key (s.calls call)).map fun (key, attempt) =>
      { s with key := key, calls := Function.update s.calls call attempt }
  | .fallback call process expires =>
    if s.calls call = .fallback then
      let (n, allowed) := localCommand limit (s.fallback process) expires
      some { s with
        fallback := Function.update s.fallback process (some n)
        calls := Function.update s.calls call (.returned allowed) }
    else none
  | .expire => s.key.map fun _ => { s with key := none }
  | .expireLocal process =>
    (s.fallback process).map fun _ => { s with fallback := Function.update s.fallback process none }

def attempts : Machine Attempts AttemptStep where
  next := attemptStep limit

/-! ## Admissions -/

/-- The step makes a call return `True`. -/
def admits (s : Attempts) : AttemptStep → Bool
  | .command call =>
    (sharedCommand limit s.key (s.calls call)).any fun (_, attempt) => attempt = .returned true
  | .fallback call process expires =>
    s.calls call = .fallback && (localCommand limit (s.fallback process) expires).2
  | .expire => false
  | .expireLocal _ => false

/-- What a step counts as. -/
def admissions (s : Attempts) (x : AttemptStep) : ℕ := if admits limit s x then 1 else 0

/-- No second increment of a call finds the key gone. -/
def Attempts.finds (s : Attempts) : AttemptStep → Bool
  | .command call => !(s.calls call = .incrAgain && s.key.isNone)
  | _ => true

/-- What a window may still admit. -/
def Attempts.left (s : Attempts) : ℕ := limit - s.key.getD 0

/-- No call is in its fallback. -/
def Attempts.Shared (s : Attempts) : Prop := ∀ call, s.calls call ≠ .fallback

section Steps

variable {limit} {s s' : Attempts} {x : AttemptStep} {call : ℕ}

theorem sharedCommand_shared {attempt attempt' : Attempt} {key key' : Option ℕ}
    (hfinds : ¬ (attempt = .incrAgain ∧ key = none))
    (hnext : sharedCommand limit key attempt = some (key', attempt')) :
    attempt' ≠ .fallback := by
  rintro rfl
  cases attempt <;> cases key <;> simp [sharedCommand] at hnext hfinds

/-- A command admits at most one attempt, and takes it from what is left. -/
theorem sharedCommand_left {attempt attempt' : Attempt} {key key' : Option ℕ}
    (hlimit : 1 ≤ limit) (hnext : sharedCommand limit key attempt = some (key', attempt')) :
    (if attempt' = .returned true then 1 else 0) + (limit - key'.getD 0) ≤ limit - key.getD 0 := by
  cases attempt with
  | add | addAgain =>
    cases key with
    | none =>
      cases hnext
      rw [if_pos rfl, Option.getD_some, Option.getD_none]
      omega
    | some n =>
      cases hnext
      simp
  | incr | incrAgain =>
    cases key with
    | none =>
      cases hnext
      simp
    | some n =>
      cases hnext
      rw [Option.getD_some, Option.getD_some]
      split
      · next hle =>
        have hn : n + 1 ≤ limit := by simpa using hle
        omega
      · omega
  | fallback => cases hnext
  | returned allowed => cases hnext

theorem shared_step (hfinds : s.finds x = true) (hs : s.Shared)
    (hnext : (attempts limit).next s x = some s') : s'.Shared := by
  change attemptStep limit s x = some s' at hnext
  cases x with
  | command call =>
    obtain ⟨⟨key, attempt⟩, hcommand, rfl⟩ := Option.map_eq_some_iff.mp hnext
    intro other
    by_cases hother : other = call
    · rw [hother]
      show Function.update s.calls call attempt call ≠ .fallback
      rw [Function.update_self]
      refine sharedCommand_shared ?_ hcommand
      rintro ⟨hcall, hkey⟩
      simp [Attempts.finds, hcall, hkey] at hfinds
    · show Function.update s.calls call attempt other ≠ .fallback
      rw [Function.update_of_ne hother]
      exact hs other
  | fallback call process expires =>
    rw [attemptStep, if_neg (hs call)] at hnext
    cases hnext
  | expire =>
    obtain ⟨_, _, rfl⟩ := Option.map_eq_some_iff.mp hnext
    exact hs
  | expireLocal process =>
    obtain ⟨_, _, rfl⟩ := Option.map_eq_some_iff.mp hnext
    exact hs

/-- Within a window, what is admitted is taken from what is left. -/
theorem left_step (hlimit : 1 ≤ limit) (hs : s.Shared) (hx : x ≠ .expire)
    (hnext : (attempts limit).next s x = some s') :
    admissions limit s x + s'.left limit ≤ s.left limit := by
  change attemptStep limit s x = some s' at hnext
  cases x with
  | command call =>
    obtain ⟨⟨key, attempt⟩, hcommand, rfl⟩ := Option.map_eq_some_iff.mp hnext
    have hleft := sharedCommand_left hlimit hcommand
    simpa [admissions, admits, hcommand, Attempts.left] using hleft
  | fallback call process expires =>
    rw [attemptStep, if_neg (hs call)] at hnext
    cases hnext
  | expire => exact absurd rfl hx
  | expireLocal process =>
    obtain ⟨_, _, rfl⟩ := Option.map_eq_some_iff.mp hnext
    simp [admissions, admits, Attempts.left]

/-- Where the key has expired, whoever adds it is admitted. -/
theorem next_command {key : Option ℕ} {attempt : Attempt}
    (hcommand : sharedCommand limit s.key (s.calls call) = some (key, attempt)) :
    (attempts limit).next s (.command call) =
      some { s with key := key, calls := Function.update s.calls call attempt } := by
  show (sharedCommand limit s.key (s.calls call)).map _ = _
  rw [hcommand]
  rfl

/-- Where the key has expired, a call that adds it is admitted, and one that increments it adds it
next. -/
theorem exec_expired (hkey : s.key = none)
    (hcall : s.calls call = .add ∨ s.calls call = .incr ∨ s.calls call = .addAgain) :
    ∃ s', ((attempts limit).exec s [.command call] = some s' ∨
        (attempts limit).exec s [.command call, .command call] = some s') ∧
      s'.calls call = .returned true := by
  -- a call that is about to add the key
  have hadd : ∀ t : Attempts, t.key = none → (t.calls call = .add ∨ t.calls call = .addAgain) →
      ∃ s', (attempts limit).next t (.command call) = some s' ∧ s'.calls call = .returned true := by
    intro t ht hcall
    refine ⟨_, @next_command limit t call (some 1) (.returned true) ?_, Function.update_self ..⟩
    rcases hcall with hcall | hcall
    · rw [ht, hcall]
      rfl
    · rw [ht, hcall]
      rfl
  rcases hcall with hcall | hcall | hcall
  · obtain ⟨s', hs', hreturned⟩ := hadd s hkey (Or.inl hcall)
    exact ⟨s', Or.inl (by rw [Machine.exec, hs']; rfl), hreturned⟩
  · -- the increment is a `ValueError`
    have hincr : sharedCommand limit s.key (s.calls call) = some (none, .addAgain) := by
      rw [hkey, hcall]
      rfl
    obtain ⟨s', hs', hreturned⟩ := hadd
      { s with key := none, calls := Function.update s.calls call .addAgain } rfl
      (Or.inr (Function.update_self ..))
    refine ⟨s', Or.inr ?_, hreturned⟩
    rw [Machine.exec, next_command hincr, Option.bind_some, Machine.exec, hs']
    rfl
  · obtain ⟨s', hs', hreturned⟩ := hadd s hkey (Or.inr hcall)
    exact ⟨s', Or.inl (by rw [Machine.exec, hs']; rfl), hreturned⟩

end Steps

/-! ## Runs -/

/-- The attempts of each window are limited, and after a window there is another one. -/
structure Limited (limit : ℕ) (xs : List AttemptStep) : Prop where
  /-- What starts without a key and does not get to an expiry is one window. -/
  window : ∀ before inside after u v, xs = before ++ (inside ++ after) →
    (attempts limit).Run Attempts.initial before u → u.key = none →
    (attempts limit).RunIf (fun _ x => x ≠ .expire) u inside v →
    (attempts limit).total (admissions limit) u inside ≤ limit
  /-- Where the key has expired, a call is admitted. -/
  again : ∀ before rest u call, xs = before ++ rest →
    (attempts limit).Run Attempts.initial before u → u.key = none →
    (u.calls call = .add ∨ u.calls call = .incr ∨ u.calls call = .addAgain) →
    ∃ s, ((attempts limit).exec u [.command call] = some s ∨
        (attempts limit).exec u [.command call, .command call] = some s) ∧
      s.calls call = .returned true

/-- In a run where no second increment finds the key gone, the attempts are limited. -/
theorem attempts_limited {xs : List AttemptStep} {s : Attempts} (hlimit : 1 ≤ limit)
    (hrun : (attempts limit).RunIf (fun s x => s.finds x = true) Attempts.initial xs s) :
    Limited limit xs := by
  have hinitial : Attempts.initial.Shared := by
    intro call hcall
    cases hcall
  constructor
  · rintro before inside after u v rfl hbefore hkey hinside
    obtain ⟨u', hu, hrest⟩ := hrun.split
    obtain rfl : u' = u := Option.some.inj (hu.exec_eq.symm.trans hbefore.exec_eq)
    have hu_shared : u'.Shared :=
      hu.invariant (fun s x s' hfinds hs hnext => shared_step hfinds hs hnext) hinitial
    obtain ⟨v', hv, _⟩ := hrest.split
    obtain rfl : v' = v := Option.some.inj (hv.exec_eq.symm.trans hinside.exec_eq)
    -- within the window a step is no expiry, and no call is in its fallback
    have hsteps := hv.forall_steps (P := fun s _ => s.Shared)
      (fun s x s' hfinds (hs : s.Shared) hnext => ⟨shared_step hfinds hs hnext, hs⟩) hu_shared
    have hwithin := hsteps.and hinside
    have hleft : (attempts limit).total (admissions limit) u' inside + v'.left limit ≤ u'.left limit :=
      hwithin.total_le_potential (Attempts.left limit) fun s x s' hguard hnext =>
        left_step hlimit hguard.1.2.1 hguard.2 hnext
    have hfull : u'.left limit = limit := by rw [Attempts.left, hkey]; rfl
    omega
  · intro before rest u call _ _ hkey hcall
    exact exec_expired hkey hcall

/-- Two attempts of a window, the second one at its end, and the next window. -/
theorem two_windows : ∃ s, (attempts 1).RunIf (fun s x => s.finds x = true) Attempts.initial
      [.command 0, .command 1, .expire, .command 1, .command 1, .command 2, .command 2] s ∧
    Limited 1 [.command 0, .command 1, .expire, .command 1, .command 1, .command 2, .command 2] := by
  have henabled : ((attempts 1).execIf (fun s x => s.finds x = true) Attempts.initial
      [.command 0, .command 1, .expire, .command 1, .command 1, .command 2, .command 2]).isSome =
        true := by
    decide
  obtain ⟨s, hrun⟩ := Machine.exists_runIf henabled
  exact ⟨s, hrun, attempts_limited 1 le_rfl hrun⟩

/-- Two windows end in call 1, and it is admitted next to call 3 in the third one. -/
theorem fallback_exceeds : ¬ ∀ limit xs s, 1 ≤ limit →
    (attempts limit).Run Attempts.initial xs s → Limited limit xs := by
  intro hall
  have hexec : ((attempts 1).exec Attempts.initial
      [.command 0, .command 1, .expire, .command 1, .command 2, .command 1, .expire, .command 1,
        .command 3, .fallback 1 0 false]).isSome = true := by
    decide
  obtain ⟨s, hrun⟩ := Machine.exists_run hexec
  have hlimited := hall 1 _ s le_rfl hrun
  have hbefore : ((attempts 1).exec Attempts.initial
      [.command 0, .command 1, .expire, .command 1, .command 2, .command 1, .expire, .command 1]).map
        (fun u => (u.key,
          ((attempts 1).execIf (fun _ x => x ≠ .expire) u [.command 3, .fallback 1 0 false]).isSome,
          (attempts 1).total (admissions 1) u [.command 3, .fallback 1 0 false])) =
      some (none, true, 2) := by
    decide
  obtain ⟨u, hu, hvalues⟩ := Option.map_eq_some_iff.mp hbefore
  obtain ⟨hkey, hrest⟩ := Prod.mk.inj hvalues
  obtain ⟨hinside, htotal⟩ := Prod.mk.inj hrest
  obtain ⟨v, hv⟩ := Machine.exists_runIf hinside
  have hle := hlimited.window _ _ [] u v rfl (Machine.exec_eq_some_iff.mp hu) hkey hv
  rw [htotal] at hle
  exact absurd hle (by decide)

end AlgoBot.Auth
