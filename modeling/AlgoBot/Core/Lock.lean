import AlgoBot.Core.Machine
import AlgoBot.Core.Owner

/-!
# A lock that stays locked once its holder has succeeded

Processes take a lock, and the holder goes on until it either gives the lock back
or causes an event and leaves the lock locked. `LockStep` lists what a step may do
to the processes and the lock.

* `LockStep.owned`: there stays one holder.
* `lock_fires_once`: the event happens at most once, however often the lock is
  given back before it.
-/

namespace AlgoBot.Core

universe u v w x

variable {σ : Type u} {α : Type v} {ι : Type w} {β : Type x} [DecidableEq ι]

/-- Processes around a lock: which of them hold it, and whether it is locked. -/
structure Lock (σ : Type u) (ι : Type w) (β : Type x) where
  procs : σ → ι → β
  holds : β → Bool
  locked : σ → Prop

/-- What a step does, when `fired` counts the events it causes. -/
inductive LockStep (L : Lock σ ι β) (s s' : σ) (fired : ℕ) : Prop where
  /-- No process moves. -/
  | rests (procs : L.procs s' = L.procs s) (locked : L.locked s → L.locked s') (no_fire : fired = 0)
  /-- A process that does not hold the lock moves and does not take it. -/
  | passes (i : ι) (y : β) (procs : L.procs s' = Function.update (L.procs s) i y)
      (idle : L.holds y = false) (locked : L.locked s → L.locked s') (no_fire : fired = 0)
  /-- Process `i` takes the lock. -/
  | takes (i : ι) (y : β) (procs : L.procs s' = Function.update (L.procs s) i y)
      (free : ¬ L.locked s) (locked : L.locked s') (no_fire : fired = 0)
  /-- The holder goes on. -/
  | goes (i : ι) (y : β) (procs : L.procs s' = Function.update (L.procs s) i y)
      (holder : L.holds (L.procs s i) = true) (locked : L.locked s → L.locked s')
      (no_fire : fired = 0)
  /-- The holder gives the lock back. -/
  | gives (i : ι) (y : β) (procs : L.procs s' = Function.update (L.procs s) i y)
      (holder : L.holds (L.procs s i) = true) (idle : L.holds y = false) (no_fire : fired = 0)
  /-- The holder causes the event and leaves the lock locked. -/
  | fires (i : ι) (y : β) (procs : L.procs s' = Function.update (L.procs s) i y)
      (holder : L.holds (L.procs s i) = true) (idle : L.holds y = false)
      (locked : L.locked s → L.locked s') (fire : fired ≤ 1)

/-- The lock is locked and nobody holds it. -/
structure Shut (L : Lock σ ι β) (s : σ) : Prop where
  locked : L.locked s
  idle : ∀ i, L.holds (L.procs s i) = false

namespace LockStep

variable {L : Lock σ ι β} {s s' : σ} {fired : ℕ}

theorem owned (h : LockStep L s s' fired) (ho : Owned L.holds (L.locked s) (L.procs s)) :
    Owned L.holds (L.locked s') (L.procs s') := by
  cases h with
  | rests hprocs hlocked =>
    rw [hprocs]
    exact ho.mono hlocked
  | passes i y hprocs hidle hlocked =>
    rw [hprocs]
    exact (ho.update_of_idle hidle).mono hlocked
  | takes i y hprocs hfree hlocked =>
    rw [hprocs]
    exact ho.acquire hfree hlocked
  | goes i y hprocs hholder hlocked =>
    rw [hprocs]
    exact ho.keep hholder hlocked
  | gives i y hprocs hholder hidle =>
    rw [hprocs]
    exact Owned.of_idle (ho.release hholder hidle)
  | fires i y hprocs hholder hidle =>
    rw [hprocs]
    exact Owned.of_idle (ho.release hholder hidle)

theorem fired_le_one (h : LockStep L s s' fired) : fired ≤ 1 := by
  cases h <;> omega

/-- Once the lock is shut, it stays shut and the event does not happen. -/
theorem keeps_shut (h : LockStep L s s' fired) (hshut : Shut L s) : Shut L s' ∧ fired = 0 := by
  cases h with
  | rests hprocs hlocked hfire =>
    refine ⟨⟨hlocked hshut.locked, ?_⟩, hfire⟩
    rw [hprocs]
    exact hshut.idle
  | passes i y hprocs hidle hlocked hfire =>
    refine ⟨⟨hlocked hshut.locked, ?_⟩, hfire⟩
    intro j
    rw [hprocs]
    by_cases hj : j = i
    · rw [hj, Function.update_self]
      exact hidle
    · rw [Function.update_of_ne hj]
      exact hshut.idle j
  | takes _ _ _ hfree => exact absurd hshut.locked hfree
  | goes i _ _ hholder | gives i _ _ hholder | fires i _ _ hholder =>
    -- nobody holds it
    rw [hshut.idle i] at hholder
    cases hholder

/-- The event shuts the lock. -/
theorem shut_of_fire (h : LockStep L s s' fired)
    (ho : Owned L.holds (L.locked s) (L.procs s)) (hfire : fired ≠ 0) : Shut L s' := by
  cases h with
  | fires i y hprocs hholder hidle hlocked =>
    refine ⟨hlocked (ho.holds i hholder), ?_⟩
    rw [hprocs]
    exact ho.release hholder hidle
  | _ => contradiction

end LockStep

variable {M : Machine σ α} {G : σ → α → Prop} {L : Lock σ ι β} {s t : σ} {as : List α}
  {fired : σ → α → ℕ}

theorem lock_fires_once
    (hstep : ∀ s a s', G s a → M.next s a = some s' → LockStep L s s' (fired s a))
    (ho : Owned L.holds (L.locked s) (L.procs s)) (hrun : M.RunIf G s as t) :
    M.total fired s as ≤ 1 := by
  have howned : ∀ s a s', G s a → Owned L.holds (L.locked s) (L.procs s) →
      M.next s a = some s' → Owned L.holds (L.locked s') (L.procs s') ∧ True := by
    intro s a s' hg ho hn
    exact ⟨(hstep s a s' hg hn).owned ho, trivial⟩
  apply (hrun.forall_steps howned ho).total_le_one (Shut L)
  · intro s a s' hg hn
    exact (hstep s a s' hg.1 hn).fired_le_one
  · intro s a s' hg hn hs
    exact ((hstep s a s' hg.1 hn).keeps_shut hs).1
  · intro s a s' hg hn hs
    exact ((hstep s a s' hg.1 hn).keeps_shut hs).2
  · intro s a s' hg hn hf
    exact (hstep s a s' hg.1 hn).shut_of_fire hg.2.1 hf

end AlgoBot.Core
