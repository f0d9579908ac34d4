import AlgoBot.Core.Machine
import AlgoBot.Core.Owner

/-!
# What an owner does once

A family of processes in a machine, a token, and an event that only the owner of the
token can cause, as long as it has it still ahead. `OnceStep` lists what a step may
do to the family and the token; the token is never given back.

* `OnceStep.owned`: there stays one owner.
* `takes_once`: the token is taken at most once.
* `fires_once`: the event happens at most once.
-/

namespace AlgoBot.Core

universe u v w x

variable {σ : Type u} {α : Type v} {ι : Type w} {β : Type x} [DecidableEq ι]

/-- A family of processes around a token: who is active, and who has the event still ahead. -/
structure Family (σ : Type u) (ι : Type w) (β : Type x) where
  procs : σ → ι → β
  active : β → Bool
  ahead : β → Bool
  held : σ → Prop
  active_of_ahead : ∀ b, ahead b = true → active b = true

/-- What a step does, when `taken` and `fired` count what it takes and causes. -/
inductive OnceStep (F : Family σ ι β) (s s' : σ) (taken fired : ℕ) : Prop where
  /-- No process moves. -/
  | rests (procs : F.procs s' = F.procs s) (held : F.held s → F.held s') (no_take : taken = 0)
      (no_fire : fired = 0)
  /-- Process `i` is not active after the step. -/
  | stops (i : ι) (y : β) (procs : F.procs s' = Function.update (F.procs s) i y)
      (idle : F.active y = false) (held : F.held s → F.held s') (no_take : taken = 0)
      (no_fire : fired = 0)
  /-- Process `i` takes the token, which is free. -/
  | takes (i : ι) (y : β) (procs : F.procs s' = Function.update (F.procs s) i y)
      (free : ¬ F.held s) (held : F.held s') (take : taken ≤ 1) (no_fire : fired = 0)
  /-- The owner goes on. -/
  | goes (i : ι) (y : β) (procs : F.procs s' = Function.update (F.procs s) i y)
      (active : F.active (F.procs s i) = true) (held : F.held s → F.held s')
      (ahead : F.ahead y = true → F.ahead (F.procs s i) = true) (no_take : taken = 0)
      (no_fire : fired = 0)
  /-- The owner causes the event. -/
  | fires (i : ι) (y : β) (procs : F.procs s' = Function.update (F.procs s) i y)
      (ahead : F.ahead (F.procs s i) = true) (held : F.held s → F.held s')
      (spent : F.ahead y = false) (no_take : taken = 0) (fire : fired ≤ 1)

namespace OnceStep

variable {F : Family σ ι β} {s s' : σ} {taken fired : ℕ}

theorem owned (h : OnceStep F s s' taken fired)
    (ho : Owned F.active (F.held s) (F.procs s)) : Owned F.active (F.held s') (F.procs s') := by
  cases h with
  | rests hprocs hheld =>
    rw [hprocs]
    exact ho.mono hheld
  | stops i y hprocs hidle hheld =>
    rw [hprocs]
    exact (ho.update_of_idle hidle).mono hheld
  | takes i y hprocs hfree hheld =>
    rw [hprocs]
    exact ho.acquire hfree hheld
  | goes i y hprocs hactive hheld =>
    rw [hprocs]
    exact ho.keep hactive hheld
  | fires i y hprocs hahead hheld =>
    rw [hprocs]
    exact ho.keep (F.active_of_ahead _ hahead) hheld

/-- The token stays taken. -/
theorem held_mono (h : OnceStep F s s' taken fired) (hs : F.held s) : F.held s' := by
  cases h with
  | rests _ hheld => exact hheld hs
  | stops _ _ _ _ hheld => exact hheld hs
  | takes _ _ _ hfree => exact absurd hs hfree
  | goes _ _ _ _ hheld => exact hheld hs
  | fires _ _ _ _ hheld => exact hheld hs

theorem taken_le_one (h : OnceStep F s s' taken fired) : taken ≤ 1 := by
  cases h <;> omega

theorem fired_le_one (h : OnceStep F s s' taken fired) : fired ≤ 1 := by
  cases h <;> omega

theorem no_take_of_held (h : OnceStep F s s' taken fired) (hs : F.held s) : taken = 0 := by
  cases h with
  | takes _ _ _ hfree => exact absurd hs hfree
  | _ => assumption

theorem held_of_take (h : OnceStep F s s' taken fired) (ht : taken ≠ 0) : F.held s' := by
  cases h with
  | takes _ _ _ _ hheld => exact hheld
  | _ => contradiction

end OnceStep

/-- The token is taken, and nobody has the event ahead. -/
structure Over (F : Family σ ι β) (s : σ) : Prop where
  held : F.held s
  spent : ∀ i, F.ahead (F.procs s i) = false

section Over

variable {F : Family σ ι β} {s s' : σ} {taken fired : ℕ}

theorem OnceStep.keeps_over (h : OnceStep F s s' taken fired) (hover : Over F s) :
    Over F s' ∧ fired = 0 := by
  -- process `i` is changed to `y`, which has nothing ahead
  have hkeep : ∀ i y, F.procs s' = Function.update (F.procs s) i y → F.ahead y = false →
      ∀ j, F.ahead (F.procs s' j) = false := by
    intro i y hprocs hy j
    rw [hprocs]
    by_cases hj : j = i
    · rw [hj, Function.update_self]
      exact hy
    · rw [Function.update_of_ne hj]
      exact hover.spent j
  have hheld := h.held_mono hover.held
  cases h with
  | rests hprocs _ _ hfire =>
    refine ⟨⟨hheld, ?_⟩, hfire⟩
    rw [hprocs]
    exact hover.spent
  | stops i y hprocs hidle _ _ hfire =>
    refine ⟨⟨hheld, hkeep i y hprocs ?_⟩, hfire⟩
    cases hy : F.ahead y with
    | false => rfl
    | true =>
      rw [F.active_of_ahead y hy] at hidle
      cases hidle
  | takes _ _ _ hfree => exact absurd hover.held hfree
  | goes i y hprocs _ _ hahead _ hfire =>
    refine ⟨⟨hheld, hkeep i y hprocs ?_⟩, hfire⟩
    cases hy : F.ahead y with
    | false => rfl
    | true =>
      have hi := hahead hy
      rw [hover.spent i] at hi
      cases hi
  | fires i y _ hahead =>
    rw [hover.spent i] at hahead
    cases hahead

/-- The owner is the only one that had the event ahead. -/
theorem OnceStep.over_of_fire (h : OnceStep F s s' taken fired)
    (ho : Owned F.active (F.held s) (F.procs s)) (hfire : fired ≠ 0) : Over F s' := by
  cases h with
  | fires i y hprocs hahead hheld hy =>
    have hactive := F.active_of_ahead _ hahead
    refine ⟨hheld (ho.holds i hactive), ?_⟩
    intro j
    rw [hprocs]
    by_cases hj : j = i
    · rw [hj, Function.update_self]
      exact hy
    · rw [Function.update_of_ne hj]
      have hidle := ho.others hactive hj
      cases hy : F.ahead (F.procs s j) with
      | false => rfl
      | true =>
        rw [F.active_of_ahead _ hy] at hidle
        cases hidle
  | _ => contradiction

end Over

/-! ## Runs -/

section Runs

variable {M : Machine σ α} {G : σ → α → Prop} {F : Family σ ι β} {s t : σ} {as : List α}
  {taken fired : σ → α → ℕ}

theorem takes_once
    (hstep : ∀ s a s', G s a → M.next s a = some s' → OnceStep F s s' (taken s a) (fired s a))
    (hrun : M.RunIf G s as t) : M.total taken s as ≤ 1 := by
  apply hrun.total_le_one F.held
  · intro s a s' hg hn
    exact (hstep s a s' hg hn).taken_le_one
  · intro s a s' hg hn hs
    exact (hstep s a s' hg hn).held_mono hs
  · intro s a s' hg hn hs
    exact (hstep s a s' hg hn).no_take_of_held hs
  · intro s a s' hg hn ht
    exact (hstep s a s' hg hn).held_of_take ht

theorem fires_once
    (hstep : ∀ s a s', G s a → M.next s a = some s' → OnceStep F s s' (taken s a) (fired s a))
    (ho : Owned F.active (F.held s) (F.procs s)) (hrun : M.RunIf G s as t) :
    M.total fired s as ≤ 1 := by
  have howned : ∀ s a s', G s a → Owned F.active (F.held s) (F.procs s) →
      M.next s a = some s' → Owned F.active (F.held s') (F.procs s') ∧ True := by
    intro s a s' hg ho hn
    exact ⟨(hstep s a s' hg hn).owned ho, trivial⟩
  apply (hrun.forall_steps howned ho).total_le_one (Over F)
  · intro s a s' hg hn
    exact (hstep s a s' hg.1 hn).fired_le_one
  · intro s a s' hg hn hs
    exact ((hstep s a s' hg.1 hn).keeps_over hs).1
  · intro s a s' hg hn hs
    exact ((hstep s a s' hg.1 hn).keeps_over hs).2
  · intro s a s' hg hn hf
    exact (hstep s a s' hg.1 hn).over_of_fire hg.2.1 hf

end Runs

end AlgoBot.Core
