import Mathlib.Logic.Function.Basic

/-!
# One owner at a time

A family of processes, some of which are active, and a token an active process
holds. `Owned` says that every active process holds the token and that no two
are active. A process becomes active by taking the free token (`acquire`), and
the active one may go on (`keep`) or stop (`release`).
-/

namespace AlgoBot.Core

universe u v

variable {ι : Type u} {β : Type v} {active : β → Bool} {held held' : Prop} {f : ι → β}

/-- At most one process is active, and only while the token is held. -/
structure Owned (active : β → Bool) (held : Prop) (f : ι → β) : Prop where
  holds : ∀ i, active (f i) = true → held
  unique : ∀ i j, active (f i) = true → active (f j) = true → i = j

namespace Owned

/-- Nobody is active while the token is free. -/
theorem idle (h : Owned active held f) (hfree : ¬ held) (i : ι) : active (f i) = false := by
  cases hi : active (f i) with
  | false => rfl
  | true => exact absurd (h.holds i hi) hfree

/-- A family in which nobody is active. -/
theorem of_idle (h : ∀ i, active (f i) = false) : Owned active held f := by
  constructor
  · intro i hi
    simp [h i] at hi
  · intro i _ hi
    simp [h i] at hi

theorem mono (h : Owned active held f) (hheld : held → held') : Owned active held' f :=
  ⟨fun i hi => hheld (h.holds i hi), h.unique⟩

/-- If only process `i` can be active, there is one owner. -/
theorem of_others {i : ι} (hheld : held) (hother : ∀ j, j ≠ i → active (f j) = false) :
    Owned active held f := by
  have honly : ∀ j, active (f j) = true → j = i := by
    intro j hj
    by_contra hne
    simp [hother j hne] at hj
  constructor
  · intro _ _
    exact hheld
  · intro j k hj hk
    rw [honly j hj, honly k hk]

/-- While one process is active, the others are not. -/
theorem others {i j : ι} (h : Owned active held f) (hi : active (f i) = true) (hj : j ≠ i) :
    active (f j) = false := by
  cases hact : active (f j) with
  | false => rfl
  | true => exact absurd (h.unique j i hact hi) hj

/-- A family in which nobody else has become active. -/
theorem of_subset {g : ι → β} (h : Owned active held f)
    (hsub : ∀ i, active (g i) = true → active (f i) = true) : Owned active held g := by
  constructor
  · intro i hi
    exact h.holds i (hsub i hi)
  · intro i j hi hj
    exact h.unique i j (hsub i hi) (hsub j hj)

variable [DecidableEq ι] {i : ι} {x : β}

/-- A process that stops, or was not active, leaves the owner as it was. -/
theorem update_of_idle (h : Owned active held f) (hx : active x = false) :
    Owned active held (Function.update f i x) := by
  apply h.of_subset
  intro j hj
  by_cases hji : j = i
  · rw [hji, Function.update_self, hx] at hj
    cases hj
  · rwa [Function.update_of_ne hji] at hj

/-- A process takes the free token. -/
theorem acquire (h : Owned active held f) (hfree : ¬ held) (hheld : held') :
    Owned active held' (Function.update f i x) := by
  apply of_others hheld
  intro j hj
  rw [Function.update_of_ne hj]
  exact h.idle hfree j

/-- The active process takes a step and stays the only one. -/
theorem keep (h : Owned active held f) (hi : active (f i) = true) (hheld : held → held') :
    Owned active held' (Function.update f i x) := by
  apply of_others (hheld (h.holds i hi))
  intro j hj
  rw [Function.update_of_ne hj]
  exact h.others hi hj

/-- The active process stops; then nobody is active, whatever becomes of the token. -/
theorem release (h : Owned active held f) (hi : active (f i) = true) (hx : active x = false) :
    ∀ j, active (Function.update f i x j) = false := by
  intro j
  by_cases hj : j = i
  · rw [hj, Function.update_self, hx]
  · rw [Function.update_of_ne hj]
    exact h.others hi hj

end Owned

end AlgoBot.Core
