import Mathlib.Logic.Function.Basic
import Mathlib.Data.Nat.Notation

/-!
# A cache with times to live

A key has a value and a deadline, and from the deadline on the value is not found
any more. The entry itself may stay behind until it is written or deleted, which
no reader can tell.
-/

namespace AlgoBot.Core

universe u v

/-- A value and the time from which it is not found any more. -/
structure Cached (ν : Type v) where
  value : ν
  deadline : ℕ

abbrev Cache (κ : Type u) (ν : Type v) := κ → Option (Cached ν)

namespace Cache

variable {κ : Type u} {ν : Type v}

/-- The value of a key at a time. -/
def get (c : Cache κ ν) (now : ℕ) (k : κ) : Option ν :=
  (c k).bind fun e => if now < e.deadline then some e.value else none

/-- Every entry of the key is found. -/
def Fresh (c : Cache κ ν) (now : ℕ) (k : κ) : Prop := ∀ e, c k = some e → now < e.deadline

instance (c : Cache κ ν) (now : ℕ) (k : κ) : Decidable (c.Fresh now k) :=
  match h : c k with
  | none => isTrue (by simp [Fresh, h])
  | some e =>
    if hlt : now < e.deadline then isTrue (by simp [Fresh, h, hlt])
    else isFalse (by simp [Fresh, h, hlt])

theorem get_eq_none {c : Cache κ ν} {now : ℕ} {k : κ} (h : c k = none) : c.get now k = none := by
  simp [get, h]

/-- A key without a value has no entry, unless an entry has come to its deadline. -/
theorem Fresh.eq_none {c : Cache κ ν} {now : ℕ} {k : κ} (hfresh : c.Fresh now k)
    (h : c.get now k = none) : c k = none := by
  cases he : c k with
  | none => rfl
  | some e =>
    have hlt := hfresh e he
    simp [get, he, hlt] at h

/-- What is not found is not found later. -/
theorem get_later {c : Cache κ ν} {now later : ℕ} {k : κ} (h : c.get now k = none)
    (hle : now ≤ later) : c.get later k = none := by
  cases he : c k with
  | none => exact get_eq_none he
  | some e =>
    have hnow : ¬ now < e.deadline := by
      intro hlt
      simp [get, he, hlt] at h
    have hlater : ¬ later < e.deadline := by omega
    simp [get, he, hlater]

theorem get_congr {c c' : Cache κ ν} {k : κ} (now : ℕ) (h : c' k = c k) :
    c'.get now k = c.get now k := by
  simp [get, h]

variable [DecidableEq κ]

/-- Write a key, to be found until the deadline. -/
def set (c : Cache κ ν) (k : κ) (v : ν) (deadline : ℕ) : Cache κ ν :=
  Function.update c k (some ⟨v, deadline⟩)

/-- Take a key out. -/
def delete (c : Cache κ ν) (k : κ) : Cache κ ν := Function.update c k none

/-- Write a key unless it has a value: the test and the write are one step. -/
def add (c : Cache κ ν) (now : ℕ) (k : κ) (v : ν) (ttl : ℕ) : Option (Cache κ ν) :=
  match c.get now k with
  | none => some (c.set k v (now + ttl))
  | some _ => none

theorem set_self (c : Cache κ ν) (k : κ) (v : ν) (deadline : ℕ) :
    c.set k v deadline k = some ⟨v, deadline⟩ := Function.update_self ..

theorem set_of_ne {k k' : κ} (c : Cache κ ν) (v : ν) (deadline : ℕ) (h : k' ≠ k) :
    c.set k v deadline k' = c k' := Function.update_of_ne h ..

theorem delete_self (c : Cache κ ν) (k : κ) : c.delete k k = none := Function.update_self ..

theorem delete_of_ne {k k' : κ} (c : Cache κ ν) (h : k' ≠ k) : c.delete k k' = c k' :=
  Function.update_of_ne h ..

/-- `add` succeeds exactly where the key has no value. -/
theorem add_eq_some {c c' : Cache κ ν} {now ttl : ℕ} {k : κ} {v : ν} :
    c.add now k v ttl = some c' ↔ c.get now k = none ∧ c' = c.set k v (now + ttl) := by
  unfold add
  cases h : c.get now k with
  | none => simp [eq_comm]
  | some w => simp

end Cache

end AlgoBot.Core
