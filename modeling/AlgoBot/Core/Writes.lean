import Mathlib.Data.List.Nodup
import Mathlib.Data.List.Perm.Subperm
import Mathlib.Logic.Function.Basic

/-!
# Writing a list of cells

A store maps places to values, and a list of cells is written one after the other.

* `writeAll_of_mem`: among distinct places each cell keeps what is written to it.
* `writeAll_frame`: what is written to no place stays.
* `writeAll_eq_iff`: two lists of one length write the same, exactly if the cells of the one are
  among those of the other, provided the one has distinct and empty places.
-/

namespace AlgoBot.Core

variable {κ ν : Type} [DecidableEq κ]

/-- The store after all cells have been written, in their order. -/
def writeAll (cells : List (κ × ν)) (store : κ → Option ν) : κ → Option ν :=
  cells.foldl (fun store cell => Function.update store cell.1 (some cell.2)) store

@[simp] theorem writeAll_nil (store : κ → Option ν) : writeAll [] store = store := rfl

@[simp] theorem writeAll_cons (cell : κ × ν) (cells : List (κ × ν)) (store : κ → Option ν) :
    writeAll (cell :: cells) store =
      writeAll cells (Function.update store cell.1 (some cell.2)) := rfl

theorem writeAll_frame {cells : List (κ × ν)} {place : κ} (h : place ∉ cells.map Prod.fst)
    (store : κ → Option ν) : writeAll cells store place = store place := by
  induction cells generalizing store with
  | nil => rfl
  | cons cell cells ih =>
    rw [List.map_cons, List.mem_cons, not_or] at h
    obtain ⟨hne, htail⟩ := h
    rw [writeAll_cons, ih htail, Function.update_of_ne hne]

theorem writeAll_of_mem {cells : List (κ × ν)} (hnodup : (cells.map Prod.fst).Nodup)
    {cell : κ × ν} (h : cell ∈ cells) (store : κ → Option ν) :
    writeAll cells store cell.1 = some cell.2 := by
  induction cells generalizing store with
  | nil => cases h
  | cons first cells ih =>
    obtain ⟨hfresh, hrest⟩ := List.nodup_cons.mp hnodup
    rw [writeAll_cons]
    rcases List.mem_cons.mp h with rfl | htail
    · rw [writeAll_frame hfresh, Function.update_self]
    · exact ih hrest htail _

/-- What is found at a place has been written there, or was there before. -/
theorem writeAll_some {cells : List (κ × ν)} {store : κ → Option ν} {place : κ} {value : ν}
    (h : writeAll cells store place = some value) :
    (place, value) ∈ cells ∨ store place = some value := by
  induction cells generalizing store with
  | nil => exact .inr h
  | cons cell cells ih =>
    rw [writeAll_cons] at h
    rcases ih h with hmem | hfirst
    · exact .inl (List.mem_cons_of_mem _ hmem)
    · by_cases hplace : place = cell.1
      · rw [hplace, Function.update_self] at hfirst
        obtain rfl := Option.some.inj hfirst
        exact .inl (hplace ▸ List.mem_cons_self)
      · rw [Function.update_of_ne hplace] at hfirst
        exact .inr hfirst

/-- A place whose value changes is one of the places that are written. -/
theorem mem_of_writeAll_ne {cells : List (κ × ν)} {store : κ → Option ν} {place : κ}
    (h : writeAll cells store place ≠ store place) : place ∈ cells.map Prod.fst := by
  by_contra hnot
  exact h (writeAll_frame hnot store)

/-- The order of the writes to distinct places does not matter. -/
theorem writeAll_perm {cells cells' : List (κ × ν)} (hperm : cells.Perm cells')
    (hnodup : (cells.map Prod.fst).Nodup) (store : κ → Option ν) :
    writeAll cells store = writeAll cells' store := by
  have hplaces : (cells.map Prod.fst).Perm (cells'.map Prod.fst) := hperm.map Prod.fst
  funext place
  by_cases hplace : place ∈ cells.map Prod.fst
  · obtain ⟨cell, hcell, rfl⟩ := List.mem_map.mp hplace
    rw [writeAll_of_mem hnodup hcell,
      writeAll_of_mem (hplaces.nodup_iff.mp hnodup) (hperm.mem_iff.mp hcell)]
  · have hplace' : place ∉ cells'.map Prod.fst := fun h => hplace (hplaces.mem_iff.mpr h)
    rw [writeAll_frame hplace, writeAll_frame hplace']

theorem writeAll_eq_iff {cells cells' : List (κ × ν)} {store : κ → Option ν}
    (hlength : cells.length = cells'.length) (hnodup : (cells.map Prod.fst).Nodup)
    (hempty : ∀ cell ∈ cells, store cell.1 = none) :
    writeAll cells store = writeAll cells' store ↔ cells ⊆ cells' := by
  constructor
  · intro h cell hcell
    have hwritten : writeAll cells' store cell.1 = some cell.2 := by
      rw [← h]
      exact writeAll_of_mem hnodup hcell store
    rcases writeAll_some hwritten with hmem | hbefore
    · exact hmem
    · rw [hempty cell hcell] at hbefore
      cases hbefore
  · intro hsub
    -- distinct cells that are among as many are all of them
    have hcells : cells.Nodup := hnodup.of_map Prod.fst
    have hperm : cells.Perm cells' :=
      (hcells.subperm hsub).perm_of_length_le (Nat.le_of_eq hlength.symm)
    exact writeAll_perm hperm hnodup store

end AlgoBot.Core
