import Mathlib.Data.List.Basic
import Mathlib.Data.List.Nodup

/-!
# Passes over the oldest of a backlog

A pass takes the first items of a list, as many as a batch has. Of these it finishes some, which
leave the list, and skips others, which stay where they are; an item that raises ends the pass.
Items that come in later join at the end.

* `not_mem_of_unblocked`: an item is finished after as many passes as there are items up to it, if
  no earlier one raises and fewer earlier ones than a batch are skipped.
* `mem_of_blocked`: otherwise it is never finished.
* `cleared_iff`: after as many passes as there are items, every item that can be finished is, exactly
  if each of them is unblocked.
-/

namespace AlgoBot.Core.Backlog

/-- What a pass does when it comes to an item. -/
inductive Kind
  | done
  | skip
  | raise
  deriving DecidableEq, Repr

variable {α : Type} (kind : α → Kind)

/-- What is left of a list after a pass over the first so many. -/
def pass : ℕ → List α → List α
  | 0, xs => xs
  | _ + 1, [] => []
  | batch + 1, x :: xs =>
    match kind x with
    | .done => pass batch xs
    | .skip => x :: pass batch xs
    | .raise => x :: xs

/-- What a pass finishes. -/
def finished : List α → List α
  | [] => []
  | x :: xs =>
    match kind x with
    | .done => x :: finished xs
    | .skip => finished xs
    | .raise => []

/-- Pass after pass; what has come in by the next one joins at the end. -/
def passes (batch : ℕ) : List (List α) → List α → List α
  | [], xs => xs
  | new :: rest, xs => passes batch rest (pass kind batch xs ++ new)

/-- What comes before an item does not keep a pass from coming to it. -/
structure Unblocked (batch : ℕ) (before : List α) : Prop where
  quiet : ∀ x ∈ before, kind x ≠ .raise
  few : before.countP (fun x => kind x = .skip) < batch

variable {kind} {batch : ℕ} {before after xs ys : List α} {x : α}

theorem pass_sublist (batch : ℕ) (xs : List α) : (pass kind batch xs).Sublist xs := by
  induction xs generalizing batch with
  | nil => cases batch <;> exact List.Sublist.refl _
  | cons x xs ih =>
    cases batch with
    | zero => exact List.Sublist.refl _
    | succ batch =>
      rw [pass]
      cases kind x with
      | done => exact (ih batch).cons x
      | skip => exact (ih batch).cons_cons x
      | raise => exact List.Sublist.refl _

/-- What a pass leaves is what it does not finish. -/
theorem pass_eq_filter {β : Type} [DecidableEq β] (key : α → β) (batch : ℕ)
    (hnodup : (xs.map key).Nodup) :
    pass kind batch xs =
      xs.filter fun x => decide (key x ∉ (finished kind (xs.take batch)).map key) := by
  have hsub : ∀ ys : List α, (finished kind ys).Sublist ys := by
    intro ys
    induction ys with
    | nil => exact List.Sublist.refl _
    | cons y ys ih =>
      rw [finished]
      cases kind y with
      | done => exact ih.cons_cons y
      | skip => exact ih.cons y
      | raise => exact List.nil_sublist _
  induction xs generalizing batch with
  | nil => cases batch <;> rfl
  | cons x xs ih =>
    cases batch with
    | zero => simp [pass, finished]
    | succ batch =>
      obtain ⟨hx, hxs⟩ := List.nodup_cons.mp hnodup
      have hnot : key x ∉ (finished kind (xs.take batch)).map key := fun hmem =>
        hx ((((hsub _).trans (List.take_sublist _ _)).map key).mem hmem)
      rw [pass, List.take_succ_cons, finished]
      cases kind x with
      | raise => simp
      | skip =>
        rw [List.filter_cons_of_pos (by simpa using hnot), ← ih batch hxs]
      | done =>
        rw [List.filter_cons_of_neg (by simp)]
        rw [ih batch hxs]
        refine List.filter_congr fun y hy => ?_
        have hne : key y ≠ key x := fun h => hx (h ▸ List.mem_map_of_mem hy)
        simp [hne]

/-! ## Blocked items -/

theorem Unblocked.cons_skip (hx : kind x = .skip) (h : Unblocked kind batch xs) :
    Unblocked kind (batch + 1) (x :: xs) := by
  refine ⟨List.forall_mem_cons.mpr ⟨by simp [hx], h.quiet⟩, ?_⟩
  rw [List.countP_cons_of_pos (by simp [hx])]
  exact Nat.succ_lt_succ h.few

theorem Unblocked.cons_done (hx : kind x = .done) (h : Unblocked kind batch xs) :
    Unblocked kind (batch + 1) (x :: xs) := by
  refine ⟨List.forall_mem_cons.mpr ⟨by simp [hx], h.quiet⟩, ?_⟩
  rw [List.countP_cons_of_neg (by simp [hx])]
  exact Nat.lt_succ_of_lt h.few

/-- What raises comes after an item that does not. -/
theorem raises_of_cons (hx : kind x ≠ .raise) (h : ∃ y ∈ x :: xs, kind y = .raise) :
    ∃ y ∈ xs, kind y = .raise := by
  obtain ⟨y, hy, hkind⟩ := h
  rcases List.mem_cons.mp hy with rfl | hy
  · exact absurd hkind hx
  · exact ⟨y, hy, hkind⟩

/-- What blocks an item stays in front of it. -/
theorem pass_blocked (hblocked : ¬ Unblocked kind batch before) :
    ∃ before', (∀ rest, pass kind batch (before ++ rest) = before' ++ rest) ∧
      (before'.countP fun x => kind x = .skip) = before.countP (fun x => kind x = .skip) ∧
      ((∃ x ∈ before, kind x = .raise) → ∃ x ∈ before', kind x = .raise) := by
  induction before generalizing batch with
  | nil =>
    cases batch with
    | zero => exact ⟨[], fun _ => rfl, rfl, id⟩
    | succ batch => exact absurd ⟨nofun, Nat.succ_pos batch⟩ hblocked
  | cons y ys ih =>
    cases batch with
    | zero => exact ⟨y :: ys, fun _ => rfl, rfl, id⟩
    | succ batch =>
      cases hy : kind y with
      | raise =>
        refine ⟨y :: ys, fun rest => ?_, rfl, id⟩
        rw [List.cons_append, pass, hy]
      | skip =>
        have hrest : ¬ Unblocked kind batch ys := fun h => hblocked (h.cons_skip hy)
        obtain ⟨ys', hpass, hcount, hraise⟩ := ih hrest
        refine ⟨y :: ys', fun rest => ?_, ?_, ?_⟩
        · rw [List.cons_append, pass, hy, List.cons_append, ← hpass rest]
        · rw [List.countP_cons_of_pos (by simp [hy]), List.countP_cons_of_pos (by simp [hy]), hcount]
        · intro hraises
          obtain ⟨z, hz, hkind⟩ := hraise (raises_of_cons (by simp [hy]) hraises)
          exact ⟨z, List.mem_cons_of_mem _ hz, hkind⟩
      | done =>
        have hrest : ¬ Unblocked kind batch ys := fun h => hblocked (h.cons_done hy)
        obtain ⟨ys', hpass, hcount, hraise⟩ := ih hrest
        refine ⟨ys', fun rest => ?_, ?_, ?_⟩
        · rw [List.cons_append, pass, hy, hpass rest]
        · rw [List.countP_cons_of_neg (by simp [hy]), hcount]
        · exact fun hraises => hraise (raises_of_cons (by simp [hy]) hraises)

/-- A blocked item is never finished. -/
theorem mem_of_blocked (hblocked : ¬ Unblocked kind batch before) (news : List (List α)) :
    x ∈ passes kind batch news (before ++ x :: after) := by
  induction news generalizing before after with
  | nil => exact List.mem_append_right _ List.mem_cons_self
  | cons new rest ih =>
    obtain ⟨before', hpass, hcount, hraise⟩ := pass_blocked hblocked
    -- what is left in front blocks the next pass as well
    have hstill : ¬ Unblocked kind batch before' := by
      rintro ⟨hquiet, hfew⟩
      refine hblocked ⟨fun y hy hkind => ?_, by rwa [← hcount]⟩
      obtain ⟨z, hz, hraises⟩ := hraise ⟨y, hy, hkind⟩
      exact hquiet z hz hraises
    rw [passes, hpass, List.append_assoc, List.cons_append]
    exact ih hstill

/-! ## Unblocked items -/

theorem Unblocked.of_sublist (hunblocked : Unblocked kind batch before) (h : xs.Sublist before) :
    Unblocked kind batch xs where
  quiet y hy := hunblocked.quiet y (h.mem hy)
  few := Nat.lt_of_le_of_lt h.countP_le hunblocked.few

/-- A pass comes to the item, or has fewer before it the next time. -/
theorem pass_unblocked (hx : kind x = .done) (hunblocked : Unblocked kind batch before) :
    (pass kind batch (before ++ x :: after)).Sublist (before ++ after) ∨
      ∃ before', pass kind batch (before ++ x :: after) = before' ++ x :: after ∧
        before'.length < before.length ∧ before'.Sublist before := by
  induction before generalizing batch with
  | nil =>
    cases batch with
    | zero => exact absurd hunblocked.few (Nat.not_lt_zero _)
    | succ batch =>
      left
      rw [List.nil_append, pass, hx]
      exact pass_sublist batch after
  | cons y ys ih =>
    cases batch with
    | zero => exact absurd hunblocked.few (Nat.not_lt_zero _)
    | succ batch =>
      obtain ⟨hquiet, hfew⟩ := hunblocked
      obtain ⟨hy, hys⟩ := List.forall_mem_cons.mp hquiet
      rw [List.cons_append, pass]
      cases hkind : kind y with
      | raise => exact absurd hkind hy
      | skip =>
        -- the item takes a place of the batch, and is not among those that it has to spare
        rw [List.countP_cons_of_pos (by simp [hkind])] at hfew
        rcases ih ⟨hys, Nat.lt_of_succ_lt_succ hfew⟩ with hgone | ⟨ys', hpass, hlength, hsub⟩
        · exact Or.inl (hgone.cons_cons y)
        · refine Or.inr ⟨y :: ys', ?_, Nat.succ_lt_succ hlength, hsub.cons_cons y⟩
          rw [List.cons_append, ← hpass]
      | done =>
        rw [List.countP_cons_of_neg (by simp [hkind])] at hfew
        by_cases hrest : Unblocked kind batch ys
        · rcases ih hrest with hgone | ⟨ys', hpass, hlength, hsub⟩
          · exact Or.inl (hgone.trans (List.sublist_cons_self y _))
          · exact Or.inr ⟨ys', hpass, Nat.lt_succ_of_lt hlength, hsub.cons y⟩
        · -- the batch is used up, and one item before has been finished
          obtain ⟨ys', hpass, _, _⟩ := pass_blocked hrest
          have hsub : ys'.Sublist ys := by
            have hall := @pass_sublist _ kind batch (ys ++ [])
            rwa [hpass, List.append_nil, List.append_nil] at hall
          exact Or.inr ⟨ys', hpass _, Nat.lt_succ_of_le hsub.length_le, hsub.cons y⟩

theorem not_mem_passes {news : List (List α)} (hxs : x ∉ xs) (hnews : ∀ new ∈ news, x ∉ new) :
    x ∉ passes kind batch news xs := by
  induction news generalizing xs with
  | nil => exact hxs
  | cons new rest ih =>
    obtain ⟨hnew, hrest⟩ := List.forall_mem_cons.mp hnews
    refine ih (fun hmem => ?_) hrest
    rcases List.mem_append.mp hmem with hmem | hmem
    · exact hxs ((pass_sublist batch xs).mem hmem)
    · exact hnew hmem

/-- An unblocked item is finished after as many passes as there are items up to it. -/
theorem not_mem_of_unblocked {news : List (List α)} (hx : kind x = .done)
    (hunblocked : Unblocked kind batch before) (hbefore : x ∉ before) (hafter : x ∉ after)
    (hnews : ∀ new ∈ news, x ∉ new) (hlength : before.length < news.length) :
    x ∉ passes kind batch news (before ++ x :: after) := by
  induction news generalizing before after with
  | nil => exact absurd hlength (Nat.not_lt_zero _)
  | cons new rest ih =>
    obtain ⟨hnew, hrest⟩ := List.forall_mem_cons.mp hnews
    rw [passes]
    rcases pass_unblocked hx hunblocked with hgone | ⟨before', hpass, hless, hsub⟩
    · refine not_mem_passes (fun hmem => ?_) hrest
      rcases List.mem_append.mp hmem with hmem | hmem
      · rcases List.mem_append.mp (hgone.mem hmem) with hmem | hmem
        · exact hbefore hmem
        · exact hafter hmem
      · exact hnew hmem
    · rw [hpass, List.append_assoc, List.cons_append]
      refine ih (hunblocked.of_sublist hsub) (fun hmem => hbefore (hsub.mem hmem)) ?_ hrest ?_
      · rw [List.mem_append]
        exact not_or.mpr ⟨hafter, hnew⟩
      · exact Nat.lt_of_lt_of_le hless (Nat.le_of_lt_succ hlength)

/-! ## All items -/

theorem mem_pass (hx : kind x ≠ .done) (hmem : x ∈ xs) : x ∈ pass kind batch xs := by
  induction xs generalizing batch with
  | nil => cases hmem
  | cons y ys ih =>
    cases batch with
    | zero => exact hmem
    | succ batch =>
      rw [pass]
      rcases List.mem_cons.mp hmem with rfl | hys
      · cases hkind : kind x with
        | done => exact absurd hkind hx
        | skip => exact List.mem_cons_self
        | raise => exact List.mem_cons_self
      · cases kind y with
        | done => exact ih hys
        | skip => exact List.mem_cons_of_mem y (ih hys)
        | raise => exact hmem

theorem mem_passes (hx : kind x ≠ .done) (hmem : x ∈ xs) (news : List (List α)) :
    x ∈ passes kind batch news xs := by
  induction news generalizing xs with
  | nil => exact hmem
  | cons new rest ih => exact ih (List.mem_append_left new (mem_pass hx hmem))

/-- After as many passes as there are items all those that are wanted are finished exactly if each
of them can be finished and is not blocked. -/
theorem cleared_iff {news : List (List α)} (wanted : α → Prop) (hnodup : xs.Nodup)
    (hnews : ∀ new ∈ news, ∀ x ∈ xs, x ∉ new) (hlength : xs.length ≤ news.length) :
    (∀ x ∈ xs, wanted x → x ∉ passes kind batch news xs) ↔
      ∀ before x after, xs = before ++ x :: after → wanted x →
        kind x = .done ∧ Unblocked kind batch before := by
  constructor
  · rintro hall before x after rfl hwanted
    have hgone := hall x (List.mem_append_right _ List.mem_cons_self) hwanted
    constructor
    · by_contra hx
      exact hgone (mem_passes hx (List.mem_append_right _ List.mem_cons_self) news)
    · by_contra hblocked
      exact hgone (mem_of_blocked hblocked news)
  · intro hall x hx hwanted
    obtain ⟨before, after, rfl⟩ := List.append_of_mem hx
    obtain ⟨hdone, hunblocked⟩ := hall before x after rfl hwanted
    obtain ⟨hbefore, hafter⟩ := not_or.mp (mt List.mem_append.mpr
      (List.nodup_middle.mp hnodup |> List.nodup_cons.mp).1)
    refine not_mem_of_unblocked hdone hunblocked hbefore hafter (fun new h => hnews new h x hx) ?_
    rw [List.length_append, List.length_cons] at hlength
    omega

end AlgoBot.Core.Backlog
