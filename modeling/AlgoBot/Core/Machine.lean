import Mathlib.Data.List.Basic
import Mathlib.Order.Defs.PartialOrder

/-!
# Machines, guarded runs and the rules that carry an invariant along them

A machine is an executable labelled step: `next s a` is the state after action
`a`, or `none` when `a` is not enabled in `s`. A run is a list of actions; a
*guarded* run (`RunIf G`) takes each step only where the guard `G` holds of the
state before the step and the action, which is how a condition on a whole run
is stated.

* `RunIf.invariant`: a predicate every guarded step keeps holds at the end.
* `RunIf.congr`: guards that agree under an invariant guard the same runs.
* `RunIf.preorder`: a reflexive and transitive relation every guarded step
  moves along relates the two ends.
* `RunIf.keeps_iff`: steps keep a property exactly if no later state of the run
  has lost it.
* `RunIf.always_and_iff`: a property holds all along a run, of its states and of its
  steps, exactly if each step is guarded.
* `RunIf.since`: what an event establishes and every step keeps holds ever since.
* `RunIf.total_le_one`: the latch rule. An event that never happens once the
  latch is set, and that sets it, happens at most once.
* `RunIf.total_le_potential`: events that are paid for out of a potential.
-/

namespace AlgoBot.Core

universe u v

/-- An executable labelled transition system. -/
structure Machine (σ : Type u) (α : Type v) where
  next : σ → α → Option σ

namespace Machine

variable {σ : Type u} {α : Type v} (M : Machine σ α)

/-- Take the actions in order; `none` as soon as one is not enabled. -/
def exec : σ → List α → Option σ
  | s, [] => some s
  | s, a :: as => (M.next s a).bind fun s' => exec s' as

/-- Runs whose every step satisfies the guard in the state before it. -/
inductive RunIf (G : σ → α → Prop) : σ → List α → σ → Prop
  | nil (s : σ) : RunIf G s [] s
  | cons {s s' t : σ} {a : α} {as : List α} :
      G s a → M.next s a = some s' → RunIf G s' as t → RunIf G s (a :: as) t

/-- Take the actions in order while the guard holds. -/
def execIf (G : σ → α → Prop) [∀ s a, Decidable (G s a)] : σ → List α → Option σ
  | s, [] => some s
  | s, a :: as => if G s a then (M.next s a).bind fun s' => execIf G s' as else none

/-- Let `pick` choose the actions, for at most `n` steps and while it has one that is enabled. -/
def drive (pick : σ → Option α) : ℕ → σ → σ
  | 0, s => s
  | n + 1, s =>
      match (pick s).bind (M.next s) with
      | some s' => drive pick n s'
      | none => s

/-- Unguarded runs. -/
abbrev Run : σ → List α → σ → Prop := M.RunIf fun _ _ => True

/-- The sum of a cost over the steps of a run; the cost counts some event. -/
def total (cost : σ → α → ℕ) : σ → List α → ℕ
  | _, [] => 0
  | s, a :: as =>
      cost s a +
        match M.next s a with
        | some s' => total cost s' as
        | none => 0

/-- The states a list of actions passes through. -/
def visited : σ → List α → List σ
  | s, [] => [s]
  | s, a :: as =>
      s ::
        match M.next s a with
        | some s' => visited s' as
        | none => []

/-- The step keeps every `P k` that holds before it. -/
def Keeps {κ : Type*} (P : κ → σ → Prop) (s : σ) (a : α) : Prop :=
  ∀ k, P k s → ∀ s', M.next s a = some s' → P k s'

variable {M} {G : σ → α → Prop} {s t u : σ} {as bs : List α}

/-- The executable semantics and the runs agree. -/
theorem exec_eq_some_iff : M.exec s as = some t ↔ M.Run s as t := by
  constructor
  · intro h
    induction as generalizing s with
    | nil =>
      obtain rfl : s = t := by simpa [exec] using h
      exact RunIf.nil s
    | cons a as ih =>
      cases hs : M.next s a with
      | none => simp [exec, hs] at h
      | some s' => exact RunIf.cons trivial hs (ih (by simpa [exec, hs] using h))
  · intro h
    induction h with
    | nil => rfl
    | cons _ hs _ ih => simpa [exec, hs] using ih

/-- Executing under a decidable guard gives a guarded run. -/
theorem runIf_of_execIf [∀ s a, Decidable (G s a)] (h : M.execIf G s as = some t) :
    M.RunIf G s as t := by
  induction as generalizing s with
  | nil =>
    obtain rfl : s = t := by simpa [execIf] using h
    exact RunIf.nil s
  | cons a as ih =>
    simp only [execIf] at h
    split at h
    · rename_i hg
      cases hs : M.next s a with
      | none => simp [hs] at h
      | some s' => exact RunIf.cons hg hs (ih (by simpa [hs] using h))
    · cases h

/-- An execution under a decidable guard that gets to its end is a guarded run. -/
theorem exists_runIf [∀ s a, Decidable (G s a)] (h : (M.execIf G s as).isSome = true) :
    ∃ t, M.RunIf G s as t := by
  obtain ⟨t, ht⟩ := Option.isSome_iff_exists.mp h
  exact ⟨t, runIf_of_execIf ht⟩

/-- An execution that gets to its end is a run. -/
theorem exists_run (h : (M.exec s as).isSome = true) : ∃ t, M.Run s as t := by
  obtain ⟨t, ht⟩ := Option.isSome_iff_exists.mp h
  exact ⟨t, exec_eq_some_iff.mp ht⟩

/-- The runs of a machine whose step is a total function fold that function. -/
theorem run_iff_foldl {f : σ → α → σ} (hf : ∀ s a, M.next s a = some (f s a)) :
    M.Run s as t ↔ t = as.foldl f s := by
  rw [← exec_eq_some_iff]
  induction as generalizing s with
  | nil => simp [exec, eq_comm]
  | cons a as ih => simpa [exec, hf] using ih

/-- Where every action is enabled, every list of actions is a run. -/
theorem run_of_enabled (hnext : ∀ s a, (M.next s a).isSome = true) (s : σ) (as : List α) :
    ∃ t, M.Run s as t := by
  induction as generalizing s with
  | nil => exact ⟨s, RunIf.nil s⟩
  | cons a as ih =>
    obtain ⟨s', hs⟩ := Option.isSome_iff_exists.mp (hnext s a)
    obtain ⟨t, ht⟩ := ih s'
    exact ⟨t, RunIf.cons trivial hs ht⟩

/-! ## Driven runs -/

section Drive

variable {pick : σ → Option α} {n : ℕ}

theorem drive_step {a : α} {s' : σ} (ha : pick s = some a) (hs : M.next s a = some s') :
    M.drive pick (n + 1) s = M.drive pick n s' := by
  simp [drive, ha, hs]

theorem drive_stuck (hs : (pick s).bind (M.next s) = none) : M.drive pick n s = s := by
  cases n with
  | zero => rfl
  | succ n => simp [drive, hs]

/-- A driven run is a run. -/
theorem run_drive (pick : σ → Option α) (n : ℕ) (s : σ) :
    ∃ as, M.Run s as (M.drive pick n s) := by
  induction n generalizing s with
  | zero => exact ⟨[], RunIf.nil s⟩
  | succ n ih =>
    cases hs : (pick s).bind (M.next s) with
    | none =>
      rw [drive_stuck hs]
      exact ⟨[], RunIf.nil s⟩
    | some s' =>
      obtain ⟨a, ha, hnext⟩ := Option.bind_eq_some_iff.mp hs
      obtain ⟨as, has⟩ := ih s'
      rw [drive_step ha hnext]
      exact ⟨a :: as, RunIf.cons trivial hnext has⟩

theorem drive_invariant (pick : σ → Option α) (Inv : σ → Prop)
    (hstep : ∀ s a s', pick s = some a → Inv s → M.next s a = some s' → Inv s')
    (hs : Inv s) : Inv (M.drive pick n s) := by
  induction n generalizing s with
  | zero => exact hs
  | succ n ih =>
    cases hnext : (pick s).bind (M.next s) with
    | none =>
      rw [drive_stuck hnext]
      exact hs
    | some s' =>
      obtain ⟨a, ha, hn⟩ := Option.bind_eq_some_iff.mp hnext
      rw [drive_step ha hn]
      exact ih (hstep _ _ _ ha hs hn)

/-- When every step lowers the rank, as many steps as the rank reach the end. -/
theorem drive_ends (pick : σ → Option α) (rank : σ → ℕ)
    (hstep : ∀ s a s', pick s = some a → M.next s a = some s' → rank s' < rank s)
    (hn : rank s ≤ n) :
    (pick (M.drive pick n s)).bind (M.next (M.drive pick n s)) = none := by
  induction n generalizing s with
  | zero =>
    show (pick s).bind (M.next s) = none
    cases hnext : (pick s).bind (M.next s) with
    | none => rfl
    | some s' =>
      obtain ⟨a, ha, hs⟩ := Option.bind_eq_some_iff.mp hnext
      have hlt := hstep _ _ _ ha hs
      omega
  | succ n ih =>
    cases hnext : (pick s).bind (M.next s) with
    | none =>
      rw [drive_stuck hnext]
      exact hnext
    | some s' =>
      obtain ⟨a, ha, hs⟩ := Option.bind_eq_some_iff.mp hnext
      have hlt := hstep _ _ _ ha hs
      rw [drive_step ha hs]
      apply ih
      omega

end Drive

namespace RunIf

/-- A guard that is implied by another may replace it. -/
theorem mono {G' : σ → α → Prop} (hG : ∀ s a, G s a → G' s a) (h : M.RunIf G s as t) :
    M.RunIf G' s as t := by
  induction h with
  | nil s => exact RunIf.nil s
  | cons hg hs _ ih => exact RunIf.cons (hG _ _ hg) hs ih

/-- Guards that agree wherever the invariant holds guard the same runs. -/
theorem congr {G' : σ → α → Prop} {Inv : σ → Prop}
    (hinv : ∀ s a s', Inv s → M.next s a = some s' → Inv s')
    (hG : ∀ s a, Inv s → (G s a ↔ G' s a)) (hs : Inv s) :
    M.RunIf G s as t ↔ M.RunIf G' s as t := by
  constructor
  · intro h
    induction h with
    | nil s => exact RunIf.nil s
    | cons hg hn _ ih => exact RunIf.cons ((hG _ _ hs).mp hg) hn (ih (hinv _ _ _ hs hn))
  · intro h
    induction h with
    | nil s => exact RunIf.nil s
    | cons hg hn _ ih => exact RunIf.cons ((hG _ _ hs).mpr hg) hn (ih (hinv _ _ _ hs hn))

theorem append (h : M.RunIf G s as t) (h' : M.RunIf G t bs u) : M.RunIf G s (as ++ bs) u := by
  induction h with
  | nil => exact h'
  | cons hg hs _ ih => exact RunIf.cons hg hs (ih h')

/-- A run of a concatenation passes through the state between the two parts. -/
theorem split (h : M.RunIf G s (as ++ bs) u) : ∃ t, M.RunIf G s as t ∧ M.RunIf G t bs u := by
  induction as generalizing s with
  | nil => exact ⟨s, RunIf.nil s, h⟩
  | cons a as ih =>
    cases h with
    | cons hg hs h' =>
      obtain ⟨t, ht, hu⟩ := ih h'
      exact ⟨t, RunIf.cons hg hs ht, hu⟩

/-- A guarded run is what executing its actions gives. -/
theorem exec_eq (h : M.RunIf G s as t) : M.exec s as = some t :=
  exec_eq_some_iff.mpr (h.mono fun _ _ _ => trivial)

/-- The guard holds where the run takes its next step. -/
theorem guard_of_exec {a : α} (h : M.RunIf G s (as ++ a :: bs) u) (hexec : M.exec s as = some t) :
    G t a := by
  -- machines are deterministic, so the run passes through the same state
  obtain ⟨t', ht, hu⟩ := h.split
  have hsame : t' = t := Option.some.inj (ht.exec_eq.symm.trans hexec)
  cases hu with
  | cons hg _ _ =>
    rw [← hsame]
    exact hg

/-- A run is guarded exactly if the guard holds where each of its steps is taken. -/
theorem iff_forall_prefix (hrun : M.Run s as t) :
    M.RunIf G s as t ↔
      ∀ before a rest u, as = before ++ a :: rest → M.Run s before u → G u a := by
  constructor
  · rintro h before a rest u rfl hu
    exact h.guard_of_exec hu.exec_eq
  · intro hall
    induction hrun with
    | nil s => exact RunIf.nil s
    | @cons s s' t a as _ hn hrest ih =>
      refine RunIf.cons (hall [] a as s rfl (RunIf.nil s)) hn (ih ?_)
      rintro before b rest u rfl hu
      exact hall (a :: before) b rest u rfl (RunIf.cons trivial hn hu)

/-- Invariant induction: what every guarded step keeps, the run keeps. -/
theorem invariant {Inv : σ → Prop}
    (hstep : ∀ s a s', G s a → Inv s → M.next s a = some s' → Inv s')
    (h : M.RunIf G s as t) (hs : Inv s) : Inv t := by
  induction h with
  | nil => exact hs
  | cons hg hn _ ih => exact ih (hstep _ _ _ hg hs hn)

/-- A property of single steps that the invariant gives holds of every step of the run. -/
theorem forall_steps {Inv : σ → Prop} {P : σ → α → Prop}
    (hstep : ∀ s a s', G s a → Inv s → M.next s a = some s' → Inv s' ∧ P s a)
    (h : M.RunIf G s as t) (hs : Inv s) :
    M.RunIf (fun s a => G s a ∧ Inv s ∧ P s a) s as t := by
  induction h with
  | nil s => exact RunIf.nil s
  | cons hg hn _ ih =>
    obtain ⟨hinv, hp⟩ := hstep _ _ _ hg hs hn
    exact RunIf.cons ⟨hg, hs, hp⟩ hn (ih hinv)

/-- A preorder every guarded step moves along relates the ends of the run. -/
theorem preorder {r : σ → σ → Prop} (hrefl : ∀ s, r s s)
    (htrans : ∀ s t u, r s t → r t u → r s u)
    (hstep : ∀ s a s', G s a → M.next s a = some s' → r s s')
    (h : M.RunIf G s as t) : r s t := by
  induction h with
  | nil s => exact hrefl s
  | cons hg hn _ ih => exact htrans _ _ _ (hstep _ _ _ hg hn) ih

/-! ## What a run keeps -/

/-- Every step keeps what held before it exactly if, from any state of the run on, what held there
holds in every later state. -/
theorem keeps_iff {κ : Type*} {P : κ → σ → Prop} (hrun : M.Run s as t) :
    M.RunIf (M.Keeps P) s as t ↔
      ∀ bs cs ds u v, as = bs ++ cs ++ ds → M.Run s bs u → M.Run u cs v → ∀ k, P k u → P k v := by
  constructor
  · rintro hkeep bs cs ds u v rfl hu hv k hk
    rcases hkeep.split with ⟨v', hv', _⟩
    rcases hv'.split with ⟨u', hu', hcs⟩
    obtain rfl : u' = u := Option.some.inj (hu'.exec_eq.symm.trans hu.exec_eq)
    obtain rfl : v' = v := Option.some.inj (hcs.exec_eq.symm.trans hv.exec_eq)
    refine hcs.invariant ?_ hk
    intro s a s' hg hs hn
    exact hg k hs s' hn
  · intro hlater
    induction hrun with
    | nil s => exact RunIf.nil s
    | @cons s s' t a as _ hn hrest ih =>
      refine RunIf.cons ?_ hn (ih ?_)
      · intro k hk s'' hn'
        have hone : M.Run s [a] s'' := RunIf.cons trivial hn' (RunIf.nil s'')
        exact hlater [] [a] as s s'' rfl (RunIf.nil s) hone k hk
      · rintro bs cs ds u v rfl hu hv
        exact hlater (a :: bs) cs ds u v rfl (RunIf.cons trivial hn hu) hv

/-- The property holds in every state the run passes through. -/
def Always (M : Machine σ α) (P : σ → Prop) (s : σ) (as : List α) : Prop :=
  ∀ before rest u, as = before ++ rest → M.Run s before u → P u

/-- The state an execution ends in is one the run passes through. -/
theorem Always.last {P : σ → Prop} (h : Always M P s as) (hexec : M.exec s as = some t) : P t :=
  h as [] t (List.append_nil as).symm (exec_eq_some_iff.mp hexec)

/-- What every guarded step keeps holds in every state the run passes through. -/
theorem always {Inv : σ → Prop}
    (hstep : ∀ s a s', G s a → Inv s → M.next s a = some s' → Inv s')
    (h : M.RunIf G s as t) (hs : Inv s) : Always M Inv s as := by
  rintro before rest u rfl hu
  obtain ⟨u', hu', _⟩ := h.split
  obtain rfl : u' = u := Option.some.inj (hu'.exec_eq.symm.trans hu.exec_eq)
  exact hu'.invariant hstep hs

/-- A run that is guarded twice is guarded by both. -/
theorem and {G' : σ → α → Prop} (h : M.RunIf G s as t) (h' : M.RunIf G' s as t) :
    M.RunIf (fun s a => G s a ∧ G' s a) s as t := by
  induction h with
  | nil s => exact RunIf.nil s
  | cons hg hn _ ih =>
    cases h' with
    | cons hg' hn' hrest =>
      obtain rfl := Option.some.inj (hn.symm.trans hn')
      exact RunIf.cons ⟨hg, hg'⟩ hn (ih hrest)

/-- Where a step of the run from a good state is a good step to a good state exactly if the guard
holds, the run has only good states and good steps exactly if it starts in a good one and is
guarded. The invariant need only be kept by steps from good states. -/
theorem always_and_iff_relying {H : σ → α → Prop} {Inv P : σ → Prop} {Q : σ → α → Prop}
    (hinv : ∀ s a s', H s a → Inv s → P s → M.next s a = some s' → Inv s')
    (hstep : ∀ s a s', H s a → Inv s → P s → M.next s a = some s' → (P s' ∧ Q s a ↔ G s a))
    (hrun : M.RunIf H s as t) (hs : Inv s) :
    Always M P s as ∧ M.RunIf Q s as t ↔ P s ∧ M.RunIf G s as t := by
  constructor
  · rintro ⟨halways, hgood⟩
    refine ⟨halways [] as s rfl (RunIf.nil s), ?_⟩
    have hboth := hrun.and hgood
    clear hrun hgood
    induction hboth with
    | nil s => exact RunIf.nil s
    | @cons s s' t a as hq hn hrest ih =>
      have hp : P s := halways [] (a :: as) s rfl (RunIf.nil s)
      have hp' : P s' := halways [a] as s' rfl (RunIf.cons trivial hn (RunIf.nil s'))
      have hs' := hinv s a s' hq.1 hs hp hn
      refine RunIf.cons ((hstep s a s' hq.1 hs hp hn).mp ⟨hp', hq.2⟩) hn (ih hs' ?_)
      rintro before rest u rfl hu
      exact halways (a :: before) rest u rfl (RunIf.cons trivial hn hu)
  · rintro ⟨hp, hguard⟩
    have hboth : ∀ s a s', H s a ∧ G s a → Inv s ∧ P s → M.next s a = some s' →
        (Inv s' ∧ P s') ∧ Q s a := by
      intro s a s' hg hs hn
      obtain ⟨hp', hq⟩ := (hstep s a s' hg.1 hs.1 hs.2 hn).mpr hg.2
      exact ⟨⟨hinv s a s' hg.1 hs.1 hs.2 hn, hp'⟩, hq⟩
    have hrun := hrun.and hguard
    constructor
    · rintro before rest u rfl hu
      rcases hrun.split with ⟨u', hu', _⟩
      obtain rfl : u' = u := Option.some.inj (hu'.exec_eq.symm.trans hu.exec_eq)
      exact (hu'.invariant (fun s a s' hg hs hn => (hboth s a s' hg hs hn).1) ⟨hs, hp⟩).2
    · exact (hrun.forall_steps hboth ⟨hs, hp⟩).mono fun _ _ h => h.2.2

/-- The same with an invariant that every step of the run keeps. -/
theorem always_and_iff_within {H : σ → α → Prop} {Inv P : σ → Prop} {Q : σ → α → Prop}
    (hinv : ∀ s a s', H s a → Inv s → M.next s a = some s' → Inv s')
    (hstep : ∀ s a s', H s a → Inv s → P s → M.next s a = some s' → (P s' ∧ Q s a ↔ G s a))
    (hrun : M.RunIf H s as t) (hs : Inv s) :
    Always M P s as ∧ M.RunIf Q s as t ↔ P s ∧ M.RunIf G s as t :=
  always_and_iff_relying (fun s a s' hh hs _ => hinv s a s' hh hs) hstep hrun hs

/-- Where a step from a good state is a good step to a good state exactly if the guard holds, a run
has only good states and good steps exactly if it starts in a good one and is guarded. -/
theorem always_and_iff {Inv P : σ → Prop} {Q : σ → α → Prop}
    (hinv : ∀ s a s', Inv s → M.next s a = some s' → Inv s')
    (hstep : ∀ s a s', Inv s → P s → M.next s a = some s' → (P s' ∧ Q s a ↔ G s a))
    (hrun : M.Run s as t) (hs : Inv s) :
    Always M P s as ∧ M.RunIf Q s as t ↔ P s ∧ M.RunIf G s as t :=
  always_and_iff_within (fun s a s' _ => hinv s a s') (fun s a s' _ => hstep s a s') hrun hs

/-- Where a step of the run from a good state leads to a good state exactly if the guard holds, the
run has only good states exactly if it starts in one and is guarded. -/
theorem always_iff_within {H : σ → α → Prop} {Inv P : σ → Prop}
    (hinv : ∀ s a s', H s a → Inv s → M.next s a = some s' → Inv s')
    (hstep : ∀ s a s', H s a → Inv s → P s → M.next s a = some s' → (P s' ↔ G s a))
    (hrun : M.RunIf H s as t) (hs : Inv s) : Always M P s as ↔ P s ∧ M.RunIf G s as t := by
  have hboth : ∀ s a s', H s a → Inv s → P s → M.next s a = some s' → (P s' ∧ True ↔ G s a) := by
    intro s a s' hg hs hp hn
    rw [and_true]
    exact hstep s a s' hg hs hp hn
  rw [← always_and_iff_within hinv hboth hrun hs]
  exact (and_iff_left (hrun.mono fun _ _ _ => trivial)).symm

/-- Where a step from a good state leads to a good state exactly if the guard holds, a run has only
good states exactly if it starts in one and is guarded. -/
theorem always_iff {Inv P : σ → Prop}
    (hinv : ∀ s a s', Inv s → M.next s a = some s' → Inv s')
    (hstep : ∀ s a s', Inv s → P s → M.next s a = some s' → (P s' ↔ G s a))
    (hrun : M.Run s as t) (hs : Inv s) : Always M P s as ↔ P s ∧ M.RunIf G s as t :=
  always_iff_within (fun s a s' _ => hinv s a s') (fun s a s' _ => hstep s a s') hrun hs

theorem first_visited (s : σ) (as : List α) : s ∈ M.visited s as := by
  cases as with
  | nil => exact List.mem_cons_self
  | cons a as => exact List.mem_cons_self

theorem last_visited (h : M.Run s as t) : t ∈ M.visited s as := by
  induction h with
  | nil s => exact List.mem_cons_self
  | cons _ hn _ ih => simpa [visited, hn] using Or.inr ih

/-- A run stays among the states its actions pass through. -/
theorem in_visited (h : M.Run s as t) :
    M.RunIf (fun u a => u ∈ M.visited s as ∧ ∀ v, M.next u a = some v → v ∈ M.visited s as)
      s as t := by
  induction h with
  | nil s => exact RunIf.nil s
  | @cons s s' t a as _ hn hrest ih =>
    have hvisited : M.visited s (a :: as) = s :: M.visited s' as := by simp [visited, hn]
    rw [hvisited]
    refine RunIf.cons ⟨List.mem_cons_self, ?_⟩ hn (ih.mono ?_)
    · intro v hv
      obtain rfl : v = s' := Option.some.inj (hv.symm.trans hn)
      exact List.mem_cons_of_mem s (first_visited v as)
    · rintro u b ⟨hu, hnext⟩
      exact ⟨List.mem_cons_of_mem s hu, fun v hv => List.mem_cons_of_mem s (hnext v hv)⟩

/-- Whenever the event happens in the run, `P` relates it to every later state. -/
def Since (M : Machine σ α) (event : σ → α → Prop) (P : σ → α → σ → Prop) (s : σ)
    (as : List α) : Prop :=
  ∀ before a after rest u v, as = before ++ a :: (after ++ rest) → M.Run s before u →
    event u a → M.Run u (a :: after) v → P u a v

/-- What the event establishes and every guarded step keeps holds ever since. -/
theorem since {event : σ → α → Prop} {P : σ → α → σ → Prop}
    (hset : ∀ s a s', G s a → event s a → M.next s a = some s' → P s a s')
    (hkeep : ∀ e b s a s', P e b s → G s a → M.next s a = some s' → P e b s')
    (h : M.RunIf G s as t) : Since M event P s as := by
  rintro before a after rest u v rfl hbefore hevent hafter
  -- the guarded run passes through the same states
  rcases h.split with ⟨u', hu, hrest⟩
  obtain rfl : u' = u := Option.some.inj (hu.exec_eq.symm.trans hbefore.exec_eq)
  cases hrest with
  | cons hg hn hrest =>
    rcases hrest.split with ⟨v', hv, _⟩
    cases hafter with
    | cons _ hn' hafter =>
      obtain rfl := Option.some.inj (hn.symm.trans hn')
      obtain rfl : v' = v := Option.some.inj (hv.exec_eq.symm.trans hafter.exec_eq)
      refine hv.invariant ?_ (hset _ _ _ hg hevent hn)
      intro s a s' hg hp hn
      exact hkeep _ _ s a s' hp hg hn

/-- A run without the event takes only steps without it. -/
theorem of_total_eq_zero {cost : σ → α → ℕ} (h : M.RunIf G s as t)
    (hzero : M.total cost s as = 0) : M.RunIf (fun s a => G s a ∧ cost s a = 0) s as t := by
  induction h with
  | nil s => exact RunIf.nil s
  | cons hg hn _ ih =>
    simp only [total, hn] at hzero
    refine RunIf.cons ⟨hg, ?_⟩ hn (ih ?_)
    · omega
    · omega

/-! ## The latch rule -/

section Latch

variable {cost : σ → α → ℕ} {latch : σ → Prop}

/-- Once the latch is set nothing is counted any more. -/
theorem total_eq_zero (hkeep : ∀ s a s', G s a → M.next s a = some s' → latch s → latch s')
    (hfree : ∀ s a s', G s a → M.next s a = some s' → latch s → cost s a = 0)
    (h : M.RunIf G s as t) (hs : latch s) : M.total cost s as = 0 := by
  induction h with
  | nil => rfl
  | @cons s s' t a as hg hn _ ih =>
    simp [total, hfree _ _ _ hg hn hs, hn, ih (hkeep _ _ _ hg hn hs)]

/-- What needs the latch open and closes it is counted at most once. -/
theorem total_le_one (latch : σ → Prop)
    (hone : ∀ s a s', G s a → M.next s a = some s' → cost s a ≤ 1)
    (hkeep : ∀ s a s', G s a → M.next s a = some s' → latch s → latch s')
    (hfree : ∀ s a s', G s a → M.next s a = some s' → latch s → cost s a = 0)
    (hset : ∀ s a s', G s a → M.next s a = some s' → cost s a ≠ 0 → latch s')
    (h : M.RunIf G s as t) : M.total cost s as ≤ 1 := by
  induction h with
  | nil => simp [total]
  | @cons s s' t a as hg hn hrest ih =>
    by_cases hc : cost s a = 0
    · simpa [total, hc, hn] using ih
    · -- the event closes the latch, so the rest of the run counts nothing
      have hzero := total_eq_zero hkeep hfree hrest (hset _ _ _ hg hn hc)
      have hle := hone _ _ _ hg hn
      simpa [total, hn, hzero] using hle

end Latch

/-- The potential rule: what every step pays for out of a potential is at most the potential. -/
theorem total_le_potential {cost : σ → α → ℕ} (φ : σ → ℕ)
    (hstep : ∀ s a s', G s a → M.next s a = some s' → cost s a + φ s' ≤ φ s)
    (h : M.RunIf G s as t) : M.total cost s as + φ t ≤ φ s := by
  induction h with
  | nil => simp [total]
  | @cons s s' t a as hg hn _ ih =>
    have hle := hstep _ _ _ hg hn
    simp only [total, hn]
    omega

end RunIf

end Machine

end AlgoBot.Core
