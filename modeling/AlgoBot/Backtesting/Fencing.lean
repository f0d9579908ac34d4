import AlgoBot.Backtesting.Models

/-!
# Fencing

What a late writer can do to a backtest. The workers and the queue reconciliation
lock the row and look at it before they write; a view saves a row it has read
before, whatever has become of it.

`results_fenced`: in a run in which the saves of the views neither fall on a row
that has meanwhile been completed or cancelled nor store other parameters under a
version that is in use, every result was computed from the parameters of its
version, no version has two results, and no late writer overwrites a completed or
cancelled backtest. `two_results` is a retry whose `_queue` saves `pending` over a
completed version, and `other_parameters` two edits that compute the same version.
-/

namespace AlgoBot.Backtesting

open AlgoBot.Core AlgoBot.Python

variable {S : Settings} {p : Params} {t t' u : State} {a : Action}

/-! ## What is to be shown -/

/-- The copy the next step of a request saves from. -/
def Request.copy : Request → Option Copy
  | .updating c _ _ _ | .cancelling c | .retrying c | .queueSave c | .failing c _ => some c
  | _ => none

/-- How many saves the actor of the step has seen, if it goes by an earlier read. -/
def State.seen (t : State) : Action → Option ℕ
  | .request i _ => (t.requests i).copy.map Copy.seen
  | _ => none

/-- The step does not save a completed or cancelled backtest, or its actor has read it as it is. -/
def KeepsFinal (S : Settings) (t : State) (a : Action) : Prop :=
  t.shared.backtest.status.final = true → ∀ t', step S t a = some t' →
    t'.shared.writes = t.shared.writes ∨ t.seen a = some t.shared.writes

/-- Every result was computed from the one set of parameters that its version was stored with. -/
def FromStored (t : State) : Prop :=
  ∀ r ∈ t.shared.persisted, ∀ q, (r.version, q) ∈ t.shared.stored ↔ q = r.params

/-- No version has two results. -/
def OncePerVersion (t : State) : Prop := (t.shared.persisted.map Persisted.version).Nodup

/-! ## The condition on saves -/

/-- No other parameters are stored under the version of this row. -/
def Fresh (s : Shared) (row : Backtest) : Prop :=
  ∀ q ∈ s.stored, q.1 = row.result_version → q.2 = row.params

/-- The condition on the save a request makes next. -/
def FencedSave (s : Shared) : Request → Prop
  | .updating c start stop version =>
      s.backtest.status.final = false ∧ Fresh s (edited c.backtest start stop version)
  | .retrying c =>
      (s.backtest.status.final = true → c.seen = s.writes) ∧
        Fresh s (retried s.backtest c.backtest.result_version)
  | .cancelling _ | .queueSave _ | .failing _ _ => s.backtest.status.final = false
  | _ => True

/-- A view that saves finds the backtest neither completed nor cancelled, or as it has read it, and
stores no other parameters under a version in use. -/
def Fenced (t : State) : Action → Prop
  | .request i .go => FencedSave t.shared (t.requests i)
  | _ => True

instance (s : Shared) (row : Backtest) : Decidable (Fresh s row) := by
  unfold Fresh
  infer_instance

instance (s : Shared) (r : Request) : Decidable (FencedSave s r) := by
  cases r <;> unfold FencedSave <;> infer_instance

instance (t : State) (a : Action) : Decidable (Fenced t a) := by
  unfold Fenced
  split <;> infer_instance

/-! ## What a step does to the row and its histories -/

/-- What the step of an actor may do to the row and its histories. The actor goes by a read after
`seen` saves, or reads in the same transaction, and is a worker that has claimed `claim`. -/
inductive Effect (seen : Option ℕ) (claim : Option Backtest) (s s' : Shared) : Prop where
  | none (row : s'.backtest = s.backtest) (writes : s'.writes = s.writes)
      (stored : s'.stored = s.stored) (persisted : s'.persisted = s.persisted)
  /-- The row is saved under its version. -/
  | save (live : s.backtest.status.final = false)
      (params : s'.backtest.params = s.backtest.params)
      (version : s'.backtest.result_version = s.backtest.result_version)
      (writes : s'.writes = s.writes + 1) (stored : s'.stored = s.stored)
      (persisted : s'.persisted = s.persisted)
  /-- The row is given a version. -/
  | store (read : s.backtest.status.final = true → seen = some s.writes)
      (undone : s.backtest.status ≠ .completed) (fresh : Fresh s s'.backtest)
      (writes : s'.writes = s.writes + 1)
      (stored : s'.stored = (s'.backtest.result_version, s'.backtest.params) :: s.stored)
      (persisted : s'.persisted = s.persisted)
  /-- A result is recorded for the version the worker has claimed. -/
  | complete (b : Backtest) (result : Dict) (claimed : claim = some b)
      (running : s.backtest.status = .running)
      (row : s'.backtest.params = s.backtest.params)
      (version : s'.backtest.result_version = s.backtest.result_version)
      (done : s'.backtest.status = .completed)
      (writes : s'.writes = s.writes + 1) (stored : s'.stored = s.stored)
      (persisted : s'.persisted = ⟨b.result_version, b.params, result⟩ :: s.persisted)

namespace Effect

variable {seen : Option ℕ} {claim : Option Backtest} {s s' : Shared}

theorem refl : Effect seen claim s s := .none rfl rfl rfl rfl

/-- A completed or cancelled row is saved by who has read it as it is, if at all. -/
theorem keeps (he : Effect seen claim s s') (hfinal : s.backtest.status.final = true) :
    s'.writes = s.writes ∨ seen = some s.writes := by
  cases he with
  | none _ hw _ _ => exact Or.inl hw
  | save hlive => simp [hlive] at hfinal
  | store hread => exact Or.inr (hread hfinal)
  | complete b result _ hrunning =>
    rw [hrunning] at hfinal
    cases hfinal

theorem writes_le (he : Effect seen claim s s') : s.writes ≤ s'.writes := by
  cases he <;> omega

/-- As long as the row is not saved it does not change. -/
theorem row_of_writes (he : Effect seen claim s s') (hw : s'.writes = s.writes) :
    s'.backtest = s.backtest := by
  cases he with
  | none hrow => exact hrow
  | _ => omega

end Effect

/-- Versions are only added. -/
theorem Effect.stored_mono {seen : Option ℕ} {claim : Option Backtest} {s s' : Shared}
    (he : Effect seen claim s s') {x : ℕ × Params} (hx : x ∈ s.stored) : x ∈ s'.stored := by
  cases he with
  | store _ _ _ _ hstored =>
    rw [hstored]
    exact List.mem_cons_of_mem _ hx
  | _ => simp_all

/-- The queue entry is no part of the row. -/
theorem Effect.requeue {seen : Option ℕ} {claim : Option Backtest} {s s' : Shared}
    {job : Option ClusterJob} {recovered : ℕ} (he : Effect seen claim s s') :
    Effect seen claim s { s' with job := job, recovered := recovered } := by
  cases he with
  | none h₁ h₂ h₃ h₄ => exact .none h₁ h₂ h₃ h₄
  | save h₁ h₂ h₃ h₄ h₅ h₆ => exact .save h₁ h₂ h₃ h₄ h₅ h₆
  | store h₁ h₂ h₃ h₄ h₅ h₆ => exact .store h₁ h₂ h₃ h₄ h₅ h₆
  | complete b r h₁ h₂ h₃ h₄ h₅ h₆ h₇ h₈ => exact .complete b r h₁ h₂ h₃ h₄ h₅ h₆ h₇ h₈

/-- A retry has read a failed or cancelled backtest, which has not changed unless it was saved. -/
structure RetryRead (s : Shared) (c : Copy) : Prop where
  status : c.backtest.status = .failed ∨ c.backtest.status = .cancelled
  seen : c.seen ≤ s.writes
  same : c.seen = s.writes → c.backtest.status = s.backtest.status

/-- What the guard and the reads leave a request. -/
theorem requestStep_effect {s s' : Shared} {r r' : Request} {x : RequestStep}
    (hg : x = .go → FencedSave s r) (hr : ∀ c, r = .retrying c → RetryRead s c)
    (hs : requestStep S s r x = some (r', s')) :
    Effect (r.copy.map Copy.seen) none s s' := by
  unfold requestStep at hs
  split at hs
  · -- `update` only reads
    unfold editRead at hs
    simp only at hs
    split at hs
    · cases hs
    split at hs
    · cases hs
    split at hs
    · cases hs
    cases hs
    exact .refl
  · cases hs
    exact .refl
  · -- `serializer.save`
    cases hs
    rcases hg rfl with ⟨hlive, hfresh⟩
    refine .store ?_ ?_ hfresh rfl rfl rfl
    · intro hfinal
      rw [hlive] at hfinal
      cases hfinal
    · intro hdone
      rw [hdone] at hlive
      cases hlive
  · split at hs
    · cases hs
      exact .refl
    · cases hs
  · cases hs
    exact .save (hg rfl) rfl rfl rfl rfl rfl
  · cases hs
    exact .none rfl rfl rfl rfl
  · split at hs
    · cases hs
      exact .refl
    · cases hs
  · -- `retry` saves over the failed or cancelled row it has read, or over a live one
    rename_i c
    cases hs
    rcases hg rfl with ⟨hsame, hfresh⟩
    have hread := hr c rfl
    refine .store ?_ ?_ hfresh rfl rfl rfl
    · intro hfinal
      exact congrArg some (hsame hfinal)
    · intro hdone
      have heq := hread.same (hsame (by rw [hdone]; rfl))
      rcases hread.status with hst | hst <;> rw [hst, hdone] at heq <;> cases heq
  · cases hs
    exact .none rfl rfl rfl rfl
  · cases hs
    exact .save (hg rfl) rfl rfl rfl rfl rfl
  · cases hs
    exact .refl
  · cases hs
    exact .refl
  · cases hs
    exact .save (hg rfl) rfl rfl rfl rfl rfl
  · cases hs
    exact .none rfl rfl rfl rfl
  · cases hs

theorem fail_effect {s : Shared} {snapshot : Dict} {seen : Option ℕ} {claim : Option Backtest}
    (hlive : s.backtest.status.final = false) : Effect seen claim s (s.fail snapshot) :=
  .save hlive rfl rfl rfl rfl rfl

theorem holds_iff {s : Shared} {b : Backtest} :
    s.holds b = true ↔
      s.backtest.status = .running ∧ s.backtest.result_version = b.result_version := by
  simp [Shared.holds]

/-- The transaction of a worker that fails its claim. -/
theorem failClaim_effect {s : Shared} {b : Backtest} {snapshot : Dict} {claim : Option Backtest} :
    Effect none claim s (if s.holds b then s.fail snapshot else s) := by
  split
  · next h =>
    apply fail_effect
    rw [(holds_iff.mp h).1]
    rfl
  · exact .refl

/-- A worker fails or completes only the version it has claimed, and only while it is running. -/
theorem workStep_effect {s s' : Shared} {w w' : Worker} {x : WorkStep}
    (hs : workStep S s w x = some (w', s')) : Effect none w.claim s s' := by
  unfold workStep at hs
  split at hs
  · -- the claim, under the lock
    split at hs
    · next hpending =>
      cases hs
      refine .save ?_ rfl rfl rfl rfl rfl
      rw [hpending]
      rfl
    · cases hs
  · cases hs
    exact .refl
  · cases hs
    exact .refl
  · cases hs
    exact failClaim_effect
  · cases hs
    exact .refl
  · cases hs
    exact .refl
  · -- the last transaction
    rename_i b strategy result trade_count
    cases hs
    split
    · next h =>
      rcases holds_iff.mp h with ⟨hrunning, hversion⟩
      refine .complete b result rfl hrunning rfl rfl rfl rfl rfl ?_
      rw [← hversion]
      rfl
    · exact .refl
  · cases hs
    exact .refl
  · cases hs
    exact failClaim_effect
  · cases hs

theorem reconcileRunning_effect {s : Shared} {now after : ℕ} :
    Effect none none s (reconcileRunning S s now after) := by
  unfold reconcileRunning
  split
  · split
    · split
      · next hrunning =>
        apply fail_effect
        rw [hrunning]
        rfl
      · exact .none rfl rfl rfl rfl
    · exact .refl
  · exact .refl

theorem republishFails_effect {s : Shared} {recovered : ℕ} :
    Effect none none s (republishFails { s with recovered := recovered }) := by
  unfold republishFails
  split
  · next hpending =>
    refine .save ?_ rfl rfl rfl rfl rfl
    rw [hpending]
    rfl
  · exact Effect.refl.requeue

/-- Entries picked for publication change nothing else. -/
theorem reconcilePending_frame (s : Shared) (now after : ℕ) :
    ∃ job recovered,
      reconcilePending s now after = { s with job := job, recovered := recovered } := by
  unfold reconcilePending
  split
  · split
    · exact ⟨_, _, rfl⟩
    · exact ⟨s.job, s.recovered, rfl⟩
  · exact ⟨s.job, s.recovered, rfl⟩

/-! ## The histories agree -/

/-- The row is stored under its version, versions have one set of parameters, results have those of
their version, and once there is a result the backtest is completed. -/
structure Histories (s : Shared) : Prop where
  row : (s.backtest.result_version, s.backtest.params) ∈ s.stored
  functional : ∀ x ∈ s.stored, ∀ y ∈ s.stored, x.1 = y.1 → x.2 = y.2
  persisted : ∀ r ∈ s.persisted, (r.version, r.params) ∈ s.stored
  once : s.persisted = [] ∨ s.backtest.status = .completed ∧ s.persisted.length = 1

theorem Histories.step {seen : Option ℕ} {claim : Option Backtest} {s s' : Shared}
    (hi : Histories s) (he : Effect seen claim s s')
    (hclaim : ∀ b, claim = some b → (b.result_version, b.params) ∈ s.stored) : Histories s' := by
  -- a backtest that is not completed has no result yet
  have hempty : s.backtest.status ≠ .completed → s.persisted = [] := by
    intro hlive
    rcases hi.once with hnil | ⟨hdone, _⟩
    · exact hnil
    · exact absurd hdone hlive
  cases he with
  | none hrow _ hstored hpersisted =>
    constructor
    · rw [hrow, hstored]
      exact hi.row
    · rw [hstored]
      exact hi.functional
    · rw [hstored, hpersisted]
      exact hi.persisted
    · rw [hrow, hpersisted]
      exact hi.once
  | save hlive hparams hversion _ hstored hpersisted =>
    constructor
    · rw [hparams, hversion, hstored]
      exact hi.row
    · rw [hstored]
      exact hi.functional
    · rw [hstored, hpersisted]
      exact hi.persisted
    · left
      rw [hpersisted]
      apply hempty
      intro hdone
      rw [hdone] at hlive
      cases hlive
  | store _ hundone hfresh _ hstored hpersisted =>
    constructor
    · rw [hstored]
      exact List.mem_cons_self
    · rw [hstored]
      intro x hx y hy hxy
      rcases List.mem_cons.mp hx with rfl | hx <;> rcases List.mem_cons.mp hy with rfl | hy
      · rfl
      · exact (hfresh y hy hxy.symm).symm
      · exact hfresh x hx hxy
      · exact hi.functional x hx y hy hxy
    · rw [hstored, hpersisted]
      intro r hr
      exact List.mem_cons_of_mem _ (hi.persisted r hr)
    · left
      rw [hpersisted]
      exact hempty hundone
  | complete b result hb hrunning hparams hversion hdone _ hstored hpersisted =>
    have hnil : s.persisted = [] := by
      apply hempty
      rw [hrunning]
      decide
    constructor
    · rw [hparams, hversion, hstored]
      exact hi.row
    · rw [hstored]
      exact hi.functional
    · rw [hstored, hpersisted, hnil]
      intro r hr
      obtain rfl := List.mem_singleton.mp hr
      exact hclaim b hb
    · right
      rw [hpersisted, hnil]
      exact ⟨hdone, rfl⟩

/-! ## The invariant -/

/-- The histories agree, a worker has claimed stored parameters, and retries have read the row. -/
structure Lab (t : State) : Prop where
  histories : Histories t.shared
  claimed : ∀ j b, (t.workers j).claim = some b → (b.result_version, b.params) ∈ t.shared.stored
  retrying : ∀ i c, t.requests i = .retrying c → RetryRead t.shared c

theorem lab_start : Lab (State.start p) := by
  constructor
  · constructor
    · exact List.mem_singleton.mpr rfl
    · intro x hx y hy _
      rw [List.mem_singleton.mp hx, List.mem_singleton.mp hy]
    · intro r hr
      cases hr
    · exact Or.inl rfl
  · intro j b hb
    cases hb
  · intro i c hc
    simp only [State.start] at hc
    split at hc <;> cases hc

/-- What a retry has read stays as it is, or the row is saved. -/
theorem RetryRead.step {seen : Option ℕ} {claim : Option Backtest} {s s' : Shared} {c : Copy}
    (hr : RetryRead s c) (he : Effect seen claim s s') : RetryRead s' c := by
  have hle := he.writes_le
  have hseen := hr.seen
  constructor
  · exact hr.status
  · omega
  · intro hc
    have hw : s'.writes = s.writes := by omega
    rw [he.row_of_writes hw]
    exact hr.same (by omega)

/-- A retry begins with a read. -/
theorem requestStep_retrying {s s' : Shared} {r : Request} {x : RequestStep} {c : Copy}
    (hs : requestStep S s r x = some (.retrying c, s')) : s' = s ∧ RetryRead s c := by
  unfold requestStep at hs
  split at hs
  case h_7 =>
    split at hs
    · next hst =>
      cases hs
      exact ⟨rfl, hst, Nat.le_refl _, fun _ => rfl⟩
    · cases hs
  case h_1 =>
    unfold editRead at hs
    simp only at hs
    split at hs
    · cases hs
    split at hs
    · cases hs
    split at hs <;> cases hs
  case h_9 =>
    simp only [Option.some.injEq, Prod.mk.injEq] at hs
    have h := hs.1
    split at h <;> cases h
  all_goals first
    | cases hs
    | (split at hs <;> cases hs)

/-- A claim is the row as it is, under its version. -/
theorem workStep_claim {s s' : Shared} {w w' : Worker} {x : WorkStep} {b : Backtest}
    (hs : workStep S s w x = some (w', s')) (hb : w'.claim = some b) :
    w.claim = some b ∨
      b.params = s.backtest.params ∧ b.result_version = s.backtest.result_version := by
  unfold workStep at hs
  split at hs
  case h_1 =>
    split at hs
    · cases hs
      cases hb
      exact Or.inr ⟨rfl, rfl⟩
    · cases hs
  all_goals first
    | (cases hs; cases hb; done)
    | (cases hs; exact Or.inl hb)
    | cases hs

/-- The row the actor of the step has claimed. -/
def State.claim (t : State) : Action → Option Backtest
  | .work j _ => (t.workers j).claim
  | _ => none

theorem step_effect (hg : Fenced t a) (hi : Lab t) (hs : step S t a = some t') :
    Effect (t.seen a) (t.claim a) t.shared t'.shared := by
  cases a with
  | request i r =>
    rcases Option.map_eq_some_iff.mp hs with ⟨⟨r', s'⟩, hr, rfl⟩
    refine requestStep_effect ?_ (fun c => hi.retrying i c) hr
    rintro rfl
    exact hg
  | work j w =>
    rcases Option.map_eq_some_iff.mp hs with ⟨⟨w', s'⟩, hw, rfl⟩
    exact workStep_effect hw
  | reconcile now pending_after running_after running pending =>
    cases hs
    have hrunning : Effect none none t.shared
        (if running then reconcileRunning S t.shared now running_after else t.shared) := by
      split
      · exact reconcileRunning_effect
      · exact .refl
    show Effect none none t.shared (if pending then _ else _)
    split
    · rcases reconcilePending_frame
        (if running then reconcileRunning S t.shared now running_after else t.shared)
        now pending_after with ⟨job, recovered, h⟩
      rw [h]
      exact hrunning.requeue
    · exact hrunning
  | republish published =>
    simp only [step] at hs
    split at hs
    · cases hs
    · cases hs
      split
      · exact Effect.refl.requeue
      · exact republishFails_effect

theorem step_lab (hg : Fenced t a) (hi : Lab t) (hs : step S t a = some t') : Lab t' := by
  have he := step_effect hg hi hs
  have hclaim : ∀ b, t.claim a = some b → (b.result_version, b.params) ∈ t.shared.stored := by
    intro b hb
    cases a with
    | work j w => exact hi.claimed j b hb
    | _ => cases hb
  have hhist : Histories t'.shared := hi.histories.step he hclaim
  have hkept : ∀ j b, (t.workers j).claim = some b →
      (b.result_version, b.params) ∈ t'.shared.stored := by
    intro j b hb
    exact he.stored_mono (hi.claimed j b hb)
  have hread : ∀ i c, t.requests i = .retrying c → RetryRead t'.shared c := by
    intro i c hc
    exact (hi.retrying i c hc).step he
  cases a with
  | request i r =>
    rcases Option.map_eq_some_iff.mp hs with ⟨⟨r', s'⟩, hr, rfl⟩
    refine ⟨hhist, hkept, ?_⟩
    intro k c hc
    by_cases hk : k = i
    · -- the request that reads
      rw [hk] at hc
      have hc : r' = .retrying c := by simpa using hc
      subst hc
      rcases requestStep_retrying hr with ⟨rfl, hfirst⟩
      exact hfirst
    · exact hread k c (by simpa [hk] using hc)
  | work j w =>
    rcases Option.map_eq_some_iff.mp hs with ⟨⟨w', s'⟩, hw, rfl⟩
    refine ⟨hhist, ?_, hread⟩
    intro k b hb
    by_cases hk : k = j
    · rw [hk] at hb
      have hb : w'.claim = some b := by simpa using hb
      rcases workStep_claim hw hb with hold | ⟨hparams, hversion⟩
      · exact hkept j b hold
      · rw [hparams, hversion]
        exact he.stored_mono hi.histories.row
    · exact hkept k b (by simpa [hk] using hb)
  | reconcile now pending_after running_after running pending =>
    cases hs
    exact ⟨hhist, hkept, hread⟩
  | republish published =>
    simp only [step] at hs
    split at hs
    · cases hs
    · cases hs
      exact ⟨hhist, hkept, hread⟩

theorem Lab.fromStored (hi : Lab t) : FromStored t := by
  intro r hr q
  constructor
  · intro hq
    exact hi.histories.functional _ hq _ (hi.histories.persisted r hr) rfl
  · rintro rfl
    exact hi.histories.persisted r hr

theorem Lab.oncePerVersion (hi : Lab t) : OncePerVersion t := by
  rcases hi.histories.once with hnil | ⟨_, hone⟩
  · simp [OncePerVersion, hnil]
  · obtain ⟨r, hr⟩ := List.length_eq_one_iff.mp hone
    simp [OncePerVersion, hr]

/-! ## Results are fenced -/

/-- Every result was computed from the parameters of its version, a version has one result, and no
late writer overwrites a completed or cancelled backtest. -/
theorem results_fenced {as : List Action} (hrun : (lab S).RunIf Fenced (State.start p) as t) :
    (lab S).RunIf (KeepsFinal S) (State.start p) as t ∧ FromStored t ∧ OncePerVersion t := by
  have hstep : ∀ s a s', Fenced s a → Lab s → (lab S).next s a = some s' →
      Lab s' ∧ KeepsFinal S s a := by
    intro s a s' hg hi hs
    refine ⟨step_lab hg hi hs, ?_⟩
    intro hfinal s'' hs''
    exact (step_effect hg hi hs'').keeps hfinal
  have hend : Lab t := by
    apply hrun.invariant _ lab_start
    intro s a s' hg hi hs
    exact (hstep s a s' hg hi hs).1
  refine ⟨?_, hend.fromStored, hend.oncePerVersion⟩
  exact (hrun.forall_steps hstep lab_start).mono fun _ _ h => h.2.2

/-- A save that the condition excludes falls on a completed or cancelled row, or stores other
parameters under a version in use. -/
theorem unfenced_save {i : ℕ} (hg : ¬ FencedSave t.shared (t.requests i)) :
    ∃ t', step S t (.request i .go) = some t' ∧
      (t.shared.backtest.status.final = true ∧ t'.shared.writes = t.shared.writes + 1 ∨
        ∃ x ∈ t'.shared.stored, ∃ y ∈ t'.shared.stored, x.1 = y.1 ∧ x.2 ≠ y.2) := by
  have hreuse : ∀ row, ¬ Fresh t.shared row → ∃ x ∈ (row.result_version, row.params) ::
      t.shared.stored, ∃ y ∈ (row.result_version, row.params) :: t.shared.stored,
      x.1 = y.1 ∧ x.2 ≠ y.2 := by
    intro row hfresh
    simp only [Fresh, not_forall] at hfresh
    rcases hfresh with ⟨q, hq, hversion, hparams⟩
    exact ⟨q, List.mem_cons_of_mem _ hq, _, List.mem_cons_self, hversion, hparams⟩
  cases hr : t.requests i with
  | updating c start stop version =>
    rw [hr] at hg
    refine ⟨_, by simp [step, requestStep, hr]; rfl, ?_⟩
    by_cases hfinal : t.shared.backtest.status.final = true
    · exact Or.inl ⟨hfinal, rfl⟩
    · right
      apply hreuse
      intro hfresh
      exact hg ⟨by simpa using hfinal, hfresh⟩
  | retrying c =>
    rw [hr] at hg
    refine ⟨_, by simp [step, requestStep, hr]; rfl, ?_⟩
    by_cases hfinal : t.shared.backtest.status.final = true
    · exact Or.inl ⟨hfinal, rfl⟩
    · right
      apply hreuse
      intro hfresh
      exact hg ⟨fun h => absurd h hfinal, hfresh⟩
  | cancelling c =>
    rw [hr] at hg
    exact ⟨_, by simp [step, requestStep, hr]; rfl, Or.inl ⟨by simpa [FencedSave] using hg, rfl⟩⟩
  | queueSave c =>
    rw [hr] at hg
    exact ⟨_, by simp [step, requestStep, hr]; rfl, Or.inl ⟨by simpa [FencedSave] using hg, rfl⟩⟩
  | failing c snapshot =>
    rw [hr] at hg
    exact ⟨_, by simp [step, requestStep, hr]; rfl, Or.inl ⟨by simpa [FencedSave] using hg, rfl⟩⟩
  | _ =>
    rw [hr] at hg
    exact absurd trivial hg

/-! ## Concrete runs -/

/-- A deployment with a queue. -/
def settings : Settings := ⟨true, toString⟩

def params : Params := ⟨"Trend", "R_100", "1m", 0, 60, "candle_close"⟩

/-- Request `i` runs `_queue` to its end. -/
def queued (i : ℕ) : List Action :=
  [.request i (.queue 0), .request i .go, .request i (.publish none)]

/-- Worker `j` claims the backtest and computes. -/
def computing (j : ℕ) (result : Option Dict) : List Action :=
  [.work j (.claim 0), .work j (.lookup (some "Trend")), .work j (.compute result)]

/-- The backtest is cancelled while worker 0 computes, retried, and completed by worker 1. -/
theorem results_fenced_retry :
    ∃ t, (lab settings).RunIf (KeepsFinal settings) (State.start params)
        (queued 0 ++ computing 0 (some []) ++
          [.request 1 .cancel, .request 1 .go, .request 1 .go, .request 2 .retry, .request 2 .go,
            .work 0 (.commit 0)] ++
          queued 2 ++ computing 1 (some []) ++ [.work 1 (.commit 0)]) t ∧
      FromStored t ∧ OncePerVersion t := by
  have hexec : ((lab settings).execIf Fenced (State.start params)
      (queued 0 ++ computing 0 (some []) ++
        [.request 1 .cancel, .request 1 .go, .request 1 .go, .request 2 .retry, .request 2 .go,
          .work 0 (.commit 0)] ++
        queued 2 ++ computing 1 (some []) ++ [.work 1 (.commit 0)])).isSome = true := by
    decide +kernel
  obtain ⟨t, hrun⟩ := Machine.exists_runIf hexec
  exact ⟨t, results_fenced hrun⟩

/-- Version 1 fails and is retried. Worker 1 completes version 2 before `_queue` saves `pending`
over it, and worker 2 computes version 2 again. -/
theorem two_results :
    ∃ t, (lab settings).Run (State.start params)
        (queued 0 ++ computing 0 none ++ [.work 0 (.commit 0), .request 1 .retry, .request 1 .go] ++
          computing 1 (some []) ++ [.work 1 (.commit 0)] ++ queued 1 ++ computing 2 (some []) ++
          [.work 2 (.commit 0)]) t ∧
      ¬ OncePerVersion t := by
  have htwo : ((lab settings).exec (State.start params)
      (queued 0 ++ computing 0 none ++ [.work 0 (.commit 0), .request 1 .retry, .request 1 .go] ++
        computing 1 (some []) ++ [.work 1 (.commit 0)] ++ queued 1 ++ computing 2 (some []) ++
        [.work 2 (.commit 0)])).any
      (fun t => t.shared.persisted.map Persisted.version == [2, 2]) = true := by
    decide +kernel
  rcases (Option.any_eq_true _ _).mp htwo with ⟨t, ht, hversions⟩
  refine ⟨t, Machine.exec_eq_some_iff.mp ht, ?_⟩
  unfold OncePerVersion
  rw [beq_iff_eq.mp hversions]
  decide

/-- Two edits compute version 2 from the same read. Worker 0 has claimed it with the first dates and
records its result when worker 1 has claimed it with the second ones. -/
theorem other_parameters :
    ∃ t, (lab settings).Run (State.start params)
        (queued 0 ++
          [.request 1 (.edit none (some 120) 1000), .request 1 .go,
            .request 2 (.edit none (some 180) 1000), .request 2 .go, .request 1 .go] ++
          computing 0 (some []) ++ [.request 2 .go, .work 1 (.claim 0), .work 0 (.commit 0)]) t ∧
      ¬ FromStored t := by
  have hother : ((lab settings).exec (State.start params)
      (queued 0 ++
        [.request 1 (.edit none (some 120) 1000), .request 1 .go,
          .request 2 (.edit none (some 180) 1000), .request 2 .go, .request 1 .go] ++
        computing 0 (some []) ++ [.request 2 .go, .work 1 (.claim 0), .work 0 (.commit 0)])).any
      (fun t => t.shared.persisted.any fun r => t.shared.stored.any fun x =>
        x.1 == r.version && x.2 != r.params) = true := by
    decide +kernel
  rcases (Option.any_eq_true _ _).mp hother with ⟨t, ht, hresult⟩
  refine ⟨t, Machine.exec_eq_some_iff.mp ht, ?_⟩
  intro hfrom
  rcases List.any_eq_true.mp hresult with ⟨r, hr, hstored⟩
  rcases List.any_eq_true.mp hstored with ⟨⟨v, q⟩, hq, hne⟩
  simp only [Bool.and_eq_true, beq_iff_eq, bne_iff_ne] at hne
  rcases hne with ⟨rfl, hne⟩
  exact hne ((hfrom r hr q).mp hq)

end AlgoBot.Backtesting
