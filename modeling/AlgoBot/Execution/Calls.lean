import AlgoBot.Execution.Ownership

/-!
# One call, alone with the order

A worker that has claimed the queue entry, or `place_manual_order` from the
created order on. `Sites` says how each step of the call ends, so the call is a
function of it: `queuedCall` and `manualCall`. Both are runs of the engine
(`run_queuedCall`, `run_manualCall`) and come to their end (`queued_ends`,
`manual_ends`).
-/

namespace AlgoBot.Execution

open AlgoBot.Core AlgoBot.Python

variable {h : Host} {s s' : Shared}

/-! ## Calls -/

/-- How each step of a call ends: the reply, and elsewhere the exception if there is one. A call
comes to each of its steps once. -/
structure Sites where
  log_created : Option Exc
  log_validated : Option Exc
  save_validated : Option Exc
  risk : Option Exc
  read_order : Option Exc
  gate : Option Exc
  save_sent : Option Exc
  adapter : Option Exc
  reply : BrokerReply
  save_reply : Option Exc
  log_reply : Option Exc
  mark_done : Option Exc
  read_current : Option Exc
  read_context : Option Exc
  write_order : Option Exc
  write_queue : Option Exc

def Outcome.of : Option Exc → Outcome
  | some e => .fail e
  | none => .ok

theorem Outcome.of_eq_ok {o : Option Exc} : Outcome.of o = .ok ↔ o = none := by
  cases o <;> simp [Outcome.of]

theorem Outcome.of_eq_fail {o : Option Exc} {e : Exc} : Outcome.of o = .fail e ↔ o = some e := by
  cases o <;> simp [Outcome.of]

theorem Outcome.of_ne_reply (o : Option Exc) (r : BrokerReply) : Outcome.of o ≠ .reply r := by
  cases o <;> simp [Outcome.of]

/-- How the next step of `execute` ends. -/
def Exec.site (f : Sites) (x : Exec) : Outcome :=
  match x.pc with
  | .check => .of f.gate
  | .saveSent => .of f.save_sent
  | .submit => .of f.adapter
  | .await => .reply f.reply
  | .saveInvalid | .saveUnknown | .saveReply => .of f.save_reply
  | .logUnknown | .logReply => .of f.log_reply

def Worker.site (f : Sites) : Worker → Option Outcome
  | .idle => none
  | .claimed => some (.of f.read_order)
  | .exec x => some (x.site f)
  | .markDone _ => some (.of f.mark_done)
  | .readCurrent _ _ => some (.of f.read_current)
  | .readContext _ => some (.of f.read_context)
  | .writeOrder _ _ => some (.of f.write_order)
  | .writeQueue => some (.of f.write_queue)

/-- The steps of `place_manual_order`; it has none that enqueue. -/
def Placer.site (f : Sites) : Placer → Option Outcome
  | .placing .logCreated _ => some (.of f.log_created)
  | .placing .logValidated _ => some (.of f.log_validated)
  | .placing .saveValidated _ => some (.of f.save_validated)
  | .placing .risk _ => some (.of f.risk)
  | .placing _ _ => none
  | .exec x => some (x.site f)
  | .done => none

/-- A worker with the order to itself. -/
def worker (h : Host) : Machine (Worker × Shared) Outcome := ⟨fun p o => workStep h p.2 p.1 o⟩

/-- `place_manual_order` with the order to itself. -/
def manualPlacer (h : Host) : Machine (Placer × Shared) Outcome :=
  ⟨fun p o => placeStep h true p.2 p.1 o⟩

/-- The call of a worker that has claimed the entry. -/
def queuedCall (h : Host) (f : Sites) (s : Shared) : Worker × Shared :=
  (worker h).drive (fun p => p.1.site f) 12 (.claimed, s)

/-- The call of `place_manual_order`, from the order it has created. -/
def manualCall (h : Host) (f : Sites) (order : Order) (s : Shared) : Placer × Shared :=
  (manualPlacer h).drive (fun p => p.1.site f) 12 (.placing .logCreated order, s)

/-! ## Calls are runs of the engine -/

section Lift

variable {manual : Bool} {i : ℕ}

/-- What a worker does alone it does in the engine. -/
theorem run_work {p q : Worker × Shared} {os : List Outcome} (hrun : (worker h).Run p os q)
    (t : State) (hw : t.workers i = p.1) (hs : t.shared = p.2) :
    (engine h manual).Run t (os.map (.work i))
      { t with workers := Function.update t.workers i q.1, shared := q.2 } := by
  induction hrun generalizing t with
  | nil p =>
    rw [← hw, ← hs, Function.update_eq_self]
    exact Machine.RunIf.nil t
  | @cons p p' q o os _ hstep _ ih =>
    have hnext : (engine h manual).next t (.work i o) =
        some { t with workers := Function.update t.workers i p'.1, shared := p'.2 } := by
      have hwork : workStep h t.shared (t.workers i) o = some p' := by
        rw [hw, hs]
        exact hstep
      simp [engine, step, hwork]
    -- the rest of the run updates the same worker again
    have hrest := ih { t with workers := Function.update t.workers i p'.1, shared := p'.2 }
      (Function.update_self ..) rfl
    simp only [Function.update_idem] at hrest
    exact Machine.RunIf.cons trivial hnext hrest

/-- What `place_manual_order` does alone it does in the engine. -/
theorem run_place {p q : Placer × Shared} {os : List Outcome} (hrun : (manualPlacer h).Run p os q)
    (t : State) (hp : t.placer = p.1) (hs : t.shared = p.2) :
    (engine h true).Run t (os.map .place) { t with placer := q.1, shared := q.2 } := by
  induction hrun generalizing t with
  | nil p =>
    rw [← hp, ← hs]
    exact Machine.RunIf.nil t
  | @cons p p' q o os _ hstep _ ih =>
    have hnext : (engine h true).next t (.place o) =
        some { t with placer := p'.1, shared := p'.2 } := by
      have hplace : placeStep h true t.shared t.placer o = some p' := by
        rw [hp, hs]
        exact hstep
      simp [engine, step, hplace]
    exact Machine.RunIf.cons trivial hnext (ih _ rfl rfl)

theorem run_queuedCall (f : Sites) (t : State) (hw : t.workers i = .claimed) :
    ∃ os : List Outcome, (engine h manual).Run t (os.map (.work i))
      { t with workers := Function.update t.workers i (queuedCall h f t.shared).1
               shared := (queuedCall h f t.shared).2 } := by
  obtain ⟨os, hos⟩ := Machine.run_drive (M := worker h) (fun p : Worker × Shared => p.1.site f) 12
    (.claimed, t.shared)
  exact ⟨os, run_work hos t hw rfl⟩

theorem run_manualCall (f : Sites) (order : Order) :
    ∃ os : List Outcome, (engine h true).Run (State.start order) (os.map .place)
      { State.start order with
        placer :=
          (manualCall h f (State.start order).shared.order (State.start order).shared).1
        shared :=
          (manualCall h f (State.start order).shared.order (State.start order).shared).2 } := by
  obtain ⟨os, hos⟩ := Machine.run_drive (M := manualPlacer h)
    (fun p : Placer × Shared => p.1.site f) 12
    (.placing .logCreated (State.start order).shared.order, (State.start order).shared)
  exact ⟨os, run_place hos (State.start order) rfl rfl⟩

end Lift

/-! ## Calls end -/

/-- How many steps `execute` can still take. -/
def ExecPc.left : ExecPc → ℕ
  | .check => 6
  | .saveSent => 5
  | .submit => 4
  | .await => 3
  | .saveInvalid | .saveUnknown | .saveReply => 2
  | .logUnknown | .logReply => 1

def Worker.left : Worker → ℕ
  | .claimed => 12
  | .exec x => 5 + x.pc.left
  | .markDone _ => 5
  | .readCurrent _ _ => 4
  | .readContext _ => 3
  | .writeOrder _ _ => 2
  | .writeQueue => 1
  | .idle => 0

def Placer.left : Placer → ℕ
  | .placing .logCreated _ => 11
  | .placing .logValidated _ => 10
  | .placing .saveValidated _ => 9
  | .placing .risk _ => 8
  | .placing _ _ => 0
  | .exec x => x.pc.left
  | .done => 0

def ExecNext.left : ExecNext → ℕ
  | .running x => x.pc.left
  | _ => 0

theorem checkStep_left {x : Exec} {n : ExecNext} {o : Outcome} (hn : checkStep x o = some n) :
    n.left < 6 := by
  unfold checkStep at hn
  split at hn
  · cases hn
    exact Nat.succ_pos 5
  · split at hn
    · cases hn
      exact Nat.succ_pos 5
    · cases o with
      | reply r => cases hn
      | _ =>
        cases hn
        simp [ExecNext.left, ExecPc.left]

theorem awaitStep_left (h : Host) (x : Exec) (s : Shared) (r : BrokerReply) :
    (awaitStep h x s r).1.left < 3 := by
  cases r with
  | raises e => exact Nat.succ_pos 2
  | returns v =>
    cases v with
    | dict response =>
      simp only [awaitStep, replyStep]
      split <;> exact Nat.lt_succ_self 2
    | _ => exact Nat.lt_succ_self 2

theorem execStep_left {x : Exec} {n : ExecNext} {o : Outcome}
    (hs : execStep h x s o = some (n, s')) : n.left < x.pc.left := by
  rcases x with ⟨pc, order, attempt⟩
  cases o with
  | reply r =>
    simp only [execStep] at hs
    split at hs
    · rename_i hpc
      have hlt := awaitStep_left h ⟨pc, order, attempt⟩ s r
      rw [Option.some.inj hs] at hlt
      rw [hpc]
      exact hlt
    · cases hs
  | _ =>
    cases pc with
    | check =>
      simp only [execStep, execOk, Option.map_eq_some_iff] at hs
      rcases hs with ⟨n', hn', hn⟩
      cases hn
      exact checkStep_left hn'
    | await => cases hs
    | _ =>
      cases hs
      simp [ExecNext.left, ExecPc.left]

theorem left_caught (order : Order) (e : Exc) : (caught order e).left ≤ 4 := by
  unfold caught
  split <;> simp [Worker.left]

theorem left_onCurrent (current order : Order) (e : Exc) :
    (onCurrent current order e).left ≤ 3 := by
  unfold onCurrent
  split
  · split <;> simp [Worker.left]
  · simp [Worker.left]

theorem left_workerAfter (n : ExecNext) : (Worker.after n).left ≤ 5 + n.left := by
  cases n with
  | running x => exact le_refl _
  | returned order => exact le_refl _
  | raised order e =>
    have hle := left_caught order e
    show (caught order e).left ≤ 5 + 0
    omega

theorem workStep_left {w w' : Worker} {o : Outcome} (hw : w ≠ .idle)
    (hs : workStep h s w o = some (w', s')) : w'.left < w.left := by
  cases w with
  | idle => exact absurd rfl hw
  | exec x =>
    have hs : (execStep h x s o).map (fun r => (Worker.after r.1, r.2)) = some (w', s') := by
      cases o <;> exact hs
    rw [Option.map_eq_some_iff] at hs
    rcases hs with ⟨⟨n, s₁⟩, hx, hn⟩
    cases hn
    have hlt := execStep_left hx
    have hle := left_workerAfter n
    show (Worker.after n).left < 5 + x.pc.left
    omega
  | markDone order =>
    cases o with
    | fail e =>
      cases hs
      have hle := left_caught order e
      show (caught order e).left < 5
      omega
    | ok =>
      cases hs
      simp [Worker.left]
    | reply r => cases hs
  | readCurrent order e =>
    cases o with
    | ok =>
      cases hs
      have hle := left_onCurrent s.order order e
      show (onCurrent s.order order e).left < 4
      omega
    | fail e' =>
      cases hs
      simp [Worker.left]
    | reply r => cases hs
  | _ =>
    cases o with
    | reply r => cases hs
    | _ =>
      cases hs
      simp [Worker.left, Exec.start, ExecPc.left]

theorem placeStep_left {p p' : Placer} {o : Outcome} (hp : p.left ≠ 0)
    (hs : placeStep h true s p o = some (p', s')) : p'.left < p.left := by
  cases p with
  | placing pc order =>
    cases o with
    | reply r => cases hs
    | fail e =>
      cases hs
      exact Nat.pos_of_ne_zero hp
    | ok =>
      cases pc with
      | enqueue | saveQueued | logQueued => exact absurd rfl hp
      | _ =>
        cases hs
        simp [Placer.left, Exec.start, ExecPc.left]
  | exec x =>
    simp only [placeStep, Option.map_eq_some_iff] at hs
    rcases hs with ⟨⟨n, s₁⟩, hx, hn⟩
    cases hn
    have hlt := execStep_left hx
    have hle : (Placer.after n).left = n.left := by cases n <;> rfl
    show (Placer.after n).left < x.pc.left
    omega
  | done => exact absurd rfl hp

/-- The next step of `execute` ends one way or the other. -/
theorem execStep_site (h : Host) (f : Sites) (x : Exec) (s : Shared) :
    (execStep h x s (x.site f)).isSome = true := by
  rcases x with ⟨pc, order, attempt⟩
  have hcheck : ∀ e, (checkStep ⟨.check, order, attempt⟩ (.of e)).isSome = true := by
    intro e
    unfold checkStep
    split
    · rfl
    · split
      · rfl
      · cases e <;> rfl
  -- a reply is what the broker's step waits for, and no other step takes one
  cases pc with
  | check =>
    have hsome := hcheck f.gate
    cases hgate : f.gate with
    | none => simpa [Exec.site, execStep, execOk, hgate, Outcome.of] using hsome
    | some e => simpa [Exec.site, execStep, hgate, Outcome.of] using hsome
  | await => rfl
  | saveSent => cases hf : f.save_sent <;> simp [Exec.site, execStep, execOk, hf, Outcome.of]
  | submit => cases hf : f.adapter <;> simp [Exec.site, execStep, execOk, hf, Outcome.of]
  | saveInvalid | saveUnknown | saveReply =>
    cases hf : f.save_reply <;> simp [Exec.site, execStep, execOk, hf, Outcome.of]
  | logUnknown | logReply =>
    cases hf : f.log_reply <;> simp [Exec.site, execStep, execOk, hf, Outcome.of]

theorem workStep_site {f : Sites} {w : Worker} {o : Outcome} (ho : w.site f = some o) :
    (workStep h s w o).isSome = true := by
  cases w with
  | idle => cases ho
  | exec x =>
    cases ho
    have hsome := execStep_site h f x s
    cases hx : x.site f <;> simpa [workStep, hx] using hsome
  | claimed => cases ho; cases f.read_order <;> rfl
  | markDone order => cases ho; cases f.mark_done <;> rfl
  | readCurrent order e => cases ho; cases f.read_current <;> rfl
  | readContext e => cases ho; cases f.read_context <;> rfl
  | writeOrder status context => cases ho; cases f.write_order <;> rfl
  | writeQueue => cases ho; cases f.write_queue <;> rfl

theorem placeStep_site {f : Sites} {p : Placer} {o : Outcome} (ho : p.site f = some o) :
    (placeStep h true s p o).isSome = true := by
  cases p with
  | placing pc order =>
    cases pc with
    | logCreated => cases ho; cases f.log_created <;> rfl
    | logValidated => cases ho; cases f.log_validated <;> rfl
    | saveValidated => cases ho; cases f.save_validated <;> rfl
    | risk => cases ho; cases f.risk <;> rfl
    | _ => cases ho
  | exec x =>
    cases ho
    simpa [placeStep] using execStep_site h f x s
  | done => cases ho

/-- Only an idle worker has no next step. -/
theorem idle_of_stuck {f : Sites} {w : Worker}
    (hstuck : (w.site f).bind (workStep h s w) = none) : w = .idle := by
  cases hsite : w.site f with
  | none =>
    cases w with
    | idle => rfl
    | _ => cases hsite
  | some o =>
    have hsome := workStep_site (h := h) (s := s) hsite
    have hnone : workStep h s w o = none := by simpa [hsite] using hstuck
    rw [hnone] at hsome
    cases hsome

/-- The worker's call runs to its end. -/
theorem queued_ends (h : Host) (f : Sites) (s : Shared) : (queuedCall h f s).1 = .idle := by
  have hstep : ∀ (p : Worker × Shared) (o : Outcome) (p' : Worker × Shared),
      p.1.site f = some o → (worker h).next p o = some p' → p'.1.left < p.1.left := by
    intro p o p' ho hs
    apply workStep_left _ hs
    intro hidle
    simp [hidle, Worker.site] at ho
  exact idle_of_stuck (Machine.drive_ends (fun p : Worker × Shared => p.1.site f)
    (fun p => p.1.left) hstep (le_refl _))

/-- The steps of `place_manual_order`. -/
def Placer.direct : Placer → Bool
  | .placing pc _ => pc != .enqueue && pc != .saveQueued && pc != .logQueued
  | _ => true

theorem placeStep_direct {p p' : Placer} {o : Outcome} (hp : p.direct = true)
    (hs : placeStep h true s p o = some (p', s')) : p'.direct = true := by
  cases p with
  | placing pc order =>
    cases o with
    | reply r => cases hs
    | fail e =>
      cases hs
      rfl
    | ok =>
      cases pc with
      | enqueue | saveQueued | logQueued => cases hp
      | _ =>
        cases hs
        rfl
  | exec x =>
    simp only [placeStep, Option.map_eq_some_iff] at hs
    rcases hs with ⟨⟨n, s₁⟩, _, hn⟩
    cases hn
    cases n <;> rfl
  | done => cases o <;> cases hs

theorem done_of_stuck {f : Sites} {p : Placer} (hp : p.direct = true)
    (hstuck : (p.site f).bind (placeStep h true s p) = none) : p = .done := by
  cases hsite : p.site f with
  | none =>
    cases p with
    | placing pc order =>
      cases pc with
      | enqueue | saveQueued | logQueued => simp [Placer.direct] at hp
      | _ => cases hsite
    | exec x => cases hsite
    | done => rfl
  | some o =>
    have hsome := placeStep_site (h := h) (s := s) hsite
    have hnone : placeStep h true s p o = none := by simpa [hsite] using hstuck
    rw [hnone] at hsome
    cases hsome

/-- The manual call runs to its end. -/
theorem manual_ends (h : Host) (f : Sites) (order : Order) (s : Shared) :
    (manualCall h f order s).1 = .done := by
  have hdirect : (manualCall h f order s).1.direct = true := by
    apply Machine.drive_invariant (fun p : Placer × Shared => p.1.site f)
      (fun p => p.1.direct = true)
    · intro p o p' _ hp hs
      exact placeStep_direct hp hs
    · rfl
  have hstep : ∀ (p : Placer × Shared) (o : Outcome) (p' : Placer × Shared),
      p.1.site f = some o → (manualPlacer h).next p o = some p' → p'.1.left < p.1.left := by
    intro p o p' ho hs
    apply placeStep_left _ hs
    -- only a call that is over has no steps left
    intro hleft
    rcases p with ⟨p, s⟩
    cases p with
    | placing pc order =>
      cases pc with
      | enqueue | saveQueued | logQueued => cases ho
      | _ => simp [Placer.left] at hleft
    | exec x =>
      rcases x with ⟨pc, order, attempt⟩
      cases pc <;> cases hleft
    | done => cases ho
  apply done_of_stuck hdirect
  exact Machine.drive_ends (fun p : Placer × Shared => p.1.site f) (fun p => p.1.left) hstep
    (Nat.le_succ 11)

end AlgoBot.Execution
