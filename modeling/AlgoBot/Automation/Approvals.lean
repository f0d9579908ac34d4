import AlgoBot.Core.Once
import AlgoBot.Automation.Models

/-!
# Approvals

The `approve` view, for any number of requests about one approval, each read and
write a step of its own. There is no view that rejects; a rejection is what anything
else writes into the row.

`approved_once`: at most one execution is started from the approval, and none after
a rejection, if what is written into the row finds it pending. `started_twice` is a
run in which two requests have read it as pending.
-/

namespace AlgoBot.Automation

open AlgoBot.Core AlgoBot.Python

namespace Approvals

/-- What a request is answered. -/
inductive Reply where
  /-- `APPROVAL_NOT_PENDING`, with status 409. -/
  | not_pending
  /-- The approval, and the execution that has been resumed. -/
  | approved (resumed : Option ℕ)
  | error

/-- Where a request is. -/
inductive Request where
  | idle
  /-- The row that was read is pending. -/
  | pending (approval : ApprovalRequest)
  /-- `ApprovalService.approve` has saved it. -/
  | approved (approval : ApprovalRequest)
  /-- The execution that was paused is about to be run again. -/
  | resuming (previous : WorkflowExecution)
  /-- `run` has created its execution. -/
  | running (previous : WorkflowExecution) (execution : ℕ)
  /-- `run` has returned. -/
  | resumed (previous : WorkflowExecution) (execution : ℕ) (status : Status)
  | answered (reply : Reply)

structure State where
  approval : ApprovalRequest
  executions : Table WorkflowExecution
  requests : ℕ → Request

def State.start (approval : ApprovalRequest) (executions : Table WorkflowExecution) : State :=
  ⟨approval, executions, fun _ => .idle⟩

inductive Action where
  | read (i : ℕ)
  | approve (i : ℕ)
  /-- The query for the paused execution. -/
  | find (i : ℕ)
  /-- `run` creates its execution, or the workflow is not active and it raises. -/
  | start (i : ℕ) (active : Bool)
  | finish (i : ℕ) (status : Status) (result : Value)
  /-- The paused execution is saved as cancelled. -/
  | supersede (i : ℕ)
  /-- A rejection is recorded. -/
  | reject
  /-- The run that has asked for the approval saves its execution as paused. -/
  | pause (execution : ℕ)

def State.move (s : State) (i : ℕ) (r : Request) : State :=
  { s with requests := Function.update s.requests i r }

/-- `metadata.get("execution_id")`, if there is one. -/
def executionId (approval : ApprovalRequest) : Option Value :=
  some (Dict.get approval.metadata.asDict "execution_id") |>.filter Value.truthy

/-- `filter(pk=execution_id, workflow=approved.workflow, status="paused").first()`. -/
def findPaused (executions : Table WorkflowExecution) (pk : ℤ) (workflow_id : ℕ) :
    Option WorkflowExecution :=
  executions.find? fun e => (e.pk : ℤ) == pk && e.workflow_id == workflow_id && e.status == .paused

/-- The execution `run` creates. -/
def newExecution (previous : WorkflowExecution) (pk : ℕ) : WorkflowExecution where
  pk := pk
  workflow_id := previous.workflow_id
  status := .running
  trigger_payload := .dict previous.trigger_payload.asDict
  result := .dict []

/-- The last save of the view. -/
def superseded (previous : WorkflowExecution) (execution : ℕ) (status : Status) :
    WorkflowExecution :=
  { previous with
    status := .cancelled
    result := .dict (previous.result.asDict.merge
      [("approval", .str "approved"), ("superseded_by_execution_id", .int execution),
        ("resumed_status", .str status.text)]) }

/-- `save(update_fields=["status", "result", ...])`. -/
def saveExecution (executions : Table WorkflowExecution) (pk : ℕ) (status : Status)
    (result : Value) : Table WorkflowExecution :=
  match executions.get? pk with
  | some row => executions.set { row with status := status, result := result }
  | none => executions

def step (h : Host) (s : State) : Action → Option State
  | .read i =>
      match s.requests i with
      | .idle =>
          if s.approval.status = .pending then some (s.move i (.pending s.approval))
          else some (s.move i (.answered .not_pending))
      | _ => none
  | .approve i =>
      match s.requests i with
      | .pending approval =>
          some ({ s with approval := { s.approval with status := .approved } }.move i
            (.approved { approval with status := .approved }))
      | _ => none
  | .find i =>
      match s.requests i with
      | .approved approval =>
          match executionId approval with
          | none => some (s.move i (.answered (.approved none)))
          | some v =>
              match v.toInt h with
              | .error _ => some (s.move i (.answered .error))
              | .ok pk =>
                  match findPaused s.executions pk approval.workflow_id with
                  | none => some (s.move i (.answered (.approved none)))
                  | some previous => some (s.move i (.resuming previous))
      | _ => none
  | .start i active =>
      match s.requests i with
      | .resuming previous =>
          if active then
            some ({ s with executions := s.executions.create (newExecution previous) fun _ => rfl
              }.move i (.running previous s.executions.nextPk))
          else some (s.move i (.answered .error))
      | _ => none
  | .finish i status result =>
      match s.requests i with
      | .running previous execution =>
          some ({ s with executions := saveExecution s.executions execution status result }.move i
            (.resumed previous execution status))
      | _ => none
  | .supersede i =>
      match s.requests i with
      | .resumed previous execution status =>
          let q := superseded previous execution status
          some ({ s with executions := saveExecution s.executions q.pk q.status q.result }.move i
            (.answered (.approved (some execution))))
      | _ => none
  | .reject => some { s with approval := { s.approval with status := .rejected } }
  | .pause execution =>
      match s.executions.get? execution with
      | some row =>
          if row.status = .running then
            some { s with executions := s.executions.set { row with status := .paused } }
          else none
      | none => none

/-- Requests about the approval, in any order. -/
def desk (h : Host) : Machine State Action := ⟨step h⟩

/-! ## What is to be shown -/

/-- The step records the approval. -/
def approves : State → Action → ℕ
  | _, .approve _ => 1
  | _, _ => 0

/-- The step starts an execution. -/
def starts : State → Action → ℕ
  | _, .start _ true => 1
  | _, _ => 0

/-- No execution is started after a rejection has been recorded. -/
def NoneAfterReject (h : Host) (s : State) (as : List Action) : Prop :=
  ∀ before later t, as = before ++ .reject :: later →
    (desk h).Run s (before ++ [.reject]) t → (desk h).total starts t later = 0

/-- What is written into the row finds it pending. -/
def FindsPending (s : State) : Action → Prop
  | .approve _ | .reject => s.approval.status = .pending
  | _ => True

instance (s : State) (a : Action) : Decidable (FindsPending s a) := by
  cases a <;> unfold FindsPending <;> infer_instance

section Steps

variable {h : Host} {s s' t : State} {a : Action} {as : List Action}

/-! ## The one that has approved -/

/-- The request has approved. -/
def Request.active : Request → Bool
  | .approved _ | .resuming _ | .running _ _ | .resumed _ _ _ => true
  | _ => false

/-- The request may still start an execution. -/
def Request.ahead : Request → Bool
  | .approved _ | .resuming _ => true
  | _ => false

/-- The requests around the approval. Its token is that the row is not pending any more. -/
def approvers : Family State ℕ Request where
  procs := State.requests
  active := Request.active
  ahead := Request.ahead
  held s := s.approval.status ≠ .pending
  active_of_ahead r hr := by
    cases r <;> first | rfl | cases hr

/-- The lookup of the paused execution answers, or leaves the request to start the workflow. -/
theorem find_once {i : ℕ} (hs : step h s (.find i) = some s') :
    OnceStep approvers s s' (approves s (.find i)) (starts s (.find i)) := by
  simp only [step] at hs
  split at hs
  · next approval hi =>
    have hahead : approvers.ahead (approvers.procs s i) = true := by
      show (s.requests i).ahead = true
      rw [hi]
      rfl
    have hactive : approvers.active (approvers.procs s i) = true :=
      approvers.active_of_ahead _ hahead
    split at hs
    · cases hs
      exact .stops i _ rfl rfl id rfl rfl
    · split at hs
      · cases hs
        exact .stops i _ rfl rfl id rfl rfl
      · split at hs
        · cases hs
          exact .stops i _ rfl rfl id rfl rfl
        · cases hs
          exact .goes i _ rfl hactive id (fun _ => hahead) rfl rfl
  · cases hs

theorem step_once (hg : FindsPending s a) (hs : step h s a = some s') :
    OnceStep approvers s s' (approves s a) (starts s a) := by
  cases a with
  | read i =>
    simp only [step] at hs
    split at hs
    · split at hs
      · cases hs
        exact .stops i _ rfl rfl id rfl rfl
      · cases hs
        exact .stops i _ rfl rfl id rfl rfl
    · cases hs
  | approve i =>
    simp only [step] at hs
    split at hs
    · cases hs
      refine .takes i _ rfl ?_ ?_ le_rfl rfl
      · exact fun hheld => hheld hg
      · show Approval.approved ≠ .pending
        decide
    · cases hs
  | find i => exact find_once hs
  | start i active =>
    simp only [step] at hs
    split at hs
    · next previous hi =>
      cases active with
      | true =>
        cases hs
        refine .fires i _ rfl ?_ id rfl rfl le_rfl
        show (s.requests i).ahead = true
        rw [hi]
        rfl
      | false =>
        cases hs
        exact .stops i _ rfl rfl id rfl rfl
    · cases hs
  | finish i status result =>
    simp only [step] at hs
    split at hs
    · next previous execution hi =>
      cases hs
      refine .goes i _ rfl ?_ id (fun hy => ?_) rfl rfl
      · show (s.requests i).active = true
        rw [hi]
        rfl
      · cases hy
    · cases hs
  | supersede i =>
    simp only [step] at hs
    split at hs
    · cases hs
      exact .stops i _ rfl rfl id rfl rfl
    · cases hs
  | reject =>
    cases hs
    refine .rests rfl ?_ rfl rfl
    intro _
    show Approval.rejected ≠ .pending
    decide
  | pause execution =>
    simp only [step] at hs
    split at hs
    · split at hs
      · cases hs
        exact .rests rfl id rfl rfl
      · cases hs
    · cases hs

/-- At most one request has approved, and only if the row says so. -/
def OneApprover (s : State) : Prop :=
  Owned approvers.active (approvers.held s) (approvers.procs s)

theorem oneApprover_start {approval : ApprovalRequest} {executions : Table WorkflowExecution} :
    OneApprover (State.start approval executions) := Owned.of_idle fun _ => rfl

theorem step_oneApprover (hg : FindsPending s a) (ho : OneApprover s)
    (hs : step h s a = some s') : OneApprover s' := (step_once hg hs).owned ho

/-- A rejection that finds the approval pending finds nobody that has approved it. -/
theorem over_of_reject (ho : OneApprover s) (hg : FindsPending s .reject)
    (hs : (desk h).next s .reject = some s') : Over approvers s' := by
  cases hs
  constructor
  · show Approval.rejected ≠ .pending
    decide
  · intro i
    have hidle : approvers.active (s.requests i) = false := ho.idle (fun hheld => hheld hg) i
    show approvers.ahead (s.requests i) = false
    cases hi : approvers.ahead (s.requests i) with
    | false => rfl
    | true =>
      rw [approvers.active_of_ahead _ hi] at hidle
      cases hidle

/-! ## Runs -/

theorem run_oneApprover (hrun : (desk h).RunIf FindsPending s as t) (ho : OneApprover s) :
    OneApprover t := by
  refine hrun.invariant ?_ ho
  intro s a s' hg ho hs
  exact step_oneApprover hg ho hs

/-- When the event is over, nothing is started any more. -/
theorem total_starts_of_over (hrun : (desk h).RunIf FindsPending s as t)
    (hover : Over approvers s) : (desk h).total starts s as = 0 := by
  refine Machine.RunIf.total_eq_zero ?_ ?_ hrun hover
  · intro s a s' hg hs hover
    exact ((step_once hg hs).keeps_over hover).1
  · intro s a s' hg hs hover
    exact ((step_once hg hs).keeps_over hover).2

theorem noneAfterReject (hrun : (desk h).RunIf FindsPending s as t) (ho : OneApprover s) :
    NoneAfterReject h s as := by
  rintro before later u rfl hu
  have hsplit : (desk h).RunIf FindsPending s ((before ++ [.reject]) ++ later) t := by
    simpa using hrun
  rcases hsplit.split with ⟨u', hu', hlater⟩
  obtain rfl : u' = u := Option.some.inj (hu'.exec_eq.symm.trans hu.exec_eq)
  rcases hu'.split with ⟨v, hv, hreject⟩
  cases hreject with
  | cons hg hs hnil =>
    cases hnil
    have hone : OneApprover v := run_oneApprover hv ho
    exact total_starts_of_over hlater (over_of_reject hone hg hs)

/-- The approval starts at most one execution, and none after a rejection. -/
theorem approved_once {approval : ApprovalRequest} {executions : Table WorkflowExecution}
    (hrun : (desk h).RunIf FindsPending (State.start approval executions) as t) :
    (desk h).total starts (State.start approval executions) as ≤ 1 ∧
      NoneAfterReject h (State.start approval executions) as := by
  have honce : ∀ s a s', FindsPending s a → (desk h).next s a = some s' →
      OnceStep approvers s s' (approves s a) (starts s a) := by
    intro s a s' hg hs
    exact step_once hg hs
  exact ⟨fires_once honce oneApprover_start hrun, noneAfterReject hrun oneApprover_start⟩

end Steps

/-! ## Concrete runs -/

/-- The approval of execution 1, which is paused. -/
def pendingApproval : ApprovalRequest :=
  ⟨3, 7, .pending, .dict [("execution_id", .int 1)]⟩

def pausedExecution : Table WorkflowExecution where
  rows := [⟨1, 7, .paused, .dict [], .dict []⟩]
  nodup := by decide

/-- Request `i` goes on after its read. -/
def resume (i : ℕ) : List Action :=
  [.approve i, .find i, .start i true, .finish i .completed (.dict []), .supersede i]

/-- The second request comes when the first one has approved. -/
theorem approved_once_again :
    (desk .ascii).total starts (State.start pendingApproval pausedExecution)
        ([.read 0] ++ resume 0 ++ [.read 1]) ≤ 1 ∧
      NoneAfterReject .ascii (State.start pendingApproval pausedExecution)
        ([.read 0] ++ resume 0 ++ [.read 1]) := by
  have hexec : ((desk .ascii).execIf FindsPending (State.start pendingApproval pausedExecution)
      ([.read 0] ++ resume 0 ++ [.read 1])).isSome = true := by decide +kernel
  obtain ⟨t, hrun⟩ := Machine.exists_runIf hexec
  exact approved_once hrun

/-- Both requests have read the approval as pending, and both run the workflow. A request that has
read it also runs the workflow after a rejection. -/
theorem started_twice :
    ((desk .ascii).exec (State.start pendingApproval pausedExecution)
        [.read 0, .read 1, .approve 0, .find 0, .approve 1, .find 1, .start 0 true,
          .start 1 true]).isSome = true ∧
      (desk .ascii).total starts (State.start pendingApproval pausedExecution)
        [.read 0, .read 1, .approve 0, .find 0, .approve 1, .find 1, .start 0 true,
          .start 1 true] = 2 ∧
      ((desk .ascii).exec (State.start pendingApproval pausedExecution)
        [.read 0, .reject]).map (fun t =>
          (((desk .ascii).exec t [.approve 0, .find 0, .start 0 true]).isSome,
            (desk .ascii).total starts t [.approve 0, .find 0, .start 0 true])) =
        some (true, 1) := by
  decide +kernel

end Approvals

end AlgoBot.Automation
