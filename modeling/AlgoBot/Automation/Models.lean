import AlgoBot.Core.Table
import AlgoBot.Python.Value

/-!
# Rows of the automation app

The rows that the automation services, the scheduler task and the approval view
work on, with the columns they read or write.
-/

namespace AlgoBot.Automation

open AlgoBot.Core AlgoBot.Python

/-- `STATUS`. -/
inductive Status where
  | draft
  | pending
  | running
  | paused
  | completed
  | failed
  | cancelled
deriving DecidableEq, Repr

/-- The text of the column. -/
def Status.text : Status → String
  | .draft => "draft"
  | .pending => "pending"
  | .running => "running"
  | .paused => "paused"
  | .completed => "completed"
  | .failed => "failed"
  | .cancelled => "cancelled"

/-- `APPROVAL`. -/
inductive Approval where
  | pending
  | approved
  | rejected
  | expired
deriving DecidableEq, Repr

/-- A `ScheduledTask`. Times are seconds. -/
structure ScheduledTask where
  pk : ℕ
  next_execution : Option ℤ
  status : Status
  metadata : Value

instance : HasPk ScheduledTask := ⟨ScheduledTask.pk⟩

/-- A `WorkflowExecution`. -/
structure WorkflowExecution where
  pk : ℕ
  workflow_id : ℕ
  status : Status
  trigger_payload : Value
  result : Value

instance : HasPk WorkflowExecution := ⟨WorkflowExecution.pk⟩

/-- An `ApprovalRequest`. -/
structure ApprovalRequest where
  pk : ℕ
  workflow_id : ℕ
  status : Approval
  metadata : Value

/-- How `WorkflowExecutionService.run` ends: with an execution, or with an exception. -/
inductive RunResult where
  | returns (pk : ℕ) (status : Status) (result : Value)
  | raises (detail : String)

end AlgoBot.Automation
