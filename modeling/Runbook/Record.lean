import Runbook.Value

/-! What a run leaves behind: its steps and the record that holds them.

A step is one visit to a node; a record is the whole of one run, from the outside of all
nested runs. -/
namespace Runbook

inductive StepStatus
  | pending | success | error | skipped
deriving DecidableEq, Repr

namespace StepStatus

def word : StepStatus → String
  | pending => "pending"
  | success => "success"
  | error => "error"
  | skipped => "skipped"

def all : List StepStatus := [pending, success, error, skipped]

def ofWord? (s : String) : Option StepStatus := all.find? (·.word == s)

end StepStatus

inductive RunStatus
  | running | completed | error | cancelled
deriving DecidableEq, Repr

namespace RunStatus

def word : RunStatus → String
  | running => "running"
  | completed => "completed"
  | error => "error"
  | cancelled => "cancelled"

def all : List RunStatus := [running, completed, error, cancelled]

def ofWord? (s : String) : Option RunStatus := all.find? (·.word == s)

end RunStatus

structure Step where
  nodeId : String
  kind : String
  timestamp : String
  input : List (String × Value) := []
  output : Value := .null
  status : StepStatus := .pending
  error : Option String := none
deriving Repr

structure Record where
  id : String
  workflowName : String := ""
  workflowPath : Option String := none
  startTime : String
  endTime : Option String := none
  status : RunStatus := .running
  steps : List Step := []
  errorNodeId : Option String := none
  bindings : List (String × Value) := []
deriving Repr

/-- The last step that failed at the node where the run failed. -/
def Record.errorStep? (r : Record) : Option Step :=
  r.steps.reverse.find? fun s => s.status == .error && some s.nodeId == r.errorNodeId

end Runbook
