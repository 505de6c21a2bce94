import Runbook.Record
import Runbook.Text.Utf8

/-! Records as values.

Each field of a record has a name in data text, `workflowName`, and one that callers may use
instead, `workflow_name`. A field that may be missing has a value for that. -/
namespace Runbook.History

/-- The two names of a field. -/
structure FieldName where
  data : String
  caller : String

/-- The field of a mapping by either name, the one of data text first. -/
def FieldName.get? (n : FieldName) (v : Value) : Option Value :=
  v.field? n.data <|> v.field? n.caller

/-! ### Fields -/

def textOf? : Value → Option String
  | .str s => some s
  | .bytes b => Text.decode? b
  | _ => none

/-- A text that has to be there. -/
def requiredText? (n : FieldName) (v : Value) : Option String := (n.get? v).bind textOf?

/-- A text that may be missing, or another one in its place. -/
def textOr? (n : FieldName) (other : String) (v : Value) : Option String :=
  match n.get? v with
  | some w => textOf? w
  | none => some other

/-- A text or nothing. -/
def optionalText? (n : FieldName) (v : Value) : Option (Option String) :=
  match n.get? v with
  | none | some .null => some none
  | some w => (textOf? w).map some

/-- The entries of a mapping with texts as keys. -/
def textEntries? : List (Scalar × Value) → Option (List (String × Value))
  | [] => some []
  | (.str k, v) :: rest => (textEntries? rest).map ((k, v) :: ·)
  | _ :: _ => none

/-- A mapping that may be missing. -/
def entriesOr? (n : FieldName) (v : Value) : Option (List (String × Value)) :=
  match n.get? v with
  | none => some []
  | some (.map entries) => textEntries? entries
  | some _ => none

/-! ### Steps -/

def FieldName.nodeId : FieldName := ⟨"nodeId", "node_id"⟩

def FieldName.nodeType : FieldName := ⟨"nodeType", "node_type"⟩

def FieldName.own (name : String) : FieldName := ⟨name, name⟩

def stepStatus? (v : Value) : Option StepStatus :=
  match v.field? "status" with
  | none => some .pending
  | some (.str s) => StepStatus.ofWord? s
  | some _ => none

def stepOfValue? (v : Value) : Option Step := do
  return {
    nodeId := ← requiredText? .nodeId v
    kind := ← requiredText? .nodeType v
    timestamp := ← requiredText? (.own "timestamp") v
    input := ← entriesOr? (.own "input") v
    output := (v.field? "output").getD .null
    status := ← stepStatus? v
    error := ← optionalText? (.own "error") v }

def stepValue (s : Step) : Value :=
  .record [(FieldName.nodeId.data, .str s.nodeId), (FieldName.nodeType.data, .str s.kind),
    ("timestamp", .str s.timestamp), ("input", .record s.input), ("output", s.output),
    ("status", .str s.status.word), ("error", .opt s.error)]

/-! ### Records -/

def FieldName.workflowName : FieldName := ⟨"workflowName", "workflow_name"⟩

def FieldName.workflowPath : FieldName := ⟨"workflowPath", "workflow_path"⟩

def FieldName.startTime : FieldName := ⟨"startTime", "start_time"⟩

def FieldName.endTime : FieldName := ⟨"endTime", "end_time"⟩

def FieldName.errorNodeId : FieldName := ⟨"errorNodeId", "error_node_id"⟩

def runStatus? (v : Value) : Option RunStatus :=
  match v.field? "status" with
  | none => some .running
  | some (.str s) => RunStatus.ofWord? s
  | some _ => none

def stepsOr? (v : Value) : Option (List Step) :=
  match v.field? "steps" with
  | none => some []
  | some (.list items) => items.mapM stepOfValue?
  | some _ => none

/-- The record that a value describes. -/
def recordOfValue? (v : Value) : Option Record := do
  return {
    id := ← requiredText? (.own "id") v
    workflowName := ← textOr? .workflowName "" v
    workflowPath := ← optionalText? .workflowPath v
    startTime := ← requiredText? .startTime v
    endTime := ← optionalText? .endTime v
    status := ← runStatus? v
    steps := ← stepsOr? v
    errorNodeId := ← optionalText? .errorNodeId v
    bindings := ← entriesOr? (.own "variables") v }

/-- The value that describes a record. -/
def recordValue (r : Record) : Value :=
  .record [("id", .str r.id), (FieldName.workflowName.data, .str r.workflowName),
    (FieldName.workflowPath.data, .opt r.workflowPath),
    (FieldName.startTime.data, .str r.startTime), (FieldName.endTime.data, .opt r.endTime),
    ("status", .str r.status.word), ("steps", .list (r.steps.map stepValue)),
    (FieldName.errorNodeId.data, .opt r.errorNodeId), ("variables", .record r.bindings)]

end Runbook.History
