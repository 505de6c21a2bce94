import Runbook.Handover
import Runbook.Visit.Context

/-! Running another workflow as one node.

The nested run starts from the inputs that the node describes, and nothing else; of what it
ends with, the outputs that the node describes are bound. -/
namespace Runbook.Visit

variable {σ : Type}

/-- A failure to find a workflow as the node reports it. -/
def loadFault (c : Context σ) (path : String) (f : Fault) : Fault :=
  if f.isWorkflow || f.isOutsideSystem then
    c.fault ("Cannot load sub-workflow '" ++ path ++ "': " ++ f.message)
  else f

def nested (c : Context σ) : Act σ Outcome := do
  let path := c.trimmed "path"
  if path.isEmpty then c.fail "Workflow node missing 'path' property"
  match c.runNested with
  | none => c.fail "Sub-workflow execution not available"
  | some run =>
    let resolve ← c.require "workflows" c.providers.workflows
    let workflow ← (Act.call (resolve path (c.optional "name"))).mapFault (loadFault c path)
    let inputs ← Act.ofExcept (Handover.inputs ((c.node.property? "input").getD "") c.scope)
    let child ← run workflow ⟨inputs⟩
    let outputs ← Act.ofExcept (Handover.outputs (c.property "output"))
    let writes := child.exports outputs (c.property "prefix")
    return { output := .record writes, writes }

end Runbook.Visit
