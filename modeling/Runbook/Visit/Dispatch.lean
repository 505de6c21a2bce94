import Runbook.Kind
import Runbook.Visit.Ask
import Runbook.Visit.Control
import Runbook.Visit.File
import Runbook.Visit.Host
import Runbook.Visit.Nested
import Runbook.Visit.NoteList
import Runbook.Visit.Prompt
import Runbook.Visit.Request
import Runbook.Visit.Tool

/-! Visiting a node: its properties are filled, and its kind decides what is done. -/
namespace Runbook

variable {σ : Type}

/-- What each kind does. -/
def Kind.handle : Kind → Context σ → Act σ Outcome
  | .literal => Visit.literal
  | .compute => Visit.compute
  | .branch => Visit.branch
  | .loop => Visit.loop
  | .sleep => Visit.sleep
  | .prompt => Visit.prompt
  | .request => Visit.request
  | .readData => Visit.readData
  | .callTool => Visit.callTool
  | .writeNote => Visit.writeNote
  | .readNote => Visit.readNote
  | .searchNotes => Visit.searchNotes
  | .listNotes => Visit.listNotes
  | .listFolders => Visit.listFolders
  | .openNote => Visit.openNote
  | .pickFile => Visit.pickFile
  | .saveFile => Visit.saveFile
  | .dialog => Visit.dialog
  | .pickNote => Visit.pickNote
  | .pickText => Visit.pickText
  | .nested => Visit.nested
  | .syncIndex => Visit.syncIndex
  | .hostCommand => Visit.hostCommand

namespace Visit

/-- The properties that are filled where they are used, and not before. -/
def isRaw (name : String) : Bool := name == "condition"

def fillProperties (scope : Scope) :
    List (String × String) → Except Fault (List (String × String))
  | [] => .ok []
  | (name, s) :: rest => do
    let s ← if isRaw name then pure s else Template.resolve s scope
    return (name, s) :: (← fillProperties scope rest)

/-- What a visit leaves: its outcome, and the properties that the node saw. -/
structure Visited where
  outcome : Outcome
  properties : List (String × String)

/-- Visits a node: once with its kind known, its properties are filled and it is handled. -/
def visit (registry : Registry Kind) (providers : Providers σ)
    (runNested : Option (Workflow → Scope → Act σ Scope)) (node : Node) (scope : Scope)
    (firstVisit : Bool) : Act σ Visited :=
  match registry.handler? node.kind with
  | none => Act.fail (.node ("Unknown node type '" ++ node.kind ++ "'") (some node.id))
  | some kind => do
    let properties ← Act.ofExcept (fillProperties scope node.properties)
    let outcome ← kind.handle { node, properties, scope, providers, firstVisit, runNested }
    return ⟨outcome, properties⟩

end Visit
end Runbook
