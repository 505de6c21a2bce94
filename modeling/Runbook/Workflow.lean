import Runbook.Entries
import Runbook.Template

/-! Workflows: named graphs of nodes.

The nodes stand in an order, and a node without a pointer of its own is followed by the next
one in that order. `fault?` says what is wrong with a graph, if anything is: a graph without
fault has nodes, no two with one id, and no pointer to a node that is not there. -/
namespace Runbook

structure Node where
  id : String
  /-- The name of the node's kind; it need not be a known one. -/
  kind : String
  properties : List (String × String) := []
  next : Option String := none
  trueNext : Option String := none
  falseNext : Option String := none
deriving DecidableEq, Repr, Inhabited

structure Workflow where
  name : String := ""
  nodes : List Node
  path : Option String := none
deriving DecidableEq, Repr, Inhabited

namespace Node

def property? (n : Node) (name : String) : Option String := Entries.get? name n.properties

/-- Where the walk goes on when the user dismisses a request of the node. -/
def onCancel (n : Node) : Option String := n.property? "onCancel"

/-- Whether a failure of the node is passed over. -/
def bestEffort (n : Node) : Bool :=
  match n.property? "bestEffort" with
  | some s => Text.lower (Text.trim s.toList) == "true".toList
  | none => false

/-- Whether the node is a kind with two ways on. -/
def isBranch (n : Node) : Bool := n.kind == "if" || n.kind == "while"

/-- The pointers of a node under the names they are written with. -/
def pointers (n : Node) : List (String × Option String) :=
  [("next", n.next), ("trueNext", n.trueNext), ("falseNext", n.falseNext),
    ("onCancel", n.onCancel)]

end Node

namespace Workflow

/-- The pointer that ends the run. -/
def endMark : String := "end"

/-- The first node of a graph, where every walk starts. -/
def entry? (w : Workflow) : Option Node := w.nodes.head?

def ids (w : Workflow) : List String := w.nodes.map (·.id)

def node? (w : Workflow) (id : String) : Option Node := w.nodes.find? (·.id == id)

def indexOf? (w : Workflow) (id : String) : Option Nat := w.nodes.findIdx? (·.id == id)

/-- The id behind the first occurrence of an id. -/
def idBehind (id : String) : List Node → Option String
  | [] => none
  | n :: rest => if n.id == id then rest.head?.map (·.id) else idBehind id rest

/-- The node after another one in order. -/
def positional (w : Workflow) (id : String) : Option String := idBehind id w.nodes

/-- A pointer that is set; the empty text does not count. -/
def pointed? : Option String → Option String
  | some "" => none
  | p => p

/-- Where the walk goes from a node, or that it ends there. A branch that holds goes to its
pointer or on in order, one that does not hold goes to its pointer or ends the walk; every
other node goes to its pointer or on in order. -/
def successor (w : Workflow) (n : Node) (branch : Option Bool) : Option String :=
  let target :=
    match n.isBranch, branch with
    | true, some true => (pointed? n.trueNext).or (w.positional n.id)
    | true, some false => n.falseNext
    | _, _ => (pointed? n.next).or (w.positional n.id)
  if target = some endMark then none else target

/-! ### Sound graphs -/

/-- What can be wrong with a graph. -/
inductive GraphFault
  | empty
  | duplicate (id : String)
  | dangling (id label target : String)
deriving DecidableEq, Repr

def GraphFault.message : GraphFault → String
  | empty => "Workflow has no nodes"
  | duplicate id => "Duplicate node id '" ++ id ++ "'"
  | dangling id label target =>
    "Node '" ++ id ++ "': " ++ label ++ " references unknown node '" ++ target ++ "'"

/-- The first id that stands twice. -/
def duplicate? : List String → List String → Option String
  | _, [] => none
  | seen, id :: rest => if seen.contains id then some id else duplicate? (id :: seen) rest

/-- Whether a pointer leads to one of the ids, to the end, or nowhere. -/
def leads (ids : List String) : Option String → Bool
  | none => true
  | some target => target == "" || target == endMark || ids.contains target

/-- The first pointer of a node that leads to no node. -/
def danglingOf? (ids : List String) (n : Node) : Option GraphFault :=
  match n.pointers.find? fun (_, target) => !leads ids target with
  | some (label, target) => some (.dangling n.id label (target.getD ""))
  | none => none

def fault? (w : Workflow) : Option GraphFault :=
  if w.nodes.isEmpty then some .empty
  else match duplicate? [] w.ids with
    | some id => some (.duplicate id)
    | none => w.nodes.findSome? (danglingOf? w.ids)

/-- The variables at the roots of the placeholders in the properties, each once, in order. -/
def variableNames (w : Workflow) : List String :=
  (w.nodes.flatMap fun n => n.properties.flatMap fun (_, v) => Template.names v).eraseDups

end Workflow
end Runbook
