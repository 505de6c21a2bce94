import Runbook.Literal
import Runbook.Workflow

/-! Loading workflows from values.

A workflow is a mapping with a list of nodes. A node's id, kind and pointers have entries of
their own; every other entry is a property, and so is everything in its `properties` entry.
Values of properties become the text they leave where they are substituted. -/
namespace Runbook

mutual

/-- Whether every whole number in a value has a numeral. -/
def Value.hasNumerals : Value → Bool
  | .int n => (numeral? n).isSome
  | .scalar _ => true
  | .list items => itemsHaveNumerals items
  | .map entries => entriesHaveNumerals entries

def itemsHaveNumerals : List Value → Bool
  | [] => true
  | v :: rest => v.hasNumerals && itemsHaveNumerals rest

def entriesHaveNumerals : List (Scalar × Value) → Bool
  | [] => true
  | (k, v) :: rest => (Value.scalar k).hasNumerals && v.hasNumerals && entriesHaveNumerals rest

end

/-- The display of a value, where all its numbers can be written. -/
def Value.written (v : Value) : Except Fault String :=
  if v.hasNumerals then .ok v.display else .error (.badValue Json.lengthMessage)

namespace Workflow

/-! ### Properties -/

/-- The refusal of a pair of the wrong length in a list of pairs. -/
def pairMessage (position length : Nat) : String :=
  "dictionary update sequence element #" ++ toString position ++ " has length " ++
    toString length ++ "; 2 is required"

/-- The members of a value that has members: items, keys, characters or bytes. -/
def members? : Value → Option (List Value)
  | .list items => some items
  | .map entries => some (entries.map fun (k, _) => .scalar k)
  | .str s => some (s.toList.map fun c => .str (String.singleton c))
  | .bytes bytes => some (bytes.map fun b => .int b.toNat)
  | _ => none

/-- The mapping that pairs build up; `position` counts them. -/
def ofPairs (position : Nat) : List Value → Except Fault (List (Scalar × Value))
  | [] => .ok []
  | v :: rest =>
    match members? v with
    | none => .error .wrongType
    | some [.scalar k, v] => do return (k, v) :: (← ofPairs (position + 1) rest)
    | some [_, _] => .error .wrongType
    | some members => .error (.badValue (pairMessage position members.length))

/-- The entries of a properties value: a mapping, or pairs that build one; nothing is none. -/
def propertyEntries (v : Value) : Except Fault (List (Scalar × Value)) :=
  if !v.truthy then .ok []
  else match v with
    | .map entries => .ok entries
    | v =>
      match members? v with
      | some members => return Entries.ofList (← ofPairs 0 members)
      | none => .error .wrongType

/-- The entries of a node that are no properties. -/
def reserved : List String := ["id", "type", "properties", "next", "trueNext", "falseNext"]

def isReserved : Scalar → Bool
  | .str s => reserved.contains s
  | _ => false

/-- Keys and values of properties as text; the later of two equal keys counts. -/
def propertyTexts : List (Scalar × Value) → Except Fault (List (String × String))
  | [] => .ok []
  | (k, v) :: rest => do
    let name ← (Value.scalar k).written
    let text ← Literal.stringify v
    return (name, text) :: (← propertyTexts rest)

/-! ### Nodes -/

/-- An entry that points to a node. -/
def pointer (raw : Value) (name : String) : Except Fault (Option String) :=
  match raw.field? name with
  | none | some .null => .ok none
  | some v => v.written.map some

/-- The id of the node at a position, where it has none of its own. -/
def defaultId (position : Nat) : String := "node-" ++ toString position

/-- The node that a value describes; positions count from one. -/
def nodeOfValue (position : Nat) (raw : Value) : Except Fault Node :=
  match raw with
  | .map entries => do
    let id ← match raw.field? "id" with
      | some v => if v.truthy then v.written else .ok (defaultId position)
      | none => .ok (defaultId position)
    let kind ← ((raw.field? "type").getD (.str "")).written
    let next ← pointer raw "next"
    let trueNext ← pointer raw "trueNext"
    let falseNext ← pointer raw "falseNext"
    let inner ← propertyEntries ((raw.field? "properties").getD .null)
    let all := Entries.merge inner (entries.filter fun (k, _) => !isReserved k)
    return ⟨id, kind, Entries.ofList (← propertyTexts all), next, trueNext, falseNext⟩
  | _ => .error (.load ("Node #" ++ toString position ++ " is not a mapping") [])

def nodesOfValues (position : Nat) : List Value → Except Fault (List Node)
  | [] => .ok []
  | raw :: rest => do
    let n ← nodeOfValue position raw
    return n :: (← nodesOfValues (position + 1) rest)

/-- The refusal of a graph with a fault. -/
def refused (f : GraphFault) : Fault :=
  let finding := "Value error, " ++ f.message
  .load ("Invalid workflow: " ++ finding) [finding]

/-- The workflow that a value describes, if its graph is sound. -/
def ofValue (v : Value) (path : Option String) : Except Fault Workflow :=
  match v with
  | .map _ =>
    match v.field? "nodes" with
    | some (.list raws) => do
      let nodes ← nodesOfValues 1 raws
      let name ← ((v.field? "name").getD (.str "")).written
      let w : Workflow := ⟨name, nodes, path⟩
      match w.fault? with
      | some f => .error (refused f)
      | none => .ok w
    | _ => .error (.load "Workflow 'nodes' must be a list" [])
  | _ => .error (.load "Workflow must be a mapping with 'nodes'" [])

/-- A node as it is written: the properties stand beside the id and the kind, and behind them
the pointers that are set; a later field takes the place of an earlier one of its name. -/
def fieldsOf (n : Node) : List (String × String) :=
  let fields := Entries.merge [("id", n.id), ("type", n.kind)] n.properties
  let pointers := [("next", n.next), ("trueNext", n.trueNext), ("falseNext", n.falseNext)]
  Entries.merge fields (pointers.filterMap fun (name, target) => (pointed? target).map (name, ·))

/-- A workflow as a value that describes it. -/
def toValue (w : Workflow) : Value :=
  .record [("name", .str w.name), ("nodes", .list (w.nodes.map fun n =>
    .record ((fieldsOf n).map fun (k, v) => (k, .str v))))]

end Workflow
end Runbook
