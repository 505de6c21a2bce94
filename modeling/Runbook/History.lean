import Runbook.FileTree
import Runbook.Glob
import Runbook.History.Document
import Runbook.Redaction

/-! The history: a folder with one file for each finished run.

A file is named for the time when its run started and the run's id, and is found again by the
id. Long binary payloads are not kept. The text of a record is written as far as it goes, so
a value that has no data text leaves its file unfinished. -/
namespace Runbook

structure History where
  folder : Location
  tree : FileTree := {}
deriving Repr

namespace History

/-! ### Names -/

/-- A start time as a part of a file name. -/
def stamp (startTime : String) : String :=
  String.ofList (startTime.toList.map fun c =>
    if c == ':' then '-' else if c == '+' then '_' else c)

def fileName (r : Record) : String := stamp r.startTime ++ "_" ++ r.id ++ ".json"

variable (h : History)

/-- The place of a name in the folder. -/
def placeOf (name : String) : Location :=
  let p := Path.ofText name
  FileTree.lead (if p.isAbsolute then [] else h.folder) p.names

/-- The names of what is in the folder and has the form of a pattern. -/
def names (pattern : String) : List String :=
  (h.tree.below h.folder).filterMap fun
    | ([name], _) => if Glob.isMatch pattern name then some name else none
    | _ => none

/-- A pattern may not have two stars in a row. -/
def starsMessage : String := "Invalid pattern: '**' can only be an entire path component"

/-- The name of the file of a run, the first in order if there are several. -/
def find (id : String) : Except Fault (Option String) :=
  if !h.tree.isFolder h.folder then .ok none
  else
    let parts := Path.namesOf ("*_" ++ id ++ ".json")
    if parts.any fun p => p != "**" && Text.contains ['*', '*'] p.toList then
      .error (.badValue starsMessage)
    else match parts with
      | [pattern] => .ok ((h.names pattern).mergeSort fun a b => decide (a ≤ b)).head?
      | _ => .ok none

/-! ### Saving -/

/-- The data text of a value, as far as it goes. -/
def written (v : Value) : Json.Written := Json.write Json.pretty 0 v

/-- Keeps a record and tells the name of its file. Even where that fails the folder may have
changed; a record that cannot be redacted is refused before its file is touched. -/
def save (r : Record) : Except Fault String × History :=
  match h.tree.makeFolders h.folder with
  | .error f => (.error (.file f ""), h)
  | .ok tree =>
    let h := { h with tree }
    match h.find r.id with
    | .error f => (.error f, h)
    | .ok found =>
      match Redaction.kept (recordValue r) with
      | .error f => (.error f, h)
      | .ok v =>
        let name := found.getD (fileName r)
        let w := written v
        match tree.write (h.placeOf name) (Text.encode (String.ofList w.text)) with
        | .error f => (.error (.file f name), h)
        | .ok tree =>
          let result := match w.refused with
            | none => .ok (Path.ofText name).name
            | some f => .error f
          (result, { h with tree })

/-! ### Loading -/

/-- The record in a file. -/
def readRecord (name : String) : Except Fault Record := do
  let content ← FileTree.failing name (h.tree.read (h.placeOf name))
  let v ← Json.parse (← FileTree.textOf content)
  match recordOfValue? v with
  | some r => return r
  | none => throw .badRecord

/-- The record of a run, if it is kept. -/
def load (id : String) : Except Fault (Option Record) := do
  match ← h.find id with
  | some name => return some (← h.readRecord name)
  | none => return none

def isRecord : String := "*.json"

/-- Every record, or those of one workflow file, the newest first. -/
def list (path : Option String) : Except Fault (List Record) := do
  let records ← (h.names isRecord).mapM h.readRecord
  let records := match path with
    | some path => records.filter fun (r : Record) => r.workflowPath == some path
    | none => records
  return records.mergeSort fun (a b : Record) => decide (b.startTime ≤ a.startTime)

/-! ### Removing -/

/-- Removes the record of a run; the result says whether there was one. -/
def delete (id : String) : Except Fault (Bool × History) := do
  match ← h.find id with
  | some name =>
    let tree ← FileTree.failing name (h.tree.remove (h.placeOf name))
    return (true, { h with tree })
  | none => return (false, h)

/-- Removes every record; the result says how many there were. -/
def clear : Except Fault (Nat × History) := do
  let names := h.names isRecord
  let tree ← names.foldlM (fun t name =>
    FileTree.failing name (t.remove (h.placeOf name))) h.tree
  return (names.length, { h with tree })

end History
end Runbook
