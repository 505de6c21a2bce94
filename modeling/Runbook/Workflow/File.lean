import Runbook.FileTree
import Runbook.Json.Writer
import Runbook.Workflow.Loading
import Runbook.Yaml.Document
import Runbook.Yaml.Outline

/-! Workflows in files.

A file holds one workflow or a list of them, as YAML or as data text; the end of its name says
which. A path in a workflow is seen from a base folder, and the end of its name may be left
out. -/
namespace Runbook.Workflow

/-- What the names of workflow files end in. -/
def suffixes : List String := [".yaml", ".yml", ".json"]

def dataSuffix : String := ".json"

/-! ### Choosing a workflow -/

def notNamed {α : Type} (name source : String) : Except Fault α :=
  .error (.load ("Workflow '" ++ name ++ "' not found in " ++ source) [])

/-- The first of some candidates. -/
def firstCandidate (candidates : Value) : Except Fault Value :=
  match candidates with
  | .list (v :: _) => .ok v
  | .list [] => .error .noSuchIndex
  | .map entries =>
    match Entries.get? (.int 0) entries with
    | some v => .ok v
    | none => .error (.noSuchKey "0")
  | v =>
    match members? v with
    | some (first :: _) => .ok first
    | _ => .error .wrongType

/-- Whether a candidate has a name. -/
def isNamed (name : String) (candidate : Value) : Bool :=
  match candidate.field? "name" with
  | some (.str given) => given == name
  | _ => false

/-- The candidate with a name. -/
def namedCandidate (candidates : Value) (name source : String) : Except Fault Value :=
  match members? candidates with
  | none => .error .wrongType
  | some members =>
    match members.find? (isNamed name) with
    | some c => .ok c
    | none => notNamed name source

/-- The workflow that a file's value describes, or the one of that name. -/
def select (data : Value) (name : Option String) (source : String) : Except Fault Value :=
  match data.field? "workflows" with
  | some candidates =>
    let candidates := if candidates.truthy then candidates else .list []
    match name with
    | some name => namedCandidate candidates name source
    | none =>
      if candidates.truthy then firstCandidate candidates
      else .error (.load ("No workflows in " ++ source) [])
  | none =>
    let data := (data.field? "workflow").getD data
    match name, data.field? "name" with
    | some _, none | some _, some .null => .ok data
    | some name, some (.str given) => if given == name then .ok data else notNamed name source
    | some name, some _ => notNamed name source
    | none, _ => .ok data

/-! ### Loading -/

/-- The refusal of a file that does not read. -/
def unreadable (file detail : String) : Fault :=
  .load ("Invalid workflow file " ++ file ++ ": " ++ detail) []

/-- The value of a file's text. -/
def parseFile (file : String) (isData : Bool) (text : String) : Except Fault Value :=
  let value := if isData then Json.parse text else
    match Yaml.parse text with
    | .ok v => .ok v
    | .error (.unreadable what) => .error (.badValue what)
    | .error (.fault f) => .error f
  value.mapError fun f => if f.isBadValue then unreadable file f.message else f

/-- The workflow of a file, or the one of that name in it. -/
def ofFile (t : FileTree) (folder : Location) (file : String) (name : Option String) :
    Except Fault Workflow := do
  let path := Path.ofText file
  let start := if path.isAbsolute then [] else folder
  match (t.locate start path.names).bind fun l => return (l, ← t.find l) with
  | .error _ => throw (.load ("Workflow file not found: " ++ file) [])
  | .ok (_, item) =>
    if !suffixes.contains path.suffix then
      throw (.load ("Expected .yaml, .yml or .json file, got: " ++ path.suffix) [])
    match item with
    | .folder => FileTree.failing file (.error .isFolder)
    | .file content =>
      let text ← (FileTree.textOf content).mapError fun f => unreadable file f.message
      let data ← parseFile file (path.suffix == dataSuffix) text
      match data with
      | .null => throw (.load ("Empty workflow file: " ++ file) [])
      | data => ofValue (← select data name file) (some path.text)

/-- The paths that a path in a workflow may stand for: itself, or with one of the endings. -/
def alternatives (base : Path) (path : String) : Except Fault (List Path) :=
  let candidate := base.under (Path.ofText path)
  if candidate.name.isEmpty then
    .error (.badValue ("PosixPath(" ++ Text.quoted candidate.text ++ ") has an empty name"))
  else .ok (candidate :: suffixes.map candidate.extended)

/-- The workflow that a path stands for, as seen from a base folder. -/
def find (t : FileTree) (folder : Location) (base : Path) (path : String)
    (name : Option String) : Except Fault Workflow := do
  let isThere := fun (p : Path) =>
    suffixes.contains p.suffix &&
      match t.locate (if p.isAbsolute then [] else folder) p.names with
      | .ok l => t.isFile l
      | .error _ => false
  match (← alternatives base path).find? isThere with
  | some p => ofFile t folder p.text name
  | none => throw (.load ("Sub-workflow not found: " ++ path) [])

/-! ### Saving -/

/-- The file that a workflow is saved to; without a known ending the path is given one. -/
def fileFor (path : String) : String :=
  if suffixes.any fun suffix => path.endsWith suffix then path else path ++ ".yaml"

/-- A workflow as an outline. -/
def outline (w : Workflow) : List (String × Yaml.Outline) :=
  [("name", .text w.name), ("nodes", .sequence (w.nodes.map fun n =>
    .mapping ((fieldsOf n).map fun (k, v) => (k, .text v))))]

/-- The text of a workflow for a file, as the end of its name says. -/
def textFor (w : Workflow) (file : String) : String :=
  if file.endsWith dataSuffix then String.ofList (Json.write Json.pretty 0 w.toValue).text
  else Yaml.Outline.document w.outline

/-- Saves a workflow, and tells where. -/
def save (w : Workflow) (t : FileTree) (folder : Location) (path : String) :
    Except Fault (String × FileTree) := do
  let file := fileFor path
  let p := Path.ofText file
  let t ← FileTree.failing file (do
    let place ← t.locate (if p.isAbsolute then [] else folder) p.names
    t.write place (Text.encode (w.textFor file)))
  return (file, t)

end Runbook.Workflow
