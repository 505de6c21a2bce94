import Runbook.FileData
import Runbook.Notes
import Runbook.Visit.Context

/-! Writing and reading single notes. -/
namespace Runbook.Visit

variable {σ : Type}

/-- How a note is written where one may be there already. -/
inductive WriteMode
  | overwrite | append | create
deriving DecidableEq, Repr

def WriteMode.ofWord? : String → Option WriteMode
  | "overwrite" => some overwrite
  | "append" => some append
  | "create" => some create
  | _ => none

/-- Asks the user to agree to a write, unless the node says that nobody needs to. -/
def confirmWrite (c : Context σ) (path content mode : String) : Act σ Unit := do
  if c.flagOr "confirm" true then
    let response ← c.ask
      { kind := .confirm
        nodeId := c.node.id
        title := "Write " ++ path
        message := content
        payload := [("path", .str path), ("content", .str content), ("mode", .str mode)] }
    match response with
    | some r => if !r.value.truthy then Act.fail (.declined "Note write cancelled by user")
    | none => Act.fail (.declined "Note write cancelled by user")

/-- Writes a note in a mode, and says whether anything was written. -/
def putNote (vault : VaultProvider σ) (mode : WriteMode) (path content : String) : Act σ Bool := do
  let there ← Act.call (vault.has path)
  match mode, there with
  | .create, true => return false
  | .append, true =>
    let current ← Act.call (vault.readText path)
    Act.call (vault.writeText path (current ++ "\n" ++ content))
    return true
  | _, _ =>
    Act.call (vault.writeText path content)
    return true

def writeNote (c : Context σ) : Act σ Outcome := do
  let given := c.trimmed "path"
  if given.isEmpty then c.fail "Note node missing 'path' property"
  let word := c.propertyOr "mode" "overwrite"
  match WriteMode.ofWord? word with
  | none => c.fail ("Unknown note mode '" ++ word ++ "'")
  | some mode =>
    let path := Notes.path given
    let content := c.property "content"
    confirmWrite c path content word
    let written ← putNote (← c.vault) mode path content
    return {
      output := .record [("path", .str path), ("mode", .str word), ("written", .bool written)] }

/-- The text of a file that must be there; `what` says what it is called where it is not. -/
def existing (c : Context σ) (vault : VaultProvider σ) (what path : String) : Act σ String := do
  if !(← Act.call (vault.has path)) then c.fail (what ++ " not found: " ++ path)
  Act.call (vault.readText path)

def readNote (c : Context σ) : Act σ Outcome := do
  let given := c.trimmed "path"
  if given.isEmpty then c.fail "note-read node missing 'path' property"
  if (c.trimmed "saveTo").isEmpty then c.fail "note-read node missing 'saveTo' property"
  let vault ← c.vault
  let path := Notes.path given
  let content ← existing c vault "Note" path
  return {
    output := .record [("path", .str path), ("length", .int content.length)]
    writes := c.writes [("saveTo", .str content)] }

end Runbook.Visit
