import Runbook.Listing
import Runbook.Visit.Note

/-! Nodes that ask the user: dialogs, and picking a note or a text.

A run that was started from a note or a selection finds them in variables of set names, and
then nobody is asked. -/
namespace Runbook.Visit

variable {σ : Type}

/-! ### Dialogs -/

/-- What a dialog is filled with at first, from the data text that describes it. -/
def dialogDefaults (s : String) : Except Fault (List (String × Value)) :=
  if s.isEmpty then .ok []
  else match Json.parse s with
    | .ok v =>
      let input := match v.field? "input" with
        | some v => [("input", v)]
        | none => []
      let selected := match v.field? "selected" with
        | some (.list items) => [("selected", .list items)]
        | _ => []
      .ok (input ++ selected)
    | .error f => if f.isBadValue then .ok [] else .error f

def dialog (c : Context σ) : Act σ Outcome := do
  let defaults ← Act.ofExcept (dialogDefaults (c.property "defaults"))
  let response ← c.ask {
    kind := .dialog
    nodeId := c.node.id
    title := c.propertyOr "title" "Dialog"
    message := c.property "message"
    options := Listing.items (c.property "options")
    payload :=
      [("multiSelect", .bool (c.flag "multiSelect")),
        ("button1", .str (c.propertyOr "button1" "OK")),
        ("button2", .opt (c.optional "button2")), ("markdown", .bool (c.flag "markdown")),
        ("inputTitle", .opt (c.optional "inputTitle")), ("multiline", .bool (c.flag "multiline")),
        ("defaults", .record defaults)] }
  match response with
  | none => Act.fail (.declined "Dialog cancelled by user")
  | some r =>
    let input := match r.input with
      | .null => []
      | v => [("input", v)]
    let v : Value := .record ([("button", r.button), ("selected", .list r.selected)] ++ input)
    return { output := v, writes := c.writes [("saveTo", v)] }

/-! ### Notes -/

/-- The path in a variable that describes a file, as a mapping or as its data text. -/
def seededPath (v : Option Value) : Except Fault (Option String) := do
  let described ← match v with
    | some (.str s) =>
      if s.isEmpty then pure none
      else match Json.parse s with
        | .ok v => pure (some v)
        | .error f => if f.isBadValue then pure none else .error f
    | v => pure v
  match described.bind (Value.field? "path") with
  | some path => return if path.truthy then some path.display else none
  | none => return none

/-- The note that the run was started with. -/
def seededNote (scope : Scope) : Except Fault (Option String) := do
  match ← seededPath (scope.get? "__hotkeyActiveFile__") with
  | some path => return some path
  | none => seededPath (scope.get? "__eventFile__")

/-- The note that the user picks. -/
def askForNote (c : Context σ) : Act σ String := do
  let response ← c.ask {
    kind := .selectNote
    nodeId := c.node.id
    title := "Select note"
    payload := [("default", .str (c.property "default"))] }
  match response with
  | some r =>
    if r.value.truthy then return r.value.display
    else Act.fail (.declined "File selection cancelled by user")
  | none => Act.fail (.declined "File selection cancelled by user")

def fileNameValue (n : FileName) : Value :=
  .record [("path", .str n.path), ("basename", .str n.basename), ("name", .str n.name),
    ("extension", .str n.extension)]

def pickNote (c : Context σ) : Act σ Outcome := do
  if (c.trimmed "saveTo").isEmpty then c.fail "prompt-file node missing 'saveTo' property"
  let seeded ← if c.flag "forcePrompt" then pure none else Act.ofExcept (seededNote c.scope)
  let picked ← match seeded with
    | some path => pure path
    | none => askForNote c
  let vault ← c.vault
  let path := Notes.path picked
  let content ← existing c vault "File" path
  return {
    output := .record [("path", .str path)]
    writes := c.writes
      [("saveTo", .str content), ("saveFileTo", fileNameValue (FileName.ofPath path))] }

/-! ### Texts -/

/-- The whole number that a value counts as in a position. -/
def wholeNumber : Value → Except Fault Int
  | .int n => .ok n
  | .bool b => .ok (if b then 1 else 0)
  | .float x =>
    match x.truncate?, x with
    | some n, _ => .ok n
    | none, .nan => .error (.badValue "cannot convert float NaN to integer")
    | none, _ => .error (.overflow "cannot convert float infinity to integer")
  | .str s => Number.whole s.toList
  | _ => .error .wrongType

/-- A part of a position, zero where it is missing. -/
def coordinate (name : String) : Value → Except Fault Value
  | .map entries => .ok ((Entries.get? (.str name) entries).getD (.int 0))
  | _ => .error .noSuchField

/-- The length of a text of lines, each with its end. -/
def lengthOf : List (List Char) → Nat
  | [] => 0
  | l :: rest => l.length + 1 + lengthOf rest

/-- The offset of a position in a text of lines: each line before it counts with its end. -/
def offset (lines : List (List Char)) (position : Value) : Except Fault Int := do
  let line ← wholeNumber (← coordinate "line" position)
  let ch ← wholeNumber (← coordinate "ch" position)
  return (lengthOf (lines.take line.toNat) : Int) + ch

/-- An offset into a text of a length; a negative one counts from the end. -/
def clamped (length : Nat) (i : Int) : Nat :=
  if i < 0 then (length + i).toNat else min length i.toNat

/-- The text between two offsets. -/
def slice (content : List Char) (start stop : Int) : List Char :=
  let from' := clamped content.length start
  (content.take (clamped content.length stop)).drop from'

/-- What is saved of a selection: the text, and where it stands. -/
structure Selection where
  text : String
  info : Value

/-- The whole of a note; its lines are counted from one. -/
def wholeNote (path : Value) (content : String) : Selection :=
  { text := content
    info := .record
      [("filePath", path), ("startLine", .int 1),
        ("endLine", .int (Text.splitAt '\n' content.toList).length), ("start", .int 0),
        ("end", .int content.length)] }

/-- The part of a note between two positions; its lines are given as they were chosen. -/
def range (path : Value) (content : String) (first last : Value) : Except Fault Selection := do
  let lines := Text.splitAt '\n' content.toList
  let start ← offset lines first
  let stop ← offset lines last
  let startLine ← coordinate "line" first
  let endLine ← coordinate "line" last
  return {
    text := String.ofList (slice content.toList start stop)
    info := .record
      [("filePath", path), ("startLine", startLine), ("endLine", endLine),
        ("start", .int start), ("end", .int stop)] }

/-- A selection in a note, as the user gave it. -/
def selected (c : Context σ) (v : Value) : Act σ Outcome := do
  match v with
  | .map _ =>
    let path := (v.field? "path").getD (.str "")
    let vault ← c.vault
    let content ← match path with
      | .str p => existing c vault "File" p
      | .list _ | .map _ => Act.fail .wrongType
      | other => c.fail ("File not found: " ++ other.display)
    let s ← match v.field? "start", v.field? "end" with
      | some first, some last => Act.ofExcept (range path content first last)
      | _, _ => pure (wholeNote path content)
    return {
      output := .record [("source", .str "prompt"), ("path", path)]
      writes := c.writes [("saveTo", .str s.text), ("saveSelectionTo", s.info)] }
  | _ => Act.fail .noSuchField

def pickText (c : Context σ) : Act σ Outcome := do
  if (c.trimmed "saveTo").isEmpty then c.fail "prompt-selection node missing 'saveTo' property"
  let source := fun (word : String) => Value.record [("source", .str word)]
  let seeded := (c.scope.get? "__hotkeySelection__").getD .null
  if seeded.truthy then
    let info := (c.scope.get? "__hotkeySelectionInfo__").getD .null
    let more := if info.truthy then c.writes [("saveSelectionTo", info)] else []
    return {
      output := source "hotkey"
      writes := Entries.merge (c.writes [("saveTo", .str seeded.display)]) more }
  let editor := c.providers.selection.getD ""
  if !editor.isEmpty then
    return { output := source "editor", writes := c.writes [("saveTo", .str editor)] }
  match ← c.ask { kind := .selection, nodeId := c.node.id, title := "Select text" } with
  | none | some { value := .null, .. } => Act.fail (.declined "Selection cancelled by user")
  | some { value := .str s, .. } =>
    return { output := source "prompt", writes := c.writes [("saveTo", .str s)] }
  | some r => selected c r.value

end Runbook.Visit
