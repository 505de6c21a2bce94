import Runbook.FileData
import Runbook.Listing
import Runbook.Visit.Context

/-! Files: picking one, and saving one that a variable holds. -/
namespace Runbook.Visit

variable {σ : Type}

/-- A file of the vault; the ending of its name says whether it is read as bytes. -/
def readFile (vault : VaultProvider σ) (path : String) : Act σ FileData := do
  let name := FileName.ofPath path
  let mime := Mime.ofExtension name.extension
  if Mime.isBinaryExtension name.extension then
    let bytes ← Act.call (vault.readBytes path)
    return .ofName name mime .binary (Base64.text bytes)
  else
    let text ← Act.call (vault.readText path)
    return .ofName name mime .text text

/-- A file that is yet to be written. -/
def newFile (path : String) : FileData :=
  let name := FileName.ofPath path
  let type := if Mime.isBinaryExtension name.extension then ContentType.binary else .text
  .ofName name (Mime.ofExtension name.extension) type ""

/-- The endings in a list, without the points in front of them. -/
def endings (s : String) : List String :=
  (Listing.items s).map fun e => String.ofList ((Text.lower e.toList).dropWhile (· == '.'))

/-- The path that the user picks. -/
def pickedPath (c : Context σ) (r : Interaction.Request) : Act σ String := do
  match ← c.ask r with
  | some response =>
    if response.value.truthy then return response.value.display
    else Act.fail (.declined "File selection cancelled by user")
  | none => Act.fail (.declined "File selection cancelled by user")

def pickFile (c : Context σ) : Act σ Outcome := do
  let keepsFile := !(c.trimmed "saveTo").isEmpty
  if !keepsFile && (c.trimmed "savePathTo").isEmpty then
    c.fail "file-explorer node requires 'saveTo' or 'savePathTo' property"
  let mode := c.propertyOr "mode" "select"
  let isNew := mode == "create"
  let given := c.trimmed "path"
  let path ←
    if given.isEmpty then
      pickedPath c
        { kind := if isNew then .createFile else .selectFile
          nodeId := c.node.id
          title := if isNew then "Create file" else "Select file"
          payload := [("extensions", .strs (endings (c.property "extensions"))),
            ("default", .str (c.property "default"))] }
    else pure given
  let kept ←
    if keepsFile then
      if isNew then pure [("saveTo", (newFile path).toValue)]
      else do
        let vault ← c.vault
        if !(← Act.call (vault.has path)) then c.fail ("File not found: " ++ path)
        pure [("saveTo", (← readFile vault path).toValue)]
    else pure []
  return {
    output := .record [("path", .str path), ("mode", .str mode)]
    writes := Entries.merge (c.writes [("savePathTo", .str path)]) (c.writes kept) }

/-- A path with the ending of the file where it has none. -/
def withEnding (path : String) (f : FileData) : String :=
  if !(FileName.base path).contains '.' && !f.extension.isEmpty then path ++ "." ++ f.extension
  else path

def saveFile (c : Context σ) : Act σ Outcome := do
  let source := c.trimmed "source"
  let given := c.trimmed "path"
  if source.isEmpty then c.fail "file-save node requires 'source' property"
  if given.isEmpty then c.fail "file-save node requires 'path' property"
  match c.scope.get? source with
  | none => c.fail ("Source variable '" ++ source ++ "' not found")
  | some v =>
    match ← Act.ofExcept (FileData.ofValue? v) with
    | none => c.fail ("Source variable '" ++ source ++ "' is not valid FileExplorerData")
    | some f =>
      if f.data.isEmpty then
        c.fail ("Source variable '" ++ source ++ "' is not valid FileExplorerData")
      let path := withEnding given f
      let vault ← c.vault
      match f.contentType with
      | .binary =>
        let bytes ← Act.ofExcept f.bytes
        Act.call (vault.writeBytes path bytes)
      | .text => Act.call (vault.writeText path f.data)
      return {
        output := .record [("path", .str path), ("contentType", .str f.contentType.word)]
        writes := c.writes [("savePathTo", .str path)] }

end Runbook.Visit
