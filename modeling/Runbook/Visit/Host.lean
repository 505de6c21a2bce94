import Runbook.Digest
import Runbook.Notes
import Runbook.Visit.Note

/-! The host of the vault: opening notes, commands, and the index of notes. -/
namespace Runbook.Visit

variable {σ : Type}

def openNote (c : Context σ) : Act σ Outcome := do
  let given := c.trimmed "path"
  if given.isEmpty then c.fail "Open node missing 'path' property"
  let host ← c.require "host" c.providers.host
  let path := Notes.path given
  Act.call (host.openFile path)
  return { output := .record [("path", .str path)] }

/-- The present in milliseconds. -/
def present (c : Context σ) : Act σ Value := do
  let now ← Act.ask c.providers.clock.now
  return .int (← Act.ofExcept (Context.milliseconds now))

/-- Runs a command of the host, on a note if one is given. -/
def hostCommand (c : Context σ) : Act σ Outcome := do
  let command := c.trimmed "command"
  if command.isEmpty then c.fail "obsidian-command node missing 'command' property"
  let given := c.trimmed "path"
  let path := if given.isEmpty then none else some (Notes.path given)
  match path, c.providers.vault with
  | some path, some vault =>
    if !(← Act.call (vault.has path)) then c.fail ("File not found: " ++ path)
  | _, _ => pure ()
  let host ← c.require "host" c.providers.host
  Act.call (host.execute command path)
  let time ← present c
  let place := match path with
    | some path => [("path", .str path)]
    | none => []
  let v : Value := .record
    ([("commandId", .str command), ("executed", .bool true), ("timestamp", time)] ++ place)
  return { output := v, writes := c.writes [("saveTo", v)] }

/-- What was put into an index. -/
structure Indexed where
  checksum : String
  fileId : String

/-- Puts a note into the index. -/
def indexNote (c : Context σ) (index : IndexProvider σ) (setting path : String) :
    Act σ Indexed := do
  let content ← existing c (← c.vault) "Note" path
  let fileId ← Act.call (index.upload setting path content)
  return ⟨Digest.hexDigest (Text.encode content), fileId⟩

/-- Keeps an index in step with a note that was written, moved or deleted. The entry of a moved
note is deleted first, if there is one. -/
def syncIndex (c : Context σ) : Act σ Outcome := do
  let noted := fun (name : String) =>
    let s := c.trimmed name
    if s.isEmpty then none else some (Notes.path s)
  let path := noted "path"
  let oldPath := noted "oldPath"
  let setting := c.trimmed "ragSetting"
  if path.isNone && oldPath.isNone then
    c.fail "rag-sync node requires 'path' or 'oldPath' property"
  if setting.isEmpty then c.fail "rag-sync node missing 'ragSetting' property"
  let index ← c.require "rag" c.providers.index
  let deleted ← match oldPath with
    | some old => (Act.call (index.delete setting old)).succeeds
    | none => pure false
  let indexed ← match path with
    | some path => do pure (some (← indexNote c index setting path))
    | none => pure none
  let time ← present c
  let mode := if indexed.isNone then "delete" else if oldPath.isSome then "rename" else "sync"
  let checksum := match indexed with
    | some i => [("checksum", .str i.checksum)]
    | none => []
  let v : Value := .record
    ([("path", .opt path), ("oldPath", .opt oldPath), ("deletedOldPath", .bool deleted),
      ("fileId", .opt (indexed.map (·.fileId))), ("ragSetting", .str setting),
      ("mode", .str mode)] ++ checksum ++ [("syncedAt", time)])
  return { output := v, writes := c.writes [("saveTo", v)] }

end Runbook.Visit
