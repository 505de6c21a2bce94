import Runbook.Invocation
import Std.Time.Format

/-! The program.

What a call may look at is read beforehand, and what it changed is written afterwards; in
between, the call is a function of the files, the time and the lines typed so far. Where it
meets a question that has no answer yet, one more line is read and the call is made again. -/
namespace Runbook.Main

def usage : String :=
  "usage: runbook [-h] [--name NAME] [--var KEY=VALUE] [--history-dir DIR] [--vault DIR] " ++
    "[--no-history] workflow_path"

/-- The path of a place. -/
def pathOf (l : Location) : String := "/" ++ "/".intercalate l

/-- A tree with everything at a path. -/
partial def readInto (t : FileTree) (path : String) : IO FileTree := do
  let path ← IO.FS.realPath path
  let place := Path.namesOf path.toString
  if ← path.isDir then
    let t := (t.makeFolders place).toOption.getD t
    (← path.readDir).foldlM (fun t e => readInto t e.path.toString) t
  else if ← path.pathExists then
    return (t.place place (← IO.FS.readBinFile path).toList).toOption.getD t
  else return t

/-- Writes what has changed in a tree. -/
def writeChanges (before after : FileTree) : IO Unit := do
  for (l, item) in after.items do
    if before.item? l != some item then
      match item with
      | .folder => IO.FS.createDirAll (pathOf l)
      | .file content => IO.FS.writeBinFile (pathOf l) ⟨content.toArray⟩
  for (l, item) in before.items do
    if item != .folder && (after.item? l).isNone then IO.FS.removeFile (pathOf l)

/-- The present as it is written in records: to the microsecond. -/
def timestamp (t : Std.Time.Timestamp) : String :=
  let clock := Std.Time.PlainDateTime.ofWallTime (t.toWallTime Std.Time.TimeZone.UTC.offset)
  String.ofList (clock.toLeanDateTimeString.toList.take 26) ++ "+00:00"

/-- A fresh id for a record. -/
def freshId : IO String := do
  let bytes ← IO.getRandomBytes 16
  return String.ofList (bytes.toList.flatMap fun b => Text.hex 2 b.toNat)

/-- Puts a text on the terminal, of which the first characters are there already. -/
def display (seen : Nat) (text : String) : IO Unit := do
  let out ← IO.getStdout
  out.putStr (String.ofList (text.toList.drop seen))
  out.flush

/-- A typed line without its end. -/
def withoutEnd (line : String) : String :=
  if line.endsWith "\n" then String.ofList line.toList.dropLast else line

/-- Makes a call, with more typed lines as it asks for them; the first characters of what it
shows are on the terminal already. -/
partial def converse (call : Workstation → Invocation.Exit × Workstation) (w : Workstation)
    (seen : Nat) : IO (Invocation.Exit × Workstation) := do
  let (e, after) := call w
  let typed := w.terminal.typed
  match after.terminal.waiting? typed.length with
  | none => do
    display seen after.terminal.text
    return (e, after)
  | some text => do
    display seen text
    let line ← (← IO.getStdin).getLine
    if line.isEmpty then
      display text.length after.terminal.text
      return (e, after)
    else converse call { w with terminal := { typed := typed ++ [withoutEnd line] } } text.length

end Runbook.Main

open Runbook in
def main (words : List String) : IO UInt32 := do
  let env ← Settings.names.filterMapM fun name => do
    return (← IO.getEnv name).map (name, ·)
  let folder := Path.namesOf (← IO.currentDir).toString
  let places := (Invocation.places words env).filter (!·.isEmpty)
  let tree ← ("." :: places).foldlM (fun t path =>
    try Main.readInto t path catch _ => pure t) {}
  let now ← Std.Time.Timestamp.now
  let w : Workstation :=
    { tree, folder, now := .ofInt now.toSecondsSinceUnixEpoch.val
      timestamp := Main.timestamp now, recordId := ← Main.freshId }
  let (e, after) ← Main.converse (invoke words env 1000000000) w 0
  IO.sleep after.waited.toNat.toUInt32
  Main.writeChanges tree after.tree
  match e with
  | .code n => return n.toUInt32
  | .stopped .help => IO.println Main.usage; return 0
  | .stopped .misuse => IO.eprintln Main.usage; return 2
  | .raised f => IO.eprintln f.message; return 1
  | .interrupted => return 130
  | .unfinished => return 1
