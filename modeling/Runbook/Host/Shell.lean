import Runbook.Session
import Runbook.Text.Blank
import Runbook.Text.Search
import Runbook.Text.Utf8
import Runbook.Text.Word

/-! The host as a shell.

Commands of the host are lines for a shell, known by their ids; a path takes its place in a
line in quotes. A command that runs too long or is interrupted is killed and waited for. -/
namespace Runbook

structure Shell where
  /-- The lines of the commands, by id. -/
  commands : List (String × String) := []
  /-- The line that opens a file; without one nothing is done. -/
  opener : String := ""
  /-- The line that takes the text for the clipboard; without one nothing is done. -/
  clipboard : String := ""
  /-- Seconds that a command may take. -/
  timeout : Scalar := .int 30
deriving Repr

namespace Shell

/-! ### Lines -/

/-- A line for the shell, and the text that is typed to it, if any. -/
structure Line where
  command : String
  input : Option String := none
deriving DecidableEq, Repr

/-- The characters that need no quotes. -/
def isPlain (c : Char) : Bool :=
  Text.isAsciiLetter c || Text.isAsciiDigit c || "_@%+=:,./-".toList.contains c

/-- A text as one word of a line. -/
def word (s : String) : String :=
  let cs := s.toList
  if cs.isEmpty then "''"
  else if cs.all isPlain then s
  else String.ofList (['\''] ++ Text.replace ['\''] "'\"'\"'".toList cs ++ ['\''])

/-- The place of the path in a line. -/
def pathMark : List Char := "\x7bpath\x7d".toList

/-- A line with a path in its place. -/
def rendered (line : String) (path : Option String) : Line :=
  { command :=
      String.ofList (Text.replace pathMark (word (path.getD "")).toList line.toList) }

variable (s : Shell)

/-- Makes a line known under an id. -/
def register (id line : String) : Shell :=
  { s with commands := Entries.insert id line s.commands }

/-- The line of a command. -/
def lineOf (id : String) (path : Option String) : Except Fault Line :=
  match Entries.get? id s.commands with
  | some line => .ok (rendered line path)
  | none => .error (.node ("Command not found: " ++ id) none)

/-- The line that opens a file, if there is one. -/
def opening (path : String) : Option Line :=
  if s.opener.isEmpty then none else some (rendered s.opener (some path))

/-- The line that takes a text to the clipboard, if there is one. -/
def copying (text : String) : Option Line :=
  if s.clipboard.isEmpty then none else some ⟨s.clipboard, some text⟩

/-! ### Running -/

/-- What becomes of a command. -/
inductive Outcome
  | exited (code : Int) (output errors : List UInt8)
  | timedOut
  /-- The run was cancelled while the command was under way. -/
  | interrupted
deriving Repr

/-- What is done to a command. -/
inductive Event
  /-- It is started, with or without its input open. -/
  | start (command : String) (hasInput : Bool)
  | input (bytes : Option (List UInt8))
  | kill
  | wait
deriving DecidableEq, Repr

structure Finished where
  output : String
  errors : String
  code : Int
deriving Repr

/-- What a command wrote, without blanks around it. -/
def textOf (bytes : List UInt8) : String :=
  String.ofList (Text.trim (Text.decodeLossy bytes))

/-- The failure of a command with a code that is not zero. -/
def failure (f : Finished) : Fault :=
  .node (Text.trimmed ("Error (Exit Code " ++ toString f.code ++ "):\n" ++ f.errors ++ "\n" ++
    f.output)) none

/-- Runs a line: what is done to it, and what it comes to. -/
def run (line : Line) (outcome : Outcome) : List Event × Except Halt Finished :=
  let begun := [.start line.command line.input.isSome, .input (line.input.map Text.encode)]
  match outcome with
  | .exited code output errors =>
    let f : Finished := ⟨textOf output, textOf errors, code⟩
    (begun, if code == 0 then .ok f else .error (.fault (failure f)))
  | .timedOut =>
    (begun ++ [.kill, .wait], .error (.fault (.node
      ("Command timed out after " ++ s.timeout.display ++ "s: " ++ line.command) none)))
  | .interrupted => (begun ++ [.kill, .wait], .error (.aborted .task))

end Shell
end Runbook
