import Runbook.Literal
import Runbook.Text.Digit
import Runbook.Text.Search

/-! What a run is asked for, from the words of a command line.

A word that begins with a dash is an option. Its name may be cut short as long as only one
option begins that way, and its value stands behind an equals sign or is the next word. Of the
other words there is exactly one, the path of the workflow. Behind two dashes alone no word is
an option. -/
namespace Runbook

structure Arguments where
  workflow : String
  name : Option String := none
  /-- A name and a value each, with an equals sign between them. -/
  assignments : List String := []
  historyFolder : Option String := none
  vaultFolder : Option String := none
  keepsHistory : Bool := true
deriving DecidableEq, Repr

namespace Arguments

/-- Why nothing is run: help is asked for, or the words make no sense. -/
inductive Stop
  | help
  | misuse
deriving DecidableEq, Repr

/-! ### Words -/

inductive Flag
  | help
  | name
  | binding
  | historyFolder
  | vaultFolder
  | noHistory
deriving DecidableEq, Repr

namespace Flag

def spellings : List (String × Flag) := [("-h", help), ("--help", help), ("--name", name),
  ("--var", binding), ("--history-dir", historyFolder), ("--vault", vaultFolder),
  ("--no-history", noHistory)]

def takesValue : Flag → Bool
  | help | noHistory => false
  | _ => true

/-- The options whose long name begins like this. -/
def beginning (s : String) : List Flag :=
  (spellings.filter fun (spelling, _) => spelling.startsWith s).map (·.2)

end Flag

inductive Word
  | plain (s : String)
  /-- Two dashes alone. -/
  | separator
  | flag (f : Flag) (value : Option String)
  | unknown
deriving DecidableEq, Repr

/-- The short option for help, with what is written right behind it: the same letter again, or
anything else but a dash or an equals sign. -/
def shortHelp (behind : List Char) : Word :=
  match behind.dropWhile (· == 'h') with
  | '-' :: rest | '=' :: rest => .flag .help (some (String.ofList rest))
  | _ => .flag .help none

/-- Whether a word is a negative number. -/
def isNegativeNumber (cs : List Char) : Bool :=
  match cs with
  | '-' :: rest =>
    match Text.cutAt '.' rest with
    | (whole, some part) => whole.all Text.isDecimal && !part.isEmpty && part.all Text.isDecimal
    | (whole, none) => !whole.isEmpty && whole.all Text.isDecimal
  | _ => false

/-- A word with a dash in front that names no option. -/
def unnamed (s : String) : Word :=
  if isNegativeNumber s.toList || s.contains ' ' then .plain s else .unknown

/-- What a word in front of the separator is; a name that several options share is misuse. -/
def wordOf (s : String) : Except Stop Word :=
  let (front, value) := Text.cutAt '=' s.toList
  let value := value.map String.ofList
  match s.toList with
  | '-' :: '-' :: _ =>
    match Entries.get? (String.ofList front) Flag.spellings with
    | some f => .ok (.flag f value)
    | none =>
      match Flag.beginning (String.ofList front) with
      | [] => .ok (unnamed s)
      | [f] => .ok (.flag f value)
      | _ => .error .misuse
  | '-' :: 'h' :: behind => .ok (shortHelp behind)
  | '-' :: _ :: _ => .ok (unnamed s)
  | _ => .ok (.plain s)

def wordsOf : List String → Except Stop (List Word)
  | [] => .ok []
  | s :: rest =>
    if s == "--" then .ok (.separator :: rest.map .plain)
    else return (← wordOf s) :: (← wordsOf rest)

/-! ### Reading the words -/

/-- What was read so far. -/
structure Gathered where
  arguments : Arguments := { workflow := "" }
  hasWorkflow : Bool := false
  /-- Whether there was a word that has no place. -/
  hasSpare : Bool := false

namespace Gathered

def give (g : Gathered) (f : Flag) (v : String) : Gathered :=
  let a := g.arguments
  { g with arguments := match f with
      | .name => { a with name := some v }
      | .binding => { a with assignments := a.assignments ++ [v] }
      | .historyFolder => { a with historyFolder := some v }
      | .vaultFolder => { a with vaultFolder := some v }
      | .noHistory => { a with keepsHistory := false }
      | .help => a }

def spare (g : Gathered) : Gathered := { g with hasSpare := true }

/-- Takes a word that is no option: the first one is the workflow. -/
def take (g : Gathered) (s : String) : Gathered :=
  if g.hasWorkflow then g.spare
  else { g with hasWorkflow := true, arguments := { g.arguments with workflow := s } }

end Gathered

/-- Reads words in order. A separator has its place right before or behind the workflow. -/
def gather : Gathered → List Word → Except Stop Gathered
  | g, [] => .ok g
  | g, .plain s :: .separator :: rest =>
    gather (if g.hasWorkflow then g.spare else g.take s) rest
  | g, .plain s :: rest => gather (g.take s) rest
  | g, .separator :: rest => gather (if g.hasWorkflow then g.spare else g) rest
  | g, .unknown :: rest => gather g.spare rest
  | g, .flag f (some v) :: rest =>
    if f.takesValue then gather (g.give f v) rest else .error .misuse
  | g, .flag f none :: rest =>
    if f = .help then .error .help
    else if f.takesValue then
      match rest with
      | .plain v :: rest => gather (g.give f v) rest
      | _ => .error .misuse
    else gather (g.give f "") rest

def ofWords (words : List String) : Except Stop Arguments := do
  let g ← gather {} (← wordsOf words)
  if g.hasWorkflow && !g.hasSpare then return g.arguments else throw .misuse

/-! ### Variables -/

def notAPair (pair : String) : Fault :=
  .badValue ("Invalid --var '" ++ pair ++ "', expected key=value")

/-- The variable that a pair gives. -/
def variableOf (pair : String) : Except Fault (String × Value) :=
  match Text.cutAt '=' pair.toList with
  | (name, some v) =>
    if Text.blank name then .error (notAPair pair)
    else .ok (String.ofList (Text.trim name), Literal.coerce (String.ofList v))
  | _ => .error (notAPair pair)

/-- The variables that pairs give; of those with one name the last one counts. -/
def variablesOf (pairs : List String) : Except Fault (List (String × Value)) :=
  return Entries.ofList (← pairs.mapM variableOf)

end Arguments
end Runbook
