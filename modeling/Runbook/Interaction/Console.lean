import Runbook.Interaction
import Runbook.Number.Whole
import Runbook.Text.Case
import Runbook.Text.Search

/-! Asking the user on a terminal.

A request is shown and questions are asked one at a time; each takes the next line that is
typed. Where a question meets the end of the input, the request is dismissed. -/
namespace Runbook.Interaction

/-- What is shown on a terminal: a line, or a question, which does not end its line. -/
inductive Shown
  | line (s : String)
  | question (s : String)
deriving DecidableEq, Repr

structure Terminal where
  /-- The lines that will be typed. -/
  typed : List String := []
  /-- What was shown, the last first. -/
  shown : List Shown := []
deriving Repr

/-- A conversation on a terminal, which may fail. -/
abbrev Dialogue := ExceptT Fault (StateM Terminal)

namespace Dialogue

def say (s : String) : Dialogue Unit :=
  modify fun t => { t with shown := .line s :: t.shown }

/-- Asks a question; there is no answer at the end of the input. -/
def ask (s : String) : Dialogue (Option String) := modifyGet fun t =>
  (t.typed.head?, { typed := t.typed.tail, shown := .question s :: t.shown })

def ofExcept {α : Type} : Except Fault α → Dialogue α
  | .ok a => pure a
  | .error f => throw f

/-- A value that counts, or another one. -/
def orElse (v other : Value) : Value := if v.truthy then v else other

/-! ### Confirmations -/

def isYes (s : String) : Bool :=
  let word := Text.lowered (Text.trimmed s)
  word == "y" || word == "yes"

def confirm : Dialogue (Option Response) := do
  match ← ask "Proceed? [y/N] " with
  | some answer => return if isYes answer then some { value := .bool true } else none
  | none => return none

/-! ### Dialogs -/

/-- The option that a part of an answer counts off, if it is a number in range. -/
def counted (options : List String) (part : List Char) : Except Fault (Option String) := do
  let part := Text.trim part
  if part.isEmpty || !part.all Text.isDigit then return none
  let n ← Number.whole part
  return if 1 ≤ n then options[n.toNat - 1]? else none

/-- The options that an answer counts off, in its order. -/
def selection (options : List String) (answer : String) : Except Fault (List String) := do
  return (← (Text.splitAt ',' answer.toList).mapM (counted options)).filterMap id

/-- The value of a dialog's default; the defaults must be a mapping. -/
def default (request : Request) (name : String) : Except Fault Value :=
  match orElse (request.field "defaults") (.map []) with
  | .map entries => .ok ((Entries.get? (.str name) entries).getD .null)
  | _ => .error .noSuchField

/-- The members of a value that is a list of something. -/
def membersOf : Value → Except Fault (List Value)
  | .list items => .ok items
  | .map entries => .ok (entries.map fun (k, _) => .scalar k)
  | .str s => .ok (s.toList.map fun c => .str (String.singleton c))
  | .bytes b => .ok (b.map fun byte => .int byte.toNat)
  | v => if v.truthy then .error .wrongType else .ok []

/-- What the options of a dialog come to: those that were counted off, or else the default
ones; only the first one counts unless the dialog allows several. -/
def selected (request : Request) (answer : String) : Except Fault (List Value) := do
  let chosen := (← selection request.options answer).map Value.str
  let chosen ← if chosen.isEmpty then membersOf (← default request "selected") else pure chosen
  return if (request.field "multiSelect").truthy then chosen else chosen.take 1

def sayOptions (position : Nat) : List String → Dialogue Unit
  | [] => return ()
  | o :: rest => do
    say ("  " ++ toString position ++ ". " ++ o)
    sayOptions (position + 1) rest

/-- The options of a dialog, if it has any. -/
def askOptions (request : Request) : Dialogue (Option (List Value)) := do
  if request.options.isEmpty then return some []
  sayOptions 1 request.options
  match ← ask "Select (comma-separated numbers): " with
  | some answer => return some (← ofExcept (selected request answer))
  | none => return none

/-- The input of a dialog, if it asks for one. -/
def askInput (request : Request) : Dialogue (Option Value) := do
  let title := request.field "inputTitle"
  if !title.truthy then return some .null
  match ← ask (title.display ++ ": ") with
  | some "" => return some (orElse (← ofExcept (default request "input")) (.str ""))
  | some text => return some (.str text)
  | none => return none

/-- The button that ends a dialog; one of two is asked for. -/
def askButton (request : Request) : Dialogue (Option Value) := do
  let first := orElse (request.field "button1") (.str "OK")
  let second := request.field "button2"
  if !second.truthy then return some first
  match ← ask ("[1] " ++ first.display ++ "  [2] " ++ second.display ++ ": ") with
  | some answer => return some (if Text.trimmed answer == "2" then second else first)
  | none => return none

def dialog (request : Request) : Dialogue (Option Response) := do
  let some selected ← askOptions request | return none
  let some input ← askInput request | return none
  let some button ← askButton request | return none
  return some { button, selected, input }

/-! ### Everything else -/

/-- A value that is typed or stays the default one. -/
def pick (request : Request) : Dialogue (Option Response) := do
  let default := orElse (request.field "default") (.str "")
  let hint := if default.truthy then " [" ++ default.display ++ "]" else ""
  match ← ask (request.kind.word ++ hint ++ ": ") with
  | some answer =>
    let value := orElse (.str (Text.trimmed answer)) default
    return if value.truthy then some { value } else none
  | none => return none

/-- Shows a request and asks for what it needs. -/
def answer (request : Request) : Dialogue (Option Response) := do
  if !request.title.isEmpty then say ("\n== " ++ request.title ++ " ==")
  if !request.message.isEmpty then say request.message
  match request.kind with
  | .confirm => confirm
  | .dialog => dialog request
  | _ => pick request

end Dialogue

/-! ### What is seen -/

def Shown.text : Shown → String
  | .line s => s ++ "\n"
  | .question s => s

/-- What is shown up to the question behind so many others, if there is one. -/
def upToQuestion : Nat → List Shown → Option (List Shown)
  | _, [] => none
  | 0, .question s :: _ => some [.question s]
  | n + 1, .question s :: rest => (upToQuestion n rest).map (.question s :: ·)
  | n, .line s :: rest => (upToQuestion n rest).map (.line s :: ·)

namespace Terminal

/-- What a terminal shows, as one text. -/
def text (t : Terminal) : String := String.join (t.shown.reverse.map Shown.text)

/-- What a terminal shows where a question still waits after so many answers, if one does. -/
def waiting? (t : Terminal) (answers : Nat) : Option String :=
  (upToQuestion answers t.shown.reverse).map fun shown => String.join (shown.map Shown.text)

end Terminal
end Runbook.Interaction
