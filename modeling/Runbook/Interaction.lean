import Runbook.Value

/-! Asking the user.

A node that needs the user sends a request and waits for the response; no response means that
the user dismissed the request. -/
namespace Runbook.Interaction

inductive Kind
  | dialog | confirm | selectFile | createFile | selectNote | selection
deriving DecidableEq, Repr

def Kind.word : Kind → String
  | dialog => "dialog"
  | confirm => "confirm"
  | selectFile => "select-file"
  | createFile => "create-file"
  | selectNote => "select-note"
  | selection => "selection"

def Kind.all : List Kind := [.dialog, .confirm, .selectFile, .createFile, .selectNote, .selection]

def Kind.ofWord? (s : String) : Option Kind := Kind.all.find? (·.word == s)

structure Request where
  kind : Kind
  nodeId : String := ""
  title : String := ""
  message : String := ""
  options : List String := []
  payload : List (String × Value) := []
deriving Repr

def Request.field (r : Request) (name : String) : Value :=
  (Entries.get? name r.payload).getD .null

/-- An answer; `value` is its main result, and a dialog fills the other fields too. -/
structure Response where
  value : Value := .null
  button : Value := .null
  selected : List Value := []
  input : Value := .null
deriving Repr, Inhabited

end Runbook.Interaction
