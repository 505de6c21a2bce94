import Runbook.Fault
import Runbook.Workflow

/-! Node kinds and the registry of their names.

A kind is what a node does; the registry says which names are known. Every built-in kind is
known from the start, and further names may be registered, also without anything behind
them. -/
namespace Runbook

inductive Kind
  /-- Binds a literal. -/
  | literal
  /-- Binds the value of an expression. -/
  | compute
  | branch
  | loop
  | sleep
  /-- Sends a prompt to a model. -/
  | prompt
  | request
  /-- Reads data text into a variable. -/
  | readData
  /-- Calls a tool on a server. -/
  | callTool
  | writeNote
  | readNote
  | searchNotes
  | listNotes
  | listFolders
  | openNote
  | pickFile
  | saveFile
  | dialog
  | pickNote
  | pickText
  /-- Runs another workflow. -/
  | nested
  /-- Keeps an index in step with a note. -/
  | syncIndex
  | hostCommand
deriving DecidableEq, Repr

namespace Kind

/-- The families in which kinds are registered. -/
inductive Family
  | controlFlow | command | http | notes | files | prompts | integration
deriving DecidableEq, Repr

def Family.all : List Family :=
  [.controlFlow, .command, .http, .notes, .files, .prompts, .integration]

/-- The kinds of a family under their names. -/
def Family.kinds : Family → List (String × Kind)
  | controlFlow =>
    [("variable", .literal), ("set", .compute), ("if", .branch), ("while", .loop),
      ("sleep", .sleep)]
  | command => [("command", .prompt)]
  | http => [("http", .request), ("json", .readData), ("mcp", .callTool)]
  | notes =>
    [("note", .writeNote), ("note-read", .readNote), ("note-search", .searchNotes),
      ("note-list", .listNotes), ("folder-list", .listFolders), ("open", .openNote)]
  | files => [("file-explorer", .pickFile), ("file-save", .saveFile)]
  | prompts =>
    [("dialog", .dialog), ("prompt-file", .pickNote), ("prompt-selection", .pickText)]
  | integration =>
    [("workflow", .nested), ("rag-sync", .syncIndex), ("obsidian-command", .hostCommand)]

/-- The built-in kinds under their names. -/
def named : List (String × Kind) := Family.all.flatMap Family.kinds

end Kind

/-- The known names; a name may be known with nothing behind it. -/
structure Registry (α : Type) where
  handlers : List (String × Option α)

namespace Registry

def builtin : Registry Kind := ⟨Kind.named.map fun (name, k) => (name, some k)⟩

variable {α : Type}

def register (r : Registry α) (name : String) (handler : Option α) : Registry α :=
  ⟨Entries.insert name handler r.handlers⟩

def has (r : Registry α) (name : String) : Bool := Entries.has name r.handlers

def handler? (r : Registry α) (name : String) : Option α :=
  (Entries.get? name r.handlers).join

/-- The known names in alphabetical order. -/
def discover (r : Registry α) : List String :=
  (Entries.keys r.handlers).mergeSort fun a b => decide (a ≤ b)

/-- Where handlers may come from: a family, a place without any, or no place at all. -/
inductive Source
  | family (f : Kind.Family)
  | without
  | missing (reason : String)

/-- Everything that a source offers is registered; `name` is what the source is called. -/
def registerSource (r : Registry Kind) (name : String) : Source → Except Fault (Registry Kind)
  | .family f => .ok (f.kinds.foldl (fun r (n, k) => r.register n (some k)) r)
  | .without => .error (.badValue ("Module '" ++ name ++ "' has no HANDLERS"))
  | .missing reason =>
    .error (.badValue ("Failed to import handlers from '" ++ name ++ "': " ++ reason))

/-- What speaks against running a workflow: its nodes of unknown kinds. -/
def findings (r : Registry α) (w : Workflow) : List String :=
  w.nodes.filterMap fun n =>
    if r.has n.kind then none
    else some ("Node '" ++ n.id ++ "': unknown node type '" ++ n.kind ++ "'")

end Registry
end Runbook
