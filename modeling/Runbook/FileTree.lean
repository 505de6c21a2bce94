import Runbook.Fault
import Runbook.Entries
import Runbook.Path
import Runbook.Text.Lines
import Runbook.Text.Utf8

/-! A tree of files.

A place is a list of names from the top. The tree says what stands at which place: a folder,
or a file with its bytes. Every operation names the obstacle that stops it: there is nothing
at a place, there is a folder where a file is asked for, or there is a file where a folder
would have to be. -/
namespace Runbook

/-- Names from the top of the tree. -/
abbrev Location := List String

namespace FileTree

inductive Item
  | folder
  | file (content : List UInt8)
deriving DecidableEq, Repr

end FileTree

structure FileTree where
  items : List (Location × FileTree.Item) := []
deriving Repr

namespace FileTree

/-- What stands at a place; the top is a folder. -/
def item? (t : FileTree) (l : Location) : Option Item :=
  if l.isEmpty then some .folder else Entries.get? l t.items

def isFile (t : FileTree) (l : Location) : Bool :=
  match t.item? l with
  | some (.file _) => true
  | _ => false

def isFolder (t : FileTree) (l : Location) : Bool := t.item? l == some .folder

/-- Whether a file stands where a folder around a place would have to be. -/
def isBlocked (t : FileTree) (l : Location) : Bool :=
  (List.range l.length).any fun n => t.isFile (l.take n)

/-- What stands at a place, or the obstacle on the way. -/
def find (t : FileTree) (l : Location) : Except FileFault Item :=
  match t.item? l with
  | some i => .ok i
  | none => .error (if t.isBlocked l then .notFolder else .missing)

/-- The place that names lead to from another one, by the names alone; two dots lead back
out. -/
def lead : Location → List String → Location
  | l, [] => l
  | l, n :: rest => lead (if n == ".." then l.dropLast else l ++ [n]) rest

/-- The place that names lead to, where every step starts from a folder. -/
def locate (t : FileTree) : Location → List String → Except FileFault Location
  | l, [] => .ok l
  | l, n :: rest => do
    match ← t.find l with
    | .file _ => throw .notFolder
    | .folder => t.locate (if n == ".." then l.dropLast else l ++ [n]) rest

/-! ### Reading -/

def read (t : FileTree) (l : Location) : Except FileFault (List UInt8) := do
  match ← t.find l with
  | .file content => return content
  | .folder => throw .isFolder

/-- The text that bytes hold, with every line break as a line feed. -/
def textOf (content : List UInt8) : Except Fault String :=
  match Text.decode? content with
  | some s => .ok (String.ofList (Text.linefeeds s.toList))
  | none => .error .badBytes

/-! ### Changing -/

/-- Puts a folder at a place and at every place around it. -/
def makeFolders (t : FileTree) (l : Location) : Except FileFault FileTree :=
  if t.isFile l then .error .exists
  else if t.isBlocked l then .error .notFolder
  else
    let missing := ((List.range l.length).map fun n => l.take (n + 1)).filter
      fun around => (t.item? around).isNone
    .ok ⟨t.items ++ missing.map fun around => (around, .folder)⟩

/-- Writes a file; the folder around it must be there. -/
def write (t : FileTree) (l : Location) (content : List UInt8) : Except FileFault FileTree :=
  match t.find l with
  | .ok .folder => .error .isFolder
  | .ok (.file _) => .ok ⟨Entries.insert l (.file content) t.items⟩
  | .error .missing =>
    if t.isFolder l.dropLast then .ok ⟨t.items ++ [(l, .file content)]⟩ else .error .missing
  | .error f => .error f

/-- Writes a file, with the folders around it. -/
def place (t : FileTree) (l : Location) (content : List UInt8) : Except FileFault FileTree := do
  (← t.makeFolders l.dropLast).write l content

/-- Removes a file. -/
def remove (t : FileTree) (l : Location) : Except FileFault FileTree := do
  match ← t.find l with
  | .file _ => return ⟨Entries.erase l t.items⟩
  | .folder => throw .isFolder

/-! ### Listing -/

/-- The names that lead from a folder to a place inside it. -/
def inside? (folder : Location) (l : Location) : Option (List String) :=
  if folder.isPrefixOf l && folder.length < l.length then some (l.drop folder.length) else none

/-- Everything inside a folder at any depth, by the names that lead there. -/
def below (t : FileTree) (folder : Location) : List (List String × Item) :=
  t.items.filterMap fun (l, i) => (inside? folder l).map (·, i)

/-- What is said of an obstacle, with its number. -/
def obstacle : FileFault → String
  | .missing => "[Errno 2] No such file or directory"
  | .isFolder => "[Errno 21] Is a directory"
  | .notFolder => "[Errno 20] Not a directory"
  | .exists => "[Errno 17] File exists"
  | .other => "[Errno 5] Input/output error"

/-- The failure of an operation at a path. -/
def failing {α : Type} (path : String) (r : Except FileFault α) : Except Fault α :=
  r.mapError fun f => .file f (obstacle f ++ ": " ++ Text.quoted path)

end FileTree
end Runbook
