import Runbook.FileTree
import Runbook.Tags

/-! A vault: the notes and attachments below one folder.

Paths are seen from the root of the vault and have no way out of it: whatever would lead to a
place outside is refused. Names that begin with a dot are not listed. -/
namespace Runbook

structure Vault where
  root : Location
  tree : FileTree := {}
deriving Repr

namespace Vault

/-! ### Places -/

/-- The place of a path in a vault with this root. The system takes no path with the null character,
not even to look where it leads. -/
def resolve (root : Location) (path : String) : Except Fault Location :=
  if path.toList.contains '\x00' then .error (.badValue "embedded null byte")
  else
    let l := FileTree.lead root (Path.namesOf path)
    if root.isPrefixOf l then .ok l
    else .error (.node ("Path escapes the vault: " ++ path) none)

/-! ### Files -/

variable (v : Vault)

def readBytes (path : String) : Except Fault (List UInt8) := do
  FileTree.failing path (v.tree.read (← resolve v.root path))

def readText (path : String) : Except Fault String := do
  FileTree.textOf (← v.readBytes path)

/-- Writes a file, with the folders around it. -/
def writeBytes (path : String) (content : List UInt8) : Except Fault Vault := do
  let tree ← FileTree.failing path (v.tree.place (← resolve v.root path) content)
  return { v with tree }

def writeText (path : String) (s : String) : Except Fault Vault :=
  v.writeBytes path (Text.encode s)

/-- Whether there is a file at a path. -/
def has (path : String) : Except Fault Bool := return v.tree.isFile (← resolve v.root path)

def delete (path : String) : Except Fault Vault := do
  let tree ← FileTree.failing path (v.tree.remove (← resolve v.root path))
  return { v with tree }

def size (path : String) : Except Fault Nat := return (← v.readBytes path).length

/-- The tags of a note; other files have none. -/
def tags (path : String) : Except Fault (List String) := do
  if path.endsWith ".md" then Tags.ofNote (← v.readText path) else return []

/-! ### Listing -/

def isHidden (name : String) : Bool := name.startsWith "."

/-- The path of a place in the vault, from the names below the root. -/
def pathOf (names : List String) : String := "/".intercalate names

/-- The paths of what is inside a place and passes a test; the names that lead there from the place
are told to it. -/
def found (base : Location) (test : List String → FileTree.Item → Bool) : List String :=
  let around := base.drop v.root.length
  let found := (v.tree.below base).filter fun (names, i) =>
    test names i && !(around ++ names).any isHidden
  (found.map fun (names, _) => pathOf (around ++ names)).mergeSort fun a b => decide (a ≤ b)

/-- The place of a folder; without a path it is the root. -/
def folderAt (folder : String) : Except Fault Location :=
  if folder.isEmpty then .ok v.root else resolve v.root folder

/-- The paths of what is in a folder and passes a test. -/
def listed (folder : String) (test : List String → FileTree.Item → Bool) :
    Except Fault (List String) := do
  let base ← v.folderAt folder
  return if v.tree.isFolder base then v.found base test else []

def listFiles (folder : String) (recursive : Bool) : Except Fault (List String) :=
  v.listed folder fun names i =>
    (recursive || names.length == 1) && match i with
      | .file _ => true
      | .folder => false

def listFolders (folder : String) : Except Fault (List String) :=
  v.listed folder fun _ i => i == .folder

end Vault
end Runbook
