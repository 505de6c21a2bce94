import Runbook.Text.Search

/-! Paths: names with slashes between them.

Empty names and single dots do not count, so every path has one text. A path is absolute
when it begins with a slash. -/
namespace Runbook

structure Path where
  /-- How many slashes are in front: none, one, or exactly two, which are not the same. -/
  slashes : Nat
  names : List String
deriving DecidableEq, Repr

namespace Path

/-- The names in a text. -/
def namesOf (s : String) : List String :=
  (Text.splitAt '/' s.toList).filterMap fun n =>
    if n.isEmpty || n == ['.'] then none else some (String.ofList n)

def slashesOf (s : String) : Nat :=
  match (s.toList.takeWhile (· == '/')).length with
  | 0 => 0
  | 2 => 2
  | _ => 1

def ofText (s : String) : Path := ⟨slashesOf s, namesOf s⟩

def isAbsolute (p : Path) : Bool := p.slashes != 0

/-- The text of a path; the empty one is a dot. -/
def text (p : Path) : String :=
  if p.slashes == 0 && p.names.isEmpty then "."
  else String.ofList (List.replicate p.slashes '/') ++ "/".intercalate p.names

/-- A path as it is seen from another one. -/
def under (base p : Path) : Path :=
  if p.isAbsolute then p else { base with names := base.names ++ p.names }

/-- The last name; the root and the empty path have none. -/
def name (p : Path) : String := p.names.getLastD ""

/-- What the last name ends in, from its last dot on; the dot is neither its first nor its
last character. -/
def suffix (p : Path) : String :=
  match Text.cutAtLast '.' p.name.toList with
  | some (before, after) =>
    if before.isEmpty || after.isEmpty then "" else String.ofList ('.' :: after)
  | none => ""

/-- The path with more at the end of its last name. -/
def extended (p : Path) (more : String) : Path :=
  { p with names := p.names.dropLast ++ [p.name ++ more] }

end Path
end Runbook
