import Runbook.Fault
import Runbook.Json.Reader
import Runbook.Number.Numeral
import Runbook.Text.Case

/-! Note paths, folders and ages.

Notes are the markdown files of a vault. A path may leave out the ending; a folder may be
written with slashes at its end; an age is a count of minutes, hours or days. -/
namespace Runbook.Notes

/-- The path with the ending of a note. -/
def path (s : String) : String := if s.endsWith ".md" then s else s ++ ".md"

def isNote (s : String) : Bool := s.endsWith ".md"

/-- A folder without the slashes at its end. -/
def folder (s : String) : String :=
  String.ofList ((s.toList.reverse.dropWhile (· == '/')).reverse)

/-- Whether a path lies in a folder. Below it at any depth the folder's own note counts too. -/
def inFolder (path folderPath : String) (recursive : Bool) : Bool :=
  let base := folder folderPath
  if recursive then path.startsWith (base ++ "/") || path == base ++ ".md"
  else match Text.cutAtLast '/' path.toList with
    | some (parent, _) => String.ofList parent == base
    | none => false

/-! ### Ages -/

def units : List (String × Nat) :=
  [("m", 60), ("min", 60), ("h", 3600), ("hour", 3600), ("d", 86400), ("day", 86400)]

/-- A letter as unit names are compared: without case, and with one letter i. -/
def fold (c : Char) : Char :=
  if c = 'ı' || c = 'İ' then 'i'
  else if c = 'ſ' then 's'
  else match Text.lowerChar c with
    | [d] => d
    | _ => c

/-- The unit that a name stands for, in the singular or the plural, as it is written. -/
def unitName? (cs : List Char) : Option (List Char) :=
  let isUnit := fun cs => units.any fun (name, _) => name.toList == List.map fold cs
  if isUnit cs then some cs
  else match cs.reverse with
    | last :: front =>
      if fold last = 's' && isUnit front.reverse then some front.reverse else none
    | [] => none

/-- The seconds of an age; none where the text is no age. -/
def seconds (s : String) : Except Fault (Option Nat) :=
  match Number.takeDigits (Text.trim s.toList) with
  | ([], _) => .ok none
  | (ds, rest) =>
    match unitName? (Text.trimStart rest) with
    | none => .ok none
    | some name =>
      if digitLimit < ds.length then .error (.badValue (Number.digitMessage ds.length))
      else
        let key := String.ofList (Text.lower name)
        match Entries.get? key units with
        | some n => .ok (some (Number.ofDigits ds * n))
        | none => .error (.noSuchKey key)

end Runbook.Notes
