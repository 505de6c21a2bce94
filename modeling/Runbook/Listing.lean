import Runbook.Entries
import Runbook.Text.Blank
import Runbook.Text.Search

/-! Lists and pairs written in one line of text.

Entries are separated by commas, and blanks around an entry do not count. A pair is a key and
a value around the first equals sign. -/
namespace Runbook.Listing

/-- The entries of a list, without the blank ones. -/
def items (s : String) : List String :=
  (Text.splitAt ',' s.toList).filterMap fun piece =>
    let item := Text.trim piece
    if item.isEmpty then none else some (String.ofList item)

/-- The pairs of a list; what has no key or no equals sign is passed over. -/
def pairs (s : String) : List (String × String) :=
  Entries.ofList ((Text.splitAt ',' s.toList).filterMap fun piece =>
    match Text.cutAt '=' piece with
    | (key, some value) =>
      let key := Text.trim key
      if key.isEmpty then none else some (String.ofList key, String.ofList (Text.trim value))
    | (_, none) => none)

/-- Tags with the hash sign they may lack; a hash sign alone is no tag. -/
def tags (s : String) : List String :=
  (items s).filterMap fun item =>
    let tag := if item.startsWith "#" then item else "#" ++ item
    if 1 < tag.length then some tag else none

end Runbook.Listing
