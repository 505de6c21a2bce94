import Runbook.Text.Word
import Runbook.Workflow.Loading
import Runbook.Yaml.Document

/-! The tags of a note.

A note may begin with a header between two lines of three dashes, whose `tags` entry lists
tags, and it may hold tags in its text: a hash sign and a name, outside of code fences.
`Tags.ofNote` lists the header's tags and then those of the text, each once. -/
namespace Runbook.Tags

open Text

/-! ### The header -/

/-- What is behind a line break at the front. -/
def newline? : List Char → Option (List Char)
  | '\n' :: rest => some rest
  | '\r' :: '\n' :: rest => some rest
  | _ => none

def dashes : List Char := ['-', '-', '-']

/-- What is behind a line break and a line of three dashes. -/
def closing? (cs : List Char) : Option (List Char) := do
  newline? (← after? dashes (← newline? cs))

/-- The text up to the first line of three dashes, and what is behind that. -/
def untilClosing? : List Char → Option (List Char × List Char)
  | [] => none
  | c :: rest =>
    match closing? (c :: rest) with
    | some behind => some ([], behind)
    | none => (untilClosing? rest).map fun (header, behind) => (c :: header, behind)

/-- The header of a note and the text behind it. -/
def header? (cs : List Char) : Option (List Char × List Char) := do
  untilClosing? (← newline? (← after? dashes cs))

def hashed (s : String) : String := if s.startsWith "#" then s else "#" ++ s

/-- The tags that a header's entry lists. One text may hold several, with commas or blanks
between them. -/
def listed (raw : Value) : Except Fault (List String) :=
  match raw with
  | .str s =>
    let words := splitAt ',' (s.toList.map fun c => if isBlank c then ',' else c)
    .ok ((words.filter (!·.isEmpty)).map fun word => hashed (String.ofList word))
  | raw =>
    if !raw.truthy then .ok []
    else match Workflow.members? raw with
      | some members => members.mapM fun v => return hashed (← v.written)
      | none => .error .wrongType

/-- The tags of a header. One that cannot be read has none. -/
def ofHeader (header : List Char) : Except Fault (List String) :=
  match Yaml.parse (String.ofList header) with
  | .ok v => listed ((v.field? "tags").getD .null)
  | .error (.unreadable _) => .ok []
  | .error (.fault f) => .error f

/-! ### The text -/

def fence : List Char := ['`', '`', '`']

/-- The text without what stands between two fences; a fence without another one stays. -/
def withoutFences : Nat → List Char → List Char
  | 0, cs => cs
  | fuel + 1, cs =>
    match cutAtWord fence cs with
    | none => cs
    | some (before, inside) =>
      match cutAtWord fence inside with
      | none => cs
      | some (_, behind) => before ++ withoutFences fuel behind

/-- Whether a tag may begin behind a character. -/
def mayBeginBehind (c : Char) : Bool := !(isWord c || c == '#' || c == '/' || c == '&')

def startsName (c : Char) : Bool := isAsciiLetter c || c == '_'

def isNameChar (c : Char) : Bool := isWord c || c == '/' || c == '-'

/-- The names behind hash signs; `free` says whether one may begin here. -/
def names (free : Bool) : List Char → List (List Char)
  | [] => []
  | '#' :: c :: rest =>
    if free && startsName c then
      (c :: rest.takeWhile isNameChar) :: names (mayBeginBehind c) rest
    else names false (c :: rest)
  | c :: rest => names (mayBeginBehind c) rest

/-- The tags in a text. -/
def inText (cs : List Char) : List String :=
  (names true (withoutFences cs.length cs)).map fun name => String.ofList ('#' :: name)

/-! ### Notes -/

/-- The tags of a note, each once, in the order in which they first come. -/
def ofNote (content : String) : Except Fault (List String) := do
  match header? content.toList with
  | some (header, body) => return ((← ofHeader header) ++ inText body).eraseDups
  | none => return (inText content.toList).eraseDups

end Runbook.Tags
