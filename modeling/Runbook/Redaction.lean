import Runbook.Json.Reader
import Runbook.Json.Writer

/-! Redaction: long binary payloads are not kept in the history.

A mapping that holds binary content keeps a note of its length in place of the content. Files
also travel as data text, so a long text that is the data text of a mapping is read, redacted
and written again. Only values that are not nested too deeply can be redacted, which `fits`
decides; a data text counts with the containers inside it. -/
namespace Runbook.Redaction

/-- The length up to which content is kept. -/
def limit : Nat := 1000

/-- What is kept in place of a content. -/
def note (length : Nat) : String := "[Binary data: " ++ toString length ++ " chars]"

/-- A mapping with its own content redacted; `entries` are the entries as they were, and
`inside` the same with their values redacted. -/
def content (entries inside : List (Scalar × Value)) : List (Scalar × Value) :=
  match Entries.get? (.str "contentType") entries, Entries.get? (.str "data") entries with
  | some (.str "binary"), some (.str data) =>
    if limit < data.length then Entries.insert (.str "data") (.str (note data.length)) inside
    else inside
  | _, _ => inside

mutual

/-- A value redacted, where texts are redacted by `text`. -/
def value (text : String → String) : Value → Value
  | .str s => .str (text s)
  | .scalar s => .scalar s
  | .list items => .list (values text items)
  | .map entries => .map (content entries (entryValues text entries))

def values (text : String → String) : List Value → List Value
  | [] => []
  | v :: rest => value text v :: values text rest

def entryValues (text : String → String) : List (Scalar × Value) → List (Scalar × Value)
  | [] => []
  | (k, v) :: rest => (k, value text v) :: entryValues text rest

end

/-- Whether a text is long and looks like a mapping with binary content in it. -/
def isSuspect (s : String) : Bool :=
  limit < s.length && (Text.trimStart s.toList).head? == some '{' &&
    Text.contains "\"binary\"".toList s.toList

/-- A text redacted; texts inside its data text are redacted to the given depth. -/
def text : Nat → String → String
  | 0, s => s
  | depth + 1, s =>
    if isSuspect s then
      match Json.parse s with
      | .ok (.map entries) =>
        match Json.render Json.spaced (value (text depth) (.map entries)) with
        | .ok t => t
        | .error _ => s
      | _ => s
    else s

/-- A value redacted, however deep it is. Each text inside a data text is shorter than that, so the
length of a text is depth enough. -/
def redact (v : Value) : Value := value (fun s => text s.length s) v

/-- How many containers may stand inside one another. -/
def depthLimit : Nat := 494

/-- Whether a value can be redacted within a depth. A text whose data text cannot be read for its
depth is no better than one that is too deep itself. -/
def fits : Nat → Value → Bool
  | 0, .str s => !isSuspect s
  | depth + 1, .str s =>
    !isSuspect s || match Json.parse s with
      | .ok (.map entries) => fits depth (.map entries)
      | .ok _ => true
      | .error f => f.isBadValue
  | _, .scalar _ => true
  | 0, _ => false
  | depth + 1, .list items => items.all (fits depth)
  | depth + 1, .map entries => entries.all fun e => fits depth e.2

/-- A value as the history keeps it, if it can be redacted. -/
def kept (v : Value) : Except Fault Value :=
  if fits depthLimit v then .ok (redact v) else .error .tooDeep

end Runbook.Redaction
