import Runbook.Json.Reader
import Runbook.Mime
import Runbook.Text.Utf8

/-! Files as they travel between nodes.

A file is its place and name, its media type, and its content: text, or bytes in base 64. As
a value it is a mapping with these fields. -/
namespace Runbook

/-- A path and what its last part says. -/
structure FileName where
  path : String
  basename : String
  name : String
  extension : String
deriving DecidableEq, Repr

namespace FileName

/-- The part of a path behind its last slash. -/
def base (path : String) : String :=
  match Text.cutAtLast '/' path.toList with
  | some (_, last) => String.ofList last
  | none => path

/-- A path by its parts; a point in front does not begin an ending. -/
def ofPath (path : String) : FileName :=
  let basename := base path
  match Text.cutAtLast '.' basename.toList with
  | some (name, extension) =>
    if name.isEmpty then ⟨path, basename, basename, ""⟩
    else ⟨path, basename, String.ofList name, String.ofList extension⟩
  | none => ⟨path, basename, basename, ""⟩

end FileName

inductive ContentType
  | text
  | binary
deriving DecidableEq, Repr

def ContentType.word : ContentType → String
  | text => "text"
  | binary => "binary"

structure FileData where
  path : String := ""
  basename : String := ""
  name : String := ""
  extension : String := ""
  mimeType : String := Mime.unknown
  contentType : ContentType := .text
  data : String := ""
deriving DecidableEq, Repr

namespace FileData

def ofName (n : FileName) (mimeType : String) (contentType : ContentType) (data : String) :
    FileData :=
  ⟨n.path, n.basename, n.name, n.extension, mimeType, contentType, data⟩

def toValue (f : FileData) : Value :=
  .record [("path", .str f.path), ("basename", .str f.basename), ("name", .str f.name),
    ("extension", .str f.extension), ("mimeType", .str f.mimeType),
    ("contentType", .str f.contentType.word), ("data", .str f.data)]

/-- A field of text; bytes count as the text that they encode. -/
def text? : Value → Option String
  | .str s => some s
  | .bytes b => Text.decode? b
  | _ => none

/-- A field that may be missing. -/
def optional? (v : Value) (name : String) : Option String :=
  match v.field? name with
  | some v => text? v
  | none => some ""

def contentType? : Value → Option ContentType
  | .str "text" => some .text
  | .str "binary" => some .binary
  | _ => none

/-- The file that a mapping describes; media type, kind of content and content are required. -/
def ofMap? (v : Value) : Option FileData := do
  let contentType ← contentType? (← v.field? "contentType")
  let data ← text? (← v.field? "data")
  let mimeType ← text? (← v.field? "mimeType")
  return ⟨← optional? v "path", ← optional? v "basename", ← optional? v "name",
    ← optional? v "extension", mimeType, contentType, data⟩

/-- The file that a value describes, as a mapping or as data text. -/
def ofValue? : Value → Except Fault (Option FileData)
  | .str s =>
    match Json.parse s with
    | .ok v => .ok (ofMap? v)
    | .error f => if f.isBadValue then .ok none else .error f
  | v => .ok (ofMap? v)

/-- The bytes of a file's content. -/
def bytes (f : FileData) : Except Fault (List UInt8) :=
  match Base64.decode f.data.toList with
  | .ok b => .ok b
  | .error e => .error (.badBase64 e)

end FileData
end Runbook
