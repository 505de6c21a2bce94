import Runbook.FileData
import Runbook.Literal
import Runbook.Text.Lines
import Runbook.Url

/-! Requests and responses.

Header fields come as a data text or as lines, and the media type among them may declare the
character set of a text. A response becomes a value, which is a file for bytes and text
otherwise, with data text in its compact form. -/
namespace Runbook.Http

/-- A part of a form that is sent as a file. -/
structure Upload where
  filename : String
  content : List UInt8
  mimeType : String
deriving DecidableEq, Repr

structure Request where
  url : String
  method : String := "GET"
  headers : List (String × String) := []
  content : Option (List UInt8) := none
  files : Option (List (String × Upload)) := none
  data : Option (List (String × String)) := none
deriving Repr

structure Response where
  status : Int
  headers : List (String × String) := []
  content : List UInt8 := []
deriving Repr

/-! ### Character sets -/

/-- The character sets that are known; a text in any other one is read as UTF-8. -/
inductive Charset
  | utf8
  | ascii
  | latin1

namespace Charset

/-- Names are compared in small letters, and all that separates their parts is alike. -/
def plainName (cs : List Char) : List Char :=
  (Text.lower cs).map fun c => if c.isAlphanum || c == '.' then c else '_'

def asciiNames : List String :=
  ["ascii", "us_ascii", "us", "646", "ansi_x3.4_1968", "ansi_x3_4_1968", "ansi_x3.4_1986", "cp367",
    "csascii", "ibm367", "iso646_us", "iso_646.irv_1991", "iso_ir_6"]

def latin1Names : List String :=
  ["latin_1", "latin1", "latin", "l1", "iso8859_1", "iso_8859_1", "iso_8859_1_1987", "iso8859",
    "8859", "cp819", "csisolatin1", "ibm819", "iso_ir_100"]

def ofName (name : List Char) : Charset :=
  let name := String.ofList (plainName name)
  if asciiNames.contains name then .ascii
  else if latin1Names.contains name then .latin1
  else .utf8

/-- The name of the character set that a media type declares in one of its parameters. -/
def declared? (mediaType : String) : Option (List Char) :=
  (Text.splitAt ';' mediaType.toList).findSome? fun parameter =>
    match Text.cutAt '=' parameter with
    | (name, some value) =>
      if Text.lower (Text.trim name) = "charset".toList then
        some ((Text.trim value).filter (· != '"'))
      else none
    | (_, none) => none

/-- A text in a character set; a byte that stands for no character is replaced. -/
def decode : Charset → List UInt8 → List Char
  | .utf8, bytes => Text.decodeLossy bytes
  | .ascii, bytes => bytes.map fun b => if b < 0x80 then Char.ofNat b.toNat else '\uFFFD'
  | .latin1, bytes => bytes.map fun b => Char.ofNat b.toNat

end Charset

/-! ### Fields and texts -/

/-- Header names are compared in small letters. -/
def isContentType (name : String) : Bool := Text.lowered name == "content-type"

namespace Response

/-- The first content type field, or the empty one. -/
def contentType (r : Response) : String :=
  match r.headers.find? fun (name, _) => isContentType name with
  | some (_, v) => v
  | none => ""

def text (r : Response) : String := String.ofList (Text.decodeLossy r.content)

def isError (r : Response) : Bool := 400 ≤ r.status

/-- The value of a header field, whatever the case of its name. -/
def field? (r : Response) (name : String) : Option String :=
  match r.headers.filter fun (n, _) => Text.lowered n == name with
  | [] => none
  | fields => some (", ".intercalate (fields.map (·.2)))

/-- The text of a response in the character set that it declares. -/
def declaredText (r : Response) : String :=
  let charset := match (r.field? "content-type").bind Charset.declared? with
    | some name => Charset.ofName name
    | none => .utf8
  String.ofList (charset.decode r.content)

end Response

/-- Header fields in lines, a name and a value around the first colon. -/
def headerLines (s : String) : List (String × String) :=
  Entries.ofList ((Text.lines s.toList).filterMap fun line =>
    match Text.cutAt ':' line with
    | (key, some value) =>
      let key := Text.trim key
      if key.isEmpty then none else some (String.ofList key, String.ofList (Text.trim value))
    | (_, none) => none)

/-- The header fields that a text gives, as the data text of a mapping or in lines. -/
def parseHeaders (s : String) : Except Fault (List (String × String)) :=
  if Text.blank s.toList then .ok []
  else match Json.parse s with
    | .ok (.map entries) => .ok (Entries.ofList (entries.map fun (k, v) => (k.display, v.display)))
    | .ok _ => .ok (headerLines s)
    | .error f => if f.isBadValue then .ok (headerLines s) else .error f

/-! ### Response values -/

/-- The name for a download and its ending: the last part of the path where it has an ending,
or else one made from the media type. -/
def downloadName (url mime : String) : Except Fault (String × String) := do
  let basename := FileName.base (← Url.parse url).path
  match Text.cutAtLast '.' basename.toList with
  | some (_, extension) => return (basename, String.ofList extension)
  | none =>
    let extension := Mime.extension mime
    return if extension.isEmpty then ("download", "") else ("download." ++ extension, extension)

/-- The media type of a response without its parameters. -/
def mimeType (r : Response) : String :=
  let declared := if r.contentType.isEmpty then Mime.unknown else r.contentType
  String.ofList (Text.trim (Text.cutAt ';' declared.toList).1)

/-- Data text in its compact form; any other text as it is. -/
def normalizeText (s : String) : Except Fault String :=
  match Json.parse s with
  | .error f => if f.isBadValue then .ok s else .error f
  | .ok v =>
    match Json.render Json.compact v with
    | .ok t => .ok t
    | .error f => if f.isBadValue then .ok s else .error f

/-- The value of a response. What is read as bytes is asked for or decided by the media type. -/
def responseValue (url : String) (r : Response) (responseType : String) : Except Fault Value := do
  let mime := mimeType r
  let binary := if responseType = "binary" then true
    else if responseType = "text" then false else Mime.isBinary mime
  if binary then
    let (basename, extension) ← downloadName url mime
    let name := match Text.cutAtLast '.' basename.toList with
      | some (name, _) => String.ofList name
      | none => basename
    return FileData.toValue
      ⟨"", basename, name, extension, mime, .binary, Base64.text r.content⟩
  else return .str (← normalizeText r.text)

end Runbook.Http
