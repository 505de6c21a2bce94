import Runbook.Literal
import Runbook.Listing
import Runbook.Template
import Runbook.Visit.Context

/-! Requests over HTTP. -/
namespace Runbook.Visit

variable {σ : Type}

/-- The methods whose requests have a body. -/
def bodyMethods : List String := ["POST", "PUT", "PATCH"]

/-! ### Forms -/

/-- What a form sends: texts and files under the names of their fields. -/
structure Form where
  texts : List (String × String) := []
  files : List (String × Http.Upload) := []

/-- The content of a file as it is sent. -/
def uploadOf (f : FileData) : Except Fault Http.Upload := do
  let content ← match f.contentType with
    | .binary => if f.data.isEmpty then pure [] else f.bytes
    | .text => pure (Text.encode f.data)
  return ⟨f.basename, content, f.mimeType⟩

/-- The ending of a file name: what follows its last point. -/
def endingOf (filename : String) : String :=
  match Text.cutAtLast '.' filename.toList with
  | some (_, ending) => String.ofList ending
  | none => ""

/-- One more field. A value that holds a file is sent as that file, and a key with a file name
behind a colon sends its value as a file of that name. -/
def addField (form : Form) (key value : String) : Except Fault Form := do
  let (name, filename) := Text.cutAt ':' key.toList
  let name := String.ofList name
  match ← FileData.ofValue? (.str value) with
  | some f => return { form with files := Entries.insert name (← uploadOf f) form.files }
  | none =>
    match filename with
    | some filename =>
      let filename := String.ofList filename
      let upload : Http.Upload :=
        ⟨filename, Text.encode value, Mime.ofExtension (endingOf filename)⟩
      return { form with files := Entries.insert name upload form.files }
    | none => return { form with texts := Entries.insert key value form.texts }

/-- The fields of a mapping; keys and values are filled after the data text was read. -/
def formOf (scope : Scope) (form : Form) : List (Scalar × Value) → Except Fault Form
  | [] => .ok form
  | (k, v) :: rest => do
    let key ← Template.resolve k.display scope
    let value ← Template.resolve v.display scope
    formOf scope (← addField form key value) rest

/-- The form that the body describes as it was written. -/
def bodyForm (c : Context σ) : Except Fault Form :=
  let refused := c.fault "form-data contentType requires body to be a valid JSON object"
  match Json.parse ((c.node.property? "body").getD "") with
  | .ok (.map entries) => formOf c.scope {} entries
  | .ok _ => .error refused
  | .error f => .error (if f.isBadValue then refused else f)

/-! ### The request -/

/-- The bytes of the file that the body holds. -/
def bodyFile (c : Context σ) (body : String) : Except Fault (FileData × List UInt8) := do
  let refused := c.fault "binary contentType requires FileExplorerData with binary content"
  match ← FileData.ofValue? (.str body) with
  | some f =>
    if f.contentType == .binary && !f.data.isEmpty then return (f, ← f.bytes) else throw refused
  | none => throw refused

/-- The request with its body. A content type that the node sets stays; a form is sent with
the boundary that the client chooses. -/
def withBody (c : Context σ) (r : Http.Request) (body : String) : Except Fault Http.Request := do
  let has := r.headers.any fun (name, _) => Http.isContentType name
  let typed := fun (type : String) =>
    if has then r.headers else Entries.insert "Content-Type" type r.headers
  match c.propertyOr "contentType" "json" with
  | "form-data" =>
    let form ← bodyForm c
    return { r with
      headers := r.headers.filter fun (name, _) => !Http.isContentType name
      data := some form.texts
      files := if form.files.isEmpty then none else some form.files }
  | "binary" =>
    let (f, bytes) ← bodyFile c body
    return { r with content := some bytes, headers := typed f.mimeType }
  | "text" => return { r with content := some (Text.encode body), headers := typed "text/plain" }
  | _ => return { r with content := some (Text.encode body), headers := typed "application/json" }

/-- The request that a node describes. -/
def requestOf (c : Context σ) : Except Fault Http.Request := do
  let url := c.trimmed "url"
  if url.isEmpty then throw (c.fault "HTTP node missing 'url' property")
  let method := Text.uppered (c.propertyOr "method" "GET")
  let headers ← Http.parseHeaders (c.property "headers")
  let r : Http.Request := { url, method, headers }
  let body := c.property "body"
  if body.isEmpty || !bodyMethods.contains method then return r
  withBody c r body

/-- A failure of the request as the node reports it. -/
def requestFault (c : Context σ) (r : Http.Request) (f : Fault) : Fault :=
  if f.isNode then f
  else c.fault ("HTTP request failed: " ++ r.method ++ " " ++ r.url ++ " - " ++ f.message)

def request (c : Context σ) : Act σ Outcome := do
  let client ← c.require "http" c.providers.http
  let r ← Act.ofExcept (requestOf c)
  let response ← (Act.call (client r)).mapFault (requestFault c r)
  let status : Value := .int response.status
  if response.isError && c.flag "throwOnError" then
    c.fail ("HTTP " ++ toString response.status ++ " " ++ r.method ++ " " ++ r.url ++ ": " ++
      response.text)
  let v ← Act.ofExcept (Http.responseValue r.url response (c.propertyOr "responseType" "auto"))
  return {
    output := .record [("status", status), ("body", v)]
    writes := Entries.merge (c.writes [("saveStatus", status)]) (c.writes [("saveTo", v)]) }

end Runbook.Visit
