import Runbook.Http.Client
import Runbook.Json.Bytes
import Runbook.Json.Writer
import Runbook.Literal

/-! Servers of tools.

A conversation with a server has three messages: it is opened, the opening is acknowledged,
and a tool is called. Once a reply has named a session, every message carries that name, and
the session is closed at the end, however the conversation went. A reply is a data text or a
stream of events whose last one counts. -/
namespace Runbook.ToolServer

/-! ### Replies -/

/-- The data of the last event in a stream. -/
def lastData (stream : String) : List Char :=
  (Text.lines stream.toList).foldl (fun last line =>
    match Text.after? "data:".toList line with
    | some data => Text.trim data
    | none => last) []

/-- The message in a stream of events. -/
def ofStream (stream : String) : Except Fault Value :=
  match lastData stream with
  | [] => .error (.toolServer "No data received in SSE response")
  | data => Json.parse (String.ofList data)

/-- Whether the body of a reply is a stream of events. -/
def isStream (r : Http.Response) : Bool :=
  Text.contains "text/event-stream".toList ((r.field? "content-type").getD "").toList

/-- The message in the body of a reply. -/
def message (r : Http.Response) : Except Fault Value :=
  if isStream r then ofStream r.declaredText else Json.ofBytes r.content

/-- A field of a mapping; what is no mapping has no fields. -/
def fieldOf (v : Value) (name : String) : Except Fault Value :=
  match v with
  | .map entries => .ok ((Entries.get? (.str name) entries).getD .null)
  | _ => .error .noSuchField

/-- The result that a message brings, or the error. -/
def resultOf (v : Value) : Except Fault Value := do
  let error ← fieldOf v "error"
  if error.truthy then
    let code ← fieldOf error "code"
    let text ← fieldOf error "message"
    throw (.toolServer ("MCP Error " ++ code.display ++ ": " ++ text.display))
  else fieldOf v "result"

/-- The blocks of content in a result. -/
def blocks (v : Option Value) : Except Fault (List Value) :=
  match v with
  | none => .ok []
  | some (.list items) => .ok items
  | some (.map entries) => .ok (entries.map fun (k, _) => .scalar k)
  | some (.str s) => .ok (s.toList.map fun c => .str (String.singleton c))
  | some _ => .error .wrongType

/-- What a tool gave back. -/
def toolResult (v : Value) : Except Fault ToolResult := do
  let v := if v.truthy then v else .map []
  match v with
  | .map entries =>
    return { content := ← blocks (Entries.get? (.str "content") entries)
             isError := ((v.field? "isError").getD .null).truthy }
  | _ => throw .noSuchField

/-! ### Messages -/

/-- The version of the protocol that the conversation follows. -/
def protocolVersion : String := "2024-11-05"

/-- How the client presents itself. -/
def clientInfo : Value := .record [("name", .str "vaultflow"), ("version", .str "0.1.0")]

def openingParams : Value :=
  .record [("protocolVersion", .str protocolVersion), ("capabilities", .map []),
    ("clientInfo", clientInfo)]

def requestMessage (id : Nat) (method : String) (params : Value) : Value :=
  .record [("jsonrpc", .str "2.0"), ("id", .int id), ("method", .str method), ("params", params)]

def noticeMessage (method : String) : Value :=
  .record [("jsonrpc", .str "2.0"), ("method", .str method)]

mutual

/-- Whether a value has a number that data text cannot write. -/
def hasNoText : Value → Bool
  | .float x => !x.isFinite
  | .scalar _ => false
  | .list items => itemsHaveNoText items
  | .map entries => entriesHaveNoText entries

def itemsHaveNoText : List Value → Bool
  | [] => false
  | v :: rest => hasNoText v || itemsHaveNoText rest

def entriesHaveNoText : List (Scalar × Value) → Bool
  | [] => false
  | (k, v) :: rest => hasNoText (.scalar k) || hasNoText v || entriesHaveNoText rest

end

/-- The bytes of a message. -/
def bytesOf (v : Value) : Except Fault (List UInt8) := do
  let text ← Json.render Json.compact v
  if hasNoText v then throw (.badValue "Out of range float values are not JSON compliant")
  return Text.encode text

/-! ### Conversations -/

variable {σ : Type}

/-- A server: its address, the header fields of every message, and how messages reach it. -/
structure Server (σ : Type) where
  url : String
  headers : List (String × String) := []
  send : Http.Request → Call σ Http.Response

/-- A conversation under way. -/
structure Line (σ : Type) where
  world : σ
  /-- Whether the token of the run fired meanwhile. -/
  fires : Bool := false
  /-- The number of the next request. -/
  nextId : Nat := 1
  session : Option String := none

/-- Why a conversation ends early. -/
inductive Break
  | fault (f : Fault)
  | hung
  | cancelled

abbrev Talk (σ α : Type) := ExceptT Break (StateM (Line σ)) α

namespace Talk

def ofExcept {α : Type} : Except Fault α → Talk σ α
  | .ok a => pure a
  | .error f => throw (.fault f)

/-- One exchange with the server. -/
def exchange (server : Server σ) (q : Http.Request) : Talk σ Http.Response := fun line =>
  let reply := server.send q line.world
  let line := { line with world := reply.world, fires := line.fires || reply.fires }
  match reply.result with
  | .returned r => (.ok r, line)
  | .raised f => (.error (.fault f), line)
  | .hung => (.error .hung, line)
  | .cancelled => (.error .cancelled, line)

/-- The header field that names the session. -/
def sessionField : String := "Mcp-Session-Id"

/-- Header fields with the name of the session, if there is one. -/
def inSession (fields : List (String × String)) : Talk σ (List (String × String)) := do
  match (← get).session with
  | some name => return Entries.insert sessionField name fields
  | none => return fields

/-- Sends a message. -/
def post (server : Server σ) (v : Value) : Talk σ Http.Response := do
  let fields ← inSession (Entries.merge [("Content-Type", "application/json"),
    ("Accept", "application/json, text/event-stream")] server.headers)
  let headers ← ofExcept (Http.sentFields fields)
  let content ← ofExcept (bytesOf v)
  exchange server { url := server.url, method := "POST", headers, content := some content }

/-- The failure of a reply whose status is none of success. -/
def checkStatus (r : Http.Response) : Except Fault Unit :=
  if 200 ≤ r.status && r.status ≤ 299 then .ok ()
  else .error (.transport ("status " ++ toString r.status))

/-- Sends a request and takes its result. -/
def request (server : Server σ) (method : String) (params : Value) : Talk σ Value := do
  let id ← modifyGet fun line => (line.nextId, { line with nextId := line.nextId + 1 })
  let r ← post server (requestMessage id method params)
  ofExcept (checkStatus r)
  match (r.field? "mcp-session-id").filter (!·.isEmpty) with
  | some name => modify fun line => { line with session := some name }
  | none => pure ()
  ofExcept (do resultOf (← message r))

/-- Opens the conversation. -/
def opening (server : Server σ) : Talk σ Unit := do
  let _ ← request server "initialize" openingParams
  let _ ← post server (noticeMessage "notifications/initialized")

/-- Closes the session, if there is one; that the server is not reached does not count. -/
def closing (server : Server σ) : Talk σ Unit := do
  if (← get).session.isSome then
    let headers ← ofExcept (Http.sentFields (← inSession server.headers))
    try
      let _ ← exchange server { url := server.url, method := "DELETE", headers }
    catch
      | .fault (.transport _) => pure ()
      | b => throw b

/-- The failure of a conversation, where the server was not reached or refused. -/
def explained : Break → Break
  | .fault (.transport m) => .fault (.toolServer ("MCP request failed: " ++ m))
  | b => b

/-- A whole conversation about one tool; it is closed unless it hangs. -/
def about (server : Server σ) (tool : String) (args : Value) : Talk σ Value := fun line =>
  let call : Talk σ Value := do
    opening server
    request server "tools/call" (.record [("name", .str tool), ("arguments", args)])
  match call line with
  | (.error .hung, line) => (.error .hung, line)
  | (outcome, line) =>
    match closing server line with
    | (.ok (), line) => (outcome.mapError explained, line)
    | (.error b, line) => (.error b, line)

end Talk

/-- The header fields that a value gives; their values are texts. -/
def headerFields : Option Value → Except Fault (List (String × String))
  | some (.map entries) => entries.mapM fun
    | (.str name, .str v) => .ok (name, v)
    | _ => .error .wrongType
  | _ => .ok []

/-- Calls a tool of the server at an address. -/
def callTool (send : Http.Request → Call σ Http.Response) (url tool : String) (args : Value)
    (headers : Option Value) : Call σ ToolResult := fun world =>
  match headerFields headers with
  | .error f => { world, result := .raised f }
  | .ok headers =>
    let (outcome, line) := Talk.about ⟨url, headers, send⟩ tool args { world }
    let result := match outcome with
      | .ok v =>
        match toolResult v with
        | .ok r => .returned r
        | .error f => .raised f
      | .error (.fault f) => .raised f
      | .error .hung => .hung
      | .error .cancelled => .cancelled
    { world := line.world, fires := line.fires, result }

end Runbook.ToolServer
