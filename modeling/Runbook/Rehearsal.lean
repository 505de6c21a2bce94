import Runbook.Run
import Runbook.Workflow.Loading

/-! Rehearsals: runs in a scripted world.

A script says beforehand what every provider will answer. The rehearsal keeps what is left of
the replies, the files of an imagined vault, and a log of every effect in order, so a whole
run is a function of its script. -/
namespace Runbook

namespace Script

/-- How a scripted call ends before its reply, if it does. -/
inductive Interruption
  | none
  /-- The token fires, and the call hangs. -/
  | token
  /-- The token fires, and the call goes on. -/
  | tokenPassed
  | task
deriving DecidableEq, Repr

/-- What happens besides a reply: first an interruption, then a failure. -/
structure Effect where
  interruption : Interruption := .none
  failure : Option Fault := none

/-- A reply with the effect that comes before it. -/
structure Scripted (α : Type) where
  effect : Effect := {}
  reply : α

/-- The content of a file: text or bytes. -/
inductive Content
  | text (s : String)
  | bytes (b : List UInt8)
deriving Repr

structure Vault where
  files : List (String × Content) := []
  tags : List (String × List String) := []
  times : List (String × FileTimes) := []

/-- The reply of a model; without a name of its own it carries the one that was asked for. -/
structure ModelReply where
  text : String := "reply"
  model : Option String := none
  images : List Attachment := []
  usage : Value := .map []

structure Host where
  known : List String := []
  openFile : Effect := {}
  execute : Effect := {}
  clipboard : Effect := {}

structure Index where
  upload : Effect := {}
  delete : Effect := {}

end Script

/-- What every provider of a rehearsal answers; a provider without an entry is missing. -/
structure Script where
  now : Number.Binary64
  vault : Option Script.Vault := none
  model : Option (List (Script.Scripted Script.ModelReply)) := none
  http : Option (List (Script.Scripted Http.Response)) := none
  tools : Option (List (Script.Scripted ToolResult)) := none
  host : Option Script.Host := none
  index : Option Script.Index := none
  /-- Workflows by path, or by path and name around a hash sign, or the failure to find one. -/
  workflows : Option (List (String × Except Fault Value)) := none
  interaction : Option (List (Option (Script.Scripted Interaction.Response))) := none
  /-- The failure of the history, if it fails. -/
  history : Option (Option Fault) := none
  selection : Option String := none
  sleep : List Script.Effect := []

/-- A rehearsal under way. -/
structure Rehearsal where
  /-- The effects so far, the last one first. -/
  log : List Value := []
  files : List (String × Script.Content) := []
  model : List (Script.Scripted Script.ModelReply) := []
  http : List (Script.Scripted Http.Response) := []
  tools : List (Script.Scripted ToolResult) := []
  interaction : List (Option (Script.Scripted Interaction.Response)) := []
  sleep : List Script.Effect := []
  uploads : Nat := 0
  /-- The closed steps that were told, the last one first. -/
  heard : List Step := []
  /-- The records that were kept, the last one first. -/
  kept : List Record := []

namespace Rehearsal

open Script

def ofScript (s : Script) : Rehearsal :=
  { files := (s.vault.map (·.files)).getD []
    model := s.model.getD []
    http := s.http.getD []
    tools := s.tools.getD []
    interaction := s.interaction.getD []
    sleep := s.sleep }

def note (r : Rehearsal) (entry : List Value) : Rehearsal := { r with log := .list entry :: r.log }

/-- The effect of a call, and its reply if it comes to that. -/
def play {α : Type} (e : Effect) (a : α) (r : Rehearsal) : Reply Rehearsal α :=
  let result := match e.failure with
    | some f => Result.raised f
    | none => .returned a
  match e.interruption with
  | .none => { world := r, result }
  | .token => { world := r, fires := true, result := .hung }
  | .tokenPassed => { world := r, fires := true, result }
  | .task => { world := r, result := .cancelled }

/-- The first of the replies that are left, or a default; a script without effects is that. -/
def next {α : Type} (default : α) : List (Scripted α) → Scripted α × List (Scripted α)
  | [] => (⟨{}, default⟩, [])
  | s :: rest => (s, rest)

/-! ### The vault -/

def missing (path : String) : Fault := .file .missing path

def readText (path : String) : Call Rehearsal String := fun r =>
  match Entries.get? path r.files with
  | none => { world := r, result := .raised (missing path) }
  | some (.text s) => { world := r, result := .returned s }
  | some (.bytes b) =>
    match Text.decode? b with
    | some s => { world := r, result := .returned s }
    | none => { world := r, result := .raised .badBytes }

def readBytes (path : String) : Call Rehearsal (List UInt8) := fun r =>
  match Entries.get? path r.files with
  | none => { world := r, result := .raised (missing path) }
  | some (.text s) => { world := r, result := .returned (Text.encode s) }
  | some (.bytes b) => { world := r, result := .returned b }

/-- Writes a file under the name of an effect. -/
def write (effect path : String) (content : Content) (v : Value) : Call Rehearsal Unit := fun r =>
  let r := r.note [.str effect, .str path, v]
  { world := { r with files := Entries.insert path content r.files }, result := .returned () }

/-- The folders around a path, from the innermost outwards. -/
def foldersOf : Nat → List Char → List String
  | 0, _ => []
  | depth + 1, path =>
    match Text.cutAtLast '/' path with
    | some (parent, _) => String.ofList parent :: foldersOf depth parent
    | none => []

def ascending (names : List String) : List String := names.mergeSort fun a b => decide (a ≤ b)

def vaultProvider (v : Vault) (now : Number.Binary64) : VaultProvider Rehearsal :=
  { readText, readBytes
    writeText := fun path s => write "vault.write_text" path (.text s) (.str s)
    writeBytes := fun path b => write "vault.write_bytes" path (.bytes b) (.bytes b)
    has := fun path r => { world := r, result := .returned (Entries.has path r.files) }
    listFiles := fun r => { world := r, result := .returned (ascending (Entries.keys r.files)) }
    listFolders := fun r =>
      let folders := ((Entries.keys r.files).flatMap fun p => foldersOf p.length p.toList).eraseDups
      { world := r, result := .returned (ascending folders).reverse }
    times := fun path => Call.pure ((Entries.get? path v.times).getD ⟨now, now⟩)
    tags := fun path => Call.pure ((Entries.get? path v.tags).getD []) }

/-! ### Replies -/

def attachmentsValue (attachments : List Attachment) : Value :=
  .list (attachments.map fun a => .strs [a.mimeType, a.data, a.name])

def generate (q : ModelRequest) : Call Rehearsal ModelResult := fun r =>
  let r := r.note [.str "model", .record
    [("prompt", .str q.prompt), ("model", .opt q.model), ("system_prompt", .opt q.systemPrompt),
      ("rag_setting", .opt q.ragSetting), ("vault_tools", .opt q.vaultTools),
      ("mcp_servers", .strs q.toolServers), ("attachments", attachmentsValue q.attachments)]]
  let (s, rest) := next {} r.model
  let model := s.reply.model.getD (q.model.getD "fake-model")
  play s.effect ⟨s.reply.text, model, s.reply.images, s.reply.usage⟩ { r with model := rest }

def textsValue (fields : List (String × String)) : Value :=
  .record (fields.map fun (k, v) => (k, .str v))

def uploadsValue (files : List (String × Http.Upload)) : Value :=
  .record (files.map fun (k, u) => (k, .list [.str u.filename, .bytes u.content, .str u.mimeType]))

def orNull {α : Type} (f : α → Value) : Option α → Value
  | some a => f a
  | none => .null

def fetch (q : Http.Request) : Call Rehearsal Http.Response := fun r =>
  let r := r.note [.str "http", .record
    [("url", .str q.url), ("method", .str q.method), ("headers", textsValue q.headers),
      ("content", orNull .bytes q.content), ("files", orNull uploadsValue q.files),
      ("data", orNull textsValue q.data)]]
  let (s, rest) := next { status := 200 } r.http
  play s.effect s.reply { r with http := rest }

def callTool (url tool : String) (args : Value) (headers : Option Value) :
    Call Rehearsal ToolResult := fun r =>
  let r := r.note [.str "mcp", .str url, .str tool, args, headers.getD .null]
  let (s, rest) := next {} r.tools
  play s.effect s.reply { r with tools := rest }

def respond (q : Interaction.Request) : Call Rehearsal (Option Interaction.Response) := fun r =>
  let r := r.note [.str "interaction", .record
    [("kind", .str q.kind.word), ("node_id", .str q.nodeId), ("title", .str q.title),
      ("message", .str q.message), ("options", .strs q.options), ("payload", .record q.payload)]]
  match r.interaction with
  | some s :: rest => play s.effect (some s.reply) { r with interaction := rest }
  | none :: rest => { world := { r with interaction := rest }, result := .returned none }
  | [] => { world := r, result := .returned none }

def hostProvider (h : Host) : HostProvider Rehearsal :=
  { openFile := fun path r => play h.openFile () (r.note [.str "host.open_file", .str path])
    execute := fun id path r =>
      let r := r.note [.str "host.execute", .str id, .opt path]
      if h.known.contains id then play h.execute () r
      else { world := r, result := .raised (.node ("Command not found: " ++ id) none) }
    writeClipboard := fun s r =>
      play h.clipboard () (r.note [.str "host.write_clipboard", .str s]) }

def indexProvider (i : Index) : IndexProvider Rehearsal :=
  { upload := fun setting path content r =>
      let r := r.note [.str "rag.upload", .str setting, .str path, .str content]
      let count := r.uploads + 1
      let reply := play i.upload ("files/" ++ toString count) r
      match reply.result with
      | .returned _ => { reply with world := { reply.world with uploads := count } }
      | _ => reply
    delete := fun setting path r =>
      play i.delete () (r.note [.str "rag.delete", .str setting, .str path]) }

/-- A workflow of the script by its path and name. -/
def findWorkflow (known : List (String × Except Fault Value)) (path : String)
    (name : Option String) : Except Fault Workflow :=
  let key := match name with
    | some name => path ++ "#" ++ name
    | none => path
  match Entries.get? key known with
  | some (.ok v) => Workflow.ofValue v none
  | some (.error f) => .error f
  | none => .error (.load ("Sub-workflow not found: " ++ key) [])

def resolve (known : List (String × Except Fault Value)) (path : String) (name : Option String) :
    Call Rehearsal Workflow := fun r =>
  match findWorkflow known path name with
  | .ok w => { world := r, result := .returned w }
  | .error f => { world := r, result := .raised f }

def clock (now : Number.Binary64) : Clock Rehearsal :=
  { now := fun r => (now, r)
    timestamp := fun r => ("", r)
    freshId := fun r => ("", r)
    sleep := fun ms r =>
      let seconds := Number.Binary64.ofQuotient (ms < 0) ms.natAbs 1000
      let r := r.note [.str "sleep", .float seconds]
      match r.sleep with
      | e :: rest => play e () { r with sleep := rest }
      | [] => { world := r, result := .returned () } }

end Rehearsal

namespace Script

/-- The providers that a script stands for. -/
def providers (s : Script) : Providers Rehearsal :=
  { clock := Rehearsal.clock s.now
    model := s.model.map fun _ => Rehearsal.generate
    http := s.http.map fun _ => Rehearsal.fetch
    tools := s.tools.map fun _ => Rehearsal.callTool
    vault := s.vault.map fun v => Rehearsal.vaultProvider v s.now
    workflows := s.workflows.map Rehearsal.resolve
    interaction := s.interaction.map fun _ => Rehearsal.respond
    host := s.host.map Rehearsal.hostProvider
    index := s.index.map Rehearsal.indexProvider
    history := s.history.map fun failure record r => (failure, { r with kept := record :: r.kept })
    selection := s.selection }

/-- A listener that keeps what it hears; it fires the token at a given number of steps, and may
fail after that. -/
def listener (fireAt : Option Nat) (failure : Option Fault) : Listener Rehearsal := fun step r =>
  let r := { r with heard := step :: r.heard }
  { world := r, fires := some r.heard.length == fireAt, failed := failure }

/-- Runs a workflow in the world of the script. -/
def rehearse (s : Script) (w : Workflow) (bindings : List (String × Value))
    (fireAt : Option Nat) (failure : Option Fault) (fuel : Nat) : RunResult × Session Rehearsal :=
  let start : Start Rehearsal :=
    { providers := s.providers, workflow := w, bindings
      listeners := [listener fireAt failure], fired := fireAt == some 0 }
  start.run fuel (.ofScript s)

/-- Visits one node in the world of the script, outside of any run. -/
def visit (s : Script) (n : Node) (bindings : List (String × Value)) (firstVisit : Bool) :
    Except Halt Visit.Visited × Session Rehearsal :=
  let session : Session Rehearsal :=
    { world := .ofScript s, recorder := { record := { id := "", startTime := "" } } }
  Visit.visit Registry.builtin s.providers none n ⟨bindings⟩ firstVisit session

end Script
end Runbook
