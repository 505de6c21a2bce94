import Runbook.Http.Message
import Runbook.Interaction
import Runbook.Record
import Runbook.Workflow

/-! The outside of a run: what nodes may ask for, and what may come of asking.

A provider is a function on the state `σ` of the world around the run. A call changes that
world, may fire the token of the run while it is under way, and then returns, fails, or does
not come back: it hangs, or the task that runs the workflow is cancelled meanwhile. Any
provider may be missing. -/
namespace Runbook

/-- What came of a call. -/
inductive Result (α : Type)
  | returned (a : α)
  | raised (f : Fault)
  /-- The call never returns. -/
  | hung
  /-- The task of the run was cancelled while the call was under way. -/
  | cancelled
deriving Repr

structure Reply (σ α : Type) where
  world : σ
  /-- Whether the token fired while the call was under way. -/
  fires : Bool := false
  result : Result α

abbrev Call (σ α : Type) := σ → Reply σ α

/-- A call that returns at once and changes nothing. -/
def Call.pure {σ α : Type} (a : α) : Call σ α := fun world => { world, result := .returned a }

/-! ### Requests and results -/

/-- Binary content that goes along with a prompt or comes back, in base 64. -/
structure Attachment where
  mimeType : String
  data : String
  name : String := ""
deriving DecidableEq, Repr

structure ModelRequest where
  prompt : String
  model : Option String := none
  systemPrompt : Option String := none
  ragSetting : Option String := none
  vaultTools : Option String := none
  toolServers : List String := []
  attachments : List Attachment := []
deriving Repr

structure ModelResult where
  text : String := ""
  model : String := ""
  images : List Attachment := []
  usage : Value := .map []
deriving Repr

/-- What a tool gave back, in blocks of content. -/
structure ToolResult where
  content : List Value := []
  isError : Bool := false
deriving Repr

namespace ToolResult

/-- The texts of the text blocks; a block must be a mapping. -/
def texts : List Value → Except Fault (List Value)
  | [] => .ok []
  | .map entries :: rest => do
    let here := match Entries.get? (.str "type") entries with
      | some (.str "text") => [(Entries.get? (.str "text") entries).getD (.str "")]
      | _ => []
    return here ++ (← texts rest)
  | _ :: _ => .error .noSuchField

/-- Texts one a line. -/
def joined : List Value → Except Fault (List (List Char))
  | [] => .ok []
  | .str s :: rest => do return s.toList :: (← joined rest)
  | _ :: _ => .error .wrongType

def text (r : ToolResult) : Except Fault String := do
  return String.ofList (Text.join ['\n'] (← joined (← texts r.content)))

end ToolResult

/-- When a file was made and last changed, in seconds. -/
structure FileTimes where
  created : Number.Binary64
  modified : Number.Binary64

/-! ### Providers -/

structure VaultProvider (σ : Type) where
  readText : String → Call σ String
  readBytes : String → Call σ (List UInt8)
  writeText : String → String → Call σ Unit
  writeBytes : String → List UInt8 → Call σ Unit
  has : String → Call σ Bool
  /-- Every file at any depth. -/
  listFiles : Call σ (List String)
  listFolders : Call σ (List String)
  times : String → Call σ FileTimes
  tags : String → Call σ (List String)

structure HostProvider (σ : Type) where
  openFile : String → Call σ Unit
  execute : String → Option String → Call σ Unit
  writeClipboard : String → Call σ Unit

/-- An index of notes, one for each setting. -/
structure IndexProvider (σ : Type) where
  upload : (setting path content : String) → Call σ String
  delete : (setting path : String) → Call σ Unit

/-- Time and names for records. -/
structure Clock (σ : Type) where
  /-- The seconds since the epoch. -/
  now : σ → Number.Binary64 × σ
  /-- The present as it is written in records. -/
  timestamp : σ → String × σ
  freshId : σ → String × σ
  /-- Waits for a number of milliseconds. -/
  sleep : Int → Call σ Unit

structure Providers (σ : Type) where
  clock : Clock σ
  model : Option (ModelRequest → Call σ ModelResult) := none
  http : Option (Http.Request → Call σ Http.Response) := none
  /-- Calls a tool of the server at an address, with arguments and header fields. -/
  tools : Option ((url tool : String) → (args : Value) → (headers : Option Value) →
    Call σ ToolResult) := none
  vault : Option (VaultProvider σ) := none
  /-- Finds a workflow by its path and, if given, its name. -/
  workflows : Option ((path : String) → (name : Option String) → Call σ Workflow) := none
  interaction : Option (Interaction.Request → Call σ (Option Interaction.Response)) := none
  host : Option (HostProvider σ) := none
  index : Option (IndexProvider σ) := none
  /-- Keeps a finished record, or fails. -/
  history : Option (Record → σ → Option Fault × σ) := none
  /-- The text selected where the run was started. -/
  selection : Option String := none

end Runbook
