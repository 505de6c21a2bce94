import Runbook.Provider
import Runbook.Settings
import Runbook.Text.Base64

/-! Text and images from a model behind a service.

The prompt and its attachments go out as the parts of one message. Of what comes back the
first candidate with content counts: its texts, without those that are thoughts, and its
images. -/
namespace Runbook.Generation

/-- A part of a message that is sent. -/
inductive Part
  | text (s : String)
  | bytes (content : List UInt8) (mimeType : String)
deriving DecidableEq, Repr

/-- What is asked of the service. -/
structure Query where
  model : String
  parts : List Part
  instruction : Option String := none
  /-- Whether the service may search the web. -/
  searches : Bool := false
deriving Repr

/-- A part of a message that comes back. -/
structure Piece where
  text : String := ""
  isThought : Bool := false
  /-- Bytes, with their media type if there is one. -/
  inline : Option (Option String × List UInt8) := none
deriving Repr

/-- A candidate's pieces, if it has content. -/
abbrev Candidate := Option (List Piece)

structure Answer where
  candidates : List Candidate := []
  /-- The numbers of tokens taken in, put out, and in all. -/
  usage : Option (Value × Value × Value) := none

/-- The setting of an index that stands for the web. -/
def webSetting : String := "__websearch__"

/-- The model for requests that name none: the one given, or else that of the environment. -/
def defaultModel (given : Option String) (env : Environment) : String :=
  match given.filter (!·.isEmpty) with
  | some name => name
  | none => (Entries.get? "GEMINI_MODEL_NAME" env).getD ({} : Settings).modelName

def attachmentPart (a : Attachment) : Except Fault Part :=
  match Base64.decode a.data.toList with
  | .ok content => .ok (.bytes content a.mimeType)
  | .error e => .error (.badBase64 e)

/-- The model that a request is for. -/
def modelFor (default : String) (q : ModelRequest) : String :=
  (q.model.filter (!·.isEmpty)).getD default

/-- What is asked for a request. -/
def query (default : String) (q : ModelRequest) : Except Fault Query := do
  return {
    model := modelFor default q
    parts := .text q.prompt :: (← q.attachments.mapM attachmentPart)
    instruction := q.systemPrompt.filter (!·.isEmpty)
    searches := q.ragSetting == some webSetting }

/-! ### Answers -/

/-- The text of a piece, where it has one that is no thought. -/
def Piece.said? (p : Piece) : Option String :=
  if p.text.isEmpty || p.isThought then none else some p.text

/-- The image of a piece without a text of its own. -/
def Piece.image? (p : Piece) : Option Attachment :=
  match p.said?, p.inline with
  | none, some (mime, content) =>
    if content.isEmpty then none
    else
      let mimeType := (mime.filter (!·.isEmpty)).getD "image/png"
      some { mimeType, data := Base64.text content }
  | _, _ => none

def usageValue : Value × Value × Value → Value
  | (input, output, total) =>
    .record [("inputTokens", input), ("outputTokens", output), ("totalTokens", total)]

/-- What an answer comes to. -/
def result (model : String) (a : Answer) : ModelResult :=
  let pieces := (a.candidates.filterMap id).headD []
  { text := String.join (pieces.filterMap Piece.said?)
    model
    images := pieces.filterMap Piece.image?
    usage := (a.usage.map usageValue).getD (.map []) }

variable {σ : Type}

/-- Asks the service for what a request wants. -/
def generate (ask : Query → Call σ Answer) (default : String) (q : ModelRequest) :
    Call σ ModelResult := fun world =>
  match query default q with
  | .error f => { world, result := .raised f }
  | .ok query =>
    let reply := ask query world
    let result := match reply.result with
      | .returned a => .returned (result query.model a)
      | .raised f => .raised f
      | .hung => .hung
      | .cancelled => .cancelled
    { world := reply.world, fires := reply.fires, result }

end Runbook.Generation
