import Runbook.Listing
import Runbook.Visit.Context

/-! Prompts to a model. -/
namespace Runbook.Visit

variable {σ : Type}

/-- The binary files among the named variables; text travels in the prompt itself. -/
def attachments (scope : Scope) : List String → Except Fault (List Attachment)
  | [] => .ok []
  | name :: rest => do
    let file ← FileData.ofValue? ((scope.get? name).getD .null)
    let here := match file with
      | some f =>
        if f.contentType == .binary && !f.data.isEmpty then [⟨f.mimeType, f.data, f.basename⟩]
        else []
      | none => []
    return here ++ (← attachments scope rest)

/-- The ending for an image: what its media type says behind the last slash. -/
def imageEnding (mime : String) : String :=
  let last := FileName.base mime
  if !last.isEmpty then last
  else
    let known := Mime.extension mime
    if known.isEmpty then "png" else known

/-- An image as a file; `position` counts from one. -/
def imageFile (position : Nat) (image : Attachment) : Value :=
  let name := "generated-image-" ++ toString position
  let ending := imageEnding image.mimeType
  let filename := name ++ "." ++ ending
  FileData.toValue
    { path := filename, basename := filename, name, extension := ending
      mimeType := image.mimeType, contentType := .binary, data := image.data }

def imageFiles (position : Nat) : List Attachment → List Value
  | [] => []
  | image :: rest => imageFile position image :: imageFiles (position + 1) rest

/-- Images as a variable holds them: one file, or the list of several. -/
def imagesValue (images : List Attachment) : Value :=
  match imageFiles 1 images with
  | [file] => file
  | files => .list files

def prompt (c : Context σ) : Act σ Outcome := do
  let text := c.property "prompt"
  if Text.blank text.toList then c.fail "Command node missing 'prompt' property"
  let model ← c.require "model" c.providers.model
  let attached ← Act.ofExcept (attachments c.scope (Listing.items (c.property "attachments")))
  let result ← Act.call (model {
    prompt := text
    model := c.optional "model"
    systemPrompt := c.optional "systemPrompt"
    ragSetting := c.optional "ragSetting"
    vaultTools := c.optional "vaultTools"
    toolServers := Listing.items (c.property "mcpServers")
    attachments := attached })
  let hasImages := !result.images.isEmpty
  let images := if hasImages then c.writes [("saveImageTo", imagesValue result.images)] else []
  let usage := if result.usage.truthy then [("usage", result.usage)] else []
  let count := if hasImages then [("images", .int result.images.length)] else []
  return {
    output := .record ([("text", .str result.text), ("model", .str result.model)] ++ usage ++ count)
    writes := Entries.merge (c.writes [("saveTo", .str result.text)]) images }

end Runbook.Visit
