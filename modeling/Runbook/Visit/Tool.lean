import Runbook.Literal
import Runbook.Visit.Context

/-! Reading data text, and calling tools with it. -/
namespace Runbook.Visit

variable {σ : Type}

/-- Reads the data text in a variable. -/
def readData (c : Context σ) : Act σ Outcome := do
  let source := c.trimmed "source"
  if source.isEmpty then c.fail "JSON node missing 'source' property"
  if (c.trimmed "saveTo").isEmpty then c.fail "JSON node missing 'saveTo' property"
  match c.scope.get? source with
  | none => c.fail ("Variable '" ++ source ++ "' not found")
  | some v =>
    match Literal.load v with
    | .ok v => return { output := v, writes := c.writes [("saveTo", v)] }
    | .error f =>
      if f.isBadValue then c.fail ("Failed to parse JSON from '" ++ source ++ "': " ++ f.message)
      else Act.fail f

/-- The mapping that a property gives as data text; a blank one gives none. -/
def mappingIn (c : Context σ) (name : String) : Except Fault (Option Value) :=
  let s := c.property name
  if Text.blank s.toList then .ok none
  else match Json.parse s with
    | .ok (.map entries) => .ok (some (.map entries))
    | .ok _ => .error (c.fault ("MCP " ++ name ++ " must be a JSON object"))
    | .error f =>
      .error (if f.isBadValue then c.fault ("Invalid JSON in MCP " ++ name ++ ": " ++ s) else f)

/-- Calls a tool of a server. -/
def callTool (c : Context σ) : Act σ Outcome := do
  let url := c.trimmed "url"
  let tool := c.trimmed "tool"
  if url.isEmpty then c.fail "MCP node missing 'url' property"
  if tool.isEmpty then c.fail "MCP node missing 'tool' property"
  let headers ← Act.ofExcept (mappingIn c "headers")
  let args ← Act.ofExcept (mappingIn c "args")
  let client ← c.require "mcp" c.providers.tools
  let result ← Act.call (client url tool (args.getD (.map [])) headers)
  let text ← Act.ofExcept result.text
  if result.isError then c.fail ("MCP tool execution failed: " ++ text)
  return { output := .str text, writes := c.writes [("saveTo", .str text)] }

end Runbook.Visit
