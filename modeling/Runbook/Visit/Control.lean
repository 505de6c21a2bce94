import Runbook.Condition.Evaluation
import Runbook.Expression
import Runbook.Visit.Context

/-! Variables, conditions and waiting. -/
namespace Runbook.Visit

variable {σ : Type}

/-- Binds a literal to a name. -/
def literal (c : Context σ) : Act σ Outcome := do
  let name := c.trimmed "name"
  if name.isEmpty then c.fail "Variable node missing 'name' property"
  let v := Literal.coerce (c.property "value")
  return { output := v, writes := [(name, v)] }

/-- The variable whose value also goes to the clipboard of the host. -/
def clipboardName : String := "_clipboard"

/-- Writes a value to the clipboard, if it can be written. -/
def copy (host : HostProvider σ) (v : Value) : Act σ Unit := do
  let text ← Act.ofExcept (Literal.stringify v)
  Act.call (host.writeClipboard text)

/-- Binds the value of an expression to a name. -/
def compute (c : Context σ) : Act σ Outcome := do
  let name := c.trimmed "name"
  if name.isEmpty then c.fail "Set node missing 'name' property"
  let v ← Act.ofExcept (Expression.evaluate (c.property "value"))
  if name == clipboardName then
    match c.providers.host with
    | some host => let _ ← (copy host v).succeeds
    | none => pure ()
  return { output := v, writes := [(name, v)] }

/-- The outcome of a condition. One that has no value does not hold, and that is an error,
except where a loop is met for the first time: the loop is then not entered. -/
def decided (skips : Bool) : Bool × Option String → Outcome
  | (b, none) => { output := .bool b, branch := some b }
  | (_, some message) =>
    if skips then { output := .bool false, branch := some false }
    else { output := .bool false, branch := some false, status := .error, error := some message }

/-- Evaluates the condition as it was written: its operands are filled one by one. -/
def condition (c : Context σ) (skips : Bool) : Act σ Outcome := do
  let written := (Entries.get? "condition" c.properties).getD ""
  return decided skips (← Act.ofExcept (Condition.evaluateOrFalse written c.scope))

def branch (c : Context σ) : Act σ Outcome := condition c false

def loop (c : Context σ) : Act σ Outcome := condition c c.firstVisit

/-- Waits for a number of milliseconds. -/
def sleep (c : Context σ) : Act σ Outcome := do
  let duration ← Act.ofExcept (c.number "duration" 0)
  if 0 < duration then Act.call (c.providers.clock.sleep duration)
  return { output := .int duration }

end Runbook.Visit
