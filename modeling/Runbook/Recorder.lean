import Runbook.Fault
import Runbook.Record

/-! Recording a run.

A step is opened when its node is begun and stays open until it is closed; closing appends it
to the record and tells every listener. A step can be closed once: the ticket that it was
opened under is then gone. What a listener does to the world stays, also where it fails. -/
namespace Runbook

/-- What came of telling a listener: the world after it, whether it fired the token of the
run, and why it failed, if it did. -/
structure Heard (σ : Type) where
  world : σ
  fires : Bool := false
  failed : Option Fault := none

abbrev Listener (σ : Type) := Step → σ → Heard σ

/-- A step under the ticket it was opened with. -/
structure Opened where
  ticket : Nat
  step : Step
deriving Repr

/-- How a step is closed; without an input of its own it keeps the one it was opened with. -/
structure Closing where
  status : StepStatus
  output : Value := .null
  error : Option String := none
  input : Option (List (String × Value)) := none

structure Recorder (σ : Type) where
  record : Record
  /-- The open steps in the order of opening. -/
  opened : List Opened := []
  /-- The ticket for the next step. -/
  tickets : Nat := 0
  listeners : List (Listener σ) := []

namespace Recorder

variable {σ : Type}

def listen (r : Recorder σ) (l : Listener σ) : Recorder σ :=
  { r with listeners := r.listeners ++ [l] }

/-- Opens a step. -/
def begin (r : Recorder σ) (step : Step) : Opened × Recorder σ :=
  let o : Opened := ⟨r.tickets, step⟩
  (o, { r with opened := r.opened ++ [o], tickets := r.tickets + 1 })

def isOpen (r : Recorder σ) (ticket : Nat) : Bool := r.opened.any (·.ticket == ticket)

/-- A step as it is once it is closed. -/
def Closing.apply (c : Closing) (s : Step) : Step :=
  { s with status := c.status, output := c.output, error := c.error, input := c.input.getD s.input }

/-- Closes a step; one that is not open cannot be closed. -/
def close (r : Recorder σ) (o : Opened) (c : Closing) : Except Fault (Step × Recorder σ) :=
  if r.isOpen o.ticket then
    let step := Closing.apply c o.step
    .ok (step,
      { r with
        opened := r.opened.filter (·.ticket != o.ticket)
        record := { r.record with steps := r.record.steps ++ [step] } })
  else .error (.badValue ("Step for node '" ++ o.step.nodeId ++ "' is not open"))

/-- Tells each listener of a step in turn; the result says whether one fired the token. -/
def tell (step : Step) : List (Listener σ) → σ → σ × Bool
  | [], world => (world, false)
  | l :: rest, world =>
    let heard := l step world
    let (world, fires) := tell step rest heard.world
    (world, heard.fires || fires)

/-- Ends the record. -/
def finish (r : Recorder σ) (status : RunStatus) (endTime : String)
    (bindings : List (String × Value)) (errorNodeId : Option String) : Recorder σ :=
  { r with
    record :=
      { r.record with
        status := status
        endTime := some endTime
        bindings := bindings
        errorNodeId := errorNodeId } }

end Recorder
end Runbook
