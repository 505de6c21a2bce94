import Runbook.Arguments
import Runbook.Run
import Runbook.Workstation

/-! One call of the program on a workstation.

The words of the command line and the environment say which workflow to run and where its
vault and its history are. The workflow is loaded and looked over; then it is run, every
closed step is reported on a line, and the end is reported with its status. The program ends
with zero exactly where the run is completed. -/
namespace Runbook

namespace Invocation

/-- How the program ends. -/
inductive Exit
  | code (n : Nat)
  /-- Nothing was run. -/
  | stopped (s : Arguments.Stop)
  /-- A failure that no report covers. -/
  | raised (f : Fault)
  | interrupted
  /-- The run was given too few steps. -/
  | unfinished
deriving Repr

/-! ### Reports -/

/-- The word for the status of a closed step. -/
def marker : StepStatus → String
  | .success => "ok"
  | .error => "FAILED"
  | status => status.word

def stepLine (s : Step) : String :=
  let error := match s.error.filter (!·.isEmpty) with
    | some e => ": " ++ e
    | none => ""
  "  [" ++ marker s.status ++ "] " ++ s.nodeId ++ " (" ++ s.kind ++ ")" ++ error

/-- Reports each closed step on the terminal. -/
def reporter : Listener Workstation := fun s w => { world := w.say (stepLine s) }

def endLine (r : Record) : String :=
  "\nWorkflow " ++ r.status.word ++ " (" ++ toString r.steps.length ++ " steps)"

/-- The report of a finished run, and its exit. -/
def report (r : Record) (w : Workstation) : Exit × Workstation :=
  let w := w.say (endLine r)
  let w := match r.errorNodeId.filter (!·.isEmpty) with
    | some id => w.say ("Failed at node '" ++ id ++ "'")
    | none => w
  (.code (if r.status = .completed then 0 else 1), w)

/-! ### The call -/

/-- The first of some texts that is not empty. -/
def firstGiven (given : Option String) (default : String) : String :=
  (given.filter (!·.isEmpty)).getD default

/-- The folder of the history, unless no history is kept. -/
def historyFolder (a : Arguments) (s : Settings) : Option String :=
  if a.keepsHistory then (some (firstGiven a.historyFolder s.historyFolder)).filter (!·.isEmpty)
  else none

def vaultFolder (a : Arguments) (s : Settings) : String := firstGiven a.vaultFolder s.vaultFolder

/-- What is to be run: the workflow and its first variables. -/
def load (a : Arguments) (w : Workstation) :
    Except Fault (Workflow × List (String × Value)) := do
  let workflow ← Workflow.ofFile w.tree w.folder a.workflow a.name
  return (workflow, ← Arguments.variablesOf a.assignments)

/-- Whether a failure to load is reported; any other one leaves the program. -/
def isReported (f : Fault) : Bool := f.isWorkflow || f.isBadValue || f.isOutsideSystem

/-- Runs a workflow and reports it. -/
def start (workflow : Workflow) (bindings : List (String × Value))
    (providers : Providers Workstation) (fuel : Nat) (w : Workstation) : Exit × Workstation :=
  let run : Start Workstation := { providers, workflow, bindings, listeners := [reporter] }
  let (result, s) := run.run fuel w
  match result with
  | .record r => report r s.world
  | .raised f => (.raised f, s.world)
  | .taskCancelled => (.interrupted, s.world)
  | .unfinished => (.unfinished, s.world)

/-- Does what the arguments ask for. -/
def perform (a : Arguments) (settings : Settings) (fuel : Nat) (w : Workstation) :
    Exit × Workstation :=
  match load a w with
  | .error f =>
    if isReported f then (.code 1, w.say ("Failed to load workflow: " ++ f.message))
    else (.raised f, w)
  | .ok (workflow, bindings) =>
    match Registry.builtin.findings workflow with
    | [] =>
      let w := w.say ("Running workflow '" ++ workflow.name ++ "' from " ++ a.workflow ++ "...")
      let providers := w.providers settings (vaultFolder a settings) (historyFolder a settings)
      start workflow bindings providers fuel w
    | findings =>
      (.code 1, findings.foldl (fun w f => w.say ("  - " ++ f)) (w.say "Validation errors:"))

/-- The paths that a call looks at. -/
def places (words : List String) (env : Environment) : List String :=
  match Arguments.ofWords words, Settings.ofEnvironment env with
  | .ok a, .ok s => [a.workflow, vaultFolder a s] ++ (historyFolder a s).toList
  | _, _ => []

end Invocation

/-- Calls the program with the words behind its name; the run may make at most so many
visits. -/
def invoke (words : List String) (env : Environment) (fuel : Nat) (w : Workstation) :
    Invocation.Exit × Workstation :=
  match Arguments.ofWords words with
  | .error stop => (.stopped stop, w)
  | .ok a =>
    match Settings.ofEnvironment env with
    | .error f => (.raised f, w)
    | .ok settings => Invocation.perform a settings fuel w

end Runbook
