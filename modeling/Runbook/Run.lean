import Runbook.Visit.Dispatch

/-! Running a workflow.

A walk goes from node to node: it begins a step, visits the node, binds what the outcome
says, closes the step and follows the graph. The steps of nested walks carry the ids of the
steps they run inside. A run is the outermost walk; whichever way that ends, its record is
finished and handed to the history.

The token is looked at before every node. While a call is under way it aborts the call, and
every open step is closed from the innermost outwards. Where the task itself is cancelled,
the outermost step is closed and the record kept before the inner steps are closed. -/
namespace Runbook

/-- The error of every step that a cancellation closes. -/
def cancelledMessage : String := "Execution cancelled"

/-- How a walk ends. -/
inductive Ending
  /-- No node follows. -/
  | finished
  /-- The token fired, or the user dismissed a request and nothing follows that. -/
  | cancelled (reason : String)
  /-- A node failed; the id is that of its step. -/
  | failed (message stepId : String)
  | aborted (a : Abort)
  /-- What no step can report left the walk. -/
  | left (f : Fault)
  /-- The walk was given too few steps, or waits for ever. -/
  | unfinished
deriving Repr

/-- Where a walk stands: the node to visit next, the nodes visited before, and the scope. -/
structure Place where
  current : String
  visited : List String := []
  scope : Scope

/-- What a walk does at a place: it goes on at another one, or it ends with a scope. -/
inductive Progress
  | goOn (place : Place)
  | ended (e : Ending) (scope : Scope)

variable {σ : Type}

/-- What stays the same on a walk; `path` stands in front of the ids of its steps. -/
structure Walk (σ : Type) where
  registry : Registry Kind
  providers : Providers σ
  workflow : Workflow
  path : String := ""

namespace Walk

def stepId (w : Walk σ) (n : Node) : String := w.path ++ n.id

/-- Whether this is the outermost walk of its run. -/
def isOutermost (w : Walk σ) : Bool := w.path == ""

/-- A workflow as it is walked inside a step. -/
def inside (w : Walk σ) (stepId : String) (workflow : Workflow) : Walk σ :=
  { w with workflow := workflow, path := stepId ++ "/" }

/-- Opens a step for a visit. -/
def openStep (w : Walk σ) (n : Node) (s : Session σ) : Opened × Session σ :=
  let (timestamp, world) := w.providers.clock.timestamp s.world
  let (o, recorder) := s.recorder.begin
    { nodeId := w.stepId n, kind := n.kind, timestamp,
      input := n.properties.map fun (name, v) => (name, .str v) }
  (o, { s with world, recorder })

end Walk

/-- Closes a step and tells the listeners; firing the token is theirs too. -/
def Session.close (s : Session σ) (o : Opened) (c : Closing) : Session σ :=
  match s.recorder.close o c with
  | .ok (step, recorder) =>
    let (world, fires) := Recorder.tell step recorder.listeners s.world
    { world, fired := s.fired || fires, recorder }
  | .error _ => s

/-- The closing of a step that a cancellation ends. -/
def cancelledClosing : Closing := { status := .error, error := some cancelledMessage }

/-- The failure of the step that a nested walk runs in. -/
def nestedFault (workflow : Workflow) (stepId message failedAt : String) : Fault :=
  .nested ("Sub-workflow '" ++ workflow.name ++ "' failed at '" ++ failedAt ++ "': " ++ message)
    (some stepId)

/-- The end of a nested walk as its step sees it: a scope, or why there is none. -/
def Ending.toExcept (e : Ending) (workflow : Workflow) (stepId : String) (scope : Scope) :
    Except Halt Scope :=
  match e with
  | .finished => .ok scope
  | .cancelled reason => .error (.fault (.cancelled reason))
  | .failed message failedAt => .error (.fault (nestedFault workflow stepId message failedAt))
  | .aborted a => .error (.aborted a)
  | .left f => .error (.fault f)
  | .unfinished => .error .unfinished

namespace Walk

/-- Runs a nested walk from a scope to its end. -/
abbrev Runner (σ : Type) := Walk σ → Scope → Session σ → (Ending × Scope) × Session σ

/-- How nodes run other workflows inside a step. -/
def nestedRun (w : Walk σ) (run : Runner σ) (stepId : String) (workflow : Workflow)
    (scope : Scope) : Act σ Scope := fun s =>
  let ((e, scope), s) := run (w.inside stepId workflow) scope s
  (e.toExcept workflow stepId scope, s)

/-- The place behind a node, or the end of the walk. -/
def follow (place : Place) (n : Node) (target : Option String) (scope : Scope) : Progress :=
  match target with
  | some target => .goOn { current := target, visited := place.visited.insert n.id, scope }
  | none => .ended .finished scope

/-- The end of a visit that came to an outcome: its variables are bound and its step is closed.
A name that cannot be bound leaves the walk, with the step still open. -/
def settle (w : Walk σ) (place : Place) (n : Node) (o : Opened) (v : Visit.Visited)
    (s : Session σ) : Progress × Session σ :=
  match place.scope.setAll v.outcome.writes with
  | (scope, some f) => (.ended (.left f) scope, s)
  | (scope, none) =>
    let s := s.close o
      { status := v.outcome.status, output := v.outcome.output, error := v.outcome.error,
        input := some (v.properties.map fun (name, v) => (name, .str v)) }
    (follow place n (w.workflow.successor n v.outcome.branch) scope, s)

/-- Where the walk goes when the user dismissed a request: to the node's own pointer for that,
or else the run is cancelled. -/
def dismissed (place : Place) (n : Node) (reason : String) : Progress :=
  match Workflow.pointed? n.onCancel with
  | none => .ended (.cancelled reason) place.scope
  | some target =>
    follow place n (if target = Workflow.endMark then none else some target) place.scope

/-- The end of a visit that came to no outcome. -/
def settleHalt (w : Walk σ) (place : Place) (n : Node) (o : Opened) (h : Halt)
    (s : Session σ) : Progress × Session σ :=
  match h with
  | .unfinished => (.ended .unfinished place.scope, s)
  | .aborted a =>
    if a = .task && !w.isOutermost then (.ended (.aborted a) place.scope, s)
    else (.ended (.aborted a) place.scope, s.close o cancelledClosing)
  | .fault (.cancelled reason) =>
    (.ended (.cancelled reason) place.scope, s.close o cancelledClosing)
  | .fault (.declined reason) =>
    (dismissed place n reason, s.close o { status := .skipped, error := some reason })
  | .fault f =>
    let s := s.close o { status := .error, error := some f.message }
    if n.bestEffort then (follow place n (w.workflow.successor n none) place.scope, s)
    else (.ended (.failed f.message (w.stepId n)) place.scope, s)

/-- One visit, from the place where the walk stands. -/
def advance (w : Walk σ) (run : Runner σ) (place : Place) (s : Session σ) :
    Progress × Session σ :=
  if s.fired then (.ended (.cancelled cancelledMessage) place.scope, s)
  else match w.workflow.node? place.current with
    | none => (.ended (.left (.noSuchKey place.current)) place.scope, s)
    | some n =>
      let (o, s) := w.openStep n s
      let act := Visit.visit w.registry w.providers (some (w.nestedRun run (w.stepId n))) n
        place.scope (!place.visited.contains n.id)
      match act s with
      | (.ok v, s) => w.settle place n o v s
      | (.error h, s) => w.settleHalt place n o h s

/-- Where a walk starts. -/
def start? (w : Walk σ) (scope : Scope) : Option Place :=
  w.workflow.entry?.map fun n => { current := n.id, scope }

/-- Walks on from a place for at most so many visits, at any depth. -/
def walkFrom : Nat → Walk σ → Place → Session σ → (Ending × Scope) × Session σ
  | 0, _, place, s => ((.unfinished, place.scope), s)
  | fuel + 1, w, place, s =>
    let run : Runner σ := fun w scope s =>
      match w.start? scope with
      | some place => walkFrom fuel w place s
      | none => ((.finished, scope), s)
    match w.advance run place s with
    | (.goOn place, s) => walkFrom fuel w place s
    | (.ended e scope, s) => ((e, scope), s)

/-- Walks from the first node. -/
def walk (fuel : Nat) : Runner σ := fun w scope s =>
  match w.start? scope with
  | some place => walkFrom fuel w place s
  | none => ((.finished, scope), s)

end Walk

/-! ### Runs -/

/-- What comes out of a run. -/
inductive RunResult
  | record (r : Record)
  /-- A failure left the run. -/
  | raised (f : Fault)
  /-- The task of the run was cancelled; its record was kept before. -/
  | taskCancelled
  | unfinished
deriving Repr

/-- What a run is given. -/
structure Start (σ : Type) where
  registry : Registry Kind := Registry.builtin
  providers : Providers σ
  workflow : Workflow
  bindings : List (String × Value) := []
  listeners : List (Listener σ) := []
  /-- Whether the token has fired already. -/
  fired : Bool := false

namespace Start

/-- The session at the beginning of a run. -/
def session (r : Start σ) (world : σ) : Session σ :=
  let (id, world) := r.providers.clock.freshId world
  let (startTime, world) := r.providers.clock.timestamp world
  { world
    fired := r.fired
    recorder :=
      { record :=
          { id, startTime, workflowName := r.workflow.name, workflowPath := r.workflow.path }
        listeners := r.listeners } }

/-- Finishes the record and hands it to the history; only a failure of the system is passed
over there. -/
def finish (r : Start σ) (status : RunStatus) (scope : Scope) (errorNodeId : Option String)
    (s : Session σ) : Option Fault × Session σ :=
  let (endTime, world) := r.providers.clock.timestamp s.world
  let recorder := s.recorder.finish status endTime scope.bindings errorNodeId
  match r.providers.history with
  | none => (none, { s with world, recorder })
  | some save =>
    let (failure, world) := save recorder.record world
    let failure := failure.filter fun f => !f.isOutsideSystem
    (failure, { s with world, recorder })

/-- Closes every step that is still open, the innermost first. -/
def closeAll (s : Session σ) : Session σ :=
  s.recorder.opened.reverse.foldl (fun s o => s.close o cancelledClosing) s

/-- The result of a run whose record is finished. -/
def closed (r : Start σ) (status : RunStatus) (scope : Scope) (errorNodeId : Option String)
    (s : Session σ) : RunResult × Session σ :=
  match r.finish status scope errorNodeId s with
  | (none, s) => (.record s.recorder.record, s)
  | (some f, s) => (.raised f, s)

/-- The result of a run whose outermost walk ended. -/
def conclude (r : Start σ) (e : Ending) (scope : Scope) (s : Session σ) :
    RunResult × Session σ :=
  match e with
  | .finished => r.closed .completed scope none s
  | .cancelled _ | .aborted .token => r.closed .cancelled scope none s
  | .failed _ stepId => r.closed .error scope (some stepId) s
  | .aborted .task =>
    match r.finish .cancelled scope none s with
    | (none, s) => (.taskCancelled, closeAll s)
    | (some f, s) => (.raised f, closeAll s)
  | .left f => (.raised f, s)
  | .unfinished => (.unfinished, s)

/-- Runs a workflow from its first node, for at most so many visits. -/
def run (r : Start σ) (fuel : Nat) (world : σ) : RunResult × Session σ :=
  let w : Walk σ := { registry := r.registry, providers := r.providers, workflow := r.workflow }
  let ((e, scope), s) := Walk.walk fuel w ⟨r.bindings⟩ (r.session world)
  r.conclude e scope s

end Start
end Runbook
