import Runbook.Provider
import Runbook.Recorder

/-! One run under way.

A session is the world around the run, whether its token has fired, and its recorder. An
action either comes to a value or halts: on a failure, because the run is aborted, or because
it does not end. The session goes on from every halt, since what was done remains done. -/
namespace Runbook

structure Session (σ : Type) where
  world : σ
  /-- Whether the token of the run has fired. -/
  fired : Bool := false
  recorder : Recorder σ

/-- What aborts a run while a call is under way. -/
inductive Abort
  | token
  | task
deriving DecidableEq, Repr

/-- Why an action came to no value. -/
inductive Halt
  | fault (f : Fault)
  | aborted (a : Abort)
  /-- It hangs, or it was given too few steps to end. -/
  | unfinished
deriving Repr

abbrev Act (σ α : Type) := ExceptT Halt (StateM (Session σ)) α

namespace Act

variable {σ α : Type}

def fail (f : Fault) : Act σ α := throw (.fault f)

def ofExcept : Except Fault α → Act σ α
  | .ok a => pure a
  | .error f => fail f

/-- Calls a provider. A call that hangs is aborted by the token; without the token nothing
ends it. -/
def call (c : Call σ α) : Act σ α := fun s =>
  let r := c s.world
  let s := { s with world := r.world, fired := s.fired || r.fires }
  match r.result with
  | .returned a => (.ok a, s)
  | .raised f => (.error (.fault f), s)
  | .hung => (.error (if s.fired then .aborted .token else .unfinished), s)
  | .cancelled => (.error (.aborted .task), s)

/-- Reads something of the world. -/
def ask (f : σ → α × σ) : Act σ α := fun s =>
  let (a, world) := f s.world
  (.ok a, { s with world := world })

/-- Runs an action whose failure does not count, only whether there was one; an abort still
counts. -/
def succeeds (act : Act σ α) : Act σ Bool := fun s =>
  match act s with
  | (.ok _, s) => (.ok true, s)
  | (.error (.fault _), s) => (.ok false, s)
  | (.error halt, s) => (.error halt, s)

/-- Runs an action with its failures changed. -/
def mapFault (change : Fault → Fault) (act : Act σ α) : Act σ α := fun s =>
  match act s with
  | (.error (.fault f), s) => (.error (.fault (change f)), s)
  | r => r

end Act
end Runbook
