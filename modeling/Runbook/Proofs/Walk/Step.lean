import Runbook.Proofs.Visit.Prelude
import Runbook.Run

/-! One step of a walk.

What a walk makes of a visit depends on nothing but what the visit came to: the way it goes on
from there is `Walk.onward`, and how it closes the step of the visit is `Walk.closing?`. It
leaves a step open where an outcome binds a name that cannot be bound, and where the task of the
run is cancelled inside a nested walk. `advance_eq` takes a whole step apart into opening, the
two parts of the visit, and closing. -/
namespace Runbook

open Visit

variable {σ : Type}

/-- The closing of a step by an outcome. -/
def Visit.Visited.closing (v : Visited) : Closing :=
  { status := v.outcome.status, output := v.outcome.output, error := v.outcome.error
    input := some (v.properties.map fun (name, s) => (name, .str s)) }

/-- Closes a step, if there is a closing for it. -/
def Session.closeWith (s : Session σ) (o : Opened) : Option Closing → Session σ
  | some c => s.close o c
  | none => s

/-- The variables where a walk stands, or where it ended. -/
def Progress.scope : Progress → Scope
  | .goOn place => place.scope
  | .ended _ scope => scope

namespace Walk

/-- How the walk closes the step of a visit, if it does. -/
def closing? (w : Walk σ) (scope : Scope) : Except Halt Visited → Option Closing
  | .ok v => match (scope.setAll v.outcome.writes).2 with
    | some _ => none
    | none => some v.closing
  | .error .unfinished => none
  | .error (.aborted a) => if a = .task && !w.isOutermost then none else some cancelledClosing
  | .error (.fault (.cancelled _)) => some cancelledClosing
  | .error (.fault (.declined reason)) => some { status := .skipped, error := some reason }
  | .error (.fault f) => some { status := .error, error := some f.message }

/-- Where the walk goes from a visit. -/
def onward (w : Walk σ) (place : Place) (n : Node) : Except Halt Visited → Progress
  | .ok v => match (place.scope.setAll v.outcome.writes).2 with
    | some f => .ended (.left f) (place.scope.setAll v.outcome.writes).1
    | none =>
      follow place n (w.workflow.successor n v.outcome.branch)
        (place.scope.setAll v.outcome.writes).1
  | .error .unfinished => .ended .unfinished place.scope
  | .error (.aborted a) => .ended (.aborted a) place.scope
  | .error (.fault (.cancelled reason)) => .ended (.cancelled reason) place.scope
  | .error (.fault (.declined reason)) => dismissed place n reason
  | .error (.fault f) =>
    if n.bestEffort then follow place n (w.workflow.successor n none) place.scope
    else .ended (.failed f.message (w.stepId n)) place.scope

section

variable (w : Walk σ) (place : Place) (n : Node) {v : Visited}

theorem onward_bound (h : (place.scope.setAll v.outcome.writes).2 = none) :
    w.onward place n (.ok v) =
      follow place n (w.workflow.successor n v.outcome.branch)
        (place.scope.setAll v.outcome.writes).1 := by
  simp only [onward, h]

theorem onward_refused {f : Fault} (h : (place.scope.setAll v.outcome.writes).2 = some f) :
    w.onward place n (.ok v) = .ended (.left f) (place.scope.setAll v.outcome.writes).1 := by
  simp only [onward, h]

theorem closing?_bound {scope : Scope} (h : (scope.setAll v.outcome.writes).2 = none) :
    w.closing? scope (.ok v) = some v.closing := by
  simp only [closing?, h]

theorem closing?_refused {scope : Scope} {f : Fault}
    (h : (scope.setAll v.outcome.writes).2 = some f) : w.closing? scope (.ok v) = none := by
  simp only [closing?, h]

end

/-- A failure that fails its node: the user neither cancelled the run nor dismissed a request. -/
structure Fails (f : Fault) : Prop where
  cancelled : ∀ reason, f ≠ .cancelled reason
  declined : ∀ reason, f ≠ .declined reason

/-- The walk takes a failure in one of three ways. -/
theorem taken (f : Fault) :
    (∃ reason, f = .cancelled reason) ∨ (∃ reason, f = .declined reason) ∨ Fails f := by
  cases f with
  | cancelled reason => exact .inl ⟨reason, rfl⟩
  | declined reason => exact .inr (.inl ⟨reason, rfl⟩)
  | _ => exact .inr (.inr ⟨nofun, nofun⟩)

theorem onward_fails (w : Walk σ) (place : Place) (n : Node) {f : Fault} (h : Fails f) :
    w.onward place n (.error (.fault f)) =
      if n.bestEffort then follow place n (w.workflow.successor n none) place.scope
      else .ended (.failed f.message (w.stepId n)) place.scope := by
  cases f with
  | cancelled reason => exact absurd rfl (h.cancelled reason)
  | declined reason => exact absurd rfl (h.declined reason)
  | _ => rfl

theorem closing?_fails (w : Walk σ) (scope : Scope) {f : Fault} (h : Fails f) :
    w.closing? scope (.error (.fault f)) = some { status := .error, error := some f.message } := by
  cases f with
  | cancelled reason => exact absurd rfl (h.cancelled reason)
  | declined reason => exact absurd rfl (h.declined reason)
  | _ => rfl

theorem follow_scope (place : Place) (n : Node) (target : Option String) (scope : Scope) :
    (follow place n target scope).scope = scope := by
  cases target <;> rfl

/-- How a walk treats a visit: what the visit came to, the closing of its step, if there is one, and
where the walk goes on from there. -/
inductive Treats (w : Walk σ) (place : Place) (n : Node) :
    Except Halt Visited → Option Closing → Progress → Prop
  | unfinished : w.Treats place n (.error .unfinished) none (.ended .unfinished place.scope)
  | aborted (a : Abort) :
    w.Treats place n (.error (.aborted a))
      (if a = .task && !w.isOutermost then none else some cancelledClosing)
      (.ended (.aborted a) place.scope)
  | cancelled (reason : String) :
    w.Treats place n (.error (.fault (.cancelled reason))) (some cancelledClosing)
      (.ended (.cancelled reason) place.scope)
  | dismissed (reason : String) (unset : Workflow.pointed? n.onCancel = none) :
    w.Treats place n (.error (.fault (.declined reason)))
      (some { status := .skipped, error := some reason }) (.ended (.cancelled reason) place.scope)
  | redirected (reason : String) {target : String}
      (set : Workflow.pointed? n.onCancel = some target) :
    w.Treats place n (.error (.fault (.declined reason)))
      (some { status := .skipped, error := some reason })
      (follow place n (if target = Workflow.endMark then none else some target) place.scope)
  | passed {f : Fault} (fails : Fails f) (passes : n.bestEffort = true) :
    w.Treats place n (.error (.fault f)) (some { status := .error, error := some f.message })
      (follow place n (w.workflow.successor n none) place.scope)
  | failed {f : Fault} (fails : Fails f) (fatal : n.bestEffort = false) :
    w.Treats place n (.error (.fault f)) (some { status := .error, error := some f.message })
      (.ended (.failed f.message (w.stepId n)) place.scope)
  | refused {v : Visited} {f : Fault}
      (unbound : (place.scope.setAll v.outcome.writes).2 = some f) :
    w.Treats place n (.ok v) none (.ended (.left f) (place.scope.setAll v.outcome.writes).1)
  | bound {v : Visited} (binds : (place.scope.setAll v.outcome.writes).2 = none) :
    w.Treats place n (.ok v) (some v.closing)
      (follow place n (w.workflow.successor n v.outcome.branch)
        (place.scope.setAll v.outcome.writes).1)

theorem treats (w : Walk σ) (place : Place) (n : Node) (r : Except Halt Visited) :
    w.Treats place n r (w.closing? place.scope r) (w.onward place n r) := by
  rcases r with h | v
  · cases h with
    | unfinished => exact .unfinished
    | aborted a => exact .aborted a
    | fault f =>
      rcases taken f with ⟨reason, rfl⟩ | ⟨reason, rfl⟩ | fails
      · exact .cancelled reason
      · simp only [closing?, onward, dismissed]
        split
        · exact .dismissed reason ‹_›
        · exact .redirected reason ‹_›
      · rw [w.closing?_fails place.scope fails, w.onward_fails place n fails]
        split
        · exact .passed fails ‹_›
        · exact .failed fails (Bool.eq_false_iff.mpr ‹_›)
  · cases binds : (place.scope.setAll v.outcome.writes).2 with
    | some f =>
      rw [w.closing?_refused binds, w.onward_refused place n binds]
      exact .refused binds
    | none =>
      rw [w.closing?_bound binds, w.onward_bound place n binds]
      exact .bound binds

/-- A visit that came to no outcome binds nothing. -/
theorem onward_halt_scope (w : Walk σ) (place : Place) (n : Node) (h : Halt) :
    (w.onward place n (.error h)).scope = place.scope := by
  have treats := w.treats place n (.error h)
  generalize w.closing? place.scope (.error h) = c, w.onward place n (.error h) = p at treats
  cases treats with
  | redirected | passed => exact follow_scope ..
  | _ => rfl

theorem onward_ok_scope (w : Walk σ) (place : Place) (n : Node) (v : Visited) :
    (w.onward place n (.ok v)).scope = (place.scope.setAll v.outcome.writes).1 := by
  have treats := w.treats place n (.ok v)
  generalize w.closing? place.scope (.ok v) = c, w.onward place n (.ok v) = p at treats
  cases treats with
  | refused => rfl
  | bound => exact follow_scope ..

/-- Only a visit that does not end leaves its walk without an end. -/
theorem onward_ends (w : Walk σ) (place : Place) (n : Node) {r : Except Halt Visited}
    (comes : r ≠ .error .unfinished) (scope : Scope) :
    w.onward place n r ≠ .ended .unfinished scope := by
  have follows (target : Option String) (after : Scope) :
      follow place n target after ≠ .ended .unfinished scope := by
    cases target <;> nofun
  have treats := w.treats place n r
  generalize w.closing? place.scope r = c, w.onward place n r = p at treats ⊢
  cases treats with
  | unfinished => exact absurd rfl comes
  | redirected | passed | bound => exact follows _ _
  | _ => nofun

theorem settle_eq (w : Walk σ) (place : Place) (n : Node) (o : Opened) (v : Visited)
    (s : Session σ) :
    w.settle place n o v s =
      (w.onward place n (.ok v), s.closeWith o (w.closing? place.scope (.ok v))) := by
  unfold settle
  rcases bound : place.scope.setAll v.outcome.writes with ⟨scope, _ | f⟩ <;>
    simp only [onward, closing?, bound, Session.closeWith, Visited.closing]

theorem settleHalt_eq (w : Walk σ) (place : Place) (n : Node) (o : Opened) (h : Halt)
    (s : Session σ) :
    w.settleHalt place n o h s =
      (w.onward place n (.error h), s.closeWith o (w.closing? place.scope (.error h))) := by
  cases h with
  | unfinished => rfl
  | aborted a =>
    simp only [settleHalt, onward, closing?]
    split <;> rfl
  | fault f =>
    cases f with
    | cancelled | declined => rfl
    | _ =>
      simp only [settleHalt, onward, closing?, Session.closeWith]
      split <;> rfl

/-- Whether the walk comes to a node for the first time. -/
def isFirst (place : Place) (n : Node) : Bool := !place.visited.contains n.id

/-- The first part of the visit to a node. -/
def prelude (w : Walk σ) (place : Place) (n : Node) : Session σ → Visit.Prelude σ × Session σ :=
  Visit.prelude w.registry w.providers n place.scope (isFirst place n)

theorem prelude_recorder {w : Walk σ} {place : Place} {n : Node} {s s₁ : Session σ}
    {p : Visit.Prelude σ} (h : w.prelude place n s = (p, s₁)) : s₁.recorder = s.recorder := by
  rw [show s₁ = (w.prelude place n s).2 by rw [h]]
  exact Visit.prelude_recorder _ _ _ _ _ s

theorem advance_eq {w : Walk σ} {place : Place} {n : Node} {s : Session σ} (run : Runner σ)
    (quiet : s.fired = false) (here : w.workflow.node? place.current = some n) :
    w.advance run place s =
      (let visit := Prelude.resume (w.nestedRun run (w.stepId n))
        (w.prelude place n (w.openStep n s).2)
      (w.onward place n visit.1,
        visit.2.closeWith (w.openStep n s).1 (w.closing? place.scope visit.1))) := by
  unfold advance
  simp only [quiet, here, Bool.false_eq_true, if_false, visit_eq]
  show (match Prelude.resume _ (w.prelude place n (w.openStep n s).2) with
    | (.ok v, s') => _
    | (.error h, s') => _ : Progress × Session σ) = _
  rcases Prelude.resume _ (w.prelude place n (w.openStep n s).2) with ⟨h | v, s'⟩
  · exact settleHalt_eq w place n _ h s'
  · exact settle_eq w place n _ v s'

end Walk
end Runbook
