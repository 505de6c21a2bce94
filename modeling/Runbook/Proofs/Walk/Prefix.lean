import Mathlib.Data.List.Forall2
import Runbook.Proofs.Walk.Alike
import Runbook.Proofs.Walk.Recording

/-! The same walk inside a step.

A walk that is run inside a step makes the same visits as it makes at the top, with the path of
that step before every id (`Walks.under`). The ids show in the steps themselves and in the texts
that report where a nested walk failed; `SameFailure` relates two such texts. The one thing that a
walk does at the top only is to close its step when the task is cancelled, so that end is left
out. -/
namespace Runbook

open Visit

variable {σ : Type} {q : String}

/-! ### What differs by a path -/

/-- Two texts of one failure, where the ids of the second have `q` before them. -/
inductive SameFailure (q : String) : String → String → Prop
  | same (message : String) : SameFailure q message message
  | inside {message message' : String} (workflow : Workflow) (stepId failedAt : String)
    (h : SameFailure q message message') :
    SameFailure q (nestedFault workflow stepId message failedAt).message
      (nestedFault workflow (q ++ stepId) message' (q ++ failedAt)).message

inductive Ending.Under (q : String) : Ending → Ending → Prop
  | finished : Under q .finished .finished
  | cancelled (reason : String) : Under q (.cancelled reason) (.cancelled reason)
  | failed {message message' : String} (stepId : String) (h : SameFailure q message message') :
    Under q (.failed message stepId) (.failed message' (q ++ stepId))
  | aborted (a : Abort) : Under q (.aborted a) (.aborted a)
  | left (f : Fault) : Under q (.left f) (.left f)
  | unfinished : Under q .unfinished .unfinished

inductive Progress.Under (q : String) : Progress → Progress → Prop
  | goOn (place : Place) : Under q (.goOn place) (.goOn place)
  | ended {e e' : Ending} (h : e.Under q e') (scope : Scope) :
    Under q (.ended e scope) (.ended e' scope)

/-- What a visit comes to: the same, or two reports of one nested failure. -/
inductive Arrival.Under (q : String) : Except Halt Visited → Except Halt Visited → Prop
  | same (r : Except Halt Visited) : Under q r r
  | nested {message message' : String} (workflow : Workflow) (stepId failedAt : String)
    (h : SameFailure q message message') :
    Under q (.error (.fault (nestedFault workflow stepId message failedAt)))
      (.error (.fault (nestedFault workflow (q ++ stepId) message' (q ++ failedAt))))

structure Closing.Under (q : String) (c c' : Closing) : Prop where
  status : c'.status = c.status
  output : c'.output = c.output
  input : c'.input = c.input
  error : Option.Rel (SameFailure q) c.error c'.error

/-- The same step with its id behind a path; the time of it does not count. -/
structure Step.Under (q : String) (s s' : Step) : Prop where
  nodeId : s'.nodeId = q ++ s.nodeId
  kind : s'.kind = s.kind
  input : s'.input = s.input
  output : s'.output = s.output
  status : s'.status = s.status
  error : Option.Rel (SameFailure q) s.error s'.error

/-- What two trails of one walk have in common. -/
structure Trail.Under (q : String) (t t' : Trail) : Prop where
  ending : t.ending.Under q t'.ending
  scope : t'.scope = t.scope
  height : t'.height = t.height
  steps : List.Forall₂ (Step.Under q) t.steps t'.steps

theorem SameFailure.option (q : String) (message : Option String) :
    Option.Rel (SameFailure q) message message := by
  cases message with
  | none => exact .none
  | some m => exact .some (.same m)

/-- Two endings of one walk are the same ending, but for a failure. -/
theorem Ending.Under.eq_iff {e e' other : Ending} (h : e.Under q e')
    (plain : ∀ message stepId, other ≠ .failed message stepId) : e' = other ↔ e = other := by
  cases h with
  | failed => exact ⟨fun h => absurd h.symm (plain _ _), fun h => absurd h.symm (plain _ _)⟩
  | _ => exact .rfl

/-! ### One visit -/

namespace Walk

variable {w : Walk σ} {place : Place} {n : Node} {r r' : Except Halt Visited}

theorem under_stepId (q : String) (w : Walk σ) (n : Node) :
    (w.under q).stepId n = q ++ w.stepId n := String.append_assoc ..

theorem under_inside (q : String) (w : Walk σ) (n : Node) (workflow : Workflow) :
    (w.under q).inside ((w.under q).stepId n) workflow =
      (w.inside (w.stepId n) workflow).under q := by
  rw [under_stepId]
  unfold inside under
  simp only [String.append_assoc]

theorem follow_under (place : Place) (n : Node) (target : Option String) (scope : Scope) :
    (follow place n target scope).Under q (follow place n target scope) := by
  cases target with
  | none => exact .ended .finished scope
  | some id => exact .goOn _

theorem dismissed_under (place : Place) (n : Node) (reason : String) :
    (dismissed place n reason).Under q (dismissed place n reason) := by
  unfold dismissed
  split
  · exact .ended (.cancelled reason) _
  · exact follow_under ..

/-- A failure that the node may pass over, with two texts of it. -/
theorem failed_under {message message' : String} (h : SameFailure q message message') :
    (if n.bestEffort then follow place n (w.workflow.successor n none) place.scope
      else .ended (.failed message (w.stepId n)) place.scope : Progress).Under q
      (if n.bestEffort then follow place n (w.workflow.successor n none) place.scope
      else .ended (.failed message' ((w.under q).stepId n)) place.scope) := by
  split
  · exact follow_under ..
  · rw [under_stepId]
    exact .ended (.failed _ h) _

theorem onward_under (h : Arrival.Under q r r') :
    (w.onward place n r).Under q ((w.under q).onward place n r') := by
  cases h with
  | same =>
    rcases r with halt | v
    · cases halt with
      | unfinished => exact .ended .unfinished _
      | aborted a => exact .ended (.aborted a) _
      | fault f =>
        rcases taken f with ⟨reason, rfl⟩ | ⟨reason, rfl⟩ | fails
        · exact .ended (.cancelled reason) _
        · exact dismissed_under ..
        · rw [w.onward_fails place n fails, (w.under q).onward_fails place n fails]
          exact failed_under (.same _)
    · cases bound : (place.scope.setAll v.outcome.writes).2 with
      | some f =>
        rw [w.onward_refused place n bound, (w.under q).onward_refused place n bound]
        exact .ended (.left f) _
      | none =>
        rw [w.onward_bound place n bound, (w.under q).onward_bound place n bound]
        exact follow_under ..
  | nested workflow stepId failedAt same => exact failed_under (.inside workflow stepId failedAt same)

theorem closing_under (h : Arrival.Under q r r') (kept : r ≠ .error (.aborted .task))
    (scope : Scope) :
    Option.Rel (Closing.Under q) (w.closing? scope r) ((w.under q).closing? scope r') := by
  have same (c : Closing) : Option.Rel (Closing.Under q) (some c) (some c) :=
    .some ⟨rfl, rfl, rfl, SameFailure.option q c.error⟩
  cases h with
  | same =>
    rcases r with halt | v
    · cases halt with
      | unfinished => exact .none
      | aborted a =>
        cases a with
        | token => exact same _
        | task => exact absurd rfl kept
      | fault f =>
        rcases taken f with ⟨reason, rfl⟩ | ⟨reason, rfl⟩ | fails
        · exact same _
        · exact same _
        · rw [w.closing?_fails scope fails, (w.under q).closing?_fails scope fails]
          exact same _
    · cases bound : (scope.setAll v.outcome.writes).2 with
      | some f =>
        rw [w.closing?_refused bound, (w.under q).closing?_refused bound]
        exact .none
      | none =>
        rw [w.closing?_bound bound, (w.under q).closing?_bound bound]
        exact same _
  | nested workflow stepId failedAt h =>
    exact .some ⟨rfl, rfl, rfl, .some (.inside workflow stepId failedAt h)⟩

/-- The step that a visit opens and closes. -/
theorem station_under {s z : Session σ} (h : Arrival.Under q r r')
    (kept : r ≠ .error (.aborted .task)) :
    List.Forall₂ (Step.Under q) (w.station place n s r).recorded
      ((w.under q).station place n z r').recorded := by
  have closing := closing_under (w := w) h kept place.scope
  unfold Station.recorded
  simp only [station]
  generalize w.closing? place.scope r = c at *
  generalize (w.under q).closing? place.scope r' = c' at *
  cases closing with
  | none => exact .nil
  | some same =>
    refine .cons ⟨under_stepId q w n, rfl, ?_, same.output, same.status, same.error⟩ .nil
    simp only [Recorder.Closing.apply, same.input]
    rfl

end Walk

theorem Visit.Descent.deliver_under (d : Descent σ) (stepId : String) (scope : Scope)
    {e e' : Ending} (h : e.Under q e') :
    Arrival.Under q (d.deliver (e.toExcept d.workflow stepId scope))
      (d.deliver (e'.toExcept d.workflow (q ++ stepId) scope)) := by
  cases h with
  | failed failedAt same => exact .nested d.workflow stepId failedAt same
  | _ => exact .same _

theorem Visit.Descent.arrive_under (d : Descent σ) (stepId : String) {inner inner' : Trail}
    (h : inner.Under q inner') :
    Arrival.Under q (d.arrive stepId inner) (d.arrive (q ++ stepId) inner') := by
  unfold arrive
  rw [h.scope]
  exact d.deliver_under stepId inner.scope h.ending

/-! ### Walks -/

theorem Walk.start_under (q : String) (w : Walk σ) (scope : Scope) :
    (w.start scope).Under q ((w.under q).start scope) := by
  show (w.start scope).Under q (w.start scope)
  unfold start
  cases w.start? scope with
  | some place => exact .goOn place
  | none => exact .ended .finished scope

theorem Walks.not_abandoned {w : Walk σ} {place : Place} {n : Node} {r : Except Halt Visited}
    {s s' : Session σ} {t : Trail} (h : Walks w (w.onward place n r) s t s')
    (kept : t.ending ≠ .aborted .task) : r ≠ .error (.aborted .task) := by
  rintro rfl
  obtain ⟨rfl, -⟩ := h.of_ended
  exact kept rfl

/-- A walk that does not end with the cancelled task makes the same visits under another path, in
any session that it cannot tell apart. -/
theorem Walks.under {R : σ → σ → Prop} {w : Walk σ} {p p' : Progress} {s s' z : Session σ}
    {t : Trail} (h : Walks w p s t s') (kept : t.ending ≠ .aborted .task)
    (respects : w.providers.Respects R) (same : p.Under q p') (alike : Alike R s z) :
    ∃ t' z', Walks (w.under q) p' z t' z' ∧ t.Under q t' ∧ Alike R s' z' := by
  induction h generalizing p' z with
  | ended =>
    cases same with
    | ended e scope => exact ⟨_, z, .ended, ⟨e, rfl, rfl, .nil⟩, alike⟩
  | fired fired =>
    cases same
    exact ⟨_, z, .fired (alike.fired ▸ fired), ⟨.cancelled _, rfl, rfl, .nil⟩, alike⟩
  | lost quiet missing =>
    cases same
    exact ⟨_, z, .lost (alike.fired ▸ quiet) missing, ⟨.left _, rfl, rfl, .nil⟩, alike⟩
  | plain quiet here visit onward ih =>
    cases same
    have settled := onward.not_abandoned kept
    obtain ⟨z₁, visit', alike₁⟩ := (alike.openStep respects q _).prelude respects q visit
    obtain ⟨t', z', walks, under, alike'⟩ :=
      ih kept respects (Walk.onward_under (.same _)) (alike₁.leave _ _)
    refine ⟨_, z', .plain (alike.fired ▸ quiet) here visit' walks, ?_, alike'⟩
    refine ⟨under.ending, under.scope, congrArg (· + 1) under.height, ?_⟩
    exact List.rel_append (Walk.station_under (.same _) settled) under.steps
  | @nested w place n s s₁ s₂ s' d inner rest quiet here visit inside onward ihInside ihOnward =>
    cases same
    have settled := onward.not_abandoned kept
    obtain ⟨z₁, visit', alike₁⟩ := (alike.openStep respects q _).prelude respects q visit
    obtain ⟨inner', z₂, inside', underInner, alike₂⟩ :=
      ihInside (mt Descent.arrive_aborted.mpr settled) respects (Walk.start_under q _ _) alike₁
    rw [← Walk.under_inside] at inside'
    have arrival := Descent.arrive_under d (w.stepId n) underInner
    rw [← Walk.under_stepId] at arrival
    obtain ⟨t', z', walks, under, alike'⟩ :=
      ihOnward kept respects (Walk.onward_under arrival) (alike₂.leave _ _)
    refine ⟨_, z', .nested (alike.fired ▸ quiet) here visit' inside' walks, ?_, alike'⟩
    refine ⟨under.ending, under.scope, ?_, ?_⟩
    · simp only [Trail.height, underInner.height, under.height]
    · exact List.rel_append (List.rel_append underInner.steps (Walk.station_under arrival settled))
        under.steps

end Runbook
