import Mathlib.Data.List.Chain
import Runbook.Proofs.Walk.Visiting

/-! Failures that nobody passes over.

A visit that fails ends its walk, and with it the visit that the walk is made in, up to the
outermost one. Each of them closes its step with the failure as it has come to it: the failure of
the walk inside, behind the id of the step that failed there. Between these steps nothing is
recorded (`Comes.fails`). -/
namespace Runbook

open Visit

variable {σ : Type}

namespace Visiting

/-- What a failure of the last of these visits is reported as by the first. -/
def report (text : String) : List (Visiting σ) → String
  | [] => text
  | [_] => text
  | v :: u :: rest =>
    (nestedFault u.walk.workflow v.stepId (report text (u :: rest)) u.stepId).message

/-- The steps of the visits, in their order, as a failure of the last one closes them. -/
def failed (text : String) : List (Visiting σ) → List Step
  | [] => []
  | v :: rest =>
    Recorder.Closing.apply { status := .error, error := some (report text (v :: rest)) }
      v.opened.step :: failed text rest

theorem failed_ids (text : String) (vs : List (Visiting σ)) :
    (failed text vs).map (·.nodeId) = vs.map (·.stepId) := by
  induction vs with
  | nil => rfl
  | cons v rest ih => simp only [failed, List.map_cons, ih]; rfl

theorem failed_status (text : String) (vs : List (Visiting σ)) :
    ∀ step ∈ failed text vs, step.status = .error := by
  induction vs with
  | nil => exact List.forall_mem_nil _
  | cons v rest ih => exact List.forall_mem_cons.mpr ⟨rfl, ih⟩

/-- The innermost step is closed with the failure itself. -/
theorem failed_last (text : String) (v : Visiting σ) (vs : List (Visiting σ)) :
    (failed text (v :: vs)).getLast?.bind (·.error) = some text := by
  induction vs generalizing v with
  | nil => rfl
  | cons u rest ih =>
    rw [failed, failed, List.getLast?_cons_cons]
    exact ih u

end Visiting

/-- The error of a step names the step inside it that failed, and quotes its error. -/
def Step.Quotes (outer inner : Step) : Prop :=
  ∃ workflow text, inner.error = some text ∧
    outer.error =
      some ("Sub-workflow '" ++ workflow ++ "' failed at '" ++ inner.nodeId ++ "': " ++ text)

theorem Visiting.failed_quotes (text : String) (vs : List (Visiting σ)) :
    (failed text vs).IsChain Step.Quotes := by
  induction vs with
  | nil => exact .nil
  | cons v rest ih =>
    cases rest with
    | nil => exact .singleton _
    | cons u rest => exact .cons_cons ⟨u.walk.workflow.name, _, rfl, rfl⟩ ih

theorem nestedFault_fails (workflow : Workflow) (stepId message failedAt : String) :
    Walk.Fails (nestedFault workflow stepId message failedAt) := ⟨nofun, nofun⟩

namespace Visiting

variable {v : Visiting σ} {f : Fault}

theorem onward_fatal (fails : Walk.Fails f) (fatal : v.node.bestEffort = false) :
    v.onward (.error (.fault f)) = .ended (.failed f.message v.stepId) v.place.scope := by
  rw [onward, v.walk.onward_fails v.place v.node fails, fatal]
  rfl

/-- A failure that the node does not pass over ends its walk. -/
theorem walks_fatal (fails : Walk.Fails f) (fatal : v.node.bestEffort = false) (s : Session σ) :
    Walks v.walk (v.onward (.error (.fault f))) s (.stop (.failed f.message v.stepId) v.place.scope)
      s := by
  rw [onward_fatal fails fatal]
  exact .ended

theorem recorded_fatal (fails : Walk.Fails f) :
    (v.station (.error (.fault f))).recorded =
      [Recorder.Closing.apply { status := .error, error := some f.message } v.opened.step] := by
  have closing := v.walk.closing?_fails v.place.scope fails
  simp only [Station.recorded, station, Walk.station, closing]
  rfl

end Visiting

theorem Walk.Comes.walk_eq {w : Walk σ} {p : Progress} {s : Session σ} {u : Visiting σ}
    {us : List (Visiting σ)} (h : w.Comes p s (u :: us)) : u.walk = w := by
  generalize same : u :: us = vs at h
  induction h with
  | here | inside => cases same; rfl
  | behind _ _ _ ih => exact ih same

/-- Nothing is recorded behind a failure but the steps of the visits under way, the innermost
first, if none of their nodes passes over failures. -/
theorem Walk.Comes.fails {w : Walk σ} {p : Progress} {s : Session σ} {vs : List (Visiting σ)}
    (h : w.Comes p s vs) {v : Visiting σ} (last : vs.getLast? = some v) {f : Fault} {z : Session σ}
    (came : v.ComesTo (.error (.fault f)) z) (fails : Fails f)
    (fatal : ∀ u ∈ vs, u.node.bestEffort = false) :
    ∃ t s' u us before, vs = u :: us ∧ Walks w p s t s' ∧
      t.ending = .failed (Visiting.report f.message vs) u.stepId ∧
      t.steps = before ++ (Visiting.failed f.message vs).reverse := by
  induction h with
  | @here u starts =>
    obtain rfl : u = v := Option.some.inj last
    have onward := Visiting.walks_fatal fails (fatal u (List.mem_singleton.mpr rfl))
      (z.leave (u.station (.error (.fault f))))
    obtain ⟨t, before, walks, ending, steps⟩ := came.walks starts onward
    refine ⟨t, _, u, [], before, rfl, walks, ending, ?_⟩
    rw [steps, Visiting.recorded_fatal fails]
    exact List.append_nil _
  | @inside u us d s₁ starts visit within ih =>
    rw [within.getLast?_cons] at last
    obtain ⟨fatalHere, fatalInside⟩ := List.forall_mem_cons.mp fatal
    obtain ⟨inner, s₂, x, xs, before, rfl, walks, ending, steps⟩ := ih last fatalInside
    have workflow : x.walk.workflow = d.workflow := congrArg Walk.workflow within.walk_eq
    let g := nestedFault x.walk.workflow u.stepId (Visiting.report f.message (x :: xs)) x.stepId
    have arrive : d.arrive u.stepId inner = .error (.fault g) := by
      rw [Descent.arrive, ending, ← workflow]
      rfl
    have failsHere : Fails g := nestedFault_fails ..
    have onward := Visiting.walks_fatal failsHere fatalHere
      (s₂.leave (u.station (.error (.fault g))))
    have recorded := Visiting.recorded_fatal (v := u) failsHere
    rw [← arrive] at onward recorded
    refine ⟨_, _, u, x :: xs, before, rfl, .nested starts.quiet starts.here visit walks onward, rfl,
      ?_⟩
    calc inner.steps ++ (u.station (d.arrive u.stepId inner)).recorded ++ []
      _ = before ++ (Visiting.failed f.message (x :: xs)).reverse ++ [_] := by
        rw [steps, recorded, List.append_nil]
      _ = before ++ (Visiting.failed f.message (u :: x :: xs)).reverse := by
        rw [List.append_assoc, ← List.reverse_cons]
        rfl
  | @behind e _ r _ starts came _ ih =>
    obtain ⟨rest, s', u, us, before, same, onward, ending, steps⟩ := ih last fatal
    obtain ⟨t, earlier, walks, ends, recorded⟩ := came.walks starts onward
    refine ⟨t, s', u, us, earlier ++ (e.station r).recorded ++ before, same, walks,
      ends.trans ending, ?_⟩
    rw [recorded, steps, List.append_assoc (earlier ++ _)]

end Runbook
