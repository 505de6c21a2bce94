import Runbook.Proofs.Run.Steps
import Runbook.Proofs.Walk.Alike
import Runbook.Proofs.Walk.Exit

/-! How a run is concluded.

A run of a sound graph that ends has finished its record and handed it to the history once, and
gives that record back; a cancelled task hands it over before it leaves. The last visit of the
outermost walk says when this is not so: where it escapes, a failure leaves the run and nothing
was handed over. No nested walk can do that, since the step that it runs in reports what left
it. -/
namespace Runbook.Start

open Visit

variable {σ : Type} {r : Start σ} {handed : σ → List Record}

/-- The history keeps a list of what it was handed, nothing else changes that list, and where the
history fails, the system failed. -/
structure Hands (r : Start σ) (handed : σ → List Record) : Prop where
  calls : r.providers.Keeps fun x y => handed y = handed x
  listeners : Keep r.listeners fun x y => handed y = handed x
  history : ∃ save, r.providers.history = some save ∧ ∀ record x,
    handed (save record x).2 = handed x ++ [record] ∧
      ∀ f, (save record x).1 = some f → f.isOutsideSystem = true

/-- A finished record was handed over once, and it is what the run gives back, if its task was not
cancelled. -/
def Concludes (handed : σ → List Record) (world : σ) (out : RunResult × Session σ) : Prop :=
  ∃ record, handed out.2.world = handed world ++ [record] ∧
    ((out.1 = .record record ∧ record.status ∈ [.completed, .error, .cancelled]) ∨
      (out.1 = .taskCancelled ∧ record.status = .cancelled))

/-- A failure left the run, and nothing was handed over. -/
def Breaks (handed : σ → List Record) (world : σ) (out : RunResult × Session σ) : Prop :=
  (∃ f, out.1 = .raised f) ∧ handed out.2.world = handed world

theorem session_handed (hands : r.Hands handed) (world : σ) :
    handed (r.session world).world = handed world :=
  (hands.calls.timestamp _).trans (hands.calls.freshId _)

theorem finish_handed (hands : r.Hands handed) (status : RunStatus) (scope : Scope)
    (errorNodeId : Option String) (s : Session σ) :
    let finished := r.finish status scope errorNodeId s
    finished.1 = none ∧ finished.2.recorder.record.status = status ∧
      handed finished.2.world = handed s.world ++ [finished.2.recorder.record] := by
  obtain ⟨save, given, kept⟩ := hands.history
  refine ⟨?_, ?_, ?_⟩
  · simp only [finish, given]
    refine Option.filter_eq_none_iff.mpr fun f failed => ?_
    simp [(kept _ _).2 f failed]
  · rw [finish_recorder]
    rfl
  · rw [finish_recorder]
    simp only [finish, given]
    rw [(kept _ _).1, hands.calls.timestamp]

theorem closeAll_handed (hands : r.Hands handed) {s : Session σ}
    (listeners : s.recorder.listeners = r.listeners) :
    handed (closeAll s).world = handed s.world := by
  unfold closeAll
  generalize s.recorder.opened.reverse = os
  induction os generalizing s with
  | nil => rfl
  | cons o rest ih =>
    refine (ih ((Session.close_listeners s o _).trans listeners)).trans ?_
    exact Session.close_keeps hands.calls (listeners ▸ hands.listeners) o _

theorem closed_concludes (hands : r.Hands handed) {s : Session σ} {world : σ}
    (same : handed s.world = handed world) {status : RunStatus}
    (final : status ∈ [RunStatus.completed, .error, .cancelled]) (scope : Scope)
    (id : Option String) : Concludes handed world (r.closed status scope id s) := by
  obtain ⟨kept, finished, grown⟩ := finish_handed hands status scope id s
  unfold closed
  generalize r.finish status scope id s = out at *
  obtain ⟨failure, z⟩ := out
  subst kept
  exact ⟨z.recorder.record, same ▸ grown, .inl ⟨rfl, finished ▸ final⟩⟩

theorem taskCancelled_concludes (hands : r.Hands handed) {s : Session σ} {world : σ}
    (same : handed s.world = handed world) (listeners : s.recorder.listeners = r.listeners)
    (scope : Scope) : Concludes handed world (r.conclude (.aborted .task) scope s) := by
  obtain ⟨kept, finished, grown⟩ := finish_handed hands .cancelled scope none s
  have still : (r.finish .cancelled scope none s).2.recorder.listeners = r.listeners := by
    rw [finish_recorder]
    exact listeners
  simp only [conclude]
  generalize r.finish .cancelled scope none s = out at *
  obtain ⟨failure, z⟩ := out
  subst kept
  refine ⟨z.recorder.record, ?_, .inr ⟨rfl, finished⟩⟩
  exact (closeAll_handed hands still).trans (same ▸ grown)

theorem conclude_concludes (hands : r.Hands handed) {e : Ending} {s : Session σ} {world : σ}
    (same : handed s.world = handed world) (listeners : s.recorder.listeners = r.listeners)
    (scope : Scope) (inside : ¬ e.IsLeft) (ends : e ≠ .unfinished) :
    Concludes handed world (r.conclude e scope s) := by
  cases e with
  | finished | cancelled | failed => exact closed_concludes hands same (by decide) scope _
  | aborted a =>
    cases a with
    | token => exact closed_concludes hands same (by decide) scope _
    | task => exact taskCancelled_concludes hands same listeners scope
  | left f => exact absurd ⟨f, rfl⟩ inside
  | unfinished => exact absurd rfl ends

/-- The records that a world of records holds were handed over. -/
theorem recordsOnly_hands (n : Node) (find : String → Result Workflow) :
    (handing n find).Hands id where
  calls := by
    refine ⟨fun _ => rfl, fun _ _ _ first second => second.trans first, ?_, fun _ => rfl,
      fun _ => rfl, fun _ => rfl⟩
    intro α e c offered x
    cases offered with
    | sleep => rfl
    | workflows h path name =>
      cases h
      rfl
    | model h | http h | tools h | vault h | interaction h | host h | index h => cases h
  listeners := fun _ none => nomatch none
  history := ⟨_, rfl, fun _ _ => ⟨rfl, nofun⟩⟩

/-- A workflow of one node as it is written. -/
def written (fields : List (String × Value)) : Value :=
  .record [("nodes", .list [.record fields])]

def writtenCalling : Value :=
  written [("id", .str "p"), ("type", .str "workflow"), ("path", .str "s")]

/-- A branch that does not hold, with the empty text for its pointer. -/
def straying : Node :=
  { id := "c", kind := "if", properties := [("condition", "false")], falseNext := some "" }

end Runbook.Start
