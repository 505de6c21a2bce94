import Runbook.Proofs.Walk.Visiting

/-! The trail of a run, and where control leaves it.

A run that comes to a result leaves the trail of its outermost walk (`exists_leaves`), and its
result follows from how that walk ended. Control leaves with the record finished. Only where the
task was cancelled does the session go on behind that: what was still open is closed then. -/
namespace Runbook

variable {σ : Type}

/-- How the record of a run is finished that ends this way: its status, and the step that failed.
It is not finished where something left the walk. -/
def Ending.verdict? : Ending → Option (RunStatus × Option String)
  | .finished => some (.completed, none)
  | .cancelled _ | .aborted _ => some (.cancelled, none)
  | .failed _ stepId => some (.error, some stepId)
  | .left _ | .unfinished => none

namespace Start

/-- The walk of a run that is inside no other. -/
def outermost (r : Start σ) : Walk σ :=
  { registry := r.registry, providers := r.providers, workflow := r.workflow }

/-- The run leaves a trail, and its walk ends with a session. -/
def Leaves (r : Start σ) (world : σ) (t : Trail) (s : Session σ) : Prop :=
  Walks r.outermost (r.outermost.start ⟨r.bindings⟩) (r.session world) t s

/-- The visits that a run comes to, each with those it is made in. -/
def Comes (r : Start σ) (world : σ) (vs : List (Visiting σ)) : Prop :=
  r.outermost.Comes (r.outermost.start ⟨r.bindings⟩) (r.session world) vs

theorem run_eq (r : Start σ) (fuel : Nat) (world : σ) :
    r.run fuel world =
      let walked := r.outermost.proceed fuel (r.outermost.start ⟨r.bindings⟩) (r.session world)
      r.conclude walked.1.1 walked.1.2 walked.2 := by
  show (let walked := Walk.walk fuel r.outermost ⟨r.bindings⟩ (r.session world)
    r.conclude walked.1.1 walked.1.2 walked.2) = _
  rw [Walk.walk_eq]

theorem exists_leaves {r : Start σ} {fuel : Nat} {world : σ}
    (ends : (r.run fuel world).1 ≠ .unfinished) :
    ∃ t s, r.Leaves world t s ∧ t.ending ≠ .unfinished ∧ t.height ≤ fuel ∧
      r.run fuel world = r.conclude t.ending t.scope s := by
  rw [run_eq] at ends ⊢
  rcases walked : r.outermost.proceed fuel (r.outermost.start ⟨r.bindings⟩) (r.session world)
    with ⟨⟨e, scope⟩, s⟩
  rw [walked] at ends
  have ended : e ≠ .unfinished := by
    rintro rfl
    exact ends rfl
  obtain ⟨t, walks, rfl, rfl, height⟩ := exists_walks walked ended
  exact ⟨t, s, walks, ended, height, rfl⟩

/-- A run that is given more visits than its trail is high ends as the trail does. -/
theorem Leaves.run_eq {r : Start σ} {world : σ} {t : Trail} {s : Session σ}
    (walks : r.Leaves world t s) {fuel : Nat} (enough : t.height < fuel) :
    r.run fuel world = r.conclude t.ending t.scope s := by
  rw [Start.run_eq, Walks.proceed_eq walks enough]

/-! ### Leaving -/

/-- The session where control leaves the run. -/
def exit (r : Start σ) (t : Trail) (s : Session σ) : Session σ :=
  match t.ending.verdict? with
  | some (status, errorNodeId) => (r.finish status t.scope errorNodeId s).2
  | none => s

theorem closed_snd (r : Start σ) (status : RunStatus) (scope : Scope)
    (errorNodeId : Option String) (s : Session σ) :
    (r.closed status scope errorNodeId s).2 = (r.finish status scope errorNodeId s).2 := by
  unfold closed
  rcases r.finish status scope errorNodeId s with ⟨_ | f, s₁⟩ <;> rfl

/-- The session behind a run is the one where control left it, unless its task was cancelled. -/
theorem conclude_snd (r : Start σ) (t : Trail) (s : Session σ) :
    (r.conclude t.ending t.scope s).2 =
      match t.ending with
      | .aborted .task => closeAll (r.exit t s)
      | _ => r.exit t s := by
  unfold exit
  cases t.ending with
  | aborted a =>
    cases a with
    | token => exact closed_snd ..
    | task =>
      simp only [conclude, Ending.verdict?]
      rcases r.finish .cancelled t.scope none s with ⟨_ | f, s₁⟩ <;> rfl
  | left | unfinished => rfl
  | _ => exact closed_snd ..

theorem finish_recorder (r : Start σ) (status : RunStatus) (scope : Scope)
    (errorNodeId : Option String) (s : Session σ) :
    (r.finish status scope errorNodeId s).2.recorder =
      s.recorder.finish status (r.providers.clock.timestamp s.world).1 scope.bindings
        errorNodeId := by
  unfold finish
  cases r.providers.history <;> rfl

theorem closed_recorder (r : Start σ) (status : RunStatus) (scope : Scope)
    (errorNodeId : Option String) (s : Session σ) :
    (r.closed status scope errorNodeId s).2.recorder =
      s.recorder.finish status (r.providers.clock.timestamp s.world).1 scope.bindings
        errorNodeId := by
  rw [closed_snd, finish_recorder]

/-- Closing every step does what closing one of them after another does. -/
theorem closeAll_chain {R : Session σ → Session σ → Prop} (none : ∀ s, R s s)
    (more : ∀ s o z, R (s.close o cancelledClosing) z → R s z) (s : Session σ) :
    R s (closeAll s) := by
  unfold closeAll
  generalize s.recorder.opened.reverse = os
  induction os generalizing s with
  | nil => exact none s
  | cons o rest ih => exact more s o _ (ih _)

/-- Finishing a record leaves its steps and the open ones alone. -/
theorem exit_recorder (r : Start σ) (t : Trail) (s : Session σ) :
    (r.exit t s).recorder.record.steps = s.recorder.record.steps ∧
      (r.exit t s).recorder.opened = s.recorder.opened := by
  unfold exit
  split
  · rw [finish_recorder]
    exact ⟨rfl, rfl⟩
  · exact ⟨rfl, rfl⟩

theorem exit_sound {r : Start σ} {t : Trail} {s : Session σ} (sound : s.recorder.Sound) :
    (r.exit t s).recorder.Sound := by
  unfold exit
  split
  · rw [finish_recorder]
    exact ⟨sound.ordered, sound.given⟩
  · exact sound

/-! ### The record -/

theorem closed_record {r : Start σ} {status : RunStatus} {scope : Scope} {id : Option String}
    {s : Session σ} {record : Record} (h : (r.closed status scope id s).1 = .record record) :
    record = (s.recorder.finish status (r.providers.clock.timestamp s.world).1 scope.bindings
      id).record := by
  have recorder := r.finish_recorder status scope id s
  unfold closed at h
  generalize r.finish status scope id s = out at *
  obtain ⟨_ | f, z⟩ := out
  · cases h
    rw [recorder]
  · cases h

/-- A record that a run gives back is the recorder's, finished as the walk ended. -/
theorem conclude_record {r : Start σ} {e : Ending} {scope : Scope} {s : Session σ}
    {record : Record} (h : (r.conclude e scope s).1 = .record record) :
    ∃ status id, e.verdict? = some (status, id) ∧ e ≠ .aborted .task ∧
      record = (s.recorder.finish status (r.providers.clock.timestamp s.world).1 scope.bindings
        id).record := by
  cases e with
  | finished | cancelled | failed => exact ⟨_, _, rfl, nofun, closed_record h⟩
  | aborted a =>
    cases a with
    | token => exact ⟨_, _, rfl, nofun, closed_record h⟩
    | task =>
      simp only [conclude] at h
      split at h <;> cases h
  | left | unfinished => cases h

theorem session_sound (r : Start σ) (world : σ) : (r.session world).recorder.Sound :=
  ⟨.nil, fun _ none => nomatch none⟩

/-- The recorder behind the walk of a run holds the trail and nothing else. -/
theorem Leaves.recorded {r : Start σ} {world : σ} {t : Trail} {s : Session σ}
    (walks : r.Leaves world t s) :
    s.recorder.record.steps = t.steps ∧ s.recorder.opened = t.leftOpen ∧ s.recorder.Sound := by
  obtain ⟨recorder, sound⟩ := Walks.recorder_eq walks (r.session_sound world)
  refine ⟨?_, ?_, sound⟩ <;> rw [recorder]
  · exact List.nil_append t.steps
  · exact List.nil_append t.leftOpen

/-- What a record says of the trail of its run. -/
structure Tells (record : Record) (t : Trail) : Prop where
  ends : t.ending ≠ .unfinished
  kept : t.ending ≠ .aborted .task
  steps : record.steps = t.steps
  bindings : record.bindings = t.scope.bindings
  completed : record.status = .completed ↔ t.ending = .finished

theorem exists_tells {r : Start σ} {fuel : Nat} {world : σ} {record : Record}
    (returned : (r.run fuel world).1 = .record record) :
    ∃ t s, r.Leaves world t s ∧ r.run fuel world = r.conclude t.ending t.scope s ∧
      t.height ≤ fuel ∧ Tells record t := by
  have ends : (r.run fuel world).1 ≠ .unfinished := by
    rw [returned]
    nofun
  obtain ⟨t, s, walks, ended, height, result⟩ := exists_leaves ends
  obtain ⟨status, id, verdict, kept, finished⟩ := conclude_record (result ▸ returned)
  refine ⟨t, s, walks, result, height, ended, kept, ?_, ?_, ?_⟩
  · rw [finished]
    exact walks.recorded.1
  · rw [finished]
    rfl
  · rw [finished]
    show status = .completed ↔ _
    cases ending : t.ending <;> rw [ending] at verdict <;> cases verdict <;> simp

/-! ### A world of records -/

/-- Providers in a world that is nothing but the records handed over. No time passes there, and
workflows are looked for by their paths. -/
def recordsOnly (find : String → Result Workflow) : Providers (List Record) :=
  { clock :=
      { now := fun world => (.nan, world)
        timestamp := fun world => ("", world)
        freshId := fun world => ("", world)
        sleep := fun _ => Call.pure () }
    workflows := some fun path _ world => { world, result := find path }
    history := some fun record world => (none, world ++ [record]) }

end Start
end Runbook
