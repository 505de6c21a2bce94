import Runbook.Proofs.Run.Steps
import Runbook.Proofs.Walk.Cancellation

/-! Runs that are cancelled.

The token fires before a run, in a call that a visit makes, or while listeners are told of a step
that is closed; there is no fourth moment. From there the run opens no step and ends, whatever its
nodes say. Where the token aborts a call, the run is cancelled: the steps of the visits under way
are closed, the innermost first, and those are all that were open, unless a visit before them left
its own step open since it bound the empty name. -/
namespace Runbook.Start

open Visit

variable {σ : Type}

/-- The sessions behind the moments at which the token fires. -/
inductive Fires (r : Start σ) (world : σ) : Session σ → Prop
  | before (fired : r.fired = true) : Fires r world (r.session world)
  | visiting {vs : List (Visiting σ)} {v : Visiting σ} {m : Session σ} (comes : r.Comes world vs)
    (last : vs.getLast? = some v) (fires : v.Fires m) : Fires r world m

/-! ### Behind the walk -/

theorem finish_closes (r : Start σ) (status : RunStatus) (scope : Scope)
    (errorNodeId : Option String) (s : Session σ) :
    s.Closes (r.finish status scope errorNodeId s).2 := by
  have recorder := r.finish_recorder status scope errorNodeId s
  refine ⟨by rw [recorder]; rfl, by rw [recorder]; exact List.prefix_rfl, fun fired => ?_⟩
  unfold finish
  cases r.providers.history <;> exact fired

theorem closeAll_closes (s : Session σ) : s.Closes (closeAll s) :=
  closeAll_chain (R := Session.Closes) .refl (fun s o _ closes => (s.close_closes o _).trans closes)
    s

theorem exit_closes (r : Start σ) (t : Trail) (s : Session σ) : s.Closes (r.exit t s) := by
  unfold exit
  split
  · exact r.finish_closes ..
  · exact .refl s

/-- Behind its walk a run opens no step. -/
theorem conclude_closes (r : Start σ) (t : Trail) (s : Session σ) :
    s.Closes (r.conclude t.ending t.scope s).2 := by
  have left := r.exit_closes t s
  rw [conclude_snd]
  split
  · exact left.trans (closeAll_closes _)
  · exact left

theorem closed_ends (r : Start σ) (status : RunStatus) (scope : Scope) (id : Option String)
    (s : Session σ) : (r.closed status scope id s).1 ≠ .unfinished := by
  unfold closed
  rcases r.finish status scope id s with ⟨_ | f, z⟩ <;> nofun

theorem conclude_ends (r : Start σ) {e : Ending} (ends : e ≠ .unfinished) (scope : Scope)
    (s : Session σ) : (r.conclude e scope s).1 ≠ .unfinished := by
  cases e with
  | finished | cancelled | failed => exact r.closed_ends _ _ _ _
  | aborted a =>
    cases a with
    | token => exact r.closed_ends _ _ _ _
    | task =>
      simp only [conclude]
      rcases r.finish .cancelled scope none s with ⟨_ | f, z⟩ <;>
      · intro unfinished
        cases unfinished
  | left =>
    intro unfinished
    cases unfinished
  | unfinished => exact absurd rfl ends

/-! ### The moment the token fires -/

theorem start_ends (r : Start σ) (scope : Scope) :
    r.outermost.start ⟨r.bindings⟩ ≠ .ended .unfinished scope := by
  unfold Walk.start
  split <;> nofun

/-- Behind the walk of a run the token has fired just where there is a moment at which it did. -/
theorem Leaves.fired_iff {r : Start σ} {world : σ} {t : Trail} {s : Session σ}
    (walks : r.Leaves world t s) : s.fired = true ↔ ∃ m, r.Fires world m := by
  rw [Walks.fired_iff walks r.start_ends]
  constructor
  · rintro (fired | ⟨vs, v, m, comes, last, fires⟩)
    · exact ⟨_, .before fired⟩
    · exact ⟨m, .visiting comes last fires⟩
  · rintro ⟨m, fires⟩
    cases fires with
    | before fired => exact .inl fired
    | visiting comes last fires => exact .inr ⟨_, _, m, comes, last, fires⟩

/-- Behind that moment the walk of the run ends and opens no step. -/
theorem Fires.leaves {r : Start σ} {world : σ} {m : Session σ} (fires : r.Fires world m) :
    ∃ t s, r.Leaves world t s ∧ t.ending ≠ .unfinished ∧ m.Closes s := by
  cases fires with
  | before fired =>
    obtain ⟨e, scope, walks, ends⟩ :=
      Walks.of_fired (w := r.outermost) (s := r.session world) fired r.start_ends
    exact ⟨_, _, walks, ends, .refl _⟩
  | visiting comes last fires => exact comes.sealed_of_fires last fires

/-- What is left of a run whose token fired at a moment: it ends, begins no other node at any
depth, and keeps what was recorded. -/
structure Seals (m : Session σ) (out : RunResult × Session σ) : Prop where
  ends : out.1 ≠ .unfinished
  begun : out.2.recorder.tickets = m.recorder.tickets
  kept : m.recorder.record.steps <+: out.2.recorder.record.steps

theorem Fires.seals {r : Start σ} {world : σ} {m : Session σ} (fires : r.Fires world m) :
    ∃ enough, ∀ fuel, enough < fuel → Seals m (r.run fuel world) := by
  obtain ⟨t, s, walks, ends, closes⟩ := fires.leaves
  refine ⟨t.height, fun fuel enough => ?_⟩
  have behind := closes.trans (r.conclude_closes t s)
  rw [walks.run_eq enough]
  exact ⟨r.conclude_ends ends _ _, behind.tickets, behind.steps⟩

/-! ### Aborted calls -/

/-- What is left of a run in which the token aborted a call made in the session `m`, with these
visits under way, and whose walk left the trail `t`. -/
structure Abandons (vs : List (Visiting σ)) (m : Session σ) (t : Trail)
    (out : RunResult × Session σ) : Prop where
  status : out.2.recorder.record.status = .cancelled
  cancels : Cancels vs m out.2
  opened : out.2.recorder.opened = t.leftOpen
  /-- The steps closed were all that were open, but for those of refused names. -/
  all : vs.map (·.opened) = m.recorder.opened ↔ ∀ v ∈ t.all, ¬ v.Refuses

theorem Leaves.leftOpen_of_token {r : Start σ} {world : σ} {t : Trail} {s : Session σ}
    (walks : r.Leaves world t s) (token : t.ending = .aborted .token) :
    t.leftOpen = [] ↔ ∀ v ∈ t.all, ¬ v.Refuses := by
  have ends : t.ending ≠ .unfinished := by
    rw [token]
    nofun
  rw [Walks.leftOpen_eq_nil walks rfl ends]
  refine ⟨And.left, fun named => ⟨named, fun v inside abandoned => ?_⟩⟩
  have task := Walks.ending_of_aborted walks .task v (List.mem_append_right _ inside) abandoned
  rw [token] at task
  cases task

theorem Comes.abandons {r : Start σ} {world : σ} {vs : List (Visiting σ)} (comes : r.Comes world vs)
    {v : Visiting σ} (last : vs.getLast? = some v) {c : Made σ} (made : v.Makes c)
    (aborted : c.Aborted .token) :
    ∃ t s, r.Leaves world t s ∧ ∀ fuel, t.height < fuel →
      r.run fuel world = r.closed .cancelled t.scope none s ∧
        Abandons vs c.session t (r.run fuel world) := by
  have sound := r.session_sound world
  obtain ⟨t, s, walks, token, cancels⟩ := Walk.Comes.aborted comes sound last made aborted
  have walks : r.Leaves world t s := walks
  have same : r.conclude t.ending t.scope s = r.closed .cancelled t.scope none s := by
    rw [token]
    rfl
  have recorder := r.closed_recorder .cancelled t.scope none s
  obtain ⟨-, stays, -⟩ := walks.recorded
  refine ⟨t, s, walks, fun fuel enough => ?_⟩
  have result := (walks.run_eq enough).trans same
  refine ⟨result, ?_⟩
  rw [result]
  refine ⟨by rw [recorder]; rfl, ⟨?_, ?_⟩, by rw [recorder]; exact stays, ?_⟩
  · rw [recorder]
    exact cancels.steps
  · rw [recorder]
    exact cancels.opened
  · rw [← walks.leftOpen_of_token token, ← stays]
    have among : (vs.map (·.opened)).Sublist c.session.recorder.opened :=
      Walk.Comes.opened_sublist comes sound last made
    have length := cancels.opened.length_eq
    rw [List.length_append] at length
    constructor
    · intro all
      rw [all] at length
      exact List.length_eq_zero_iff.mp (by omega)
    · intro none
      rw [none, List.length_nil, Nat.add_zero] at length
      exact among.eq_of_length length.symm

/-- Cancellation is final. Behind the walk of a run the token has fired just where there is a
moment at which it did. From any such moment the run ends, no node is begun at any depth, and what
was recorded stays in front of the record. Where the token aborts a call, the run is cancelled, and
the steps of the visits under way are closed by the cancellation, the innermost first: all steps
that are open then, if no visit binds the empty name. -/
theorem run_cancelled (r : Start σ) (world : σ) :
    (∀ t s, r.Leaves world t s → (s.fired = true ↔ ∃ m, r.Fires world m)) ∧
    (∀ m, r.Fires world m → ∃ enough, ∀ fuel, enough < fuel → Seals m (r.run fuel world)) ∧
    ∀ vs v c, r.Comes world vs → vs.getLast? = some v → v.Makes c → c.Aborted .token →
      ∃ t s, r.Leaves world t s ∧ ∀ fuel, t.height < fuel →
        r.run fuel world = r.closed .cancelled t.scope none s ∧
          Abandons vs c.session t (r.run fuel world) :=
  ⟨fun _ _ walks => walks.fired_iff, fun _ fires => fires.seals,
    fun _ _ _ comes last made aborted => comes.abandons last made aborted⟩

/-- Providers in a world that is nothing but the records handed over. A workflow that is not found
is sought without end, and meanwhile the token fires. -/
def recordsSeeking (find : String → Option Workflow) : Providers (List Record) :=
  { recordsOnly fun _ => .hung with
    workflows := some fun path _ world =>
      match find path with
      | some workflow => { world, result := .returned workflow }
      | none => { world, fires := true, result := .hung } }

/-- A node that passes over failures, and goes on elsewhere where a request is dismissed. -/
def lenient : Node :=
  { id := "p", kind := "workflow"
    properties := [("path", "m"), ("bestEffort", "true"), ("onCancel", "e")] }

/-- Inside the first node the workflow of another one is sought. -/
def seeking : Start (List Record) :=
  { providers := recordsSeeking fun path => if path = "m" then some { nodes := [lost] } else none
    workflow := { nodes := [lenient, { binding with id := "e" }] } }

def atLenient : Visiting (List Record) :=
  ⟨seeking.outermost, ⟨"p", [], ⟨[]⟩⟩, lenient, seeking.session []⟩

def atLost (s : Session (List Record)) : Visiting (List Record) :=
  ⟨seeking.outermost.inside "p" { nodes := [lost] }, ⟨"q", [], ⟨[]⟩⟩, lost, s⟩

theorem run_cancelled_seeking :
    (∃ m, seeking.Fires [] m ∧ ∃ enough, ∀ fuel, enough < fuel → Seals m (seeking.run fuel [])) ∧
      ∃ s₁ c, seeking.Comes [] [atLenient, atLost s₁] ∧ (atLost s₁).Makes c ∧ c.Aborted .token ∧
        ∃ t s, seeking.Leaves [] t s ∧ ∀ fuel, t.height < fuel →
          seeking.run fuel [] = seeking.closed .cancelled t.scope none s ∧
            Abandons [atLenient, atLost s₁] c.session t (seeking.run fuel []) := by
  have visit : ∃ d s₁ s₂, atLenient.prelude = (.descends d, s₁) ∧
      d.workflow = { nodes := [lost] } ∧ d.inputs = ⟨[]⟩ ∧ s₁.fired = false ∧
      (atLost s₁).prelude = (.settled (.error (.aborted .token)), s₂) ∧ s₂.fired = true :=
    ⟨_, _, _, rfl, rfl, rfl, rfl, rfl, rfl⟩
  obtain ⟨d, s₁, s₂, visit, workflow, inputs, quiet, aborted, fired⟩ := visit
  have starts : (atLost s₁).Starts := ⟨quiet, rfl⟩
  have within : (atLenient.inside d.workflow).Comes
      ((atLenient.inside d.workflow).start d.inputs) s₁ [atLost s₁] := by
    rw [workflow, inputs]
    exact .here starts
  have comes : seeking.Comes [] [atLenient, atLost s₁] := .inside ⟨rfl, rfl⟩ visit within
  constructor
  · obtain ⟨m, made, fires⟩ := (atLost s₁).fires_of_fired quiet (by rw [aborted]; exact fired)
    have moment : seeking.Fires [] m.behind := .visiting comes rfl (.calling made fires)
    exact ⟨_, moment, (run_cancelled seeking []).2.1 _ moment⟩
  · obtain ⟨c, made, hangs⟩ := (atLost s₁).exists_aborted aborted
    exact ⟨s₁, c, comes, made, hangs, (run_cancelled seeking []).2.2 _ _ c comes rfl made hangs⟩

/-- The first node passes over a failure that leaves a step open inside it, and the next one seeks
its workflow without end. -/
def leaking : Start (List Record) :=
  { providers := recordsSeeking fun path =>
      if path = "m" then some { nodes := [{ unnaming with id := "q" }] }
      else if path = "s" then some { nodes := [binding] }
      else none
    workflow := { nodes := [{ lenient with next := some "q" }, lost, { binding with id := "e" }] } }

def atLeaking : Visiting (List Record) :=
  ⟨leaking.outermost, ⟨"p", [], ⟨[]⟩⟩, { lenient with next := some "q" }, leaking.session []⟩

def behindLeaking (s : Session (List Record)) : Visiting (List Record) :=
  ⟨leaking.outermost, ⟨"q", ["p"], ⟨[]⟩⟩, lost, s⟩

/-- Two steps are open when the token aborts a call, and one of them is never closed. -/
theorem open_behind_abort :
    leaking.workflow.fault? = none ∧
      ∃ v c, leaking.Comes [] [v] ∧ v.Makes c ∧ c.Aborted .token ∧
        c.session.recorder.opened.map (·.step.nodeId) = ["p/q", "q"] ∧
        (leaking.run 4 []).2.recorder.record.status = .cancelled ∧
        (leaking.run 4 []).2.recorder.record.steps.map (·.nodeId) = ["p/q/x", "p", "q"] ∧
        (leaking.run 4 []).2.recorder.opened.map (·.step.nodeId) = ["p/q"] := by
  have came : ∃ d inner s₁ s₂ s₃, atLeaking.prelude = (.descends d, s₁) ∧
      Walks (atLeaking.inside d.workflow) ((atLeaking.inside d.workflow).start d.inputs) s₁ inner
        s₂ ∧
      let r := d.arrive atLeaking.stepId inner
      let v := behindLeaking (s₂.leave (atLeaking.station r))
      atLeaking.onward r = .goOn v.place ∧ v.session.fired = false ∧
        v.prelude = (.settled (.error (.aborted .token)), s₃) ∧
        v.begun.recorder.opened.map (·.step.nodeId) = ["p/q", "q"] :=
    ⟨_, _, _, _, _, rfl, .nested rfl rfl rfl (.plain rfl rfl rfl .ended) .ended, rfl, rfl, rfl,
      rfl⟩
  obtain ⟨d, inner, s₁, s₂, s₃, visit, within, onward, quiet, aborted, opened⟩ := came
  obtain ⟨c, made, hangs⟩ := (behindLeaking _).exists_aborted aborted
  have behind := Walk.Comes.here (v := behindLeaking _) ⟨quiet, rfl⟩
  rw [← onward] at behind
  have comes : leaking.Comes [] [behindLeaking _] :=
    .behind ⟨rfl, rfl⟩ (.nested visit within) behind
  exact ⟨rfl, _, c, comes, made, hangs, by rw [made.recorder, opened], rfl, rfl, rfl⟩

end Runbook.Start
