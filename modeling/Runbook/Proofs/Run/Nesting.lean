import Runbook.Proofs.Run.Steps
import Runbook.Proofs.Walk.Prefix

/-! A run inside a step.

A node that runs a workflow makes of it what a run of that workflow makes, in worlds in which the
providers answer alike: its nested walk records the same steps with the path of its own step
before every id, and leaves a world of the same kind. Behind them stands the step of the node
itself, if no name that is handed back is the empty one. -/
namespace Runbook

open Visit

variable {σ : Type}

/-! ### The variables that a walk ends with -/

theorem Walk.onward_named {w : Walk σ} {place : Place} (named : place.scope.Named) (n : Node)
    (r : Except Halt Visited) : (w.onward place n r).scope.Named := by
  cases r with
  | error halt =>
    rw [onward_halt_scope]
    exact named
  | ok v =>
    rw [onward_ok_scope]
    exact named.setAll v.outcome.writes

/-- A walk that starts with real names, each once, ends with such names. -/
theorem Walks.named {w : Walk σ} {p : Progress} {s s' : Session σ} {t : Trail}
    (h : Walks w p s t s') (named : p.scope.Named) : t.scope.Named := by
  induction h with
  | ended | fired | lost => exact named
  | plain _ _ _ _ ih => exact ih (Walk.onward_named named ..)
  | nested _ _ _ _ _ _ ih => exact ih (Walk.onward_named named ..)

theorem Walk.start_named {w : Walk σ} {scope : Scope} (named : scope.Named) :
    (w.start scope).scope.Named := by
  unfold start start?
  cases w.workflow.entry? <;> exact named

/-! ### The step that a workflow runs in -/

/-- The step that a workflow runs in stays open just where the workflow finished and hands
something back under the empty name. -/
theorem Walk.recorded_eq_nil {w : Walk σ} {place : Place} {n : Node} {z : Session σ}
    {d : Descent σ} {inner : Trail} (ends : inner.ending ≠ .unfinished)
    (kept : inner.ending ≠ .aborted .task) :
    (w.station place n z (d.arrive (w.stepId n) inner)).recorded = [] ↔
      inner.ending = .finished ∧ ∃ writes, d.handedBack inner.scope = .ok writes ∧
        "" ∈ Entries.keys writes := by
  have comes : d.arrive (w.stepId n) inner ≠ .error .unfinished :=
    mt Descent.arrive_unfinished.mp ends
  have stays : d.arrive (w.stepId n) inner ≠ .error (.aborted .task) :=
    mt Descent.arrive_aborted.mp kept
  have unrecorded : (w.station place n z (d.arrive (w.stepId n) inner)).recorded = [] ↔
      w.closing? place.scope (d.arrive (w.stepId n) inner) = none := by
    unfold Station.recorded station
    cases w.closing? place.scope (d.arrive (w.stepId n) inner) <;> simp
  rw [unrecorded, Walk.closing?_eq_none comes]
  constructor
  · rintro (⟨x, came, unnamed⟩ | ⟨task, -⟩)
    · obtain ⟨finished, writes, handed, rfl⟩ := Descent.arrive_ok.mp came
      exact ⟨finished, writes, handed, unnamed⟩
    · exact absurd task stays
  · rintro ⟨finished, writes, handed, unnamed⟩
    exact .inl ⟨_, Descent.arrive_ok.mpr ⟨finished, writes, handed, rfl⟩, unnamed⟩

/-- What a workflow that finished hands back where neither names nor a beginning are asked for:
all its variables. -/
theorem Visit.Descent.handedBack_all {d : Descent σ} {child : Scope} (named : child.Named)
    (output : Text.blank (d.context.property "output").toList = true)
    (beginning : d.context.property "prefix" = "") : d.handedBack child = .ok child.bindings := by
  unfold handedBack Handover.outputs
  rw [if_pos output, beginning]
  exact congrArg Except.ok (Scope.exports_all named.distinct)

/-- What a node at a place makes of a workflow whose own run gave back a record: the steps that it
adds to those of the session are `inside` and then `own`. -/
structure Walk.Mirrors (w : Walk σ) (place : Place) (n : Node) (z : Session σ) (d : Descent σ)
    (record : Record) (out : Progress × Session σ) (inside own : List Step) : Prop where
  steps : out.2.recorder.record.steps = z.recorder.record.steps ++ inside ++ own
  /-- The steps of the record, each with the path of the node's step before its id. -/
  same : List.Forall₂ (Step.Under (w.stepId n ++ "/")) record.steps inside
  /-- The step of the node itself. -/
  last : own = [] ∨ ∃ step, own = [step] ∧ step.nodeId = w.stepId n ∧ step.kind = n.kind
  missing : own = [] ↔ record.status = .completed ∧
    ∃ writes, d.handedBack ⟨record.bindings⟩ = .ok writes ∧ "" ∈ Entries.keys writes
  completed : record.status = .completed →
    Text.blank (d.context.property "output").toList = true → d.context.property "prefix" = "" →
    (∃ step, own = [step] ∧ step.status = .success ∧ step.output = .record record.bindings ∧
      step.error = none) ∧
    ∃ scope, out.1 = Walk.follow place n (w.workflow.successor n none) scope ∧
      ∀ b ∈ record.bindings, scope.get? b.1 = some b.2

/-- A nested walk that finished with real names, of a node that asks neither for names nor for a
beginning: the node binds all of them, and its step outputs them. -/
theorem Walk.station_finished (w : Walk σ) (place : Place) (n : Node) (z : Session σ)
    {d : Descent σ} {inner : Trail} (finished : inner.ending = .finished)
    (named : inner.scope.Named)
    (output : Text.blank (d.context.property "output").toList = true)
    (beginning : d.context.property "prefix" = "") :
    (∃ step, (w.station place n z (d.arrive (w.stepId n) inner)).recorded = [step] ∧
      step.status = .success ∧ step.output = .record inner.scope.bindings ∧ step.error = none) ∧
    w.onward place n (d.arrive (w.stepId n) inner) =
      follow place n (w.workflow.successor n none)
        ⟨Entries.merge place.scope.bindings inner.scope.bindings⟩ := by
  have handed := Descent.handedBack_all named output beginning
  have came : d.arrive (w.stepId n) inner = .ok _ :=
    Descent.arrive_ok.mpr ⟨finished, _, handed, rfl⟩
  have filled : ∀ b ∈ inner.scope.bindings, b.1 ≠ "" :=
    fun b hb unnamed => named.filled (unnamed ▸ List.mem_map_of_mem hb)
  have bound : place.scope.setAll inner.scope.bindings = _ := Scope.setAll_of_named filled
  rw [came]
  constructor
  · simp only [Station.recorded, station, closing?, bound]
    exact ⟨_, rfl, rfl, rfl, rfl⟩
  · simp only [onward, bound]

/-- A nested walk whose trail is that of a run, but for the path of the node's step: the node
mirrors the record of the run. -/
theorem Walk.mirrors_of_under {w : Walk σ} {place : Place} {n : Node} {z z₁ z₂ : Session σ}
    {d : Descent σ} {record : Record} {t inner : Trail} (tells : Start.Tells record t)
    (named : t.scope.Named) (under : t.Under (w.stepId n ++ "/") inner)
    (begun : z₁.recorder = (w.openStep n z).2.recorder)
    (walked : z₂.recorder = z₁.recorder.extend inner) (sound : z₂.recorder.Sound) :
    let r := d.arrive (w.stepId n) inner
    w.Mirrors place n z d record (w.onward place n r, z₂.leave (w.station place n z r)) inner.steps
      (w.station place n z r).recorded := by
  intro r
  have finishes : inner.ending = .finished ↔ t.ending = .finished := under.ending.eq_iff nofun
  have cuts : inner.ending = .unfinished ↔ t.ending = .unfinished := under.ending.eq_iff nofun
  have aborts : inner.ending = .aborted .task ↔ t.ending = .aborted .task :=
    under.ending.eq_iff nofun
  have completes := tells.completed.trans finishes.symm
  have scope : inner.scope = ⟨record.bindings⟩ := by
    rw [under.scope, tells.bindings]
  obtain ⟨left, -⟩ := Session.leave_visit (v := w.station place n z r) begun walked sound rfl
  refine ⟨?_, tells.steps ▸ under.steps, ?_, ?_, fun complete output beginning => ?_⟩
  · show (z₂.leave _).recorder.record.steps = _
    rw [left, walked, begun]
    rfl
  · unfold Station.recorded
    cases (w.station place n z r).closing with
    | none => exact .inl rfl
    | some c => exact .inr ⟨_, rfl, rfl, rfl⟩
  · rw [completes, ← scope]
    exact recorded_eq_nil (mt cuts.mp tells.ends) (mt aborts.mp tells.kept)
  · have namedInside : inner.scope.Named := under.scope.symm ▸ named
    have succeeds := w.station_finished place n z (completes.mp complete) namedInside output
      beginning
    rw [scope] at succeeds namedInside
    exact ⟨succeeds.1, _, succeeds.2, fun b hb => Entries.get?_merge_of_mem namedInside.distinct hb⟩

/-- A walk has come to a node that runs the workflow of `r` with the inputs of `r`. -/
structure Walk.Hosts (w : Walk σ) (place : Place) (n : Node) (z : Session σ) (d : Descent σ)
    (z₁ : Session σ) (r : Start σ) : Prop where
  registry : w.registry = r.registry
  providers : w.providers = r.providers
  quiet : z.fired = false
  sound : z.recorder.Sound
  here : w.workflow.node? place.current = some n
  visit : w.prelude place n (w.openStep n z).2 = (.descends d, z₁)
  workflow : d.workflow = r.workflow
  inputs : d.inputs = ⟨r.bindings⟩

namespace Start

variable {R : σ → σ → Prop} {r : Start σ} {w : Walk σ} {place : Place} {n : Node}
  {z z₁ : Session σ} {d : Descent σ}

/-- The nested walk is the walk of the run under the path of the node's step, and the visit ends
behind it. -/
theorem advance_hosts {x : σ} {t : Trail} {s : Session σ} (walks : r.Leaves x t s)
    (kept : t.ending ≠ .aborted .task) (respects : r.providers.Respects R)
    (hosts : w.Hosts place n z d z₁ r) (alike : Alike R (r.session x) z₁) {more : Nat}
    (enough : t.height < more) :
    ∃ inner z₂, t.Under (w.stepId n ++ "/") inner ∧ Alike R s z₂ ∧
      z₂.recorder = z₁.recorder.extend inner ∧ z₂.recorder.Sound ∧
      w.advance (Walk.walk more) place z =
        (w.onward place n (d.arrive (w.stepId n) inner),
          z₂.leave (w.station place n z (d.arrive (w.stepId n) inner))) := by
  have nestedWalk : r.outermost.under (w.stepId n ++ "/") = w.inside (w.stepId n) d.workflow := by
    unfold outermost Walk.under Walk.inside
    rw [hosts.registry, hosts.providers, hosts.workflow, String.append_empty]
  obtain ⟨inner, z₂, inside, under, alike₂⟩ := Walks.under walks kept respects
    (Walk.start_under (w.stepId n ++ "/") _ _) alike
  rw [nestedWalk, ← hosts.inputs] at inside
  have begun := Walk.prelude_recorder hosts.visit
  obtain ⟨walked, sound⟩ := inside.recorder_eq (Walk.openStep_sound hosts.sound begun)
  have ran : Walk.walk more (w.inside (w.stepId n) d.workflow) d.inputs z₁ =
      ((inner.ending, inner.scope), z₂) := by
    rw [Walk.walk_eq]
    exact inside.proceed_eq (under.height ▸ enough)
  exact ⟨inner, z₂, under, alike₂, walked, sound,
    Walk.advance_descends hosts.quiet hosts.here hosts.visit ran⟩

/-- Alike sessions have alike worlds, also behind the end of a visit on one side. -/
theorem alike_leave {s z₂ : Session σ} (alike : Alike R s z₂) (v : Station) :
    R s.world (z₂.leave v).world :=
  (alike.leave { v with closing := none } v).world

/-- A run that gave back a record, and a node that runs the same workflow with the same inputs in
a world in which the providers answer alike. The nested walk records the steps of the run with the
path of the node's own step before every id. The step of the node comes behind them, but not where
the workflow finished and hands something back under the empty name; where the node asks neither
for names nor for a beginning, that step outputs the variables of the record and binds them all.
Both walks lead from worlds in which the providers answer alike to such worlds, and they make the
same calls in the same order, in whatever way the world keeps a log of these. -/
theorem run_nested {fuel : Nat} {x : σ} {record : Record}
    (returned : (r.run fuel x).1 = .record record) (named : Scope.Named ⟨r.bindings⟩)
    (respects : r.providers.Respects R) (hosts : w.Hosts place n z d z₁ r)
    (alike : Alike R (r.session x) z₁) {more : Nat} (enough : fuel < more) :
    let out := w.advance (Walk.walk more) place z
    (∃ inside own, w.Mirrors place n z d record out inside own) ∧
      ∃ t s, r.Leaves x t s ∧ r.run fuel x = r.conclude t.ending t.scope s ∧
        R s.world out.2.world ∧
        ∀ log : σ → List Called, r.providers.Logs log →
          Keep r.listeners (fun x y => log y = log x) →
          Keep z.recorder.listeners (fun x y => log y = log x) →
          SameCalls log (log (r.session x).world) (log z₁.world) s.world out.2.world := by
  intro out
  obtain ⟨t, s, walks, result, height, tells⟩ := exists_tells returned
  have height : t.height < more := Nat.lt_of_le_of_lt height enough
  have begun := Walk.prelude_recorder hosts.visit
  have namedEnd : t.scope.Named := Walks.named walks (Walk.start_named named)
  obtain ⟨inner, z₂, under, alike₂, walked, sound, advanced⟩ :=
    advance_hosts walks tells.kept respects hosts alike height
  refine ⟨?_, t, s, walks, result, ?_, fun log logs left right => ?_⟩
  · rw [show out = _ from advanced]
    exact ⟨_, _, Walk.mirrors_of_under tells namedEnd under begun walked sound⟩
  · rw [show out = _ from advanced]
    exact alike_leave alike₂ _
  · have right : Keep z₁.recorder.listeners fun x y => log y = log x := begun ▸ right
    obtain ⟨inner, z₂, -, alike₂, -, -, advanced⟩ := advance_hosts walks tells.kept
      (respects.logged logs _ _) hosts (alike.logged left right) height
    rw [show out = _ from advanced]
    exact (alike_leave alike₂ _).2

/-- Providers in a world that is nothing but the calls made in it. -/
def callsOnly (find : String → Result Workflow) : Providers (List Called) :=
  { clock :=
      { now := fun world => (.nan, world)
        timestamp := fun world => ("", world)
        freshId := fun world => ("", world)
        sleep := fun ms world => { world := world ++ [.sleep ms], result := .returned () } }
    workflows := some fun path name world =>
      { world := world ++ [.workflow path name], result := find path } }

theorem callsOnly_logs (find : String → Result Workflow) : (callsOnly find).Logs id where
  call := by
    intro α e c offered x
    cases offered with
    | sleep => rfl
    | workflows h path name =>
      cases h
      rfl
    | model h | http h | tools h | vault h | interaction h | host h | index h => cases h
  now := fun _ => rfl
  timestamp := fun _ => rfl

theorem callsOnly_respects (find : String → Result Workflow) :
    (callsOnly find).Respects fun _ _ => True where
  call := by
    intro α e c offered x y _
    cases offered with
    | sleep => exact ⟨rfl, rfl, trivial⟩
    | workflows h path name =>
      cases h
      exact ⟨rfl, rfl, trivial⟩
    | model h | http h | tools h | vault h | interaction h | host h | index h => cases h
  now := fun _ _ _ => ⟨rfl, trivial⟩
  timestamp := fun _ _ _ => trivial

/-- A node that runs the workflow of the node `calling`. -/
def outer : Node := { calling with id := "o", properties := [("path", "m")] }

def foundTwice : String → Result Workflow
  | "m" => .returned { nodes := [calling] }
  | _ => .returned { nodes := [binding] }

/-- Runs the node `calling` on its own. -/
def lone : Start (List Called) :=
  { providers := callsOnly foundTwice, workflow := { nodes := [calling] } }

/-- Runs it inside a step. -/
def enclosing : Start (List Called) := { lone with workflow := { nodes := [outer] } }

theorem run_nested_lone :
    ∃ record d z₁, (lone.run 2 []).1 = .record record ∧
      enclosing.outermost.Hosts ⟨"o", [], .empty⟩ outer (enclosing.session []) d z₁ lone ∧
      let out := enclosing.outermost.advance (Walk.walk 3) ⟨"o", [], .empty⟩ (enclosing.session [])
      (∃ inside own, enclosing.outermost.Mirrors ⟨"o", [], .empty⟩ outer (enclosing.session []) d
        record out inside own) ∧
      ∃ t s, lone.Leaves [] t s ∧ lone.run 2 [] = lone.conclude t.ending t.scope s ∧
        SameCalls id [] [.workflow "m" none] s.world out.2.world := by
  have returned : ∃ record, (lone.run 2 []).1 = .record record := ⟨_, rfl⟩
  obtain ⟨record, returned⟩ := returned
  have visit : ∃ d z₁, enclosing.outermost.Hosts ⟨"o", [], .empty⟩ outer (enclosing.session []) d
      z₁ lone ∧ z₁.world = [.workflow "m" none] ∧
      Alike (fun _ _ => True) (lone.session []) z₁ :=
    ⟨_, _, ⟨rfl, rfl, rfl, session_sound .., rfl, rfl, rfl, rfl⟩, rfl, trivial, rfl, nofun, nofun⟩
  obtain ⟨d, z₁, hosts, world, alike⟩ := visit
  obtain ⟨mirrors, t, s, walks, result, -, calls⟩ := run_nested returned ⟨.nil, nofun⟩
    (callsOnly_respects foundTwice) hosts alike (show 2 < 3 by decide)
  refine ⟨record, d, z₁, returned, hosts, mirrors, t, s, walks, result, ?_⟩
  rw [← world]
  exact calls id (callsOnly_logs foundTwice) nofun nofun

/-- A workflow that completes alone, and the node that runs it without a step of its own. -/
theorem own_step_missing :
    (∃ record, ((handing binding found).run 1 []).1 = .record record ∧
        record.status = .completed ∧ record.steps.map (·.nodeId) = ["x"]) ∧
      ((handing unnaming found).run 2 []).2.recorder.record.steps.map (·.nodeId) = ["p/x"] :=
  ⟨⟨_, rfl, rfl, rfl⟩, rfl⟩

end Start
end Runbook
