import Runbook.Proofs.Run.Nesting
import Runbook.Proofs.Run.Steps
import Runbook.Proofs.Walk.Isolation
import Runbook.Proofs.Walk.Writes

/-! The variables of a run and of the walks in it.

A run leaves the initial variables, overridden in the order of the steps by the writes of every step
of the outermost walk that was closed from an outcome. Nothing else a visit did leaves a trace in the
variables of its walk, at whatever depth it was made: not the work before a failure, and not the
steps of a nested walk that did not finish.

A nested walk sees the inputs that its node describes and no other variable of the walk around it,
and that walk sees what is handed back and nothing else of the nested one. -/
namespace Runbook

open Visit

variable {σ : Type}

/-- Each nested walk of a visit ends with its inputs, overridden by what its own visits wrote. -/
def Visiting.FramesInside (v : Visiting σ) : Prop :=
  ∀ d s₁ inner s₂, v.prelude = (.descends d, s₁) →
    Walks (v.inside d.workflow) ((v.inside d.workflow).start d.inputs) s₁ inner s₂ →
    (∀ u ∈ inner.stations, ¬ u.Refuses) →
    inner.scope.bindings = Entries.merge d.inputs.bindings inner.writes

theorem Visiting.framesInside (v : Visiting σ) : v.FramesInside := by
  intro d s₁ inner s₂ _ within binds
  have overridden := within.bindings_eq binds
  rwa [Walk.start_scope] at overridden

namespace Start

/-- The variables in the record of a run are the initial ones, overridden by what the steps of the
outermost walk wrote, in their order. At every depth a visit changes the variables of its walk by
the writes of its outcome, and by nothing where its step is closed without one. -/
theorem run_overrides {r : Start σ} {fuel : Nat} {world : σ} {record : Record}
    (returned : (r.run fuel world).1 = .record record) :
    (∃ t s, r.Leaves world t s ∧ r.run fuel world = r.conclude t.ending t.scope s ∧
      record.steps = t.steps ∧ (t.legs.map (·.step)).Sublist record.steps ∧
      record.bindings = Entries.merge r.bindings t.writes) ∧
    ∀ vs v, r.Comes world vs → vs.getLast? = some v →
      (∀ fuel, v.Frames (Walk.walk fuel)) ∧ v.FramesInside := by
  refine ⟨?_, fun vs v comes last => ⟨fun _ => v.frames (comes.starts last) _, v.framesInside⟩⟩
  obtain ⟨t, s, walks, result, -, tells⟩ := exists_tells returned
  have binds : ∀ v ∈ t.stations, ¬ v.Refuses := by
    intro v there refuses
    obtain ⟨f, left⟩ := Walks.left_of_refuses walks there refuses
    rw [result, left] at returned
    cases returned
  have overridden := Walks.bindings_eq walks binds
  rw [Walk.start_scope] at overridden
  exact ⟨t, s, walks, result, tells.steps, tells.steps ▸ t.own_sublist,
    tells.bindings.trans overridden⟩

/-- A node that binds a text. -/
def writing (id name text : String) : Node :=
  { id, kind := "variable", properties := [("name", name), ("value", text)] }

/-- Between two nodes that bind the same name one is passed over whose workflow binds a variable and
then fails. -/
def overriding : Start (List Record) :=
  { providers := recordsOnly fun path =>
      if path = "s" then .returned { nodes := [binding, lost] } else .raised (.badValue "unreadable")
    workflow := { nodes := [writing "first" "a" "one",
      { calling with properties := [("path", "s"), ("bestEffort", "true")] },
      writing "last" "a" "two"] }
    bindings := [("b", .null)] }

theorem run_overrides_overriding :
    ∃ record, (overriding.run 4 []).1 = .record record ∧
      record.steps.map (fun step => (step.nodeId, step.status)) =
        [("first", .success), ("p/x", .success), ("p/q", .error), ("p", .error),
          ("last", .success)] ∧
      record.bindings.map (·.1) = ["b", "a"] ∧
      (∃ t s, overriding.Leaves [] t s ∧
        overriding.run 4 [] = overriding.conclude t.ending t.scope s ∧
        record.steps = t.steps ∧ (t.legs.map (·.step)).Sublist record.steps ∧
        record.bindings = Entries.merge [("b", .null)] t.writes) ∧
      ∀ vs v, overriding.Comes [] vs → vs.getLast? = some v →
        (∀ fuel, v.Frames (Walk.walk fuel)) ∧ v.FramesInside := by
  have returned : ∃ record, (overriding.run 4 []).1 = .record record ∧
      record.steps.map (fun step => (step.nodeId, step.status)) =
        [("first", .success), ("p/x", .success), ("p/q", .error), ("p", .error),
          ("last", .success)] ∧
      record.bindings.map (·.1) = ["b", "a"] := ⟨_, rfl, rfl, rfl⟩
  obtain ⟨record, returned, steps, names⟩ := returned
  exact ⟨record, returned, steps, names, run_overrides returned⟩

end Start

/-! ### Nested walks -/

/-- Two visits of a node that asks for the same workflow with the same inputs, from any variables
and in sessions that cannot be told apart: they find the workflow alike, and the nested walks make
the same calls, record the same steps, and end alike, however many visits they are given. Behind any
visit of a node that runs a workflow, the variables are those before it, but for what is handed
back where the nested walk finished. -/
theorem Visiting.nested_isolated :
    (∀ (R : σ → σ → Prop) (v u : Visiting σ) (properties properties' : List (String × String)),
      v.AsksAlike u properties properties' → v.walk.providers.Respects R →
      Abreast R v.session u.session → v.session.recorder.Sound → u.session.recorder.Sound →
      FindAlike v.prelude.1 u.prelude.1 ∧
        ∀ d d', v.prelude.1 = .descends d → u.prelude.1 = .descends d' → ∀ fuel,
          Agree R v.prelude.2 u.prelude.2 (v.nestedRun d fuel) (u.nestedRun d' fuel) ∧
            ∀ log : σ → List Called, v.walk.providers.Logs log →
              Keep v.session.recorder.listeners (fun x y => log y = log x) →
              Keep u.session.recorder.listeners (fun x y => log y = log x) →
              SameCalls log (log v.session.world) (log u.session.world)
                (v.nestedRun d fuel).2.world (u.nestedRun d' fuel).2.world) ∧
    ∀ v : Visiting σ, v.Starts → v.walk.registry.handler? v.node.kind = some .nested → ∀ fuel,
      let behind := (v.walk.advance (Walk.walk fuel) v.place v.session).1.scope
      (∀ r, v.prelude.1 = .settled r → behind = v.place.scope) ∧
        ∀ d, v.prelude.1 = .descends d →
          let inner := (v.nestedRun d fuel).1
          (inner.1 ≠ .finished → behind = v.place.scope) ∧
            ∀ name, (∀ outputs, Handover.outputs (d.context.property "output") = .ok outputs →
              name ∉ Entries.keys (inner.2.exports outputs (d.context.property "prefix"))) →
              behind.get? name = v.place.scope.get? name := by
  constructor
  · intro R v u properties properties' asks respects abreast sound sound'
    refine ⟨(asks.prelude respects abreast).1, fun d d' visit visit' fuel => ⟨?_, ?_⟩⟩
    · exact asks.nestedRun respects abreast sound sound' visit visit' fuel
    · intro log logs left right
      exact asks.calls respects abreast sound sound' visit visit' fuel logs left right
  · intro v starts nested fuel behind
    exact ⟨fun r visit => v.advance_scope_settled starts nested visit _,
      fun d visit => v.advance_frame starts visit fuel⟩

namespace Start

/-- The node at a place with a variable that it does not ask for. -/
def atVariable (name : String) (world : List Called) : Visiting (List Called) :=
  ⟨lone.outermost, ⟨"p", [], ⟨[(name, .null)]⟩⟩, calling, lone.session world⟩

def named : Visiting (List Called) := atVariable "a" []

/-- The node with another variable, in a world in which a call was made before. -/
def renamed : Visiting (List Called) := atVariable "b" [.sleep 1]

theorem nested_isolated_renamed :
    (∃ d d', named.prelude.1 = .descends d ∧ renamed.prelude.1 = .descends d' ∧ ∀ fuel,
      Agree (fun _ _ => True) named.prelude.2 renamed.prelude.2 (named.nestedRun d fuel)
        (renamed.nestedRun d' fuel) ∧
      SameCalls id [] [.sleep 1] (named.nestedRun d fuel).2.world
        (renamed.nestedRun d' fuel).2.world) ∧
      ∃ d, named.prelude.1 = .descends d ∧ (named.nestedRun d 1).1.1 = .finished ∧
        ∀ name, (∀ outputs, Handover.outputs (d.context.property "output") = .ok outputs →
          name ∉ Entries.keys ((named.nestedRun d 1).1.2.exports outputs
            (d.context.property "prefix"))) →
          (named.walk.advance (Walk.walk 1) named.place named.session).1.scope.get? name =
            named.place.scope.get? name := by
  have visits : ∃ d d', named.prelude.1 = .descends d ∧ renamed.prelude.1 = .descends d' ∧
      (named.nestedRun d 1).1.1 = .finished := ⟨_, _, rfl, rfl, rfl⟩
  obtain ⟨d, d', visit, visit', finished⟩ := visits
  have asks : named.AsksAlike renamed calling.properties calling.properties :=
    ⟨rfl, rfl, rfl, rfl, rfl, ⟨rfl, rfl, rfl, rfl, rfl⟩⟩
  have abreast : Abreast (fun _ _ => True) named.session renamed.session :=
    ⟨trivial, rfl, fun _ _ _ _ _ _ => ⟨trivial, rfl⟩⟩
  have same := (Visiting.nested_isolated.1 _ _ _ _ _ asks (callsOnly_respects foundTwice) abreast
    (session_sound ..) (session_sound ..)).2 d d' visit visit'
  have frame := Visiting.nested_isolated.2 named ⟨rfl, rfl⟩ rfl 1
  refine ⟨⟨d, d', visit, visit', fun fuel => ⟨(same fuel).1, ?_⟩⟩, d, visit, finished, ?_⟩
  · exact (same fuel).2 id (callsOnly_logs foundTwice) nofun nofun
  · exact (frame.2 d visit).2

end Start
end Runbook
