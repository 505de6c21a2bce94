import Runbook.Proofs.Walk.Twins

/-! What passes between a walk and the walks inside it.

Inwards, a node that runs a workflow passes on the inputs it describes and nothing else: from
scopes in which it finds the same workflow and describes the same inputs, the nested walk is the
same (`Visiting.nestedRun_agree`). Outwards, it binds what the nested walk hands back and nothing
else, and nothing at all where that walk did not finish (`Visiting.advance_scope`). -/
namespace Runbook

variable {σ : Type} {R : σ → σ → Prop}

/-! ### What a node asks for -/

/-- A node asks for the same workflow with the same inputs. -/
structure Context.AsksAlike (c c' : Context σ) : Prop where
  node : c'.node = c.node
  providers : c'.providers = c.providers
  path : c'.trimmed "path" = c.trimmed "path"
  name : c'.optional "name" = c.optional "name"
  inputs : Handover.inputs ((c.node.property? "input").getD "") c'.scope =
    Handover.inputs ((c.node.property? "input").getD "") c.scope

namespace Visit

theorem descend_congr {c c' : Context σ} (h : c.AsksAlike c') :
    descend c' = (do
      let d ← descend c
      return { d with context := c' }) := by
  have fault : c'.fault = c.fault := by
    funext message
    simp only [Context.fault, h.node]
  have loadFault : loadFault c' = loadFault c := by
    funext path f
    simp only [Visit.loadFault, fault]
  unfold descend Context.fail Context.require
  simp only [h.path, h.name, h.node, h.providers, h.inputs, fault, loadFault]
  split
  · rfl
  · simp only [bind_assoc, pure_bind]

end Visit

namespace Visiting

open Visit

/-- What the node sees of the visit once its properties are filled. -/
def context (v : Visiting σ) (properties : List (String × String)) : Context σ :=
  { node := v.node, properties, scope := v.place.scope, providers := v.walk.providers
    firstVisit := Walk.isFirst v.place v.node }

/-- The nested walk of a visit that has come to a workflow. -/
def nestedRun (v : Visiting σ) (d : Descent σ) (fuel : Nat) : (Ending × Scope) × Session σ :=
  Walk.walk fuel (v.inside d.workflow) d.inputs v.prelude.2

/-! ### Inwards -/

section

variable {v u : Visiting σ} {properties properties' : List (String × String)}

/-- The first part of a visit whose properties are filled is that of its kind. -/
theorem prelude_of_filled {kind : Kind}
    (known : v.walk.registry.handler? v.node.kind = some kind)
    (filled : fillProperties v.place.scope v.node.properties = .ok properties) :
    v.prelude = preludeOf kind (v.context properties) v.begun := by
  show Visit.prelude .. = _
  simp only [Visit.prelude, known, filled, context]

theorem prelude_eq_descend (nested : v.walk.registry.handler? v.node.kind = some .nested)
    (filled : fillProperties v.place.scope v.node.properties = .ok properties) :
    v.prelude = match descend (v.context properties) v.begun with
      | (.ok d, s) => (.descends d, s)
      | (.error h, s) => (.settled (.error h), s) := by
  rw [prelude_of_filled nested filled]
  rcases came : descend (v.context properties) v.begun with ⟨_ | d, s⟩ <;>
    simp only [preludeOf, came, if_true]

/-- A visit of the same node that asks for the same, from other variables and in another
session. -/
structure AsksAlike (v u : Visiting σ) (properties properties' : List (String × String)) :
    Prop where
  walk : u.walk = v.walk
  node : u.node = v.node
  nested : v.walk.registry.handler? v.node.kind = some .nested
  filled : fillProperties v.place.scope v.node.properties = .ok properties
  filled' : fillProperties u.place.scope u.node.properties = .ok properties'
  asks : (v.context properties).AsksAlike (u.context properties')

/-- Both visits fail to find a workflow, or they find the same one with the same inputs. -/
inductive FindAlike : Prelude σ → Prelude σ → Prop
  | fails (h : Halt) : FindAlike (.settled (.error h)) (.settled (.error h))
  | finds {d d' : Descent σ} (workflow : d'.workflow = d.workflow) (inputs : d'.inputs = d.inputs) :
    FindAlike (.descends d) (.descends d')

theorem AsksAlike.prelude (h : v.AsksAlike u properties properties')
    (respects : v.walk.providers.Respects R) (abreast : Abreast R v.session u.session) :
    FindAlike v.prelude.1 u.prelude.1 ∧ Abreast R v.prelude.2 u.prelude.2 := by
  have begun : Abreast R v.begun u.begun := by
    have opened := begun_abreast respects abreast
    unfold Visiting.begun
    rw [h.walk, h.node]
    exact opened
  have found : FindAlike v.prelude.1 u.prelude.1 ∧ R v.prelude.2.world u.prelude.2.world ∧
      v.prelude.2.fired = u.prelude.2.fired := by
    rw [prelude_eq_descend h.nested h.filled,
      prelude_eq_descend (by rw [h.walk, h.node]; exact h.nested) h.filled',
      descend_congr h.asks, Act.bind_apply]
    obtain ⟨same, world, fired⟩ := (composed_descend (c := v.context properties)).respects respects
      begun.world begun.fired
    generalize descend (v.context properties) v.begun = out at *
    generalize descend (v.context properties) u.begun = out' at *
    obtain ⟨r, s⟩ := out
    obtain ⟨r', z⟩ := out'
    cases same
    cases r with
    | error halt => exact ⟨.fails halt, world, fired⟩
    | ok d => exact ⟨.finds rfl rfl, world, fired⟩
  obtain ⟨find, world, fired⟩ := found
  exact ⟨find,
    begun.of_recorder world fired (Walk.prelude_recorder rfl) (Walk.prelude_recorder rfl)⟩

/-- The nested walk is the same from other variables of the node's own walk. -/
theorem AsksAlike.nestedRun (h : v.AsksAlike u properties properties')
    (respects : v.walk.providers.Respects R) (abreast : Abreast R v.session u.session)
    (sound : v.session.recorder.Sound) (sound' : u.session.recorder.Sound) {d d' : Descent σ}
    (visit : v.prelude.1 = .descends d) (visit' : u.prelude.1 = .descends d') (fuel : Nat) :
    Agree R v.prelude.2 u.prelude.2 (v.nestedRun d fuel) (u.nestedRun d' fuel) := by
  obtain ⟨find, behind⟩ := h.prelude respects abreast
  rw [visit, visit'] at find
  cases find with
  | finds workflow inputs =>
    have walk : u.inside d'.workflow = v.inside d.workflow := by
      unfold inside stepId
      rw [h.walk, h.node, workflow]
    unfold Visiting.nestedRun
    rw [walk, inputs, Walk.walk_eq, Walk.walk_eq]
    exact Walk.proceed_agree fuel _ _ respects behind
      (Walk.openStep_sound sound (Walk.prelude_recorder rfl))
      (Walk.openStep_sound sound' (Walk.prelude_recorder rfl))

/-- The same calls are made on either side, from the first to the last that the nested walk makes,
in whatever way the world keeps a log of them. -/
theorem AsksAlike.calls (h : v.AsksAlike u properties properties')
    (respects : v.walk.providers.Respects R) (abreast : Abreast R v.session u.session)
    (sound : v.session.recorder.Sound) (sound' : u.session.recorder.Sound) {d d' : Descent σ}
    (visit : v.prelude.1 = .descends d) (visit' : u.prelude.1 = .descends d') (fuel : Nat)
    {log : σ → List Called} (logs : v.walk.providers.Logs log)
    (left : Keep v.session.recorder.listeners fun x y => log y = log x)
    (right : Keep u.session.recorder.listeners fun x y => log y = log x) :
    SameCalls log (log v.session.world) (log u.session.world) (v.nestedRun d fuel).2.world
      (u.nestedRun d' fuel).2.world :=
  (h.nestedRun (respects.logged logs _ _) (abreast.logged left right) sound sound' visit visit'
    fuel).twins.abreast.world.2

end

/-! ### Outwards -/

section

variable {v : Visiting σ}

/-- A visit of a node that runs a workflow binds nothing if it comes to none. -/
theorem advance_scope_settled (starts : v.Starts)
    (nested : v.walk.registry.handler? v.node.kind = some .nested) {r : Except Halt Visited}
    (visit : v.prelude.1 = .settled r) (run : Walk.Runner σ) :
    (v.walk.advance run v.place v.session).1.scope = v.place.scope := by
  have visit : v.prelude = (.settled r, v.prelude.2) := Prod.ext visit rfl
  rw [Walk.advance_settled run starts.quiet starts.here visit]
  cases r with
  | error halt => exact Walk.onward_halt_scope ..
  | ok x =>
    obtain ⟨kind, known, other, -⟩ := prelude_settled visit
    cases nested.symm.trans known
    exact absurd rfl other

/-- Behind a visit that came to a workflow the variables are those before it, or the workflow
finished and what is handed back was bound. -/
theorem advance_scope (starts : v.Starts) {d : Descent σ} (visit : v.prelude.1 = .descends d)
    (fuel : Nat) :
    let inner := (v.nestedRun d fuel).1
    let behind := (v.walk.advance (Walk.walk fuel) v.place v.session).1.scope
    behind = v.place.scope ∨ inner.1 = .finished ∧
      ∃ writes, d.handedBack inner.2 = .ok writes ∧ behind = (v.place.scope.setAll writes).1 := by
  intro inner behind
  have visit : v.prelude = (.descends d, v.prelude.2) := Prod.ext visit rfl
  rcases ran : v.nestedRun d fuel with ⟨⟨e, child⟩, s₂⟩
  have inner_eq : inner = (e, child) := congrArg Prod.fst ran
  have advanced := Walk.advance_descends starts.quiet starts.here visit ran
  let r := d.deliver (e.toExcept d.workflow v.stepId child)
  have behind_eq : behind = (v.onward r).scope := congrArg (·.1.scope) advanced
  rw [behind_eq, inner_eq]
  rcases came : r with halt | x
  · exact .inl (Walk.onward_halt_scope ..)
  · obtain ⟨_, writes, arrived, handed, rfl⟩ := Descent.deliver_ok came
    obtain ⟨finished, rfl⟩ := Ending.toExcept_ok.mp arrived
    exact .inr ⟨finished, writes, handed, Walk.onward_ok_scope ..⟩

/-- Nothing is bound unless the workflow finished, and then only what it hands back. -/
theorem advance_frame (starts : v.Starts) {d : Descent σ} (visit : v.prelude.1 = .descends d)
    (fuel : Nat) :
    let inner := (v.nestedRun d fuel).1
    let behind := (v.walk.advance (Walk.walk fuel) v.place v.session).1.scope
    (inner.1 ≠ .finished → behind = v.place.scope) ∧
      ∀ name, (∀ outputs, Handover.outputs (d.context.property "output") = .ok outputs →
        name ∉ Entries.keys (inner.2.exports outputs (d.context.property "prefix"))) →
        behind.get? name = v.place.scope.get? name := by
  intro inner behind
  rcases v.advance_scope starts visit fuel with same | ⟨finished, writes, handed, bound⟩
  · exact ⟨fun _ => same, fun name _ => congrArg (·.get? name) same⟩
  · refine ⟨fun stopped => absurd finished stopped, fun name spared => ?_⟩
    obtain ⟨outputs, described, rfl⟩ := Descent.handedBack_ok.mp handed
    show Scope.get? behind name = _
    rw [show behind = _ from bound]
    exact Scope.get?_setAll_of_not_mem (spared outputs described)

end

end Visiting
end Runbook
