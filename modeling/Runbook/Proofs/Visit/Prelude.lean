import Runbook.Proofs.Results
import Runbook.Proofs.Visit.Outcome

/-! The two parts of a visit.

A visit may run another workflow, once and at one place. Up to there it is its `prelude`, which
knows nothing of how workflows are run: it has either settled the visit or come to a `Descent`,
the workflow to be run and its inputs. What the visit comes to behind the nested run is
`Descent.deliver`, which calls nobody. `visit_eq` puts the two together. -/
namespace Runbook

variable {σ : Type}

/-- A property that is missing counts as empty. -/
theorem Context.property_getD (c : Context σ) (name : String) :
    c.property name = (Entries.get? name c.properties).getD "" := by
  unfold property propertyOr
  split
  · rename_i empty
    rw [empty, Option.getD_some]
  · rename_i missing
    rw [missing, Option.getD_none]
  · rename_i given
    rw [given, Option.getD_some]

/-- A property that is given is what the node sees of it, blank or not. -/
theorem Context.property_eq {c : Context σ} {name text : String}
    (there : Entries.get? name c.properties = some text) : c.property name = text := by
  rw [Context.property_getD, there, Option.getD_some]

/-! ### Filling the properties -/

namespace Visit

variable {scope : Scope} {properties filled : List (String × String)}

theorem fillProperties_cons {e : String × String} :
    fillProperties scope (e :: properties) = .ok filled ↔
      ∃ shown others, (if isRaw e.1 then .ok e.2 else Template.resolve e.2 scope) = .ok shown ∧
        fillProperties scope properties = .ok others ∧ filled = (e.1, shown) :: others := by
  obtain ⟨key, s⟩ := e
  cases raw : isRaw key <;>
    simp [fillProperties, raw, bind_eq_ok, pure, Except.pure, eq_comm (b := filled)]

theorem fillProperties_isOk
    (h : ∀ e ∈ properties, isRaw e.1 = true ∨ ∃ text, Template.resolve e.2 scope = .ok text) :
    ∃ filled, fillProperties scope properties = .ok filled := by
  induction properties with
  | nil => exact ⟨[], rfl⟩
  | cons e rest ih =>
    obtain ⟨here, behind⟩ := List.forall_mem_cons.mp h
    obtain ⟨others, done⟩ := ih behind
    have own :
        ∃ shown, (if isRaw e.1 then .ok e.2 else Template.resolve e.2 scope) = .ok shown := by
      split
      · exact ⟨_, rfl⟩
      · rename_i cooked
        exact here.resolve_left cooked
    obtain ⟨shown, own⟩ := own
    exact ⟨_, fillProperties_cons.mpr ⟨shown, others, own, done, rfl⟩⟩

/-- A property is filled where it stands. -/
theorem fillProperties_get? (h : fillProperties scope properties = .ok filled) {name text : String}
    (cooked : isRaw name = false) (there : Entries.get? name properties = some text) :
    ∃ shown, Template.resolve text scope = .ok shown ∧ Entries.get? name filled = some shown := by
  induction properties generalizing filled with
  | nil => cases there
  | cons e rest ih =>
    obtain ⟨shown, others, own, behind, rfl⟩ := fillProperties_cons.mp h
    by_cases same : e.1 == name
    · simp only [Entries.get?, same, if_true] at there ⊢
      cases there
      rw [eq_of_beq same, cooked] at own
      exact ⟨shown, own, rfl⟩
    · simp only [Entries.get?, same, Bool.false_eq_true, if_false] at there ⊢
      exact ih behind there

/-- What is filled where it is used stays as it was written. -/
theorem fillProperties_raw (h : fillProperties scope properties = .ok filled) {name : String}
    (raw : isRaw name = true) : Entries.get? name filled = Entries.get? name properties := by
  induction properties generalizing filled with
  | nil =>
    cases h
    rfl
  | cons e rest ih =>
    obtain ⟨shown, others, own, behind, rfl⟩ := fillProperties_cons.mp h
    by_cases same : e.1 == name
    · rw [eq_of_beq same, raw] at own
      cases own
      simp only [Entries.get?, same, if_true]
    · simp only [Entries.get?, same, Bool.false_eq_true, if_false]
      exact ih behind

end Visit

/-! ### What does not run workflows -/

namespace Context

variable (c : Context σ) (run : Option (Workflow → Scope → Act σ Scope))

theorem property_runNested : property { c with runNested := run } = c.property := rfl

theorem trimmed_runNested : trimmed { c with runNested := run } = c.trimmed := rfl

theorem writes_runNested : writes { c with runNested := run } = c.writes := rfl

theorem number_runNested : number { c with runNested := run } = c.number := by
  funext name default
  unfold number fault
  rw [trimmed_runNested c run]

end Context

namespace Visit

open Act (Composed)

section

variable (c : Context σ) (run : Option (Workflow → Scope → Act σ Scope))

theorem limit_runNested : limit { c with runNested := run } = limit c := by
  unfold limit
  rw [Context.number_runNested c run]

theorem present_runNested : present { c with runNested := run } = present c := by
  unfold present
  rfl

theorem indexNote_runNested : indexNote { c with runNested := run } = indexNote c := rfl

theorem syncIndex_runNested : syncIndex { c with runNested := run } = syncIndex c := by
  unfold syncIndex Context.fail Context.require Context.fault
  rw [present_runNested c run, indexNote_runNested c run, Context.trimmed_runNested c run,
    Context.writes_runNested c run]

theorem hostCommand_runNested : hostCommand { c with runNested := run } = hostCommand c := by
  unfold hostCommand Context.fail Context.require Context.fault
  rw [present_runNested c run, Context.trimmed_runNested c run, Context.writes_runNested c run]

end

theorem handle_runNested {kind : Kind} (h : kind ≠ .nested) (c : Context σ)
    (run : Option (Workflow → Scope → Act σ Scope)) :
    kind.handle { c with runNested := run } = kind.handle c := by
  cases kind with
  | nested => exact absurd rfl h
  | sleep =>
    show sleep { c with runNested := run } = sleep c
    unfold sleep
    rw [Context.number_runNested c run]
  | searchNotes =>
    show searchNotes { c with runNested := run } = searchNotes c
    unfold searchNotes
    rw [limit_runNested c run]
    rfl
  | listNotes =>
    show listNotes { c with runNested := run } = listNotes c
    unfold listNotes
    rw [limit_runNested c run]
    rfl
  | syncIndex => exact syncIndex_runNested c run
  | hostCommand => exact hostCommand_runNested c run
  | _ => rfl

/-! ### Coming to another workflow -/

/-- A visit that has come to running another workflow. -/
structure Descent (σ : Type) where
  context : Context σ
  workflow : Workflow
  inputs : Scope

/-- Finds the workflow that a node names, and its inputs. -/
def descend (c : Context σ) : Act σ (Descent σ) := do
  let path := c.trimmed "path"
  if path.isEmpty then c.fail "Workflow node missing 'path' property"
  let resolve ← c.require "workflows" c.providers.workflows
  let workflow ← (Act.call (resolve path (c.optional "name"))).mapFault (loadFault c path)
  let inputs ← Act.ofExcept (Handover.inputs ((c.node.property? "input").getD "") c.scope)
  return { context := c, workflow, inputs := ⟨inputs⟩ }

theorem composed_descend {c : Context σ} :
    Composed c.providers (descend c) fun d => d.context = c := by
  unfold descend
  refine Context.composed_refusal fun _ => ?_
  refine .bind Context.composed_require fun resolve hresolve => ?_
  refine .bind (.mapFault _ (.call (.workflows hresolve _ _))) fun workflow _ => ?_
  exact .bind .ofExcept fun inputs _ => .pure rfl

namespace Descent

/-- What is handed back from the scope that the nested run ended with. -/
def handedBack (d : Descent σ) (child : Scope) : Except Fault (List (String × Value)) :=
  (Handover.outputs (d.context.property "output")).map fun outputs =>
    child.exports outputs (d.context.property "prefix")

theorem handedBack_ok {d : Descent σ} {child : Scope} {writes : List (String × Value)} :
    d.handedBack child = .ok writes ↔
      ∃ outputs, Handover.outputs (d.context.property "output") = .ok outputs ∧
        child.exports outputs (d.context.property "prefix") = writes := by
  unfold handedBack
  cases Handover.outputs (d.context.property "output") <;> simp [Except.map]

def outcome (d : Descent σ) (child : Scope) : Except Fault Outcome :=
  (d.handedBack child).map fun writes => { output := .record writes, writes }

/-- The end of a visit whose nested run is over. -/
def deliver (d : Descent σ) : Except Halt Scope → Except Halt Visited
  | .ok child =>
    match d.outcome child with
    | .ok o => .ok ⟨o, d.context.properties⟩
    | .error f => .error (.fault f)
  | .error h => .error h

/-- A visit that runs a workflow succeeds with what the nested run hands back. -/
theorem deliver_ok {d : Descent σ} {r : Except Halt Scope} {x : Visited} (h : d.deliver r = .ok x) :
    ∃ child writes, r = .ok child ∧ d.handedBack child = .ok writes ∧
      x = ⟨{ output := .record writes, writes }, d.context.properties⟩ := by
  rcases r with halt | child
  · cases h
  · simp only [deliver, outcome] at h
    rcases handed : d.handedBack child with f | writes <;> rw [handed] at h <;> cases h
    exact ⟨child, writes, rfl, handed, rfl⟩

end Descent

theorem nested_eq (c : Context σ) (run : Workflow → Scope → Act σ Scope) :
    nested { c with runNested := some run } =
      (do
        let d ← descend c
        let child ← run d.workflow d.inputs
        Act.ofExcept (d.outcome child)) := by
  unfold nested descend
  dsimp only
  rw [Context.trimmed_runNested c (some run)]
  split
  · rfl
  · simp only [bind_assoc, pure_bind]
    refine bind_congr fun resolve => bind_congr fun workflow => bind_congr fun inputs =>
      bind_congr fun child => ?_
    rw [Context.property_runNested c (some run)]
    simp only [Descent.outcome, Descent.handedBack]
    cases Handover.outputs (c.property "output") <;> rfl

/-! ### The first part -/

/-- What a visit comes to before it runs any other workflow. -/
inductive Prelude (σ : Type)
  | settled (r : Except Halt Visited)
  | descends (d : Descent σ)

/-- The rest of a visit, with the way workflows are run. -/
def Prelude.resume (run : Workflow → Scope → Act σ Scope) :
    Prelude σ × Session σ → Except Halt Visited × Session σ
  | (.settled r, s) => (r, s)
  | (.descends d, s) => (d.deliver (run d.workflow d.inputs s).1, (run d.workflow d.inputs s).2)

/-- The first part of a visit to a node whose kind is known and whose properties are filled. -/
def preludeOf (kind : Kind) (c : Context σ) (s : Session σ) : Prelude σ × Session σ :=
  if kind = .nested then
    match descend c s with
    | (.ok d, s) => (.descends d, s)
    | (.error h, s) => (.settled (.error h), s)
  else
    match kind.handle c s with
    | (.ok o, s) => (.settled (.ok ⟨o, c.properties⟩), s)
    | (.error h, s) => (.settled (.error h), s)

def prelude (registry : Registry Kind) (providers : Providers σ) (node : Node) (scope : Scope)
    (firstVisit : Bool) (s : Session σ) : Prelude σ × Session σ :=
  match registry.handler? node.kind with
  | none =>
    (.settled (.error (.fault
      (.node ("Unknown node type '" ++ node.kind ++ "'") (some node.id)))), s)
  | some kind =>
    match fillProperties scope node.properties with
    | .error f => (.settled (.error (.fault f)), s)
    | .ok properties => preludeOf kind { node, properties, scope, providers, firstVisit } s

theorem resume_preludeOf (kind : Kind) (c : Context σ) (run : Workflow → Scope → Act σ Scope)
    (s : Session σ) :
    (do
      let outcome ← kind.handle { c with runNested := some run }
      return ⟨outcome, c.properties⟩ : Act σ Visited) s =
      Prelude.resume run (preludeOf kind c s) := by
  rw [Act.bind_apply]
  by_cases isNested : kind = .nested
  · subst isNested
    have opened : Kind.nested.handle { c with runNested := some run } = _ := nested_eq c run
    rw [opened, Act.bind_apply, preludeOf, if_pos rfl]
    rcases done : descend c s with ⟨_ | d, s₁⟩
    · rfl
    · have kept : d.context = c := composed_descend.value done
      simp only [Act.bind_apply, Prelude.resume]
      rcases run d.workflow d.inputs s₁ with ⟨_ | child, s₂⟩
      · rfl
      · simp only [Act.ofExcept_apply, Descent.deliver, kept]
        cases d.outcome child <;> rfl
  · rw [handle_runNested isNested, preludeOf, if_neg isNested]
    rcases kind.handle c s with ⟨_ | o, s₁⟩ <;> rfl

theorem visit_eq (registry : Registry Kind) (providers : Providers σ)
    (run : Workflow → Scope → Act σ Scope) (node : Node) (scope : Scope) (firstVisit : Bool)
    (s : Session σ) :
    visit registry providers (some run) node scope firstVisit s =
      Prelude.resume run (prelude registry providers node scope firstVisit s) := by
  unfold visit prelude
  cases registry.handler? node.kind with
  | none => rfl
  | some kind =>
    cases fillProperties scope node.properties with
    | error f => rfl
    | ok properties =>
      exact resume_preludeOf kind { node, properties, scope, providers, firstVisit } run s

/-! ### What the first part does -/

variable (registry : Registry Kind) (providers : Providers σ) (node : Node) (scope : Scope)
  (firstVisit : Bool)

theorem preludeOf_frame (kind : Kind) (c : Context σ) (s : Session σ) (r : Recorder σ) :
    preludeOf kind c { s with recorder := r } =
      ((preludeOf kind c s).1, { (preludeOf kind c s).2 with recorder := r }) := by
  simp only [preludeOf]
  split
  · rw [composed_descend.frame s r]
    rcases descend c s with ⟨_ | d, s₁⟩ <;> rfl
  · rename_i other
    rw [(Kind.composed_handle other c).frame s r]
    rcases kind.handle c s with ⟨_ | o, s₁⟩ <;> rfl

/-- The first part neither reads nor touches the recorder. -/
theorem prelude_frame (s : Session σ) (r : Recorder σ) :
    prelude registry providers node scope firstVisit { s with recorder := r } =
      ((prelude registry providers node scope firstVisit s).1,
        { (prelude registry providers node scope firstVisit s).2 with recorder := r }) := by
  simp only [prelude]
  split
  · rfl
  · split
    · rfl
    · exact preludeOf_frame _ _ s r

theorem prelude_recorder (s : Session σ) :
    (prelude registry providers node scope firstVisit s).2.recorder = s.recorder := by
  have same := congrArg (·.2.recorder)
    (prelude_frame registry providers node scope firstVisit s s.recorder)
  exact same

/-- Whatever holds between sessions from each call of a node to the next, holds over the first
part. -/
theorem preludeOf_keeps (kind : Kind) (c : Context σ) {R : Session σ → Session σ → Prop}
    (refl : ∀ s, R s s) (trans : ∀ s₁ s₂ s₃, R s₁ s₂ → R s₂ s₃ → R s₁ s₃)
    (call : ∀ {α : Type} {e : Called} (call : Call σ α), c.providers.Offers e call →
      ∀ s, R s (Act.after call s))
    (now : ∀ s, R s { s with world := (c.providers.clock.now s.world).2 }) (s : Session σ) :
    R s (preludeOf kind c s).2 := by
  simp only [preludeOf]
  split
  · have kept := composed_descend.keeps refl trans call now s
    rcases done : descend c s with ⟨_ | d, s₁⟩ <;> rw [done] at kept <;> exact kept
  · rename_i other
    have kept := (Kind.composed_handle other c).keeps refl trans call now s
    rcases done : kind.handle c s with ⟨_ | o, s₁⟩ <;> rw [done] at kept <;> exact kept

theorem prelude_keeps {R : Session σ → Session σ → Prop}
    (refl : ∀ s, R s s) (trans : ∀ s₁ s₂ s₃, R s₁ s₂ → R s₂ s₃ → R s₁ s₃)
    (call : ∀ {α : Type} {e : Called} (call : Call σ α), providers.Offers e call →
      ∀ s, R s (Act.after call s))
    (now : ∀ s, R s { s with world := (providers.clock.now s.world).2 }) (s : Session σ) :
    R s (prelude registry providers node scope firstVisit s).2 := by
  simp only [prelude]
  split
  · exact refl s
  · split
    · exact refl s
    · exact preludeOf_keeps _ _ refl trans call now s

theorem preludeOf_respects (kind : Kind) (c : Context σ) {R : σ → σ → Prop}
    (respects : c.providers.Respects R) {s z : Session σ} (world : R s.world z.world)
    (fired : s.fired = z.fired) :
    (preludeOf kind c s).1 = (preludeOf kind c z).1 ∧
      R (preludeOf kind c s).2.world (preludeOf kind c z).2.world ∧
      (preludeOf kind c s).2.fired = (preludeOf kind c z).2.fired := by
  simp only [preludeOf]
  split
  · have alike := composed_descend.respects respects world fired
    generalize descend c s = out at *
    generalize descend c z = out' at *
    obtain ⟨r, s₁⟩ := out
    obtain ⟨r', z₁⟩ := out'
    obtain ⟨same, alike⟩ := alike
    cases same
    cases r <;> exact ⟨rfl, alike⟩
  · rename_i other
    have alike := (Kind.composed_handle other c).respects respects world fired
    generalize kind.handle c s = out at *
    generalize kind.handle c z = out' at *
    obtain ⟨r, s₁⟩ := out
    obtain ⟨r', z₁⟩ := out'
    obtain ⟨same, alike⟩ := alike
    cases same
    cases r <;> exact ⟨rfl, alike⟩

/-- In worlds in which the providers answer alike the first part comes to the same. -/
theorem prelude_respects {R : σ → σ → Prop} (respects : providers.Respects R) {s z : Session σ}
    (world : R s.world z.world) (fired : s.fired = z.fired) :
    let here := prelude registry providers node scope firstVisit s
    let there := prelude registry providers node scope firstVisit z
    here.1 = there.1 ∧ R here.2.world there.2.world ∧ here.2.fired = there.2.fired := by
  simp only [prelude]
  split
  · exact ⟨rfl, world, fired⟩
  · split
    · exact ⟨rfl, world, fired⟩
    · exact preludeOf_respects _ _ respects world fired

variable {registry providers node scope firstVisit}

/-- A visit that its first part settles is one to a kind that runs no workflow. -/
theorem prelude_settled {s s' : Session σ} {v : Visited}
    (h : prelude registry providers node scope firstVisit s = (.settled (.ok v), s')) :
    ∃ kind, registry.handler? node.kind = some kind ∧ kind ≠ .nested ∧ kind.Suits v.outcome := by
  simp only [prelude] at h
  split at h
  · cases h
  · rename_i kind known
    split at h
    · cases h
    · simp only [preludeOf] at h
      split at h
      · split at h <;> cases h
      · rename_i other
        split at h
        · rename_i done
          cases h
          exact ⟨kind, known, other, (Kind.composed_handle other _).value done⟩
        · cases h

/-- A visit descends at a kind that runs a workflow, with its own properties filled. -/
theorem prelude_descends {s s' : Session σ} {d : Descent σ}
    (h : prelude registry providers node scope firstVisit s = (.descends d, s')) :
    registry.handler? node.kind = some .nested ∧
      ∃ properties, fillProperties scope node.properties = .ok properties ∧
        d.context = { node, properties, scope, providers, firstVisit } := by
  simp only [prelude] at h
  split at h
  · cases h
  · rename_i kind known
    split at h
    · cases h
    · rename_i properties filled
      simp only [preludeOf] at h
      split at h
      · rename_i isNested
        split at h
        · rename_i done
          cases h
          exact ⟨isNested ▸ known, properties, filled, composed_descend.value done⟩
        · cases h
      · split at h <;> cases h

/-! ### What a node descends to -/

section
variable {c : Context σ} {s s' : Session σ} {d : Descent σ}

theorem require_eq_ok {α : Type} {name : String} {provider : Option α} {a : α} :
    c.require name provider s = (.ok a, s') ↔ provider = some a ∧ s = s' := by
  cases provider with
  | none => exact ⟨fun h => (nomatch h), fun h => (nomatch h.1)⟩
  | some b => exact ⟨by rintro ⟨⟩; exact ⟨rfl, rfl⟩, by rintro ⟨⟨⟩, rfl⟩; rfl⟩

/-- A node descends where it has a path, the provider returns a workflow, and the inputs can be
read. -/
theorem descend_eq_ok :
    descend c s = (.ok d, s') ↔
      (c.trimmed "path").isEmpty = false ∧ ∃ find inputs, c.providers.workflows = some find ∧
        (find (c.trimmed "path") (c.optional "name") s.world).result = .returned d.workflow ∧
        Handover.inputs ((c.node.property? "input").getD "") c.scope = .ok inputs ∧
        d = ⟨c, d.workflow, ⟨inputs⟩⟩ ∧
        Act.after (find (c.trimmed "path") (c.optional "name")) s = s' := by
  unfold descend
  cases (c.trimmed "path").isEmpty with
  | true =>
    simp only [if_true, Act.bind_apply]
    exact ⟨fun h => (nomatch h), fun h => (nomatch h.1)⟩
  | false =>
    simp only [Bool.false_eq_true, if_false, true_and, Act.bind_eq_ok, require_eq_ok,
      Act.mapFault_eq_ok, Act.call_eq_ok, Act.ofExcept_eq_ok]
    constructor
    · rintro ⟨find, _, ⟨given, rfl⟩, workflow, _, ⟨found, rfl⟩, inputs, _, ⟨read, rfl⟩, done⟩
      cases done
      exact ⟨find, inputs, given, found, read, rfl, rfl⟩
    · rintro ⟨find, inputs, given, found, read, same, rfl⟩
      refine ⟨find, s, ⟨given, rfl⟩, d.workflow, _, ⟨found, rfl⟩, inputs, _, ⟨read, rfl⟩, ?_⟩
      rw [same]
      rfl

end

end Visit
end Runbook
