import Runbook.Proofs.Workflow
import Runbook.Proofs.Workflow.Legible

/-! Which values are workflows.

A value is a workflow just where all its nodes can be read and the graph that it describes is sound.
A value that is none is refused, but for one case: the first node that cannot be read is a mapping,
or nothing but the name cannot be read. Data text leaves a node no way to fail but its
properties. -/
namespace Runbook.Workflow

/-! ### Workflows -/

/-- What the workflow is named by. -/
def givenName (v : Value) : Value := (v.field? "name").getD (.str "")

/-- The workflow that a value describes with a list of nodes. -/
def described (v : Value) (path : Option String) (raws : List Value) : Workflow :=
  { name := (givenName v).display, nodes := raws.mapIdx fun i raw => nodeOf (i + 1) raw, path }

/-- A workflow whose graph is without fault. -/
def accept (w : Workflow) : Except Fault Workflow :=
  match w.fault? with
  | some f => .error (refused f)
  | none => .ok w

theorem accept_eq_ok {w w' : Workflow} : w.accept = .ok w' ↔ w.Sound ∧ w' = w := by
  rw [← fault?_eq_none, accept]
  cases w.fault? with
  | none => simp [eq_comm]
  | some f => simp

theorem accept_error {w : Workflow} {f : Fault} (h : w.accept = .error f) : f.IsLoad := by
  unfold accept at h
  split at h <;> cases h
  exact ⟨_, _, rfl⟩

/-- How a value with a list of nodes is read. -/
theorem ofValue_nodes {v : Value} {raws : List Value} (h : v.field? "nodes" = some (.list raws))
    (path : Option String) :
    ofValue v path = (do
      let nodes ← nodesOfValues 1 raws
      let name ← (givenName v).written
      accept ⟨name, nodes, path⟩) := by
  unfold ofValue
  cases v with
  | map entries =>
    dsimp only
    rw [h]
    rfl
  | _ => cases h

/-- A value without a list of nodes is refused. -/
theorem ofValue_unlisted {v : Value} (h : ∀ raws, v.field? "nodes" ≠ some (.list raws))
    (path : Option String) : ∃ f, ofValue v path = .error f ∧ f.IsLoad := by
  unfold ofValue
  split
  · split
    · rename_i raws listed
      exact absurd listed (h raws)
    · exact ⟨_, rfl, _, _, rfl⟩
  · exact ⟨_, rfl, _, _, rfl⟩

theorem described_eq (v : Value) (path : Option String) (raws : List Value) :
    described v path raws =
      ⟨(givenName v).display, raws.mapIdx fun i raw => nodeOf (1 + i) raw, path⟩ := by
  simp only [described, Nat.add_comm 1]

theorem ofValue_eq_ok {v : Value} {path : Option String} {w : Workflow} :
    ofValue v path = .ok w ↔
      ∃ raws, v.field? "nodes" = some (.list raws) ∧ (∀ raw ∈ raws, Legible raw) ∧
        (givenName v).hasNumerals = true ∧ (described v path raws).Sound ∧
        w = described v path raws := by
  by_cases listed : ∃ raws, v.field? "nodes" = some (.list raws)
  · obtain ⟨raws, h⟩ := listed
    simp only [ofValue_nodes h, bind_eq_ok, nodesOfValues_eq_ok, written_eq_ok, accept_eq_ok]
    constructor
    · rintro ⟨nodes, ⟨legible, rfl⟩, name, ⟨has, rfl⟩, sound, rfl⟩
      rw [← described_eq] at sound ⊢
      exact ⟨raws, h, legible, has, sound, rfl⟩
    · rintro ⟨others, same, legible, has, sound, rfl⟩
      cases h.symm.trans same
      rw [described_eq] at sound ⊢
      exact ⟨_, ⟨legible, rfl⟩, _, ⟨has, rfl⟩, sound, rfl⟩
  · obtain ⟨f, failed, -⟩ := ofValue_unlisted (not_exists.mp listed) path
    rw [failed]
    exact ⟨nofun, fun ⟨raws, h, _⟩ => absurd ⟨raws, h⟩ listed⟩

theorem ofValue_fails (v : Value) (path : Option String) :
    (∃ f, ofValue v path = .error f ∧ ¬ f.IsLoad) ↔
      ∃ raws, v.field? "nodes" = some (.list raws) ∧
        (Trips raws ∨ ((∀ raw ∈ raws, Legible raw) ∧ (givenName v).hasNumerals = false)) := by
  by_cases listed : ∃ raws, v.field? "nodes" = some (.list raws)
  · obtain ⟨raws, h⟩ := listed
    simp only [h, Option.some.injEq, Value.list.injEq, exists_eq_left']
    rw [← nodesOfValues_fails 1 raws, ← written_fails]
    simp only [ofValue_nodes h, bind_eq_error, nodesOfValues_eq_ok]
    constructor
    · rintro ⟨f, failed | ⟨nodes, ⟨legible, -⟩, failed | ⟨name, -, failed⟩⟩, other⟩
      · exact .inl ⟨f, failed, other⟩
      · exact .inr ⟨legible, f, failed, other⟩
      · exact absurd (accept_error failed) other
    · rintro (⟨f, failed, other⟩ | ⟨legible, f, failed, other⟩)
      · exact ⟨f, .inl failed, other⟩
      · exact ⟨f, .inr ⟨_, ⟨legible, rfl⟩, .inl failed⟩, other⟩
  · obtain ⟨f, failed, refuses⟩ := ofValue_unlisted (not_exists.mp listed) path
    refine ⟨?_, fun ⟨raws, h, _⟩ => absurd ⟨raws, h⟩ listed⟩
    rintro ⟨g, same, other⟩
    cases failed.symm.trans same
    exact absurd refuses other

theorem givenName_of_writable {v : Value} (h : v.Writable) : (givenName v).hasNumerals = true := by
  unfold givenName
  cases there : v.field? "name" with
  | none => simp [Value.str, Value.hasNumerals]
  | some name => exact (h.field there).hasNumerals

/-- A value is a workflow just where all its nodes can be read, the name too, and the graph that it
describes is sound. It fails with no refusal just where the first node that cannot be read is a
mapping, or the name alone cannot be read. Data text whose nodes are mappings, and their properties
mappings or nothing, describes a workflow whenever the graph is sound. -/
theorem ofValue_loads (v : Value) (path : Option String) :
    (∀ w, ofValue v path = .ok w ↔
      ∃ raws, v.field? "nodes" = some (.list raws) ∧ (∀ raw ∈ raws, Legible raw) ∧
        (givenName v).hasNumerals = true ∧ (described v path raws).Sound ∧
        w = described v path raws) ∧
    ((∃ f, ofValue v path = .error f ∧ ¬ f.IsLoad) ↔
      ∃ raws, v.field? "nodes" = some (.list raws) ∧
        (Trips raws ∨ ((∀ raw ∈ raws, Legible raw) ∧ (givenName v).hasNumerals = false))) ∧
    ∀ text raws, Json.parse text = .ok v → v.field? "nodes" = some (.list raws) →
      (∀ raw ∈ raws, IsMapping raw ∧ PlainProperties raw) → (described v path raws).Sound →
      ofValue v path = .ok (described v path raws) := by
  refine ⟨fun w => ofValue_eq_ok, ofValue_fails v path, ?_⟩
  intro text raws read listed plain sound
  have writable := Json.writable_of_parse read
  refine ofValue_eq_ok.mpr ⟨raws, listed, fun raw there => ?_, givenName_of_writable writable,
    sound, rfl⟩
  exact legible_of_writable ((writable.field listed).item raw there) (plain raw there).1
    (plain raw there).2

/-- A workflow of one node. -/
def single (fields : List (String × Value)) : Value :=
  .record [("nodes", .list [.record fields])]

/-- A node with nothing but an id and a kind. -/
def setting : List (String × Value) := [("id", .str "a"), ("type", .str "set")]

theorem ofValue_loads_single :
    Json.parse "\x7b\"nodes\": [\x7b\"id\": \"a\", \"type\": \"set\"\x7d]\x7d" =
        .ok (single setting) ∧
      (single setting).field? "nodes" = some (.list [.record setting]) ∧
      IsMapping (.record setting) ∧ PlainProperties (.record setting) ∧
      (described (single setting) none [.record setting]).Sound ∧
      ofValue (single setting) none = .ok (described (single setting) none [.record setting]) := by
  have read : Json.parse "\x7b\"nodes\": [\x7b\"id\": \"a\", \"type\": \"set\"\x7d]\x7d" =
      .ok (single setting) := by
    with_unfolding_all rfl
  have plain : PlainProperties (.record setting) := nofun
  have sound : (described (single setting) none [.record setting]).Sound :=
    fault?_eq_none.mp (by with_unfolding_all rfl)
  have each : ∀ raw ∈ [Value.record setting], IsMapping raw ∧ PlainProperties raw :=
    List.forall_mem_singleton.mpr ⟨⟨_, rfl⟩, plain⟩
  exact ⟨read, rfl, ⟨_, rfl⟩, plain, sound,
    (ofValue_loads (single setting) none).2.2 _ [.record setting] read rfl each sound⟩

/-- Two values that fail with no refusal: the properties of the first are a number, and the second
describes a sound graph, its properties are not given together, but one of them has no text. -/
theorem ofValue_unrefused :
    let mistyped := [("id", Value.str "a"), ("type", .str "set"), ("properties", .int 5)]
    let dated := [("id", Value.str "a"), ("type", .str "set"),
      ("when", .list [.scalar (.moment "2020-01-01")])]
    ofValue (single mistyped) none = .error .wrongType ∧
      ofValue (single dated) none = .error .wrongType ∧ ¬ (Fault.wrongType).IsLoad ∧
      IsMapping (.record dated) ∧ PlainProperties (.record dated) ∧
      (described (single dated) none [.record dated]).Sound := by
  refine ⟨by with_unfolding_all rfl, by with_unfolding_all rfl, nofun, ⟨_, rfl⟩, nofun, ?_⟩
  exact fault?_eq_none.mp (by with_unfolding_all rfl)

end Runbook.Workflow
