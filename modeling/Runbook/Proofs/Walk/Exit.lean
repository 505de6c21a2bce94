import Runbook.Proofs.Walk.Recording
import Runbook.Proofs.Workflow

/-! What leaves a walk.

On a sound graph there are two ways for a failure to leave a walk that no step reports: the last
visit binds the empty name, or it is a branch that does not hold and that points nowhere with the
empty text, which is then looked for among the nodes. Which of them happened is read off the last
visit (`Walks.left_iff`). -/
namespace Runbook

open Visit

variable {σ : Type} {w : Walk σ} {place : Place} {n : Node} {s s' : Session σ} {t : Trail}

/-- The visit is one to a branch that does not hold and has the empty text for its pointer. -/
def Station.Strays (v : Station) : Prop :=
  ∃ x, v.result = .ok x ∧ v.node.isBranch = true ∧ x.outcome.branch = some false ∧
    v.node.falseNext = some ""

/-- What the visit came to leaves the walk, unless the token has fired. -/
def Station.Escapes (v : Station) (fired : Bool) : Prop := v.Refuses ∨ (v.Strays ∧ fired = false)

def Ending.IsLeft (e : Ending) : Prop := ∃ f, e = .left f

/-- A walk that goes on without a visit was turned back by the token, or found no node. -/
theorem Walks.turned (h : Walks w (.goOn place) s t s') (last : t.stations = []) :
    (t.ending.IsLeft ↔ s'.fired = false) ∧
      (t.ending.IsLeft → w.workflow.node? place.current = none) := by
  cases h with
  | fired fired =>
    have stays : ¬ (Trail.stop (.cancelled cancelledMessage) place.scope).ending.IsLeft := by
      rintro ⟨f, left⟩
      cases left
    exact ⟨⟨fun left => absurd left stays, fun quiet => by simp [fired] at quiet⟩,
      fun left => absurd left stays⟩
  | lost quiet missing => exact ⟨⟨fun _ => quiet, fun _ => ⟨_, rfl⟩⟩, fun _ => missing⟩
  | plain | nested => cases last

theorem Walks.follow_left {target : Option String} {scope : Scope}
    (h : Walks w (Walk.follow place n target scope) s t s') (last : t.stations = []) :
    (t.ending.IsLeft → ∃ id, target = some id ∧ w.workflow.node? id = none ∧ s'.fired = false) ∧
      (target ≠ none → s'.fired = false → t.ending.IsLeft) := by
  cases target with
  | none =>
    obtain ⟨rfl, -⟩ := h.of_ended
    refine ⟨?_, fun some => absurd rfl some⟩
    rintro ⟨f, left⟩
    cases left
  | some id =>
    obtain ⟨turned, missing⟩ := Walks.turned h last
    exact ⟨fun left => ⟨id, rfl, missing left, turned.mp left⟩, fun _ => turned.mpr⟩

/-- A way on to a node of the graph leaves no walk. -/
theorem Walks.follow_stays {target : Option String} {scope : Scope}
    (h : Walks w (Walk.follow place n target scope) s t s') (last : t.stations = [])
    (known : ∀ id, target = some id → id ∈ w.workflow.ids) : ¬ t.ending.IsLeft := by
  intro left
  obtain ⟨id, way, missing, -⟩ := (h.follow_left last).1 left
  have there := Workflow.isSome_node? (known id way)
  rw [missing] at there
  cases there

theorem Walks.ended_stays {e : Ending} {scope : Scope} (h : Walks w (.ended e scope) s t s')
    (inside : ∀ f, e ≠ .left f) : ¬ t.ending.IsLeft := by
  obtain ⟨rfl, -⟩ := h.of_ended
  exact fun ⟨f, left⟩ => inside f left

/-- Without a branch every way on leads to a node. -/
theorem Walk.successor_known (sound : w.workflow.fault? = none) (hn : n ∈ w.workflow.nodes)
    (id : String) (way : w.workflow.successor n none = some id) : id ∈ w.workflow.ids := by
  rcases Workflow.successor_mem sound hn way with known | ⟨-, -, branch, -⟩
  · exact known
  · cases branch

/-- A visit that came to no outcome leaves no walk. -/
theorem Walks.halt_stays (sound : w.workflow.fault? = none) (hn : n ∈ w.workflow.nodes)
    {halt : Halt} (h : Walks w (w.onward place n (.error halt)) s t s') (last : t.stations = []) :
    ¬ t.ending.IsLeft := by
  have treats := w.treats place n (.error halt)
  generalize w.closing? place.scope (.error halt) = c, w.onward place n (.error halt) = p
    at treats h
  cases treats with
  | redirected _ set =>
    refine h.follow_stays last fun id way => ?_
    split at way
    · cases way
    · rename_i on
      cases way
      exact Workflow.onCancel_mem sound hn set on
  | passed => exact h.follow_stays last (Walk.successor_known sound hn)
  | _ => exact h.ended_stays nofun

/-- Where nothing comes behind a visit, what the visit came to says whether the walk is left. -/
theorem Walks.left_of_last (sound : w.workflow.fault? = none) (hn : n ∈ w.workflow.nodes)
    {r : Except Halt Visited} (h : Walks w (w.onward place n r) s t s') (last : t.stations = [])
    {v : Station} (node : v.node = n) (result : v.result = r) :
    t.ending.IsLeft ↔ v.Escapes s'.fired := by
  subst node result
  rcases came : v.result with halt | x <;> rw [came] at h
  · have reports : ¬ v.Escapes s'.fired := by
      rintro (⟨x, ok, -⟩ | ⟨⟨x, ok, -⟩, -⟩) <;> rw [came] at ok <;> cases ok
    exact ⟨fun left => absurd left (h.halt_stays sound hn last), fun left => absurd left reports⟩
  · cases bound : (place.scope.setAll x.outcome.writes).2 with
    | some f =>
      rw [w.onward_refused place _ bound] at h
      obtain ⟨rfl, -⟩ := h.of_ended
      exact ⟨fun _ => .inl ⟨x, came, Scope.unnamed_of_setAll bound⟩, fun _ => ⟨f, rfl⟩⟩
    | none =>
      rw [w.onward_bound place _ bound] at h
      obtain ⟨lost, left⟩ := h.follow_left last
      constructor
      · intro isLeft
        obtain ⟨id, way, missing, quiet⟩ := lost isLeft
        rcases Workflow.successor_mem sound hn way with known | ⟨rfl, isBranch, branch, empty⟩
        · have there := Workflow.isSome_node? known
          rw [missing] at there
          cases there
        · exact .inr ⟨⟨x, came, isBranch, branch, empty⟩, quiet⟩
      · rintro (⟨y, ok, unnamed⟩ | ⟨⟨y, ok, isBranch, branch, empty⟩, quiet⟩) <;>
          rw [came] at ok <;> cases ok
        · exact absurd unnamed (Scope.setAll_eq_none.mp bound)
        · refine left ?_ quiet
          rw [branch, Workflow.successor_empty isBranch empty]
          nofun

theorem Walks.left_of_getLast {p : Progress} (h : Walks w p s t s')
    (sound : w.workflow.fault? = none) {v : Station} (last : t.stations.getLast? = some v) :
    t.ending.IsLeft ↔ v.Escapes s'.fired := by
  -- Only the last visit matters, and what stands before it is dropped one by one.
  have behind {x : Station} {rest : Trail} (here : (x :: rest.stations).getLast? = some v) :
      (rest.stations = [] ∧ x = v) ∨ rest.stations.getLast? = some v := by
    cases others : rest.stations with
    | nil =>
      rw [others] at here
      exact .inl ⟨rfl, Option.some.inj here⟩
    | cons y more =>
      rw [others, List.getLast?_cons_cons] at here
      exact .inr here
  induction h with
  | ended | fired | lost => cases last
  | plain quiet here visit onward ih =>
    rcases behind last with ⟨none, rfl⟩ | last
    · exact onward.left_of_last sound (Workflow.mem_of_node? here) none rfl rfl
    · exact ih sound last
  | nested quiet here visit inside onward ihInside ihOnward =>
    rcases behind last with ⟨none, rfl⟩ | last
    · exact onward.left_of_last sound (Workflow.mem_of_node? here) none rfl rfl
    · exact ihOnward sound last

/-- A walk of a sound graph is left just where its last visit escapes. -/
theorem Walks.left_iff {scope : Scope} (h : Walks w (w.start scope) s t s')
    (sound : w.workflow.fault? = none) :
    t.ending.IsLeft ↔ ∃ v, t.stations.getLast? = some v ∧ v.Escapes s'.fired := by
  cases last : t.stations.getLast? with
  | some v =>
    rw [h.left_of_getLast sound last]
    exact ⟨fun escapes => ⟨v, rfl, escapes⟩, fun ⟨_, same, escapes⟩ =>
      Option.some.inj same ▸ escapes⟩
  | none =>
    refine ⟨fun left => ?_, fun ⟨_, visit, _⟩ => nomatch visit⟩
    have nothing := List.getLast?_eq_none_iff.mp last
    unfold Walk.start Walk.start? Workflow.entry? at h
    cases nodes : w.workflow.nodes with
    | nil =>
      rw [nodes] at h
      exact absurd left (Walks.ended_stays h nofun)
    | cons n rest =>
      rw [nodes] at h
      have missing := (Walks.turned h nothing).2 left
      have known : n.id ∈ w.workflow.ids := by
        rw [Workflow.ids, nodes]
        exact List.mem_cons_self ..
      have there := Workflow.isSome_node? known
      rw [missing] at there
      cases there

end Runbook
