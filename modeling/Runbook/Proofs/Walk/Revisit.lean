import Runbook.Proofs.Walk.Failure
import Runbook.Proofs.Walk.Forward
import Runbook.Proofs.Walk.Writes

/-! Coming to a node again.

A walk keeps the ids of the nodes that it has begun, by which a loop tells its first visit from a
later one. It keeps the id of a node on every way that leads on from there: behind an outcome,
behind a failure that is passed over, and behind a dismissed request. A walk inside a step starts
with none. So the node of a visit is among them just where the same walk came to it before
(`Walk.Comes.visited_iff`). -/
namespace Runbook

open Visit

variable {σ : Type} {w : Walk σ} {p : Progress} {s : Session σ} {v u : Visiting σ}
  {vs above : List (Visiting σ)}

/-- The walk goes on from behind the one visit to the other. -/
def Visiting.Precedes (u v : Visiting σ) : Prop :=
  ∃ r s, u.ComesTo r s ∧ u.walk.Comes (u.onward r) (s.leave (u.station r)) [v]

/-- The ids of the nodes that a walk has begun. -/
def Progress.visited : Progress → List String
  | .goOn place => place.visited
  | .ended _ _ => []

/-! ### One visit -/

namespace Walk

theorem start_visited (w : Walk σ) (scope : Scope) : (w.start scope).visited = [] := by
  unfold start start?
  cases w.workflow.entry? <;> rfl

section

variable {place place' : Place} {n : Node} {r : Except Halt Visited}

theorem follow_visited {target : Option String} {scope : Scope}
    (h : follow place n target scope = .goOn place') :
    place'.visited = place.visited.insert n.id := by
  cases target with
  | none => cases h
  | some target =>
    cases h
    rfl

theorem onward_visited (h : w.onward place n r = .goOn place') :
    place'.visited = place.visited.insert n.id := by
  obtain ⟨target, scope, follows, -⟩ := onward_follows h
  exact follow_visited follows

/-- Where a walk comes to anything behind a visit, it has kept the node of that. -/
theorem Comes.behind_visited (h : w.Comes (w.onward place n r) s vs) :
    (w.onward place n r).visited = place.visited.insert n.id := by
  cases goes : w.onward place n r with
  | goOn place' => exact onward_visited goes
  | ended => exact absurd (goes ▸ h) not_ended

end

/-! ### A walk -/

/-- A walk forgets no node that it has begun. -/
theorem Comes.visited_subset (h : w.Comes p s vs) (alone : vs = [v]) :
    p.visited ⊆ v.place.visited := by
  induction h with
  | here =>
    cases alone
    exact List.Subset.refl _
  | inside _ _ within =>
    cases alone
    exact absurd rfl within.ne_nil
  | behind _ _ onward ih =>
    intro id begun
    refine ih alone ?_
    rw [Visiting.onward, onward.behind_visited]
    exact List.mem_insert_of_mem begun

/-- What a walk has begun at a visit it had begun where it stood, or it came to it in between. -/
theorem Comes.begun_between (h : w.Comes p s vs) (alone : vs = [v]) {id : String}
    (begun : id ∈ v.place.visited) :
    id ∈ p.visited ∨ ∃ u, w.Comes p s [u] ∧ u.Precedes v ∧ u.node.id = id := by
  induction h with
  | here =>
    cases alone
    exact .inl begun
  | inside _ _ within =>
    cases alone
    exact absurd rfl within.ne_nil
  | @behind u vs r s₁ starts came onward ih =>
    subst alone
    rcases ih rfl with earlier | ⟨x, comes, precedes, same⟩
    · rw [Visiting.onward, onward.behind_visited] at earlier
      rcases List.mem_insert_iff.mp earlier with rfl | earlier
      · exact .inr ⟨u, .here starts, ⟨r, s₁, came, onward⟩, rfl⟩
      · exact .inl earlier
    · exact .inr ⟨x, .behind starts came comes, precedes, same⟩

/-- The innermost of the visits is one of the walk itself, or one of a walk that was started inside
it and comes to its other visits under the same ones. -/
theorem Comes.innermost (h : w.Comes p s vs) (last : vs = above ++ [v]) :
    above = [] ∨ ∃ (x : Walk σ) (scope : Scope) (z : Session σ), x.Comes (x.start scope) z [v] ∧
      ∀ u, x.Comes (x.start scope) z [u] → w.Comes p s (above ++ [u]) := by
  induction h generalizing above with
  | here =>
    cases above with
    | nil => exact .inl rfl
    | cons u us => exact absurd (List.cons.inj last).2.symm (by simp)
  | @inside u us d s₁ starts visit within ih =>
    refine .inr ?_
    cases above with
    | nil => exact absurd (List.cons.inj last).2 within.ne_nil
    | cons x above =>
      obtain ⟨rfl, rfl⟩ := List.cons.inj last
      rcases ih rfl with rfl | ⟨x, scope, z, comes, others⟩
      · exact ⟨_, d.inputs, s₁, within, fun u came => .inside starts visit came⟩
      · exact ⟨x, scope, z, comes, fun u came => .inside starts visit (others u came)⟩
  | behind starts before _ ih =>
    rcases ih last with alone | ⟨x, scope, z, comes, others⟩
    · exact .inl alone
    · exact .inr ⟨x, scope, z, comes, fun u came => .behind starts before (others u came)⟩

end Walk

namespace Visiting.Precedes

/-- From behind a visit on, its node is one that the walk has begun. -/
theorem mem_visited (h : u.Precedes v) : u.node.id ∈ v.place.visited := by
  obtain ⟨r, z, -, onward⟩ := h
  refine onward.visited_subset rfl ?_
  rw [Visiting.onward, Walk.Comes.behind_visited onward]
  exact List.mem_insert_self

/-- Two visits of a walk whose nodes have the same id are visits of one node. -/
theorem node_eq (h : u.Precedes v) (starts : u.Starts) (later : v.Starts)
    (same : u.node.id = v.node.id) : u.node = v.node := by
  obtain ⟨r, z, -, onward⟩ := h
  have here := starts.here
  have there := later.here
  have place : u.place.current = v.place.current := by
    rw [← Workflow.id_of_node? here, same, Workflow.id_of_node? there]
  rw [place, ← onward.walk_eq, there] at here
  exact (Option.some.inj here).symm

end Visiting.Precedes

/-- The node of a visit is among those that the walk has begun just where the walk came to the same
node before, under the same visits. -/
theorem Walk.Comes.visited_iff {scope : Scope} (h : w.Comes (w.start scope) s (above ++ [v])) :
    v.node.id ∈ v.place.visited ↔
      ∃ u, w.Comes (w.start scope) s (above ++ [u]) ∧ u.Precedes v ∧ u.node = v.node := by
  constructor
  · intro begun
    -- A walk starts with no node begun, so it came to this one from there.
    have within {x : Walk σ} {inputs : Scope} {z : Session σ}
        (came : x.Comes (x.start inputs) z [v]) :
        ∃ u, x.Comes (x.start inputs) z [u] ∧ u.Precedes v ∧ u.node = v.node := by
      rcases came.begun_between rfl begun with earlier | ⟨u, before, precedes, same⟩
      · rw [start_visited] at earlier
        cases earlier
      · exact ⟨u, before, precedes, precedes.node_eq (before.starts rfl) (came.starts rfl) same⟩
    rcases h.innermost rfl with rfl | ⟨x, inputs, z, came, others⟩
    · exact within h
    · obtain ⟨u, before, precedes, same⟩ := within came
      exact ⟨u, others u before, precedes, same⟩
  · rintro ⟨u, -, precedes, same⟩
    exact same ▸ precedes.mem_visited

end Runbook
