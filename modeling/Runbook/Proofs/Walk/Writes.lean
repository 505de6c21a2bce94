import Runbook.Proofs.Walk.Visiting

/-! What a walk writes.

A visit changes the variables of its walk by the writes of its outcome, and by nothing where it
came to none (`Visiting.frames`). So the variables that a walk ends with are those it started with,
overridden by the writes of its visits in their order (`Walks.bindings_eq`). -/
namespace Runbook

open Visit

variable {σ : Type}

theorem Entries.merge_append {κ α : Type} [BEq κ] (entries more others : List (κ × α)) :
    merge entries (more ++ others) = merge (merge entries more) others := List.foldl_append

/-! ### One visit -/

namespace Visiting

/-- What the visit comes to, with nested walks run this way, and the session behind it. -/
def came (v : Visiting σ) (run : Walk.Runner σ) : Except Halt Visited × Session σ :=
  visit v.walk.registry v.walk.providers (some (v.walk.nestedRun run v.stepId)) v.node
    v.place.scope (Walk.isFirst v.place v.node) v.begun

/-- What the walk does at the visit: where it is behind it, and the session there. -/
def behind (v : Visiting σ) (run : Walk.Runner σ) : Progress × Session σ :=
  v.walk.advance run v.place v.session

/-- How a visit leaves the variables of its walk. -/
structure Frames (v : Visiting σ) (run : Walk.Runner σ) : Prop where
  /-- An outcome closes the step, and its writes override the variables. -/
  outcome : ∀ x, (v.came run).1 = .ok x → "" ∉ Entries.keys x.outcome.writes →
    (v.behind run).1.scope.bindings = Entries.merge v.place.scope.bindings x.outcome.writes ∧
      (v.behind run).2 = (v.came run).2.close v.opened x.closing
  /-- Without an outcome no variable changes, however the step is closed. -/
  halt : ∀ h, (v.came run).1 = .error h →
    (v.behind run).1.scope = v.place.scope ∧
      ((v.behind run).2 = (v.came run).2 ∨
        ∃ c : Closing, (v.behind run).2 = (v.came run).2.close v.opened c ∧
          (c.status = .skipped ∨ c.status = .error))

theorem behind_eq {v : Visiting σ} (starts : v.Starts) (run : Walk.Runner σ) :
    v.behind run = (v.onward (v.came run).1,
      (v.came run).2.closeWith v.opened (v.walk.closing? v.place.scope (v.came run).1)) := by
  unfold behind came
  rw [Walk.advance_eq run starts.quiet starts.here, visit_eq]
  rfl

end Visiting

/-- A step that is closed without an outcome was skipped or is an error. -/
theorem Walk.closing?_halt {w : Walk σ} {scope : Scope} {h : Halt} {c : Closing}
    (closed : w.closing? scope (.error h) = some c) : c.status = .skipped ∨ c.status = .error := by
  cases h with
  | unfinished => cases closed
  | aborted a =>
    simp only [closing?] at closed
    split at closed <;> cases closed
    exact .inr rfl
  | fault f =>
    rcases taken f with ⟨reason, rfl⟩ | ⟨reason, rfl⟩ | fails
    · cases closed
      exact .inr rfl
    · cases closed
      exact .inl rfl
    · rw [w.closing?_fails scope fails] at closed
      cases closed
      exact .inr rfl

theorem Visiting.frames {v : Visiting σ} (starts : v.Starts) (run : Walk.Runner σ) :
    v.Frames run where
  outcome x came named := by
    have bound := Scope.setAll_eq_none (s := v.place.scope).mpr named
    have names : ∀ b ∈ x.outcome.writes, b.1 ≠ "" := fun b hb unnamed =>
      named (unnamed ▸ List.mem_map_of_mem hb)
    rw [behind_eq starts, came, v.walk.closing?_bound bound]
    refine ⟨?_, rfl⟩
    rw [onward, Walk.onward_ok_scope, Scope.setAll_of_named names]
  halt h came := by
    rw [behind_eq starts, came]
    refine ⟨Walk.onward_halt_scope .., ?_⟩
    cases closed : v.walk.closing? v.place.scope (.error h) with
    | none => exact .inl rfl
    | some c => exact .inr ⟨c, rfl, Walk.closing?_halt closed⟩

/-- The walk goes to every visit that it comes to. -/
theorem Walk.Comes.starts {w : Walk σ} {p : Progress} {s : Session σ} {vs : List (Visiting σ)}
    (h : w.Comes p s vs) {v : Visiting σ} (last : vs.getLast? = some v) : v.Starts := by
  induction h with
  | here starts =>
    cases last
    exact starts
  | @inside u vs d s₁ starts visit within ih => exact ih (within.getLast?_cons u ▸ last)
  | behind _ _ _ ih => exact ih last

/-! ### A walk -/

/-- What a visit wrote: the writes of its outcome, if its step was closed from one. -/
def Station.writes (v : Station) : List (String × Value) :=
  match v.closing, v.result with
  | some _, .ok x => x.outcome.writes
  | _, _ => []

/-- What the visits of the walk itself wrote, in their order. -/
def Trail.writes (t : Trail) : List (String × Value) := t.stations.flatMap Station.writes

/-- Behind a visit that binds no empty name its writes override the variables. -/
theorem Walk.onward_bindings {w : Walk σ} {place : Place} {n : Node} {s : Session σ}
    {r : Except Halt Visited} (binds : ¬ (w.station place n s r).Refuses) :
    (w.onward place n r).scope.bindings =
      Entries.merge place.scope.bindings (w.station place n s r).writes := by
  cases r with
  | error h =>
    have none : (w.station place n s (.error h)).writes = [] := by
      unfold Station.writes
      cases (w.station place n s (.error h)).closing <;> rfl
    rw [none, onward_halt_scope]
    rfl
  | ok x =>
    have named : "" ∉ Entries.keys x.outcome.writes := fun unnamed => binds ⟨x, rfl, unnamed⟩
    have names : ∀ b ∈ x.outcome.writes, b.1 ≠ "" := fun b hb unnamed =>
      named (unnamed ▸ List.mem_map_of_mem hb)
    have closing : (w.station place n s (.ok x)).closing = some x.closing :=
      w.closing?_bound (Scope.setAll_eq_none.mpr named)
    have writes : (w.station place n s (.ok x)).writes = x.outcome.writes := by
      unfold Station.writes
      rw [closing]
      rfl
    rw [writes, onward_ok_scope, Scope.setAll_of_named names]

theorem Walk.merge_behind {w : Walk σ} {place : Place} {n : Node} {s : Session σ}
    {r : Except Halt Visited} {rest : Trail} (binds : ¬ (w.station place n s r).Refuses)
    (behind : rest.scope.bindings =
      Entries.merge (w.onward place n r).scope.bindings rest.writes) :
    rest.scope.bindings =
      Entries.merge place.scope.bindings ((w.station place n s r).writes ++ rest.writes) := by
  rw [Entries.merge_append, behind, onward_bindings binds]

/-- A walk ends with the variables it started with, overridden by what its visits wrote, one behind
the other. -/
theorem Walks.bindings_eq {w : Walk σ} {p : Progress} {s s' : Session σ} {t : Trail}
    (h : Walks w p s t s') (binds : ∀ v ∈ t.stations, ¬ v.Refuses) :
    t.scope.bindings = Entries.merge p.scope.bindings t.writes := by
  induction h with
  | ended | fired | lost => rfl
  | plain quiet here visit onward ih =>
    obtain ⟨here, behind⟩ := List.forall_mem_cons.mp binds
    exact Walk.merge_behind here (ih behind)
  | nested quiet here visit inside onward ihInside ih =>
    obtain ⟨here, behind⟩ := List.forall_mem_cons.mp binds
    exact Walk.merge_behind here (ih behind)

theorem Walks.ending_of_refuses {w : Walk σ} {place : Place} {n : Node} {s z z' : Session σ}
    {t : Trail} {r : Except Halt Visited} (h : Walks w (w.onward place n r) z t z')
    (refuses : (w.station place n s r).Refuses) : ∃ f, t.ending = .left f := by
  obtain ⟨x, rfl, unnamed⟩ := refuses
  rw [w.onward_refused place n (Scope.setAll_of_unnamed unnamed)] at h
  obtain ⟨rfl, -⟩ := h.of_ended
  exact ⟨_, rfl⟩

/-- A walk in which a visit binds the empty name ends there, with the refusal. -/
theorem Walks.left_of_refuses {w : Walk σ} {p : Progress} {s s' : Session σ} {t : Trail}
    (h : Walks w p s t s') {v : Station} (there : v ∈ t.stations) (refuses : v.Refuses) :
    ∃ f, t.ending = .left f := by
  induction h with
  | ended | fired | lost => cases there
  | plain quiet here visit onward ih =>
    rcases List.mem_cons.mp there with rfl | behind
    · exact onward.ending_of_refuses refuses
    · exact ih behind
  | nested quiet here visit inside onward ihInside ih =>
    rcases List.mem_cons.mp there with rfl | behind
    · exact onward.ending_of_refuses refuses
    · exact ih behind

end Runbook
