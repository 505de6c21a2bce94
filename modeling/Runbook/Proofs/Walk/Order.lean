import Mathlib.Data.List.TakeWhile
import Runbook.Proofs.Walk.Alike
import Runbook.Proofs.Walk.Graph
import Runbook.Proofs.Walk.Visiting
import Runbook.Proofs.Workflow

/-! Walks in order.

Where no node is a branch and none has a pointer, each node is followed by the next one, and the
walk ends behind the last. There is one exception: a node behind the first that is called like the
end is taken for the end, and the walk does not come to it or behind it. -/
namespace Runbook

open Visit

variable {σ : Type}

/-! ### Graphs without pointers -/

namespace Workflow

/-- No node is a branch, and none has a pointer of its own to the next one. -/
structure Linear (w : Workflow) : Prop where
  plain : ∀ n ∈ w.nodes, n.isBranch = false
  unpointed : ∀ n ∈ w.nodes, pointed? n.next = none

/-- The nodes up to the first that is called like the end. -/
def upToEnd (nodes : List Node) : List Node := nodes.takeWhile fun n => n.id != endMark

/-- The nodes that follow each other in order, from the first on. -/
def inOrder (w : Workflow) : List Node :=
  match w.nodes with
  | [] => []
  | n :: rest => n :: upToEnd rest

/-- All nodes follow each other, if none behind the first is called like the end. -/
theorem inOrder_eq_nodes {w : Workflow} :
    w.inOrder = w.nodes ↔ ∀ n ∈ w.nodes.tail, n.id ≠ endMark := by
  unfold inOrder
  cases w.nodes with
  | nil => simp
  | cons n rest =>
    have kept : upToEnd rest = rest ↔ ∀ m ∈ rest, m.id ≠ endMark := by
      simp only [upToEnd, List.takeWhile_eq_self_iff, bne_iff_ne]
    simpa using kept

variable {w : Workflow} {before rest : List Node} {n : Node}

theorem upToEnd_eq_cons {nodes ahead : List Node} (h : upToEnd nodes = n :: ahead) :
    ∃ after, nodes = n :: after ∧ ahead = upToEnd after := by
  cases nodes with
  | nil => cases h
  | cons m after =>
    rw [upToEnd, List.takeWhile_cons] at h
    split at h
    · obtain ⟨rfl, rfl⟩ := List.cons.inj h
      exact ⟨after, rfl, rfl⟩
    · cases h

theorem fresh_of_distinct (distinct : w.ids.Nodup) (here : w.nodes = before ++ n :: rest) :
    n.id ∉ before.map (·.id) := by
  rw [ids, here, List.map_append, List.map_cons] at distinct
  intro earlier
  exact (List.nodup_append.mp distinct).2.2 _ earlier _ (List.mem_cons_self ..) rfl

theorem idBehind_append (fresh : n.id ∉ before.map (·.id)) :
    idBehind n.id (before ++ n :: rest) = rest.head?.map (·.id) := by
  induction before with
  | nil => simp [idBehind]
  | cons m before ih =>
    obtain ⟨other, later⟩ := not_or.mp (mt List.mem_cons.mpr fresh)
    have differs : (m.id == n.id) = false := beq_eq_false_iff_ne.mpr (Ne.symm other)
    rw [List.cons_append, idBehind, differs]
    exact ih later

theorem node?_append (distinct : w.ids.Nodup) (here : w.nodes = before ++ n :: rest) :
    w.node? n.id = some n := by
  have fresh := fresh_of_distinct distinct here
  rw [node?, here, List.find?_append]
  have none : before.find? (·.id == n.id) = none := by
    refine List.find?_eq_none.mpr fun m there same => fresh ?_
    exact List.mem_map.mpr ⟨m, there, eq_of_beq same⟩
  simp [none]

/-- Without pointers a node is followed by the next one, unless that is called like the end. -/
theorem successor_linear (linear : w.Linear) (distinct : w.ids.Nodup)
    (here : w.nodes = before ++ n :: rest) (branch : Option Bool) :
    w.successor n branch = (upToEnd rest).head?.map (·.id) := by
  have there : n ∈ w.nodes := by simp [here]
  have next : w.successor n none =
      if w.positional n.id = some endMark then none else w.positional n.id := by
    unfold successor
    simp only [linear.plain n there, linear.unpointed n there, Option.none_or]
  rw [successor_of_plain (linear.plain n there), next, positional, here,
    idBehind_append (fresh_of_distinct distinct here)]
  cases rest with
  | nil => rfl
  | cons m rest =>
    by_cases last : m.id = endMark
    · simp [upToEnd, last]
    · simp [upToEnd, last]

end Workflow

/-! ### Visits that succeed -/

/-- The visit comes to an outcome that says it succeeded. -/
def Station.Succeeded (v : Station) : Prop := ∃ x, v.result = .ok x ∧ x.outcome.status = .success

/-- The visit comes to an outcome that says it succeeded, and the token has not fired when it is
left. -/
def Visiting.Succeeds (v : Visiting σ) : Prop :=
  ∃ x s, v.ComesTo (.ok x) s ∧ x.outcome.status = .success ∧
    (s.leave (v.station (.ok x))).fired = false

/-- A visit that came to something stands before what the walk does behind it. -/
theorem Visiting.ComesTo.leads {v : Visiting σ} {r : Except Halt Visited} {s₁ s' : Session σ}
    {rest : Trail} (starts : v.Starts) (came : v.ComesTo r s₁)
    (onward : Walks v.walk (v.onward r) (s₁.leave (v.station r)) rest s') :
    ∃ t, Walks v.walk (.goOn v.place) v.session t s' ∧ t.stations = v.station r :: rest.stations ∧
      t.ending = rest.ending ∧ t.scope = rest.scope := by
  cases came with
  | plain visit => exact ⟨_, .plain starts.quiet starts.here visit onward, rfl, rfl, rfl⟩
  | nested visit within =>
    exact ⟨_, .nested starts.quiet starts.here visit within onward, rfl, rfl, rfl⟩

/-- The walk visits nodes in order with success: all of them, and then it finishes, unless the last
visit binds the empty name. -/
structure Trail.InOrder (t : Trail) (ns : List Node) : Prop where
  visits : t.stations.map (·.node) <+: ns
  succeeded : ∀ v ∈ t.stations, v.Succeeded
  ends : (t.ending = .finished ∧ t.stations.map (·.node) = ns ∧ ∀ v ∈ t.stations, ¬ v.Refuses) ∨
    (t.ending = .left (Scope.invalidName "''") ∧ ∃ v ∈ t.stations.getLast?, v.Refuses)

namespace Trail.InOrder

variable {t rest : Trail} {v : Station} {ns : List Node}

/-- A visit that binds the empty name is the last. -/
theorem refused (alone : t.stations = [v]) (left : t.ending = .left (Scope.invalidName "''"))
    (succeeded : v.Succeeded) (refuses : v.Refuses) (ns : List Node) :
    t.InOrder (v.node :: ns) where
  visits := by simp [alone]
  succeeded := by
    rw [alone]
    exact List.forall_mem_singleton.mpr succeeded
  ends := .inr ⟨left, v, by rw [alone]; rfl, refuses⟩

/-- A visit that binds names stands before the others. -/
theorem cons (h : rest.InOrder ns) (stations : t.stations = v :: rest.stations)
    (ending : t.ending = rest.ending) (succeeded : v.Succeeded) (binds : ¬ v.Refuses) :
    t.InOrder (v.node :: ns) where
  visits := by
    rw [stations]
    exact List.cons_prefix_cons.mpr ⟨rfl, h.visits⟩
  succeeded := by
    rw [stations]
    exact List.forall_mem_cons.mpr ⟨succeeded, h.succeeded⟩
  ends := by
    rw [stations, ending]
    refine h.ends.imp ?_ ?_
    · rintro ⟨finished, nodes, named⟩
      exact ⟨finished, by rw [List.map_cons, nodes], List.forall_mem_cons.mpr ⟨binds, named⟩⟩
    · rintro ⟨left, u, last, refuses⟩
      refine ⟨left, u, ?_, refuses⟩
      rw [List.getLast?_cons, Option.mem_def.mp last]
      rfl

/-- Where every visit binds names, all nodes are visited. -/
theorem through (h : t.InOrder ns) (binds : ∀ v ∈ t.stations, ¬ v.Refuses) :
    t.ending = .finished ∧ t.stations.map (·.node) = ns := by
  rcases h.ends with ⟨finished, nodes, -⟩ | ⟨-, v, last, refuses⟩
  · exact ⟨finished, nodes⟩
  · exact absurd refuses (binds v (List.mem_of_getLast? last))

theorem broken (h : t.InOrder ns) (there : v ∈ t.stations) (refuses : v.Refuses) :
    t.ending = .left (Scope.invalidName "''") := by
  rcases h.ends with ⟨-, -, binds⟩ | ⟨left, -⟩
  · exact absurd refuses (binds v there)
  · exact left

end Trail.InOrder

/-! ### Walks in order -/

namespace Visiting

variable {v : Visiting σ} {x : Visited}

theorem refuses_iff : (v.station (.ok x)).Refuses ↔
    (v.place.scope.setAll x.outcome.writes).2 ≠ none := by
  rw [Ne, Scope.setAll_eq_none, not_not]
  constructor
  · rintro ⟨y, came, unnamed⟩
    cases came
    exact unnamed
  · exact fun unnamed => ⟨x, rfl, unnamed⟩

theorem onward_unnamed (unnamed : (v.place.scope.setAll x.outcome.writes).2 ≠ none) :
    v.onward (.ok x) =
      .ended (.left (Scope.invalidName "''")) (v.place.scope.setAll x.outcome.writes).1 := by
  refine v.walk.onward_refused v.place v.node (Scope.setAll_of_unnamed ?_)
  exact Decidable.not_not.mp (mt Scope.setAll_eq_none.mpr unnamed)

end Visiting

theorem Trail.InOrder.finished (scope : Scope) : (Trail.stop .finished scope).InOrder [] where
  visits := List.prefix_rfl
  succeeded := List.forall_mem_nil _
  ends := .inl ⟨rfl, rfl, List.forall_mem_nil _⟩

/-- A visit that succeeds stands in order before what the walk visits behind it, if it binds
names. -/
theorem Visiting.inOrder {v : Visiting σ} {x : Visited} {s₁ : Session σ} {ns : List Node}
    (starts : v.Starts) (came : v.ComesTo (.ok x) s₁) (success : x.outcome.status = .success)
    (behind : (v.place.scope.setAll x.outcome.writes).2 = none → ∃ rest s',
      Walks v.walk (v.onward (.ok x)) (s₁.leave (v.station (.ok x))) rest s' ∧ rest.InOrder ns) :
    ∃ t s', Walks v.walk (.goOn v.place) v.session t s' ∧ t.InOrder (v.node :: ns) := by
  have succeeded : (v.station (.ok x)).Succeeded := ⟨x, rfl, success⟩
  by_cases bound : (v.place.scope.setAll x.outcome.writes).2 = none
  · obtain ⟨rest, s', onward, ordered⟩ := behind bound
    obtain ⟨t, walks, stations, ending, -⟩ := came.leads starts onward
    refine ⟨t, s', walks, ordered.cons stations ending succeeded fun refuses => ?_⟩
    exact refuses_iff.mp refuses bound
  · have onward : Walks v.walk (v.onward (.ok x)) (s₁.leave (v.station (.ok x)))
        (.stop (.left (Scope.invalidName "''")) (v.place.scope.setAll x.outcome.writes).1)
        (s₁.leave (v.station (.ok x))) := by
      rw [onward_unnamed bound]
      exact .ended
    obtain ⟨t, walks, stations, ending, -⟩ := came.leads starts onward
    exact ⟨t, _, walks, .refused stations ending succeeded (refuses_iff.mpr bound) ns⟩

/-- A walk of a graph without pointers whose visits succeed visits the nodes in order. -/
theorem Walk.exists_inOrder {w : Walk σ} (linear : w.workflow.Linear)
    (distinct : w.workflow.ids.Nodup) {before rest : List Node} {n : Node}
    (nodes : w.workflow.nodes = before ++ n :: rest) {place : Place} (stands : place.current = n.id)
    {s : Session σ} (quiet : s.fired = false)
    (succeeds : ∀ v, w.Comes (.goOn place) s [v] → v.Succeeds) :
    ∃ t s', Walks w (.goOn place) s t s' ∧ t.InOrder (n :: Workflow.upToEnd rest) := by
  induction ahead : Workflow.upToEnd rest generalizing before n rest place s with
  | nil =>
    let v : Visiting σ := ⟨w, place, n, s⟩
    have starts : v.Starts := ⟨quiet, stands ▸ Workflow.node?_append distinct nodes⟩
    obtain ⟨x, s₁, came, success, -⟩ := succeeds v (.here starts)
    refine v.inOrder starts came success fun bound => ?_
    refine ⟨_, s₁.leave (v.station (.ok x)), ?_, .finished (place.scope.setAll x.outcome.writes).1⟩
    rw [Visiting.onward, w.onward_bound place n bound,
      Workflow.successor_linear linear distinct nodes, ahead]
    exact .ended
  | cons m ms ih =>
    let v : Visiting σ := ⟨w, place, n, s⟩
    have starts : v.Starts := ⟨quiet, stands ▸ Workflow.node?_append distinct nodes⟩
    obtain ⟨x, s₁, came, success, still⟩ := succeeds v (.here starts)
    refine v.inOrder starts came success fun bound => ?_
    have onward : v.onward (.ok x) = .goOn ⟨m.id, place.visited.insert n.id,
        (place.scope.setAll x.outcome.writes).1⟩ := by
      rw [Visiting.onward, w.onward_bound place n bound,
        Workflow.successor_linear linear distinct nodes, ahead]
      rfl
    obtain ⟨after, rfl, rfl⟩ := Workflow.upToEnd_eq_cons ahead
    have later : w.workflow.nodes = (before ++ [n]) ++ m :: after := by simp [nodes]
    rw [onward]
    exact ih later rfl still (fun u comes => succeeds u (.behind starts came (onward ▸ comes))) rfl

/-! ### Calm sessions -/

/-- The token has not fired, and no listener fires it. -/
structure Session.Calm (s : Session σ) : Prop where
  quiet : s.fired = false
  listeners : ∀ l ∈ s.recorder.listeners, ∀ step x, (l step x).fires = false

theorem Recorder.tell_calm {listeners : List (Listener σ)}
    (calm : ∀ l ∈ listeners, ∀ step x, (l step x).fires = false) (step : Step) (x : σ) :
    (tell step listeners x).2 = false := by
  induction listeners generalizing x with
  | nil => rfl
  | cons l rest ih =>
    obtain ⟨here, others⟩ := List.forall_mem_cons.mp calm
    simp only [tell, here, ih others, Bool.or_false]

theorem Session.Calm.leave {s : Session σ} (h : s.Calm) (v : Station) : (s.leave v).Calm where
  quiet := by
    unfold Session.leave closeWith close Recorder.close
    cases v.closing with
    | none => exact h.quiet
    | some c =>
      cases s.recorder.isOpen v.opened.ticket with
      | false => exact h.quiet
      | true => simp [h.quiet, Recorder.tell_calm h.listeners]
  listeners := by
    rw [leave_listeners]
    exact h.listeners

/-- A visit that calls no provider is left calmly. -/
theorem Visiting.calm_behind {v : Visiting σ} (h : v.session.Calm) (r : Except Halt Visited) :
    (v.begun.leave (v.station r)).Calm := by
  have begun : v.begun.Calm := ⟨h.quiet, h.listeners⟩
  exact begun.leave _

/-! ### Visits one by one -/

theorem Visiting.ComesTo.unique {v : Visiting σ} {r r' : Except Halt Visited} {s s' : Session σ}
    (h : v.ComesTo r s) (h' : v.ComesTo r' s') : r = r' ∧ s = s' := by
  cases h with
  | plain visit =>
    cases h' with
    | plain visit' =>
      cases visit.symm.trans visit'
      exact ⟨rfl, rfl⟩
    | nested visit' => cases visit.symm.trans visit'
  | nested visit within =>
    cases h' with
    | plain visit' => cases visit.symm.trans visit'
    | nested visit' within' =>
      cases visit.symm.trans visit'
      obtain ⟨rfl, rfl⟩ := within.unique within'
      exact ⟨rfl, rfl⟩

theorem Walk.Comes.not_ended {w : Walk σ} {e : Ending} {scope : Scope} {s : Session σ}
    {vs : List (Visiting σ)} : ¬ w.Comes (.ended e scope) s vs := by
  intro h
  cases h

/-- The visits of a walk itself are its first one and those behind it. -/
theorem Walk.Comes.first_or_behind {v u : Visiting σ} {r : Except Halt Visited} {s₁ : Session σ}
    (starts : v.Starts) (came : v.ComesTo r s₁)
    (h : v.walk.Comes (.goOn v.place) v.session [u]) :
    u = v ∨ v.walk.Comes (v.onward r) (s₁.leave (v.station r)) [u] := by
  obtain ⟨w, place, n, s⟩ := v
  cases h with
  | here starts' =>
    cases starts.here.symm.trans starts'.here
    exact .inl rfl
  | inside _ _ within => exact absurd rfl within.ne_nil
  | behind starts' came' onward =>
    cases starts.here.symm.trans starts'.here
    obtain ⟨rfl, rfl⟩ := came.unique came'
    exact .inr onward

end Runbook
