import Runbook.Proofs.Run.Steps
import Runbook.Proofs.Visit.Control
import Runbook.Proofs.Walk.Forward
import Runbook.Proofs.Walk.Order
import Runbook.Proofs.Workflow.Loading

/-! Runs in order.

A run of a workflow without branches and pointers, whose visits succeed, completes with the
successful steps of its nodes in their order, up to a node behind the first that is called like the
end. A visit that binds the empty name breaks it off. -/
namespace Runbook

open Visit

variable {σ : Type}

/-! ### Recorded steps -/

/-- What the step of a node looks like that was closed with success. -/
def Walk.successOf (w : Walk σ) (n : Node) : String × String × StepStatus :=
  (w.stepId n, n.kind, .success)

def Step.seen (s : Step) : String × String × StepStatus := (s.nodeId, s.kind, s.status)

theorem Walk.leg?_succeeded {w : Walk σ} {place : Place} {n : Node} {s : Session σ}
    {r : Except Halt Visited} (succeeded : (w.station place n s r).Succeeded)
    (binds : ¬ (w.station place n s r).Refuses) :
    ∃ l, (w.station place n s r).leg? = some l ∧ l.step.seen = w.successOf n := by
  obtain ⟨x, came, success⟩ := succeeded
  cases (came : r = .ok x)
  have named : "" ∉ Entries.keys x.outcome.writes := fun unnamed => binds ⟨x, rfl, unnamed⟩
  have closed : (w.station place n s (.ok x)).closing = some x.closing :=
    w.closing?_bound (Scope.setAll_eq_none.mpr named)
  rw [Station.leg?, closed]
  refine ⟨_, rfl, ?_⟩
  rw [Walk.successOf, ← success]
  rfl

/-- The steps of a walk whose visits succeed and bind names. -/
theorem Walks.seen {w : Walk σ} {p : Progress} {s s' : Session σ} {t : Trail}
    (h : Walks w p s t s') (succeeded : ∀ v ∈ t.stations, v.Succeeded)
    (binds : ∀ v ∈ t.stations, ¬ v.Refuses) :
    t.legs.map (·.step.seen) = t.stations.map (w.successOf ·.node) := by
  induction h with
  | ended | fired | lost => rfl
  | plain quiet here visit onward ih | nested quiet here visit inside onward _ ih =>
    obtain ⟨first, others⟩ := List.forall_mem_cons.mp succeeded
    obtain ⟨named, othersNamed⟩ := List.forall_mem_cons.mp binds
    obtain ⟨l, leg, seen⟩ := Walk.leg?_succeeded first named
    show (List.filterMap Station.leg? (_ :: _)).map _ = _
    rw [List.filterMap_cons_some leg, List.map_cons, seen]
    exact congrArg _ (ih others othersNamed)

namespace Start

variable {r : Start σ} {world : σ} {t : Trail} {s : Session σ}

/-! ### Runs that complete -/

/-- The run completed with the steps of a trail: its record says so, and it is given back unless the
history fails in another way than the system does. -/
structure Completes (r : Start σ) (t : Trail) (out : RunResult × Session σ) : Prop where
  completed : out.2.recorder.record.status = .completed
  steps : out.2.recorder.record.steps = t.steps
  bindings : out.2.recorder.record.bindings = t.scope.bindings
  returned : out.1 = .record out.2.recorder.record ∨
    ∃ save record x f, r.providers.history = some save ∧ (save record x).1 = some f ∧
      f.isOutsideSystem = false ∧ out.1 = .raised f

theorem closed_returned (r : Start σ) (status : RunStatus) (scope : Scope) (id : Option String)
    (s : Session σ) :
    let out := r.closed status scope id s
    out.1 = .record out.2.recorder.record ∨
      ∃ save record x f, r.providers.history = some save ∧ (save record x).1 = some f ∧
        f.isOutsideSystem = false ∧ out.1 = .raised f := by
  unfold closed finish
  cases kept : r.providers.history with
  | none => exact .inl rfl
  | some save =>
    dsimp only
    generalize given : save _ _ = saved
    obtain ⟨failure, z⟩ := saved
    cases passed : failure.filter fun f => !f.isOutsideSystem with
    | none => exact .inl rfl
    | some f =>
      obtain ⟨failed, inside⟩ := Option.filter_eq_some_iff.mp passed
      exact .inr ⟨save, _, _, f, rfl, (congrArg Prod.fst given).trans failed, by simpa using inside,
        rfl⟩

theorem Leaves.completes (walks : r.Leaves world t s) (finished : t.ending = .finished)
    {fuel : Nat} (enough : t.height < fuel) : r.Completes t (r.run fuel world) := by
  have recorder := r.closed_recorder .completed t.scope none s
  rw [walks.run_eq enough, finished]
  show r.Completes t (r.closed .completed t.scope none s)
  exact
    { completed := by rw [recorder]; rfl
      steps := by rw [recorder]; exact walks.recorded.1
      bindings := by rw [recorder]; rfl
      returned := r.closed_returned .completed t.scope none s }

/-! ### Runs in order -/

/-- A run of a graph without pointers whose visits succeed visits the nodes in order. -/
theorem exists_inOrder (sound : r.workflow.Sound) (linear : r.workflow.Linear)
    (quiet : r.fired = false) (succeeds : ∀ u, r.Comes world [u] → u.Succeeds) :
    ∃ t s, r.Leaves world t s ∧ t.InOrder r.workflow.inOrder := by
  obtain ⟨n, rest, nodes⟩ := List.exists_cons_of_ne_nil sound.nonempty
  have first : r.outermost.workflow.entry? = some n := congrArg List.head? nodes
  have start : r.outermost.start ⟨r.bindings⟩ =
      .goOn { current := n.id, scope := ⟨r.bindings⟩ } := by
    rw [Walk.start, Walk.start?, first]
    rfl
  have ordered : r.workflow.inOrder = n :: Workflow.upToEnd rest := by
    rw [Workflow.inOrder, nodes]
  unfold Leaves
  unfold Comes at succeeds
  rw [start] at succeeds ⊢
  rw [ordered]
  have nodes : r.workflow.nodes = [] ++ n :: rest := nodes
  exact Walk.exists_inOrder linear sound.distinct nodes rfl quiet succeeds

/-- A run of an accepted workflow without branches and pointers, whose visits succeed, visits the
nodes in order: all of them, if none behind the first is called like the end. If every visit binds
names, the run completes with their successful steps; otherwise the empty name leaves it. -/
theorem run_inOrder {v : Value} {path : Option String}
    (accepted : Workflow.ofValue v path = .ok r.workflow) (linear : r.workflow.Linear)
    (quiet : r.fired = false) (succeeds : ∀ u, r.Comes world [u] → u.Succeeds) :
    (r.workflow.inOrder = r.workflow.nodes ↔
      ∀ n ∈ r.workflow.nodes.tail, n.id ≠ Workflow.endMark) ∧
    ∃ t s, r.Leaves world t s ∧ t.InOrder r.workflow.inOrder ∧ ∀ fuel, t.height < fuel →
      ((∀ u ∈ t.stations, ¬ u.Refuses) → r.Completes t (r.run fuel world) ∧
        (t.legs.map (·.step)).Sublist t.steps ∧ t.steps.Perm (t.stepsByWalk r.outermost) ∧
        (t.legs.map (·.step)).map Step.seen =
          r.workflow.inOrder.map fun n => (n.id, n.kind, .success)) ∧
      ((∃ u ∈ t.stations, u.Refuses) →
        (r.run fuel world).1 = .raised (Scope.invalidName "''")) := by
  have sound := Workflow.fault?_eq_none.mp (Workflow.fault?_of_ofValue accepted)
  obtain ⟨t, s, walks, ordered⟩ := exists_inOrder sound linear quiet succeeds
  refine ⟨Workflow.inOrder_eq_nodes, t, s, walks, ordered, fun fuel enough => ⟨fun binds => ?_, ?_⟩⟩
  · obtain ⟨finished, nodes⟩ := ordered.through binds
    refine ⟨walks.completes finished enough, t.own_sublist, t.steps_perm _, ?_⟩
    have outside (n : Node) : r.outermost.successOf n = (n.id, n.kind, .success) := by
      rw [Walk.successOf, Walk.stepId, show r.outermost.path = "" from rfl, String.empty_append]
    rw [List.map_map, ← nodes, List.map_map]
    refine (Walks.seen walks ordered.succeeded binds).trans (List.map_congr_left fun u _ => ?_)
    exact outside u.node
  · rintro ⟨u, there, refuses⟩
    rw [walks.run_eq enough, ordered.broken there refuses]
    rfl

/-- A run of nodes under these ids that bind a variable each. -/
def binds (ids : List String) : Start (List Record) :=
  { providers := recordsOnly found, workflow := { nodes := ids.map fun id => { binding with id } } }

def writtenBinds (ids : List String) : Value :=
  .record [("nodes", .list (ids.map fun id => .record [("id", .str id),
    ("type", .str "variable"), ("name", .str "x"), ("value", .str "")]))]

theorem binds_linear (ids : List String) : (binds ids).workflow.Linear where
  plain := List.forall_mem_map.mpr fun _ _ => rfl
  unpointed := List.forall_mem_map.mpr fun _ _ => rfl

/-- The visit to a node of such a run. -/
def atBinding (ids : List String) (id : String) (place : Place) (s : Session (List Record)) :
    Visiting (List Record) :=
  ⟨(binds ids).outermost, place, { binding with id }, s⟩

/-- What such a visit comes to. -/
def bound : Visited := ⟨{ output := .str "", writes := [("x", .str "")] }, binding.properties⟩

theorem atBinding_comesTo (ids : List String) (id : String) (place : Place)
    (s : Session (List Record)) :
    (atBinding ids id place s).ComesTo (.ok bound) (atBinding ids id place s).begun := by
  let v := atBinding ids id place s
  have filled : Visit.fillProperties place.scope binding.properties = .ok binding.properties := rfl
  have given : (v.context binding.properties).trimmed "name" = "x" :=
    show Text.trimmed "x" = "x" by decide
  exact .plain (Visiting.settles_literal (v := v) rfl filled given (by decide) rfl)

theorem atBinding_succeeds (ids : List String) (id : String) (place : Place)
    {s : Session (List Record)} (calm : s.Calm) : (atBinding ids id place s).Succeeds :=
  ⟨_, _, atBinding_comesTo ids id place s, rfl, (Visiting.calm_behind calm _).quiet⟩

/-- The first visit of such a run. -/
def atEntry (ids : List String) (id : String) : Visiting (List Record) :=
  atBinding ids id { current := id, scope := ⟨[]⟩ } ((binds ids).session [])

theorem calm_entry (ids : List String) (id : String) : (atEntry ids id).session.Calm :=
  ⟨rfl, fun _ none => nomatch none⟩

theorem pair_succeeds : ∀ u, (binds ["a", "b"]).Comes [] [u] → u.Succeeds := by
  intro u comes
  let first := atEntry ["a", "b"] "a"
  have came : first.ComesTo (.ok bound) first.begun := atBinding_comesTo ..
  rcases comes.first_or_behind (v := first) ⟨rfl, rfl⟩ came with rfl | later
  · exact atBinding_succeeds _ _ _ (calm_entry _ "a")
  · let second := atBinding ["a", "b"] "b" ⟨"b", ["a"], ⟨[("x", .str "")]⟩⟩
      (first.begun.leave (first.station (.ok bound)))
    have calm : second.session.Calm :=
      Visiting.calm_behind (v := first) (calm_entry _ "a") (.ok bound)
    have came : second.ComesTo (.ok bound) second.begun := atBinding_comesTo ..
    rcases later.first_or_behind (v := second) ⟨calm.quiet, rfl⟩ came with rfl | ended
    · exact atBinding_succeeds _ _ _ calm
    · exact absurd ended Walk.Comes.not_ended

theorem run_inOrder_pair :
    Workflow.ofValue (writtenBinds ["a", "b"]) none = .ok (binds ["a", "b"]).workflow ∧
      (binds ["a", "b"]).workflow.Linear ∧ (binds ["a", "b"]).fired = false ∧
      (∀ u, (binds ["a", "b"]).Comes [] [u] → u.Succeeds) ∧
      ∃ t s, (binds ["a", "b"]).Leaves [] t s ∧ t.InOrder (binds ["a", "b"]).workflow.nodes := by
  have accepted : Workflow.ofValue (writtenBinds ["a", "b"]) none =
      .ok (binds ["a", "b"]).workflow := by
    with_unfolding_all rfl
  obtain ⟨all, t, s, walks, ordered, -⟩ :=
    run_inOrder accepted (binds_linear ["a", "b"]) rfl pair_succeeds
  have others : ∀ n ∈ (binds ["a", "b"]).workflow.nodes.tail, n.id ≠ Workflow.endMark := by
    decide
  exact ⟨accepted, binds_linear _, rfl, pair_succeeds, t, s, walks, all.mpr others ▸ ordered⟩

/-- A workflow of three nodes is accepted, has no branch and no pointer, and every visit of its run
succeeds; but the second node is called like the end, and the run completes behind the first. -/
theorem order_cut_short :
    Workflow.ofValue (writtenBinds ["a", "end", "c"]) none =
        .ok (binds ["a", "end", "c"]).workflow ∧
      (binds ["a", "end", "c"]).workflow.Linear ∧
      (∀ u, (binds ["a", "end", "c"]).Comes [] [u] → u.Succeeds) ∧
      ((binds ["a", "end", "c"]).run 4 []).2.recorder.record.status = .completed ∧
      ((binds ["a", "end", "c"]).run 4 []).2.recorder.record.steps.map (·.nodeId) = ["a"] := by
  refine ⟨by with_unfolding_all rfl, binds_linear _, ?_, rfl, rfl⟩
  intro u comes
  let first := atEntry ["a", "end", "c"] "a"
  have came : first.ComesTo (.ok bound) first.begun := atBinding_comesTo ..
  rcases comes.first_or_behind (v := first) ⟨rfl, rfl⟩ came with rfl | ended
  · exact atBinding_succeeds _ _ _ (calm_entry _ "a")
  · exact absurd ended Walk.Comes.not_ended

end Start
end Runbook

/-! ## Runs that only go forward

A run of a workflow whose pointers all name later nodes ends, if its visits do. However it went, the
outermost walk visited no node twice and none before one that it had visited, so it made no more
steps than there are nodes. -/
namespace Runbook.Start

open Visit

variable {σ : Type} {r : Start σ} {world : σ}

theorem conclude_ne_unfinished {e : Ending} (ends : e ≠ .unfinished) (scope : Scope)
    (s : Session σ) : (r.conclude e scope s).1 ≠ .unfinished := by
  have closed (status : RunStatus) (id : Option String) :
      (r.closed status scope id s).1 ≠ .unfinished := by
    unfold Start.closed
    split <;> exact RunResult.noConfusion
  cases e with
  | finished | cancelled | failed => exact closed _ _
  | aborted a =>
    cases a with
    | token => exact closed _ _
    | task =>
      simp only [conclude]
      split <;> exact RunResult.noConfusion
  | left f => exact RunResult.noConfusion
  | unfinished => exact absurd rfl ends

theorem exists_leaves_forward (forward : r.workflow.Forward) (distinct : r.workflow.ids.Nodup)
    (ends : ∀ u, r.Comes world [u] → u.Ends) :
    ∃ t s, r.Leaves world t s ∧ t.ending ≠ .unfinished := by
  unfold Leaves
  unfold Comes at ends
  cases begins : r.outermost.start ⟨r.bindings⟩ with
  | goOn place => exact Walk.exists_walks_forward forward distinct (begins ▸ ends)
  | ended e scope =>
    refine ⟨_, _, .ended, ?_⟩
    unfold Walk.start at begins
    split at begins <;> cases begins
    nofun

/-- A run of an accepted workflow whose pointers all name later nodes ends, if each visit of its
outermost walk comes to something. That walk visited nodes of the workflow, each once and behind
the one before, so there are no more visits, and no more recorded steps of the walk itself, than
nodes. -/
theorem run_forward {v : Value} {path : Option String}
    (accepted : Workflow.ofValue v path = .ok r.workflow) (forward : r.workflow.Forward)
    (ends : ∀ u, r.Comes world [u] → u.Ends) :
    ∃ t s, r.Leaves world t s ∧ t.ending ≠ .unfinished ∧
      (∀ fuel, t.height < fuel → r.run fuel world = r.conclude t.ending t.scope s ∧
        (r.run fuel world).1 ≠ .unfinished) ∧
      (∀ u ∈ t.stations, u.node ∈ r.workflow.nodes) ∧
      (t.stations.Pairwise fun u v => r.workflow.Precedes u.node.id v.node.id) ∧
      (t.stations.map (·.node.id)).Nodup ∧
      t.stations.length ≤ r.workflow.nodes.length ∧
      t.legs.length ≤ r.workflow.nodes.length := by
  have sound := Workflow.fault?_eq_none.mp (Workflow.fault?_of_ofValue accepted)
  obtain ⟨t, s, walks, ended⟩ := exists_leaves_forward forward sound.distinct ends
  have turn := Walks.inTurn walks forward sound.distinct
  refine ⟨t, s, walks, ended, fun fuel enough => ?_, turn.nodes, turn.ordered, turn.nodup,
    turn.length_le, ?_⟩
  · rw [walks.run_eq enough]
    exact ⟨rfl, conclude_ne_unfinished ended t.scope s⟩
  · exact (List.length_filterMap_le ..).trans turn.length_le

/-- A loop whose condition does not hold. -/
def leaping : Node :=
  { id := "c", kind := "while", properties := [("condition", "false")], falseNext := some "z" }

/-- Leaps over a node to one that names the end. -/
def leap : Start (List Record) :=
  { providers := recordsOnly found
    workflow := { nodes := [leaping, { binding with id := "b" },
      { binding with id := "z", next := some "end" }] } }

def writtenLeap : Value :=
  .record [("nodes", .list [
    .record [("id", .str "c"), ("type", .str "while"), ("condition", .str "false"),
      ("falseNext", .str "z")],
    .record [("id", .str "b"), ("type", .str "variable"), ("name", .str "x"), ("value", .str "")],
    .record [("id", .str "z"), ("type", .str "variable"), ("name", .str "x"), ("value", .str ""),
      ("next", .str "end")]])]

theorem leap_forward : leap.workflow.Forward := by
  have pointers : ∀ n ∈ leap.workflow.nodes, ∀ p ∈ n.pointers,
      p.2 = none ∨ p.2 = some Workflow.endMark ∨ (n.id = "c" ∧ p.2 = some "z") := by
    decide
  intro n hn p hp target set _
  rcases pointers n hn p hp with unset | last | ⟨first, third⟩
  · cases unset.symm.trans set
  · cases last.symm.trans set
    exact .inl rfl
  · cases third.symm.trans set
    exact .inr ⟨0, 2, by rw [first]; rfl, rfl, by decide⟩

theorem leap_ends : ∀ u, leap.Comes [] [u] → u.Ends := by
  intro u comes
  let first : Visiting (List Record) :=
    ⟨leap.outermost, { current := "c", scope := ⟨[]⟩ }, leaping, leap.session []⟩
  have decides : Condition.evaluate "false" ⟨[]⟩ = .ok false := rfl
  let leapt : Visited := ⟨{ output := .bool false, branch := some false }, leaping.properties⟩
  have came : first.ComesTo (.ok leapt) first.begun :=
    .plain (Visiting.settles_loop (v := first) rfl rfl rfl decides)
  rcases comes.first_or_behind (v := first) ⟨rfl, rfl⟩ came with rfl | later
  · exact ⟨_, _, came, nofun⟩
  · let second : Visiting (List Record) :=
      ⟨leap.outermost, { current := "z", visited := ["c"], scope := ⟨[]⟩ },
        { binding with id := "z", next := some "end" }, first.begun.leave (first.station (.ok leapt))⟩
    have given : (second.context binding.properties).trimmed "name" = "x" :=
      show Text.trimmed "x" = "x" by decide
    have came : second.ComesTo (.ok bound) second.begun :=
      .plain (Visiting.settles_literal (v := second) rfl rfl given (by decide) rfl)
    rcases later.first_or_behind (v := second) ⟨rfl, rfl⟩ came with rfl | ended
    · exact ⟨_, _, came, nofun⟩
    · exact absurd ended Walk.Comes.not_ended

theorem run_forward_leap :
    Workflow.ofValue writtenLeap none = .ok leap.workflow ∧ leap.workflow.Forward ∧
      (∀ u, leap.Comes [] [u] → u.Ends) ∧
      ∃ t s, leap.Leaves [] t s ∧ t.ending ≠ .unfinished ∧
        (t.stations.map (·.node.id)).Nodup ∧ t.stations.length ≤ 3 := by
  have accepted : Workflow.ofValue writtenLeap none = .ok leap.workflow := by
    with_unfolding_all rfl
  obtain ⟨t, s, walks, ended, -, -, -, once, fewer, -⟩ :=
    run_forward accepted leap_forward leap_ends
  exact ⟨accepted, leap_forward, leap_ends, t, s, walks, ended, once, fewer⟩

end Runbook.Start
