import Runbook.Proofs.Walk.Recording

/-! A walk follows its graph.

Where a walk goes is read off its recorded steps alone: `Leg.next` is the rule for one step, and
`Route` says that each step was made at the node to which the rule for the step before it leads.
Over the built-in kinds the recorded steps of every walk are such a route from its entry, and a
walk that finished did so where the rule leads nowhere (`Walks.route`). -/
namespace Runbook

open Visit

variable {σ : Type}

/-! ### The rule -/

/-- A recorded step with its node; `raised` where no outcome closed it, but a failure did. -/
structure Leg where
  node : Node
  step : Step
  raised : Bool

namespace Leg

/-- The way that the recorded output of a branch decides for. -/
def branch (l : Leg) : Option Bool :=
  match l.node.isBranch, l.step.output with
  | true, .bool b => some b
  | _, _ => none

/-- The node behind a recorded step, or that none follows. -/
def next (w : Workflow) (l : Leg) : Option String :=
  match l.step.status with
  | .skipped => (Workflow.pointed? l.node.onCancel).filter (· ≠ Workflow.endMark)
  | .error =>
    if l.raised then if l.node.bestEffort then w.successor l.node none else none
    else w.successor l.node l.branch
  | .success => w.successor l.node l.branch
  | .pending => none

end Leg

/-- Steps that lead through a graph from one node to where the last of them points. -/
inductive Route (w : Workflow) : Option String → List Leg → Option String → Prop
  | here {id : Option String} : Route w id [] id
  | step {id : String} {l : Leg} {legs : List Leg} {last : Option String}
    (here : w.node? id = some l.node) (rest : Route w (l.next w) legs last) :
    Route w (some id) (l :: legs) last

/-- The recorded step of a visit with its node. -/
def Station.leg? (v : Station) : Option Leg :=
  v.closing.map fun c =>
    { node := v.node, step := Recorder.Closing.apply c v.opened.step, raised := !v.result.isOk }

/-- The recorded steps of the walk itself. -/
def Trail.legs (t : Trail) : List Leg := t.stations.filterMap Station.leg?

/-! ### One step -/

/-- What a progress leads to: a node, or nothing where the walk finished. -/
def Progress.Reaches : Progress → Option String → Prop
  | .goOn place, next => next = some place.current
  | .ended e _, next => e = .finished → next = none

/-- What the built-in kinds come to: a branch decides for what it outputs, and every outcome
succeeded or is an error. -/
def Station.Decides (v : Station) : Prop :=
  ∀ x, v.result = .ok x →
    (v.node.isBranch = true → ∃ b, x.outcome.branch = some b ∧ x.outcome.output = .bool b) ∧
      (x.outcome.status = .success ∨ x.outcome.status = .error)

theorem Workflow.successor_of_plain {w : Workflow} {n : Node} (plain : n.isBranch = false)
    (branch : Option Bool) : w.successor n branch = w.successor n none := by
  unfold successor
  simp only [plain]

theorem Walk.follow_reaches (place : Place) (n : Node) (target : Option String) (scope : Scope) :
    (follow place n target scope).Reaches target := by
  cases target with
  | none => exact fun _ => rfl
  | some id => rfl

/-- The rule for a step that an outcome closed is the way that the walk takes for the outcome. -/
theorem Leg.outcome_reaches {w : Workflow} {n : Node} {x : Visited} {step : Step} (place : Place)
    (scope : Scope)
    (branch : n.isBranch = true → ∃ b, x.outcome.branch = some b ∧ x.outcome.output = .bool b)
    (status : x.outcome.status = .success ∨ x.outcome.status = .error) :
    (Walk.follow place n (w.successor n x.outcome.branch) scope).Reaches
      (next w ⟨n, Recorder.Closing.apply x.closing step, false⟩) := by
  let l : Leg := ⟨n, Recorder.Closing.apply x.closing step, false⟩
  have way : w.successor n l.branch = w.successor n x.outcome.branch := by
    cases isBranch : n.isBranch with
    | true =>
      obtain ⟨b, way, shown⟩ := branch isBranch
      have decided : l.branch = some b := by
        unfold Leg.branch
        rw [show l.node.isBranch = true from isBranch, show l.step.output = .bool b from shown]
      rw [decided, way]
    | false =>
      rw [Workflow.successor_of_plain isBranch l.branch,
        Workflow.successor_of_plain isBranch x.outcome.branch]
  have rule : next w l = w.successor n l.branch := by
    unfold next
    have shown : l.step.status = x.outcome.status := rfl
    rw [shown]
    rcases status with status | status
    · rw [status]
    · rw [status]
      rfl
  show (Walk.follow _ _ _ _).Reaches (next w l)
  rw [rule, way]
  exact Walk.follow_reaches ..

/-- The rule for a failed step that is passed over. -/
theorem Leg.passed_reaches {w : Workflow} {n : Node} {step : Step} (place : Place) (scope : Scope)
    (failed : step.status = .error) (passed : n.bestEffort = true) :
    (Walk.follow place n (w.successor n none) scope).Reaches (next w ⟨n, step, true⟩) := by
  simp only [next, failed, passed, if_true]
  exact Walk.follow_reaches ..

/-- The rule for the step of a dismissed request that the node has a way on for. -/
theorem Leg.redirected_reaches {w : Workflow} {n : Node} {step : Step} {target : String}
    (place : Place) (scope : Scope) (skipped : step.status = .skipped)
    (set : Workflow.pointed? n.onCancel = some target) :
    (Walk.follow place n (if target = Workflow.endMark then none else some target) scope).Reaches
      (next w ⟨n, step, true⟩) := by
  have filtered : (some target).filter (· ≠ Workflow.endMark) =
      if target = Workflow.endMark then none else some target := by
    by_cases last : target = Workflow.endMark
    · simp [last]
    · simp [last]
  simp only [next, skipped, set, filtered]
  exact Walk.follow_reaches ..

theorem Walk.onward_reaches {w : Walk σ} {place : Place} {n : Node} {s : Session σ}
    {r : Except Halt Visited} {l : Leg} (decides : (w.station place n s r).Decides)
    (recorded : (w.station place n s r).leg? = some l) :
    (w.onward place n r).Reaches (l.next w.workflow) := by
  obtain ⟨c, closed, rfl⟩ := Option.map_eq_some_iff.mp recorded
  have closed : w.closing? place.scope r = some c := closed
  have treats := w.treats place n r
  generalize w.closing? place.scope r = closing, w.onward place n r = p at treats closed ⊢
  cases treats with
  | unfinished | aborted | cancelled | dismissed | failed | refused => exact nofun
  | redirected reason set =>
    cases closed
    exact Leg.redirected_reaches place _ rfl set
  | passed fails passes =>
    cases closed
    exact Leg.passed_reaches place _ rfl passes
  | bound =>
    cases closed
    obtain ⟨branch, status⟩ := decides _ rfl
    exact Leg.outcome_reaches place _ branch status

/-! ### Walks -/

/-- The built-in branches are the kinds with two ways on. -/
theorem Registry.builtin_branch {name : String} {kind : Kind}
    (h : Registry.builtin.handler? name = some kind) :
    (name = "if" ∨ name = "while") ↔ (kind = .branch ∨ kind = .loop) := by
  have known : (name, some kind) ∈ Registry.builtin.handlers := by
    refine Entries.mem_of_get? ?_
    unfold handler? at h
    rcases found : Entries.get? name builtin.handlers with _ | entry <;> rw [found] at h
    · cases h
    · exact congrArg some h
  obtain ⟨p, hp, same⟩ := List.mem_map.mp known
  have all : ∀ p ∈ Kind.named,
      (p.1 = "if" ∨ p.1 = "while") ↔ (p.2 = .branch ∨ p.2 = .loop) := by decide
  cases same
  exact all p hp

theorem Kind.Suits.decides {kind : Kind} {n : Node} {o : Outcome} (suits : kind.Suits o)
    (known : Registry.builtin.handler? n.kind = some kind) :
    (n.isBranch = true → ∃ b, o.branch = some b ∧ o.output = .bool b) ∧
      (o.status = .success ∨ o.status = .error) := by
  by_cases branches : kind = .branch ∨ kind = .loop
  · have decided : o.Decided := by
      rcases branches with rfl | rfl <;> exact suits
    exact ⟨fun _ => decided.branch, decided.status.imp And.left And.left⟩
  · have plain : o.Plain := by
      cases kind with
      | branch => exact absurd (.inl rfl) branches
      | loop => exact absurd (.inr rfl) branches
      | _ => exact suits
    refine ⟨fun isBranch => absurd ?_ branches, .inl plain.status⟩
    exact (Registry.builtin_branch known).mp (by simpa [Node.isBranch] using isBranch)

/-- A visit whose step stays open ends the walk, but does not finish it. -/
theorem Walk.onward_open {w : Walk σ} {place : Place} {n : Node} {r : Except Halt Visited}
    (stays : w.closing? place.scope r = none) :
    ∃ e scope, w.onward place n r = .ended e scope ∧ e ≠ .finished := by
  have treats := w.treats place n r
  generalize w.closing? place.scope r = closing, w.onward place n r = p at treats stays ⊢
  cases treats with
  | unfinished | aborted | refused => exact ⟨_, _, rfl, nofun⟩
  | _ => cases stays

/-- A route goes on through a visit: its recorded step stands before those that come behind. -/
theorem Route.visit {w : Walk σ} {place : Place} {n : Node} {s s₁ s' : Session σ}
    {r : Except Halt Visited} {rest : Trail} (here : w.workflow.node? place.current = some n)
    (decides : (w.station place n s r).Decides)
    (onward : Walks w (w.onward place n r) s₁ rest s')
    (behind : ∀ id, (w.onward place n r).Reaches id → ∃ last,
      Route w.workflow id rest.legs last ∧ (rest.ending = .finished → last = none)) :
    ∃ last, Route w.workflow (some place.current)
        ((w.station place n s r :: rest.stations).filterMap Station.leg?) last ∧
      (rest.ending = .finished → last = none) := by
  cases leg : (w.station place n s r).leg? with
  | none =>
    obtain ⟨e, scope, ended, unfinished⟩ := Walk.onward_open (n := n) (Option.map_eq_none_iff.mp leg)
    rw [ended] at onward
    obtain ⟨rfl, -⟩ := onward.of_ended
    rw [List.filterMap_cons_none leg]
    exact ⟨_, .here, fun finished => absurd finished unfinished⟩
  | some l =>
    obtain ⟨last, route, finished⟩ := behind _ (Walk.onward_reaches decides leg)
    have node : l.node = n := by
      obtain ⟨c, -, rfl⟩ := Option.map_eq_some_iff.mp leg
      rfl
    rw [List.filterMap_cons_some leg]
    exact ⟨last, .step (node ▸ here) route, finished⟩

theorem Walk.arrive_decides {w : Walk σ} {place : Place} {n : Node} {s s₁ : Session σ}
    {d : Descent σ} {inner : Trail} (builtin : w.registry = Registry.builtin)
    (visit : w.prelude place n (w.openStep n s).2 = (.descends d, s₁)) :
    (w.station place n s (d.arrive (w.stepId n) inner)).Decides := by
  intro x came
  obtain ⟨child, writes, -, -, rfl⟩ := Descent.deliver_ok came
  refine ⟨fun isBranch => ?_, .inl rfl⟩
  have isBranch : n.isBranch = true := isBranch
  have known := (prelude_descends visit).1
  rw [builtin] at known
  rcases (Registry.builtin_branch known).mp (by simpa [Node.isBranch] using isBranch) with h | h <;>
    cases h

/-- The recorded steps of a walk over the built-in kinds are a route through its graph, from where
it stands to where it went on, or to nowhere if it finished. -/
theorem Walks.route {w : Walk σ} {p : Progress} {s s' : Session σ} {t : Trail}
    (h : Walks w p s t s') (builtin : w.registry = Registry.builtin) {id : Option String}
    (reaches : p.Reaches id) :
    ∃ last, Route w.workflow id t.legs last ∧ (t.ending = .finished → last = none) := by
  induction h generalizing id with
  | ended => exact ⟨id, .here, reaches⟩
  | fired | lost => exact ⟨id, .here, nofun⟩
  | plain quiet here visit onward ih =>
    cases reaches
    refine Route.visit here ?_ onward fun _ => ih builtin
    rintro x rfl
    obtain ⟨kind, known, -, suits⟩ := prelude_settled visit
    exact suits.decides (builtin ▸ known)
  | nested quiet here visit inside onward ihInside ihOnward =>
    cases reaches
    exact Route.visit here (Walk.arrive_decides builtin visit) onward fun _ => ihOnward builtin

/-- The step that is recorded of a visit has the id of its node. -/
theorem Walk.visit_nodeId {w : Walk σ} {place : Place} {n : Node} {s : Session σ}
    {r : Except Halt Visited} {rest : Trail}
    (others : ∀ l ∈ rest.legs, l.step.nodeId = w.stepId l.node) :
    ∀ l ∈ (w.station place n s r :: rest.stations).filterMap Station.leg?,
      l.step.nodeId = w.stepId l.node := by
  intro l hl
  obtain ⟨v, hv, leg⟩ := List.mem_filterMap.mp hl
  rcases List.mem_cons.mp hv with rfl | hv
  · obtain ⟨c, -, rfl⟩ := Option.map_eq_some_iff.mp leg
    rfl
  · exact others l (List.mem_filterMap.mpr ⟨v, hv, leg⟩)

theorem Walks.leg_nodeId {w : Walk σ} {p : Progress} {s s' : Session σ} {t : Trail}
    (h : Walks w p s t s') : ∀ l ∈ t.legs, l.step.nodeId = w.stepId l.node := by
  induction h with
  | ended | fired | lost => exact fun _ none => nomatch none
  | plain quiet here visit onward ih => exact Walk.visit_nodeId ih
  | nested quiet here visit inside onward ihInside ihOnward => exact Walk.visit_nodeId ihOnward

/-! ### Every walk of a run -/

/-- The walks inside a walk, at every depth. -/
def Trail.walks (w : Walk σ) : Trail → List (Walk σ × Trail)
  | stop _ _ => []
  | plain _ rest => rest.walks w
  | nested v workflow inner rest =>
    (w.inside (w.stepId v.node) workflow, inner) ::
      (inner.walks (w.inside (w.stepId v.node) workflow) ++ rest.walks w)

/-- The recorded steps of a walk are a route through its graph: it starts at the entry, and it
leads nowhere in the end if the walk finished. -/
structure Walk.FollowsGraph (w : Walk σ) (t : Trail) : Prop where
  route : ∃ last, Route w.workflow (Option.map (·.id) w.workflow.entry?) t.legs last ∧
    (t.ending = .finished → last = none)
  entry : ∀ l, t.legs.head? = some l → w.workflow.entry? = some l.node
  nodeId : ∀ l ∈ t.legs, l.step.nodeId = w.stepId l.node

theorem Walk.start_reaches (w : Walk σ) (scope : Scope) :
    (w.start scope).Reaches (Option.map (·.id) w.workflow.entry?) := by
  unfold start start?
  cases w.workflow.entry? with
  | none => exact fun _ => rfl
  | some n => rfl

theorem Workflow.node?_entry {w : Workflow} {n : Node} (h : w.entry? = some n) :
    w.node? n.id = some n := by
  unfold entry? at h
  unfold node?
  cases nodes : w.nodes with
  | nil => rw [nodes] at h; cases h
  | cons m rest =>
    rw [nodes] at h
    cases h
    exact List.find?_cons_of_pos (beq_self_eq_true _)

theorem Walks.followsGraph {w : Walk σ} {scope : Scope} {s s' : Session σ} {t : Trail}
    (h : Walks w (w.start scope) s t s') (builtin : w.registry = Registry.builtin) :
    w.FollowsGraph t := by
  have route := h.route builtin (w.start_reaches scope)
  refine ⟨route, fun l first => ?_, h.leg_nodeId⟩
  obtain ⟨last, route, -⟩ := route
  generalize t.legs = legs at route first
  generalize entry : Option.map (·.id) w.workflow.entry? = id at route
  cases route with
  | here => cases first
  | step here rest =>
    cases first
    obtain ⟨n, first, rfl⟩ := Option.map_eq_some_iff.mp entry
    rw [Workflow.node?_entry first] at here
    exact first.trans here

theorem Walks.walks_followGraph {w : Walk σ} {p : Progress} {s s' : Session σ} {t : Trail}
    (h : Walks w p s t s') (builtin : w.registry = Registry.builtin) :
    ∀ q ∈ t.walks w, q.1.FollowsGraph q.2 := by
  induction h with
  | ended | fired | lost => exact fun _ none => nomatch none
  | plain _ _ _ _ ih => exact ih builtin
  | nested _ _ _ inside _ ihInside ih =>
    exact List.forall_mem_cons.mpr ⟨inside.followsGraph builtin,
      List.forall_mem_append.mpr ⟨ihInside builtin, ih builtin⟩⟩

end Runbook
