import Runbook.Proofs.Run.Trail
import Runbook.Proofs.Walk.Graph

/-! The steps that a run leaves in its record.

Where control leaves a run, every visit at every depth has its one step in the record, or the step
is still open. It is open after a visit that binds the empty name, and after a visit of a nested
walk during which the task of the run was cancelled; there is no third way. What a cancelled task
leaves open is closed behind the exit, from the innermost step outwards. -/
namespace Runbook

open Visit

variable {σ : Type}

/-! ### Who binds the empty name -/

/-- Only a node that runs a workflow binds the empty name. -/
theorem Walks.refuses_nested {w : Walk σ} {p : Progress} {s s' : Session σ} {t : Trail}
    (h : Walks w p s t s') :
    ∀ v ∈ t.all, v.Refuses → w.registry.handler? v.node.kind = some .nested := by
  induction h with
  | ended | fired | lost => simp [Trail.all, Trail.stations, Trail.insiders]
  | plain quiet here visit onward ih =>
    refine Trail.forall_plain.mpr ⟨?_, ih⟩
    rintro ⟨x, rfl, unnamed⟩
    obtain ⟨kind, known, other, suits⟩ := prelude_settled visit
    obtain ⟨b, hb, empty⟩ := List.mem_map.mp unnamed
    exact absurd empty (suits.named b hb)
  | nested quiet here visit inside onward ihInside ihOnward =>
    exact Trail.forall_nested.mpr ⟨fun _ => (prelude_descends visit).1, ihInside, ihOnward⟩

/-! ### At the exit -/

namespace Start

/-- Where control leaves a run, each visit has its step in the record or still open. No step is
open just where no visit at any depth binds the empty name, which only nodes that run workflows
do, and no visit inside a nested walk sees the task cancelled. -/
theorem run_steps (r : Start σ) (fuel : Nat) (world : σ)
    (ends : (r.run fuel world).1 ≠ .unfinished) :
    ∃ t s, r.Leaves world t s ∧ r.run fuel world = r.conclude t.ending t.scope s ∧
      (r.exit t s).recorder.record.steps = t.steps ∧
      (r.exit t s).recorder.opened = t.leftOpen ∧
      t.steps.length + t.leftOpen.length = t.visits ∧
      (∀ v ∈ t.all, v.Refuses → r.registry.handler? v.node.kind = some .nested) ∧
      (t.leftOpen = [] ↔ (∀ v ∈ t.all, ¬ v.Refuses) ∧ ∀ v ∈ t.insiders, ¬ v.Abandoned) := by
  obtain ⟨t, s, walks, ended, -, result⟩ := exists_leaves ends
  obtain ⟨recorded, stays, -⟩ := walks.recorded
  obtain ⟨steps, opened⟩ := r.exit_recorder t s
  exact ⟨t, s, walks, result, steps.trans recorded, opened.trans stays, t.steps_leftOpen,
    walks.refuses_nested, walks.leftOpen_eq_nil rfl ended⟩

def calling : Node := { id := "p", kind := "workflow", properties := [("path", "s")] }

/-- A node that binds what the call hands back to the empty name. -/
def unnaming : Node :=
  { calling with properties := [("path", "s"), ("output", "\x7b\"\": \"x\"\x7d")] }

def binding : Node :=
  { id := "x", kind := "variable", properties := [("name", "x"), ("value", "")] }

/-- A node whose workflow is another one. -/
def lost : Node := { calling with id := "q", properties := [("path", "t")] }

/-- Runs a node whose workflow is found by its path. -/
def handing (n : Node) (find : String → Result Workflow) : Start (List Record) :=
  { providers := recordsOnly find, workflow := { nodes := [n] } }

def found : String → Result Workflow := fun _ => .returned { nodes := [binding] }

/-- The task is cancelled where the workflow itself looks for one. -/
def interrupted : String → Result Workflow
  | "s" => .returned { nodes := [{ calling with id := "q", properties := [("path", "t")] }] }
  | _ => .cancelled

theorem run_steps_calling :
    ((handing calling found).run 2 []).1 ≠ .unfinished ∧
      ∃ t s, (handing calling found).Leaves [] t s ∧
        (handing calling found).run 2 [] = (handing calling found).conclude t.ending t.scope s ∧
        ((handing calling found).exit t s).recorder.record.steps = t.steps ∧
        ((handing calling found).exit t s).recorder.opened = t.leftOpen ∧
        t.steps.length + t.leftOpen.length = t.visits ∧
        (∀ v ∈ t.all, v.Refuses →
          (handing calling found).registry.handler? v.node.kind = some .nested) ∧
        (t.leftOpen = [] ↔ (∀ v ∈ t.all, ¬ v.Refuses) ∧ ∀ v ∈ t.insiders, ¬ v.Abandoned) := by
  have ends : ((handing calling found).run 2 []).1 ≠ .unfinished := by
    intro h
    cases h
  exact ⟨ends, run_steps (handing calling found) 2 [] ends⟩

/-- Both ways in which a step is open at the exit: bound to the empty name, it stays open for
good, and overtaken by the cancelled task, it is not in the record that was handed over. -/
theorem open_at_exit :
    (handing unnaming found).workflow.fault? = none ∧
      ((handing unnaming found).run 2 []).1 = .raised (Scope.invalidName "''") ∧
      ((handing unnaming found).run 2 []).2.recorder.opened.map (·.step.nodeId) = ["p"] ∧
      ((handing unnaming found).run 2 []).2.recorder.record.steps.map (·.nodeId) = ["p/x"] ∧
      (handing calling interrupted).workflow.fault? = none ∧
      ((handing calling interrupted).run 2 []).1 = .taskCancelled ∧
      ((handing calling interrupted).run 2 []).2.recorder.tickets = 2 ∧
      ((handing calling interrupted).run 2 []).2.world.map (·.steps.map (·.nodeId)) = [["p"]] :=
  ⟨rfl, rfl, rfl, rfl, rfl, rfl, rfl, rfl⟩

theorem closeAll_from {os : List Opened} {s : Session σ} (sound : s.recorder.Sound)
    (opened : s.recorder.opened = os.reverse) :
    (os.foldl (fun s o => s.close o cancelledClosing) s).recorder.opened = [] ∧
      (os.foldl (fun s o => s.close o cancelledClosing) s).recorder.record.steps =
        s.recorder.record.steps ++
          os.map (Recorder.Closing.apply cancelledClosing ·.step) := by
  induction os generalizing s with
  | nil => exact ⟨opened, (List.append_nil _).symm⟩
  | cons o rest ih =>
    -- The first to be closed was opened last.
    let v : Station := ⟨default, o, .error .unfinished, some cancelledClosing⟩
    have last : s.recorder.opened = rest.reverse ++ v.opened :: [] := by
      rw [opened, List.reverse_cons]
    have left : (s.close o cancelledClosing).recorder = s.recorder.afterVisit rest.reverse [] v :=
      Session.leave_recorder (v := v) sound last
    obtain ⟨closed, recorded⟩ := ih (left ▸ sound.afterVisit last) (by
      rw [left]
      simp [Recorder.afterVisit, v, Station.leftOpen])
    refine ⟨closed, recorded.trans ?_⟩
    rw [left]
    simp [Recorder.afterVisit, v, Station.recorded]

/-- What a cancelled task leaves open is closed behind the exit, the innermost step first. -/
theorem run_closes {r : Start σ} {world : σ} {t : Trail} {s : Session σ}
    (walks : r.Leaves world t s) (task : t.ending = .aborted .task) :
    (r.conclude t.ending t.scope s).2.recorder.opened = [] ∧
      (r.conclude t.ending t.scope s).2.recorder.record.steps =
        t.steps ++ t.leftOpen.reverse.map (Recorder.Closing.apply cancelledClosing ·.step) := by
  obtain ⟨recorded, stays, sound⟩ := walks.recorded
  obtain ⟨steps, opened⟩ := r.exit_recorder t s
  have behind : (r.conclude t.ending t.scope s).2 = closeAll (r.exit t s) := by
    rw [conclude_snd, task]
  rw [behind, closeAll, opened.trans stays]
  obtain ⟨closed, more⟩ := closeAll_from (exit_sound sound)
    (opened.trans (stays.trans t.leftOpen.reverse_reverse.symm))
  refine ⟨closed, more.trans ?_⟩
  rw [steps, recorded]

end Start
end Runbook

/-! ## The record of a run and the graphs of its walks

The steps of a record are those of its outermost walk and of every walk inside it, each of them
once and in the order of its own walk. Over the built-in kinds each walk followed its graph. -/
namespace Runbook

open scoped List

variable {σ : Type}

theorem Station.leg?_steps (v : Station) (rest : List Station) :
    ((v :: rest).filterMap leg?).map (·.step) =
      v.recorded ++ (rest.filterMap leg?).map (·.step) := by
  unfold recorded
  cases closing : v.closing with
  | none =>
    have unrecorded : v.leg? = none := by rw [leg?, closing]; rfl
    rw [List.filterMap_cons_none unrecorded]
    rfl
  | some c =>
    have leg : v.leg? = some ⟨v.node, Recorder.Closing.apply c v.opened.step, !v.result.isOk⟩ := by
      rw [leg?, closing]; rfl
    rw [List.filterMap_cons_some leg]
    rfl

/-- The recorded steps of a trail, walk by walk. -/
def Trail.stepsByWalk (w : Walk σ) (t : Trail) : List Step :=
  ((w, t) :: t.walks w).flatMap fun q => q.2.legs.map (·.step)

theorem Trail.steps_perm (w : Walk σ) (t : Trail) : t.steps.Perm (t.stepsByWalk w) := by
  induction t generalizing w with
  | stop => exact .refl _
  | plain v rest ih =>
    show (v.recorded ++ rest.steps).Perm
      (((v :: rest.stations).filterMap Station.leg?).map (·.step) ++ _)
    rw [Station.leg?_steps, List.append_assoc]
    exact (ih w).append_left v.recorded
  | nested v workflow inner rest ihInner ih =>
    have inside := ihInner (w.inside (w.stepId v.node) workflow)
    have behind := ih w
    let nestedIn := w.inside (w.stepId v.node) workflow
    have apart : (nested v workflow inner rest).stepsByWalk w =
        v.recorded ++ (rest.legs.map (·.step) ++ (inner.stepsByWalk nestedIn ++
          (rest.walks w).flatMap fun q => q.2.legs.map (·.step))) := by
      show ((v :: rest.stations).filterMap Station.leg?).map (·.step) ++
        ((nestedIn, inner) :: (inner.walks nestedIn ++ rest.walks w)).flatMap _ = _
      rw [Station.leg?_steps, ← List.cons_append, List.flatMap_append, List.append_assoc]
      rfl
    rw [apart, steps]
    calc inner.steps ++ v.recorded ++ rest.steps
        ~ inner.stepsByWalk nestedIn ++ v.recorded ++ rest.stepsByWalk w :=
          (inside.append_right _).append behind
      _ ~ v.recorded ++ inner.stepsByWalk nestedIn ++ rest.stepsByWalk w :=
          List.perm_append_comm.append_right _
      _ ~ _ := by
          rw [List.append_assoc]
          exact List.perm_append_comm_assoc .. |>.append_left _

/-- The steps of the walk itself stand in its record in their order. -/
theorem Trail.own_sublist (t : Trail) : (t.legs.map (·.step)).Sublist t.steps := by
  induction t with
  | stop => exact .refl _
  | plain v rest ih =>
    show (((v :: rest.stations).filterMap Station.leg?).map (·.step)).Sublist _
    rw [Station.leg?_steps]
    exact ih.append_left _
  | nested v workflow inner rest ihInner ih =>
    show (((v :: rest.stations).filterMap Station.leg?).map (·.step)).Sublist _
    rw [Station.leg?_steps, steps, List.append_assoc]
    exact (ih.append_left _).trans (List.sublist_append_right ..)

theorem Trail.legs_sublist {w : Walk σ} {t : Trail} {q : Walk σ × Trail} (h : q ∈ t.walks w) :
    (q.2.legs.map (·.step)).Sublist t.steps := by
  induction t generalizing w with
  | stop => cases h
  | plain v rest ih => exact (ih h).trans (List.sublist_append_right ..)
  | nested v workflow inner rest ihInner ih =>
    rw [steps]
    rcases List.mem_cons.mp h with rfl | h
    · rw [List.append_assoc]
      exact inner.own_sublist.trans (List.sublist_append_left ..)
    · rcases List.mem_append.mp h with inside | behind
      · rw [List.append_assoc]
        exact (ihInner inside).trans (List.sublist_append_left ..)
      · exact (ih behind).trans (List.sublist_append_right ..)

namespace Start

/-- The steps of a record are those of the walks of its run, and each walk followed its graph. -/
theorem run_followsGraph {r : Start σ} (builtin : r.registry = Registry.builtin) {fuel : Nat}
    {world : σ} {record : Record} (returned : (r.run fuel world).1 = .record record) :
    ∃ t s, r.Leaves world t s ∧ r.run fuel world = r.conclude t.ending t.scope s ∧
      record.steps = t.steps ∧ record.steps.Perm (t.stepsByWalk r.outermost) ∧
      ∀ q ∈ (r.outermost, t) :: t.walks r.outermost,
        (q.2.legs.map (·.step)).Sublist record.steps ∧ q.1.FollowsGraph q.2 := by
  obtain ⟨t, s, walks, result, -, tells⟩ := exists_tells returned
  have steps := tells.steps
  refine ⟨t, s, walks, result, steps, steps ▸ t.steps_perm r.outermost, fun q hq => ?_⟩
  rcases List.mem_cons.mp hq with rfl | inside
  · exact ⟨steps ▸ t.own_sublist, Walks.followsGraph walks builtin⟩
  · exact ⟨steps ▸ Trail.legs_sublist inside, walks.walks_followGraph builtin q inside⟩

theorem run_followsGraph_calling :
    ∃ record, ((handing calling found).run 2 []).1 = .record record ∧
      ∃ t s, (handing calling found).Leaves [] t s ∧
        (handing calling found).run 2 [] = (handing calling found).conclude t.ending t.scope s ∧
        record.steps = t.steps ∧
        record.steps.Perm (t.stepsByWalk (handing calling found).outermost) ∧
        ∀ q ∈ ((handing calling found).outermost, t) :: t.walks (handing calling found).outermost,
          (q.2.legs.map (·.step)).Sublist record.steps ∧ q.1.FollowsGraph q.2 := by
  have returned : ∃ record, ((handing calling found).run 2 []).1 = .record record := ⟨_, rfl⟩
  obtain ⟨record, returned⟩ := returned
  exact ⟨record, returned, run_followsGraph rfl returned⟩

end Start
end Runbook
