import Runbook.Proofs.Run.Steps
import Runbook.Proofs.Walk.Failure

/-! Runs that fail.

A failure that no node on the way out passes over fails the run: its record says at which node of
the outermost walk, and ends with the steps of the visits under way, from the one that failed
outwards. Only then does a record name a node where its run failed (`run_error_iff`). -/
namespace Runbook

variable {σ : Type}

/-! ### What becomes of a record -/

/-- The second record is the first one with more steps. -/
def Record.Extends (a b : Record) : Prop := ∃ more, b = { a with steps := a.steps ++ more }

namespace Record

theorem Extends.refl (a : Record) : a.Extends a := ⟨[], by rw [List.append_nil]⟩

theorem Extends.trans {a b c : Record} (h : a.Extends b) (h' : b.Extends c) : a.Extends c := by
  obtain ⟨more, rfl⟩ := h
  obtain ⟨others, rfl⟩ := h'
  exact ⟨more ++ others, by simp⟩

/-- The record says that its run failed just where it names the node. -/
def Blames (a : Record) : Prop := a.status = .error ↔ a.errorNodeId.isSome = true

theorem Extends.blames {a b : Record} (h : a.Extends b) (blames : a.Blames) : b.Blames := by
  obtain ⟨more, rfl⟩ := h
  exact blames

/-- Where the last step is one of the node that the record names, and failed, the record finds
it. -/
theorem errorStep?_of_last {a : Record} {before : List Step} {step : Step}
    (steps : a.steps = before ++ [step]) (failed : step.status = .error)
    (named : a.errorNodeId = some step.nodeId) : a.errorStep? = some step := by
  rw [errorStep?, steps, List.reverse_append]
  simp [failed, named]

end Record

theorem Session.closeWith_extends (s : Session σ) (o : Opened) (c : Option Closing) :
    s.recorder.record.Extends (s.closeWith o c).recorder.record := by
  cases c with
  | none => exact .refl _
  | some c =>
    simp only [closeWith, close, Recorder.close]
    cases s.recorder.isOpen o.ticket with
    | true => exact ⟨[_], rfl⟩
    | false => exact .refl _

namespace Walk

theorem advance_extends (w : Walk σ) {run : Runner σ} (place : Place) (s : Session σ)
    (runs : ∀ (w : Walk σ) (scope : Scope) (s : Session σ),
      s.recorder.record.Extends (run w scope s).2.recorder.record) :
    s.recorder.record.Extends (w.advance run place s).2.recorder.record := by
  cases fired : s.fired with
  | true =>
    simp only [advance, fired, if_true]
    exact .refl _
  | false =>
    cases here : w.workflow.node? place.current with
    | none =>
      simp only [advance, fired, Bool.false_eq_true, if_false, here]
      exact .refl _
    | some n =>
      rw [advance_eq run fired here]
      refine .trans ?_ (Session.closeWith_extends _ _ _)
      rcases visit : w.prelude place n (w.openStep n s).2 with ⟨came, s₁⟩
      have begun : s.recorder.record = s₁.recorder.record :=
        (congrArg Recorder.record (prelude_recorder visit)).symm
      rw [begun]
      cases came with
      | settled => exact .refl _
      | descends d => exact runs _ _ s₁

/-- A walk adds steps to the record and does nothing else to it, however few visits it is given. -/
theorem proceed_extends (fuel : Nat) (w : Walk σ) (p : Progress) (s : Session σ) :
    s.recorder.record.Extends (w.proceed fuel p s).2.recorder.record := by
  induction fuel generalizing w p s with
  | zero => cases p <;> exact .refl _
  | succ fuel ih =>
    cases p with
    | ended => exact .refl _
    | goOn place =>
      rw [proceed_goOn]
      refine .trans (advance_extends w place s fun w scope s => ?_) (ih ..)
      rw [walk_eq]
      exact ih ..

end Walk

namespace Start

open Visit

theorem closeAll_extends (s : Session σ) :
    s.recorder.record.Extends (closeAll s).recorder.record := by
  refine closeAll_chain (R := fun s z => s.recorder.record.Extends z.recorder.record)
    (fun _ => .refl _) (fun s o z extended => ?_) s
  exact (s.closeWith_extends o (some cancelledClosing)).trans extended

theorem closed_blames (r : Start σ) {status : RunStatus} {id : Option String} (scope : Scope)
    (s : Session σ) (h : status = .error ↔ id.isSome = true) :
    (r.closed status scope id s).2.recorder.record.Blames := by
  rw [closed_recorder]
  exact h

theorem conclude_blames (r : Start σ) (e : Ending) (scope : Scope) {s : Session σ}
    (h : s.recorder.record.Blames) : (r.conclude e scope s).2.recorder.record.Blames := by
  cases e with
  | finished | cancelled => exact r.closed_blames scope s (by simp)
  | failed => exact r.closed_blames scope s (by simp)
  | left | unfinished => exact h
  | aborted a =>
    cases a with
    | token => exact r.closed_blames scope s (by simp)
    | task =>
      have recorder := r.finish_recorder .cancelled scope none s
      have finished : (r.finish .cancelled scope none s).2.recorder.record.Blames := by
        rw [recorder]
        exact ⟨nofun, nofun⟩
      have behind := (closeAll_extends (r.finish .cancelled scope none s).2).blames finished
      simp only [conclude]
      generalize r.finish .cancelled scope none s = out at *
      obtain ⟨_ | f, z⟩ := out <;> exact behind

/-- A run is reported as failed just where a node is named at which it failed. -/
theorem run_blames (r : Start σ) (fuel : Nat) (world : σ) :
    (r.run fuel world).2.recorder.record.Blames := by
  rw [run_eq]
  refine r.conclude_blames _ _ ((Walk.proceed_extends ..).blames ?_)
  exact ⟨nofun, nofun⟩

/-- What a failure at the last of these visits leaves of the run. -/
structure Unwinds (r : Start σ) (vs : List (Visiting σ)) (f : Fault)
    (out : RunResult × Session σ) : Prop where
  result : ∃ id scope s, vs.head?.map (·.node.id) = some id ∧
    out = r.closed .error scope (some id) s
  status : out.2.recorder.record.status = .error
  node : out.2.recorder.record.errorNodeId = vs.head?.map (·.node.id)
  /-- Behind everything else stand the steps of the visits, the one that failed first. -/
  steps : ∃ before errors, out.2.recorder.record.steps = before ++ errors ∧
    errors.map (·.nodeId) = (stepIds "" (vs.map (·.node))).reverse ∧
    (∀ step ∈ errors, step.status = .error) ∧
    (errors.head?.bind (·.error)) = some f.message ∧
    errors.IsChain fun inner outer => outer.Quotes inner
  errorStep : out.2.recorder.record.errorStep? = out.2.recorder.record.steps.getLast?

theorem Comes.unwinds {r : Start σ} {world : σ} {vs : List (Visiting σ)} (comes : r.Comes world vs)
    {v : Visiting σ} (last : vs.getLast? = some v) {f : Fault} {z : Session σ}
    (came : v.ComesTo (.error (.fault f)) z) (fails : Walk.Fails f)
    (fatal : ∀ u ∈ vs, u.node.bestEffort = false) :
    ∃ enough, ∀ fuel, enough < fuel → r.Unwinds vs f (r.run fuel world) := by
  obtain ⟨t, s, u, us, before, rfl, walks, ending, steps⟩ :=
    Walk.Comes.fails comes last came fails fatal
  have outermost : u.walk = r.outermost := Walk.Comes.walk_eq comes
  have id : u.stepId = u.node.id := by
    rw [Visiting.stepId, outermost]
    exact String.empty_append
  refine ⟨t.height, fun fuel enough => ?_⟩
  have result : r.run fuel world = r.closed .error t.scope (some u.node.id) s := by
    rw [Leaves.run_eq walks enough, ending, id]
    rfl
  have recorder := r.closed_recorder .error t.scope (some u.node.id) s
  rw [← result] at recorder
  have recorded : (r.run fuel world).2.recorder.record.steps =
      before ++ (Visiting.failed f.message (u :: us)).reverse := by
    rw [recorder, ← steps]
    exact (Leaves.recorded walks).1
  have named : (r.run fuel world).2.recorder.record.errorNodeId = some u.node.id := by
    rw [recorder]
    rfl
  refine ⟨⟨_, _, s, rfl, result⟩, by rw [recorder]; rfl, named,
    ⟨before, _, recorded, ?_, ?_, ?_, ?_⟩, ?_⟩
  · rw [List.map_reverse, Visiting.failed_ids, comes.stepIds_eq]
    rfl
  · exact fun step among => Visiting.failed_status _ _ step (List.mem_reverse.mp among)
  · rw [List.head?_reverse]
    exact Visiting.failed_last ..
  · exact List.isChain_reverse.mpr (Visiting.failed_quotes ..)
  · rw [Visiting.failed, List.reverse_cons, ← List.append_assoc] at recorded
    rw [Record.errorStep?_of_last recorded rfl (named.trans (congrArg some id.symm)), recorded,
      List.getLast?_concat]

/-- Inside the first node the workflow of another one cannot be read. -/
def failing : Start (List Record) :=
  handing calling fun path =>
    if path = "s" then .returned { nodes := [lost] } else .raised (.badValue "unreadable")

def atCalling : Visiting (List Record) :=
  ⟨failing.outermost, ⟨"p", [], ⟨[]⟩⟩, calling, failing.session []⟩

def atUnread (s : Session (List Record)) : Visiting (List Record) :=
  ⟨failing.outermost.inside "p" { nodes := [lost] }, ⟨"q", [], ⟨[]⟩⟩, lost, s⟩

end Start
end Runbook
