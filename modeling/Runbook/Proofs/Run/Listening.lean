import Runbook.Proofs.Recorder
import Runbook.Proofs.Run.Steps

/-! What a run tells its listeners.

However a run goes, and wherever it stands, a listener that it was started with has been told the
steps of the record, in their order and nothing else (`Start.run_notes`). -/
namespace Runbook

open Recorder

variable {σ : Type}

/-! ### What every part of a walk keeps -/

/-- What visiting nodes and leaving them keeps of a session. -/
structure Providers.Preserves (providers : Providers σ) (P : Session σ → Prop) : Prop where
  visits : ∀ {w : Walk σ} {place : Place} {n : Node} {s s₁ : Session σ} {p : Visit.Prelude σ},
    w.providers = providers → w.prelude place n (w.openStep n s).2 = (p, s₁) → P s → P s₁
  leaves : ∀ {s : Session σ} (v : Station), P s → P (s.leave v)

/-- It is kept by a walk that is given any number of visits, whether it ends or not. -/
theorem Walk.proceed_preserves {providers : Providers σ} {P : Session σ → Prop}
    (keeps : providers.Preserves P) {fuel : Nat} {w : Walk σ} (own : w.providers = providers)
    {p : Progress} {s : Session σ} (holds : P s) : P (w.proceed fuel p s).2 := by
  induction fuel generalizing w p s with
  | zero => cases p <;> exact holds
  | succ fuel ih =>
    cases p with
    | ended e scope => exact holds
    | goOn place =>
      rw [proceed_goOn]
      refine ih own ?_
      cases fired : s.fired with
      | true =>
        simp only [advance, fired, if_true]
        exact holds
      | false =>
        cases here : w.workflow.node? place.current with
        | none =>
          simp only [advance, fired, Bool.false_eq_true, if_false, here]
          exact holds
        | some n =>
          rcases visit : w.prelude place n (w.openStep n s).2 with ⟨r | d, s₁⟩
          · rw [advance_settled _ fired here visit]
            exact keeps.leaves _ (keeps.visits own visit holds)
          · -- The nested walk has the same providers and fewer visits left.
            rcases inside : walk fuel (w.inside (w.stepId n) d.workflow) d.inputs s₁ with
              ⟨⟨e, scope⟩, s₂⟩
            have within : P (walk fuel (w.inside (w.stepId n) d.workflow) d.inputs s₁).2 := by
              rw [walk_eq]
              exact ih (w := w.inside (w.stepId n) d.workflow) own (keeps.visits own visit holds)
            rw [advance_descends fired here visit inside]
            rw [inside] at within
            exact keeps.leaves _ within

/-! ### Runs -/

namespace Start

variable {r : Start σ} {notes : σ → List Step}

/-- One of the listeners of a run notes the steps that it is told, and nothing else in the world
changes its notes. -/
structure Streams (r : Start σ) (notes : σ → List Step) : Prop where
  calls : r.providers.Keeps fun x y => notes y = notes x
  listeners : OneNotes notes r.listeners
  history : ∀ save, r.providers.history = some save → ∀ record x,
    notes (save record x).2 = notes x

/-- The notes hold, behind those from before, the steps of the record. -/
structure Streamed (notes : σ → List Step) (listeners : List (Listener σ)) (before : List Step)
    (s : Session σ) : Prop where
  listeners : s.recorder.listeners = listeners
  noted : notes s.world = before ++ s.recorder.record.steps

theorem Streamed.close {listeners : List (Listener σ)} {before : List Step} {s : Session σ}
    (h : Streamed notes listeners before s) (one : OneNotes notes listeners) (o : Opened)
    (c : Closing) : Streamed notes listeners before (s.close o c) := by
  obtain ⟨added, noted, steps⟩ := Session.close_notes (h.listeners ▸ one) o c
  refine ⟨(Session.close_listeners ..).trans h.listeners, ?_⟩
  rw [noted, steps, h.noted, List.append_assoc]

theorem Streams.preserves (streams : r.Streams notes) (before : List Step) :
    r.providers.Preserves (Streamed notes r.listeners before) where
  visits := by
    intro w place n s s₁ p own visit h
    obtain ⟨kept, listeners⟩ := Walk.prelude_keeps (own ▸ streams.calls) visit
    refine ⟨listeners.trans h.listeners, ?_⟩
    rw [kept, Walk.prelude_recorder visit]
    exact h.noted
  leaves := by
    intro s v h
    unfold Session.leave Session.closeWith
    cases v.closing with
    | none => exact h
    | some c => exact h.close streams.listeners v.opened c

theorem Streams.finish (streams : r.Streams notes) {before : List Step} {s : Session σ}
    (h : Streamed notes r.listeners before s) (status : RunStatus) (scope : Scope)
    (id : Option String) :
    Streamed notes r.listeners before (r.finish status scope id s).2 := by
  have recorder := r.finish_recorder status scope id s
  refine ⟨by rw [recorder]; exact h.listeners, ?_⟩
  have steps : (r.finish status scope id s).2.recorder.record.steps = s.recorder.record.steps := by
    rw [recorder]
    rfl
  have kept : notes (r.finish status scope id s).2.world = notes s.world := by
    unfold Start.finish
    cases given : r.providers.history with
    | none => exact streams.calls.timestamp _
    | some save => exact (streams.history save given _ _).trans (streams.calls.timestamp _)
  rw [steps, kept]
  exact h.noted

theorem Streams.conclude (streams : r.Streams notes) {before : List Step} {s : Session σ}
    (h : Streamed notes r.listeners before s) (e : Ending) (scope : Scope) :
    Streamed notes r.listeners before (r.conclude e scope s).2 := by
  have closed (status : RunStatus) (id : Option String) :
      Streamed notes r.listeners before (r.closed status scope id s).2 := by
    rw [closed_snd]
    exact streams.finish h status scope id
  cases e with
  | finished | cancelled | failed => exact closed _ _
  | aborted a =>
    cases a with
    | token => exact closed _ _
    | task =>
      have finished := streams.finish h .cancelled scope none
      have all : Streamed notes r.listeners before
          (closeAll (r.finish .cancelled scope none s).2) :=
        closeAll_chain (R := fun s z => Streamed notes r.listeners before s →
            Streamed notes r.listeners before z)
          (fun _ => id) (fun s o z more h => more (h.close streams.listeners o _)) _ finished
      simp only [Start.conclude]
      split <;> rename_i same <;> rw [same] at all <;> exact all
  | left | unfinished => exact h

/-- Wherever a run stands, or however it ended, a listener that notes what it is told has noted the
steps of the record. -/
theorem run_notes (streams : r.Streams notes) (fuel : Nat) (world : σ) :
    notes (r.run fuel world).2.world =
      notes world ++ (r.run fuel world).2.recorder.record.steps := by
  have begins : Streamed notes r.listeners (notes world) (r.session world) := by
    refine ⟨rfl, ?_⟩
    exact ((streams.calls.timestamp _).trans (streams.calls.freshId _)).trans
      (List.append_nil _).symm
  rw [Start.run_eq]
  refine (streams.conclude ?_ _ _).noted
  exact Walk.proceed_preserves (streams.preserves _) rfl begins

end Start

/-! ### The recorder as a whole -/

namespace Session

variable {s : Session σ}

/-- However a recorder is used, its ledger is in order, and its record only grows. What is open can
be closed, and everything else is refused without a trace. A listener is told the steps closed from
its registration on, and over a whole run just the steps of the record, whoever else fails. -/
theorem serve_records (fresh : s.recorder.opened = []) (qs : List (Request σ)) :
    let answers := (s.serve qs).1
    let behind := (s.serve qs).2
    s.Ledger behind answers ∧
      (∀ more, behind.recorder.record.steps <+: (behind.serve more).2.recorder.record.steps) ∧
      (∀ o c,
        (∃ known ∈ behind.recorder.opened, known.ticket = o.ticket ∧
          (behind.answer (.close o c)).1 = .closed known (Closing.apply c known.step)) ∨
        ((o.ticket ∈ (begun answers).map (·.ticket) →
            o.ticket ∈ (closed answers).map (·.1.ticket)) ∧
          behind.answer (.close o c) =
            (.refused (.badValue ("Step for node '" ++ o.step.nodeId ++ "' is not open")),
              behind))) ∧
      ∀ notes : σ → List Step,
        (∀ l more, Noting notes l →
          Keep behind.recorder.listeners (fun x y => notes y = notes x) →
          (∀ k, .listen k ∈ more → ∀ step x, notes (k step x).world = notes x) →
          notes (s.serve (qs ++ .listen l :: more)).2.world = notes behind.world ++
            (closed ((behind.answer (.listen l)).2.serve more).1).map (·.2)) ∧
        ∀ r : Start σ, r.Streams notes → ∀ fuel world,
          notes (r.run fuel world).2.world =
            notes world ++ (r.run fuel world).2.recorder.record.steps := by
  intro answers behind
  have ledger : s.Ledger behind answers := (Ledger.fresh fresh).serve qs
  refine ⟨ledger, ?_, ?_, fun notes => ⟨?_, fun r streams => r.run_notes streams⟩⟩
  · intro more
    have later : s.Ledger (behind.serve more).2 (answers ++ (behind.serve more).1) :=
      ledger.serve more
    rw [ledger.steps, later.steps, closed_append, List.map_append, ← List.append_assoc]
    exact List.prefix_append ..
  · intro o c
    rcases behind.recorder.known_cases o with ⟨unknown, -⟩ | ⟨before, inside, opened, ticket⟩
    · refine .inr ⟨fun given => ?_, answer_refused c unknown⟩
      refine Classical.byContradiction fun unclosed => ?_
      cases unknown.symm.trans ((ledger.isOpen_iff o.ticket).mpr ⟨given, unclosed⟩)
    · refine .inl ⟨behind.recorder.known o, ?_, ticket, ?_⟩
      · rw [opened]
        exact List.mem_append_right _ (List.mem_cons_self ..)
      · rw [answer_closed ledger.sound opened c]
  · intro l more notesAll others silent
    have one : OneNotes notes (behind.answer (.listen l)).2.recorder.listeners :=
      ⟨_, l, [], rfl, notesAll, (List.append_nil behind.recorder.listeners).symm ▸ others⟩
    rw [serve_append]
    exact serve_notes one silent

/-- A listener that notes what it is told. -/
def note : Listener (List Step) := fun step noted => { world := noted ++ [step] }

/-- A listener that fails. -/
def broken : Listener (List Step) := fun _ noted =>
  { world := noted, failed := some (.general "listener down") }

/-- Providers of no time that do nothing. -/
def idle : Providers (List Step) :=
  { clock :=
      { now := fun x => (.nan, x)
        timestamp := fun x => ("", x)
        freshId := fun x => ("", x)
        sleep := fun _ => Call.pure () } }

def heard : Start (List Step) :=
  { providers := idle
    workflow := { nodes := [Start.binding] }
    listeners := [broken, note, broken] }

theorem heard_streams : heard.Streams id where
  calls := by
    refine ⟨fun _ => rfl, fun _ _ _ first second => second.trans first, ?_, fun _ => rfl,
      fun _ => rfl, fun _ => rfl⟩
    intro α e c offered x
    cases offered with
    | sleep => rfl
    | model h | http h | tools h | vault h | workflows h | interaction h | host h | index h =>
      cases h
  listeners := ⟨[broken], note, [broken], rfl, fun _ _ => rfl, by
    intro l hl
    have same : l = broken := by simpa using hl
    exact same ▸ fun _ _ => rfl⟩
  history := nofun

/-- Two steps are begun and the first is closed twice, behind a listener that fails. -/
theorem serve_records_twice :
    let s : Session (List Step) := { world := [], recorder :=
      { record := { id := "", startTime := "" }, listeners := [broken] } }
    let step (id : String) : Step := { nodeId := id, kind := "set", timestamp := "" }
    let first : Opened := ⟨0, step "a"⟩
    let qs : List (Request (List Step)) := [.begin (step "a"), .begin (step "b")]
    let once : List (Request (List Step)) :=
      [.close first { status := .success }, .close first { status := .error }]
    s.recorder.opened = [] ∧ s.Ledger (s.serve qs).2 (s.serve qs).1 ∧
      (s.serve (qs ++ .listen note :: once)).2.world =
        [{ step "a" with status := .success }] ∧
      (heard.run 2 []).2.world = (heard.run 2 []).2.recorder.record.steps ∧
      (heard.run 2 []).2.world.map (·.nodeId) = ["x"] := by
  intro s step first qs once
  obtain ⟨ledger, -, -, listening⟩ := serve_records (s := s) rfl qs
  obtain ⟨told, runs⟩ := listening id
  refine ⟨rfl, ledger, ?_, runs heard heard_streams 2 [], rfl⟩
  refine told note once (fun _ _ => rfl) ?_ ?_
  · exact List.forall_mem_singleton.mpr fun _ _ => rfl
  · intro k there
    simp [once] at there

end Session
end Runbook
