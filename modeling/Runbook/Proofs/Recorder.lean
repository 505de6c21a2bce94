import Runbook.Proofs.Walk.Alike
import Runbook.Proofs.Walk.Recording

/-! The recorder under any calls.

A recorder is asked to begin steps, to close them, to tell more listeners and to finish its record,
in any order and with any number of steps open at once. Each begun step is open until it is closed,
and is then recorded once, in the order of closing (`Session.Ledger`). A close of anything else is
refused and changes nothing. A listener is told each step that is closed from its registration on,
whatever the others do (`Session.serve_notes`). -/
namespace Runbook

variable {σ : Type}

namespace Recorder

/-- What can be asked of a recorder. -/
inductive Request (σ : Type)
  | begin (step : Step)
  | close (o : Opened) (c : Closing)
  | listen (l : Listener σ)
  | finish (status : RunStatus) (endTime : String) (bindings : List (String × Value))
    (errorNodeId : Option String)

inductive Answer
  | begun (o : Opened)
  | closed (o : Opened) (step : Step)
  | refused (f : Fault)
  | done

/-- The steps that were begun, as the answers give them. -/
def begun (answers : List Answer) : List Opened :=
  answers.filterMap fun
    | .begun o => some o
    | _ => none

/-- The steps that were closed, each with what was recorded of it. -/
def closed (answers : List Answer) : List (Opened × Step) :=
  answers.filterMap fun
    | .closed o step => some (o, step)
    | _ => none

/-- A step is known by its ticket alone: under a ticket that is open, the step that was opened with
it is presented. -/
def known (r : Recorder σ) (o : Opened) : Opened :=
  (r.opened.find? (·.ticket == o.ticket)).getD o

end Recorder

open Recorder
open scoped List

namespace Session

/-- What the recorder of a session answers, and the session behind it. -/
def answer (s : Session σ) : Request σ → Answer × Session σ
  | .begin step =>
    (.begun (s.recorder.begin step).1, { s with recorder := (s.recorder.begin step).2 })
  | .close o c =>
    let o := s.recorder.known o
    match s.recorder.close o c with
    | .ok (step, _) => (.closed o step, s.close o c)
    | .error f => (.refused f, s)
  | .listen l => (.done, { s with recorder := s.recorder.listen l })
  | .finish status endTime bindings errorNodeId =>
    (.done, { s with recorder := s.recorder.finish status endTime bindings errorNodeId })

/-- The answers to requests, one behind the other, and the session behind the last. -/
def serve (s : Session σ) : List (Request σ) → List Answer × Session σ
  | [] => ([], s)
  | q :: rest => ((s.answer q).1 :: ((s.answer q).2.serve rest).1, ((s.answer q).2.serve rest).2)

theorem serve_append (s : Session σ) (qs more : List (Request σ)) :
    s.serve (qs ++ more) =
      ((s.serve qs).1 ++ ((s.serve qs).2.serve more).1, ((s.serve qs).2.serve more).2) := by
  induction qs generalizing s with
  | nil => rfl
  | cons q rest ih => simp only [List.cons_append, serve, ih]

end Session

/-! ### One request -/

namespace Recorder

variable {r : Recorder σ} {o : Opened}

theorem isOpen_iff {ticket : Nat} : r.isOpen ticket = true ↔ ticket ∈ r.opened.map (·.ticket) := by
  simp [isOpen]

/-- A ticket is open, and its step stands among the open ones, or it is not. -/
theorem known_cases (r : Recorder σ) (o : Opened) :
    (r.isOpen o.ticket = false ∧ r.known o = o) ∨
      ∃ before inside, r.opened = before ++ r.known o :: inside ∧
        (r.known o).ticket = o.ticket := by
  unfold known
  cases found : r.opened.find? (·.ticket == o.ticket) with
  | none =>
    refine .inl ⟨?_, rfl⟩
    rw [isOpen]
    exact List.any_eq_false.mpr (List.find?_eq_none.mp found)
  | some o' =>
    obtain ⟨same, before, inside, opened, -⟩ := List.find?_eq_some_iff_append.mp found
    exact .inr ⟨before, inside, opened, eq_of_beq same⟩

theorem close_refused (r : Recorder σ) (c : Closing) (h : r.isOpen o.ticket = false) :
    r.close o c = .error (.badValue ("Step for node '" ++ o.step.nodeId ++ "' is not open")) := by
  rw [close, h, if_neg Bool.false_ne_true]

end Recorder

namespace Session

variable {s : Session σ} {o : Opened}

theorem answer_refused (c : Closing) (h : s.recorder.isOpen o.ticket = false) :
    s.answer (.close o c) =
      (.refused (.badValue ("Step for node '" ++ o.step.nodeId ++ "' is not open")), s) := by
  rcases s.recorder.known_cases o with ⟨-, same⟩ | ⟨before, inside, opened, ticket⟩
  · simp only [answer, same, close_refused _ c h]
  · have isOpen : s.recorder.isOpen o.ticket = true := by
      rw [isOpen_iff, ← ticket, opened]
      simp
    cases h.symm.trans isOpen

theorem answer_closed {before inside : List Opened} (sound : s.recorder.Sound)
    (opened : s.recorder.opened = before ++ s.recorder.known o :: inside) (c : Closing) :
    s.answer (.close o c) =
      (.closed (s.recorder.known o) (Closing.apply c (s.recorder.known o).step),
        s.close (s.recorder.known o) c) := by
  simp only [answer, close_eq sound opened c]

end Session

/-! ### All requests -/

/-- What the answers from one session to another say of its recorder: each step that was begun is
either open or closed, and just once; and the steps that were closed are recorded behind the others,
in the order of closing. -/
structure Session.Ledger (s s' : Session σ) (answers : List Answer) : Prop where
  sound : s'.recorder.Sound
  ordered : (begun answers).Pairwise (·.ticket < ·.ticket)
  given : ∀ o ∈ begun answers, o.ticket < s'.recorder.tickets
  once : (s'.recorder.opened ++ (closed answers).map (·.1)).Perm (begun answers)
  steps : s'.recorder.record.steps = s.recorder.record.steps ++ (closed answers).map (·.2)

theorem Recorder.begun_append (answers more : List Answer) :
    begun (answers ++ more) = begun answers ++ begun more := List.filterMap_append

theorem Recorder.closed_append (answers more : List Answer) :
    closed (answers ++ more) = closed answers ++ closed more := List.filterMap_append

namespace Session.Ledger

variable {s s' : Session σ} {answers : List Answer}

/-- A recorder without open steps has an empty ledger. -/
theorem fresh (h : s.recorder.opened = []) : s.Ledger s [] where
  sound := ⟨h ▸ .nil, h ▸ List.forall_mem_nil _⟩
  ordered := .nil
  given := List.forall_mem_nil _
  once := by rw [h]; rfl
  steps := (List.append_nil _).symm

/-- Nothing that was begun or closed is told of, and nothing is. -/
theorem other (h : s.Ledger s' answers) {s'' : Session σ} {a : Answer} (begins : begun [a] = [])
    (closes : closed [a] = []) (opened : s''.recorder.opened = s'.recorder.opened)
    (tickets : s''.recorder.tickets = s'.recorder.tickets)
    (steps : s''.recorder.record.steps = s'.recorder.record.steps) :
    s.Ledger s'' (answers ++ [a]) := by
  have same : begun (answers ++ [a]) = begun answers ∧ closed (answers ++ [a]) = closed answers := by
    rw [begun_append, closed_append, begins, closes, List.append_nil, List.append_nil]
    exact ⟨rfl, rfl⟩
  refine ⟨⟨opened ▸ h.sound.ordered, ?_⟩, ?_, ?_, ?_, ?_⟩
  · rw [opened, tickets]
    exact h.sound.given
  · exact same.1 ▸ h.ordered
  · rw [same.1, tickets]
    exact h.given
  · rw [same.1, same.2, opened]
    exact h.once
  · rw [same.2, steps]
    exact h.steps

theorem begin (h : s.Ledger s' answers) (step : Step) :
    let out := s'.answer (.begin step)
    s.Ledger out.2 (answers ++ [out.1]) := by
  intro out
  let o : Opened := ⟨s'.recorder.tickets, step⟩
  have begins : begun (answers ++ [out.1]) = begun answers ++ [o] := begun_append answers [out.1]
  have closes : closed (answers ++ [out.1]) = closed answers :=
    (closed_append answers [out.1]).trans (List.append_nil _)
  refine ⟨h.sound.begin step, ?_, ?_, ?_, ?_⟩
  · rw [begins, List.pairwise_append]
    refine ⟨h.ordered, List.pairwise_singleton .., fun b hb b' hb' => ?_⟩
    rw [List.mem_singleton.mp hb']
    exact h.given b hb
  · rw [begins]
    refine List.forall_mem_append.mpr ⟨fun b hb => Nat.lt_succ_of_lt (h.given b hb), ?_⟩
    exact List.forall_mem_singleton.mpr (Nat.lt_succ_self _)
  · rw [begins, closes]
    show ((s'.recorder.opened ++ [o]) ++ (closed answers).map (·.1)).Perm _
    calc (s'.recorder.opened ++ [o]) ++ (closed answers).map (·.1)
        _ = s'.recorder.opened ++ ([o] ++ (closed answers).map (·.1)) := List.append_assoc ..
        _ ~ s'.recorder.opened ++ ((closed answers).map (·.1) ++ [o]) :=
            List.perm_append_comm.append_left _
        _ = (s'.recorder.opened ++ (closed answers).map (·.1)) ++ [o] :=
            (List.append_assoc ..).symm
        _ ~ begun answers ++ [o] := h.once.append_right _
  · rw [closes]
    exact h.steps

theorem close (h : s.Ledger s' answers) (o : Opened) (c : Closing) :
    let out := s'.answer (.close o c)
    s.Ledger out.2 (answers ++ [out.1]) := by
  rcases s'.recorder.known_cases o with ⟨unknown, -⟩ | ⟨before, inside, opened, -⟩
  · rw [answer_refused c unknown]
    exact h.other rfl rfl rfl rfl rfl
  · let v : Station := ⟨default, s'.recorder.known o, .error .unfinished, some c⟩
    let step := Closing.apply c (s'.recorder.known o).step
    have left : (s'.close (s'.recorder.known o) c).recorder =
        s'.recorder.afterVisit before inside v := Session.leave_recorder (v := v) h.sound opened
    rw [answer_closed h.sound opened c]
    intro out
    have begins : begun (answers ++ [out.1]) = begun answers :=
      (begun_append answers [out.1]).trans (List.append_nil _)
    have closes : closed (answers ++ [out.1]) =
        closed answers ++ [(s'.recorder.known o, step)] := closed_append answers [out.1]
    refine ⟨left ▸ h.sound.afterVisit opened, begins ▸ h.ordered, ?_, ?_, ?_⟩
    · rw [begins, left]
      exact h.given
    · let others := (closed answers).map (·.1)
      rw [begins, closes, left, List.map_append]
      show ((before ++ [] ++ inside) ++ (others ++ [s'.recorder.known o])).Perm _
      refine .trans ?_ (opened ▸ h.once)
      calc (before ++ [] ++ inside) ++ (others ++ [s'.recorder.known o])
          _ = (before ++ (inside ++ others)) ++ [s'.recorder.known o] := by simp
          _ ~ s'.recorder.known o :: (before ++ (inside ++ others)) :=
              List.perm_append_singleton ..
          _ ~ before ++ s'.recorder.known o :: (inside ++ others) := List.perm_middle.symm
          _ = (before ++ s'.recorder.known o :: inside) ++ others := by simp
    · rw [closes, left, List.map_append, ← List.append_assoc, ← h.steps]
      rfl

theorem answer (h : s.Ledger s' answers) (q : Request σ) :
    s.Ledger (s'.answer q).2 (answers ++ [(s'.answer q).1]) := by
  cases q with
  | begin step => exact h.begin step
  | close o c => exact h.close o c
  | listen | finish => exact h.other rfl rfl rfl rfl rfl

theorem serve (h : s.Ledger s' answers) (qs : List (Request σ)) :
    s.Ledger (s'.serve qs).2 (answers ++ (s'.serve qs).1) := by
  induction qs generalizing s' answers with
  | nil =>
    rw [Session.serve, List.append_nil]
    exact h
  | cons q rest ih =>
    have behind := ih (h.answer q)
    rwa [List.append_assoc] at behind

/-- A ticket is open just where a step was begun with it and not closed. -/
theorem isOpen_iff (h : s.Ledger s' answers) (ticket : Nat) :
    s'.recorder.isOpen ticket = true ↔
      ticket ∈ (begun answers).map (·.ticket) ∧
        ticket ∉ (closed answers).map (·.1.ticket) := by
  have all := (h.once.map (·.ticket)).symm
  have distinct : ((begun answers).map (·.ticket)).Nodup :=
    List.pairwise_map.mpr (h.ordered.imp Nat.ne_of_lt)
  rw [List.map_append, List.map_map] at all
  have apart := (List.nodup_append.mp (all.nodup_iff.mp distinct)).2.2
  rw [Recorder.isOpen_iff, all.mem_iff, List.mem_append]
  constructor
  · exact fun there => ⟨.inl there, fun closed => apart _ there _ closed rfl⟩
  · rintro ⟨there | closed, other⟩
    · exact there
    · exact absurd closed other

end Session.Ledger

/-! ### Listeners -/

/-- The listener notes every step that it is told. -/
def Noting (notes : σ → List Step) (l : Listener σ) : Prop :=
  ∀ step x, notes (l step x).world = notes x ++ [step]

/-- One of the listeners notes every step that it is told, and the others leave its notes alone;
whether they fail does not matter. -/
structure OneNotes (notes : σ → List Step) (listeners : List (Listener σ)) : Prop where
  split : ∃ before l after, listeners = before ++ l :: after ∧ Noting notes l ∧
    Keep (before ++ after) fun x y => notes y = notes x

variable {notes : σ → List Step} {listeners : List (Listener σ)}

theorem Recorder.tell_silent (silent : Keep listeners fun x y => notes y = notes x) (step : Step)
    (x : σ) : notes (tell step listeners x).1 = notes x :=
  tell_keeps (R := fun x y => notes y = notes x) (fun _ => rfl)
    (fun _ _ _ first second => second.trans first) silent step x

theorem Recorder.tell_append (step : Step) (before after : List (Listener σ)) (x : σ) :
    (tell step (before ++ after) x).1 = (tell step after (tell step before x).1).1 := by
  induction before generalizing x with
  | nil => rfl
  | cons l rest ih => exact ih _

theorem OneNotes.tell (h : OneNotes notes listeners) (step : Step) (x : σ) :
    notes (Recorder.tell step listeners x).1 = notes x ++ [step] := by
  obtain ⟨before, l, after, rfl, notesAll, silent⟩ := h.split
  obtain ⟨first, last⟩ := List.forall_mem_append.mp silent
  rw [Recorder.tell_append]
  show notes (Recorder.tell step after (l step _).world).1 = _
  rw [Recorder.tell_silent last, notesAll, Recorder.tell_silent first]

theorem OneNotes.listen (h : OneNotes notes listeners) {k : Listener σ}
    (silent : ∀ step x, notes (k step x).world = notes x) : OneNotes notes (listeners ++ [k]) := by
  obtain ⟨before, l, after, rfl, notesAll, others⟩ := h.split
  refine ⟨before, l, after ++ [k], by simp, notesAll, ?_⟩
  rw [← List.append_assoc]
  exact List.forall_mem_append.mpr ⟨others, List.forall_mem_singleton.mpr silent⟩

namespace Session

variable {s : Session σ}

theorem answer_listeners (s : Session σ) (q : Request σ) :
    (s.answer q).2.recorder.listeners = s.recorder.listeners ++
      match q with
      | .listen l => [l]
      | _ => [] := by
  cases q with
  | listen l => rfl
  | begin | finish => exact (List.append_nil _).symm
  | close o c =>
    rw [List.append_nil]
    simp only [answer]
    split
    · exact close_listeners ..
    · rfl

/-- The listeners are told the step that a request closed, if it did. -/
theorem answer_world (s : Session σ) (q : Request σ) :
    (s.answer q).2.world = (closed [(s.answer q).1]).foldl
      (fun x step => (tell step.2 s.recorder.listeners x).1) s.world := by
  cases q with
  | begin | listen | finish => rfl
  | close o c =>
    simp only [answer]
    cases closes : s.recorder.close (s.recorder.known o) c with
    | error f => rfl
    | ok out =>
      obtain ⟨step, r⟩ := out
      have kept : r.listeners = s.recorder.listeners := by
        unfold Recorder.close at closes
        split at closes <;> cases closes
        rfl
      simp only [Session.close, closes, kept]
      rfl

/-- Whatever a close comes to, what it records is what is noted. -/
theorem close_notes (h : OneNotes notes s.recorder.listeners) (o : Opened) (c : Closing) :
    ∃ added, notes (s.close o c).world = notes s.world ++ added ∧
      (s.close o c).recorder.record.steps = s.recorder.record.steps ++ added := by
  unfold Session.close Recorder.close
  cases s.recorder.isOpen o.ticket with
  | true => exact ⟨_, h.tell _ s.world, rfl⟩
  | false => exact ⟨[], (List.append_nil _).symm, (List.append_nil _).symm⟩

theorem answer_notes (h : OneNotes notes s.recorder.listeners) {q : Request σ}
    (silent : ∀ k, q = .listen k → ∀ step x, notes (k step x).world = notes x) :
    OneNotes notes (s.answer q).2.recorder.listeners ∧
      notes (s.answer q).2.world = notes s.world ++ (closed [(s.answer q).1]).map (·.2) := by
  constructor
  · rw [answer_listeners]
    cases q with
    | listen k => exact h.listen (silent k rfl)
    | _ => exact (List.append_nil s.recorder.listeners).symm ▸ h
  · rw [answer_world]
    cases (s.answer q).1 with
    | closed o step => exact h.tell step s.world
    | _ => exact (List.append_nil _).symm

/-- A listener that is registered notes every step that is closed from then on. -/
theorem serve_notes (h : OneNotes notes s.recorder.listeners) {qs : List (Request σ)}
    (silent : ∀ k, .listen k ∈ qs → ∀ step x, notes (k step x).world = notes x) :
    notes (s.serve qs).2.world = notes s.world ++ (closed (s.serve qs).1).map (·.2) := by
  induction qs generalizing s with
  | nil => exact (List.append_nil _).symm
  | cons q rest ih =>
    obtain ⟨here, noted⟩ := answer_notes h fun k first => silent k (first ▸ List.mem_cons_self ..)
    refine (ih here fun k behind => silent k (List.mem_cons_of_mem _ behind)).trans ?_
    rw [noted, List.append_assoc, ← List.map_append, ← closed_append]
    rfl

end Session

end Runbook
