import Runbook.Proofs.Scope
import Runbook.Proofs.Walk.Trail

/-! What a trail leaves in the recorder.

Every visit opens one step. The step is recorded when it is closed, so a nested walk's steps
stand before the step they were made in, and a step that nobody closes stays among the open
ones. `Walks.recorder_eq` reads the recorder off the trail: no step is recorded twice and none
is lost, whichever way the visits went. -/
namespace Runbook

open Visit

variable {σ : Type}

namespace Station

/-- What is recorded of a visit: its step, if that was closed. -/
def recorded (v : Station) : List Step :=
  match v.closing with
  | some c => [Recorder.Closing.apply c v.opened.step]
  | none => []

/-- What stays open of a visit: its step, if nobody closed it. -/
def leftOpen (v : Station) : List Opened :=
  match v.closing with
  | some _ => []
  | none => [v.opened]

theorem recorded_leftOpen (v : Station) : v.recorded.length + v.leftOpen.length = 1 := by
  unfold recorded leftOpen
  cases v.closing <;> rfl

end Station

namespace Trail

/-- The number of visits at every depth. -/
def visits : Trail → Nat
  | stop _ _ => 0
  | plain _ rest => rest.visits + 1
  | nested _ _ inner rest => inner.visits + rest.visits + 1

/-- The recorded steps in order. -/
def steps : Trail → List Step
  | stop _ _ => []
  | plain v rest => v.recorded ++ rest.steps
  | nested v _ inner rest => inner.steps ++ v.recorded ++ rest.steps

/-- The steps that stay open, in the order of their opening. -/
def leftOpen : Trail → List Opened
  | stop _ _ => []
  | plain v rest => v.leftOpen ++ rest.leftOpen
  | nested v _ inner rest => v.leftOpen ++ inner.leftOpen ++ rest.leftOpen

/-- Each visit is recorded once or left open. -/
theorem steps_leftOpen (t : Trail) : t.steps.length + t.leftOpen.length = t.visits := by
  induction t with
  | stop => rfl
  | plain v rest ih =>
    have one := v.recorded_leftOpen
    simp only [steps, leftOpen, visits, List.length_append]
    omega
  | nested v _ inner rest ihInner ih =>
    have one := v.recorded_leftOpen
    simp only [steps, leftOpen, visits, List.length_append]
    omega

end Trail

/-! ### The recorder -/

/-- Tickets are given out in order, and each once. -/
structure Recorder.Sound (r : Recorder σ) : Prop where
  ordered : r.opened.Pairwise (·.ticket < ·.ticket)
  given : ∀ o ∈ r.opened, o.ticket < r.tickets

namespace Recorder

/-- The recorder behind a trail. -/
def extend (r : Recorder σ) (t : Trail) : Recorder σ :=
  { r with
    record := { r.record with steps := r.record.steps ++ t.steps }
    opened := r.opened ++ t.leftOpen
    tickets := r.tickets + t.visits }

/-- The recorder behind the end of a visit, when the open steps were `before`, the one of the
visit, and `inside`. -/
def afterVisit (r : Recorder σ) (before inside : List Opened) (v : Station) : Recorder σ :=
  { r with
    record := { r.record with steps := r.record.steps ++ v.recorded }
    opened := before ++ v.leftOpen ++ inside }

theorem Sound.begin {r : Recorder σ} (h : r.Sound) (step : Step) : (r.begin step).2.Sound := by
  refine ⟨List.pairwise_append.mpr ⟨h.ordered, List.pairwise_singleton .., ?_⟩, ?_⟩
  · intro o ho o' ho'
    rw [List.mem_singleton.mp ho']
    exact h.given o ho
  · intro o ho
    rcases List.mem_append.mp ho with old | new
    · exact Nat.lt_succ_of_lt (h.given o old)
    · rw [List.mem_singleton.mp new]
      exact Nat.lt_succ_self _

/-- Closing a step takes just that one out of the open ones. -/
theorem Sound.filter {before inside : List Opened} {o : Opened}
    (h : (before ++ o :: inside).Pairwise (·.ticket < ·.ticket)) :
    (before ++ o :: inside).filter (·.ticket != o.ticket) = before ++ inside := by
  obtain ⟨_, behind, cross⟩ := List.pairwise_append.mp h
  have keepBefore : before.filter (·.ticket != o.ticket) = before :=
    List.filter_eq_self.mpr fun o' ho' =>
      bne_iff_ne.mpr (Nat.ne_of_lt (cross o' ho' o (List.mem_cons_self ..)))
  have keepInside : inside.filter (·.ticket != o.ticket) = inside :=
    List.filter_eq_self.mpr fun o' ho' =>
      bne_iff_ne.mpr (Nat.ne_of_gt ((List.pairwise_cons.mp behind).1 o' ho'))
  rw [List.filter_append, keepBefore, List.filter_cons_of_neg (by simp), keepInside]

theorem close_eq {r : Recorder σ} {before inside : List Opened} {o : Opened} (sound : r.Sound)
    (h : r.opened = before ++ o :: inside) (c : Closing) :
    r.close o c = .ok (Closing.apply c o.step,
      { r with
        opened := before ++ inside
        record := { r.record with steps := r.record.steps ++ [Closing.apply c o.step] } }) := by
  have isOpen : r.isOpen o.ticket = true := by
    rw [Recorder.isOpen, h]
    simp
  have rest := Sound.filter (h ▸ sound.ordered)
  simp only [close, isOpen, if_true, h, rest]

end Recorder

theorem Session.leave_recorder {s : Session σ} {before inside : List Opened} {v : Station}
    (sound : s.recorder.Sound) (h : s.recorder.opened = before ++ v.opened :: inside) :
    (s.leave v).recorder = s.recorder.afterVisit before inside v := by
  unfold Session.leave Recorder.afterVisit Station.recorded Station.leftOpen
  cases v.closing with
  | none => simp [Session.closeWith, ← h]
  | some c =>
    simp only [Session.closeWith, Session.close, Recorder.close_eq sound h, List.append_nil]

theorem Recorder.Sound.afterVisit {r : Recorder σ} {before inside : List Opened} {v : Station}
    (sound : r.Sound) (h : r.opened = before ++ v.opened :: inside) :
    (r.afterVisit before inside v).Sound := by
  have kept : (before ++ v.leftOpen ++ inside).Sublist r.opened := by
    rw [h, List.append_assoc]
    refine (List.Sublist.refl before).append ?_
    unfold Station.leftOpen
    cases v.closing with
    | none => exact List.Sublist.refl _
    | some _ => exact List.sublist_cons_self ..
  exact ⟨sound.ordered.sublist kept, fun o ho => sound.given o (kept.subset ho)⟩

/-! ### Walks -/

theorem Walk.openStep_sound {w : Walk σ} {n : Node} {s s₁ : Session σ} (sound : s.recorder.Sound)
    (begun : s₁.recorder = (w.openStep n s).2.recorder) : s₁.recorder.Sound :=
  begun ▸ sound.begin _

/-- The end of a visit, behind a nested walk or without one: the step of the visit stands between
the steps opened before and those left open inside. -/
theorem Session.leave_visit {w : Walk σ} {n : Node} {s s₁ s₂ : Session σ} {inner : Trail}
    {v : Station} (begun : s₁.recorder = (w.openStep n s).2.recorder)
    (walked : s₂.recorder = s₁.recorder.extend inner) (sound : s₂.recorder.Sound)
    (own : v.opened = (w.openStep n s).1) :
    (s₂.leave v).recorder = s₂.recorder.afterVisit s.recorder.opened inner.leftOpen v ∧
      (s₂.leave v).recorder.Sound := by
  have opened : s₂.recorder.opened = s.recorder.opened ++ v.opened :: inner.leftOpen := by
    rw [walked, begun, own]
    simp [Recorder.extend, Walk.openStep, Recorder.begin]
  have left := Session.leave_recorder sound opened
  exact ⟨left, left ▸ sound.afterVisit opened⟩

theorem Recorder.extend_stop (r : Recorder σ) (e : Ending) (scope : Scope) :
    r.extend (.stop e scope) = r := by
  simp [extend, Trail.steps, Trail.leftOpen, Trail.visits]

theorem Walks.recorder_eq {w : Walk σ} {p : Progress} {s s' : Session σ} {t : Trail}
    (h : Walks w p s t s') (sound : s.recorder.Sound) :
    s'.recorder = s.recorder.extend t ∧ s'.recorder.Sound := by
  induction h with
  | ended | fired | lost => exact ⟨(Recorder.extend_stop ..).symm, sound⟩
  | @plain w place n s s₁ s' r rest quiet here visit onward ih =>
    have begun := Walk.prelude_recorder visit
    have alone := (Recorder.extend_stop s₁.recorder .finished .empty).symm
    obtain ⟨left, sound₁⟩ := Session.leave_visit (v := w.station place n s r) begun alone
      (Walk.openStep_sound sound begun) rfl
    obtain ⟨rec, sound'⟩ := ih sound₁
    refine ⟨?_, sound'⟩
    rw [rec, left, begun]
    simp [Recorder.extend, Recorder.afterVisit, Trail.steps, Trail.leftOpen, Trail.visits,
      Walk.openStep, Recorder.begin, Walk.station, Nat.add_comm, Nat.add_assoc]
  | @nested w place n s s₁ s₂ s' d inner rest quiet here visit inside onward ihInside ihOnward =>
    have begun := Walk.prelude_recorder visit
    obtain ⟨walked, sound₂⟩ := ihInside (Walk.openStep_sound sound begun)
    obtain ⟨left, sound₃⟩ := Session.leave_visit
      (v := w.station place n s (d.arrive (w.stepId n) inner)) begun walked sound₂ rfl
    obtain ⟨rec, sound'⟩ := ihOnward sound₃
    refine ⟨?_, sound'⟩
    rw [rec, left, walked, begun]
    simp [Recorder.extend, Recorder.afterVisit, Trail.steps, Trail.leftOpen, Trail.visits,
      Walk.openStep, Recorder.begin, Walk.station, Nat.add_comm, Nat.add_assoc]

/-! ### Steps that stay open -/

/-- The visit came to an outcome that binds the empty name. -/
def Station.Refuses (v : Station) : Prop :=
  ∃ x, v.result = .ok x ∧ "" ∈ Entries.keys x.outcome.writes

/-- The task of the run was cancelled during the visit. -/
def Station.Abandoned (v : Station) : Prop := v.result = .error (.aborted .task)

namespace Trail

/-- The visits of the walk itself. -/
def stations : Trail → List Station
  | stop _ _ => []
  | plain v rest | nested v _ _ rest => v :: rest.stations

/-- The visits of the walks inside it, at every depth. -/
def insiders : Trail → List Station
  | stop _ _ => []
  | plain _ rest => rest.insiders
  | nested _ _ inner rest => inner.stations ++ inner.insiders ++ rest.insiders

/-- The visits at every depth. -/
def all (t : Trail) : List Station := t.stations ++ t.insiders

theorem forall_plain {P : Station → Prop} {v : Station} {rest : Trail} :
    (∀ x ∈ (plain v rest).all, P x) ↔ P v ∧ ∀ x ∈ rest.all, P x := by
  simp only [all, stations, insiders, List.cons_append, List.forall_mem_cons]

theorem forall_nested {P : Station → Prop} {v : Station} {workflow : Workflow}
    {inner rest : Trail} :
    (∀ x ∈ (nested v workflow inner rest).all, P x) ↔
      P v ∧ (∀ x ∈ inner.all, P x) ∧ ∀ x ∈ rest.all, P x := by
  simp only [all, stations, insiders, List.cons_append, List.forall_mem_cons,
    List.forall_mem_append]
  constructor
  · rintro ⟨here, own, inside, others⟩
    exact ⟨here, inside, own, others⟩
  · rintro ⟨here, inside, own, others⟩
    exact ⟨here, own, inside, others⟩

theorem leftOpen_eq_nil {t : Trail} : t.leftOpen = [] ↔ ∀ v ∈ t.all, v.closing ≠ none := by
  have one (v : Station) : v.leftOpen = [] ↔ v.closing ≠ none := by
    unfold Station.leftOpen
    cases v.closing <;> simp
  induction t with
  | stop => simp [leftOpen, all, stations, insiders]
  | plain v rest ih =>
    have apart : (plain v rest).leftOpen = [] ↔ v.leftOpen = [] ∧ rest.leftOpen = [] :=
      List.append_eq_nil_iff
    exact apart.trans ((and_congr (one v) ih).trans (forall_plain (P := (·.closing ≠ none))).symm)
  | nested v workflow inner rest ihInner ih =>
    have apart : (nested v workflow inner rest).leftOpen = [] ↔
        v.leftOpen = [] ∧ inner.leftOpen = [] ∧ rest.leftOpen = [] := by
      rw [leftOpen, List.append_assoc, List.append_eq_nil_iff, List.append_eq_nil_iff]
    exact apart.trans ((and_congr (one v) (and_congr ihInner ih)).trans
      (forall_nested (P := (·.closing ≠ none))).symm)

end Trail

theorem Walk.inside_isOutermost (w : Walk σ) (stepId : String) (workflow : Workflow) :
    (w.inside stepId workflow).isOutermost = false := by
  refine beq_eq_false_iff_ne.mpr fun empty => ?_
  have long := congrArg String.length (show stepId ++ "/" = "" from empty)
  rw [String.length_append] at long
  exact absurd long (Nat.succ_ne_zero _)

/-- A step stays open where its visit binds the empty name, and inside a nested walk also where
the task is cancelled. -/
theorem Walk.closing?_eq_none {w : Walk σ} {scope : Scope} {r : Except Halt Visited}
    (ends : r ≠ .error .unfinished) :
    w.closing? scope r = none ↔
      (∃ x, r = .ok x ∧ "" ∈ Entries.keys x.outcome.writes) ∨
        (r = .error (.aborted .task) ∧ w.isOutermost = false) := by
  rcases r with h | v
  · cases h with
    | unfinished => exact absurd rfl ends
    | aborted a =>
      cases a with
      | token => simp [closing?]
      | task => cases outermost : w.isOutermost <;> simp [closing?, outermost]
    | fault f =>
      rcases taken f with ⟨reason, rfl⟩ | ⟨reason, rfl⟩ | fails
      · simp [closing?]
      · simp [closing?]
      · simp [w.closing?_fails scope fails]
  · simp only [Except.ok.injEq, reduceCtorEq, false_and, or_false, exists_eq_left']
    cases bound : (scope.setAll v.outcome.writes).2 with
    | some f => exact ⟨fun _ => Scope.unnamed_of_setAll bound, fun _ => w.closing?_refused bound⟩
    | none =>
      rw [w.closing?_bound bound]
      refine ⟨fun isOpen => ?_, fun unnamed => absurd unnamed (Scope.setAll_eq_none.mp bound)⟩
      cases isOpen

theorem Walks.of_ended {w : Walk σ} {e : Ending} {scope : Scope} {s s' : Session σ} {t : Trail}
    (h : Walks w (.ended e scope) s t s') : t = .stop e scope ∧ s' = s := by
  cases h
  exact ⟨rfl, rfl⟩

/-- A visit that does not end leaves the walk without an end. -/
theorem Walks.visit_ends {w : Walk σ} {place : Place} {n : Node} {s s' : Session σ} {t : Trail}
    {r : Except Halt Visited} (h : Walks w (w.onward place n r) s t s')
    (ends : t.ending ≠ .unfinished) : r ≠ .error .unfinished := by
  rintro rfl
  obtain ⟨rfl, -⟩ := h.of_ended
  exact ends rfl

theorem Walks.closing_eq_none {w : Walk σ} {p : Progress} {s s' : Session σ} {t : Trail}
    (h : Walks w p s t s') (ends : t.ending ≠ .unfinished) :
    (∀ v ∈ t.stations, v.closing = none ↔
      v.Refuses ∨ (v.Abandoned ∧ w.isOutermost = false)) ∧
    ∀ v ∈ t.insiders, v.closing = none ↔ v.Refuses ∨ v.Abandoned := by
  induction h with
  | ended | fired | lost => exact ⟨by simp [Trail.stations], by simp [Trail.insiders]⟩
  | plain quiet here visit onward ih =>
    obtain ⟨own, inside⟩ := ih ends
    exact ⟨List.forall_mem_cons.mpr ⟨Walk.closing?_eq_none (onward.visit_ends ends), own⟩, inside⟩
  | nested quiet here visit inside onward ihInside ihOnward =>
    obtain ⟨own, insiders⟩ := ihOnward ends
    obtain ⟨ownInside, insidersInside⟩ :=
      ihInside (mt Descent.arrive_unfinished.mpr (onward.visit_ends ends))
    simp only [Walk.inside_isOutermost, and_true] at ownInside
    exact ⟨List.forall_mem_cons.mpr ⟨Walk.closing?_eq_none (onward.visit_ends ends), own⟩,
      List.forall_mem_append.mpr ⟨List.forall_mem_append.mpr ⟨ownInside, insidersInside⟩, insiders⟩⟩

/-- No step of an outermost walk stays open, unless a visit at some depth binds the empty name or
the task is cancelled inside a nested walk. -/
theorem Walks.leftOpen_eq_nil {w : Walk σ} {p : Progress} {s s' : Session σ} {t : Trail}
    (h : Walks w p s t s') (outermost : w.isOutermost = true) (ends : t.ending ≠ .unfinished) :
    t.leftOpen = [] ↔
      (∀ v ∈ t.all, ¬ v.Refuses) ∧ ∀ v ∈ t.insiders, ¬ v.Abandoned := by
  obtain ⟨own, inside⟩ := h.closing_eq_none ends
  simp only [outermost, Bool.true_eq_false, and_false, or_false] at own
  rw [Trail.leftOpen_eq_nil, Trail.all, List.forall_mem_append, List.forall_mem_append]
  constructor
  · rintro ⟨closedOwn, closedInside⟩
    refine ⟨⟨fun v hv refuses => closedOwn v hv ((own v hv).mpr refuses), fun v hv refuses =>
      closedInside v hv ((inside v hv).mpr (.inl refuses))⟩, fun v hv abandoned =>
      closedInside v hv ((inside v hv).mpr (.inr abandoned))⟩
  · rintro ⟨⟨namedOwn, namedInside⟩, kept⟩
    refine ⟨fun v hv isOpen => namedOwn v hv ((own v hv).mp isOpen), fun v hv isOpen => ?_⟩
    rcases (inside v hv).mp isOpen with refuses | abandoned
    · exact namedInside v hv refuses
    · exact kept v hv abandoned

end Runbook
