import Runbook.Proofs.Walk.Visiting

/-! Walks that are cancelled.

Once the token has fired a walk visits nothing more: every visit under way is closed, from the
innermost outwards, and the walk ends (`Comes.sealed`). A call that the token aborts takes all of
them with it, and each step is closed by the cancellation, whatever its node says about failures and
dismissed requests (`Comes.aborted`). -/
namespace Runbook

open Visit

variable {σ : Type}

/-- The session behind the moment at which the token fires in a visit: during one of its calls, or
while its step is closed. -/
inductive Visiting.Fires (v : Visiting σ) : Session σ → Prop
  | calling {m : Made σ} (made : v.Makes m) (fires : m.Fires) : Fires v m.behind
  | closing {r : Except Halt Visited} {s : Session σ} (came : v.ComesTo r s)
    (quiet : s.fired = false) (fired : (s.leave (v.station r)).fired = true) :
    Fires v (s.leave (v.station r))

theorem Visiting.Fires.fired {v : Visiting σ} {m : Session σ} (h : v.Fires m) : m.fired = true := by
  cases h with
  | calling _ fires => exact fires.fired
  | closing _ _ fired => exact fired

/-! ### Closing a step -/

/-- What a session adds to an earlier one without opening a step. -/
structure Session.Closes (s z : Session σ) : Prop where
  tickets : z.recorder.tickets = s.recorder.tickets
  steps : s.recorder.record.steps <+: z.recorder.record.steps
  fired : s.fired = true → z.fired = true

namespace Session

theorem Closes.refl (s : Session σ) : s.Closes s := ⟨rfl, List.prefix_rfl, id⟩

theorem Closes.trans {s₁ s₂ s₃ : Session σ} (h : s₁.Closes s₂) (h' : s₂.Closes s₃) :
    s₁.Closes s₃ :=
  ⟨h'.tickets.trans h.tickets, h.steps.trans h'.steps, h'.fired ∘ h.fired⟩

theorem close_closes (s : Session σ) (o : Opened) (c : Closing) : s.Closes (s.close o c) := by
  unfold close Recorder.close
  cases s.recorder.isOpen o.ticket with
  | true => exact ⟨rfl, List.prefix_append .., fun fired => by simp [fired]⟩
  | false => exact .refl s

theorem leave_closes (s : Session σ) (v : Station) : s.Closes (s.leave v) := by
  unfold leave closeWith
  cases v.closing with
  | none => exact .refl s
  | some c => exact close_closes s _ c

end Session

/-! ### No visit behind the token -/

/-- A walk that has not ended without an end ends where the token has fired. -/
theorem Walks.of_fired {w : Walk σ} {p : Progress} {s : Session σ} (fired : s.fired = true)
    (ends : ∀ scope, p ≠ .ended .unfinished scope) :
    ∃ e scope, Walks w p s (.stop e scope) s ∧ e ≠ .unfinished := by
  cases p with
  | goOn place => exact ⟨_, _, .fired fired, nofun⟩
  | ended e scope => exact ⟨e, scope, .ended, fun cut => ends scope (cut ▸ rfl)⟩

/-- A visit in whose first part the token fired comes to something behind that part. -/
theorem Visiting.comesTo_of_fired {v : Visiting σ} (fired : v.prelude.2.fired = true) :
    ∃ r, v.ComesTo r v.prelude.2 ∧ r ≠ .error .unfinished := by
  rcases came : v.prelude with ⟨r | d, s₁⟩
  · rw [came] at fired
    exact ⟨r, .plain came, not_unfinished came fired⟩
  · rw [came] at fired
    have starts (scope : Scope) :
        (v.inside d.workflow).start d.inputs ≠ .ended .unfinished scope := by
      unfold Walk.start
      split <;> nofun
    obtain ⟨e, scope, walks, ends⟩ := Walks.of_fired fired starts
    exact ⟨_, .nested came walks, mt Descent.arrive_unfinished.mp ends⟩

/-- A walk that comes to a visit behind which the token has fired ends, and opens no other step. -/
theorem Walk.Comes.sealed {w : Walk σ} {p : Progress} {s : Session σ} {vs : List (Visiting σ)}
    (h : w.Comes p s vs) {v : Visiting σ} (last : vs.getLast? = some v)
    {r : Except Halt Visited} {z : Session σ} (came : v.ComesTo r z)
    (comes : r ≠ .error .unfinished) (fired : (z.leave (v.station r)).fired = true) :
    ∃ t s', Walks w p s t s' ∧ t.ending ≠ .unfinished ∧ (z.leave (v.station r)).Closes s' := by
  induction h with
  | here starts =>
    cases last
    obtain ⟨e, scope, onward, ends⟩ := Walks.of_fired fired (onward_ends _ _ _ comes)
    obtain ⟨t, before, walks, ending, -⟩ := came.walks starts onward
    exact ⟨t, _, walks, by rwa [ending], .refl _⟩
  | @inside u us d s₁ starts visit within ih =>
    rw [within.getLast?_cons] at last
    obtain ⟨inner, s₂, walks, ends, closes⟩ := ih last
    have comes : d.arrive u.stepId inner ≠ .error .unfinished :=
      mt Descent.arrive_unfinished.mp ends
    have closed := closes.trans (s₂.leave_closes (u.station (d.arrive u.stepId inner)))
    obtain ⟨e, scope, onward, ends⟩ := Walks.of_fired (closed.fired fired)
      (u.walk.onward_ends u.place u.node comes)
    obtain ⟨t, before, walks, ending, -⟩ :=
      (Visiting.ComesTo.nested visit walks).walks starts onward
    exact ⟨t, _, walks, by rwa [ending], closed⟩
  | behind starts came' _ ih =>
    obtain ⟨rest, s', onward, ends, closes⟩ := ih last
    obtain ⟨t, before, walks, ending, -⟩ := came'.walks starts onward
    exact ⟨t, s', walks, by rwa [ending], closes⟩

theorem Walk.Comes.sealed_of_fires {w : Walk σ} {p : Progress} {s m : Session σ}
    {vs : List (Visiting σ)} (h : w.Comes p s vs) {v : Visiting σ} (last : vs.getLast? = some v)
    (fires : v.Fires m) :
    ∃ t s', Walks w p s t s' ∧ t.ending ≠ .unfinished ∧ m.Closes s' := by
  cases fires with
  | @calling c made fires =>
    have fired := made.fired fires.fired
    obtain ⟨r, came, comes⟩ := Visiting.comesTo_of_fired fired
    have left := v.prelude.2.leave_closes (v.station r)
    obtain ⟨t, s', walks, ends, closes⟩ := h.sealed last came comes (left.fired fired)
    have recorder : v.prelude.2.recorder = c.behind.recorder :=
      (Walk.prelude_recorder (w := v.walk) rfl).trans made.recorder.symm
    refine ⟨t, s', walks, ends, ?_⟩
    refine Session.Closes.trans ⟨?_, ?_, fun _ => fired⟩ (left.trans closes)
    · exact congrArg Recorder.tickets recorder
    · exact recorder ▸ List.prefix_rfl
  | closing came quiet fired =>
    refine h.sealed last came ?_ fired
    -- Nobody is told of a visit that hangs.
    rintro rfl
    cases quiet.symm.trans fired

/-- The token fires in a visit that the walk comes to from here. -/
def Walk.ComesToFire (w : Walk σ) (p : Progress) (s : Session σ) : Prop :=
  ∃ vs v m, w.Comes p s vs ∧ vs.getLast? = some v ∧ v.Fires m

namespace Visiting

variable {v : Visiting σ} {s₁ : Session σ}

/-- Where the token fires in the first part of a visit, it fires in a call of that part. -/
theorem Starts.comesToFire (starts : v.Starts) {p : Visit.Prelude σ}
    (visit : v.prelude = (p, s₁)) (fired : s₁.fired = true) :
    v.walk.ComesToFire (.goOn v.place) v.session := by
  obtain ⟨m, made, fires⟩ :=
    v.fires_of_fired starts.quiet (show v.prelude.2.fired = true from visit ▸ fired)
  exact ⟨[v], v, _, .here starts, rfl, .calling made fires⟩

/-- Where the token fires behind what a visit comes to, it fires as the step is closed or further
on. -/
theorem ComesTo.comesToFire {r : Except Halt Visited} (came : v.ComesTo r s₁) (starts : v.Starts)
    (quiet : s₁.fired = false)
    (onward : (s₁.leave (v.station r)).fired = false →
      v.walk.ComesToFire (v.onward r) (s₁.leave (v.station r))) :
    v.walk.ComesToFire (.goOn v.place) v.session := by
  cases closed : (s₁.leave (v.station r)).fired with
  | true => exact ⟨[v], v, _, .here starts, rfl, .closing came quiet closed⟩
  | false =>
    obtain ⟨vs, u, m, comes, last, fires⟩ := onward closed
    exact ⟨vs, u, m, .behind starts came comes, last, fires⟩

end Visiting

/-- Where the token fires on a walk, it fires in a visit that the walk comes to. -/
theorem Walks.exists_fires {w : Walk σ} {p : Progress} {s s' : Session σ} {t : Trail}
    (h : Walks w p s t s') (quiet : s.fired = false) (fired : s'.fired = true) :
    w.ComesToFire p s := by
  induction h with
  | ended | fired | lost => cases quiet.symm.trans fired
  | @plain w place n s s₁ s' r rest _ here visit onward ih =>
    let v : Visiting σ := ⟨w, place, n, s⟩
    have starts : v.Starts := ⟨quiet, here⟩
    have came : v.ComesTo r s₁ := .plain visit
    cases first : s₁.fired with
    | true => exact starts.comesToFire visit first
    | false => exact came.comesToFire starts first fun closed => ih closed fired
  | @nested w place n s s₁ s₂ s' d inner rest _ here visit inside onward ihInside ihOnward =>
    let v : Visiting σ := ⟨w, place, n, s⟩
    have starts : v.Starts := ⟨quiet, here⟩
    have came : v.ComesTo (d.arrive v.stepId inner) s₂ := .nested visit inside
    cases first : s₁.fired with
    | true => exact starts.comesToFire visit first
    | false =>
      cases second : s₂.fired with
      | true =>
        obtain ⟨vs, u, m, comes, last, fires⟩ := ihInside first second
        exact ⟨v :: vs, u, m, .inside starts visit comes, by rw [comes.getLast?_cons, last], fires⟩
      | false => exact came.comesToFire starts second fun closed => ihOnward closed fired

/-- The token has fired behind a walk just where it had fired before, or fires in a visit that the
walk comes to. -/
theorem Walks.fired_iff {w : Walk σ} {p : Progress} {s s' : Session σ} {t : Trail}
    (h : Walks w p s t s') (ends : ∀ scope, p ≠ .ended .unfinished scope) :
    s'.fired = true ↔
      s.fired = true ∨ ∃ vs v m, w.Comes p s vs ∧ vs.getLast? = some v ∧ v.Fires m := by
  constructor
  · intro fired
    cases before : s.fired with
    | true => exact .inl rfl
    | false => exact .inr (h.exists_fires before fired)
  · rintro (before | ⟨vs, v, m, comes, last, fires⟩)
    · obtain ⟨e, scope, walks, -⟩ := Walks.of_fired before ends
      obtain ⟨-, rfl⟩ := h.unique walks
      exact before
    · obtain ⟨t', z, walks, -, closes⟩ := comes.sealed_of_fires last fires
      obtain ⟨-, rfl⟩ := h.unique walks
      exact closes.fired fires.fired

/-! ### Aborted calls -/

/-- Each visit under way has its own step open when a call is made. -/
theorem Walk.Comes.opened_sublist {w : Walk σ} {p : Progress} {s : Session σ}
    {vs : List (Visiting σ)} (h : w.Comes p s vs) (sound : s.recorder.Sound) {v : Visiting σ}
    (last : vs.getLast? = some v) {c : Made σ} (made : v.Makes c) :
    (s.recorder.opened ++ vs.map (·.opened)).Sublist c.session.recorder.opened := by
  induction h with
  | here =>
    cases last
    rw [made.recorder]
    exact .refl _
  | @inside u us d s₁ _ visit within ih =>
    rw [within.getLast?_cons] at last
    have begun : s₁.recorder = u.begun.recorder := Walk.prelude_recorder visit
    have inner := ih (Walk.openStep_sound sound begun) last
    rwa [begun, show u.begun.recorder.opened = u.session.recorder.opened ++ [u.opened] from rfl,
      List.append_assoc] at inner
  | behind _ came _ ih =>
    obtain ⟨inside, -, left, sound'⟩ := came.leaves sound
    refine .trans ?_ (ih sound' last)
    rw [left]
    simp [Recorder.afterVisit]

/-- What a walk does when the token aborts a call that was made in the session `m`, with these
visits under way: their steps are closed from the innermost outwards, each by the cancellation, and
of those open then no other one. -/
structure Cancels (vs : List (Visiting σ)) (m z : Session σ) : Prop where
  steps : z.recorder.record.steps = m.recorder.record.steps ++
    vs.reverse.map fun v => Recorder.Closing.apply cancelledClosing v.opened.step
  opened : m.recorder.opened.Perm (vs.map (·.opened) ++ z.recorder.opened)

/-- An aborted visit closes its step by the cancellation, and ends the walk. -/
theorem Visiting.ComesTo.aborted {v : Visiting σ} {z : Session σ} (starts : v.Starts)
    (came : v.ComesTo (.error (.aborted .token)) z) (sound : v.session.recorder.Sound)
    {vs : List (Visiting σ)} {m : Session σ} (inside : Cancels vs m z) :
    ∃ t s', Walks v.walk (.goOn v.place) v.session t s' ∧ t.ending = .aborted .token ∧
      Cancels (v :: vs) m s' := by
  obtain ⟨t, before, walks, ending, -⟩ := came.walks starts .ended
  refine ⟨t, _, walks, ending, ?_⟩
  obtain ⟨kept, opened, left, -⟩ := came.leaves sound
  have recorded : (v.station (.error (.aborted .token))).recorded =
      [Recorder.Closing.apply cancelledClosing v.opened.step] := rfl
  have leftOpen : (v.station (.error (.aborted .token))).leftOpen = [] := rfl
  constructor
  · rw [left, Recorder.afterVisit, recorded, inside.steps, List.reverse_cons, List.map_append,
      List.append_assoc]
    rfl
  · refine inside.opened.trans ?_
    rw [left, Recorder.afterVisit, leftOpen, opened, List.append_nil, List.map_cons,
      List.cons_append, ← List.append_assoc, ← List.append_assoc]
    exact List.perm_middle

/-- A call that the token aborts takes every visit under way with it. -/
theorem Walk.Comes.aborted {w : Walk σ} {p : Progress} {s : Session σ} {vs : List (Visiting σ)}
    (h : w.Comes p s vs) (sound : s.recorder.Sound) {v : Visiting σ} (last : vs.getLast? = some v)
    {c : Made σ} (made : v.Makes c) (aborted : c.Aborted .token) :
    ∃ t s', Walks w p s t s' ∧ t.ending = .aborted .token ∧ Cancels vs c.session s' := by
  induction h with
  | here starts =>
    cases last
    have visit := made.aborted aborted
    have same : c.behind.recorder = c.session.recorder :=
      (Walk.prelude_recorder visit).trans made.recorder.symm
    exact Visiting.ComesTo.aborted starts (.plain visit) sound
      ⟨by simp [same], by simp [same]⟩
  | @inside u us d s₁ starts visit within ih =>
    rw [within.getLast?_cons] at last
    obtain ⟨inner, s₂, walks, ending, cancels⟩ :=
      ih (Walk.openStep_sound sound (Walk.prelude_recorder visit)) last
    have came := Visiting.ComesTo.nested visit walks
    rw [Descent.arrive_aborted.mpr ending] at came
    exact came.aborted starts sound cancels
  | behind starts came _ ih =>
    obtain ⟨-, -, -, sound'⟩ := came.leaves sound
    obtain ⟨rest, s', onward, ending, cancels⟩ := ih sound' last
    obtain ⟨t, before, walks, same, -⟩ := came.walks starts onward
    exact ⟨t, s', walks, same.trans ending, cancels⟩

/-- A walk ends as soon as one of its visits, at any depth, is aborted. -/
theorem Walks.ending_of_aborted {w : Walk σ} {p : Progress} {s s' : Session σ} {t : Trail}
    (h : Walks w p s t s') (a : Abort) :
    ∀ v ∈ t.all, v.result = .error (.aborted a) → t.ending = .aborted a := by
  induction h with
  | ended | fired | lost => simp [Trail.all, Trail.stations, Trail.insiders]
  | plain _ _ _ onward ih =>
    refine Trail.forall_plain.mpr ⟨?_, ih⟩
    rintro rfl
    obtain ⟨rfl, -⟩ := onward.of_ended
    rfl
  | @nested w place n s s₁ s₂ s' d inner rest _ _ _ _ onward ihInside ih =>
    have own (came : d.arrive (w.stepId n) inner = .error (.aborted a)) :
        rest.ending = .aborted a := by
      rw [came] at onward
      obtain ⟨rfl, -⟩ := onward.of_ended
      rfl
    refine Trail.forall_nested.mpr ⟨own, fun v hv came => own ?_, ih⟩
    exact Descent.arrive_aborted.mpr (ihInside v hv came)

end Runbook
