import Mathlib.Data.List.Forall2
import Runbook.Proofs.Walk.Alike
import Runbook.Proofs.Walk.Visiting

/-! One walk in two sessions.

In two sessions that it cannot tell apart a walk does the same: it makes the same calls, records the
same steps, and ends alike with the same scope, however many visits it is given (`proceed_agree`).
What the recorders hold beforehand does not matter, nor what the clock shows. Other than for
`Alike`, the listeners may take part in the run, if they do so in both sessions. -/
namespace Runbook

open Visit

variable {σ : Type} {R : σ → σ → Prop}

/-- The same step, at another time. -/
def Step.Twin (a b : Step) : Prop := { a with timestamp := b.timestamp } = b

/-- Two sessions that a walk cannot tell apart: the providers answer alike in their worlds, the
token has fired in both or in neither, and the listeners do alike when they are told of the same
step. -/
structure Abreast (R : σ → σ → Prop) (s z : Session σ) : Prop where
  world : R s.world z.world
  fired : s.fired = z.fired
  told : ∀ a b : Step, a.Twin b → ∀ x y, R x y →
    R (Recorder.tell a s.recorder.listeners x).1 (Recorder.tell b z.recorder.listeners y).1 ∧
      (Recorder.tell a s.recorder.listeners x).2 = (Recorder.tell b z.recorder.listeners y).2

/-- Two sessions go abreast, and the same steps were recorded in them: in one since the session
`a`, in the other since the session `b`. -/
structure Twins (R : σ → σ → Prop) (a b s z : Session σ) : Prop where
  abreast : Abreast R s z
  steps : ∃ more more', s.recorder.record.steps = a.recorder.record.steps ++ more ∧
    z.recorder.record.steps = b.recorder.record.steps ++ more' ∧ List.Forall₂ Step.Twin more more'

namespace Twins

variable {a b s z s' z' : Session σ}

theorem refl (abreast : Abreast R s z) : Twins R s z s z :=
  ⟨abreast, [], [], (List.append_nil _).symm, (List.append_nil _).symm, .nil⟩

theorem trans (h : Twins R a b s z) (h' : Twins R s z s' z') : Twins R a b s' z' := by
  obtain ⟨more, more', left, right, same⟩ := h.steps
  obtain ⟨others, others', left', right', same'⟩ := h'.steps
  refine ⟨h'.abreast, more ++ others, more' ++ others', ?_, ?_, List.rel_append same same'⟩
  · rw [left', left, List.append_assoc]
  · rw [right', right, List.append_assoc]

end Twins

/-- Sessions stay abreast with what was called since, if no listener touches the log. -/
theorem Abreast.logged {log : σ → List Called} {s z : Session σ} (h : Abreast R s z)
    (left : Keep s.recorder.listeners fun x y => log y = log x)
    (right : Keep z.recorder.listeners fun x y => log y = log x) :
    Abreast (fun x y => R x y ∧ SameCalls log (log s.world) (log z.world) x y) s z where
  world := ⟨h.world, [], (List.append_nil _).symm, (List.append_nil _).symm⟩
  fired := h.fired
  told := by
    rintro a b twin x y ⟨related, same⟩
    obtain ⟨worlds, fires⟩ := h.told a b twin x y related
    have refl (x : σ) : log x = log x := rfl
    have trans (x y z : σ) (first : log y = log x) (second : log z = log y) : log z = log x :=
      second.trans first
    exact ⟨⟨worlds, same.of_eq (Recorder.tell_keeps refl trans left a x)
      (Recorder.tell_keeps refl trans right b y)⟩, fires⟩

/-! ### One visit -/

/-- Closing an open step tells the listeners of it. -/
theorem Session.close_told {s : Session σ} {before inside : List Opened} {o : Opened}
    (sound : s.recorder.Sound) (h : s.recorder.opened = before ++ o :: inside) (c : Closing) :
    let told := Recorder.tell (Recorder.Closing.apply c o.step) s.recorder.listeners s.world
    (s.close o c).world = told.1 ∧ (s.close o c).fired = (s.fired || told.2) := by
  simp only [close, Recorder.close_eq sound h]
  exact ⟨trivial, trivial⟩

namespace Abreast

variable {s z s' z' : Session σ}

/-- What leaves the recorders alone. -/
theorem of_recorder (h : Abreast R s z) (world : R s'.world z'.world) (fired : s'.fired = z'.fired)
    (left : s'.recorder = s.recorder) (right : z'.recorder = z.recorder) : Abreast R s' z' :=
  ⟨world, fired, by rw [left, right]; exact h.told⟩

theorem close (h : Abreast R s z) {before inside before' inside' : List Opened} {o o' : Opened}
    (sound : s.recorder.Sound) (opened : s.recorder.opened = before ++ o :: inside)
    (sound' : z.recorder.Sound) (opened' : z.recorder.opened = before' ++ o' :: inside')
    (twin : o.step.Twin o'.step) (c : Closing) : Abreast R (s.close o c) (z.close o' c) := by
  obtain ⟨world, fired⟩ := Session.close_told sound opened c
  obtain ⟨world', fired'⟩ := Session.close_told sound' opened' c
  have closed : (Recorder.Closing.apply c o.step).Twin (Recorder.Closing.apply c o'.step) := by
    rw [← twin]
    rfl
  obtain ⟨worlds, fires⟩ := h.told _ _ closed _ _ h.world
  refine ⟨?_, ?_, ?_⟩
  · rwa [world, world']
  · rw [fired, fired', h.fired, fires]
  · rw [Session.close_listeners, Session.close_listeners]
    exact h.told

end Abreast

namespace Visiting

variable {v : Visiting σ} {z : Session σ}

theorem begun_abreast (respects : v.walk.providers.Respects R) (h : Abreast R v.session z) :
    Abreast R v.begun (begun { v with session := z }) :=
  ⟨respects.timestamp _ _ h.world, h.fired, h.told⟩

/-- The first part of a visit comes to the same in the other session. -/
theorem prelude_twins (respects : v.walk.providers.Respects R) (h : Abreast R v.session z)
    {p : Prelude σ} {s₁ : Session σ} (visit : v.prelude = (p, s₁)) :
    ∃ z₁, prelude { v with session := z } = (p, z₁) ∧ Twins R v.session z s₁ z₁ := by
  let u : Visiting σ := { v with session := z }
  have begun : Abreast R v.begun u.begun := begun_abreast respects h
  have found : v.prelude.1 = u.prelude.1 ∧ R v.prelude.2.world u.prelude.2.world ∧
      v.prelude.2.fired = u.prelude.2.fired :=
    Visit.prelude_respects v.walk.registry v.walk.providers v.node v.place.scope
      (Walk.isFirst v.place v.node) respects begun.world begun.fired
  rw [visit] at found
  obtain ⟨same, world, fired⟩ := found
  have left : s₁.recorder = v.begun.recorder := Walk.prelude_recorder visit
  have right : u.prelude.2.recorder = u.begun.recorder := Walk.prelude_recorder rfl
  refine ⟨u.prelude.2, Prod.ext same.symm rfl, begun.of_recorder world fired left right, [], [],
    ?_, ?_, .nil⟩
  · rw [left, List.append_nil]
    rfl
  · rw [right, List.append_nil]
    rfl

theorem recorded_twins (v : Visiting σ) (z : Session σ) (r : Except Halt Visited) :
    List.Forall₂ Step.Twin (v.station r).recorded (station { v with session := z } r).recorded := by
  simp only [Station.recorded, station, Walk.station]
  cases v.walk.closing? v.place.scope r with
  | none => exact .nil
  | some c => exact .cons rfl .nil

/-- The end of a visit that comes to the same in both sessions. -/
theorem ComesTo.twins {r : Except Halt Visited} {s₁ z₁ : Session σ} (came : v.ComesTo r s₁)
    (came' : ComesTo { v with session := z } r z₁) (sound : v.session.recorder.Sound)
    (sound' : z.recorder.Sound) (h : Twins R v.session z s₁ z₁) :
    Twins R v.session z (s₁.leave (v.station r))
      (z₁.leave (station { v with session := z } r)) := by
  let u : Visiting σ := { v with session := z }
  obtain ⟨inside, opened, left, -⟩ := came.leaves sound
  obtain ⟨inside', opened', right, -⟩ := came'.leaves sound'
  obtain ⟨-, -, sound₁⟩ := came.recorder sound
  obtain ⟨-, -, sound₁'⟩ := came'.recorder sound'
  have abreast : Abreast R (s₁.leave (v.station r)) (z₁.leave (u.station r)) := by
    show Abreast R (s₁.closeWith v.opened (v.walk.closing? v.place.scope r))
      (z₁.closeWith u.opened (v.walk.closing? v.place.scope r))
    cases v.walk.closing? v.place.scope r with
    | none => exact h.abreast
    | some c => exact h.abreast.close sound₁ opened sound₁' opened' rfl c
  refine h.trans ⟨abreast, (v.station r).recorded, (u.station r).recorded, ?_, ?_,
    v.recorded_twins z r⟩
  · rw [left]
    rfl
  · rw [right]
    rfl

end Visiting

/-! ### Walks -/

/-- What a walk comes to in two sessions is the same. -/
structure Agree (R : σ → σ → Prop) (s z : Session σ) (out out' : (Ending × Scope) × Session σ) :
    Prop where
  same : out.1 = out'.1
  twins : Twins R s z out.2 out'.2

theorem Agree.behind {s z s₁ z₁ : Session σ} {out out' : (Ending × Scope) × Session σ}
    (h : Agree R s₁ z₁ out out') (before : Twins R s z s₁ z₁) : Agree R s z out out' :=
  ⟨h.same, before.trans h.twins⟩

namespace Walk

/-- Whether a walk with so much fuel does the same in two sessions that it cannot tell apart. -/
def Agrees (R : σ → σ → Prop) (fuel : Nat) : Prop :=
  ∀ (w : Walk σ) (p : Progress) {s z : Session σ}, w.providers.Respects R → Abreast R s z →
    s.recorder.Sound → z.recorder.Sound → Agree R s z (w.proceed fuel p s) (w.proceed fuel p z)

namespace Agrees

variable {fuel : Nat} {v : Visiting σ} {z : Session σ} {s₁ z₁ : Session σ}

/-- Behind a visit that comes to the same, the walk goes on from one place in both sessions. -/
theorem onward (h : Agrees R fuel) (respects : v.walk.providers.Respects R)
    (sound : v.session.recorder.Sound) (sound' : z.recorder.Sound) {r : Except Halt Visited}
    (came : v.ComesTo r s₁) (came' : Visiting.ComesTo { v with session := z } r z₁)
    (twins : Twins R v.session z s₁ z₁) :
    Agree R v.session z (v.walk.proceed fuel (v.onward r) (s₁.leave (v.station r)))
      (v.walk.proceed fuel (v.onward r)
        (z₁.leave (Visiting.station { v with session := z } r))) := by
  obtain ⟨-, -, -, sound₁⟩ := came.leaves sound
  obtain ⟨-, -, -, sound₁'⟩ := came'.leaves sound'
  have left := came.twins came' sound sound' twins
  exact (h v.walk (v.onward r) respects left.abreast sound₁ sound₁').behind left

/-- A visit that walks a workflow of its own. -/
theorem descends (h : Agrees R fuel) (respects : v.walk.providers.Respects R)
    (abreast : Abreast R v.session z) (sound : v.session.recorder.Sound)
    (sound' : z.recorder.Sound) (fired : v.session.fired = false)
    (here : v.walk.workflow.node? v.place.current = some v.node) {d : Descent σ}
    (visit : v.prelude = (.descends d, s₁)) :
    Agree R v.session z
      (v.walk.proceed (fuel + 1) (.goOn v.place) v.session)
      (v.walk.proceed (fuel + 1) (.goOn v.place) z) := by
  obtain ⟨z₁, visit', twins⟩ := Visiting.prelude_twins respects abreast visit
  have within := h (v.inside d.workflow) ((v.inside d.workflow).start d.inputs) respects
    twins.abreast (openStep_sound sound (prelude_recorder visit))
    (openStep_sound sound' (prelude_recorder visit'))
  rw [← walk_eq, ← walk_eq] at within
  rcases ran : walk fuel (v.inside d.workflow) d.inputs s₁ with ⟨⟨e, scope⟩, s₂⟩
  rcases ran' : walk fuel (v.inside d.workflow) d.inputs z₁ with ⟨⟨e', scope'⟩, z₂⟩
  rw [ran, ran'] at within
  cases within.same
  have twins₂ := twins.trans within.twins
  rw [proceed_goOn, proceed_goOn, advance_descends fired here visit ran,
    advance_descends (abreast.fired.symm.trans fired) here visit' ran']
  by_cases ends : e = .unfinished
  · subst ends
    cases fuel <;> exact ⟨rfl, twins₂⟩
  · rw [walk_eq] at ran ran'
    obtain ⟨inner, walks, rfl, rfl, -⟩ := exists_walks ran ends
    obtain ⟨inner', walks', ending, scope, -⟩ := exists_walks ran' ends
    have came' : Visiting.ComesTo { v with session := z } (d.arrive v.stepId inner') z₂ :=
      .nested visit' walks'
    rw [Descent.arrive, ending, scope] at came'
    exact h.onward respects sound sound' (.nested visit walks) came' twins₂

theorem succ (h : Agrees R fuel) : Agrees R (fuel + 1) := by
  intro w p s z respects abreast sound sound'
  cases p with
  | ended => exact ⟨rfl, .refl abreast⟩
  | goOn place =>
    have fired' := abreast.fired
    cases fired : s.fired with
    | true =>
      rw [fired] at fired'
      simp only [proceed_goOn, advance, fired, ← fired', if_true]
      cases fuel <;> exact ⟨rfl, .refl abreast⟩
    | false =>
      rw [fired] at fired'
      cases here : w.workflow.node? place.current with
      | none =>
        simp only [proceed_goOn, advance, fired, ← fired', Bool.false_eq_true, if_false, here]
        cases fuel <;> exact ⟨rfl, .refl abreast⟩
      | some n =>
        let v : Visiting σ := ⟨w, place, n, s⟩
        rcases visit : v.prelude with ⟨r | d, s₁⟩
        · obtain ⟨z₁, visit', twins⟩ := Visiting.prelude_twins respects abreast visit
          rw [proceed_goOn, proceed_goOn, advance_settled _ fired here visit,
            advance_settled _ fired'.symm here visit']
          exact h.onward (v := v) respects sound sound' (.plain visit) (.plain visit') twins
        · exact h.descends (v := v) respects abreast sound sound' fired here visit

end Agrees

/-- A walk does the same in two sessions that it cannot tell apart. -/
theorem proceed_agree (fuel : Nat) (w : Walk σ) (p : Progress) {s z : Session σ}
    (respects : w.providers.Respects R) (abreast : Abreast R s z) (sound : s.recorder.Sound)
    (sound' : z.recorder.Sound) : Agree R s z (w.proceed fuel p s) (w.proceed fuel p z) := by
  have agrees : Agrees R fuel := by
    induction fuel with
    | zero => exact fun w p _ _ _ abreast _ _ => by cases p <;> exact ⟨rfl, .refl abreast⟩
    | succ fuel ih => exact ih.succ
  exact agrees w p respects abreast sound sound'

end Walk
end Runbook
