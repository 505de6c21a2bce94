import Runbook.Proofs.Walk.Trail

/-! What a walk keeps of the world, and what it can tell of it.

Everything that changes the world on a walk is a call that nodes can make, a look at the clock, or
a listener. Whatever all of these keep, the walk keeps (`Walks.keeps`).

Two sessions are alike when the providers answer alike in their worlds, the token has fired in both
or in neither, and the listeners of either keep to themselves: what they do to their own world is
nothing that the providers look at, and they do not fire the token. The recorders may differ. Each
part of a visit leads from alike sessions to alike ones, and in whatever way the world keeps a log
of the calls, the same calls are added to it on either side (`Alike.logged`). -/
namespace Runbook

variable {σ : Type}

/-- What the providers keep of the world, whichever of them is called; the history is left out. -/
structure Providers.Keeps (p : Providers σ) (R : σ → σ → Prop) : Prop where
  refl : ∀ x, R x x
  trans : ∀ x y z, R x y → R y z → R x z
  call : ∀ {α : Type} {e : Called} (c : Call σ α), p.Offers e c → ∀ x, R x (c x).world
  now : ∀ x, R x (p.clock.now x).2
  timestamp : ∀ x, R x (p.clock.timestamp x).2
  freshId : ∀ x, R x (p.clock.freshId x).2

/-- What listeners keep of the world. -/
def Keep (listeners : List (Listener σ)) (R : σ → σ → Prop) : Prop :=
  ∀ l ∈ listeners, ∀ step x, R x (l step x).world

variable {R : σ → σ → Prop} {providers : Providers σ}

theorem Recorder.tell_keeps (refl : ∀ x, R x x) (trans : ∀ x y z, R x y → R y z → R x z)
    {listeners : List (Listener σ)} (keep : Keep listeners R) (step : Step) (x : σ) :
    R x (tell step listeners x).1 := by
  induction listeners generalizing x with
  | nil => exact refl x
  | cons l rest ih =>
    obtain ⟨here, others⟩ := List.forall_mem_cons.mp keep
    exact trans _ _ _ (here step x) (ih others _)

namespace Session

theorem close_listeners (s : Session σ) (o : Opened) (c : Closing) :
    (s.close o c).recorder.listeners = s.recorder.listeners := by
  unfold close Recorder.close
  cases s.recorder.isOpen o.ticket <;> rfl

theorem close_keeps (keeps : providers.Keeps R) {s : Session σ}
    (keep : Keep s.recorder.listeners R) (o : Opened) (c : Closing) :
    R s.world (s.close o c).world := by
  unfold close Recorder.close
  cases s.recorder.isOpen o.ticket with
  | true => exact Recorder.tell_keeps keeps.refl keeps.trans keep _ _
  | false => exact keeps.refl _

theorem leave_listeners (s : Session σ) (v : Station) :
    (s.leave v).recorder.listeners = s.recorder.listeners := by
  unfold leave closeWith
  cases v.closing with
  | none => rfl
  | some c => exact close_listeners ..

theorem leave_keeps (keeps : providers.Keeps R) {s : Session σ}
    (keep : Keep s.recorder.listeners R) (v : Station) : R s.world (s.leave v).world := by
  unfold leave closeWith
  cases v.closing with
  | none => exact keeps.refl _
  | some c => exact close_keeps keeps keep ..

end Session

/-- Coming to what a node does keeps the world and the listeners. -/
theorem Walk.prelude_keeps {w : Walk σ} (keeps : w.providers.Keeps R) {place : Place} {n : Node}
    {s s₁ : Session σ} {p : Visit.Prelude σ}
    (visit : w.prelude place n (w.openStep n s).2 = (p, s₁)) :
    R s.world s₁.world ∧ s₁.recorder.listeners = s.recorder.listeners := by
  have kept := Visit.prelude_keeps w.registry w.providers n place.scope (isFirst place n)
    (R := fun s s' => R s.world s'.world) (fun _ => keeps.refl _)
    (fun _ _ _ => keeps.trans _ _ _) (fun c offered s => keeps.call c offered s.world)
    (fun s => keeps.now s.world) (w.openStep n s).2
  have same : Visit.prelude w.registry w.providers n place.scope (isFirst place n)
      (w.openStep n s).2 = (p, s₁) := visit
  rw [same] at kept
  refine ⟨keeps.trans _ _ _ (keeps.timestamp s.world) kept, ?_⟩
  rw [prelude_recorder visit]
  rfl

theorem Walks.keeps {w : Walk σ} {p : Progress} {s s' : Session σ} {t : Trail}
    (h : Walks w p s t s') (keeps : w.providers.Keeps R) (keep : Keep s.recorder.listeners R) :
    R s.world s'.world ∧ s'.recorder.listeners = s.recorder.listeners := by
  induction h with
  | ended | fired | lost => exact ⟨keeps.refl _, rfl⟩
  | plain quiet here visit onward ih =>
    obtain ⟨kept₁, listeners₁⟩ := Walk.prelude_keeps keeps visit
    obtain ⟨kept, listeners⟩ := ih keeps (by rwa [Session.leave_listeners, listeners₁])
    refine ⟨keeps.trans _ _ _ kept₁ (keeps.trans _ _ _ ?_ kept), ?_⟩
    · exact Session.leave_keeps keeps (listeners₁ ▸ keep) _
    · rw [listeners, Session.leave_listeners, listeners₁]
  | nested quiet here visit inside onward ihInside ihOnward =>
    obtain ⟨kept₁, listeners₁⟩ := Walk.prelude_keeps keeps visit
    obtain ⟨kept₂, listeners₂⟩ := ihInside keeps (listeners₁ ▸ keep)
    rw [listeners₁] at listeners₂
    obtain ⟨kept, listeners⟩ := ihOnward keeps (by rwa [Session.leave_listeners, listeners₂])
    refine ⟨keeps.trans _ _ _ kept₁ (keeps.trans _ _ _ kept₂ (keeps.trans _ _ _ ?_ kept)), ?_⟩
    · exact Session.leave_keeps keeps (listeners₂ ▸ keep) _
    · rw [listeners, Session.leave_listeners, listeners₂]

/-! ### Alike sessions -/

/-- The same walk under another path. -/
def Walk.under (q : String) (w : Walk σ) : Walk σ := { w with path := q ++ w.path }

structure Alike (R : σ → σ → Prop) (s z : Session σ) : Prop where
  world : R s.world z.world
  fired : s.fired = z.fired
  left : ∀ l ∈ s.recorder.listeners, ∀ step x y, R x y →
    R (l step x).world y ∧ (l step x).fires = false
  right : ∀ l ∈ z.recorder.listeners, ∀ step x y, R x y →
    R x (l step y).world ∧ (l step y).fires = false

/-- What every listener keeps, telling all of them keeps. -/
theorem Recorder.tell_holds {P : σ → Prop} {listeners : List (Listener σ)}
    (keep : ∀ l ∈ listeners, ∀ step x, P x → P (l step x).world ∧ (l step x).fires = false)
    (step : Step) {x : σ} (h : P x) :
    P (tell step listeners x).1 ∧ (tell step listeners x).2 = false := by
  induction listeners generalizing x with
  | nil => exact ⟨h, rfl⟩
  | cons l rest ih =>
    obtain ⟨here, others⟩ := List.forall_mem_cons.mp keep
    obtain ⟨holds, quiet⟩ := here step x h
    obtain ⟨holds, still⟩ := ih others holds
    exact ⟨holds, by simp [tell, quiet, still]⟩

namespace Session

theorem close_holds {P : σ → Prop} {s : Session σ}
    (keep : ∀ l ∈ s.recorder.listeners, ∀ step x, P x →
      P (l step x).world ∧ (l step x).fires = false)
    (h : P s.world) (o : Opened) (c : Closing) :
    P (s.close o c).world ∧ (s.close o c).fired = s.fired := by
  unfold close Recorder.close
  cases s.recorder.isOpen o.ticket with
  | true =>
    obtain ⟨holds, quiet⟩ := Recorder.tell_holds keep (Recorder.Closing.apply c o.step) h
    exact ⟨holds, by simp [quiet]⟩
  | false => exact ⟨h, rfl⟩

theorem leave_holds {P : σ → Prop} {s : Session σ}
    (keep : ∀ l ∈ s.recorder.listeners, ∀ step x, P x →
      P (l step x).world ∧ (l step x).fires = false)
    (h : P s.world) (v : Station) : P (s.leave v).world ∧ (s.leave v).fired = s.fired := by
  unfold leave closeWith
  cases v.closing with
  | none => exact ⟨h, rfl⟩
  | some c => exact close_holds keep h ..

end Session

namespace Alike

variable {s z : Session σ}

theorem leave (h : Alike R s z) (v v' : Station) : Alike R (s.leave v) (z.leave v') := by
  obtain ⟨left, firedLeft⟩ := Session.leave_holds (P := (R · z.world))
    (fun l hl step x => h.left l hl step x z.world) h.world v
  obtain ⟨right, firedRight⟩ := Session.leave_holds (P := (R (s.leave v).world ·))
    (fun l hl step y => h.right l hl step (s.leave v).world y) left v'
  refine ⟨right, firedLeft.trans (h.fired.trans firedRight.symm), ?_, ?_⟩
  · rw [Session.leave_listeners]
    exact h.left
  · rw [Session.leave_listeners]
    exact h.right

theorem openStep {w : Walk σ} (h : Alike R s z) (respects : w.providers.Respects R) (q : String)
    (n : Node) : Alike R (w.openStep n s).2 ((w.under q).openStep n z).2 :=
  ⟨respects.timestamp _ _ h.world, h.fired, h.left, h.right⟩

theorem prelude {w : Walk σ} (h : Alike R s z) (respects : w.providers.Respects R) (q : String)
    {place : Place} {n : Node} {p : Visit.Prelude σ} {s₁ : Session σ}
    (visit : w.prelude place n s = (p, s₁)) :
    ∃ z₁, (w.under q).prelude place n z = (p, z₁) ∧ Alike R s₁ z₁ := by
  obtain ⟨same, world, fired⟩ := Visit.prelude_respects w.registry w.providers n place.scope
    (Walk.isFirst place n) respects h.world h.fired
  rcases there : (w.under q).prelude place n z with ⟨p', z₁⟩
  have recorder := Walk.prelude_recorder visit
  have recorder' := Walk.prelude_recorder there
  have visit : Visit.prelude w.registry w.providers n place.scope (Walk.isFirst place n) s =
      (p, s₁) := visit
  have there : Visit.prelude w.registry w.providers n place.scope (Walk.isFirst place n) z =
      (p', z₁) := there
  rw [visit, there] at same world fired
  cases same
  exact ⟨z₁, rfl, world, fired, recorder ▸ h.left, recorder' ▸ h.right⟩

end Alike

/-! ### The calls that are made -/

/-- Since the logs `a` and `b` the same calls were made in two worlds. -/
def SameCalls (log : σ → List Called) (a b : List Called) (x y : σ) : Prop :=
  ∃ calls, log x = a ++ calls ∧ log y = b ++ calls

namespace SameCalls

variable {log : σ → List Called} {a b : List Called} {x y x' y' : σ}

theorem of_eq (h : SameCalls log a b x y) (left : log x' = log x) (right : log y' = log y) :
    SameCalls log a b x' y' := by
  obtain ⟨calls, before, before'⟩ := h
  exact ⟨calls, left.trans before, right.trans before'⟩

theorem call {e : Called} (h : SameCalls log a b x y) (left : log x' = log x ++ [e])
    (right : log y' = log y ++ [e]) : SameCalls log a b x' y' := by
  obtain ⟨calls, before, before'⟩ := h
  refine ⟨calls ++ [e], ?_, ?_⟩
  · rw [left, before, List.append_assoc]
  · rw [right, before', List.append_assoc]

end SameCalls

/-- Where the providers answer alike, a log of their calls grows alike. -/
theorem Providers.Respects.logged {p : Providers σ} {log : σ → List Called}
    (respects : p.Respects R) (logs : p.Logs log) (a b : List Called) :
    p.Respects fun x y => R x y ∧ SameCalls log a b x y where
  call := by
    rintro α e c offered x y ⟨related, same⟩
    obtain ⟨result, fires, worlds⟩ := respects.call c offered x y related
    exact ⟨result, fires, worlds, same.call (logs.call c offered x) (logs.call c offered y)⟩
  now := by
    rintro x y ⟨related, same⟩
    obtain ⟨time, worlds⟩ := respects.now x y related
    exact ⟨time, worlds, same.of_eq (logs.now x) (logs.now y)⟩
  timestamp := by
    rintro x y ⟨related, same⟩
    exact ⟨respects.timestamp x y related, same.of_eq (logs.timestamp x) (logs.timestamp y)⟩

/-- Sessions stay alike with what was called since, if no listener touches the log. -/
theorem Alike.logged {log : σ → List Called} {s z : Session σ} (h : Alike R s z)
    (left : Keep s.recorder.listeners fun x y => log y = log x)
    (right : Keep z.recorder.listeners fun x y => log y = log x) :
    Alike (fun x y => R x y ∧ SameCalls log (log s.world) (log z.world) x y) s z where
  world := ⟨h.world, [], (List.append_nil _).symm, (List.append_nil _).symm⟩
  fired := h.fired
  left := by
    rintro l hl step x y ⟨related, same⟩
    obtain ⟨worlds, quiet⟩ := h.left l hl step x y related
    exact ⟨⟨worlds, same.of_eq (left l hl step x) rfl⟩, quiet⟩
  right := by
    rintro l hl step x y ⟨related, same⟩
    obtain ⟨worlds, quiet⟩ := h.right l hl step x y related
    exact ⟨⟨worlds, same.of_eq rfl (right l hl step y)⟩, quiet⟩

end Runbook
