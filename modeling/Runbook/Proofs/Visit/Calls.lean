import Runbook.Proofs.Visit.Prelude

/-! The calls that a visit makes.

`Act.Performs` says of an action composed of calls which calls it makes, in which session each, and
what it comes to. Every call finds the recorder that the action found. The token fires during an
action just where it fires during one of its calls, and a call that is aborted is the last one: the
action comes to the abort, since neither a failure that does not count nor a changed failure stops
it (`Performs.aborted`). The first part of a visit is such an action, `Visit.opening`. -/
namespace Runbook

open Visit

variable {σ α β : Type}

/-- A call as it was made, with the session in which it was made. -/
structure Made (σ : Type) where
  {reply : Type}
  called : Called
  call : Call σ reply
  session : Session σ

namespace Made

def behind (m : Made σ) : Session σ := Act.after m.call m.session

/-- The token fires while the call is under way. -/
structure Fires (m : Made σ) : Prop where
  quiet : m.session.fired = false
  fired : m.behind.fired = true

/-- The call does not come back, since the run is aborted. -/
def Aborted (m : Made σ) (a : Abort) : Prop :=
  (Act.call m.call m.session).1 = .error (.aborted a)

end Made

namespace Act

theorem call_eq (c : Call σ α) (s : Session σ) : call c s = ((call c s).1, after c s) :=
  Prod.ext rfl (call_snd c s)

theorem call_raised {c : Call σ α} {s : Session σ} {f : Fault}
    (raised : (c s.world).result = .raised f) : call c s = (.error (.fault f), after c s) := by
  rw [call_eq]
  simp only [call, raised]

/-- A call that does not come back is aborted by the token just where that has fired. -/
theorem call_hung {c : Call σ α} {s : Session σ} {h : Halt}
    (halted : (call c s).1 = .error h) :
    (h = .aborted .token → (after c s).fired = true) ∧
      (h = .unfinished → (after c s).fired = false) := by
  unfold call at halted
  unfold after
  cases came : (c s.world).result with
  | returned | raised | cancelled =>
    simp only [came] at halted
    cases halted <;> exact ⟨nofun, nofun⟩
  | hung =>
    simp only [came] at halted
    cases fired : s.fired || (c s.world).fires <;> rw [fired] at halted <;> cases halted
    · exact ⟨nofun, fun _ => rfl⟩
    · exact ⟨fun _ => rfl, nofun⟩

theorem fired_after {c : Call σ α} {s : Session σ} (fired : s.fired = true) :
    (after c s).fired = true := by
  unfold after
  rw [fired]
  exact Bool.true_or (c s.world).fires

/-- The calls that an action makes, in order, and what it comes to. -/
inductive Performs (p : Providers σ) :
    {α : Type} → Act σ α → Session σ → List (Made σ) → Except Halt α × Session σ → Prop
  | pure {α : Type} (a : α) (s : Session σ) : Performs p (pure a) s [] (.ok a, s)
  | fail {α : Type} (f : Fault) (s : Session σ) :
    Performs p (Act.fail f : Act σ α) s [] (.error (.fault f), s)
  | call {α : Type} {e : Called} {c : Call σ α} (h : p.Offers e c) (s : Session σ) :
    Performs p (Act.call c) s [⟨e, c, s⟩] (Act.call c s)
  | now (s : Session σ) : Performs p (Act.ask p.clock.now) s [] (Act.ask p.clock.now s)
  | halts {α β : Type} {act : Act σ α} {next : α → Act σ β} {s s₁ : Session σ}
    {ms : List (Made σ)} {h : Halt} (first : Performs p act s ms (.error h, s₁)) :
    Performs p (act >>= next) s ms (.error h, s₁)
  | bind {α β : Type} {act : Act σ α} {next : α → Act σ β} {s s₁ : Session σ}
    {ms more : List (Made σ)} {a : α} {out : Except Halt β × Session σ}
    (first : Performs p act s ms (.ok a, s₁)) (rest : Performs p (next a) s₁ more out) :
    Performs p (act >>= next) s (ms ++ more) out
  | succeeds {α : Type} {act : Act σ α} {s : Session σ} {ms : List (Made σ)}
    {out : Except Halt α × Session σ} (h : Performs p act s ms out) :
    Performs p act.succeeds s ms (act.succeeds s)
  | mapFault {α : Type} {act : Act σ α} {s : Session σ} {ms : List (Made σ)}
    {out : Except Halt α × Session σ} (change : Fault → Fault) (h : Performs p act s ms out) :
    Performs p (act.mapFault change) s ms (act.mapFault change s)

namespace Performs

variable {p : Providers σ} {act : Act σ α} {s : Session σ} {ms : List (Made σ)}
  {out : Except Halt α × Session σ}

theorem eq (h : Performs p act s ms out) : out = act s := by
  induction h with
  | pure | fail | call | now | succeeds | mapFault => rfl
  | halts _ first => rw [bind_apply, ← first]
  | bind _ _ first rest =>
    rw [bind_apply, ← first]
    exact rest

theorem recorder (h : Performs p act s ms out) :
    out.2.recorder = s.recorder ∧ ∀ m ∈ ms, m.session.recorder = s.recorder := by
  induction h with
  | pure | fail | now => exact ⟨rfl, List.forall_mem_nil _⟩
  | call _ s => exact ⟨by rw [call_snd]; rfl, List.forall_mem_singleton.mpr rfl⟩
  | halts _ first => exact first
  | bind _ _ first rest =>
    obtain ⟨here, made⟩ := first
    obtain ⟨there, more⟩ := rest
    exact ⟨there.trans here, List.forall_mem_append.mpr ⟨made, fun m hm => (more m hm).trans here⟩⟩
  | succeeds h ih => exact ⟨by rw [succeeds_snd, ← h.eq]; exact ih.1, ih.2⟩
  | mapFault _ h ih => exact ⟨by rw [mapFault_snd, ← h.eq]; exact ih.1, ih.2⟩

/-- The token stays fired, whichever call it fired before or in. -/
theorem stays_fired (h : Performs p act s ms out) :
    (s.fired = true → out.2.fired = true) ∧
      ∀ m ∈ ms, m.behind.fired = true → out.2.fired = true := by
  induction h with
  | pure | fail | now => exact ⟨id, List.forall_mem_nil _⟩
  | @call _ _ c _ s =>
    rw [call_snd]
    exact ⟨fired_after, List.forall_mem_singleton.mpr id⟩
  | halts _ first => exact first
  | bind _ _ first rest =>
    obtain ⟨here, made⟩ := first
    obtain ⟨there, more⟩ := rest
    exact ⟨fun fired => there (here fired),
      List.forall_mem_append.mpr ⟨fun m hm fired => there (made m hm fired), more⟩⟩
  | succeeds h ih => rw [succeeds_snd, ← h.eq]; exact ih
  | mapFault _ h ih => rw [mapFault_snd, ← h.eq]; exact ih

/-- Only during a call does the token fire. -/
theorem fires (h : Performs p act s ms out) (quiet : s.fired = false) (fired : out.2.fired = true) :
    ∃ m ∈ ms, m.Fires := by
  have silent {s : Session σ} (quiet : s.fired = false) (fired : s.fired = true) : False := by
    rw [quiet] at fired
    cases fired
  induction h with
  | pure | fail | now => exact (silent quiet fired).elim
  | call _ s =>
    rw [call_snd] at fired
    exact ⟨_, List.mem_singleton.mpr rfl, quiet, fired⟩
  | halts _ first => exact first quiet fired
  | @bind _ _ _ _ _ s₁ _ _ _ _ _ _ first rest =>
    cases between : s₁.fired with
    | true =>
      obtain ⟨m, made, fires⟩ := first quiet between
      exact ⟨m, List.mem_append_left _ made, fires⟩
    | false =>
      obtain ⟨m, made, fires⟩ := rest between fired
      exact ⟨m, List.mem_append_right _ made, fires⟩
  | succeeds h ih => rw [succeeds_snd, ← h.eq] at fired; exact ih quiet fired
  | mapFault _ h ih => rw [mapFault_snd, ← h.eq] at fired; exact ih quiet fired

/-- An aborted call is the last, and the action comes to the abort. -/
theorem aborted {a : Abort} (h : Performs p act s ms out) {m : Made σ} (made : m ∈ ms)
    (aborted : m.Aborted a) : out = (.error (.aborted a), m.behind) := by
  induction h with
  | pure | fail | now => cases made
  | call _ s =>
    cases List.mem_singleton.mp made
    rw [call_eq, aborted]
    rfl
  | halts _ first =>
    cases first made
    rfl
  | bind _ _ first rest =>
    rcases List.mem_append.mp made with made | made
    · cases first made
    · exact rest made
  | @succeeds _ act s _ _ h ih =>
    have came := h.eq.symm.trans (ih made)
    simp only [Act.succeeds, came]
  | @mapFault _ act s _ _ _ h ih =>
    have came := h.eq.symm.trans (ih made)
    simp only [Act.mapFault, came]

theorem of_aborted {a : Abort} (h : Performs p act s ms out)
    (aborted : out.1 = .error (.aborted a)) : ∃ m ∈ ms, m.Aborted a := by
  induction h with
  | pure | fail | now => cases aborted
  | call => exact ⟨_, List.mem_singleton.mpr rfl, aborted⟩
  | halts _ first =>
    cases aborted
    exact first rfl
  | bind _ _ _ rest =>
    obtain ⟨m, made, ends⟩ := rest aborted
    exact ⟨m, List.mem_append_right _ made, ends⟩
  | @succeeds _ act s _ out h ih =>
    cases h.eq
    simp only [Act.succeeds] at aborted
    rcases came : act s with ⟨(_ | _ | _) | _, _⟩ <;> rw [came] at aborted ih <;> cases aborted
    exact ih rfl
  | @mapFault _ act s _ out _ h ih =>
    cases h.eq
    simp only [Act.mapFault] at aborted
    rcases came : act s with ⟨(_ | _ | _) | _, _⟩ <;> rw [came] at aborted ih <;> cases aborted
    exact ih rfl

/-- An action that hangs is one in which the token has not fired. -/
theorem unfinished (h : Performs p act s ms out) (hangs : out.1 = .error .unfinished) :
    out.2.fired = false := by
  induction h with
  | pure | fail | now => cases hangs
  | call =>
    rw [call_snd]
    exact (call_hung hangs).2 rfl
  | halts _ first =>
    cases hangs
    exact first rfl
  | bind _ _ _ rest => exact rest hangs
  | @succeeds _ act s _ out h ih =>
    cases h.eq
    rw [succeeds_snd]
    simp only [Act.succeeds] at hangs
    rcases came : act s with ⟨(_ | _ | _) | _, _⟩ <;> rw [came] at hangs ih <;> cases hangs
    exact ih rfl
  | @mapFault _ act s _ out _ h ih =>
    cases h.eq
    rw [mapFault_snd]
    simp only [Act.mapFault] at hangs
    rcases came : act s with ⟨(_ | _ | _) | _, _⟩ <;> rw [came] at hangs ih <;> cases hangs
    exact ih rfl

end Performs

/-- An action that is composed of calls performs some. -/
theorem Composed.performs {p : Providers σ} {act : Act σ α} {Q : α → Prop} (h : Composed p act Q)
    (s : Session σ) : ∃ ms, Performs p act s ms (act s) := by
  induction h generalizing s with
  | pure => exact ⟨_, .pure ..⟩
  | fail => exact ⟨_, .fail ..⟩
  | @bind _ _ act next _ _ composed _ first rest =>
    obtain ⟨ms, performs⟩ := first s
    rw [bind_apply]
    rcases came : act s with ⟨_ | a, s₁⟩ <;> rw [came] at performs
    · exact ⟨ms, .halts performs⟩
    · obtain ⟨more, behind⟩ := rest a (composed.value came) s₁
      exact ⟨ms ++ more, .bind performs behind⟩
  | call offered => exact ⟨_, .call offered s⟩
  | now => exact ⟨_, .now s⟩
  | succeeds _ ih =>
    obtain ⟨ms, performs⟩ := ih s
    exact ⟨ms, .succeeds performs⟩
  | mapFault change _ ih =>
    obtain ⟨ms, performs⟩ := ih s
    exact ⟨ms, .mapFault change performs⟩

/-- The calls that an action makes where it starts, in order, and no others. -/
def Calls (p : Providers σ) (act : Act σ α) (s : Session σ) (called : List Called) : Prop :=
  ∃ ms, Performs p act s ms (act s) ∧ ms.map (·.called) = called

namespace Calls

variable {p : Providers σ} {s : Session σ} {called : List Called}

theorem pure (a : α) : Calls p (Pure.pure a) s [] := ⟨[], .pure a s, rfl⟩

theorem fail (f : Fault) : Calls p (Act.fail f : Act σ α) s [] := ⟨[], .fail f s, rfl⟩

theorem ofExcept (e : Except Fault α) : Calls p (Act.ofExcept e) s [] := by
  cases e with
  | ok a => exact .pure a
  | error f => exact .fail f

theorem one {e : Called} {c : Call σ α} (h : p.Offers e c) : Calls p (Act.call c) s [e] :=
  ⟨_, .call h s, rfl⟩

theorem mapFault {act : Act σ α} (change : Fault → Fault) (h : Calls p act s called) :
    Calls p (act.mapFault change) s called := by
  obtain ⟨ms, performs, rfl⟩ := h
  exact ⟨ms, .mapFault change performs, rfl⟩

theorem succeeds {act : Act σ α} (h : Calls p act s called) : Calls p act.succeeds s called := by
  obtain ⟨ms, performs, rfl⟩ := h
  exact ⟨ms, .succeeds performs, rfl⟩

/-- Behind an action that halts no calls are made. -/
theorem halts {act : Act σ α} {next : α → Act σ β} {h : Halt} {s₁ : Session σ}
    (first : Calls p act s called) (halted : act s = (.error h, s₁)) :
    Calls p (act >>= next) s called := by
  obtain ⟨ms, performs, rfl⟩ := first
  refine ⟨ms, ?_, rfl⟩
  rw [bind_apply]
  rw [halted] at performs ⊢
  exact .halts performs

theorem andThen {act : Act σ α} {next : α → Act σ β} {a : α} {s₁ : Session σ}
    {more : List Called} (first : Calls p act s called) (came : act s = (.ok a, s₁))
    (rest : Calls p (next a) s₁ more) : Calls p (act >>= next) s (called ++ more) := by
  obtain ⟨ms, performs, rfl⟩ := first
  obtain ⟨behind, there, rfl⟩ := rest
  refine ⟨ms ++ behind, ?_, List.map_append⟩
  rw [bind_apply]
  rw [came] at performs ⊢
  exact .bind performs there

/-- What makes no calls adds none behind an action. -/
theorem bind {act : Act σ α} {next : α → Act σ β} (h : Calls p act s called)
    (rest : ∀ a s, Calls p (next a) s []) : Calls p (act >>= next) s called := by
  obtain ⟨ms, performs, rfl⟩ := h
  refine ⟨ms, ?_, rfl⟩
  rw [bind_apply]
  rcases came : act s with ⟨halt | a, s₁⟩ <;> rw [came] at performs
  · exact .halts performs
  · obtain ⟨more, behind, none⟩ := rest a s₁
    rw [List.map_eq_nil_iff.mp none] at behind
    exact List.append_nil ms ▸ performs.bind behind

end Calls
end Act

/-! ### The first part of a visit -/

namespace Visit

open Act (Composed Performs)

/-- The first part of a visit as one action: it settles the visit, or it comes to another
workflow. -/
def opening (registry : Registry Kind) (providers : Providers σ) (node : Node) (scope : Scope)
    (firstVisit : Bool) : Act σ (Visited ⊕ Descent σ) :=
  match registry.handler? node.kind with
  | none => Act.fail (.node ("Unknown node type '" ++ node.kind ++ "'") (some node.id))
  | some kind => do
    let properties ← Act.ofExcept (fillProperties scope node.properties)
    let c : Context σ := { node, properties, scope, providers, firstVisit }
    if kind = .nested then
      let d ← descend c
      return .inr d
    else
      let outcome ← kind.handle c
      return .inl ⟨outcome, properties⟩

/-- What the first part leaves of a visit. -/
def Prelude.ofOpening : Except Halt (Visited ⊕ Descent σ) → Prelude σ
  | .ok (.inl v) => .settled (.ok v)
  | .ok (.inr d) => .descends d
  | .error h => .settled (.error h)

variable (registry : Registry Kind) (providers : Providers σ) (node : Node) (scope : Scope)
  (firstVisit : Bool)

theorem composed_opening :
    Composed providers (opening registry providers node scope firstVisit) fun _ => True := by
  unfold opening
  split
  · exact .fail
  · refine .bind .ofExcept fun properties _ => ?_
    dsimp only
    split
    · exact .bind (composed_descend (c := ⟨node, properties, scope, providers, firstVisit, none⟩))
        fun d _ => .pure trivial
    · rename_i other
      exact .bind
        (Kind.composed_handle other ⟨node, properties, scope, providers, firstVisit, none⟩)
        fun outcome _ => .pure trivial

theorem prelude_eq (s : Session σ) :
    prelude registry providers node scope firstVisit s =
      (.ofOpening (opening registry providers node scope firstVisit s).1,
        (opening registry providers node scope firstVisit s).2) := by
  unfold prelude opening
  cases registry.handler? node.kind with
  | none => rfl
  | some kind =>
    simp only [Act.bind_apply, Act.ofExcept_apply]
    cases fillProperties scope node.properties with
    | error f => rfl
    | ok properties =>
      have filled : (Except.ok properties).mapError Halt.fault = .ok properties := rfl
      simp only [filled, preludeOf]
      split
      · rw [Act.bind_apply]
        rcases descend _ s with ⟨_ | d, s₁⟩ <;> rfl
      · rw [Act.bind_apply]
        rcases kind.handle _ s with ⟨_ | o, s₁⟩ <;> rfl

end Visit
end Runbook
