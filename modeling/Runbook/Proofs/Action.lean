import Runbook.Visit.Context

/-! What the actions of nodes are made of.

Whatever a node does, it does by calling the providers it was given. `Composed` says that of an
action, together with what it promises of the value it comes to, and three facts follow for every
action of that kind, however it branches: it does not read or touch the recorder
(`Composed.frame`), whatever every single call keeps, the whole action keeps (`Composed.keeps`),
and in worlds in which the providers answer alike it comes to the same (`Composed.respects`). -/
namespace Runbook

variable {σ α β : Type}

/-! ### Calls -/

/-- A call as it is made: which provider is asked, and for what. -/
inductive Called
  | sleep (ms : Int)
  | model (q : ModelRequest)
  | http (q : Http.Request)
  | tool (url tool : String) (args : Value) (headers : Option Value)
  | readText (path : String)
  | readBytes (path : String)
  | writeText (path content : String)
  | writeBytes (path : String) (content : List UInt8)
  | has (path : String)
  | listFiles
  | listFolders
  | times (path : String)
  | tags (path : String)
  | workflow (path : String) (name : Option String)
  | interaction (q : Interaction.Request)
  | openFile (path : String)
  | execute (id : String) (path : Option String)
  | writeClipboard (text : String)
  | upload (setting path content : String)
  | delete (setting path : String)

inductive VaultProvider.Offers (v : VaultProvider σ) : Called → {α : Type} → Call σ α → Prop
  | readText (path : String) : v.Offers (.readText path) (v.readText path)
  | readBytes (path : String) : v.Offers (.readBytes path) (v.readBytes path)
  | writeText (path content : String) :
    v.Offers (.writeText path content) (v.writeText path content)
  | writeBytes (path : String) (content : List UInt8) :
    v.Offers (.writeBytes path content) (v.writeBytes path content)
  | has (path : String) : v.Offers (.has path) (v.has path)
  | listFiles : v.Offers .listFiles v.listFiles
  | listFolders : v.Offers .listFolders v.listFolders
  | times (path : String) : v.Offers (.times path) (v.times path)
  | tags (path : String) : v.Offers (.tags path) (v.tags path)

inductive HostProvider.Offers (h : HostProvider σ) : Called → {α : Type} → Call σ α → Prop
  | openFile (path : String) : h.Offers (.openFile path) (h.openFile path)
  | execute (id : String) (path : Option String) :
    h.Offers (.execute id path) (h.execute id path)
  | writeClipboard (text : String) : h.Offers (.writeClipboard text) (h.writeClipboard text)

inductive IndexProvider.Offers (i : IndexProvider σ) : Called → {α : Type} → Call σ α → Prop
  | upload (setting path content : String) :
    i.Offers (.upload setting path content) (i.upload setting path content)
  | delete (setting path : String) : i.Offers (.delete setting path) (i.delete setting path)

/-- The calls that a node can make. Keeping a record is not among them: that is for the run. -/
inductive Providers.Offers (p : Providers σ) : Called → {α : Type} → Call σ α → Prop
  | sleep (ms : Int) : p.Offers (.sleep ms) (p.clock.sleep ms)
  | model {f} (h : p.model = some f) (q : ModelRequest) : p.Offers (.model q) (f q)
  | http {f} (h : p.http = some f) (q : Http.Request) : p.Offers (.http q) (f q)
  | tools {f} (h : p.tools = some f) (url tool : String) (args : Value)
    (headers : Option Value) : p.Offers (.tool url tool args headers) (f url tool args headers)
  | vault {v} (h : p.vault = some v) {e : Called} {α : Type} {c : Call σ α}
    (hc : v.Offers e c) : p.Offers e c
  | workflows {f} (h : p.workflows = some f) (path : String) (name : Option String) :
    p.Offers (.workflow path name) (f path name)
  | interaction {f} (h : p.interaction = some f) (q : Interaction.Request) :
    p.Offers (.interaction q) (f q)
  | host {v} (h : p.host = some v) {e : Called} {α : Type} {c : Call σ α}
    (hc : v.Offers e c) : p.Offers e c
  | index {v} (h : p.index = some v) {e : Called} {α : Type} {c : Call σ α}
    (hc : v.Offers e c) : p.Offers e c

/-- Two worlds in which the providers answer alike, now and after any calls: `R` holds between
them, and a call that is made in both answers the same and leaves worlds of that kind. -/
structure Providers.Respects (p : Providers σ) (R : σ → σ → Prop) : Prop where
  call : ∀ {α : Type} {e : Called} (c : Call σ α), p.Offers e c → ∀ x y, R x y →
    (c x).result = (c y).result ∧ (c x).fires = (c y).fires ∧ R (c x).world (c y).world
  now : ∀ x y, R x y → (p.clock.now x).1 = (p.clock.now y).1 ∧ R (p.clock.now x).2 (p.clock.now y).2
  timestamp : ∀ x y, R x y → R (p.clock.timestamp x).2 (p.clock.timestamp y).2

/-- `log` reads off a world the calls that were made in it. -/
structure Providers.Logs (p : Providers σ) (log : σ → List Called) : Prop where
  call : ∀ {α : Type} {e : Called} (c : Call σ α), p.Offers e c → ∀ x,
    log (c x).world = log x ++ [e]
  now : ∀ x, log (p.clock.now x).2 = log x
  timestamp : ∀ x, log (p.clock.timestamp x).2 = log x

/-- A call that returns the same in every world of a kind, and leaves a world of that kind. -/
def Call.Returns (c : Call σ α) (within : σ → Prop) (a : α) : Prop :=
  ∀ world, within world → (c world).result = .returned a ∧ within (c world).world

/-! ### Actions at a session -/

namespace Act

theorem bind_apply (act : Act σ α) (next : α → Act σ β) (s : Session σ) :
    (act >>= next) s = match act s with
      | (.ok a, s) => next a s
      | (.error h, s) => (.error h, s) := by
  have opened : (act >>= next) s = ExceptT.bindCont next (act s).1 (act s).2 := rfl
  rw [opened]
  rcases act s with ⟨_ | _, _⟩ <;> rfl

theorem ofExcept_apply (e : Except Fault α) (s : Session σ) :
    ofExcept e s = (e.mapError .fault, s) := by
  cases e <;> rfl

/-- The session after a call. -/
def after (c : Call σ α) (s : Session σ) : Session σ :=
  { s with world := (c s.world).world, fired := s.fired || (c s.world).fires }

theorem call_snd (c : Call σ α) (s : Session σ) : (call c s).2 = after c s := by
  simp only [call]
  cases (c s.world).result <;> rfl

theorem bind_eq_ok {act : Act σ α} {next : α → Act σ β} {s s' : Session σ} {b : β} :
    (act >>= next) s = (.ok b, s') ↔ ∃ a z, act s = (.ok a, z) ∧ next a z = (.ok b, s') := by
  rw [bind_apply]
  rcases act s with ⟨_ | a, z⟩
  · exact ⟨fun h => (nomatch h), fun ⟨_, _, h, _⟩ => (nomatch h)⟩
  · refine ⟨fun h => ⟨a, z, rfl, h⟩, ?_⟩
    rintro ⟨_, _, ⟨⟩, h⟩
    exact h

theorem ofExcept_eq_ok {e : Except Fault α} {s s' : Session σ} {a : α} :
    ofExcept e s = (.ok a, s') ↔ e = .ok a ∧ s = s' := by
  cases e with
  | error f => exact ⟨fun h => (nomatch h), fun h => (nomatch h.1)⟩
  | ok b => exact ⟨by rintro ⟨⟩; exact ⟨rfl, rfl⟩, by rintro ⟨⟨⟩, rfl⟩; rfl⟩

/-- A call comes to what the provider returns. -/
theorem call_eq_ok {c : Call σ α} {s s' : Session σ} {a : α} :
    call c s = (.ok a, s') ↔ (c s.world).result = .returned a ∧ after c s = s' := by
  simp only [call, after]
  cases (c s.world).result with
  | returned b => exact ⟨by rintro ⟨⟩; exact ⟨rfl, rfl⟩, by rintro ⟨⟨⟩, rfl⟩; rfl⟩
  | _ => exact ⟨fun h => (nomatch h), fun h => (nomatch h.1)⟩

theorem call_returns {c : Call σ α} {within : σ → Prop} {a : α} {s : Session σ}
    (returns : c.Returns within a) (inside : within s.world) :
    ∃ s', call c s = (.ok a, s') ∧ within s'.world :=
  ⟨after c s, call_eq_ok.mpr ⟨(returns _ inside).1, rfl⟩, (returns _ inside).2⟩

theorem mapFault_eq_ok {change : Fault → Fault} {act : Act σ α} {s s' : Session σ} {a : α} :
    act.mapFault change s = (.ok a, s') ↔ act s = (.ok a, s') := by
  simp only [mapFault]
  rcases act s with ⟨(_ | _ | _) | _, _⟩
  · exact ⟨fun h => (nomatch h), fun h => (nomatch h)⟩
  all_goals exact Iff.rfl

theorem succeeds_snd (act : Act σ α) (s : Session σ) : (act.succeeds s).2 = (act s).2 := by
  simp only [succeeds]
  rcases act s with ⟨(_ | _ | _) | _, _⟩ <;> rfl

theorem mapFault_snd (change : Fault → Fault) (act : Act σ α) (s : Session σ) :
    (act.mapFault change s).2 = (act s).2 := by
  simp only [mapFault]
  rcases act s with ⟨(_ | _ | _) | _, _⟩ <;> rfl

theorem succeeds_congr {act : Act σ α} {s z : Session σ} (same : (act s).1 = (act z).1) :
    (act.succeeds s).1 = (act.succeeds z).1 := by
  simp only [succeeds]
  generalize act s = out at *
  generalize act z = out' at *
  obtain ⟨r, s₁⟩ := out
  obtain ⟨r', z₁⟩ := out'
  cases same
  rcases r with (_ | _ | _) | _ <;> rfl

theorem mapFault_congr {act : Act σ α} (change : Fault → Fault) {s z : Session σ}
    (same : (act s).1 = (act z).1) : (act.mapFault change s).1 = (act.mapFault change z).1 := by
  simp only [mapFault]
  generalize act s = out at *
  generalize act z = out' at *
  obtain ⟨r, s₁⟩ := out
  obtain ⟨r', z₁⟩ := out'
  cases same
  rcases r with (_ | _ | _) | _ <;> rfl

/-- Actions that are composed of calls to providers, with what holds of the values they come
to. -/
inductive Composed (p : Providers σ) : {α : Type} → Act σ α → (α → Prop) → Prop
  | pure {α : Type} {Q : α → Prop} {a : α} (h : Q a) : Composed p (pure a) Q
  | fail {α : Type} {Q : α → Prop} {f : Fault} : Composed p (Act.fail f : Act σ α) Q
  | bind {α β : Type} {act : Act σ α} {next : α → Act σ β} {P : α → Prop} {Q : β → Prop}
    (first : Composed p act P) (rest : ∀ a, P a → Composed p (next a) Q) :
    Composed p (act >>= next) Q
  | call {α : Type} {e : Called} {c : Call σ α} (h : p.Offers e c) : Composed p (Act.call c) fun _ => True
  | now : Composed p (Act.ask p.clock.now) fun _ => True
  | succeeds {α : Type} {act : Act σ α} {P : α → Prop} (h : Composed p act P) :
    Composed p act.succeeds fun _ => True
  | mapFault {α : Type} {act : Act σ α} {P : α → Prop} (change : Fault → Fault)
    (h : Composed p act P) : Composed p (act.mapFault change) P

namespace Composed

variable {p : Providers σ} {act : Act σ α} {Q : α → Prop}

theorem ofExcept {e : Except Fault α} : Composed p (Act.ofExcept e) fun a => e = .ok a := by
  cases e with
  | error f => exact .fail
  | ok a => exact .pure rfl

theorem mono {P : α → Prop} (h : Composed p act P) (imp : ∀ a, P a → Q a) :
    Composed p act Q := by
  have bound : act >>= Pure.pure = act := by
    funext s
    rw [bind_apply]
    rcases act s with ⟨_ | _, _⟩ <;> rfl
  rw [← bound]
  exact .bind h fun a ha => .pure (imp a ha)

/-- What holds of the value that an action comes to. -/
theorem value (h : Composed p act Q) {s s' : Session σ} {a : α} (ha : act s = (.ok a, s')) :
    Q a := by
  induction h generalizing s s' with
  | pure hq => cases ha; exact hq
  | fail => cases ha
  | @bind _ _ act _ _ _ _ _ first rest =>
    rw [bind_apply] at ha
    rcases done : act s with ⟨_ | b, s₁⟩
    · rw [done] at ha; cases ha
    · rw [done] at ha; exact rest b (first done) ha
  | call | now | succeeds => trivial
  | @mapFault _ act _ _ _ ih =>
    simp only [Act.mapFault] at ha
    rcases done : act s with ⟨(_ | _ | _) | b, s₁⟩ <;> rw [done] at ha <;> cases ha
    exact ih done

/-- An action neither reads nor touches the recorder. -/
theorem frame (h : Composed p act Q) (s : Session σ) (r : Recorder σ) :
    act { s with recorder := r } = ((act s).1, { (act s).2 with recorder := r }) := by
  induction h generalizing s with
  | pure | fail | now => rfl
  | @bind _ _ act _ _ _ composed _ first rest =>
    rw [bind_apply, bind_apply, first]
    rcases done : act s with ⟨_ | b, s₁⟩
    · rfl
    · exact rest b (composed.value done) s₁
  | @call _ _ c _ =>
    simp only [Act.call]
    cases (c s.world).result <;> rfl
  | @succeeds _ act _ _ ih =>
    simp only [Act.succeeds, ih]
    rcases act s with ⟨(_ | _ | _) | b, s₁⟩ <;> rfl
  | @mapFault _ act _ _ _ ih =>
    simp only [Act.mapFault, ih]
    rcases act s with ⟨(_ | _ | _) | b, s₁⟩ <;> rfl

/-- Whatever holds between sessions from each call to the next, holds over the whole action. -/
theorem keeps {R : Session σ → Session σ → Prop} (refl : ∀ s, R s s)
    (trans : ∀ s₁ s₂ s₃, R s₁ s₂ → R s₂ s₃ → R s₁ s₃)
    (call : ∀ {α : Type} {e : Called} (c : Call σ α), p.Offers e c → ∀ s, R s (after c s))
    (now : ∀ s, R s { s with world := (p.clock.now s.world).2 })
    (h : Composed p act Q) (s : Session σ) : R s (act s).2 := by
  induction h generalizing s with
  | pure | fail => exact refl s
  | @bind _ _ act _ _ _ composed _ first rest =>
    have here := first s
    rw [bind_apply]
    rcases done : act s with ⟨_ | b, s₁⟩ <;> rw [done] at here
    · exact here
    · exact trans _ _ _ here (rest b (composed.value done) s₁)
  | @call _ _ c offered =>
    rw [call_snd]
    exact call c offered s
  | now => exact now s
  | succeeds _ ih => rw [succeeds_snd]; exact ih s
  | mapFault _ _ ih => rw [mapFault_snd]; exact ih s

/-- In worlds in which the providers answer alike an action comes to the same. -/
theorem respects {R : σ → σ → Prop} (respects : p.Respects R) (h : Composed p act Q)
    {s z : Session σ} (world : R s.world z.world) (fired : s.fired = z.fired) :
    (act s).1 = (act z).1 ∧ R (act s).2.world (act z).2.world ∧
      (act s).2.fired = (act z).2.fired := by
  induction h generalizing s z with
  | pure | fail => exact ⟨rfl, world, fired⟩
  | @bind _ _ act next _ _ composed _ first rest =>
    obtain ⟨same, world, fired⟩ := first world fired
    rw [bind_apply, bind_apply]
    rcases done : act s with ⟨_ | a, s₁⟩ <;> rcases done' : act z with ⟨_ | b, z₁⟩ <;>
      rw [done, done'] at same world fired <;> cases same
    · exact ⟨rfl, world, fired⟩
    · exact rest a (composed.value done) world fired
  | @call _ _ c offered =>
    obtain ⟨result, fires, worlds⟩ := respects.call c offered _ _ world
    have fired' : (after c s).fired = (after c z).fired := by
      simp only [after, fired, fires]
    refine ⟨?_, call_snd c s ▸ call_snd c z ▸ worlds, call_snd c s ▸ call_snd c z ▸ fired'⟩
    simp only [Act.call, result, fired, fires]
    cases (c z.world).result <;> rfl
  | now =>
    obtain ⟨same, worlds⟩ := respects.now _ _ world
    exact ⟨congrArg Except.ok same, worlds, fired⟩
  | succeeds _ ih =>
    obtain ⟨same, world, fired⟩ := ih world fired
    rw [succeeds_snd, succeeds_snd]
    exact ⟨succeeds_congr same, world, fired⟩
  | mapFault change _ ih =>
    obtain ⟨same, world, fired⟩ := ih world fired
    rw [mapFault_snd, mapFault_snd]
    exact ⟨mapFault_congr change same, world, fired⟩

end Composed
end Act
end Runbook
