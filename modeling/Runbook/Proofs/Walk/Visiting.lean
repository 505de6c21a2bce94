import Runbook.Proofs.Visit.Calls
import Runbook.Proofs.Walk.Recording

/-! The visits that a walk comes to.

`Walks` says what a walk leaves when it ends; `Comes` says what it passes, whether it ends or not:
each visit that it comes to at some depth, under the visits whose steps it is made in. Those are the
visits under way, and their steps are open, one inside the other. -/
namespace Runbook

open Visit

variable {σ : Type}

/-- A visit: the walk that makes it, where that stands, and the session before its step is
opened. -/
structure Visiting (σ : Type) where
  walk : Walk σ
  place : Place
  node : Node
  session : Session σ

namespace Visiting

variable (v : Visiting σ)

def stepId : String := v.walk.stepId v.node

def opened : Opened := (v.walk.openStep v.node v.session).1

/-- The session in which the node is visited: the step is open. -/
def begun : Session σ := (v.walk.openStep v.node v.session).2

def prelude : Visit.Prelude σ × Session σ := v.walk.prelude v.place v.node v.begun

def onward (r : Except Halt Visited) : Progress := v.walk.onward v.place v.node r

def station (r : Except Halt Visited) : Station := v.walk.station v.place v.node v.session r

/-- The walk of a workflow inside the step of the visit. -/
def inside (workflow : Workflow) : Walk σ := v.walk.inside v.stepId workflow

/-- The walk goes to the node: the token has not fired, and the node is there. -/
structure Starts : Prop where
  quiet : v.session.fired = false
  here : v.walk.workflow.node? v.place.current = some v.node

/-- What the visit comes to, and the session behind it, with the step still open. -/
inductive ComesTo : Except Halt Visited → Session σ → Prop
  | plain {r : Except Halt Visited} {s : Session σ} (visit : v.prelude = (.settled r, s)) :
    ComesTo r s
  | nested {d : Descent σ} {inner : Trail} {s₁ s₂ : Session σ}
    (visit : v.prelude = (.descends d, s₁))
    (within : Walks (v.inside d.workflow) ((v.inside d.workflow).start d.inputs) s₁ inner s₂) :
    ComesTo (d.arrive v.stepId inner) s₂

/-- The first part of the visit. -/
def first : Act σ (Visited ⊕ Descent σ) :=
  opening v.walk.registry v.walk.providers v.node v.place.scope (Walk.isFirst v.place v.node)

/-- The call is made in the first part of the visit. -/
def Makes (m : Made σ) : Prop :=
  ∃ ms, m ∈ ms ∧ Act.Performs v.walk.providers v.first v.begun ms (v.first v.begun)

end Visiting

/-- The visits that a walk comes to from where it stands, each with those it is made in: the
outermost first, and the visit itself last. -/
inductive Walk.Comes : Walk σ → Progress → Session σ → List (Visiting σ) → Prop
  | here {v : Visiting σ} (starts : v.Starts) : Comes v.walk (.goOn v.place) v.session [v]
  | inside {v : Visiting σ} {vs : List (Visiting σ)} {d : Descent σ} {s₁ : Session σ}
    (starts : v.Starts) (visit : v.prelude = (.descends d, s₁))
    (within : Comes (v.inside d.workflow) ((v.inside d.workflow).start d.inputs) s₁ vs) :
    Comes v.walk (.goOn v.place) v.session (v :: vs)
  | behind {v : Visiting σ} {vs : List (Visiting σ)} {r : Except Halt Visited} {s₁ : Session σ}
    (starts : v.Starts) (came : v.ComesTo r s₁)
    (onward : Comes v.walk (v.onward r) (s₁.leave (v.station r)) vs) :
    Comes v.walk (.goOn v.place) v.session vs

/-! ### One visit -/

namespace Visiting

variable {v : Visiting σ} {m : Made σ}

theorem prelude_first (v : Visiting σ) :
    v.prelude = (.ofOpening (v.first v.begun).1, (v.first v.begun).2) := prelude_eq ..

theorem performs (v : Visiting σ) :
    ∃ ms, Act.Performs v.walk.providers v.first v.begun ms (v.first v.begun) :=
  (composed_opening ..).performs v.begun

/-- A call finds the step of its visit open, and nothing recorded since. -/
theorem Makes.recorder (h : v.Makes m) : m.session.recorder = v.begun.recorder := by
  obtain ⟨ms, made, performs⟩ := h
  exact performs.recorder.2 m made

theorem Makes.fired (h : v.Makes m) (fired : m.behind.fired = true) :
    v.prelude.2.fired = true := by
  obtain ⟨ms, made, performs⟩ := h
  rw [v.prelude_first]
  exact performs.stays_fired.2 m made fired

/-- A visit with an aborted call comes to the abort. -/
theorem Makes.aborted {a : Abort} (h : v.Makes m) (aborted : m.Aborted a) :
    v.prelude = (.settled (.error (.aborted a)), m.behind) := by
  obtain ⟨ms, made, performs⟩ := h
  rw [v.prelude_first, performs.aborted made aborted]
  rfl

/-- A visit that is aborted in its first part has an aborted call. -/
theorem exists_aborted {a : Abort} {s₁ : Session σ}
    (visit : v.prelude = (.settled (.error (.aborted a)), s₁)) : ∃ m, v.Makes m ∧ m.Aborted a := by
  obtain ⟨ms, performs⟩ := v.performs
  have halted : (v.first v.begun).1 = .error (.aborted a) := by
    rw [v.prelude_first] at visit
    have came := congrArg Prod.fst visit
    rcases out : (v.first v.begun).1 with halt | x | d <;> rw [out] at came <;> cases came
    rfl
  obtain ⟨m, made, aborted⟩ := performs.of_aborted halted
  exact ⟨m, ⟨ms, made, performs⟩, aborted⟩

/-- The token fires in the first part of a visit just where a call fires it. -/
theorem fires_of_fired (quiet : v.session.fired = false) (fired : v.prelude.2.fired = true) :
    ∃ m, v.Makes m ∧ m.Fires := by
  obtain ⟨ms, performs⟩ := v.performs
  rw [v.prelude_first] at fired
  obtain ⟨m, made, fires⟩ := performs.fires quiet fired
  exact ⟨m, ⟨ms, made, performs⟩, fires⟩

/-- A visit in which the token has fired does not hang. -/
theorem not_unfinished {s₁ : Session σ} {r : Except Halt Visited}
    (visit : v.prelude = (.settled r, s₁)) (fired : s₁.fired = true) : r ≠ .error .unfinished := by
  rintro rfl
  obtain ⟨ms, performs⟩ := v.performs
  rw [v.prelude_first] at visit
  generalize v.first v.begun = out at *
  rcases out with ⟨halt | _ | _, s⟩ <;> cases visit
  rw [performs.unfinished rfl] at fired
  cases fired

theorem ComesTo.recorder {r : Except Halt Visited} {s₁ : Session σ} (came : v.ComesTo r s₁)
    (sound : v.session.recorder.Sound) :
    ∃ inner : Trail, s₁.recorder = v.begun.recorder.extend inner ∧ s₁.recorder.Sound := by
  cases came with
  | plain visit =>
    have begun := Walk.prelude_recorder visit
    refine ⟨.stop .finished .empty, ?_, Walk.openStep_sound sound begun⟩
    rw [Recorder.extend_stop]
    exact begun
  | @nested d inner s₁ s₂ visit within =>
    have begun := Walk.prelude_recorder visit
    obtain ⟨walked, sound₂⟩ := within.recorder_eq (Walk.openStep_sound sound begun)
    refine ⟨inner, ?_, sound₂⟩
    rw [walked]
    exact congrArg (Recorder.extend · inner) begun

/-- Behind a visit its step stands between the steps opened before and those left open inside, and
leaving the visit touches no other. -/
theorem ComesTo.leaves {r : Except Halt Visited} {s₁ : Session σ} (came : v.ComesTo r s₁)
    (sound : v.session.recorder.Sound) :
    ∃ inside, s₁.recorder.opened = v.session.recorder.opened ++ v.opened :: inside ∧
      (s₁.leave (v.station r)).recorder =
        s₁.recorder.afterVisit v.session.recorder.opened inside (v.station r) ∧
      (s₁.leave (v.station r)).recorder.Sound := by
  obtain ⟨inner, walked, sound₁⟩ := came.recorder sound
  refine ⟨inner.leftOpen, ?_, Session.leave_visit rfl walked sound₁ rfl⟩
  rw [walked]
  simp [Recorder.extend, begun, opened, Walk.openStep, Recorder.begin]

/-- Where a visit came to something, the walk goes on behind it. -/
theorem ComesTo.walks {r : Except Halt Visited} {s₁ s' : Session σ} {rest : Trail}
    (starts : v.Starts) (came : v.ComesTo r s₁)
    (onward : Walks v.walk (v.onward r) (s₁.leave (v.station r)) rest s') :
    ∃ t before, Walks v.walk (.goOn v.place) v.session t s' ∧ t.ending = rest.ending ∧
      t.steps = before ++ (v.station r).recorded ++ rest.steps := by
  cases came with
  | plain visit => exact ⟨_, [], .plain starts.quiet starts.here visit onward, rfl, rfl⟩
  | nested visit within =>
    exact ⟨_, _, .nested starts.quiet starts.here visit within onward, rfl, rfl⟩

end Visiting

/-! ### Walks -/

/-- A walk leaves one trail. -/
theorem Walks.unique {w : Walk σ} {p : Progress} {s s' z' : Session σ} {t t' : Trail}
    (h : Walks w p s t s') (h' : Walks w p s t' z') : t = t' ∧ s' = z' := by
  induction h generalizing t' z' with
  | ended =>
    cases h'
    exact ⟨rfl, rfl⟩
  | fired fired =>
    cases h' with
    | fired => exact ⟨rfl, rfl⟩
    | lost quiet | plain quiet | nested quiet => rw [fired] at quiet; cases quiet
  | lost quiet missing =>
    cases h' with
    | fired fired => rw [fired] at quiet; cases quiet
    | lost => exact ⟨rfl, rfl⟩
    | plain _ here | nested _ here => rw [missing] at here; cases here
  | plain quiet here visit onward ih =>
    cases h' with
    | fired fired => rw [fired] at quiet; cases quiet
    | lost _ missing => rw [missing] at here; cases here
    | plain _ here' visit' onward' =>
      cases here.symm.trans here'
      cases visit.symm.trans visit'
      obtain ⟨rfl, rfl⟩ := ih onward'
      exact ⟨rfl, rfl⟩
    | nested _ here' visit' =>
      cases here.symm.trans here'
      cases visit.symm.trans visit'
  | nested quiet here visit inside onward ihInside ihOnward =>
    cases h' with
    | fired fired => rw [fired] at quiet; cases quiet
    | lost _ missing => rw [missing] at here; cases here
    | plain _ here' visit' =>
      cases here.symm.trans here'
      cases visit.symm.trans visit'
    | nested _ here' visit' inside' onward' =>
      cases here.symm.trans here'
      cases visit.symm.trans visit'
      obtain ⟨rfl, rfl⟩ := ihInside inside'
      obtain ⟨rfl, rfl⟩ := ihOnward onward'
      exact ⟨rfl, rfl⟩

/-- The ids of steps that are open one inside the other. -/
def stepIds (path : String) : List Node → List String
  | [] => []
  | n :: rest => (path ++ n.id) :: stepIds (path ++ n.id ++ "/") rest

theorem Walk.Comes.ne_nil {w : Walk σ} {p : Progress} {s : Session σ} {vs : List (Visiting σ)}
    (h : w.Comes p s vs) : vs ≠ [] := by
  induction h with
  | here | inside => exact List.cons_ne_nil _ _
  | behind _ _ _ ih => exact ih

/-- The innermost of the visits is inside the first, unless that is the only one. -/
theorem Walk.Comes.getLast?_cons {w : Walk σ} {p : Progress} {s : Session σ}
    {vs : List (Visiting σ)} (h : w.Comes p s vs) (v : Visiting σ) :
    (v :: vs).getLast? = vs.getLast? := by
  cases vs with
  | nil => exact absurd rfl h.ne_nil
  | cons => rfl

/-- Every visit finds a sound recorder. -/
theorem Walk.Comes.sound {w : Walk σ} {p : Progress} {s : Session σ} {vs : List (Visiting σ)}
    (h : w.Comes p s vs) (sound : s.recorder.Sound) : ∀ v ∈ vs, v.session.recorder.Sound := by
  induction h with
  | here => simpa using sound
  | inside _ visit _ ih =>
    exact List.forall_mem_cons.mpr
      ⟨sound, ih (Walk.openStep_sound sound (Walk.prelude_recorder visit))⟩
  | behind _ came _ ih =>
    obtain ⟨-, -, -, sound'⟩ := came.leaves sound
    exact ih sound'

/-- Every visit knows the same kinds. -/
theorem Walk.Comes.registry {w : Walk σ} {p : Progress} {s : Session σ} {vs : List (Visiting σ)}
    (h : w.Comes p s vs) : ∀ v ∈ vs, v.walk.registry = w.registry := by
  induction h with
  | here => simp
  | inside _ _ _ ih => exact List.forall_mem_cons.mpr ⟨rfl, ih⟩
  | behind _ _ _ ih => exact ih

theorem Walk.Comes.stepIds_eq {w : Walk σ} {p : Progress} {s : Session σ}
    {vs : List (Visiting σ)} (h : w.Comes p s vs) :
    vs.map (·.stepId) = stepIds w.path (vs.map (·.node)) := by
  induction h with
  | here => rfl
  | inside _ _ _ ih => rw [List.map_cons, ih]; rfl
  | behind _ _ _ ih => exact ih

end Runbook
