import Runbook.Proofs.Walk.Step

/-! Trails: what a walk did, from its first visit to its end.

A trail holds the visits of a walk in order, and for each visit that ran another workflow the
trail of that nested walk. `Walks` says which trail a walk leaves between two sessions. It does
not speak of how many visits a walk is given: a walk that is given enough of them ends as its
trail does (`Walks.proceed_eq`), and every end that is not for want of visits has a trail
(`exists_walks`). -/
namespace Runbook

open Visit

variable {σ : Type}

/-- One visit: the step it opened, what it came to, and how its step was closed. -/
structure Station where
  node : Node
  opened : Opened
  result : Except Halt Visited
  closing : Option Closing

inductive Trail
  /-- The end, without a visit. -/
  | stop (ending : Ending) (scope : Scope)
  | plain (v : Station) (rest : Trail)
  /-- A visit that ran a workflow, and the trail of the nested walk. -/
  | nested (v : Station) (workflow : Workflow) (inner rest : Trail)

namespace Trail

def ending : Trail → Ending
  | stop e _ => e
  | plain _ rest | nested _ _ _ rest => rest.ending

/-- The scope that the walk ended with. -/
def scope : Trail → Scope
  | stop _ scope => scope
  | plain _ rest | nested _ _ _ rest => rest.scope

/-- How many visits a walk must be given to leave this trail. -/
def height : Trail → Nat
  | stop _ _ => 0
  | plain _ rest => rest.height + 1
  | nested _ _ inner rest => max inner.height rest.height + 1

end Trail

namespace Walk

/-- Where a walk stands when it is started. -/
def start (w : Walk σ) (scope : Scope) : Progress :=
  match w.start? scope with
  | some place => .goOn place
  | none => .ended .finished scope

theorem start_scope (w : Walk σ) (scope : Scope) : (w.start scope).scope = scope := by
  unfold Walk.start Walk.start?
  cases w.workflow.entry? <;> rfl

/-- Goes on from where a walk stands, for at most so many visits. -/
def proceed (fuel : Nat) (w : Walk σ) : Progress → Session σ → (Ending × Scope) × Session σ
  | .goOn place, s => walkFrom fuel w place s
  | .ended e scope, s => ((e, scope), s)

theorem walk_eq (fuel : Nat) (w : Walk σ) (scope : Scope) (s : Session σ) :
    walk fuel w scope s = w.proceed fuel (w.start scope) s := by
  unfold walk start
  cases w.start? scope <;> rfl

theorem walkFrom_succ (fuel : Nat) (w : Walk σ) (place : Place) (s : Session σ) :
    walkFrom (fuel + 1) w place s =
      match w.advance (walk fuel) place s with
      | (.goOn place, s) => walkFrom fuel w place s
      | (.ended e scope, s) => ((e, scope), s) := by
  rw [walkFrom]
  rfl

theorem proceed_goOn (fuel : Nat) (w : Walk σ) (place : Place) (s : Session σ) :
    w.proceed (fuel + 1) (.goOn place) s =
      w.proceed fuel (w.advance (walk fuel) place s).1 (w.advance (walk fuel) place s).2 := by
  show walkFrom (fuel + 1) w place s = _
  rw [walkFrom_succ]
  rcases w.advance (walk fuel) place s with ⟨_ | _, _⟩ <;> rfl

/-- The visit to a node from a place, once it has come to a result. -/
def station (w : Walk σ) (place : Place) (n : Node) (s : Session σ) (r : Except Halt Visited) :
    Station :=
  { node := n, opened := (w.openStep n s).1, result := r, closing := w.closing? place.scope r }

end Walk

/-- Closes the step of a visit as the visit says. -/
def Session.leave (s : Session σ) (v : Station) : Session σ := s.closeWith v.opened v.closing

/-- What a visit comes to whose nested walk left a trail. -/
def Visit.Descent.arrive (d : Descent σ) (stepId : String) (inner : Trail) : Except Halt Visited :=
  d.deliver (inner.ending.toExcept d.workflow stepId inner.scope)

/-- The trail that a walk leaves from where it stands, and the session behind it. -/
inductive Walks : Walk σ → Progress → Session σ → Trail → Session σ → Prop
  | ended {w : Walk σ} {e : Ending} {scope : Scope} {s : Session σ} :
    Walks w (.ended e scope) s (.stop e scope) s
  | fired {w : Walk σ} {place : Place} {s : Session σ} (fired : s.fired = true) :
    Walks w (.goOn place) s (.stop (.cancelled cancelledMessage) place.scope) s
  | lost {w : Walk σ} {place : Place} {s : Session σ} (quiet : s.fired = false)
    (missing : w.workflow.node? place.current = none) :
    Walks w (.goOn place) s (.stop (.left (.noSuchKey place.current)) place.scope) s
  | plain {w : Walk σ} {place : Place} {n : Node} {s s₁ s' : Session σ}
    {r : Except Halt Visited} {rest : Trail} (quiet : s.fired = false)
    (here : w.workflow.node? place.current = some n)
    (visit : w.prelude place n (w.openStep n s).2 = (.settled r, s₁))
    (onward : Walks w (w.onward place n r) (s₁.leave (w.station place n s r)) rest s') :
    Walks w (.goOn place) s (.plain (w.station place n s r) rest) s'
  | nested {w : Walk σ} {place : Place} {n : Node} {s s₁ s₂ s' : Session σ} {d : Descent σ}
    {inner rest : Trail} (quiet : s.fired = false)
    (here : w.workflow.node? place.current = some n)
    (visit : w.prelude place n (w.openStep n s).2 = (.descends d, s₁))
    (inside : Walks (w.inside (w.stepId n) d.workflow)
      ((w.inside (w.stepId n) d.workflow).start d.inputs) s₁ inner s₂)
    (onward : Walks w (w.onward place n (d.arrive (w.stepId n) inner))
      (s₂.leave (w.station place n s (d.arrive (w.stepId n) inner))) rest s') :
    Walks w (.goOn place) s
      (.nested (w.station place n s (d.arrive (w.stepId n) inner)) d.workflow inner rest) s'

/-! ### Walks with enough visits -/

namespace Walk

variable {w : Walk σ} {place : Place} {n : Node} {s s₁ s₂ : Session σ}

theorem advance_settled {r : Except Halt Visited} (run : Runner σ) (quiet : s.fired = false)
    (here : w.workflow.node? place.current = some n)
    (visit : w.prelude place n (w.openStep n s).2 = (.settled r, s₁)) :
    w.advance run place s = (w.onward place n r, s₁.leave (w.station place n s r)) := by
  rw [advance_eq run quiet here, visit]
  rfl

theorem advance_descends {d : Descent σ} {e : Ending} {scope : Scope} {run : Runner σ}
    (quiet : s.fired = false) (here : w.workflow.node? place.current = some n)
    (visit : w.prelude place n (w.openStep n s).2 = (.descends d, s₁))
    (inside : run (w.inside (w.stepId n) d.workflow) d.inputs s₁ = ((e, scope), s₂)) :
    let r := d.deliver (e.toExcept d.workflow (w.stepId n) scope)
    w.advance run place s = (w.onward place n r, s₂.leave (w.station place n s r)) := by
  rw [advance_eq run quiet here, visit]
  simp only [Prelude.resume, nestedRun, inside]
  rfl

end Walk

theorem Walks.proceed_eq {w : Walk σ} {p : Progress} {s s' : Session σ} {t : Trail}
    (h : Walks w p s t s') {fuel : Nat} (enough : t.height < fuel) :
    w.proceed fuel p s = ((t.ending, t.scope), s') := by
  induction h generalizing fuel with
  | ended => rfl
  | fired fired =>
    obtain ⟨fuel, rfl⟩ := Nat.exists_eq_succ_of_ne_zero (Nat.ne_of_gt enough)
    rw [Walk.proceed_goOn]
    simp only [Walk.advance, fired, if_true]
    rfl
  | lost quiet missing =>
    obtain ⟨fuel, rfl⟩ := Nat.exists_eq_succ_of_ne_zero (Nat.ne_of_gt enough)
    rw [Walk.proceed_goOn]
    simp only [Walk.advance, quiet, Bool.false_eq_true, if_false, missing]
    rfl
  | plain quiet here visit onward ih =>
    obtain ⟨fuel, rfl⟩ := Nat.exists_eq_succ_of_ne_zero (Nat.ne_of_gt (Nat.zero_lt_of_lt enough))
    rw [Walk.proceed_goOn, Walk.advance_settled _ quiet here visit]
    exact ih (Nat.lt_of_succ_lt_succ enough)
  | nested quiet here visit inside onward ihInside ihOnward =>
    obtain ⟨fuel, rfl⟩ := Nat.exists_eq_succ_of_ne_zero (Nat.ne_of_gt (Nat.zero_lt_of_lt enough))
    obtain ⟨enoughInside, enoughOnward⟩ := Nat.max_lt.mp (Nat.lt_of_succ_lt_succ enough)
    rw [Walk.proceed_goOn, Walk.advance_descends quiet here visit
      ((Walk.walk_eq ..).trans (ihInside enoughInside))]
    exact ihOnward enoughOnward

theorem exists_walks {fuel : Nat} {w : Walk σ} {p : Progress} {s s' : Session σ} {e : Ending}
    {scope : Scope} (h : w.proceed fuel p s = ((e, scope), s')) (ends : e ≠ .unfinished) :
    ∃ t, Walks w p s t s' ∧ t.ending = e ∧ t.scope = scope ∧ t.height ≤ fuel := by
  induction fuel generalizing w p s s' e scope with
  | zero =>
    cases p with
    | goOn place => cases h; exact absurd rfl ends
    | ended e scope => cases h; exact ⟨_, .ended, rfl, rfl, Nat.le_refl _⟩
  | succ fuel ih =>
    cases p with
    | ended e scope => cases h; exact ⟨_, .ended, rfl, rfl, Nat.zero_le _⟩
    | goOn place =>
      rw [Walk.proceed_goOn] at h
      cases fired : s.fired with
      | true =>
        simp only [Walk.advance, fired, if_true] at h
        cases h
        exact ⟨_, .fired fired, rfl, rfl, Nat.zero_le _⟩
      | false =>
        cases here : w.workflow.node? place.current with
        | none =>
          simp only [Walk.advance, fired, Bool.false_eq_true, if_false, here] at h
          cases h
          exact ⟨_, .lost fired here, rfl, rfl, Nat.zero_le _⟩
        | some n =>
          rcases visit : w.prelude place n (w.openStep n s).2 with ⟨r | d, s₁⟩
          · rw [Walk.advance_settled _ fired here visit] at h
            obtain ⟨t, walks, ending, scope, height⟩ := ih h ends
            exact ⟨_, .plain fired here visit walks, ending, scope, Nat.succ_le_succ height⟩
          · rcases inside : Walk.walk fuel (w.inside (w.stepId n) d.workflow) d.inputs s₁ with
              ⟨⟨e₁, scope₁⟩, s₂⟩
            rw [Walk.advance_descends fired here visit inside] at h
            -- A nested walk that was cut short cuts this one short.
            have ends₁ : e₁ ≠ .unfinished := by
              rintro rfl
              exact ends (by cases fuel <;> cases h <;> rfl)
            rw [Walk.walk_eq] at inside
            obtain ⟨inner, walksInner, rfl, rfl, heightInner⟩ := ih inside ends₁
            obtain ⟨t, walks, ending, scope, height⟩ := ih h ends
            exact ⟨_, .nested fired here visit walksInner walks, ending, scope,
              Nat.succ_le_succ (Nat.max_le.mpr ⟨heightInner, height⟩)⟩

/-! ### What a visit makes of its nested walk -/

theorem Ending.toExcept_ok {e : Ending} {workflow : Workflow} {stepId : String}
    {scope child : Scope} :
    e.toExcept workflow stepId scope = .ok child ↔ e = .finished ∧ child = scope := by
  cases e <;> simp [toExcept, eq_comm]

theorem Visit.Descent.arrive_ok {d : Descent σ} {stepId : String} {inner : Trail} {x : Visited} :
    d.arrive stepId inner = .ok x ↔
      inner.ending = .finished ∧ ∃ writes, d.handedBack inner.scope = .ok writes ∧
        x = ⟨{ output := .record writes, writes }, d.context.properties⟩ := by
  constructor
  · intro came
    obtain ⟨child, writes, arrived, handed, rfl⟩ := deliver_ok came
    obtain ⟨finished, rfl⟩ := Ending.toExcept_ok.mp arrived
    exact ⟨finished, writes, handed, rfl⟩
  · rintro ⟨finished, writes, handed, rfl⟩
    simp only [arrive, finished, Ending.toExcept, deliver, outcome, handed]
    rfl

/-- A visit comes to the halt of its nested walk, if that is no failure. -/
theorem Visit.Descent.arrive_halt {d : Descent σ} {stepId : String} {inner : Trail} {halt : Halt}
    (h : d.arrive stepId inner = .error halt) (unreported : ∀ f, halt ≠ .fault f) :
    inner.ending.toExcept d.workflow stepId inner.scope = .error halt := by
  unfold arrive at h
  rcases ended : inner.ending.toExcept d.workflow stepId inner.scope with halt' | child <;>
    rw [ended] at h
  · cases h
    rfl
  · simp only [deliver] at h
    split at h <;> cases h
    exact absurd rfl (unreported _)

theorem Visit.Descent.arrive_aborted {d : Descent σ} {stepId : String} {inner : Trail} {a : Abort} :
    d.arrive stepId inner = .error (.aborted a) ↔ inner.ending = .aborted a := by
  constructor
  · intro h
    have cut := arrive_halt h nofun
    cases ended : inner.ending <;> rw [ended] at cut <;> cases cut
    rfl
  · intro h
    rw [arrive, h]
    rfl

theorem Visit.Descent.arrive_unfinished {d : Descent σ} {stepId : String} {inner : Trail} :
    d.arrive stepId inner = .error .unfinished ↔ inner.ending = .unfinished := by
  constructor
  · intro h
    have cut := arrive_halt h nofun
    cases ended : inner.ending <;> rw [ended] at cut <;> cases cut
  · intro h
    rw [arrive, h]
    rfl

end Runbook
