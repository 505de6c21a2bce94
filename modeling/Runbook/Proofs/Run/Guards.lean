import Runbook.Proofs.Condition.Membership
import Runbook.Proofs.Run.Trail
import Runbook.Proofs.Visit.Control
import Runbook.Proofs.Walk.Revisit

/-! What a run makes of its guards.

The condition of a branch or a loop is evaluated as it was written, in the variables that the walk
has at that visit. Where it has a value the walk goes that way. Where it is refused the walk goes
the way of a condition that does not hold, and the step tells of an error, but for a loop that the
walk comes to for the first time: that is passed by. A condition may also fail without being
refused, and then the node fails. -/
namespace Runbook

open Visit

variable {σ : Type}

/-! ### One visit -/

namespace Visiting

variable {v : Visiting σ}

/-- What the condition of the node comes to where it is visited. -/
def guard (v : Visiting σ) : Except Fault Bool :=
  Condition.evaluate v.node.condition v.place.scope

/-- Every operand of the condition has a text where the node is visited. -/
def OperandsResolve (v : Visiting σ) : Prop :=
  ∀ ts, Condition.tokenize v.node.condition = .ok ts → Condition.Resolves v.place.scope ts

/-- The visit can come to nothing but an outcome that takes this branch. The step is closed from
that outcome, is the next one in the record, and puts out the branch; the walk goes on by the
branch, with the variables as they are. -/
structure Takes (v : Visiting σ) (b : Bool) (step : Step) (x : Visited) : Prop where
  comes : ∀ r s, v.ComesTo r s ↔ r = .ok x ∧ s = v.begun
  closed : step = Recorder.Closing.apply x.closing v.opened.step
  recorded : (v.begun.leave (v.station (.ok x))).recorder.record.steps =
    v.session.recorder.record.steps ++ [step]
  output : step.output = .bool b
  onward : v.onward (.ok x) =
    Walk.follow v.place v.node (v.walk.workflow.successor v.node (some b)) v.place.scope

/-- A step whose visit takes a branch, and what it tells of the guard. A guard that has a value leads
the way of that. One that is refused leads the false way, and is told as an error where it
counts. -/
structure Absorbs (v : Visiting σ) (counts : Prop) (b : Bool) (step : Step) (x : Visited) : Prop
    extends v.Takes b step x where
  error : step.status = .error ↔ (∃ message, v.guard = .error (.condition message)) ∧ counts
  success : step.status ≠ .error → step.status = .success ∧ step.error = none
  refused : ∀ message, v.guard = .error (.condition message) →
    b = false ∧ (step.status = .error → step.error = some message)
  value : ∀ c, v.guard = .ok c → b = c

/-- The visit can come to nothing but this failure of its node. -/
def Fails (v : Visiting σ) (f : Fault) : Prop :=
  ∀ r s, v.ComesTo r s ↔ r = .error (.fault f) ∧ s = v.begun

theorem comesTo_iff {r : Except Halt Visited} {s : Session σ} (visit : v.prelude = (.settled r, s))
    (r' : Except Halt Visited) (s' : Session σ) : v.ComesTo r' s' ↔ r' = r ∧ s' = s := by
  constructor
  · exact fun came => came.unique (.plain visit)
  · rintro ⟨rfl, rfl⟩
    exact .plain visit

theorem takes_of_decided {o : Outcome} {properties : List (String × String)}
    (visit : v.prelude = (.settled (.ok ⟨o, properties⟩), v.begun)) (decided : o.Decided) {b : Bool}
    (way : o.branch = some b) (sound : v.session.recorder.Sound) :
    v.Takes b (Recorder.Closing.apply (Visited.closing ⟨o, properties⟩) v.opened.step)
      ⟨o, properties⟩ := by
  have comes := comesTo_iff visit
  have bound : v.place.scope.setAll o.writes = (v.place.scope, none) := by
    rw [decided.writes]
    rfl
  have closing : v.walk.closing? v.place.scope (.ok ⟨o, properties⟩) = some _ :=
    v.walk.closing?_bound (congrArg Prod.snd bound)
  obtain ⟨inside, -, left, -⟩ := ((comes _ _).mpr ⟨rfl, rfl⟩).leaves sound
  refine ⟨comes, rfl, ?_, ?_, ?_⟩
  · rw [left]
    show v.session.recorder.record.steps ++ (v.station (.ok ⟨o, properties⟩)).recorded = _
    rw [Station.recorded, show (v.station (.ok ⟨o, properties⟩)).closing = _ from closing]
    rfl
  · obtain ⟨c, same, output⟩ := decided.branch
    cases way.symm.trans same
    exact output
  · rw [Visiting.onward, v.walk.onward_bound v.place v.node (congrArg Prod.snd bound), way, bound]

/-- A guard that is refused is absorbed. -/
theorem absorbs_refused {skips : Bool} {message : String} {properties : List (String × String)}
    {counts : Prop} (refused : v.guard = .error (.condition message))
    (visit : v.prelude =
      (.settled (.ok ⟨decided skips (false, some message), properties⟩), v.begun))
    (sound : v.session.recorder.Sound) (skipped : skips = false ↔ counts) :
    ∃ b step x, v.Absorbs counts b step x := by
  have known : ∃ message, v.guard = .error (.condition message) := ⟨message, refused⟩
  have same (other : String) (h : v.guard = .error (.condition other)) : other = message := by
    cases refused.symm.trans h
    rfl
  have unvalued (c : Bool) (value : v.guard = .ok c) : false = c := by
    cases refused.symm.trans value
  have takes (way) := takes_of_decided (b := false) visit (decided_decided skips _) way sound
  cases skips with
  | false =>
    exact ⟨false, _, _, { takes rfl with
      error := iff_of_true rfl ⟨known, skipped.mp rfl⟩
      success := fun other => absurd rfl other
      refused := fun other h => ⟨rfl, fun _ => congrArg some (same other h).symm⟩
      value := unvalued }⟩
  | true =>
    exact ⟨false, _, _, { takes rfl with
      error := iff_of_false nofun fun ⟨_, counts⟩ => Bool.noConfusion (skipped.mpr counts)
      success := fun _ => ⟨rfl, rfl⟩
      refused := fun other _ => ⟨rfl, nofun⟩
      value := unvalued }⟩

/-- Where the properties are filled, the guard is absorbed, or the node fails because an operand of
it is nested too deeply. -/
theorem absorbs_or_fails {kind : Kind} {properties : List (String × String)} {counts : Prop}
    (known : v.walk.registry.handler? v.node.kind = some kind)
    (guards : kind = .branch ∨ kind = .loop)
    (filled : fillProperties v.place.scope v.node.properties = .ok properties)
    (resolves : v.OperandsResolve) (sound : v.session.recorder.Sound)
    (skipped : (kind == .loop && Walk.isFirst v.place v.node) = false ↔ counts) :
    v.guard ≠ .error .tooDeep ∧ (∃ b step x, v.Absorbs counts b step x) ∨
      v.guard = .error .tooDeep ∧ v.Fails .tooDeep ∧
        ∃ ts, Condition.tokenize v.node.condition = .ok ts ∧
          Condition.Oversized v.place.scope ts := by
  have settles := settles_condition known guards filled
  unfold Condition.evaluateOrFalse at settles
  rw [← guard] at settles
  rcases came : v.guard with f | c <;> rw [came] at settles
  · rcases Condition.evaluate_error resolves came with ⟨message, rfl⟩ | ⟨rfl, oversized⟩
    · exact .inl ⟨by simp, absorbs_refused came settles sound skipped⟩
    · exact .inr ⟨rfl, comesTo_iff settles, oversized⟩
  · have unrefused (message : String) : v.guard ≠ .error (.condition message) := by simp [came]
    have succeeds : StepStatus.success ≠ .error := by decide
    refine .inl ⟨by simp, c, _, _, { takes_of_decided settles (decided_decided _ _) rfl sound with
      error := iff_of_false succeeds ?_
      success := fun _ => ⟨rfl, rfl⟩
      refused := fun message refused => absurd refused (unrefused message)
      value := fun d value => Except.ok.inj (came.symm.trans value) }⟩
    rintro ⟨⟨message, refused⟩, -⟩
    exact unrefused message refused

end Visiting

/-! ### Runs -/

namespace Start

/-- The walk that makes the visit came to the node before: under the same visits, and from behind
that visit it came to this one. -/
def CameBefore (r : Start σ) (world : σ) (above : List (Visiting σ)) (v : Visiting σ) : Prop :=
  ∃ u, r.Comes world (above ++ [u]) ∧ u.Precedes v ∧ u.node = v.node

variable {r : Start σ} {world : σ} {above : List (Visiting σ)} {v : Visiting σ}

theorem Comes.isFirst_eq_false (comes : r.Comes world (above ++ [v])) :
    Walk.isFirst v.place v.node = false ↔ r.CameBefore world above v := by
  refine Iff.trans ?_ (Walk.Comes.visited_iff comes)
  simp [Walk.isFirst]

/-- A loop whose condition is no truth value, and which leads to itself. -/
def wavering : Node :=
  { id := "loop", kind := "while", properties := [("condition", "maybe")]
    falseNext := some "loop" }

def entering : Visiting (List Record) :=
  ⟨(handing wavering found).outermost, { current := "loop", scope := ⟨[]⟩ }, wavering,
    (handing wavering found).session []⟩

/-- The loop is passed by. -/
def passedBy : Except Halt Visited :=
  .ok ⟨{ output := .bool false, branch := some false }, wavering.properties⟩

def reentering : Visiting (List Record) :=
  { entering with
    place := { current := "loop", visited := ["loop"], scope := ⟨[]⟩ }
    session := entering.begun.leave (entering.station passedBy) }

/-- Asks whether a variable contains what another one holds. -/
def containing : Node :=
  { id := "c", kind := "if"
    properties := [("condition", "\x7b\x7bxs\x7d\x7d contains \x7b\x7by\x7d\x7d")] }

/-- A variable that is no list, but starts with more brackets than can be read. -/
def bracketed : Start (List Record) :=
  { handing containing found with
    bindings := [("xs", .str (String.ofList (List.replicate 20000 '['))), ("y", .str "x")] }

def atBrackets : Visiting (List Record) :=
  ⟨bracketed.outermost, { current := "c", scope := ⟨bracketed.bindings⟩ }, containing,
    bracketed.session []⟩

end Start
end Runbook
