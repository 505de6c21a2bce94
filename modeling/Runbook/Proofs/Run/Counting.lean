import Runbook.Proofs.Condition.Comparison
import Runbook.Proofs.Run.Order

/-! Runs that count.

A workflow sets a variable to zero and adds one to it as long as it is less than a number. The
number goes through text at every turn: into the condition and the expression, which read it back
into 64 bits. Up to `2 ^ 53` nothing is lost on that way, so the run makes as many turns as the
number says, and leaves it behind (`Start.run_counting`). -/
namespace Runbook

open Visit Template

variable {σ : Type}

/-! ### Walks that finish -/

/-- What a step tells of its visit: whose it was, how it ended, and what came of it. -/
def Step.told (s : Step) : String × StepStatus × Value := (s.nodeId, s.status, s.output)

/-- From a calm session the walk goes on to its end, with these steps and this scope. -/
def Walk.Finishes (w : Walk σ) (p : Progress) (steps : List (String × StepStatus × Value))
    (scope : Scope) : Prop :=
  ∀ s : Session σ, s.Calm → ∃ t s', Walks w p s t s' ∧ t.ending = .finished ∧ t.scope = scope ∧
    t.steps.map Step.told = steps ∧ t.height = steps.length

/-- From a node on the walk goes on to its end, whatever it visited before. -/
def Walk.FinishesFrom (w : Walk σ) (id : String) (scope : Scope)
    (steps : List (String × StepStatus × Value)) (final : Scope) : Prop :=
  ∀ visited, w.Finishes (.goOn ⟨id, visited, scope⟩) steps final

namespace Walk.Finishes

variable {w : Walk σ} {place : Place} {n : Node} {x : Visited} {scope : Scope}
  {steps : List (String × StepStatus × Value)}

theorem ended (scope : Scope) : w.Finishes (.ended .finished scope) [] scope :=
  fun s _ => ⟨_, s, .ended, rfl, rfl, rfl, rfl⟩

/-- A visit that binds names and calls no provider stands before what the walk does behind it. -/
theorem visit (here : w.workflow.node? place.current = some n)
    (settles : ∀ s : Session σ, (Visiting.mk w place n s).prelude =
      (.settled (.ok x), (Visiting.mk w place n s).begun)) {between : Scope}
    (binds : place.scope.setAll x.outcome.writes = (between, none)) {target : Option String}
    (next : w.workflow.successor n x.outcome.branch = target)
    (behind : w.Finishes (follow place n target between) steps scope) :
    w.Finishes (.goOn place) ((w.stepId n, x.outcome.status, x.outcome.output) :: steps) scope := by
  intro s calm
  let v : Visiting σ := ⟨w, place, n, s⟩
  have bound : (place.scope.setAll x.outcome.writes).2 = none := congrArg Prod.snd binds
  have onward : w.onward place n (.ok x) = follow place n target between := by
    rw [w.onward_bound place n bound, next, binds]
  obtain ⟨rest, s', walks, ending, final, told, height⟩ :=
    behind _ (Visiting.calm_behind (v := v) calm (.ok x))
  rw [← onward] at walks
  refine ⟨_, s', .plain calm.quiet here (settles s) walks, ending, final, ?_, ?_⟩
  · have closed : (w.station place n s (.ok x)).closing = some x.closing := w.closing?_bound bound
    rw [Trail.steps, Station.recorded, closed, List.singleton_append, List.map_cons, told]
    rfl
  · rw [Trail.height, height, List.length_cons]

end Walk.Finishes

/-! ### The workflow -/

namespace Counting

/-- Sets the variable to zero. -/
def init : Node :=
  { id := "init", kind := "variable", properties := [("name", "n"), ("value", "0")] }

/-- Goes on as long as the variable is less than a number. -/
def loop (k : Nat) : Node :=
  { id := "loop", kind := "while"
    properties := [("condition", "\x7b\x7bn\x7d\x7d < " ++ toString k)], falseNext := some "done" }

/-- Adds one to the variable. -/
def inc : Node :=
  { id := "inc", kind := "set"
    properties := [("name", "n"), ("value", "\x7b\x7bn\x7d\x7d + 1")], next := some "loop" }

/-- The nodes of a workflow that counts to a number, and then comes to a last one. -/
def nodes (k : Nat) (done : Node) : List Node := [init, loop k, inc, done]

/-- The bindings where the variable has come to a number. -/
def counted (bindings : List (String × Value)) (m : Nat) : Scope :=
  ⟨Entries.insert "n" (.int m) bindings⟩

/-- The last node binds a literal to another variable, in a scope, and nothing follows it. -/
structure Closes (done : Node) (scope : Scope) (name : String) (value : Value) : Prop where
  id : done.id = "done"
  kind : done.kind = "variable"
  last : ∀ target, Workflow.pointed? done.next = some target → target = Workflow.endMark
  filled : ∃ properties, fillProperties scope done.properties = .ok properties ∧
    Text.trimmed ((Entries.get? "name" properties).getD "") = name ∧
    Literal.coerce ((Entries.get? "value" properties).getD "") = value
  named : name ≠ ""
  other : name ≠ "n"

/-- What the steps of so many turns tell, from a number on. -/
def turns (w : Walk σ) (m count : Nat) : List (String × StepStatus × Value) :=
  (List.range' m count).flatMap fun (i : Nat) =>
    [(w.path ++ "loop", .success, .bool true), (w.path ++ "inc", .success, .int (i + 1 : Nat))]

theorem length_turns (w : Walk σ) (m count : Nat) : (turns w m count).length = 2 * count := by
  simp [turns, List.length_flatMap, Nat.mul_comm]

variable {w : Walk σ} {k m : Nat} {done : Node} {bindings : List (String × Value)}
  {steps : List (String × StepStatus × Value)} {final : Scope}

theorem isName_n : IsName "n" := ⟨'n', [], rfl, by decide, nofun⟩

theorem get?_counted (bindings : List (String × Value)) (m : Nat) :
    (counted bindings m).get? "n" = some (.int m) := Entries.get?_insert_self ..

theorem setAll_counted (bindings : List (String × Value)) (m n : Nat) :
    (counted bindings m).setAll [("n", .int n)] = (counted bindings n, none) := by
  show (Scope.mk (Entries.insert "n" (.int n) (Entries.insert "n" (.int m) bindings)), none) = _
  rw [Entries.insert_insert]
  rfl

/-- The condition holds as long as the number is less. -/
theorem evaluate_condition (bindings : List (String × Value))
    (hm : m ≤ Number.Binary64.wholeLimit) (hk : k ≤ Number.Binary64.wholeLimit) :
    Condition.evaluate ("\x7b\x7bn\x7d\x7d < " ++ toString k) (counted bindings m) =
      .ok (decide (m < k)) := by
  have written : "\x7b\x7bn\x7d\x7d < " = holeFor "n" ++ " < " := by decide
  rw [written]
  exact Condition.evaluate_less isName_n hm hk (get?_counted bindings m)

/-- The expression is the next number. -/
theorem evaluate_expression (bindings : List (String × Value))
    (small : m + 1 ≤ Number.Binary64.wholeLimit) :
    ∃ text, resolve "\x7b\x7bn\x7d\x7d + 1" (counted bindings m) = .ok text ∧
      Expression.evaluate text = .ok (.int (m + 1 : Nat)) := by
  have written : "\x7b\x7bn\x7d\x7d + 1" = holeFor "n" ++ " + 1" := by decide
  have shown := Literal.stringify_nat (Nat.le_of_succ_le small)
  have plain : '{' ∉ " + 1".toList := by decide
  refine ⟨_, written ▸ resolve_front isName_n
    (lookup_name isName_n (get?_counted bindings m)) shown plain, ?_⟩
  have computed := Expression.evaluate_add small
  rwa [String.append_assoc] at computed

theorem trimmed_n : Text.trimmed "n" = "n" := by decide

theorem named_n : "n" ≠ "" := by decide

/-! ### The visits -/

section

variable (nodes : w.workflow.nodes = Counting.nodes k done) (builtin : w.registry = .builtin)
include nodes builtin

/-- The last node binds its literal, and the walk is at its end. -/
theorem finishes_done {scope : Scope} {name : String} {value : Value}
    (closes : Closes done scope name value) :
    w.FinishesFrom "done" scope [(w.stepId done, .success, value)]
      ⟨Entries.insert name value scope.bindings⟩ := by
  intro visited
  have here : w.workflow.node? "done" = some done := by
    rw [Workflow.node?, nodes]
    simp [Counting.nodes, init, loop, inc, closes.id]
  have known : w.registry.handler? done.kind = some .literal := by
    rw [builtin, closes.kind]
    rfl
  have successor : w.workflow.successor done none = none := by
    have plain : done.isBranch = false := by
      rw [Node.isBranch, closes.kind]
      rfl
    have nobody : w.workflow.positional done.id = none := by
      rw [Workflow.positional, nodes, closes.id]
      simp [Counting.nodes, init, loop, inc, closes.id, Workflow.idBehind]
    simp only [Workflow.successor, plain, nobody, Option.or_none]
    cases pointed : Workflow.pointed? done.next with
    | none => rfl
    | some target => rw [closes.last target pointed, if_pos rfl]
  obtain ⟨properties, filled, given, read⟩ := closes.filled
  have binds : scope.setAll [(name, value)] =
      (⟨Entries.insert name value scope.bindings⟩, none) := by
    simp [Scope.setAll, Scope.set, closes.named]
  refine .visit (x := ⟨{ output := value, writes := [(name, value)] }, properties⟩) here
    (fun s => Visiting.settles_literal known filled ?_ closes.named ?_) binds successor (.ended _)
  · rw [Context.trimmed, Context.property_getD]
    exact given
  · rw [Context.property_getD]
    exact read

/-- The loop looks at the number: where that is less it goes on, and otherwise to the last node. -/
theorem finishes_loop (hm : m ≤ Number.Binary64.wholeLimit) (hk : k ≤ Number.Binary64.wholeLimit)
    {next : String} (goes : (if m < k then "inc" else "done") = next)
    (behind : w.FinishesFrom next (counted bindings m) steps final) :
    w.FinishesFrom "loop" (counted bindings m)
      ((w.stepId (loop k), .success, .bool (decide (m < k))) :: steps) final := by
  intro visited
  have here : w.workflow.node? "loop" = some (loop k) := by
    rw [Workflow.node?, nodes]
    rfl
  have known : w.registry.handler? (loop k).kind = some .loop := by
    rw [builtin]
    rfl
  have successor : w.workflow.successor (loop k) (some (decide (m < k))) = some next := by
    unfold Workflow.successor Workflow.positional
    rw [nodes, ← goes]
    by_cases less : m < k
    · rw [decide_eq_true less, if_pos less]
      rfl
    · rw [decide_eq_false less, if_neg less]
      rfl
  have decides := evaluate_condition bindings hm hk
  exact .visit here (fun s => Visiting.settles_loop known rfl rfl decides) rfl successor (behind _)

/-- The number grows by one, and the walk is at the loop again. -/
theorem finishes_inc (small : m + 1 ≤ Number.Binary64.wholeLimit)
    (behind : w.FinishesFrom "loop" (counted bindings (m + 1)) steps final) :
    w.FinishesFrom "inc" (counted bindings m)
      ((w.stepId inc, .success, .int (m + 1 : Nat)) :: steps) final := by
  intro visited
  have here : w.workflow.node? "inc" = some inc := by
    rw [Workflow.node?, nodes]
    rfl
  have known : w.registry.handler? inc.kind = some .compute := by
    rw [builtin]
    rfl
  obtain ⟨text, resolved, computed⟩ := evaluate_expression bindings small
  have filled : fillProperties (counted bindings m) inc.properties =
      .ok [("name", "n"), ("value", text)] := by
    have name : resolve "n" (counted bindings m) = .ok "n" := resolve_plain (by decide) _
    have plain : isRaw "name" = false ∧ isRaw "value" = false := ⟨rfl, rfl⟩
    simp [fillProperties, inc, plain, name, resolved, bind, Except.bind, pure, Except.pure]
  have other : "n" ≠ clipboardName := by decide
  have successor : w.workflow.successor inc none = some "loop" := rfl
  refine .visit here (fun s => Visiting.settles_compute known filled ?_ named_n other ?_)
    (setAll_counted bindings m (m + 1)) successor (behind _)
  · rw [Context.trimmed, Context.property_getD]
    exact trimmed_n
  · rw [Context.property_getD]
    exact computed

/-- The number is set to zero, and the walk comes to the loop. -/
theorem finishes_init (behind : w.FinishesFrom "loop" (counted bindings 0) steps final) :
    w.FinishesFrom "init" ⟨bindings⟩ ((w.stepId init, .success, .int 0) :: steps) final := by
  intro visited
  have here : w.workflow.node? "init" = some init := by
    rw [Workflow.node?, nodes]
    rfl
  have known : w.registry.handler? init.kind = some .literal := by
    rw [builtin]
    rfl
  have successor : w.workflow.successor init none = some "loop" := by
    unfold Workflow.successor Workflow.positional
    rw [nodes]
    rfl
  have filled : fillProperties ⟨bindings⟩ init.properties = .ok init.properties := rfl
  have zero : Literal.coerce "0" = .int 0 := by
    have digit : toString 0 = "0" := rfl
    have read := Literal.coerce_toString (Nat.zero_le Number.Binary64.wholeLimit)
    rw [digit] at read
    exact read
  refine .visit here (fun s => Visiting.settles_literal known filled ?_ named_n ?_) rfl successor
    (behind _)
  · rw [Context.trimmed, Context.property_getD]
    exact trimmed_n
  · rw [Context.property_getD]
    exact zero

/-- The walk makes a turn for each number that is less. -/
theorem finishes_turns (hk : k ≤ Number.Binary64.wholeLimit)
    (behind : w.FinishesFrom "done" (counted bindings k) steps final)
    (count : Nat) (reached : m + count = k) :
    w.FinishesFrom "loop" (counted bindings m)
      (turns w m count ++ (w.stepId (loop k), .success, .bool false) :: steps) final := by
  -- on how many turns are left: each is the loop, the sum, and the turns behind them
  induction count generalizing m with
  | zero =>
    obtain rfl : m = k := reached
    have exhausted : ¬ m < m := Nat.lt_irrefl m
    have left := finishes_loop nodes builtin hk hk (if_neg exhausted) behind
    rwa [decide_eq_false exhausted] at left
  | succ count ih =>
    have less : m < k := by omega
    have again := ih (m := m + 1) (by omega)
    have adds := finishes_inc nodes builtin (Nat.le_trans less hk) again
    have held := finishes_loop nodes builtin (Nat.le_of_lt (Nat.lt_of_lt_of_le less hk)) hk
      (if_pos less) adds
    rw [decide_eq_true less] at held
    rw [turns, List.range'_succ, List.flatMap_cons]
    exact held

end
end Counting

/-! ### The run -/

namespace Start

open Counting

variable {r : Start σ} {k : Nat} {done : Node} {name : String} {value : Value}

/-- A run of a workflow that counts to a number up to `2 ^ 53` completes behind that many turns,
each of which finds the number before it less and adds one to it. In the end the variable is the
number itself. -/
theorem run_counting (small : k ≤ 2 ^ 53) (nodes : r.workflow.nodes = Counting.nodes k done)
    (closes : Closes done (counted r.bindings k) name value) (builtin : r.registry = .builtin)
    (quiet : r.fired = false) (unfired : ∀ l ∈ r.listeners, ∀ step x, (l step x).fires = false)
    (world : σ) {fuel : Nat} (enough : 2 * k + 3 < fuel) :
    ∃ t, r.Completes t (r.run fuel world) ∧
      t.steps.map Step.told =
        ("init", .success, .int 0) ::
          ((List.range k).flatMap fun (m : Nat) =>
            [("loop", .success, .bool true), ("inc", .success, .int (m + 1 : Nat))]) ++
          [("loop", .success, .bool false), ("done", .success, value)] ∧
      t.scope.get? "n" = some (.int k) := by
  have first : r.outermost.start ⟨r.bindings⟩ =
      .goOn { current := "init", scope := ⟨r.bindings⟩ } := by
    have entry : r.outermost.workflow.entry? = some Counting.init := congrArg List.head? nodes
    rw [Walk.start, Walk.start?, entry]
    rfl
  have calm : (r.session world).Calm := ⟨quiet, unfired⟩
  have closing := finishes_done (w := r.outermost) nodes builtin closes
  have counting := finishes_turns nodes builtin small closing k (Nat.zero_add k)
  obtain ⟨t, s, walks, ending, scope, told, height⟩ :=
    finishes_init nodes builtin counting [] _ calm
  rw [← first] at walks
  have leaves : r.Leaves world t s := walks
  have outside (n : Node) : r.outermost.stepId n = n.id := String.empty_append
  refine ⟨t, leaves.completes ending ?_, ?_, ?_⟩
  · rw [height]
    simp only [List.length_cons, List.length_append, length_turns, List.length_nil]
    omega
  · have path : r.outermost.path = "" := rfl
    have own : turns r.outermost 0 k = (List.range k).flatMap fun (m : Nat) =>
        [("loop", .success, .bool true), ("inc", .success, .int (m + 1 : Nat))] := by
      simp only [turns, path, String.empty_append, List.range_eq_range']
    rw [told, own, outside, outside, outside, closes.id]
    rfl
  · rw [scope, Scope.get?, Entries.get?_insert_of_ne value _ closes.other.symm]
    exact get?_counted r.bindings k

/-- Binds a text to another variable. -/
def finished : Node :=
  { id := "done", kind := "variable", properties := [("name", "result"), ("value", "finished")] }

/-- A run that counts to two. -/
def countsToTwo : Start (List Record) :=
  { providers := recordsOnly found
    workflow := { name := "count", nodes := Counting.nodes 2 finished } }

/-- The workflow as it is written. -/
def writtenCount : Value :=
  .record [("name", .str "count"), ("nodes", .list [
    .record [("id", .str "init"), ("type", .str "variable"), ("name", .str "n"), ("value", .int 0)],
    .record [("id", .str "loop"), ("type", .str "while"),
      ("condition", .str "\x7b\x7bn\x7d\x7d < 2"), ("falseNext", .str "done")],
    .record [("id", .str "inc"), ("type", .str "set"), ("name", .str "n"),
      ("value", .str "\x7b\x7bn\x7d\x7d + 1"), ("next", .str "loop")],
    .record [("id", .str "done"), ("type", .str "variable"), ("name", .str "result"),
      ("value", .str "finished")]])]

theorem run_counting_two :
    Workflow.ofValue writtenCount none = .ok countsToTwo.workflow ∧
      Closes finished (counted countsToTwo.bindings 2) "result" (.str "finished") ∧
      ∃ t, countsToTwo.Completes t (countsToTwo.run 8 []) ∧
        t.steps.map Step.told =
          [("init", .success, .int 0), ("loop", .success, .bool true), ("inc", .success, .int 1),
            ("loop", .success, .bool true), ("inc", .success, .int 2),
            ("loop", .success, .bool false), ("done", .success, .str "finished")] ∧
        t.scope.get? "n" = some (.int 2) := by
  have accepted : Workflow.ofValue writtenCount none = .ok countsToTwo.workflow := by
    with_unfolding_all rfl
  have closes : Closes finished (counted countsToTwo.bindings 2) "result" (.str "finished") :=
    { id := rfl
      kind := rfl
      last := nofun
      filled := ⟨finished.properties, rfl, by decide, rfl⟩
      named := by decide
      other := by decide }
  exact ⟨accepted, closes, run_counting (by decide) rfl closes rfl rfl nofun [] (by decide)⟩

end Start
end Runbook
