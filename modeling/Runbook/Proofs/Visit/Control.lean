import Runbook.Proofs.Walk.Isolation

/-! What visits come to that bind variables and decide conditions.

They call no provider and run no other workflow, so the session behind them is the one in which
their step was opened. -/
namespace Runbook

open Visit

variable {σ : Type}

namespace Visiting

variable {v : Visiting σ} {kind : Kind} {properties : List (String × String)}

/-- A visit whose properties are filled comes to what its kind makes of them. -/
theorem settles_of_handle (known : v.walk.registry.handler? v.node.kind = some kind)
    (plain : kind ≠ .nested)
    (filled : fillProperties v.place.scope v.node.properties = .ok properties) {o : Outcome}
    {s : Session σ} (handled : kind.handle (v.context properties) v.begun = (.ok o, s)) :
    v.prelude = (.settled (.ok ⟨o, properties⟩), s) := by
  rw [prelude_of_filled known filled, preludeOf, if_neg plain, handled]
  rfl

/-- A node that binds a literal binds it to the name that it is given. -/
theorem settles_literal (known : v.walk.registry.handler? v.node.kind = some .literal)
    (filled : fillProperties v.place.scope v.node.properties = .ok properties)
    {name : String} (given : (v.context properties).trimmed "name" = name) (named : name ≠ "")
    {value : Value} (read : Literal.coerce ((v.context properties).property "value") = value) :
    v.prelude =
      (.settled (.ok ⟨{ output := value, writes := [(name, value)] }, properties⟩), v.begun) := by
  refine settles_of_handle known nofun filled ?_
  subst given read
  have shown : ((v.context properties).trimmed "name").isEmpty = false := by simpa using named
  simp only [Kind.handle, literal, shown, Bool.false_eq_true, if_false]
  rfl

/-- A node that binds the value of an expression does so, if that has one. -/
theorem settles_compute (known : v.walk.registry.handler? v.node.kind = some .compute)
    (filled : fillProperties v.place.scope v.node.properties = .ok properties)
    {name : String} (given : (v.context properties).trimmed "name" = name) (named : name ≠ "")
    (other : name ≠ clipboardName) {value : Value}
    (computed : Expression.evaluate ((v.context properties).property "value") = .ok value) :
    v.prelude =
      (.settled (.ok ⟨{ output := value, writes := [(name, value)] }, properties⟩), v.begun) := by
  refine settles_of_handle known nofun filled ?_
  subst given
  have shown : ((v.context properties).trimmed "name").isEmpty = false := by simpa using named
  have elsewhere : ((v.context properties).trimmed "name" == clipboardName) = false := by
    simpa using other
  simp only [Kind.handle, compute, shown, computed, elsewhere, Bool.false_eq_true, if_false]
  rfl

/-- A visit whose properties cannot be filled comes to the failure of the first that cannot. -/
theorem settles_unfilled (known : v.walk.registry.handler? v.node.kind = some kind) {f : Fault}
    (unfilled : fillProperties v.place.scope v.node.properties = .error f) :
    v.prelude = (.settled (.error (.fault f)), v.begun) := by
  show Visit.prelude .. = _
  simp only [Visit.prelude, known, unfilled]

end Visiting

/-! ### Conditions -/

/-- The condition of a node as it was written; a missing one counts as empty. -/
def Node.condition (n : Node) : String := (n.property? "condition").getD ""

namespace Visit

/-- A condition is decided as it was written, or it fails for another reason than being refused. -/
theorem condition_eq (c : Context σ) (skips : Bool) (s : Session σ) :
    condition c skips s =
      (((Condition.evaluateOrFalse ((Entries.get? "condition" c.properties).getD "") c.scope).map
        (decided skips)).mapError Halt.fault, s) := by
  unfold condition
  cases Condition.evaluateOrFalse ((Entries.get? "condition" c.properties).getD "") c.scope <;> rfl

end Visit

namespace Visiting

variable {v : Visiting σ} {kind : Kind} {properties : List (String × String)}

/-- A branch or a loop comes to what its condition decides. Only a loop that is visited for the
first time skips a condition that has no value. -/
theorem settles_condition (known : v.walk.registry.handler? v.node.kind = some kind)
    (guards : kind = .branch ∨ kind = .loop)
    (filled : fillProperties v.place.scope v.node.properties = .ok properties) :
    v.prelude =
      (.settled (((Condition.evaluateOrFalse v.node.condition v.place.scope).map fun d =>
        ⟨decided (kind == .loop && Walk.isFirst v.place v.node) d, properties⟩).mapError
          Halt.fault), v.begun) := by
  have handled : kind.handle (v.context properties) =
      condition (v.context properties) (kind == .loop && Walk.isFirst v.place v.node) := by
    rcases guards with rfl | rfl <;> rfl
  have plain : kind ≠ .nested := by rcases guards with rfl | rfl <;> decide
  have written : (Entries.get? "condition" (v.context properties).properties).getD "" =
      v.node.condition := congrArg (Option.getD · "") (fillProperties_raw filled rfl)
  rw [prelude_of_filled known filled, preludeOf, if_neg plain, handled, condition_eq, written,
    show (v.context properties).scope = v.place.scope from rfl]
  cases Condition.evaluateOrFalse v.node.condition v.place.scope <;> rfl

/-- A loop decides for the value of its condition, if that has one. -/
theorem settles_loop (known : v.walk.registry.handler? v.node.kind = some .loop)
    (filled : fillProperties v.place.scope v.node.properties = .ok properties)
    {written : String} (given : v.node.property? "condition" = some written) {b : Bool}
    (decides : Condition.evaluate written v.place.scope = .ok b) :
    v.prelude =
      (.settled (.ok ⟨{ output := .bool b, branch := some b }, properties⟩), v.begun) := by
  have shown : v.node.condition = written := by rw [Node.condition, given, Option.getD_some]
  rw [settles_condition known (.inr rfl) filled, shown, Condition.evaluateOrFalse, decides]
  rfl

end Visiting
end Runbook
