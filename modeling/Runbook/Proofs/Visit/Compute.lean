import Runbook.Proofs.Expression
import Runbook.Proofs.Expression.Rendered
import Runbook.Proofs.Run.Passing
import Runbook.Proofs.Template.Source
import Runbook.Proofs.Visit.Consent
import Runbook.Proofs.Visit.Request

/-! What a node comes to that computes.

It binds the value of its expression to its name, and whatever becomes of the clipboard does not
matter as long as the call comes back. So it succeeds where the expression has a value, and fails
where it has none: a remainder of a number beyond the range of the format ends the run.

A node that computes of two variables sees their texts and not their values. Where both numbers are
written positionally it stores the number that the operation gives; where one of them is written
with a power of ten, nothing is computed, and what it stores is the text. -/
namespace Runbook

open Visit

variable {σ : Type}

/-- Writing to the clipboard comes back, be it with a failure. -/
def Context.ClipboardEnds (c : Context σ) (s : Session σ) : Prop :=
  ∀ host, c.providers.host = some host → ∀ text,
    (host.writeClipboard text s.world).result = .returned () ∨
      ∃ f, (host.writeClipboard text s.world).result = .raised f

namespace Visit

variable {c : Context σ} {s : Session σ}

/-- No failure gets out of the copying. -/
theorem copy_succeeds (ends : c.ClipboardEnds s) {host : HostProvider σ}
    (offered : c.providers.host = some host) (v : Value) :
    ∃ copied s', (copy host v).succeeds s = (.ok copied, s') := by
  unfold copy
  cases Literal.stringify v with
  | error f => exact ⟨false, s, rfl⟩
  | ok text =>
    have opened : Act.ofExcept (Except.ok text) >>= (fun text => Act.call (host.writeClipboard text)) =
        Act.call (host.writeClipboard text) := rfl
    rw [opened]
    obtain returned | ⟨f, raised⟩ := ends host offered text
    · exact ⟨true, _, by simp only [Act.succeeds, Act.call, returned]; rfl⟩
    · exact ⟨false, _, by simp only [Act.succeeds, Act.call, raised]; rfl⟩

/-- Behind the name that the node is given, all is up to the expression. -/
theorem compute_eq (named : c.trimmed "name" ≠ "") :
    compute c = (Act.ofExcept (Expression.evaluate (c.property "value")) >>= fun v => do
      if c.trimmed "name" == clipboardName then
        match c.providers.host with
        | some host => let _ ← (copy host v).succeeds
        | none => pure ()
      return { output := v, writes := [(c.trimmed "name", v)] }) := by
  have shown : (c.trimmed "name").isEmpty = false := by simpa using named
  unfold compute
  simp only [shown]
  rfl

theorem compute_of_value (named : c.trimmed "name" ≠ "") (ends : c.ClipboardEnds s) {v : Value}
    (computed : Expression.evaluate (c.property "value") = .ok v) :
    ∃ s', compute c s = (.ok { output := v, writes := [(c.trimmed "name", v)] }, s') := by
  rw [compute_eq named, computed]
  cases kept : c.trimmed "name" == clipboardName with
  | false => exact ⟨s, rfl⟩
  | true =>
    cases offered : c.providers.host with
    | none => exact ⟨s, rfl⟩
    | some host =>
      obtain ⟨copied, s', came⟩ := copy_succeeds ends offered v
      exact ⟨s', Act.bind_eq_ok.mpr ⟨v, s, rfl, Act.bind_eq_ok.mpr ⟨copied, s', came, rfl⟩⟩⟩

theorem compute_of_fault (named : c.trimmed "name" ≠ "") {f : Fault}
    (failed : Expression.evaluate (c.property "value") = .error f) :
    compute c s = (.error (.fault f), s) := by
  rw [compute_eq named, failed]
  rfl

/-- An expression has a value unless it is the remainder of a number beyond the range of the format;
a named node binds that value, whatever becomes of the clipboard, and fails where there is none. -/
theorem compute_unless_undefined (c : Context σ) (s : Session σ) (named : c.trimmed "name" ≠ "")
    (ends : c.ClipboardEnds s) :
    (∀ text, (∃ v, Expression.evaluate text = .ok v) ↔ ¬ Expression.Undefined text) ∧
      (¬ Expression.Undefined (c.property "value") → ∃ v s',
        Expression.evaluate (c.property "value") = .ok v ∧
          compute c s = (.ok { output := v, writes := [(c.trimmed "name", v)] }, s')) ∧
      (Expression.Undefined (c.property "value") →
        compute c s = (.error (.fault (.badValue "math domain error")), s)) := by
  refine ⟨fun text => ?_, fun defined => ?_, fun undefined => ?_⟩
  · obtain ⟨undefined, failed⟩ | ⟨defined, v, computed⟩ := Expression.evaluate_cases text
    · refine iff_of_false (fun ⟨v, computed⟩ => ?_) (not_not_intro undefined)
      cases failed.symm.trans computed
    · exact iff_of_true ⟨v, computed⟩ defined
  · obtain ⟨undefined, -⟩ | ⟨-, v, computed⟩ := Expression.evaluate_cases (c.property "value")
    · exact absurd undefined defined
    · obtain ⟨s', came⟩ := compute_of_value named ends computed
      exact ⟨v, s', computed, came⟩
  · obtain ⟨-, failed⟩ | ⟨defined, -⟩ := Expression.evaluate_cases (c.property "value")
    · exact compute_of_fault named failed
    · exact absurd undefined defined

/-- A node that computes an expression, and whose clipboard cannot be written. -/
def reckoning (name value : String) : Context (List Called) :=
  { drafting "" none with
    properties := [("name", name), ("value", value)]
    providers :=
      { (drafting "" none).providers with
        host := some
          { openFile := fun path => noting (.openFile path) ()
            execute := fun id path => noting (.execute id path) ()
            writeClipboard := fun text world =>
              { world := world ++ [.writeClipboard text], result := .raised (.badValue text) } } } }

theorem reckoning_ends (name value : String) : (reckoning name value).ClipboardEnds fresh := by
  intro host offered text
  cases offered
  exact .inr ⟨_, rfl⟩

theorem reckoning_value (name value : String) : (reckoning name value).property "value" = value :=
  Context.property_eq rfl

theorem compute_clipboard_lost :
    ∃ v s', Expression.evaluate "1 / 0" = .ok v ∧ compute (reckoning clipboardName "1 / 0") fresh =
      (.ok { output := v, writes := [(clipboardName, v)] }, s') := by
  have value : Expression.evaluate "1 / 0" = .ok (.int 0) := by rfl
  have defined : ¬ Expression.Undefined "1 / 0" :=
    (compute_unless_undefined _ _ (by decide) (reckoning_ends clipboardName "1 / 0")).1 _ |>.mp
      ⟨_, value⟩
  exact (compute_unless_undefined _ _ (by decide) (reckoning_ends clipboardName "1 / 0")).2.1 defined

/-- Ten to the power of 309, of which the remainder by three is taken. -/
def boundless : String :=
  String.ofList ('1' :: (List.replicate 309 '0' ++ [' ', '%', ' ', '3']))

theorem boundless_undefined : Expression.Undefined boundless := by
  let c : Expression.Calculation :=
    { left := some ⟨false, '1' :: List.replicate 309 '0', [], nofun,
        List.all_eq_true.mp (by decide +kernel)⟩
      before := [' ']
      op := .rem
      after := [' ']
      right := some ⟨false, ['3'], [], nofun, List.all_eq_true.mp (by decide +kernel)⟩
      blank_before := Expression.blank_space
      blank_after := Expression.blank_space
      some_operand := .inl rfl }
  have text : boundless.toList = c.text := String.toList_ofList.trans (by decide +kernel)
  refine ⟨c, ?_, rfl, ⟨false, by decide +kernel⟩, by decide +kernel⟩
  rw [text, c.trim_text (.inl rfl) (.inl rfl)]

/-- The remainder of a number beyond the range of the format fails, and the node with it. -/
theorem compute_boundless :
    Expression.evaluate boundless = .error (.badValue "math domain error") ∧
      compute (reckoning "x" boundless) fresh =
        (.error (.fault (.badValue "math domain error")), fresh) := by
  obtain ⟨-, failed⟩ | ⟨defined, -⟩ := Expression.evaluate_cases boundless
  · refine ⟨failed, compute_of_fault (by decide) ?_⟩
    rwa [reckoning_value]
  · exact absurd boundless_undefined defined

end Visit
end Runbook

/-! ### Arithmetic on variables -/

namespace Runbook.Visit

open Expression Literal Number Template

variable {σ : Type} {c : Context σ} {s : Session σ}

def IsNumber (v : Value) : Prop := (∃ n, v = .int n) ∨ ∃ x, v = .float x

theorem isNumber_normalize (x : Binary64) : IsNumber (Literal.normalize x) := by
  unfold Literal.normalize
  cases x.toInt? with
  | some n => exact .inl ⟨n, rfl⟩
  | none => exact .inr ⟨x, rfl⟩

theorem isNumber_of_apply {x y : Binary64} {op : Op} {v : Value} (h : apply x op y = .ok v) :
    IsNumber v := by
  cases op with
  | add | sub | mul =>
    cases h
    exact isNumber_normalize _
  | div =>
    cases h
    split
    · exact .inl ⟨0, rfl⟩
    · exact isNumber_normalize _
  | rem =>
    rw [apply] at h
    split at h
    · cases h
      exact .inl ⟨0, rfl⟩
    · split at h
      · cases h
        exact isNumber_normalize _
      · cases h

/-- Of two finite numbers every operation has a result. -/
theorem exists_apply {v w : Value} {x y : Binary64} (hx : Finite v x) (hy : Finite w y) (op : Op) :
    ∃ r, apply x op y = .ok r := by
  have number : y ≠ .nan := by
    rintro rfl
    cases hy.isFinite
  obtain ⟨⟨-, ⟨negative, rfl⟩, -⟩, -⟩ | ⟨-, value⟩ := apply_cases op x number
  · cases hx.isFinite
  · exact value

/-- What is computed of the texts of two finite numbers is their result if both are written
positionally, and else their texts as they are. -/
theorem evaluate_texts {v w : Value} {x y : Binary64} (hx : Finite v x) (hy : Finite w y) (op : Op) :
    ∃ left right stored, stringify v = .ok left ∧ stringify w = .ok right ∧
      evaluate (spaced left op right) = .ok stored ∧
      (IsPositional v ∧ IsPositional w → apply x op y = .ok stored) ∧
      (¬ (IsPositional v ∧ IsPositional w) → stored = .str (spaced left op right)) := by
  obtain ⟨left, leftWritten, some_left, leftSolid, leftRead, leftPower⟩ := hx.exists_text
  obtain ⟨right, rightWritten, some_right, rightSolid, rightRead, rightPower⟩ := hy.exists_text
  by_cases both : IsPositional v ∧ IsPositional w
  · obtain ⟨l, leftChars, rfl⟩ := leftRead both.1
    obtain ⟨r, rightChars, rfl⟩ := rightRead both.2
    obtain ⟨stored, value⟩ := exists_apply hx hy op
    exact ⟨left, right, stored, leftWritten, rightWritten,
      (evaluate_spaced op leftChars rightChars).trans value, fun _ => value, absurd both⟩
  · have power : 'e' ∈ left.toList ++ right.toList := by
      by_cases first : IsPositional v
      · exact List.mem_append_right _ (rightPower fun second => both ⟨first, second⟩)
      · exact List.mem_append_left _ (leftPower first)
    have solid := List.forall_mem_append.mpr ⟨leftSolid, rightSolid⟩
    exact ⟨left, right, _, leftWritten, rightWritten,
      evaluate_scientific op some_left some_right solid power, fun h => absurd h both, fun _ => rfl⟩

/-- A node that computes of two variables with finite numbers stores a number where both are written
without a power of ten, and their texts where one is written with one. -/
theorem compute_variables {x y : String} {v w : Value} {a b : Binary64} (op : Op) (hx : IsName x)
    (hy : IsName y) (leftBound : c.scope.get? x = some v) (rightBound : c.scope.get? y = some w)
    (leftFinite : Finite v a) (rightFinite : Finite w b) (filled : c.Filled)
    (given : c.node.property? "value" = some (spaced (holeFor x) op (holeFor y)))
    (named : c.trimmed "name" ≠ "") (ends : c.ClipboardEnds s) :
    ∃ left right stored s', stringify v = .ok left ∧ stringify w = .ok right ∧
      compute c s = (.ok { output := stored, writes := [(c.trimmed "name", stored)] }, s') ∧
      (IsNumber stored ↔ IsPositional v ∧ IsPositional w) ∧
      (IsPositional v ∧ IsPositional w → apply a op b = .ok stored) ∧
      (¬ (IsPositional v ∧ IsPositional w) → stored = .str (spaced left op right)) := by
  obtain ⟨left, right, stored, leftWritten, rightWritten, computed, number, text⟩ :=
    evaluate_texts leftFinite rightFinite op
  have plain : '{' ∉ (" " ++ String.singleton op.char ++ " ").toList := by cases op <;> decide
  have between (l r : String) :
      l ++ (" " ++ String.singleton op.char ++ " ") ++ r = spaced l op r := by
    simp only [spaced, String.append_assoc]
  have resolved := resolve_between hx hy leftBound rightBound leftWritten rightWritten plain
  rw [between, between] at resolved
  have same := resolved.symm.trans (filled.property rfl given)
  rw [Except.ok.inj same] at computed
  obtain ⟨s', came⟩ := compute_of_value named ends computed
  refine ⟨left, right, stored, s', leftWritten, rightWritten, came, ⟨fun kept => ?_, fun both => ?_⟩,
    number, text⟩
  · by_contra other
    rw [text other] at kept
    obtain ⟨n, same⟩ | ⟨z, same⟩ := kept <;> cases same
  · exact isNumber_of_apply (number both)

/-- A node that adds one to a variable, with the text that its expression is filled to. -/
def adding (v : Value) (filled : String) : Context (List Called) :=
  { reckoning "z" filled with
    node :=
      { id := "n"
        kind := "set"
        properties := [("name", "z"), ("value", "\x7b\x7bx\x7d\x7d + \x7b\x7by\x7d\x7d")] }
    scope := ⟨[("x", v), ("y", .int 1)]⟩ }

/-- One half. -/
def half : Value := .float (.finite false ⟨4602678819172646912, by decide⟩)

/-- The float for `10 ^ -7`. -/
def tiny : Value := .float (.finite false ⟨4502148214488346440, by decide⟩)

theorem adding_given (v : Value) (filled : String) :
    (adding v filled).node.property? "value" = some (spaced (holeFor "x") .add (holeFor "y")) := by
  have written : spaced (holeFor "x") .add (holeFor "y") =
      "\x7b\x7bx\x7d\x7d + \x7b\x7by\x7d\x7d" := by decide
  rw [written]
  rfl

theorem finite_one : Finite (.int 1) (.ofInt 1) := .int (by decide +kernel)

/-- One half and one are added. -/
theorem compute_half : ∃ stored s', compute (adding half "0.5 + 1") fresh =
    (.ok { output := stored, writes := [("z", stored)] }, s') ∧ IsNumber stored := by
  have filled : (adding half "0.5 + 1").Filled := by
    unfold Context.Filled
    decide +kernel
  have positional : IsPositional half := .inr ⟨by decide +kernel, by decide +kernel⟩
  obtain ⟨left, right, stored, s', -, -, came, number, -⟩ :=
    compute_variables .add ⟨'x', [], rfl, rfl, nofun⟩ ⟨'y', [], rfl, rfl, nofun⟩ rfl rfl
      (.float _ _) finite_one filled (adding_given half _) (by decide) (reckoning_ends "z" "0.5 + 1")
  exact ⟨stored, s', came, number.mpr ⟨positional, trivial⟩⟩

/-- To the float for `10 ^ -7` nothing is added. -/
theorem compute_tiny :
    (∃ x, Finite tiny x) ∧ (adding tiny "1e-07 + 1").Filled ∧
      compute (adding tiny "1e-07 + 1") fresh =
        (.ok { output := .str "1e-07 + 1", writes := [("z", .str "1e-07 + 1")] }, fresh) := by
  refine ⟨⟨_, .float _ _⟩, ?_, by rfl⟩
  unfold Context.Filled
  decide +kernel

end Runbook.Visit
