import Runbook.Json.Reader
import Runbook.Json.Writer
import Runbook.Number.Numeral

/-! Literals: how values are written into text, and text is read as a value.

`stringify` is the text that a value leaves where it is substituted. `coerce` goes the other
way, and only where the text is the very one that `stringify` would write for the number;
so a text that is coerced and then substituted comes back character for character. -/
namespace Runbook.Literal

open Number

/-- The magnitude from which whole numbers of the floating format are written with an exponent. -/
def exponentFrom : Nat := Nat.pow 10 16

/-- The text of a value where it is substituted into text. -/
def stringify : Value → Except Fault String
  | .null => .ok ""
  | .bool b => .ok (if b then "true" else "false")
  | .int n =>
    match numeral? n with
    | some s => .ok s
    | none => .error (.badValue Json.lengthMessage)
  | .float x =>
    match x.toInt? with
    | some n => .ok (if n.natAbs < exponentFrom then toString n else plain.text x)
    | none => .ok (plain.text x)
  | .str s => .ok s
  | .scalar s => .ok s.display
  | v => Json.render Json.compact v

/-- The number that a value is or is written as; truth values are not numbers. -/
def number? : Value → Option (Int ⊕ Binary64)
  | .int n => some (.inl n)
  | .float x => some (.inr x)
  | .str s => (plain? s.toList).map .inr
  | _ => none

/-- A whole number is held as one. -/
def normalize (x : Binary64) : Value :=
  match x.toInt? with
  | some n => .int n
  | none => .float x

/-- The value of an authored literal: a number where the text is that number's own text. -/
def coerce (s : String) : Value :=
  match plain? s.toList with
  | none => .str s
  | some x =>
    match stringify (normalize x) with
    | .ok t => if t = s then normalize x else .str s
    | .error _ => .str s

/-- The part of a text inside its first code fence, or the text itself. -/
def unfenced (cs : List Char) : List Char :=
  let fence := ['`', '`', '`']
  match Text.cutAtWord fence cs with
  | none => cs
  | some (_, rest) =>
    let rest := (Text.after? "json".toList rest).getD rest
    match Text.cutAtWord fence (Text.trimStart rest) with
    | some (inside, _) => Text.trim inside
    | none => cs

/-- The value of data text, which may stand in a code fence; other values are as they are. -/
def load : Value → Except Fault Value
  | .str s => Json.parse (String.ofList (unfenced s.toList))
  | v => .ok v

end Runbook.Literal
