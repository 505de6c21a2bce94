import Runbook.Literal

/-! Expressions: what a `set` node computes.

Two numbers and an operator are computed in 64 bits; one of the numbers may be missing and
counts as zero. Anything else is a literal, and a text that is no number stays as it is. -/
namespace Runbook.Expression

open Number

inductive Op
  | add | sub | mul | div | rem
deriving DecidableEq, Repr

def Op.ofChar? : Char → Option Op
  | '+' => some .add
  | '-' => some .sub
  | '*' => some .mul
  | '/' => some .div
  | '%' => some .rem
  | _ => none

/-- A number at the front of a text: a minus sign, digits, and digits behind a point. -/
def number? (cs : List Char) : Option (Numeral × List Char) :=
  let (negative, rest) := match cs with
    | '-' :: rest => (true, rest)
    | rest => (false, rest)
  match takeDigits rest with
  | ([], _) => none
  | (whole, rest) =>
    match rest with
    | '.' :: behind =>
      match takeDigits behind with
      | ([], _) => some (⟨negative, whole, 0⟩, rest)
      | (frac, behind) => some (⟨negative, whole ++ frac, -(frac.length : Int)⟩, behind)
    | rest => some (⟨negative, whole, 0⟩, rest)

/-- An operation in the text: the left number, the operator, and the right number. -/
structure Operation where
  left : Option Numeral
  op : Op
  right : Option Numeral

/-- An operator and the rest of the text, which must be a number or nothing. -/
def operatorEnd? (left : Option Numeral) (cs : List Char) : Option Operation :=
  match Text.trimStart cs with
  | c :: cs =>
    match Op.ofChar? c with
    | none => none
    | some op =>
      match Text.trimStart cs with
      | [] => some ⟨left, op, none⟩
      | cs =>
        match number? cs with
        | some (right, []) => some ⟨left, op, some right⟩
        | _ => none
  | [] => none

/-- The operation that a text is; at least one of its numbers is there. -/
def Operation.ofChars? (cs : List Char) : Option Operation :=
  let whole := match number? cs with
    | some (left, rest) => operatorEnd? (some left) rest
    | none => none
  match whole with
  | some o => some o
  | none =>
    match operatorEnd? none cs with
    | some o => if o.right.isSome then some o else none
    | none => none

/-- The result of an operation; division and remainder by zero give zero. -/
def apply (x : Binary64) (op : Op) (y : Binary64) : Except Fault Value :=
  match op with
  | .add => .ok (Literal.normalize (x.add y))
  | .sub => .ok (Literal.normalize (x.sub y))
  | .mul => .ok (Literal.normalize (x.mul y))
  | .div => .ok (if y.isZero then .int 0 else Literal.normalize (x.div y))
  | .rem =>
    if y.isZero then .ok (.int 0)
    else match x.rem? y with
      | some z => .ok (Literal.normalize z)
      | none => .error (.badValue "math domain error")

def orZero : Option Numeral → Binary64
  | some n => n.toBinary64
  | none => Binary64.zero false

/-- The value of an expression. -/
def evaluate (s : String) : Except Fault Value :=
  let cs := Text.trim s.toList
  match Operation.ofChars? cs with
  | some o =>
    if o.left.isNone && o.op == .sub && (plain? cs).isSome then
      .ok (Literal.coerce (String.ofList cs))
    else apply (orZero o.left) o.op (orZero o.right)
  | none =>
    match Literal.coerce (String.ofList cs) with
    | .str _ => .ok (.str s)
    | v => .ok v

end Runbook.Expression
