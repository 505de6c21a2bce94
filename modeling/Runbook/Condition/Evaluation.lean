import Runbook.Condition.Token
import Runbook.Template

/-! The value of a condition.

The grammar, loosest first: alternatives between `or`, conjunctions between `and`, negation,
and then a condition in parentheses, a comparison of two operands, or one operand that is
`true` or `false`. Every part is evaluated, also where the value is settled already, and the
first failure from the left is the failure of the whole. -/
namespace Runbook.Condition

/-! ### Comparison -/

/-- The items of a text that is the data text of a list. -/
def listItems? (s : String) : Except Fault (Option (List Value)) :=
  match Text.trim s.toList with
  | '[' :: cs =>
    match Json.parse (String.ofList ('[' :: cs)) with
    | .ok (.list items) => .ok (some items)
    | .ok _ => .ok none
    | .error f => if f.isBadValue then .ok none else .error f
  | _ => .ok none

/-- Membership in the data text of a list, or else in a text. -/
def contains (left right : String) : Except Fault Bool := do
  match ← listItems? left with
  | some items => return (← items.mapM Literal.stringify).contains right
  | none => return Text.contains right.toList left.toList

/-- The order of two operands: as numbers where both are numerals, as texts otherwise. -/
def order? (left right : String) : Option Ordering :=
  match Number.plain? left.toList, Number.plain? right.toList with
  | some x, some y => x.compare? y
  | _, _ => some (compare left.toList right.toList)

def compareTexts (left : String) (op : Comparison) (right : String) : Except Fault Bool :=
  match op with
  | .contains => contains left right
  | .eq => .ok (order? left right == some .eq)
  | .ne => .ok (order? left right != some .eq)
  | .lt => .ok (order? left right == some .lt)
  | .gt => .ok (order? left right == some .gt)
  | .le => .ok (order? left right == some .lt || order? left right == some .eq)
  | .ge => .ok (order? left right == some .gt || order? left right == some .eq)

/-- A comparison whose operator is given by its symbol. -/
def compareBy (left symbol right : String) : Except Fault Bool :=
  match Comparison.ofSymbol? symbol with
  | some op => compareTexts left op right
  | none => .error (Error.unknownOperator symbol).fault

/-! ### Evaluation -/

/-- The truth value that a text names, in any case and with blanks around it. -/
def truth? (s : String) : Option Bool :=
  match String.ofList (Text.lower (Text.trim s.toList)) with
  | "true" => some true
  | "false" => some false
  | _ => none

/-- An operand with what may follow it. -/
def operandValue (scope : Scope) (text : String) (ts : List Token) :
    Except Fault (Bool × List Token) := do
  let left ← Template.resolve text scope
  match ts with
  | .op op :: ts =>
    match ts with
    | .operand text _ :: ts =>
      let right ← Template.resolve text scope
      return (← compareTexts left op right, ts)
    | [] => throw Error.unexpectedEnd.fault
    | _ => throw (Error.noRightOperand op).fault
  | ts =>
    match truth? left with
    | some b => return (b, ts)
    | none => throw (Error.notBoolean left).fault

mutual

/-- Alternatives from the front of `ts`: their value, and the tokens behind them. -/
def orValue (scope : Scope) : Nat → List Token → Except Fault (Bool × List Token)
  | 0, _ => .error Error.unexpectedEnd.fault
  | fuel + 1, ts => do
    let (b, ts) ← andValue scope fuel ts
    orRest scope fuel b ts

def orRest (scope : Scope) : Nat → Bool → List Token → Except Fault (Bool × List Token)
  | fuel + 1, b, .or :: ts => do
    let (c, ts) ← andValue scope fuel ts
    orRest scope fuel (b || c) ts
  | _, b, ts => .ok (b, ts)

def andValue (scope : Scope) : Nat → List Token → Except Fault (Bool × List Token)
  | 0, _ => .error Error.unexpectedEnd.fault
  | fuel + 1, ts => do
    let (b, ts) ← notValue scope fuel ts
    andRest scope fuel b ts

def andRest (scope : Scope) : Nat → Bool → List Token → Except Fault (Bool × List Token)
  | fuel + 1, b, .and :: ts => do
    let (c, ts) ← notValue scope fuel ts
    andRest scope fuel (b && c) ts
  | _, b, ts => .ok (b, ts)

def notValue (scope : Scope) : Nat → List Token → Except Fault (Bool × List Token)
  | 0, _ => .error Error.unexpectedEnd.fault
  | fuel + 1, .not :: ts => do
    let (b, ts) ← notValue scope fuel ts
    return (!b, ts)
  | fuel + 1, ts => primaryValue scope fuel ts

def primaryValue (scope : Scope) : Nat → List Token → Except Fault (Bool × List Token)
  | 0, _ => .error Error.unexpectedEnd.fault
  | _, [] => .error Error.unexpectedEnd.fault
  | fuel + 1, .lparen :: ts => do
    let (b, ts) ← orValue scope fuel ts
    match ts with
    | .rparen :: ts => return (b, ts)
    | [] => throw Error.unexpectedEnd.fault
    | _ => throw Error.missingParen.fault
  | _ + 1, .operand text _ :: ts => operandValue scope text ts
  | _ + 1, t :: _ => .error (Error.noOperand t).fault

end

/-- Enough fuel for any list of tokens: no token costs more than six calls. -/
def fuelFor (ts : List Token) : Nat := 6 * (ts.length + 1)

/-- The value of a whole list of tokens. -/
def tokensValue (scope : Scope) (ts : List Token) : Except Fault Bool := do
  match ← orValue scope (fuelFor ts) ts with
  | (b, []) => return b
  | (_, t :: _) => throw (Error.leftOver t).fault

/-- The value of a condition. -/
def evaluate (s : String) (scope : Scope) : Except Fault Bool :=
  if Text.blank s.toList then .error Error.blank.fault
  else match tokenize s with
    | .ok ts => tokensValue scope ts
    | .error e => .error e.fault

/-- The value of a condition, false with the reason where it has none. -/
def evaluateOrFalse (s : String) (scope : Scope) : Except Fault (Bool × Option String) :=
  match evaluate s scope with
  | .ok b => .ok (b, none)
  | .error (.condition message) => .ok (false, some message)
  | .error f => .error f

end Runbook.Condition
