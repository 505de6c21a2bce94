import Runbook.Fault
import Runbook.Text.Blank
import Runbook.Text.Case
import Runbook.Text.Search

/-! Tokens of a condition.

A condition is cut into tokens before any of its placeholders is resolved: a placeholder
belongs to its operand whatever stands between its braces, so that no value of a variable can
bring in an operator or a parenthesis. -/
namespace Runbook.Condition

inductive Comparison
  | eq | ne | le | ge | lt | gt | contains
deriving DecidableEq, Repr

namespace Comparison

def symbol : Comparison → String
  | eq => "=="
  | ne => "!="
  | le => "<="
  | ge => ">="
  | lt => "<"
  | gt => ">"
  | contains => "contains"

def all : List Comparison := [eq, ne, le, ge, lt, gt, contains]

def ofSymbol? (s : String) : Option Comparison := all.find? (·.symbol == s)

end Comparison

inductive Token
  | operand (text : String) (quoted : Bool)
  | op (c : Comparison)
  | and
  | or
  | not
  | lparen
  | rparen
deriving DecidableEq, Repr

namespace Token

/-- The name of a token's kind. -/
def kind : Token → String
  | operand .. => "OPERAND"
  | op _ => "OP"
  | and => "AND"
  | or => "OR"
  | not => "NOT"
  | lparen => "LPAREN"
  | rparen => "RPAREN"

/-- The text that a token brings along. -/
def text : Token → String
  | operand s _ => s
  | op c => c.symbol
  | _ => ""

def isQuoted : Token → Bool
  | operand _ q => q
  | _ => false

/-- How a message names a token. -/
def shown (t : Token) : String := if t.text = "" then t.kind else t.text

end Token

/-- Why a condition has no value. -/
inductive Error
  | blank
  | loneEquals (position : Nat)
  | openQuote (position : Nat)
  | unexpectedEnd
  | leftOver (t : Token)
  | missingParen
  | noOperand (found : Token)
  | noRightOperand (op : Comparison)
  | notBoolean (text : String)
  | unknownOperator (symbol : String)
deriving DecidableEq, Repr

def Error.message : Error → String
  | blank => "Empty condition"
  | loneEquals i => "Unexpected '=' at position " ++ toString i ++ "; use '=='"
  | openQuote i => "Unterminated string starting at position " ++ toString i
  | unexpectedEnd => "Unexpected end of expression"
  | leftOver t => "Unexpected token '" ++ t.shown ++ "'"
  | missingParen => "Expected ')'"
  | noOperand t => "Expected operand, got '" ++ t.shown ++ "'"
  | noRightOperand op => "Expected operand after '" ++ op.symbol ++ "'"
  | notBoolean s => "Operand '" ++ s ++ "' is not a boolean; expected true or false"
  | unknownOperator s => "Unknown operator '" ++ s ++ "'"

def Error.fault (e : Error) : Fault := .condition e.message

/-! ### Cutting -/

/-- Whether a bare operand ends in front of `cs`. -/
def endsOperand : List Char → Bool
  | '&' :: '&' :: _ | '|' :: '|' :: _ | '!' :: '=' :: _ => true
  | c :: _ => Text.isBlank c || c == '(' || c == ')' || c == '<' || c == '>' || c == '='
  | [] => true

/-- A bare operand and what follows it. A placeholder in it is taken whole, and without its
closing braces the operand takes all that is left. -/
def bareOperand : Nat → List Char → List Char × List Char
  | 0, cs => (cs, [])
  | _, [] => ([], [])
  | fuel + 1, c :: cs =>
    match c, cs with
    | '{', '{' :: inside =>
      match Text.cutAtWord ['}', '}'] inside with
      | some (path, rest) =>
        let (word, rest) := bareOperand fuel rest
        ('{' :: '{' :: path ++ '}' :: '}' :: word, rest)
      | none => (c :: cs, [])
    | _, _ =>
      if endsOperand (c :: cs) then ([], c :: cs)
      else let (word, rest) := bareOperand fuel cs; (c :: word, rest)

/-- A bare operand may be a keyword, in any case. -/
def ofWord (word : String) : Token :=
  match Text.lowered word with
  | "and" => .and
  | "or" => .or
  | "not" => .not
  | "contains" => .op .contains
  | _ => .operand word false

/-- The operators as they are written, the longer ones first. -/
def operators : List (List Char × Token) :=
  [(['=', '='], .op .eq), (['!', '='], .op .ne), (['<', '='], .op .le), (['>', '='], .op .ge),
    (['&', '&'], .and), (['|', '|'], .or), (['('], .lparen), ([')'], .rparen),
    (['<'], .op .lt), (['>'], .op .gt), (['!'], .not)]

/-- The operator at the front of a text, and what follows it. -/
def operator? (cs : List Char) : Option (Token × List Char) :=
  operators.findSome? fun (word, t) => (Text.after? word cs).map (t, ·)

/-- The tokens of a text of which `cs` is left, `length` being the length of the whole. -/
def tokensFrom (length : Nat) : Nat → List Char → Except Error (List Token)
  | 0, _ => .ok []
  | _, [] => .ok []
  | fuel + 1, c :: cs =>
    if Text.isBlank c then tokensFrom length fuel cs
    else match operator? (c :: cs) with
      | some (t, rest) => (tokensFrom length fuel rest).map (t :: ·)
      | none =>
        if c = '=' then .error (.loneEquals (length - (cs.length + 1)))
        else if c = '"' || c = '\'' then
          match Text.cutAt c cs with
          | (word, some rest) =>
            (tokensFrom length fuel rest).map (.operand (String.ofList word) true :: ·)
          | (_, none) => .error (.openQuote (length - (cs.length + 1)))
        else
          let (word, rest) := bareOperand (c :: cs).length (c :: cs)
          (tokensFrom length fuel rest).map (ofWord (String.ofList word) :: ·)

/-- The tokens of a condition. -/
def tokenize (s : String) : Except Error (List Token) :=
  tokensFrom s.toList.length s.toList.length s.toList

end Runbook.Condition
