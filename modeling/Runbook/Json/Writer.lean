import Runbook.Fault
import Runbook.Value

/-! Writing data text.

One writer serves three layouts: compact, spaced, and indented. Characters beyond ASCII are
written as they are; quotes, backslashes and controls are escaped. A value with bytes or
moments in it has no data text: the writer stops there, and what it had written so far
remains. -/
namespace Runbook.Json

/-- What separates entries and keys, and how deep entries are indented, if they are. -/
structure Style where
  comma : String
  colon : String
  indent : Option Nat

def compact : Style := ⟨",", ":", none⟩

def spaced : Style := ⟨", ", ": ", none⟩

/-- One entry a line. -/
def pretty : Style := ⟨",", ": ", some 2⟩

/-- What is written for a character inside quotes. -/
def escape (c : Char) : List Char :=
  match c with
  | '"' => ['\\', '"']
  | '\\' => ['\\', '\\']
  | '\n' => ['\\', 'n']
  | '\r' => ['\\', 'r']
  | '\t' => ['\\', 't']
  | '\x08' => ['\\', 'b']
  | '\x0c' => ['\\', 'f']
  | c => if c.toNat < 32 then '\\' :: 'u' :: Text.hex 4 c.toNat else [c]

/-- The text between the quotes. -/
def escapeAll (cs : List Char) : List Char := cs.flatMap escape

def quote (s : String) : List Char := '"' :: escapeAll s.toList ++ ['"']

/-- What was written, and why no more, if the writer had to stop. -/
structure Written where
  text : List Char
  refused : Option Fault

namespace Written

def ok (text : List Char) : Written := ⟨text, none⟩

def stop (f : Fault) : Written := ⟨[], some f⟩

/-- One piece behind another, unless the first one stopped. -/
def append (a b : Written) : Written :=
  match a.refused with
  | none => ⟨a.text ++ b.text, b.refused⟩
  | some _ => a

instance : Append Written := ⟨append⟩

end Written

/-- The message for a whole number with too many digits. -/
def lengthMessage : String :=
  "Exceeds the limit (4300 digits) for integer string conversion; " ++
    "use sys.set_int_max_str_digits() to increase the limit"

def writeInt (n : Int) : Written :=
  match numeral? n with
  | some s => .ok s.toList
  | none => .stop (.badValue lengthMessage)

def writeScalar : Scalar → Written
  | .null => .ok "null".toList
  | .bool b => .ok (if b then "true" else "false").toList
  | .int n => writeInt n
  | .float x => .ok (Number.data.text x).toList
  | .str s => .ok (quote s)
  | .bytes _ | .moment _ => .stop .wrongType

/-- A key is written as a text, whatever it is. -/
def writeKey : Scalar → Written
  | .str s => .ok (quote s)
  | k =>
    let w := writeScalar k
    match w.refused with
    | none => .ok ('"' :: w.text ++ ['"'])
    | some f => .stop f

/-- The line end and indentation before an entry at a level. -/
def newline (style : Style) (level : Nat) : List Char :=
  match style.indent with
  | none => []
  | some width => '\n' :: List.replicate (width * level) ' '

mutual

/-- A value inside `level` containers. -/
def write (style : Style) (level : Nat) : Value → Written
  | .scalar s => writeScalar s
  | .list [] => .ok ['[', ']']
  | .list (v :: rest) =>
    .ok ('[' :: newline style (level + 1)) ++ write style (level + 1) v
      ++ writeItems style level rest
  | .map [] => .ok ['{', '}']
  | .map ((k, v) :: rest) =>
    .ok ('{' :: newline style (level + 1)) ++ writeKey k ++ .ok style.colon.toList
      ++ write style (level + 1) v ++ writeEntries style level rest

def writeItems (style : Style) (level : Nat) : List Value → Written
  | [] => .ok (newline style level ++ [']'])
  | v :: rest =>
    .ok (style.comma.toList ++ newline style (level + 1)) ++ write style (level + 1) v
      ++ writeItems style level rest

def writeEntries (style : Style) (level : Nat) : List (Scalar × Value) → Written
  | [] => .ok (newline style level ++ ['}'])
  | (k, v) :: rest =>
    let key := writeKey k
    match key.refused with
    | some f => .stop f
    | none =>
      .ok (style.comma.toList ++ newline style (level + 1)) ++ key ++ .ok style.colon.toList
        ++ write style (level + 1) v ++ writeEntries style level rest

end

/-- The data text of a value. -/
def render (style : Style) (v : Value) : Except Fault String :=
  let w := write style 0 v
  match w.refused with
  | none => .ok (String.ofList w.text)
  | some f => .error f

end Runbook.Json
