import Runbook.Fault
import Runbook.Number.Whole
import Runbook.Value
import Runbook.Text.Search
import Runbook.Text.Blank

/-! Reading data text.

The grammar is JSON's, with the names `NaN`, `Infinity` and `-Infinity` for the numbers
that have no numeral, and without a limit on whole numbers but `digitLimit`. A key that
comes twice keeps its first place and its last value. Each reader takes the characters in
front of it and returns those behind; a failure remembers how many characters were left,
which is where it happened. -/
namespace Runbook.Json

/-- What is wrong, and how many characters were left there. -/
inductive Failure
  | expected (what : String) (left : Nat)
  | tooManyDigits (count : Nat)
  | tooDeep
deriving DecidableEq, Repr

/-- How deep containers may be nested. -/
def depthLimit : Nat := 985

abbrev Read (α : Type) := Except Failure (α × List Char)

/-- The blanks between tokens. -/
def isSpace (c : Char) : Bool := c == ' ' || c == '\t' || c == '\n' || c == '\r'

def skipSpace (cs : List Char) : List Char := cs.dropWhile isSpace

def failAt {α : Type} (what : String) (cs : List Char) : Except Failure α :=
  .error (.expected what cs.length)

/-! ### Text -/

def hexValue? (c : Char) : Option Nat :=
  if '0' ≤ c && c ≤ '9' then some (c.toNat - 48)
  else if 'a' ≤ c && c ≤ 'f' then some (c.toNat - 87)
  else if 'A' ≤ c && c ≤ 'F' then some (c.toNat - 55)
  else none

/-- Four hexadecimal digits with something behind them. -/
def fourHex? : List Char → Option (Nat × List Char)
  | a :: b :: c :: d :: e :: rest => do
    let a ← hexValue? a
    let b ← hexValue? b
    let c ← hexValue? c
    let d ← hexValue? d
    return (((a * 16 + b) * 16 + c) * 16 + d, e :: rest)
  | _ => none

/-- The characters that stand for themselves or a control behind a backslash. -/
def shortEscape? : Char → Option Char
  | '"' => some '"'
  | '\\' => some '\\'
  | '/' => some '/'
  | 'b' => some '\x08'
  | 'f' => some '\x0c'
  | 'n' => some '\n'
  | 'r' => some '\r'
  | 't' => some '\t'
  | _ => none

/-- Half of a pair that stands for one character beyond the first plane. -/
def isHighHalf (n : Nat) : Bool := 0xD800 ≤ n && n ≤ 0xDBFF

def isLowHalf (n : Nat) : Bool := 0xDC00 ≤ n && n ≤ 0xDFFF

/-- A character by its number; half a pair alone is no character and is replaced. -/
def unit (n : Nat) : Char := if isHighHalf n || isLowHalf n then '\uFFFD' else Char.ofNat n

/-- One step through a text: its end, a character, or a failure. -/
inductive Piece
  | done (rest : List Char)
  | char (c : Char) (rest : List Char)
  | fail (f : Failure)

/-- What an escape stands for; `cs` is what follows the backslash. -/
def escaped (start : Nat) (cs : List Char) : Piece :=
  match cs with
  | [] => .fail (.expected "Unterminated string starting at" start)
  | 'u' :: rest =>
    match fourHex? rest with
    | none => .fail (.expected "Invalid \\uXXXX escape" cs.length)
    | some (n, rest) =>
      if isHighHalf n then
        match rest with
        | '\\' :: 'u' :: low =>
          if low.length < 5 then .char (unit n) rest
          else match fourHex? low with
            | none => .fail (.expected "Invalid \\uXXXX escape" (low.length + 1))
            | some (m, more) =>
              if isLowHalf m then
                .char (Char.ofNat (0x10000 + (n - 0xD800) * 0x400 + (m - 0xDC00))) more
              else .char (unit n) rest
        | _ => .char (unit n) rest
      else .char (unit n) rest
  | c :: rest =>
    match shortEscape? c with
    | some d => .char d rest
    | none => .fail (.expected "Invalid \\escape" (cs.length + 1))

/-- One step of a text that began with `start` characters left. -/
def piece (start : Nat) : List Char → Piece
  | [] => .fail (.expected "Unterminated string starting at" start)
  | '"' :: rest => .done rest
  | '\\' :: rest => escaped start rest
  | c :: rest =>
    if c.toNat < 32 then .fail (.expected "Invalid control character at" (rest.length + 1))
    else .char c rest

/-- The characters up to the closing quote, in reverse behind `acc`. -/
def textFrom (start : Nat) : Nat → List Char → List Char → Read String
  | 0, _, _ => .error (.expected "Unterminated string starting at" start)
  | fuel + 1, acc, cs =>
    match piece start cs with
    | .done rest => .ok (String.ofList acc.reverse, rest)
    | .char c rest => textFrom start fuel (c :: acc) rest
    | .fail f => .error f

/-- A text; `cs` is what follows the opening quote. -/
def text (cs : List Char) : Read String := textFrom (cs.length + 1) (cs.length + 1) [] cs

/-! ### Numbers -/

def isAsciiDigit (c : Char) : Bool := '0' ≤ c && c ≤ '9'

def digitsValue (ds : List Char) : Nat := ds.foldl (fun n d => n * 10 + (d.toNat - 48)) 0

/-- The digits of a fraction behind a point, if there are any. -/
def fraction : List Char → List Char × List Char
  | '.' :: rest =>
    match rest.takeWhile isAsciiDigit with
    | [] => ([], '.' :: rest)
    | ds => (ds, rest.dropWhile isAsciiDigit)
  | cs => ([], cs)

/-- A power of ten, if there is one: whether it is negative, and its digits. -/
def power (cs : List Char) : Option (Bool × List Char) × List Char :=
  match cs with
  | e :: rest =>
    if e = 'e' || e = 'E' then
      let (negative, rest) := match rest with
        | '-' :: r => (true, r)
        | '+' :: r => (false, r)
        | r => (false, r)
      match rest.takeWhile isAsciiDigit with
      | [] => (none, cs)
      | ds => (some (negative, ds), rest.dropWhile isAsciiDigit)
    else (none, cs)
  | [] => (none, cs)

/-- A number without its sign: whole digits, then a fraction and a power of ten. -/
def unsigned (negative : Bool) (cs : List Char) : Option (Except Failure Value × List Char) :=
  let whole := match cs with
    | '0' :: _ => ['0']
    | _ => cs.takeWhile isAsciiDigit
  if whole = [] then none
  else
    let (frac, rest) := fraction (cs.drop whole.length)
    let (pow, rest) := power rest
    match frac, pow with
    | [], none =>
      if digitLimit < whole.length then some (.error (.tooManyDigits whole.length), rest)
      else
        let n : Int := digitsValue whole
        some (.ok (.int (if negative then -n else n)), rest)
    | frac, pow =>
      let e : Int := match pow with
        | none => 0
        | some (true, ds) => -(digitsValue ds : Int)
        | some (false, ds) => digitsValue ds
      let x := Number.Binary64.ofDecimal negative (digitsValue (whole ++ frac)) (e - frac.length)
      some (.ok (.float x), rest)

/-- The names of values, and numbers. -/
def named : List (String × Value) :=
  [("null", .null), ("true", .bool true), ("false", .bool false), ("NaN", .float .nan),
   ("Infinity", .float (.infinite false)), ("-Infinity", .float (.infinite true))]

def atom (cs : List Char) : Read Value :=
  match named.findSome? fun (name, v) => (Text.after? name.toList cs).map (v, ·) with
  | some r => .ok r
  | none =>
    let number := match cs with
      | '-' :: rest => unsigned true rest
      | _ => unsigned false cs
    match number with
    | some (.ok v, rest) => .ok (v, rest)
    | some (.error f, _) => .error f
    | none => failAt "Expecting value" cs

/-! ### Containers -/

/-- The items of a list from the first on; `cs` starts with an item. -/
def itemsFrom (item : List Char → Read Value) :
    Nat → List Value → List Char → Except Failure (List Value × List Char)
  | 0, _, cs => failAt "Expecting value" cs
  | fuel + 1, acc, cs => do
    let (v, cs) ← item cs
    let cs := skipSpace cs
    match cs with
    | ']' :: rest => return ((v :: acc).reverse, rest)
    | ',' :: rest => itemsFrom item fuel (v :: acc) (skipSpace rest)
    | _ => failAt "Expecting ',' delimiter" cs

/-- A list; `cs` is what follows the opening bracket. -/
def items (item : List Char → Read Value) (cs : List Char) : Read (List Value) :=
  match skipSpace cs with
  | ']' :: rest => .ok ([], rest)
  | cs => itemsFrom item (cs.length + 1) [] cs

/-- The entries of a mapping from the first on; `cs` starts with a key. -/
def entriesFrom (item : List Char → Read Value) :
    Nat → List (Scalar × Value) → List Char →
      Except Failure (List (Scalar × Value) × List Char)
  | 0, _, cs => failAt "Expecting property name enclosed in double quotes" cs
  | fuel + 1, acc, cs => do
    let (key, rest) ← match cs with
      | '"' :: rest => text rest
      | _ => failAt "Expecting property name enclosed in double quotes" cs
    let rest := skipSpace rest
    let rest ← match rest with
      | ':' :: rest => .ok (skipSpace rest)
      | _ => failAt "Expecting ':' delimiter" rest
    let (v, rest) ← item rest
    let rest := skipSpace rest
    let acc := (.str key, v) :: acc
    match rest with
    | '}' :: rest => return (Entries.ofList acc.reverse, rest)
    | ',' :: rest => entriesFrom item fuel acc (skipSpace rest)
    | _ => failAt "Expecting ',' delimiter" rest

/-- A mapping; `cs` is what follows the opening brace. -/
def entries (item : List Char → Read Value) (cs : List Char) : Read (List (Scalar × Value)) :=
  match skipSpace cs with
  | '}' :: rest => .ok ([], rest)
  | cs => entriesFrom item (cs.length + 1) [] cs

/-- A value with at most `depth` containers around any part of it. -/
def value (depth : Nat) (cs : List Char) : Read Value :=
  match cs with
  | '"' :: rest => (text rest).map fun (s, rest) => (.str s, rest)
  | '[' :: rest =>
    match depth with
    | 0 => .error .tooDeep
    | depth + 1 => (items (value depth) rest).map fun (vs, rest) => (.list vs, rest)
  | '{' :: rest =>
    match depth with
    | 0 => .error .tooDeep
    | depth + 1 => (entries (value depth) rest).map fun (es, rest) => (.map es, rest)
  | cs => atom cs

/-- The value that a whole text stands for. -/
def document (cs : List Char) : Except Failure Value :=
  match cs with
  | '\uFEFF' :: _ => failAt "Unexpected UTF-8 BOM (decode using utf-8-sig)" cs
  | _ => do
    let (v, rest) ← value depthLimit (skipSpace cs)
    match skipSpace rest with
    | [] => return v
    | rest => failAt "Extra data" rest

/-! ### Where a failure is -/

/-- The position with `left` characters left, by line, column and offset. -/
def place (cs : List Char) (left : Nat) : String :=
  let offset := cs.length - left
  let before := cs.take offset
  let line := before.count '\n' + 1
  let column := (before.reverse.takeWhile (· != '\n')).length + 1
  "line " ++ toString line ++ " column " ++ toString column ++ " (char " ++ toString offset ++ ")"

def Failure.fault (cs : List Char) : Failure → Fault
  | .expected what left => .badData (what ++ ": " ++ place cs left)
  | .tooManyDigits count => .badValue (Number.digitMessage count)
  | .tooDeep => .tooDeep

/-- Data text as a value. -/
def parse (s : String) : Except Fault Value :=
  match document s.toList with
  | .ok v => .ok v
  | .error f => .error (f.fault s.toList)

end Runbook.Json
