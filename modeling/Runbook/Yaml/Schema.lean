import Runbook.Number.Whole
import Runbook.Text.Base64
import Runbook.Text.Search
import Runbook.Value
import Runbook.Yaml.Moment

/-! What scalars mean.

A plain scalar is read by its form: words for truth and nothing, numerals in several bases,
numbers of minutes and seconds, dates. A tag asks for a meaning by name. -/
namespace Runbook.Yaml

open Number

/-- The meanings that a tag can ask for. -/
inductive Meaning
  | null
  | bool
  | int
  | float
  | binary
  | moment
  | str
  | sequence
  | mapping
  /-- A list of pairs. -/
  | ordered
  /-- A mapping whose keys count alone. -/
  | set
  /-- The entries of other mappings, at this key. -/
  | merge
  /-- The value that stands for a mapping, at this key. -/
  | value
deriving DecidableEq, Repr

/-- The meaning that a tag's last word names. -/
def Meaning.named? : String → Option Meaning
  | "null" => some .null
  | "bool" => some .bool
  | "int" => some .int
  | "float" => some .float
  | "binary" => some .binary
  | "timestamp" => some .moment
  | "str" => some .str
  | "seq" => some .sequence
  | "map" => some .mapping
  | "omap" => some .ordered
  | "pairs" => some .ordered
  | "set" => some .set
  | "merge" => some .merge
  | "value" => some .value
  | _ => none

/-! ### Forms of plain scalars -/

def isDigitOrLine (c : Char) : Bool := Moment.isDecimalDigit c || c == '_'

/-- The text without a sign in front. -/
def unsigned (cs : List Char) : List Char := (takeSign cs).2

/-- Digits and underscores, a digit first. -/
def isDigits : List Char → Bool
  | [] => false
  | c :: rest => Moment.isDecimalDigit c && rest.all isDigitOrLine

/-- An exponent with its sign, or nothing. -/
def isExponent : List Char → Bool
  | [] => true
  | e :: sign :: rest => (e == 'e' || e == 'E') && (sign == '+' || sign == '-') &&
    !rest.isEmpty && rest.all Moment.isDecimalDigit
  | _ => false

/-- A number below sixty, in one or two digits. -/
def isSixtieth (cs : List Char) : Bool :=
  match cs with
  | [c] => Moment.isDecimalDigit c
  | [c, d] => '0' ≤ c && c ≤ '5' && Moment.isDecimalDigit d
  | _ => false

/-- Parts at colons: a number, and at least one below sixty behind it. -/
def isSexagesimal (isFirst : List Char → Bool) (cs : List Char) : Bool :=
  match Text.splitAt ':' cs with
  | first :: second :: more => isFirst first && (second :: more).all isSixtieth
  | _ => false

def floatWords : List String := [".inf", ".Inf", ".INF"]

def nanWords : List String := [".nan", ".NaN", ".NAN"]

/-- Digits, a point, and maybe digits and an exponent. -/
def isDecimalFraction (cs : List Char) : Bool :=
  match Text.cutAt '.' cs with
  | (whole, some rest) => isDigits whole && isExponent (rest.dropWhile isDigitOrLine)
  | _ => false

def isFloat (cs : List Char) : Bool :=
  let s := String.ofList cs
  let u := unsigned cs
  isDecimalFraction u ||
    (match cs with
      | '.' :: rest => isDigits (rest.takeWhile isDigitOrLine) &&
        isExponent (rest.dropWhile isDigitOrLine)
      | _ => false) ||
    (match Text.cutAt '.' u with
      | (whole, some rest) => isSexagesimal isDigits whole && rest.all isDigitOrLine
      | _ => false) ||
    floatWords.contains (String.ofList u) || nanWords.contains s

def isBinaryDigit (c : Char) : Bool := c == '0' || c == '1' || c == '_'

def isOctalDigit (c : Char) : Bool := ('0' ≤ c && c ≤ '7') || c == '_'

def isHexDigit (c : Char) : Bool :=
  isDigitOrLine c || ('a' ≤ c && c ≤ 'f') || ('A' ≤ c && c ≤ 'F')

/-- Digits and underscores that start with none of the two and not with zero. -/
def isCounting : List Char → Bool
  | [] => false
  | c :: rest => '1' ≤ c && c ≤ '9' && rest.all isDigitOrLine

def isInt (cs : List Char) : Bool :=
  match unsigned cs with
  | ['0'] => true
  | '0' :: 'b' :: rest => !rest.isEmpty && rest.all isBinaryDigit
  | '0' :: 'x' :: rest => !rest.isEmpty && rest.all isHexDigit
  | '0' :: rest => rest.all isOctalDigit
  | cs => isCounting cs || isSexagesimal isCounting cs

def boolWords : List String := ["yes", "Yes", "YES", "no", "No", "NO", "true", "True", "TRUE",
  "false", "False", "FALSE", "on", "On", "ON", "off", "Off", "OFF"]

def nullWords : List String := ["", "~", "null", "Null", "NULL"]

/-- The meaning of a plain scalar without a tag, by its form. -/
def Meaning.ofPlain (s : String) : Meaning :=
  let cs := s.toList
  if boolWords.contains s then .bool
  else if isFloat cs then .float
  else if isInt cs then .int
  else if s == "<<" then .merge
  else if nullWords.contains s then .null
  else if Moment.hasForm cs then .moment
  else if s == "=" then .value
  else .str

/-! ### Values of scalars -/

def refused {α : Type} (f : Fault) : Except Problem α := .error (.fault f)

def truth (s : String) : Except Problem Scalar :=
  let word := Text.lowered s
  if ["yes", "true", "on"].contains word then .ok (.bool true)
  else if ["no", "false", "off"].contains word then .ok (.bool false)
  else refused (.noSuchKey word)

/-- The number that digits of a base write; blanks around them do not count. -/
def inBase (base : Nat) (cs : List Char) : Except Problem Nat :=
  let ds := Text.trim cs
  let n := ds.foldl (fun acc c => do
    let d ← hexDigit? c
    if d < base then return (← acc) * base + d else none) (some 0)
  match ds.isEmpty, n with
  | false, some n => .ok n
  | _, _ => refused (.badValue (wholeMessage base (String.ofList cs)))

/-- The number that decimal digits write. -/
def wholeNumber (cs : List Char) : Except Problem Int := (whole cs).mapError .fault

/-- The sign of a numeral without its underscores, and the rest, which is not empty. -/
def signed (s : String) : Except Problem (Bool × List Char) :=
  match s.toList.filter (· != '_') with
  | [] => refused .noSuchIndex
  | cs => .ok (takeSign cs)

def negatedIf (negative : Bool) (n : Int) : Int := if negative then -n else n

/-- A whole number in one of its forms. -/
def integer (s : String) : Except Problem Int := do
  let (negative, cs) ← signed s
  match cs with
  | [] => refused .noSuchIndex
  | ['0'] => return 0
  | '0' :: 'b' :: rest => return negatedIf negative (← inBase 2 rest)
  | '0' :: 'x' :: rest => return negatedIf negative (← inBase 16 rest)
  | '0' :: _ => return negatedIf negative (← inBase 8 cs)
  | cs =>
    let parts ← (Text.splitAt ':' cs).mapM wholeNumber
    return negatedIf negative (parts.foldl (fun n d => n * 60 + d) 0)

def floatPart (cs : List Char) : Except Problem Binary64 :=
  match float? cs with
  | some x => .ok x
  | none => refused (.badValue (realMessage (String.ofList cs)))

/-- Parts at colons, the last one first, each worth sixty times the one before it. -/
def sixtieths (base : Nat) : List Binary64 → Binary64 → Binary64
  | [], sum => sum
  | d :: rest, sum =>
    sixtieths (base * 60) rest (sum.add (d.mul (Binary64.ofInt base)))

/-- A number in one of its forms. -/
def real (s : String) : Except Problem Binary64 := do
  let (negative, cs) ← signed (Text.lowered s)
  let x ←
    if cs == ".inf".toList then pure (Binary64.infinite false)
    else if cs == ".nan".toList then pure Binary64.nan
    else if cs.contains ':' then
      let parts ← (Text.splitAt ':' cs).mapM floatPart
      pure (sixtieths 1 parts.reverse (Binary64.zero false))
    else floatPart cs
  return if negative then x.neg else x

def momentText (s : String) : Except Problem String :=
  match Moment.ofChars? s.toList with
  | some m =>
    match m.flaw? with
    | none => .ok m.written
    | some flaw => refused (.badValue flaw)
  | none => refused .noSuchField

/-- Bytes in base 64. -/
def bytesOf (s : String) : Except Problem (List UInt8) :=
  if s.toList.all (·.toNat < 128) then
    match Base64.decode s.toList with
    | .ok bytes => .ok bytes
    | .error _ => unreadable "failed to decode base64 data"
  else unreadable "failed to convert base64 data into ascii"

/-- The scalar that a text is, where a meaning is asked for. -/
def Meaning.scalar (m : Meaning) (s : String) : Except Problem Scalar :=
  match m with
  | .null => .ok .null
  | .bool => truth s
  | .int => return .int (← integer s)
  | .float => return .float (← real s)
  | .binary => return .bytes (← bytesOf s)
  | .moment => return .moment (← momentText s)
  | .str => .ok (.str s)
  | _ => unreadable "a scalar cannot have this tag"

end Runbook.Yaml
