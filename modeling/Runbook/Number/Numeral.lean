import Runbook.Number.Binary64
import Runbook.Text.Blank
import Runbook.Text.Case
import Runbook.Text.Digit

/-! Numerals.

A plain numeral is a sign, digits with at most one point, and a power of ten; its digits may
be of any script. `plain?` reads exactly those, `float?` also the looser forms that settings
and numeric properties may have: blanks around, underscores between digits, and the names of
the values that are no decimals. -/
namespace Runbook.Number

open Text

/-- The digits of a numeral, and the power of ten that the last one counts. -/
structure Numeral where
  negative : Bool
  digits : List Nat
  exponent : Int

def ofDigits (ds : List Nat) : Nat := ds.foldl (fun n d => n * 10 + d) 0

def Numeral.toBinary64 (n : Numeral) : Binary64 :=
  Binary64.ofDecimal n.negative (ofDigits n.digits) n.exponent

/-- The digits at the front of a text, and the rest. -/
def takeDigits : List Char → List Nat × List Char
  | [] => ([], [])
  | c :: cs =>
    match decimal? c with
    | some d => let (ds, rest) := takeDigits cs; (d :: ds, rest)
    | none => ([], c :: cs)

/-- A sign, if there is one: whether it is a minus, and the rest. -/
def takeSign : List Char → Bool × List Char
  | '-' :: cs => (true, cs)
  | '+' :: cs => (false, cs)
  | cs => (false, cs)

/-- A power of ten that ends the text; none where the text goes on otherwise. -/
def endingPower? : List Char → Option Int
  | [] => some 0
  | e :: cs =>
    if e = 'e' || e = 'E' then
      let (negative, cs) := takeSign cs
      match takeDigits cs with
      | ([], _) => none
      | (ds, []) => some (if negative then -(ofDigits ds : Int) else ofDigits ds)
      | _ => none
    else none

/-- A text that is a plain numeral and nothing else. -/
def Numeral.ofChars? (cs : List Char) : Option Numeral :=
  let (negative, cs) := takeSign cs
  let (whole, rest) := takeDigits cs
  let (frac, rest) := match rest with
    | '.' :: rest => takeDigits rest
    | rest => ([], rest)
  if whole = [] && frac = [] then none
  else (endingPower? rest).map fun e => ⟨negative, whole ++ frac, e - frac.length⟩

/-- The value of a plain numeral, blanks around it aside. -/
def plain? (cs : List Char) : Option Binary64 :=
  (Numeral.ofChars? (trim cs)).map Numeral.toBinary64

/-- The digits without the underscores between them; none where one is out of place. -/
def dropUnderscores? (afterDigit : Bool) : List Char → Option (List Char)
  | [] => some []
  | '_' :: cs =>
    match cs with
    | d :: _ => if afterDigit && isDecimal d then dropUnderscores? false cs else none
    | [] => none
  | c :: cs => (dropUnderscores? (isDecimal c) cs).map (c :: ·)

/-- Blanks around a numeral: the separators among the ASCII controls do not count. -/
def isNumeralBlank (c : Char) : Bool := isBlank c && !(28 ≤ c.toNat && c.toNat ≤ 31)

def trimNumeral (cs : List Char) : List Char :=
  ((cs.dropWhile isNumeralBlank).reverse.dropWhile isNumeralBlank).reverse

/-- A number in any of the forms that settings may have. -/
def float? (cs : List Char) : Option Binary64 := do
  let cs ← dropUnderscores? false (trimNumeral cs)
  let (negative, name) := takeSign cs
  match String.ofList (lower name) with
  | "inf" | "infinity" => return .infinite negative
  | "nan" => return .nan
  | _ => (Numeral.ofChars? cs).map Numeral.toBinary64

/-- A whole number: a sign and digits. -/
def int? (cs : List Char) : Option Int := do
  let cs ← dropUnderscores? false (trimNumeral cs)
  let (negative, rest) := takeSign cs
  match takeDigits rest with
  | ([], _) => none
  | (ds, []) => some (if negative then -(ofDigits ds : Int) else ofDigits ds)
  | _ => none

end Runbook.Number
