import Runbook.Number.Binary64

/-! The shortest decimal that reads back.

Among the decimals that round to a given magnitude, `shortest` takes one with the fewest
digits, and of those the nearest. On the grid of `n` digits only the value's two neighbours
can be nearest, so each grid from one digit to seventeen is tried at those two points, in
exact arithmetic; on seventeen digits one of them always reads back. -/
namespace Runbook.Number

/-- A decimal fraction `digits * 10 ^ exponent`. -/
structure Decimal where
  digits : Nat
  exponent : Int
deriving DecidableEq, Repr

/-- The decimals between two bounds around a value, all in the same unit. -/
structure Neighbourhood where
  low : Nat
  value : Nat
  high : Nat
  /-- One, in that unit. -/
  unit : Nat
  /-- Whether the bounds themselves belong to it. -/
  closed : Bool

/-- The halfway points to the next magnitudes; a halfway point goes to the even rank. -/
def Binary64.neighbourhood (rank : Nat) : Neighbourhood :=
  { low := Binary64.units (rank - 1) + Binary64.units rank
    value := 2 * Binary64.units rank
    high := Binary64.units rank + Binary64.units (rank + 1)
    unit := 2 * Binary64.one
    closed := rank % 2 == 0 }

namespace Neighbourhood

/-- Whether `num / den` lies inside, for the value times a power of ten. -/
def holds (b : Neighbourhood) (num den : Nat) : Bool :=
  if b.closed then b.low * den ≤ num && num ≤ b.high * den
  else b.low * den < num && num < b.high * den

/-- The number of places to the left of the point, counted down for small values: the least
`p` with the value below `10 ^ p`. -/
def places (b : Neighbourhood) : Int :=
  let rec up (fuel p : Nat) : Nat :=
    match fuel with
    | 0 => p
    | fuel + 1 => if b.value < b.unit * Nat.pow 10 p then p else up fuel (p + 1)
  let rec down (fuel p : Nat) : Nat :=
    match fuel with
    | 0 => p
    | fuel + 1 => if b.value * Nat.pow 10 (p + 1) < b.unit then down fuel (p + 1) else p
  if b.unit ≤ b.value then (up 400 0 : Nat) else -(down 400 0 : Nat)

/-- The better of the value's two neighbours on the grid of step `10 ^ k`. -/
def onGrid (b : Neighbourhood) (k : Int) : Option Decimal :=
  let stepNum := if 0 ≤ k then Nat.pow 10 k.toNat else 1
  let stepDen := if 0 ≤ k then 1 else Nat.pow 10 (-k).toNat
  let below := b.value * stepDen / (b.unit * stepNum)
  let inside := fun d => b.holds (d * b.unit * stepNum) stepDen
  let lowHit := 0 < below && inside below
  let highHit := inside (below + 1)
  let twice := 2 * (b.value * stepDen % (b.unit * stepNum))
  let preferHigh := b.unit * stepNum < twice || (twice == b.unit * stepNum && below % 2 == 1)
  if lowHit && highHit then some ⟨if preferHigh then below + 1 else below, k⟩
  else if lowHit then some ⟨below, k⟩
  else if highHit then some ⟨below + 1, k⟩
  else none

/-- The first grid with a hit, from `n` digits on. -/
def firstHit (b : Neighbourhood) (places : Int) : Nat → Nat → Option Decimal
  | 0, _ => none
  | fuel + 1, n =>
    match b.onGrid (places - n) with
    | some d => some d
    | none => firstHit b places fuel (n + 1)

end Neighbourhood

/-- The digits of a number without the zeros at its end, and how many there were. -/
def dropZeros : Nat → Nat → Nat × Nat
  | 0, n => (n, 0)
  | fuel + 1, n =>
    if n ≠ 0 && n % 10 = 0 then
      let (m, count) := dropZeros fuel (n / 10)
      (m, count + 1)
    else (n, 0)

/-- The shortest decimal for a rank. -/
def shortest (rank : Nat) : Decimal :=
  let b := Binary64.neighbourhood rank
  match b.firstHit b.places 17 1 with
  | some d => let (digits, zeros) := dropZeros 20 d.digits; ⟨digits, d.exponent + zeros⟩
  | none => ⟨0, 0⟩

/-! ### Layout -/

/-- How a decimal is laid out: between which places the point is written where it falls, and
what stands for the values that are no decimals. -/
structure Layout where
  /-- Positional notation needs the point at least this far right. -/
  least : Int
  /-- Positional notation needs the point at most this far right. -/
  most : Int
  /-- The fewest digits of an exponent. -/
  exponentDigits : Nat
  infinity : String
  notANumber : String

/-- The decimal digits of a number, most significant first. -/
def digitChars (n : Nat) : List Char := (Nat.repr n).toList

def padded (width : Nat) (cs : List Char) : List Char :=
  List.replicate (width - cs.length) '0' ++ cs

/-- A decimal as text; a whole number keeps one zero behind the point. -/
def Layout.decimal (l : Layout) (d : Decimal) : List Char :=
  let ds := digitChars d.digits
  let point : Int := ds.length + d.exponent
  if l.least ≤ point && point ≤ l.most then
    if point ≤ 0 then '0' :: '.' :: List.replicate (-point).toNat '0' ++ ds
    else if ds.length ≤ point.toNat then
      ds ++ List.replicate (point.toNat - ds.length) '0' ++ ['.', '0']
    else ds.take point.toNat ++ '.' :: ds.drop point.toNat
  else
    let e := point - 1
    let mantissa := match ds with
      | [] => []
      | [d] => [d]
      | d :: rest => d :: '.' :: rest
    mantissa ++ 'e' :: (if e < 0 then '-' else '+') ::
      padded l.exponentDigits (digitChars e.natAbs)

def Layout.text (l : Layout) : Binary64 → String
  | .nan => l.notANumber
  | .infinite s => if s then "-" ++ l.infinity else l.infinity
  | .finite s r =>
    let magnitude := if r.val = 0 then ['0', '.', '0'] else l.decimal (shortest r)
    String.ofList (if s then '-' :: magnitude else magnitude)

/-- Values are written positionally from `0.0001` up to, but not including, `10 ^ 16`. -/
def plain : Layout := ⟨-3, 16, 2, "inf", "nan"⟩

/-- The same with the names that data text has for the values that are no decimals. -/
def data : Layout := { plain with infinity := "Infinity", notANumber := "NaN" }

end Runbook.Number
