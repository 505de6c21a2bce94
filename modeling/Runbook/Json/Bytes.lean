import Runbook.Json.Reader
import Runbook.Text.Utf8

/-! Data text in bytes.

Data text may come in any encoding of Unicode. Which one it is shows from a mark in front, or else
from the zeros among the first bytes, since data text begins with characters of ASCII. Half of a
pair that stands alone is replaced, as it is behind an escape. -/
namespace Runbook.Json

/-- How characters are laid out in bytes; the larger units begin with their high byte or their low
one. -/
inductive Encoding
  | bytes
  | pairs (highFirst : Bool)
  | quads (highFirst : Bool)

/-- The encoding of data text without a mark. -/
def unmarked : List UInt8 → Encoding
  | [0, _] => .pairs true
  | [_, 0] => .pairs false
  | 0 :: b :: _ :: _ :: _ => if b = 0 then .quads true else .pairs true
  | _ :: 0 :: c :: d :: _ => if c = 0 ∧ d = 0 then .quads false else .pairs false
  | _ => .bytes

/-- The encoding of data text, and its bytes behind the mark. -/
def encoding : List UInt8 → Encoding × List UInt8
  | 0x00 :: 0x00 :: 0xFE :: 0xFF :: rest => (.quads true, rest)
  | 0xFF :: 0xFE :: 0x00 :: 0x00 :: rest => (.quads false, rest)
  | 0xFE :: 0xFF :: rest => (.pairs true, rest)
  | 0xFF :: 0xFE :: rest => (.pairs false, rest)
  | 0xEF :: 0xBB :: 0xBF :: rest => (.bytes, rest)
  | bytes => (unmarked bytes, bytes)

/-- UTF-8 with U+FFFD for every half of a pair; no other character has a byte 0xED behind its
first one. -/
def withoutHalves : List UInt8 → List UInt8
  | 0xED :: b :: c :: rest =>
    if 0xA0 ≤ b && b ≤ 0xBF && 0x80 ≤ c && c ≤ 0xBF then 0xEF :: 0xBF :: 0xBD :: withoutHalves rest
    else 0xED :: withoutHalves (b :: c :: rest)
  | b :: rest => b :: withoutHalves rest
  | [] => []

/-- The number that bytes stand for. -/
def number (highFirst : Bool) (bytes : List UInt8) : Nat :=
  (if highFirst then bytes else bytes.reverse).foldl (fun n b => n * 256 + b.toNat) 0

/-- The numbers of two bytes each, if the bytes come out even. -/
def halves? (highFirst : Bool) : List UInt8 → Option (List Nat)
  | [] => some []
  | a :: b :: rest => (halves? highFirst rest).map (number highFirst [a, b] :: ·)
  | [_] => none

/-- Characters of one number or a pair of them. -/
def ofHalves : List Nat → List Char
  | n :: m :: rest =>
    if isHighHalf n && isLowHalf m then
      Char.ofNat (0x10000 + (n - 0xD800) * 0x400 + (m - 0xDC00)) :: ofHalves rest
    else unit n :: ofHalves (m :: rest)
  | [n] => [unit n]
  | [] => []

/-- Characters of four bytes each, if the bytes come out even and stand for characters. -/
def ofQuads? (highFirst : Bool) : List UInt8 → Option (List Char)
  | [] => some []
  | a :: b :: c :: d :: rest =>
    let n := number highFirst [a, b, c, d]
    if n < 0x110000 then (ofQuads? highFirst rest).map (unit n :: ·) else none
  | _ => none

/-- The characters of data text, if its bytes are in the encoding that they begin in. -/
def characters? (bytes : List UInt8) : Option (List Char) :=
  match encoding bytes with
  | (.bytes, bytes) => (Text.decode? (withoutHalves bytes)).map (·.toList)
  | (.pairs highFirst, bytes) => (halves? highFirst bytes).map ofHalves
  | (.quads highFirst, bytes) => ofQuads? highFirst bytes

/-- Data text in bytes as a value. A second mark is no mark but a character out of place. -/
def ofBytes (bytes : List UInt8) : Except Fault Value :=
  match characters? bytes with
  | none => .error .badBytes
  | some cs =>
    match cs with
    | '\uFEFF' :: _ => .error ((Failure.expected "Expecting value" cs.length).fault cs)
    | _ => parse (String.ofList cs)

end Runbook.Json
