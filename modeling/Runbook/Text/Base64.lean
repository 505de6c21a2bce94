/-! Base 64.

`encode` writes the standard alphabet with padding. `decode` is lenient: characters outside
the alphabet are passed over, and the first padding that completes a group ends the text.
What it refuses is a text whose groups do not come out even, or one that is not ASCII. -/
namespace Runbook.Base64

/-- The character for six bits. -/
def digit (n : Nat) : Char :=
  if n < 26 then Char.ofNat (65 + n)
  else if n < 52 then Char.ofNat (71 + n)
  else if n < 62 then Char.ofNat (n - 4)
  else if n = 62 then '+' else '/'

/-- The six bits of a character. -/
def value? (c : Char) : Option Nat :=
  let n := c.toNat
  if 65 ≤ n && n ≤ 90 then some (n - 65)
  else if 97 ≤ n && n ≤ 122 then some (n - 71)
  else if 48 ≤ n && n ≤ 57 then some (n + 4)
  else if c = '+' then some 62
  else if c = '/' then some 63
  else none

/-- Three bytes make four digits; a shorter last group is padded. -/
def encode : List UInt8 → List Char
  | a :: b :: c :: rest =>
    digit (a.toNat / 4) :: digit (a.toNat % 4 * 16 + b.toNat / 16) ::
      digit (b.toNat % 16 * 4 + c.toNat / 64) :: digit (c.toNat % 64) :: encode rest
  | [a, b] =>
    [digit (a.toNat / 4), digit (a.toNat % 4 * 16 + b.toNat / 16), digit (b.toNat % 16 * 4), '=']
  | [a] => [digit (a.toNat / 4), digit (a.toNat % 4 * 16), '=', '=']
  | [] => []

inductive Error
  /-- The text holds a character beyond ASCII. -/
  | notAscii
  /-- One digit is left over; the count is of all digits read. -/
  | oneOver (digits : Nat)
  /-- The last group lacks padding. -/
  | unpadded
deriving DecidableEq, Repr

def Error.message : Error → String
  | .notAscii => "string argument should contain only ASCII characters"
  | .oneOver n => "Invalid base64-encoded string: number of data characters (" ++ toString n ++
      ") cannot be 1 more than a multiple of 4"
  | .unpadded => "Incorrect padding"

/-- How far the current group is: its digit count, the bits carried over, and the padding
characters since the last digit. -/
structure Group where
  digits : Nat
  carry : Nat
  padding : Nat

/-- The bytes that the characters add behind `bytes`, which are in reverse. -/
def decodeFrom (total : Nat) (group : Group) (bytes : List UInt8) :
    List Char → Except Error (List UInt8)
  | [] =>
    if group.digits = 0 then .ok bytes.reverse
    else if group.digits = 1 then .error (.oneOver total)
    else .error .unpadded
  | c :: cs =>
    if c = '=' then
      if 2 ≤ group.digits then
        if 4 ≤ group.digits + group.padding + 1 then .ok bytes.reverse
        else decodeFrom total { group with padding := group.padding + 1 } bytes cs
      else decodeFrom total group bytes cs
    else match value? c with
      | none => decodeFrom total group bytes cs
      | some v =>
        let byte := fun n => UInt8.ofNat (n % 256)
        match group.digits with
        | 0 => decodeFrom (total + 1) ⟨1, v, 0⟩ bytes cs
        | 1 => decodeFrom (total + 1) ⟨2, v % 16, 0⟩ (byte (group.carry * 4 + v / 16) :: bytes) cs
        | 2 => decodeFrom (total + 1) ⟨3, v % 4, 0⟩ (byte (group.carry * 16 + v / 4) :: bytes) cs
        | _ => decodeFrom (total + 1) ⟨0, 0, 0⟩ (byte (group.carry * 64 + v) :: bytes) cs

def decode (cs : List Char) : Except Error (List UInt8) :=
  if cs.all fun c => c.toNat < 128 then decodeFrom 0 ⟨0, 0, 0⟩ [] cs else .error .notAscii

/-- The text form of some bytes. -/
def text (bytes : List UInt8) : String := String.ofList (encode bytes)

end Runbook.Base64
