import Runbook.Text.Quoted
import Runbook.Text.Utf8

/-! The digest by which an index knows that a note has changed: SHA-256.

The message is padded to blocks of sixteen words; each block is stretched to sixty-four words
and stirred into eight words of state, which are the digest in the end. -/
namespace Runbook.Digest

/-- The round constants: fractions of the cube roots of the first primes. -/
def constants : List UInt32 := [
  0x428a2f98, 0x71374491, 0xb5c0fbcf, 0xe9b5dba5, 0x3956c25b, 0x59f111f1, 0x923f82a4, 0xab1c5ed5,
  0xd807aa98, 0x12835b01, 0x243185be, 0x550c7dc3, 0x72be5d74, 0x80deb1fe, 0x9bdc06a7, 0xc19bf174,
  0xe49b69c1, 0xefbe4786, 0x0fc19dc6, 0x240ca1cc, 0x2de92c6f, 0x4a7484aa, 0x5cb0a9dc, 0x76f988da,
  0x983e5152, 0xa831c66d, 0xb00327c8, 0xbf597fc7, 0xc6e00bf3, 0xd5a79147, 0x06ca6351, 0x14292967,
  0x27b70a85, 0x2e1b2138, 0x4d2c6dfc, 0x53380d13, 0x650a7354, 0x766a0abb, 0x81c2c92e, 0x92722c85,
  0xa2bfe8a1, 0xa81a664b, 0xc24b8b70, 0xc76c51a3, 0xd192e819, 0xd6990624, 0xf40e3585, 0x106aa070,
  0x19a4c116, 0x1e376c08, 0x2748774c, 0x34b0bcb5, 0x391c0cb3, 0x4ed8aa4a, 0x5b9cca4f, 0x682e6ff3,
  0x748f82ee, 0x78a5636f, 0x84c87814, 0x8cc70208, 0x90befffa, 0xa4506ceb, 0xbef9a3f7, 0xc67178f2]

structure State where
  a : UInt32
  b : UInt32
  c : UInt32
  d : UInt32
  e : UInt32
  f : UInt32
  g : UInt32
  h : UInt32

/-- The first state: fractions of the square roots of the first primes. -/
def initial : State :=
  ⟨0x6a09e667, 0xbb67ae85, 0x3c6ef372, 0xa54ff53a, 0x510e527f, 0x9b05688c, 0x1f83d9ab, 0x5be0cd19⟩

def rotate (x : UInt32) (n : UInt32) : UInt32 := (x >>> n) ||| (x <<< (32 - n))

/-- One round, with a word of the block and its constant. -/
def stir (s : State) (wk : UInt32 × UInt32) : State :=
  let big1 := rotate s.e 6 ^^^ rotate s.e 11 ^^^ rotate s.e 25
  let choice := (s.e &&& s.f) ^^^ (~~~s.e &&& s.g)
  let t1 := s.h + big1 + choice + wk.2 + wk.1
  let big0 := rotate s.a 2 ^^^ rotate s.a 13 ^^^ rotate s.a 22
  let majority := (s.a &&& s.b) ^^^ (s.a &&& s.c) ^^^ (s.b &&& s.c)
  ⟨t1 + (big0 + majority), s.a, s.b, s.c, s.d + t1, s.e, s.f, s.g⟩

/-- The next word of a stretched block, from the last sixteen, which are in reverse. -/
def nextWord : List UInt32 → UInt32
  | [_, w2, _, _, _, _, w7, _, _, _, _, _, _, _, w15, w16] =>
    let small0 := rotate w15 7 ^^^ rotate w15 18 ^^^ (w15 >>> 3)
    let small1 := rotate w2 17 ^^^ rotate w2 19 ^^^ (w2 >>> 10)
    small1 + w7 + small0 + w16
  | _ => 0

/-- More words behind those of a block, all in reverse. -/
def stretch : Nat → List UInt32 → List UInt32
  | 0, words => words
  | n + 1, words => stretch n (nextWord (words.take 16) :: words)

/-- A block of words stirred into a state. -/
def absorb (s : State) (block : List UInt32) : State :=
  let words := (stretch 48 block.reverse).reverse
  let t := (words.zip constants).foldl stir s
  ⟨s.a + t.a, s.b + t.b, s.c + t.c, s.d + t.d, s.e + t.e, s.f + t.f, s.g + t.g, s.h + t.h⟩

/-- The number of zero bytes that the padding needs for a message of a length. -/
def zerosFor (length : Nat) : Nat := (119 - length % 64) % 64

/-- The bytes of a number, the highest first. -/
def bytesOf : Nat → Nat → List UInt8
  | 0, _ => []
  | count + 1, n => bytesOf count (n / 256) ++ [UInt8.ofNat (n % 256)]

def padded (bytes : List UInt8) : List UInt8 :=
  bytes ++ 0x80 :: List.replicate (zerosFor bytes.length) 0 ++ bytesOf 8 (bytes.length * 8)

def words : List UInt8 → List UInt32
  | a :: b :: c :: d :: rest =>
    (a.toUInt32 <<< 24 ||| b.toUInt32 <<< 16 ||| c.toUInt32 <<< 8 ||| d.toUInt32) :: words rest
  | _ => []

/-- Words stirred in block by block; `blocks` counts them. -/
def absorbAll (s : State) : Nat → List UInt32 → State
  | 0, _ => s
  | blocks + 1, ws => absorbAll (absorb s (ws.take 16)) blocks (ws.drop 16)

/-- The digest of some bytes in hexadecimal digits. -/
def hexDigest (bytes : List UInt8) : String :=
  let ws := words (padded bytes)
  let s := absorbAll initial (ws.length / 16) ws
  String.ofList ([s.a, s.b, s.c, s.d, s.e, s.f, s.g, s.h].flatMap fun w => Text.hex 8 w.toNat)

end Runbook.Digest
