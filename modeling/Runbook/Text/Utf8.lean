/-! UTF-8, with a replacement for what is not UTF-8.

Bytes from outside are read in one of two ways: `decode?` refuses anything that is not
UTF-8, `decodeLossy` puts U+FFFD for each maximal part that starts like a character and
does not go on like one. -/
namespace Runbook.Text

/-- The bytes of a text. -/
def encode (s : String) : List UInt8 := s.toUTF8.toList

def decode? (bytes : List UInt8) : Option String := String.fromUTF8? ⟨bytes.toArray⟩

/-- What a first byte announces: how many bytes follow, the range of the first of them, and
the bits that the first byte itself brings. -/
def leading? (b : UInt8) : Option (Nat × Nat × Nat × Nat) :=
  let n := b.toNat
  if n < 0x80 then some (0, 0, 0, n)
  else if 0xC2 ≤ n && n ≤ 0xDF then some (1, 0x80, 0xBF, n - 0xC0)
  else if n == 0xE0 then some (2, 0xA0, 0xBF, 0)
  else if n == 0xED then some (2, 0x80, 0x9F, 13)
  else if 0xE1 ≤ n && n ≤ 0xEF then some (2, 0x80, 0xBF, n - 0xE0)
  else if n == 0xF0 then some (3, 0x90, 0xBF, 0)
  else if 0xF1 ≤ n && n ≤ 0xF3 then some (3, 0x80, 0xBF, n - 0xF0)
  else if n == 0xF4 then some (3, 0x80, 0x8F, 4)
  else none

/-- The code point that `count` more bytes complete, or none where a byte does not fit;
either way the bytes that are left. -/
def completed (bits : Nat) : Nat → Nat → Nat → List UInt8 → Option Nat × List UInt8
  | 0, _, _, bytes => (some bits, bytes)
  | _ + 1, _, _, [] => (none, [])
  | count + 1, low, high, b :: bytes =>
    if low ≤ b.toNat && b.toNat ≤ high
    then completed (bits * 64 + (b.toNat - 0x80)) count 0x80 0xBF bytes
    else (none, b :: bytes)

theorem completed_length_le (bits count low high : Nat) (bytes : List UInt8) :
    (completed bits count low high bytes).2.length ≤ bytes.length := by
  fun_induction completed bits count low high bytes with
  | case1 => simp
  | case2 => simp
  | case3 _ _ _ _ _ _ _ ih => simp; omega
  | case4 => simp

/-- The character at the front, or U+FFFD for the part in its place, and the bytes behind. -/
def firstLossy (b : UInt8) (bytes : List UInt8) : Char × List UInt8 :=
  match leading? b with
  | none => ('\uFFFD', bytes)
  | some (count, low, high, bits) =>
    match completed bits count low high bytes with
    | (some n, rest) => (Char.ofNat n, rest)
    | (none, rest) => ('\uFFFD', rest)

theorem firstLossy_length_le (b : UInt8) (bytes : List UInt8) :
    (firstLossy b bytes).2.length ≤ bytes.length := by
  unfold firstLossy
  split
  · simp
  · next count low high bits _ =>
    have := completed_length_le bits count low high bytes
    split <;> simp_all

def decodeLossy : List UInt8 → List Char
  | [] => []
  | b :: bytes => (firstLossy b bytes).1 :: decodeLossy (firstLossy b bytes).2
termination_by bytes => bytes.length
decreasing_by
  have := firstLossy_length_le b bytes
  simp; omega

end Runbook.Text
