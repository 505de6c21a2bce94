/-! Binary floating point of 64 bits.

A finite value is its sign and its *rank*: how many magnitudes of the format lie below it.
The rank is the value's bit pattern without the sign, so every rank below `ranks` is a
value, equal ranks are equal magnitudes, and the order of ranks is the order of magnitudes
(`units_strictMono`). Every magnitude is a whole number of units of `2 ^ -1074`, and all
arithmetic is exact on those before one rounding to the nearest rank, ties to the even one. -/
namespace Runbook.Number

/-- The number of finite magnitudes. -/
def ranks : Nat := 2047 * Nat.pow 2 52

inductive Binary64
  | nan
  | infinite (negative : Bool)
  | finite (negative : Bool) (rank : Fin ranks)
deriving DecidableEq, Repr

namespace Binary64

instance : Inhabited Binary64 := ⟨.nan⟩

/-- The magnitude of a rank in units of `2 ^ -1074`: below `2 ^ 52` ranks are units, and each
further block of `2 ^ 52` ranks has twice the spacing of the one before. -/
def units (rank : Nat) : Nat :=
  let block := Nat.pow 2 52
  if rank < block then rank else (rank % block + block) * Nat.pow 2 (rank / block - 1)

/-- Units in one. -/
def one : Nat := Nat.pow 2 1074

/-- The nearest whole number to a quotient, ties to the even one. -/
def roundQuotient (num den : Nat) : Nat :=
  let q := num / den
  let twice := 2 * (num % den)
  if twice < den then q
  else if den < twice then q + 1
  else if q % 2 = 0 then q else q + 1

/-- The greatest `e` with `2 ^ e` at most the quotient. -/
def binaryExponent (num den : Nat) : Int :=
  let guess : Int := (Nat.log2 num : Int) - (Nat.log2 den : Int)
  let reached :=
    if 0 ≤ guess then den * Nat.pow 2 guess.toNat ≤ num
    else den ≤ num * Nat.pow 2 (-guess).toNat
  if reached then guess else guess - 1

/-- The rank nearest to a quotient; one of `ranks` or more stands for an overflow. -/
def nearestRank (num den : Nat) : Nat :=
  if num = 0 then 0
  else
    let spacing := max (binaryExponent num den - 52) (-1074)
    let significand :=
      if 0 ≤ spacing then roundQuotient num (den * Nat.pow 2 spacing.toNat)
      else roundQuotient (num * Nat.pow 2 (-spacing).toNat) den
    (spacing + 1074).toNat * Nat.pow 2 52 + significand

/-- The quotient `num / den` with a sign, rounded. -/
def ofQuotient (negative : Bool) (num den : Nat) : Binary64 :=
  let rank := nearestRank num den
  if h : rank < ranks then .finite negative ⟨rank, h⟩ else .infinite negative

def zero (negative : Bool) : Binary64 := .finite negative ⟨0, by decide⟩

/-- A whole number, rounded. -/
def ofInt (n : Int) : Binary64 := ofQuotient (n < 0) n.natAbs 1

/-- Whether a whole number is beyond the finite values. -/
def exceeds (n : Int) : Bool := ranks ≤ nearestRank n.natAbs 1

/-- The decimal fraction `digits * 10 ^ exponent`, rounded. Fractions far outside the range of
the format are settled by their order of magnitude alone. -/
def ofDecimal (negative : Bool) (digits : Nat) (exponent : Int) : Binary64 :=
  let magnitude := (Nat.log2 digits : Int) * 3 / 10 + exponent
  if digits = 0 then zero negative
  else if 400 < magnitude then .infinite negative
  else if magnitude + (Nat.log2 digits : Int) / 20 + 2 < -400 then zero negative
  else if 0 ≤ exponent then ofQuotient negative (digits * Nat.pow 10 exponent.toNat) 1
  else ofQuotient negative digits (Nat.pow 10 (-exponent).toNat)

def isNegative : Binary64 → Bool
  | .nan => false
  | .infinite s => s
  | .finite s _ => s

def isFinite : Binary64 → Bool
  | .finite .. => true
  | _ => false

/-- A finite value in units, with its sign. -/
def signedUnits (negative : Bool) (rank : Nat) : Int :=
  if negative then -(units rank : Int) else units rank

/-- A whole number of units; an empty sum takes the given sign. -/
def ofUnits (zeroSign : Bool) (n : Int) : Binary64 :=
  if n = 0 then zero zeroSign else ofQuotient (n < 0) n.natAbs one

def neg : Binary64 → Binary64
  | .nan => .nan
  | .infinite s => .infinite !s
  | .finite s r => .finite (!s) r

def add : Binary64 → Binary64 → Binary64
  | .nan, _ | _, .nan => .nan
  | .infinite s, .infinite t => if s = t then .infinite s else .nan
  | .infinite s, _ | _, .infinite s => .infinite s
  | .finite s r, .finite t q => ofUnits (s && t) (signedUnits s r + signedUnits t q)

def sub (x y : Binary64) : Binary64 := add x (neg y)

def isZero : Binary64 → Bool
  | .finite _ r => r.val == 0
  | _ => false

def mul : Binary64 → Binary64 → Binary64
  | .nan, _ | _, .nan => .nan
  | .infinite s, y => if y.isZero then .nan else .infinite (s != y.isNegative)
  | x, .infinite t => if x.isZero then .nan else .infinite (x.isNegative != t)
  | .finite s r, .finite t q => ofQuotient (s != t) (units r * units q) (one * one)

/-- Division; a divisor of zero is the caller's to exclude and gives a value that is no number. -/
def div : Binary64 → Binary64 → Binary64
  | .nan, _ | _, .nan => .nan
  | .infinite _, .infinite _ => .nan
  | .infinite s, .finite t _ => .infinite (s != t)
  | .finite s _, .infinite t => zero (s != t)
  | .finite s r, .finite t q =>
    if q.val = 0 then .nan else ofQuotient (s != t) (units r) (units q)

/-- The remainder with the sign of the dividend; none for an infinite dividend or a divisor
of zero. -/
def rem? : Binary64 → Binary64 → Option Binary64
  | .nan, _ | _, .nan => some .nan
  | .infinite _, _ => none
  | x, .infinite _ => some x
  | .finite s r, .finite _ q =>
    if q.val = 0 then none else some (ofQuotient s (units r % units q) one)

/-- The order of two values; none where one of them is not a number. -/
def compare? : Binary64 → Binary64 → Option Ordering
  | .nan, _ | _, .nan => none
  | .infinite s, .infinite t =>
    some (if s = t then .eq else if s then .lt else .gt)
  | .infinite s, _ => some (if s then .lt else .gt)
  | _, .infinite t => some (if t then .gt else .lt)
  | .finite s r, .finite t q => some (compare (signedUnits s r) (signedUnits t q))

/-- The whole number that a value is, if it is one. -/
def toInt? : Binary64 → Option Int
  | .finite s r =>
    if units r % one = 0 then
      some (if s then -(units r / one : Nat) else (units r / one : Nat))
    else none
  | _ => none

/-- The value without its fraction; none for an infinite value or one that is no number. -/
def truncate? : Binary64 → Option Int
  | .finite s r => some (if s then -(units r / one : Nat) else (units r / one : Nat))
  | _ => none

theorem units_of_lt {r : Nat} (h : r < Nat.pow 2 52) : units r = r := if_pos h

/-- Neighbouring ranks lie one spacing of the lower one apart. -/
theorem units_succ (r : Nat) :
    units (r + 1) = units r + Nat.pow 2 (r / Nat.pow 2 52 - 1) := by
  have hp : Nat.pow 2 52 = 4503599627370496 := by decide
  simp only [units, hp]
  by_cases h : r < 4503599627370496
  · have hd : r / 4503599627370496 = 0 := Nat.div_eq_of_lt h
    by_cases h' : r + 1 < 4503599627370496
    · rw [if_pos h, if_pos h', hd]
    · have hr : r = 4503599627370495 := by omega
      subst hr; decide
  · have h' : ¬ r + 1 < 4503599627370496 := by omega
    rw [if_neg h, if_neg h']
    obtain ⟨k, hk⟩ : ∃ k, r / 4503599627370496 = k + 1 :=
      ⟨r / 4503599627370496 - 1, by omega⟩
    by_cases hm : r % 4503599627370496 = 4503599627370495
    · have h1 : (r + 1) % 4503599627370496 = 0 := by omega
      have h2 : (r + 1) / 4503599627370496 = k + 2 := by omega
      rw [h1, h2, hm, hk]
      simp only [Nat.add_sub_cancel, Nat.reduceAdd, Nat.zero_add, Nat.add_succ_sub_one]
      rw [show Nat.pow 2 (k + 1) = Nat.pow 2 k * 2 from rfl]
      omega
    · have h1 : (r + 1) % 4503599627370496 = r % 4503599627370496 + 1 := by omega
      have h2 : (r + 1) / 4503599627370496 = k + 1 := by omega
      rw [h1, h2, hk]
      simp only [Nat.add_sub_cancel]
      rw [show r % 4503599627370496 + 1 + 4503599627370496
        = (r % 4503599627370496 + 4503599627370496) + 1 by omega, Nat.add_mul, Nat.one_mul]

/-- The order of ranks is the order of magnitudes. -/
theorem units_strictMono {r s : Nat} (h : r < s) : units r < units s := by
  induction s with
  | zero => omega
  | succ s ih =>
    have hs := units_succ s
    have hp : 0 < Nat.pow 2 (s / Nat.pow 2 52 - 1) := Nat.two_pow_pos _
    rcases Nat.lt_succ_iff_lt_or_eq.1 h with h | h
    · have := ih h; omega
    · subst h; omega

end Binary64
end Runbook.Number
