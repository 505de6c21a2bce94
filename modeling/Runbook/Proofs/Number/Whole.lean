import Mathlib.Algebra.Order.Group.Nat
import Runbook.Number.Binary64

/-! Whole numbers in binary floating point.

Rounding depends on the value of a quotient alone (`nearestRank_scale`), and a magnitude of the
format is its own rounding (`Canonical.nearestRank_eq`). Every whole number up to `2 ^ 53` is a
magnitude: read from its numeral it is held exactly. -/
namespace Runbook.Number.Binary64

theorem pow_eq (k : Nat) : Nat.pow 2 k = 2 ^ k := rfl

/-! ### Scaling -/

theorem log2_mul_two_pow {n : Nat} (some_n : n ≠ 0) (j : Nat) :
    (n * 2 ^ j).log2 = n.log2 + j := by
  have scaled : n * 2 ^ j ≠ 0 := Nat.mul_ne_zero some_n (Nat.two_pow_pos j).ne'
  refine (Nat.log2_eq_iff scaled).mpr ⟨?_, ?_⟩
  · rw [Nat.pow_add]
    exact Nat.mul_le_mul_right _ (Nat.log2_self_le some_n)
  · rw [Nat.add_right_comm, Nat.pow_add]
    exact Nat.mul_lt_mul_of_pos_right Nat.lt_log2_self (Nat.two_pow_pos j)

theorem roundQuotient_scale {c : Nat} (pos : 0 < c) (num den : Nat) :
    roundQuotient (num * c) (den * c) = roundQuotient num den := by
  have twice : 2 * (num % den * c) = 2 * (num % den) * c := (Nat.mul_assoc ..).symm
  simp only [roundQuotient, Nat.mul_div_mul_right num den pos, Nat.mul_mod_mul_right, twice,
    Nat.mul_lt_mul_right pos]

theorem roundQuotient_mul {c : Nat} (pos : 0 < c) (n : Nat) : roundQuotient (n * c) c = n := by
  simp only [roundQuotient, Nat.mul_div_cancel n pos, Nat.mul_mod_left, Nat.mul_zero, pos, if_true]

theorem binaryExponent_scale {num den : Nat} (some_num : num ≠ 0) (some_den : den ≠ 0) (j : Nat) :
    binaryExponent (num * 2 ^ j) (den * 2 ^ j) = binaryExponent num den := by
  have guess : ((num.log2 + j : Nat) : Int) - ((den.log2 + j : Nat) : Int) =
      (num.log2 : Int) - den.log2 := by omega
  have above (k : Nat) : den * 2 ^ j * 2 ^ k ≤ num * 2 ^ j ↔ den * 2 ^ k ≤ num := by
    rw [Nat.mul_right_comm, Nat.mul_le_mul_right_iff (Nat.two_pow_pos j)]
  have below (k : Nat) : den * 2 ^ j ≤ num * 2 ^ j * 2 ^ k ↔ den ≤ num * 2 ^ k := by
    rw [Nat.mul_right_comm, Nat.mul_le_mul_right_iff (Nat.two_pow_pos j)]
  simp only [binaryExponent, log2_mul_two_pow some_num, log2_mul_two_pow some_den, guess, pow_eq,
    above, below]

/-- The rank nearest to a quotient depends on the value of the quotient alone. -/
theorem nearestRank_scale (num : Nat) {den : Nat} (some_den : den ≠ 0) (j : Nat) :
    nearestRank (num * 2 ^ j) (den * 2 ^ j) = nearestRank num den := by
  by_cases none : num = 0
  · rw [none, Nat.zero_mul, nearestRank, if_pos rfl, nearestRank, if_pos rfl]
  · have scaled : num * 2 ^ j ≠ 0 := Nat.mul_ne_zero none (Nat.two_pow_pos j).ne'
    have above (k : Nat) : roundQuotient (num * 2 ^ j) (den * 2 ^ j * 2 ^ k) =
        roundQuotient num (den * 2 ^ k) := by
      rw [Nat.mul_right_comm, roundQuotient_scale (Nat.two_pow_pos j)]
    have below (k : Nat) : roundQuotient (num * 2 ^ j * 2 ^ k) (den * 2 ^ j) =
        roundQuotient (num * 2 ^ k) den := by
      rw [Nat.mul_right_comm, roundQuotient_scale (Nat.two_pow_pos j)]
    unfold nearestRank
    rw [if_neg scaled, if_neg none, binaryExponent_scale none some_den]
    simp only [pow_eq, above, below]

/-! ### Magnitudes -/

/-- The exponent of a quotient by a power of two is the difference of the exponents. -/
theorem binaryExponent_two_pow {num : Nat} (some_num : num ≠ 0) (j : Nat) :
    binaryExponent num (2 ^ j) = (num.log2 : Int) - j := by
  have least : 2 ^ num.log2 ≤ num := Nat.log2_self_le some_num
  have reached : if (0 : Int) ≤ num.log2 - j then 2 ^ j * 2 ^ ((num.log2 : Int) - j).toNat ≤ num
      else 2 ^ j ≤ num * 2 ^ (-((num.log2 : Int) - j)).toNat := by
    split
    · obtain ⟨k, log⟩ := Nat.exists_eq_add_of_le (show j ≤ num.log2 by omega)
      have exponent : ((num.log2 : Int) - j).toNat = k := by omega
      rwa [exponent, ← Nat.pow_add, ← log]
    · obtain ⟨k, log⟩ := Nat.exists_eq_add_of_le (show num.log2 ≤ j by omega)
      have exponent : (-((num.log2 : Int) - j)).toNat = k := by omega
      rw [exponent, log, Nat.pow_add]
      exact Nat.mul_le_mul_right _ least
  simp only [binaryExponent, Nat.log2_two_pow, pow_eq]
  exact if_pos reached

/-- One has two to this power of units. -/
def unitExponent : Nat := 1074

theorem one_eq : one = 2 ^ unitExponent := by
  unfold one
  -- The power is not to be evaluated.
  generalize exponent : (1074 : Nat) = e
  rw [show unitExponent = e from exponent]
  rfl

theorem one_pos : 0 < one := one_eq ▸ Nat.two_pow_pos unitExponent

theorem nearestRank_at {num den : Nat} {spacing : Int} (some_num : num ≠ 0)
    (h : max (binaryExponent num den - 52) (-unitExponent) = spacing) :
    nearestRank num den = (spacing + unitExponent).toNat * 2 ^ 52 +
      if 0 ≤ spacing then roundQuotient num (den * 2 ^ spacing.toNat)
      else roundQuotient (num * 2 ^ (-spacing).toNat) den := by
  subst h
  exact if_neg some_num

/-- A significand and the exponent of its unit, as the format holds them: only the least exponent
has significands of less than 53 bits. -/
structure Canonical (significand k : Nat) : Prop where
  below : significand < 2 ^ 53
  normal : 2 ^ 52 ≤ significand ∨ k = 0

namespace Canonical

variable {significand k : Nat}

theorem units_eq (h : Canonical significand k) :
    units (k * 2 ^ 52 + significand) = significand * 2 ^ k := by
  have below := h.below
  by_cases normal : 2 ^ 52 ≤ significand
  · have block : (k * 2 ^ 52 + significand) / 2 ^ 52 - 1 = k := by omega
    have place : (k * 2 ^ 52 + significand) % 2 ^ 52 + 2 ^ 52 = significand := by omega
    have later : ¬ k * 2 ^ 52 + significand < 2 ^ 52 := by omega
    simp only [units, pow_eq, later, if_false, block, place]
  · have least : k = 0 := h.normal.resolve_left normal
    rw [least, Nat.zero_mul, Nat.zero_add, Nat.pow_zero, Nat.mul_one]
    exact units_of_lt (Nat.lt_of_not_le normal)

/-- The spacing of the format at what it holds is the unit of the significand. -/
theorem spacing (h : Canonical significand k) (some_significand : significand ≠ 0) :
    max (((significand * 2 ^ k).log2 : Int) - unitExponent - 52) (-unitExponent) =
      (k : Int) - unitExponent := by
  have log : significand.log2 < 53 := (Nat.log2_lt some_significand).mpr h.below
  rw [log2_mul_two_pow some_significand]
  rcases h.normal with normal | rfl
  · have : 52 ≤ significand.log2 := (Nat.le_log2 some_significand).mpr normal
    omega
  · omega

/-- What the format holds is not rounded. -/
theorem nearestRank_eq (h : Canonical significand k) :
    nearestRank (significand * 2 ^ k) one = k * 2 ^ 52 + significand := by
  by_cases none : significand = 0
  · have least : k = 0 := h.normal.resolve_left (by omega)
    rw [none, least, Nat.zero_mul, Nat.zero_mul, nearestRank, if_pos rfl]
  have some_num : significand * 2 ^ k ≠ 0 := Nat.mul_ne_zero none (Nat.two_pow_pos k).ne'
  have exponent : binaryExponent (significand * 2 ^ k) one =
      ((significand * 2 ^ k).log2 : Int) - unitExponent := by
    rw [one_eq]
    exact binaryExponent_two_pow some_num unitExponent
  have rounded : (if (0 : Int) ≤ (k : Int) - unitExponent then
        roundQuotient (significand * 2 ^ k) (one * 2 ^ ((k : Int) - unitExponent).toNat)
      else roundQuotient (significand * 2 ^ k * 2 ^ (-((k : Int) - unitExponent)).toNat) one) =
        significand := by
    split
    · obtain ⟨more, split⟩ := Nat.exists_eq_add_of_le (show unitExponent ≤ k by omega)
      have above : ((k : Int) - unitExponent).toNat = more := by omega
      rw [above, one_eq, ← Nat.pow_add, ← split, roundQuotient_mul (Nat.two_pow_pos k)]
    · obtain ⟨more, split⟩ := Nat.exists_eq_add_of_le (show k ≤ unitExponent by omega)
      have below : (-((k : Int) - unitExponent)).toNat = more := by omega
      rw [below, Nat.mul_assoc, ← Nat.pow_add, ← split, ← one_eq, roundQuotient_mul one_pos]
  have spacing := h.spacing none
  rw [← exponent] at spacing
  rw [nearestRank_at some_num spacing, rounded, Int.sub_add_cancel,
    Int.toNat_natCast]

end Canonical

/-- A number of at most 53 bits, in any unit from the least on, is one that the format holds. -/
theorem exists_canonical {n : Nat} (below : n < 2 ^ 53) (j : Nat) :
    ∃ significand k, Canonical significand k ∧ significand * 2 ^ k = n * 2 ^ j ∧ k ≤ j := by
  induction j generalizing n with
  | zero => exact ⟨n, 0, ⟨below, .inr rfl⟩, rfl, Nat.le_refl 0⟩
  | succ j ih =>
    by_cases normal : 2 ^ 52 ≤ n
    · exact ⟨n, j + 1, ⟨below, .inl normal⟩, rfl, Nat.le_refl _⟩
    · obtain ⟨significand, k, canonical, same, least⟩ := ih (n := n * 2) (by omega)
      refine ⟨significand, k, canonical, ?_, Nat.le_succ_of_le least⟩
      rw [same, Nat.mul_assoc, Nat.pow_succ']

/-! ### Whole numbers -/

/-- The value is a whole number, without a sign. -/
def Is (x : Binary64) (n : Nat) : Prop :=
  ∃ rank : Fin ranks, x = .finite false rank ∧ units rank = n * one

/-- The greatest number up to which all whole numbers are values. -/
def wholeLimit : Nat := 2 ^ 53

theorem ofQuotient_finite (negative : Bool) {num den : Nat} (h : nearestRank num den < ranks) :
    ofQuotient negative num den = .finite negative ⟨nearestRank num den, h⟩ := dif_pos h

/-- No rounding changes a whole number up to the limit. -/
theorem is_ofQuotient {n : Nat} (small : n ≤ wholeLimit) :
    Is (ofQuotient false (n * one) one) n := by
  have held : ∃ significand k, Canonical significand k ∧ significand * 2 ^ k = n * one ∧
      k ≤ unitExponent + 1 := by
    rw [one_eq]
    by_cases below : n < 2 ^ 53
    · obtain ⟨significand, k, canonical, same, least⟩ := exists_canonical below unitExponent
      exact ⟨significand, k, canonical, same, Nat.le_succ_of_le least⟩
    · have greatest : n = 2 ^ 52 * 2 := Nat.le_antisymm small (Nat.le_of_not_lt below)
      refine ⟨2 ^ 52, unitExponent + 1, ⟨by decide, .inl (Nat.le_refl _)⟩, ?_, Nat.le_refl _⟩
      rw [greatest, Nat.mul_assoc, Nat.pow_succ' (n := unitExponent)]
  obtain ⟨significand, k, canonical, same, least⟩ := held
  have rank := canonical.nearestRank_eq
  have finite : nearestRank (n * one) one < ranks := by
    have below := canonical.below
    have all : ranks = 2047 * 2 ^ 52 := rfl
    have exponent : unitExponent = 1074 := rfl
    rw [← same, rank]
    omega
  refine ⟨⟨_, finite⟩, ofQuotient_finite false finite, ?_⟩
  dsimp only
  rw [← same, rank, canonical.units_eq]

theorem is_ofNat {n : Nat} (small : n ≤ wholeLimit) : Is (ofQuotient false n 1) n := by
  have scaled : nearestRank (n * one) one = nearestRank n 1 := by
    have := nearestRank_scale n Nat.one_ne_zero unitExponent
    rwa [Nat.one_mul, ← one_eq] at this
  have whole := is_ofQuotient small
  unfold ofQuotient at whole ⊢
  rwa [scaled] at whole

theorem is_zero : Is (zero false) 0 := ⟨⟨0, by decide⟩, rfl, (Nat.zero_mul one).symm⟩

/-- The numeral of a whole number is read exactly. -/
theorem is_ofDecimal {n : Nat} (small : n ≤ wholeLimit) : Is (ofDecimal false n 0) n := by
  by_cases none : n = 0
  · subst none
    exact is_zero
  · have log : n.log2 ≤ 53 := by
      have : n < 2 ^ 54 := Nat.lt_of_le_of_lt small (by decide)
      exact Nat.lt_succ_iff.mp ((Nat.log2_lt none).mpr this)
    have above : ¬ 400 < (n.log2 : Int) * 3 / 10 + 0 := by omega
    have below : ¬ (n.log2 : Int) * 3 / 10 + 0 + (n.log2 : Int) / 20 + 2 < -400 := by omega
    have exact_here : n * Nat.pow 10 (0 : Int).toNat = n := Nat.mul_one n
    simp only [ofDecimal, none, above, below, if_false, Int.le_refl, if_true, exact_here]
    exact is_ofNat small

end Runbook.Number.Binary64
