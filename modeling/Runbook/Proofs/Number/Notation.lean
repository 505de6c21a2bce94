import Runbook.Proofs.Json.Numeral
import Runbook.Proofs.Number.Arithmetic

/-! Which magnitudes are written with a power of ten.

Where the point falls in the shortest decimal of a magnitude depends on the magnitude alone: greater
magnitudes have greater shortest decimals, since these lie around them (`Near.value_lt`). So there
is a least magnitude that is written without a power of ten, and a least one above it that is
written with one again (`isPositional_iff`). -/
namespace Runbook.Number

open Binary64

namespace Decimal

variable {d e : Decimal}

/-! ### The point of a decimal -/

def value (d : Decimal) : ℚ := d.digits * 10 ^ d.exponent

theorem value_eq (d : Decimal) : d.value = (d.num : ℚ) / d.den := by
  obtain ⟨digits, exponent⟩ := d
  rw [value, num, den]
  push_cast
  obtain ⟨k, rfl | rfl⟩ := Int.eq_nat_or_neg exponent
  · simp
  · simp [div_eq_mul_inv]

theorem same_of_value_eq (h : d.value = e.value) : d.Same e := by
  have d_den : (d.den : ℚ) ≠ 0 := Nat.cast_ne_zero.mpr d.den_ne_zero
  have e_den : (e.den : ℚ) ≠ 0 := Nat.cast_ne_zero.mpr e.den_ne_zero
  rw [value_eq, value_eq, div_eq_div_iff d_den e_den] at h
  exact_mod_cast h

/-- The powers of ten up to a decimal end where its point is. -/
theorem pow_le_value_iff (some_digits : d.digits ≠ 0) (k : Int) :
    (10 : ℚ) ^ k ≤ d.value ↔ k < d.point := by
  have most : d.digits < 10 ^ (digitChars d.digits).length := by
    have below := Json.digitsValue_lt (Json.areDigits_digitChars d.digits)
    rwa [Json.digitsValue_digitChars] at below
  have some_chars : (digitChars d.digits).length ≠ 0 :=
    (List.length_pos_iff.mpr (spells_repr d.digits).ne_nil).ne'
  have least : 10 ^ ((digitChars d.digits).length - 1) ≤ d.digits := by
    by_cases single : (digitChars d.digits).length - 1 = 0
    · rw [single]
      exact Nat.pos_of_ne_zero some_digits
    · refine Nat.le_of_not_lt fun below => ?_
      have short := Nat.repr_length d.digits _ (Nat.pos_of_ne_zero single) below
      rw [← String.length_toList] at short
      have same : (Nat.repr d.digits).toList.length = (digitChars d.digits).length := rfl
      omega
  have scale : (0 : ℚ) < 10 ^ d.exponent := by positivity
  have lower : (10 : ℚ) ^ (d.point - 1) ≤ d.value := by
    have exponent : d.point - 1 = ((digitChars d.digits).length - 1 : Nat) + d.exponent := by
      rw [point]
      omega
    rw [exponent, zpow_add₀ (by norm_num), zpow_natCast, value]
    gcongr
    exact_mod_cast least
  have upper : d.value < (10 : ℚ) ^ d.point := by
    rw [point, zpow_add₀ (by norm_num), zpow_natCast, value]
    gcongr
    exact_mod_cast most
  refine ⟨fun reached => ?_, fun before => ?_⟩
  · exact (zpow_lt_zpow_iff_right₀ (by norm_num)).mp (reached.trans_lt upper)
  · exact (zpow_le_zpow_right₀ (by norm_num) (Int.le_sub_one_of_lt before)).trans lower

/-- A decimal around a magnitude is no greater than the halfway point above it, in halves of a
unit. -/
theorem Near.value_le {r : Nat} (h : d.Near r) :
    2 * (d.value * one) ≤ units r + units (r + 1) := by
  have den_pos : (0 : ℚ) < d.den := Nat.cast_pos.mpr (Nat.pos_of_ne_zero d.den_ne_zero)
  have most := h.most
  generalize one = unit at most ⊢
  rw [value_eq, div_mul_eq_mul_div, mul_div_assoc', div_le_iff₀ den_pos]
  exact_mod_cast most

theorem Near.le_value {r : Nat} (h : d.Near r) :
    units (r - 1) + units r ≤ 2 * (d.value * one) := by
  have den_pos : (0 : ℚ) < d.den := Nat.cast_pos.mpr (Nat.pos_of_ne_zero d.den_ne_zero)
  have least := h.least
  generalize one = unit at least ⊢
  rw [value_eq, div_mul_eq_mul_div, mul_div_assoc', le_div_iff₀ den_pos]
  exact_mod_cast least

end Decimal

/-! ### The order of shortest decimals -/

variable {r q : Nat} {d e : Decimal}

/-- A decimal around a lesser magnitude is less. -/
theorem Decimal.Near.value_lt (hd : d.Near r) (he : e.Near q) (pos : 0 < r) (less : r < q) :
    d.value < e.value := by
  have unit_pos : (0 : ℚ) < one := Nat.cast_pos.mpr Binary64.one_pos
  have first : units r ≤ units (q - 1) := units_mono (Nat.le_sub_one_of_lt less)
  have second : units (r + 1) ≤ units q := units_mono less
  have halfway : ((units r + units (r + 1) : Nat) : ℚ) ≤ (units (q - 1) + units q : Nat) :=
    Nat.cast_le.mpr (Nat.add_le_add first second)
  push_cast at halfway
  have ordered : d.value ≤ e.value := by
    have := hd.value_le.trans (halfway.trans he.le_value)
    exact le_of_mul_le_mul_right (le_of_mul_le_mul_left this two_pos) unit_pos
  refine lt_of_le_of_ne ordered fun same => less.ne ?_
  -- One decimal lies around one magnitude only.
  have both := hd.of_same (Decimal.same_of_value_eq same)
  exact (nearestRank_of_near pos e.den_ne_zero both).symm.trans
    (nearestRank_of_near (pos.trans less) e.den_ne_zero he)

/-- Where the shortest decimal of a magnitude is a power of ten, the point falls behind it from that
magnitude on. -/
theorem le_iff_lt_point {p : Int} (power : shortest q = ⟨1, p⟩) (pos : 0 < q) (some_r : 0 < r) :
    q ≤ r ↔ p < (shortest r).point := by
  have value : (shortest q).value = 10 ^ p := by
    rw [power, Decimal.value, Nat.cast_one, one_mul]
  have here := near_shortest some_r
  have there := near_shortest pos
  rw [← Decimal.pow_le_value_iff (here.digits_ne_zero some_r), ← value]
  refine ⟨fun reached => ?_, fun reached => Nat.le_of_not_lt fun less => ?_⟩
  · rcases Nat.lt_or_eq_of_le reached with before | rfl
    · exact (there.value_lt here pos before).le
    · exact le_rfl
  · exact absurd reached (here.value_lt there some_r less).not_ge

/-! ### Positional notation -/

/-- The magnitude is at least `10 ^ -4` and less than `10 ^ 16`. -/
def IsPositional (rank : Nat) : Prop := one ≤ 10 ^ 4 * units rank ∧ units rank < 10 ^ 16 * one

/-- The rank of `10 ^ -4`. -/
def tenThousandth : Nat := nearestRank 1 (10 ^ 4)

/-- The rank of `10 ^ 16`. -/
def tenQuadrillion : Nat := nearestRank (10 ^ 16) 1

theorem shortest_tenThousandth : shortest tenThousandth = ⟨1, -4⟩ := by decide +kernel

theorem shortest_tenQuadrillion : shortest tenQuadrillion = ⟨1, 16⟩ := by decide +kernel

theorem units_tenThousandth : 10 ^ 4 * units (tenThousandth - 1) < one ∧
    one ≤ 10 ^ 4 * units tenThousandth := by decide +kernel

theorem units_tenQuadrillion : units tenQuadrillion = 10 ^ 16 * one := by decide +kernel

theorem isPositional_iff {rank : Nat} (pos : 0 < rank) :
    IsPositional rank ↔ -3 ≤ (shortest rank).point ∧ (shortest rank).point ≤ 16 := by
  have least : one ≤ 10 ^ 4 * units rank ↔ tenThousandth ≤ rank := by
    obtain ⟨below, reached⟩ := units_tenThousandth
    refine ⟨fun h => Nat.le_of_not_lt fun less => ?_, fun h => ?_⟩
    · have := Nat.mul_le_mul_left (10 ^ 4) (units_mono (Nat.le_sub_one_of_lt less))
      omega
    · exact reached.trans (Nat.mul_le_mul_left _ (units_mono h))
  have most : units rank < 10 ^ 16 * one ↔ rank < tenQuadrillion := by
    rw [← units_tenQuadrillion]
    refine ⟨fun h => Nat.lt_of_not_le fun reached => ?_, units_strictMono⟩
    exact absurd (units_mono reached) (Nat.not_le.mpr h)
  have point := le_iff_lt_point shortest_tenThousandth (by decide +kernel) pos
  have point' := le_iff_lt_point shortest_tenQuadrillion (by decide +kernel) pos
  rw [IsPositional, least, most, point, ← Nat.not_le, point']
  omega

end Runbook.Number
