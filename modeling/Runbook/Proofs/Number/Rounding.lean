import Mathlib.Algebra.Order.Field.Power
import Mathlib.Data.Rat.Cast.Order
import Mathlib.Tactic.Linarith
import Mathlib.Tactic.Positivity
import Mathlib.Tactic.Ring
import Runbook.Number.Shortest
import Runbook.Proofs.Number.Whole

/-! What is rounded to a magnitude.

The quotients that lie between the halfway points to the two neighbours of a magnitude (`Near`) are
rounded to it (`nearestRank_of_near`). Below a power of two the magnitudes lie closer together than
above it, so a quotient there is measured with the finer unit and carried over. -/
namespace Runbook.Number.Binary64

/-! ### The exponent of a quotient -/

/-- A power of two against a quotient, without fractions. -/
theorem zpow_le_quotient (num : Nat) {den : Nat} (some_den : den ≠ 0) (e : Int) :
    (if 0 ≤ e then den * 2 ^ e.toNat ≤ num else den ≤ num * 2 ^ (-e).toNat) ↔
      (2 : ℚ) ^ e ≤ (num : ℚ) / den := by
  have den_pos : (0 : ℚ) < den := by positivity
  rw [le_div_iff₀ den_pos]
  split
  · rename_i natural
    obtain ⟨k, rfl⟩ := Int.eq_ofNat_of_zero_le natural
    rw [Int.toNat_natCast, zpow_natCast, ← Nat.cast_le (α := ℚ)]
    push_cast
    rw [mul_comm]
  · rename_i negative
    obtain ⟨k, rfl⟩ : ∃ k : Nat, e = -k := ⟨(-e).toNat, by omega⟩
    rw [Int.neg_neg, Int.toNat_natCast, zpow_neg, zpow_natCast, ← Nat.cast_le (α := ℚ),
      inv_mul_le_iff₀ (by positivity)]
    push_cast
    rw [mul_comm]

/-- The quotient lies between the powers of two with its exponent and with the next one. -/
theorem binaryExponent_spec {num den : Nat} (some_num : num ≠ 0) (some_den : den ≠ 0) :
    (2 : ℚ) ^ binaryExponent num den ≤ (num : ℚ) / den ∧
      (num : ℚ) / den < 2 ^ (binaryExponent num den + 1) := by
  have num_least : (2 : ℚ) ^ num.log2 ≤ num := by exact_mod_cast Nat.log2_self_le some_num
  have num_below : (num : ℚ) < 2 ^ (num.log2 + 1) := by exact_mod_cast Nat.lt_log2_self
  have den_least : (2 : ℚ) ^ den.log2 ≤ den := by exact_mod_cast Nat.log2_self_le some_den
  have den_below : (den : ℚ) < 2 ^ (den.log2 + 1) := by exact_mod_cast Nat.lt_log2_self
  have den_pos : (0 : ℚ) < den := by positivity
  -- The guess is the exponent or one more.
  have guess_least : (2 : ℚ) ^ ((num.log2 : Int) - den.log2 - 1) ≤ (num : ℚ) / den := by
    rw [le_div_iff₀ den_pos]
    calc (2 : ℚ) ^ ((num.log2 : Int) - den.log2 - 1) * den
        ≤ 2 ^ ((num.log2 : Int) - den.log2 - 1) * 2 ^ (den.log2 + 1) := by gcongr
      _ = 2 ^ num.log2 := by
          rw [← zpow_natCast, ← zpow_natCast, ← zpow_add₀ two_ne_zero]
          congr 1
          omega
      _ ≤ num := num_least
  have guess_below : (num : ℚ) / den < 2 ^ ((num.log2 : Int) - den.log2 + 1) := by
    rw [div_lt_iff₀ den_pos]
    calc (num : ℚ) < 2 ^ (num.log2 + 1) := num_below
      _ = 2 ^ ((num.log2 : Int) - den.log2 + 1) * 2 ^ den.log2 := by
          rw [← zpow_natCast, ← zpow_natCast, ← zpow_add₀ two_ne_zero]
          congr 1
          omega
      _ ≤ 2 ^ ((num.log2 : Int) - den.log2 + 1) * den := by gcongr
  have reached := zpow_le_quotient num some_den ((num.log2 : Int) - den.log2)
  simp only [binaryExponent, pow_eq]
  by_cases here : (2 : ℚ) ^ ((num.log2 : Int) - den.log2) ≤ (num : ℚ) / den
  · rw [if_pos (reached.mpr here)]
    exact ⟨here, guess_below⟩
  · rw [if_neg (mt reached.mp here), Int.sub_add_cancel]
    exact ⟨guess_least, lt_of_not_ge here⟩

/-- The exponent says which powers of two a quotient reaches; both are counted in the units that a
power of two makes. -/
theorem le_binaryExponent {num den : Nat} (some_num : num ≠ 0) (some_den : den ≠ 0)
    (j unit : Nat) :
    (j : Int) - unit ≤ binaryExponent num den ↔ 2 ^ j * den ≤ num * 2 ^ unit := by
  have den_pos : (0 : ℚ) < den := by positivity
  have unit_pos : (0 : ℚ) < 2 ^ unit := by positivity
  have inUnits : (2 : ℚ) ^ ((j : Int) - unit) * 2 ^ unit = 2 ^ j := by
    rw [← zpow_natCast, ← zpow_natCast, ← zpow_add₀ two_ne_zero, Int.sub_add_cancel]
  obtain ⟨least, below⟩ := binaryExponent_spec some_num some_den
  have reached : (j : Int) - unit ≤ binaryExponent num den ↔
      (2 : ℚ) ^ ((j : Int) - unit) ≤ (num : ℚ) / den := by
    refine ⟨fun h => (zpow_le_zpow_right₀ one_le_two h).trans least, fun h => ?_⟩
    exact Int.le_of_lt_add_one
      ((zpow_lt_zpow_iff_right₀ (one_lt_two (α := ℚ))).mp (h.trans_lt below))
  rw [reached, le_div_iff₀ den_pos, ← mul_le_mul_iff_left₀ unit_pos, mul_right_comm, inUnits,
    ← Nat.cast_le (α := ℚ)]
  push_cast
  rfl

/-! ### Rounding to a whole number -/

/-- A quotient is rounded to the whole number that it is within a half of; a half goes to the even
one. -/
theorem roundQuotient_eq {num den m : Nat} (some_den : 0 < den)
    (least : 2 * (m * den) ≤ 2 * num + den) (most : 2 * num ≤ 2 * (m * den) + den)
    (tie : m % 2 = 1 → 2 * (m * den) ≠ 2 * num + den ∧ 2 * num ≠ 2 * (m * den) + den) :
    roundQuotient num den = m := by
  have whole := Nat.div_add_mod' num den
  have left := Nat.mod_lt num some_den
  unfold roundQuotient
  dsimp only
  generalize num % den = t at *
  generalize num / den = q at *
  have near : q = m ∨ q + 1 = m := by
    have above : q * den < (m + 1) * den := by
      rw [Nat.add_mul]
      omega
    have below : m * den < (q + 2) * den := by
      rw [Nat.add_mul]
      omega
    have := Nat.lt_of_mul_lt_mul_right above
    have := Nat.lt_of_mul_lt_mul_right below
    omega
  rcases near with rfl | rfl
  · have notUp : ¬ den < 2 * t := by omega
    rw [if_neg notUp]
    split
    · rfl
    · exact if_pos (by omega)
  · rw [Nat.add_mul] at least most tie
    have up : ¬ 2 * t < den := by omega
    rw [if_neg up]
    split
    · rfl
    · exact if_neg (by omega)

/-! ### Rounding to a magnitude -/

/-- A quotient in units between two powers of two lies on the grid of significands of 53 bits; on
the finest grid it only has to lie below. -/
theorem spacing_of_between {num den k : Nat} (some_num : num ≠ 0) (some_den : den ≠ 0)
    (least : k = 0 ∨ 2 ^ 52 * 2 ^ k * den ≤ num * one) (below : num * one < 2 ^ 53 * 2 ^ k * den) :
    max (binaryExponent num den - 52) (-unitExponent) = (k : Int) - unitExponent := by
  rw [one_eq] at least below
  rw [← Nat.pow_add] at least below
  have reached := (le_binaryExponent some_num some_den (52 + k) unitExponent).mpr
  have above := mt (le_binaryExponent some_num some_den (53 + k) unitExponent).mp
    (Nat.not_le.mpr below)
  rcases least with rfl | least
  · omega
  · have := reached least
    omega

/-- On a grid of significands, a quotient is rounded to the one that it is within a half of. -/
theorem nearestRank_of_significand {num den k m : Nat} (some_num : num ≠ 0) (some_den : den ≠ 0)
    (spacing : max (binaryExponent num den - 52) (-unitExponent) = (k : Int) - unitExponent)
    (least : 2 * m * (2 ^ k * den) ≤ 2 * (num * one) + 2 ^ k * den)
    (most : 2 * (num * one) ≤ 2 * m * (2 ^ k * den) + 2 ^ k * den)
    (tie : m % 2 = 1 → 2 * m * (2 ^ k * den) ≠ 2 * (num * one) + 2 ^ k * den ∧
      2 * (num * one) ≠ 2 * m * (2 ^ k * den) + 2 ^ k * den) :
    nearestRank num den = k * 2 ^ 52 + m := by
  have scaled {a b : Nat} (pos : 0 < b) (same : a * (2 ^ k * den) = num * one * b) :
      roundQuotient a b = m := by
    have grid : 0 < 2 ^ k * den :=
      Nat.mul_pos (Nat.two_pow_pos k) (Nat.pos_of_ne_zero some_den)
    have lower : 2 * (m * b) * (2 ^ k * den) = 2 * m * (2 ^ k * den) * b := by ring
    have upper : (2 * a + b) * (2 ^ k * den) = (2 * (num * one) + 2 ^ k * den) * b := by
      rw [Nat.add_mul, Nat.mul_assoc 2, same]
      ring
    have lower' : (2 * (m * b) + b) * (2 ^ k * den) =
        (2 * m * (2 ^ k * den) + 2 ^ k * den) * b := by ring
    have upper' : 2 * a * (2 ^ k * den) = 2 * (num * one) * b := by
      rw [Nat.mul_assoc 2, same]
      ring
    refine roundQuotient_eq pos ?_ ?_ fun odd => ⟨fun half => ?_, fun half => ?_⟩
    · refine Nat.le_of_mul_le_mul_right ?_ grid
      rw [lower, upper]
      exact Nat.mul_le_mul_right b least
    · refine Nat.le_of_mul_le_mul_right ?_ grid
      rw [lower', upper']
      exact Nat.mul_le_mul_right b most
    · refine (tie odd).1 (Nat.eq_of_mul_eq_mul_right pos ?_)
      rw [← lower, ← upper, half]
    · refine (tie odd).2 (Nat.eq_of_mul_eq_mul_right pos ?_)
      rw [← lower', ← upper', half]
  rw [nearestRank_at some_num spacing, Int.sub_add_cancel, Int.toNat_natCast]
  congr 1
  split
  · obtain ⟨more, rfl⟩ := Nat.exists_eq_add_of_le (show unitExponent ≤ k by omega)
    have exponent : (((unitExponent + more : Nat) : Int) - unitExponent).toNat = more := by omega
    rw [exponent]
    refine scaled (Nat.mul_pos (Nat.pos_of_ne_zero some_den) (Nat.two_pow_pos more)) ?_
    rw [one_eq, Nat.pow_add]
    ring
  · obtain ⟨more, split⟩ := Nat.exists_eq_add_of_le (show k ≤ unitExponent by omega)
    have exponent : (-((k : Int) - unitExponent)).toNat = more := by omega
    rw [exponent]
    refine scaled (Nat.pos_of_ne_zero some_den) ?_
    rw [one_eq, split, Nat.pow_add]
    ring

/-! ### Neighbourhoods -/

/-- Every rank is that of a significand. -/
theorem exists_significand (rank : Nat) :
    ∃ significand k, Canonical significand k ∧ rank = k * 2 ^ 52 + significand := by
  by_cases small : rank < 2 ^ 52
  · exact ⟨rank, 0, ⟨by omega, .inr rfl⟩, by omega⟩
  · exact ⟨rank % 2 ^ 52 + 2 ^ 52, rank / 2 ^ 52 - 1, ⟨by omega, .inl (by omega)⟩, by omega⟩

namespace Canonical

variable {significand k : Nat}

/-- The next magnitude is the next significand. -/
theorem units_succ (h : Canonical significand k) :
    units (k * 2 ^ 52 + significand + 1) = (significand + 1) * 2 ^ k := by
  have below := h.below
  have block : (k * 2 ^ 52 + significand) / Nat.pow 2 52 - 1 = k := by
    have := h.normal
    rw [pow_eq]
    omega
  rw [Binary64.units_succ, h.units_eq, block, pow_eq, Nat.add_mul, Nat.one_mul]

/-- The magnitude before is the significand before, but for the least one of 53 bits. -/
theorem units_pred (h : Canonical (significand + 1) k)
    (inside : 2 ^ 52 ≤ significand ∨ k = 0) :
    units (k * 2 ^ 52 + significand) = significand * 2 ^ k :=
  units_eq ⟨Nat.lt_of_succ_lt h.below, inside⟩

end Canonical

/-- Before the least significand of 53 bits the unit is the next finer one. -/
theorem units_before (k : Nat) :
    units ((k + 1) * 2 ^ 52 + 2 ^ 52 - 1) = (2 ^ 53 - 1) * 2 ^ k := by
  have fine : Canonical (2 ^ 53 - 1) k := ⟨by decide, .inl (by decide)⟩
  rw [show (k + 1) * 2 ^ 52 + 2 ^ 52 - 1 = k * 2 ^ 52 + (2 ^ 53 - 1) by omega, fine.units_eq]

/-- The quotient lies between the halfway points around a magnitude; the points themselves belong to
the even ranks. -/
structure Near (rank num den : Nat) : Prop where
  least : (units (rank - 1) + units rank) * den ≤ 2 * (num * one)
  most : 2 * (num * one) ≤ (units rank + units (rank + 1)) * den
  inside : rank % 2 = 1 → (units (rank - 1) + units rank) * den ≠ 2 * (num * one) ∧
    2 * (num * one) ≠ (units rank + units (rank + 1)) * den

namespace Near

variable {num den significand k : Nat}

/-- The halfway point above, in halves of the unit. -/
theorem most_eq (canonical : Canonical significand k) (den : Nat) :
    (units (k * 2 ^ 52 + significand) + units (k * 2 ^ 52 + significand + 1)) * den =
      2 * significand * (2 ^ k * den) + 2 ^ k * den := by
  rw [canonical.units_eq, canonical.units_succ]
  ring

/-- The halfway point below, in halves of the unit, but for the least significand of 53 bits. -/
theorem least_eq (canonical : Canonical (significand + 1) k)
    (inside : 2 ^ 52 ≤ significand ∨ k = 0) (den : Nat) :
    (units (k * 2 ^ 52 + (significand + 1) - 1) + units (k * 2 ^ 52 + (significand + 1))) * den =
      2 * significand * (2 ^ k * den) + 2 ^ k * den := by
  rw [canonical.units_eq, ← Nat.add_assoc, Nat.add_sub_cancel, canonical.units_pred inside]
  ring

theorem num_ne_zero {rank : Nat} (pos : 0 < rank) (some_den : den ≠ 0) (h : Near rank num den) :
    num ≠ 0 := by
  rintro rfl
  have magnitude : 0 < units rank := Nat.lt_of_le_of_lt (Nat.zero_le _) (units_strictMono pos)
  have := Nat.mul_pos (Nat.add_pos_right (units (rank - 1)) magnitude)
    (Nat.pos_of_ne_zero some_den)
  have := h.least
  omega

theorem below (canonical : Canonical significand k) (some_den : den ≠ 0)
    (h : Near (k * 2 ^ 52 + significand) num den) : num * one < 2 ^ 53 * 2 ^ k * den := by
  have most := h.most
  rw [most_eq canonical] at most
  have grid : 0 < 2 ^ k * den := Nat.mul_pos (Nat.two_pow_pos k) (Nat.pos_of_ne_zero some_den)
  have bound : significand * (2 ^ k * den) ≤ (2 ^ 53 - 1) * (2 ^ k * den) :=
    Nat.mul_le_mul_right _ (Nat.le_sub_one_of_lt canonical.below)
  rw [Nat.mul_assoc] at most ⊢
  omega

/-- On the grid of its own significand. -/
theorem nearestRank_of_coarse (canonical : Canonical significand k)
    (pos : 0 < k * 2 ^ 52 + significand) (some_den : den ≠ 0)
    (h : Near (k * 2 ^ 52 + significand) num den)
    (coarse : k = 0 ∨ 2 ^ 52 * 2 ^ k * den ≤ num * one) :
    nearestRank num den = k * 2 ^ 52 + significand := by
  have some_num := h.num_ne_zero pos some_den
  have spacing := spacing_of_between some_num some_den coarse (h.below canonical some_den)
  have even : (k * 2 ^ 52 + significand) % 2 = significand % 2 := by omega
  obtain ⟨least, most, inside⟩ := h
  rw [even] at inside
  rw [most_eq canonical] at most inside
  by_cases within : 2 ^ 52 < significand ∨ k = 0
  · obtain ⟨below, rfl⟩ : ∃ below, significand = below + 1 := ⟨significand - 1, by omega⟩
    rw [least_eq canonical (within.imp_left Nat.le_of_lt_succ)] at least inside
    have grid : 2 * (below + 1) * (2 ^ k * den) =
        2 * below * (2 ^ k * den) + 2 ^ k * den + 2 ^ k * den := by ring
    refine nearestRank_of_significand some_num some_den spacing ?_ most fun odd => ?_
    · omega
    · have := inside odd
      omega
  · obtain rfl : significand = 2 ^ 52 := by
      have := canonical.normal
      omega
    refine nearestRank_of_significand some_num some_den spacing ?_ most fun odd => ?_
    · have := coarse.resolve_left fun least => within (.inr least)
      rw [Nat.mul_assoc] at this ⊢
      omega
    · cases odd

/-- On the finer grid, from which the rounding carries over. -/
theorem nearestRank_of_fine (canonical : Canonical significand (k + 1)) (some_den : den ≠ 0)
    (h : Near ((k + 1) * 2 ^ 52 + significand) num den)
    (fine : num * one < 2 ^ 52 * 2 ^ (k + 1) * den) :
    nearestRank num den = (k + 1) * 2 ^ 52 + significand := by
  have pos : 0 < (k + 1) * 2 ^ 52 + significand := by omega
  have some_num := h.num_ne_zero pos some_den
  have grid : 0 < 2 ^ k * den := Nat.mul_pos (Nat.two_pow_pos k) (Nat.pos_of_ne_zero some_den)
  have twice : 2 ^ (k + 1) * den = 2 * (2 ^ k * den) := by ring
  rw [Nat.mul_assoc, twice] at fine
  have least := h.least
  obtain rfl : significand = 2 ^ 52 := by
    by_contra other
    obtain ⟨below, rfl⟩ : ∃ below, significand = below + 1 := ⟨significand - 1, by
      have := canonical.normal
      omega⟩
    have normal : 2 ^ 52 ≤ below := by
      have := canonical.normal
      omega
    rw [Near.least_eq canonical (.inl normal), twice, Nat.mul_assoc] at least
    have := Nat.mul_le_mul_right (2 * (2 ^ k * den)) normal
    omega
  have halfway : (units ((k + 1) * 2 ^ 52 + 2 ^ 52 - 1) + units ((k + 1) * 2 ^ 52 + 2 ^ 52)) * den =
      (2 ^ 54 - 1) * (2 ^ k * den) := by
    rw [units_before, canonical.units_eq, Nat.pow_succ' (n := k)]
    ring
  rw [halfway] at least
  have spacing : max (binaryExponent num den - 52) (-unitExponent) = (k : Int) - unitExponent := by
    refine spacing_of_between some_num some_den (.inr ?_) ?_ <;> rw [Nat.mul_assoc] <;> omega
  have carried := nearestRank_of_significand (m := 2 ^ 53) some_num some_den spacing
    (by omega) (by omega) nofun
  rw [carried]
  omega

end Near

/-- What lies around a magnitude is rounded to it. -/
theorem nearestRank_of_near {rank num den : Nat} (pos : 0 < rank) (some_den : den ≠ 0)
    (h : Near rank num den) : nearestRank num den = rank := by
  obtain ⟨significand, k, canonical, rfl⟩ := exists_significand rank
  by_cases coarse : k = 0 ∨ 2 ^ 52 * 2 ^ k * den ≤ num * one
  · exact h.nearestRank_of_coarse canonical pos some_den coarse
  · obtain ⟨k, rfl⟩ := Nat.exists_eq_succ_of_ne_zero fun least => coarse (.inl least)
    exact h.nearestRank_of_fine canonical some_den
      (Nat.lt_of_not_le fun reached => coarse (.inr reached))

end Runbook.Number.Binary64
