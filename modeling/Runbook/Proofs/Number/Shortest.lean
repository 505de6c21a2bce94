import Runbook.Proofs.Number.Rounding

/-! The shortest decimal reads back.

What the search for a short decimal returns lies around the magnitude (`near_shortest`): on
seventeen digits the value's nearer neighbour on the grid does, so the search does not come back
with nothing. And a decimal around a magnitude is read as it, however many zeros stand at the end of
its digits (`ofDecimal_of_near`). -/
namespace Runbook.Number

open Binary64

/-! ### Decimals as quotients -/

namespace Decimal

/-- The numerator of a decimal over a power of ten. -/
def num (d : Decimal) : Nat := d.digits * 10 ^ d.exponent.toNat

/-- The denominator of a decimal, a power of ten. -/
def den (d : Decimal) : Nat := 10 ^ (-d.exponent).toNat

theorem den_ne_zero (d : Decimal) : d.den ≠ 0 := (Nat.pow_pos (by decide)).ne'

/-- How far right of the front of its digits the point of a decimal falls. -/
def point (d : Decimal) : Int := (digitChars d.digits).length + d.exponent

/-- Whether two decimals have one value. -/
def Same (d e : Decimal) : Prop := d.num * e.den = e.num * d.den

/-- Zeros at the end of the digits count as much as the exponent. -/
theorem same_zeros (digits zeros : Nat) (exponent : Int) :
    Same ⟨digits * 10 ^ zeros, exponent⟩ ⟨digits, exponent + zeros⟩ := by
  have powers : zeros + exponent.toNat + (-(exponent + zeros)).toNat =
      (exponent + zeros).toNat + (-exponent).toNat := by omega
  simp only [Same, num, den]
  calc digits * 10 ^ zeros * 10 ^ exponent.toNat * 10 ^ (-(exponent + zeros)).toNat
      = digits * 10 ^ (zeros + exponent.toNat + (-(exponent + zeros)).toNat) := by
        rw [Nat.pow_add, Nat.pow_add]
        ring
    _ = digits * 10 ^ (exponent + zeros).toNat * 10 ^ (-exponent).toNat := by
        rw [powers, Nat.pow_add]
        ring

/-- Whether a decimal lies around the magnitude of a rank. -/
def Near (rank : Nat) (d : Decimal) : Prop := Binary64.Near rank d.num d.den

theorem Near.of_same {rank : Nat} {d e : Decimal} (h : d.Near rank) (same : d.Same e) :
    e.Near rank := by
  have den_pos := Nat.pos_of_ne_zero d.den_ne_zero
  have least (a : Nat) : a * e.den * d.den = a * d.den * e.den := Nat.mul_right_comm ..
  have value : 2 * (e.num * one) * d.den = 2 * (d.num * one) * e.den := by
    rw [Nat.mul_assoc 2, Nat.mul_assoc 2, Nat.mul_right_comm, ← same, Nat.mul_right_comm]
  refine ⟨?_, ?_, fun odd => ⟨fun half => ?_, fun half => ?_⟩⟩
  · refine Nat.le_of_mul_le_mul_right ?_ den_pos
    rw [least, value]
    exact Nat.mul_le_mul_right _ h.least
  · refine Nat.le_of_mul_le_mul_right ?_ den_pos
    rw [least, value]
    exact Nat.mul_le_mul_right _ h.most
  · refine (h.inside odd).1 (Nat.eq_of_mul_eq_mul_right (Nat.pos_of_ne_zero e.den_ne_zero) ?_)
    rw [← least, ← value, half]
  · refine (h.inside odd).2 (Nat.eq_of_mul_eq_mul_right (Nat.pos_of_ne_zero e.den_ne_zero) ?_)
    rw [← least, ← value, half]

end Decimal

/-! ### Reading a decimal -/

theorem two_pow_le_ten_pow (n : Nat) : 2 ^ (3 * n) ≤ 10 ^ n := by
  rw [Nat.pow_mul]
  exact Nat.pow_le_pow_left (by decide) n

theorem ten_pow_le_two_pow (n : Nat) : 10 ^ n ≤ 2 ^ (10 * (n / 3 + 1)) := by
  calc 10 ^ n ≤ 10 ^ (3 * (n / 3 + 1)) := Nat.pow_le_pow_right (by decide) (by omega)
    _ ≤ 2 ^ (10 * (n / 3 + 1)) := by
      rw [Nat.pow_mul, Nat.pow_mul]
      exact Nat.pow_le_pow_left (by decide) _

namespace Decimal

variable {rank : Nat} {d : Decimal}

theorem Near.digits_ne_zero (pos : 0 < rank) (h : d.Near rank) : d.digits ≠ 0 := by
  have some_num : d.num ≠ 0 := Binary64.Near.num_ne_zero pos d.den_ne_zero h
  intro none
  exact some_num (by rw [num, none, Nat.zero_mul])

/-- A finite magnitude is below the power of two that the format ends with. -/
theorem Near.log2_lt (pos : 0 < rank) (finite : rank < ranks) (h : d.Near rank) :
    d.digits.log2 + 3 * d.exponent.toNat < 1024 + 10 * ((-d.exponent).toNat / 3 + 1) := by
  obtain ⟨significand, k, canonical, rfl⟩ := exists_significand rank
  have exponent : k ≤ 2045 := by
    have all : ranks = 2047 * 2 ^ 52 := rfl
    have := canonical.normal
    omega
  have below := Binary64.Near.below canonical d.den_ne_zero h
  rw [one_eq, ← Nat.pow_add] at below
  have powers : 2 ^ (d.digits.log2 + 3 * d.exponent.toNat + unitExponent) <
      2 ^ (53 + k + 10 * ((-d.exponent).toNat / 3 + 1)) := by
    calc 2 ^ (d.digits.log2 + 3 * d.exponent.toNat + unitExponent)
        = 2 ^ d.digits.log2 * 2 ^ (3 * d.exponent.toNat) * 2 ^ unitExponent := by
          rw [Nat.pow_add, Nat.pow_add]
      _ ≤ d.num * 2 ^ unitExponent := by
          gcongr
          exact Nat.mul_le_mul (Nat.log2_self_le (h.digits_ne_zero pos)) (two_pow_le_ten_pow _)
      _ < 2 ^ (53 + k) * d.den := below
      _ ≤ 2 ^ (53 + k) * 2 ^ (10 * ((-d.exponent).toNat / 3 + 1)) := by
          gcongr
          exact ten_pow_le_two_pow _
      _ = _ := (Nat.pow_add ..).symm
  have bound := (Nat.pow_lt_pow_iff_right (Nat.lt_succ_self 1)).mp powers
  have unit : unitExponent = 1074 := rfl
  omega

/-- A magnitude but zero is one unit at least. -/
theorem Near.lt_log2 (pos : 0 < rank) (h : d.Near rank) :
    3 * (-d.exponent).toNat < d.digits.log2 + 4 * d.exponent.toNat + 1076 := by
  have magnitude : 0 < units rank := Nat.lt_of_le_of_lt (Nat.zero_le _) (units_strictMono pos)
  have powers : 2 ^ (3 * (-d.exponent).toNat) <
      2 ^ (d.digits.log2 + 1 + 4 * d.exponent.toNat + (unitExponent + 1)) := by
    calc 2 ^ (3 * (-d.exponent).toNat) ≤ d.den := two_pow_le_ten_pow _
      _ ≤ (units (rank - 1) + units rank) * d.den :=
          Nat.le_mul_of_pos_left _ (Nat.add_pos_right _ magnitude)
      _ ≤ 2 * (d.num * one) := h.least
      _ = d.digits * 10 ^ d.exponent.toNat * 2 ^ (unitExponent + 1) := by
          rw [one_eq, num, Nat.pow_succ]
          ring
      _ < 2 ^ (d.digits.log2 + 1) * 2 ^ (4 * d.exponent.toNat) * 2 ^ (unitExponent + 1) := by
          refine Nat.mul_lt_mul_of_pos_right ?_ (Nat.two_pow_pos _)
          refine Nat.mul_lt_mul_of_lt_of_le Nat.lt_log2_self ?_ (Nat.two_pow_pos _)
          rw [Nat.pow_mul]
          exact Nat.pow_le_pow_left (by decide) _
      _ = _ := by rw [← Nat.pow_add, ← Nat.pow_add]
  have bound := (Nat.pow_lt_pow_iff_right (Nat.lt_succ_self 1)).mp powers
  have unit : unitExponent = 1074 := rfl
  omega

/-- A decimal around a magnitude is read as it. -/
theorem ofDecimal_of_near (negative : Bool) (pos : 0 < rank) (finite : rank < ranks)
    (h : d.Near rank) : ofDecimal negative d.digits d.exponent = .finite negative ⟨rank, finite⟩ := by
  have some_digits := h.digits_ne_zero pos
  have upper := h.log2_lt pos finite
  have lower := h.lt_log2 pos
  have notLarge : ¬ 400 < (d.digits.log2 : Int) * 3 / 10 + d.exponent := by omega
  have notSmall : ¬ (d.digits.log2 : Int) * 3 / 10 + d.exponent + (d.digits.log2 : Int) / 20 + 2 <
      -400 := by omega
  have rounded : nearestRank d.num d.den = rank := nearestRank_of_near pos d.den_ne_zero h
  have read : ofQuotient negative d.num d.den = .finite negative ⟨rank, finite⟩ := by
    have below : nearestRank d.num d.den < ranks := by rwa [rounded]
    rw [ofQuotient_finite negative below]
    congr
  simp only [ofDecimal, some_digits, notLarge, notSmall, if_false]
  rw [← read]
  split
  · rename_i whole
    rw [show d.den = 1 by rw [den, show (-d.exponent).toNat = 0 by omega, Nat.pow_zero]]
    rfl
  · rename_i broken
    rw [show d.num = d.digits by
      rw [num, show d.exponent.toNat = 0 by omega, Nat.pow_zero, Nat.mul_one]]
    rfl

end Decimal

/-! ### The search -/

/-- The neighbourhood of a rank holds the quotients that lie around its magnitude. -/
theorem holds_iff (rank num den : Nat) :
    (neighbourhood rank).holds (2 * (num * one)) den = true ↔ Binary64.Near rank num den := by
  unfold Neighbourhood.holds
  by_cases odd : rank % 2 = 1
  · have parity : (neighbourhood rank).closed = false := by
      show (rank % 2 == 0) = false
      rw [odd]
      rfl
    rw [parity]
    simp only [Bool.false_eq_true, if_false, Bool.and_eq_true, decide_eq_true_eq]
    constructor
    · rintro ⟨least, most⟩
      exact ⟨Nat.le_of_lt least, Nat.le_of_lt most, fun _ => ⟨Nat.ne_of_lt least, Nat.ne_of_lt most⟩⟩
    · rintro ⟨least, most, inside⟩
      exact ⟨Nat.lt_of_le_of_ne least (inside odd).1, Nat.lt_of_le_of_ne most (inside odd).2⟩
  · have parity : (neighbourhood rank).closed = true := by
      show (rank % 2 == 0) = true
      rw [beq_iff_eq]
      omega
    rw [parity]
    simp only [if_true, Bool.and_eq_true, decide_eq_true_eq]
    exact ⟨fun ⟨least, most⟩ => ⟨least, most, fun h => absurd h odd⟩, fun h => ⟨h.least, h.most⟩⟩

namespace Neighbourhood

theorem stepNum_eq (k : Int) : (if 0 ≤ k then Nat.pow 10 k.toNat else 1) = 10 ^ k.toNat := by
  split
  · rfl
  · rw [show k.toNat = 0 by omega, Nat.pow_zero]

theorem stepDen_eq (k : Int) : (if 0 ≤ k then 1 else Nat.pow 10 (-k).toNat) = 10 ^ (-k).toNat := by
  split
  · rw [show (-k).toNat = 0 by omega, Nat.pow_zero]
  · rfl

/-- What is tried on a grid is a decimal with the exponent of the grid. -/
theorem inside_iff (rank digits : Nat) (k : Int) :
    (neighbourhood rank).holds (digits * (neighbourhood rank).unit *
        (if 0 ≤ k then Nat.pow 10 k.toNat else 1)) (if 0 ≤ k then 1 else Nat.pow 10 (-k).toNat) =
      true ↔ Decimal.Near rank ⟨digits, k⟩ := by
  have value : digits * (neighbourhood rank).unit * 10 ^ k.toNat =
      2 * (digits * 10 ^ k.toNat * one) := by
    show digits * (2 * one) * 10 ^ k.toNat = _
    ring
  rw [stepNum_eq, stepDen_eq, value, holds_iff]
  rfl

/-- What lies between the halfway points, on a grid. -/
theorem near_of_between (rank digits : Nat) (k : Int)
    (above : (neighbourhood rank).low * 10 ^ (-k).toNat <
      digits * ((neighbourhood rank).unit * 10 ^ k.toNat))
    (below : digits * ((neighbourhood rank).unit * 10 ^ k.toNat) <
      (neighbourhood rank).high * 10 ^ (-k).toNat) : Decimal.Near rank ⟨digits, k⟩ := by
  have value : digits * ((neighbourhood rank).unit * 10 ^ k.toNat) =
      2 * (digits * 10 ^ k.toNat * one) := by
    show digits * (2 * one * 10 ^ k.toNat) = _
    ring
  rw [value] at above below
  exact ⟨Nat.le_of_lt above, Nat.le_of_lt below, fun _ => ⟨Nat.ne_of_lt above, Nat.ne_of_lt below⟩⟩

/-- What is found on a grid lies around the magnitude. -/
theorem near_of_onGrid {rank : Nat} {k : Int} {d : Decimal}
    (h : (neighbourhood rank).onGrid k = some d) : d.Near rank := by
  unfold onGrid at h
  extract_lets stepNum stepDen below inside lowHit highHit twice preferHigh at h
  have near {digits : Nat} (hit : inside digits = true) : Decimal.Near rank ⟨digits, k⟩ :=
    (inside_iff rank digits k).mp hit
  have low (hit : lowHit = true) : Decimal.Near rank ⟨below, k⟩ :=
    near (Bool.and_eq_true _ _ ▸ hit).2
  split at h
  · rename_i both
    obtain ⟨lower, higher⟩ := Bool.and_eq_true _ _ ▸ both
    cases h
    split
    · exact near higher
    · exact low lower
  · split at h
    · rename_i lower
      cases h
      exact low lower
    · split at h
      · rename_i higher
        cases h
        exact near higher
      · cases h

/-- Where one of the two neighbours on a grid lies around the magnitude, something is found. -/
theorem exists_onGrid {rank : Nat} {k : Int} {below : Nat}
    (quotient : (neighbourhood rank).value * (if 0 ≤ k then 1 else Nat.pow 10 (-k).toNat) /
      ((neighbourhood rank).unit * (if 0 ≤ k then Nat.pow 10 k.toNat else 1)) = below)
    (h : (0 < below ∧ Decimal.Near rank ⟨below, k⟩) ∨ Decimal.Near rank ⟨below + 1, k⟩) :
    ∃ d, (neighbourhood rank).onGrid k = some d := by
  unfold onGrid
  extract_lets stepNum stepDen found inside lowHit highHit twice preferHigh
  obtain rfl : found = below := quotient
  have hit : lowHit = true ∨ highHit = true := by
    rcases h with ⟨pos, near⟩ | near
    · refine .inl ((Bool.and_eq_true _ _).mpr ⟨decide_eq_true pos, (inside_iff ..).mpr near⟩)
    · exact .inr ((inside_iff ..).mpr near)
  cases low : lowHit <;> cases high : highHit <;> simp [low, high] at hit ⊢

theorem near_of_firstHit {rank : Nat} {places : Int} {fuel n : Nat} {d : Decimal}
    (h : (neighbourhood rank).firstHit places fuel n = some d) : d.Near rank := by
  induction fuel generalizing n with
  | zero => cases h
  | succ fuel ih =>
    rw [firstHit] at h
    split at h
    · rename_i found
      cases h
      exact near_of_onGrid found
    · exact ih h

theorem exists_firstHit {b : Neighbourhood} {places : Int} {fuel n : Nat}
    (h : ∃ d, b.onGrid (places - (n + fuel : Nat)) = some d) :
    ∃ d, b.firstHit places (fuel + 1) n = some d := by
  induction fuel generalizing n with
  | zero =>
    obtain ⟨d, found⟩ := h
    refine ⟨d, ?_⟩
    rw [firstHit]
    rw [Nat.add_zero] at found
    rw [found]
  | succ fuel ih =>
    rw [firstHit]
    split
    · exact ⟨_, rfl⟩
    · exact ih (by rwa [Nat.succ_add_eq_add_succ])

/-! ### Seventeen digits -/

/-- Both halfway points are away from the magnitude by one part in `2 ^ 54` at least. -/
theorem width (rank : Nat) :
    (neighbourhood rank).value + 2 ^ 54 * (neighbourhood rank).low ≤
        2 ^ 54 * (neighbourhood rank).value ∧
      (neighbourhood rank).value + 2 ^ 54 * (neighbourhood rank).value ≤
        2 ^ 54 * (neighbourhood rank).high := by
  obtain ⟨significand, k, canonical, rfl⟩ := exists_significand rank
  have low : (neighbourhood (k * 2 ^ 52 + significand)).low =
      units (k * 2 ^ 52 + significand - 1) + units (k * 2 ^ 52 + significand) := rfl
  have value : (neighbourhood (k * 2 ^ 52 + significand)).value = 2 * (significand * 2 ^ k) :=
    congrArg (2 * ·) canonical.units_eq
  have high : (neighbourhood (k * 2 ^ 52 + significand)).high =
      2 * (significand * 2 ^ k) + 2 ^ k := by
    show units (k * 2 ^ 52 + significand) + units (k * 2 ^ 52 + significand + 1) = _
    rw [canonical.units_eq, canonical.units_succ]
    ring
  have bound : significand * 2 ^ k ≤ (2 ^ 53 - 1) * 2 ^ k :=
    Nat.mul_le_mul_right _ (Nat.le_sub_one_of_lt canonical.below)
  have below : 2 * (significand * 2 ^ k) +
      2 ^ 54 * (neighbourhood (k * 2 ^ 52 + significand)).low ≤
        2 ^ 54 * (2 * (significand * 2 ^ k)) := by
    rw [low]
    rcases Nat.lt_trichotomy significand (2 ^ 52) with small | rfl | large
    · obtain rfl : k = 0 := canonical.normal.resolve_left (Nat.not_le.mpr small)
      have before : units (0 * 2 ^ 52 + significand - 1) = significand - 1 :=
        (units_of_lt (by rw [pow_eq]; omega)).trans (by omega)
      rw [before, canonical.units_eq]
      omega
    · rcases k with _ | k
      · decide
      · rw [units_before, canonical.units_eq, Nat.pow_succ]
        omega
    · obtain ⟨before, rfl⟩ : ∃ before, significand = before + 1 := ⟨significand - 1, by omega⟩
      have least := Near.least_eq canonical (.inl (Nat.le_of_lt_succ large)) 1
      rw [Nat.mul_one, Nat.mul_one] at least
      rw [least]
      rw [Nat.add_mul] at bound ⊢
      rw [Nat.mul_assoc 2 before]
      omega
  exact ⟨value ▸ below, by rw [value, high]; omega⟩

/-- On a grid of seventeen digits the nearer neighbour lies around the magnitude. -/
theorem exists_onGrid_of_fine {rank : Nat} {k : Int}
    (fine : 10 ^ 16 * ((neighbourhood rank).unit * 10 ^ k.toNat) ≤
      (neighbourhood rank).value * 10 ^ (-k).toNat) :
    ∃ d, (neighbourhood rank).onGrid k = some d := by
  obtain ⟨lower, upper⟩ := width rank
  have quotient : (neighbourhood rank).value * (if 0 ≤ k then 1 else Nat.pow 10 (-k).toNat) /
      ((neighbourhood rank).unit * (if 0 ≤ k then Nat.pow 10 k.toNat else 1)) =
        (neighbourhood rank).value * 10 ^ (-k).toNat /
          ((neighbourhood rank).unit * 10 ^ k.toNat) := by rw [stepNum_eq, stepDen_eq]
  have step : 0 < (neighbourhood rank).unit * 10 ^ k.toNat :=
    Nat.mul_pos (Nat.mul_pos Nat.two_pos Binary64.one_pos) (Nat.pow_pos (by decide))
  have lower' := Nat.mul_le_mul_right (10 ^ (-k).toNat) lower
  have upper' := Nat.mul_le_mul_right (10 ^ (-k).toNat) upper
  rw [Nat.add_mul, Nat.mul_assoc, Nat.mul_assoc] at lower' upper'
  have whole := Nat.div_add_mod' ((neighbourhood rank).value * 10 ^ (-k).toNat)
    ((neighbourhood rank).unit * 10 ^ k.toNat)
  have left := Nat.mod_lt ((neighbourhood rank).value * 10 ^ (-k).toNat) step
  refine exists_onGrid quotient ?_
  have between (digits : Nat) := near_of_between rank digits k
  generalize (neighbourhood rank).unit * 10 ^ k.toNat = S at *
  generalize (neighbourhood rank).value * 10 ^ (-k).toNat = V at *
  generalize (neighbourhood rank).low * 10 ^ (-k).toNat = L at *
  generalize (neighbourhood rank).high * 10 ^ (-k).toNat = H at *
  have some_below : 0 < V / S := Nat.div_pos (by omega) step
  generalize V % S = t at *
  by_cases near : 2 * t ≤ S
  · refine .inl ⟨some_below, between _ ?_ ?_⟩ <;> omega
  · refine .inr (between _ ?_ ?_) <;> rw [Nat.add_mul, Nat.one_mul] <;> omega

/-- Counting up, the last power of ten that was passed is no greater than the value. -/
theorem up_spec {b : Neighbourhood} (fuel : Nat) {p : Nat}
    (before : p = 0 ∨ b.unit * 10 ^ (p - 1) ≤ b.value) :
    places.up b fuel p = 0 ∨ b.unit * 10 ^ (places.up b fuel p - 1) ≤ b.value := by
  induction fuel generalizing p with
  | zero => exact before
  | succ fuel ih =>
    rw [places.up]
    split
    · exact before
    · rename_i reached
      exact ih (.inr (Nat.le_of_not_lt reached))

/-- Counting down, one more place reaches the value, unless the fuel was used up. -/
theorem down_spec (b : Neighbourhood) (fuel p : Nat) :
    b.unit ≤ b.value * 10 ^ (places.down b fuel p + 1) ∨ places.down b fuel p = p + fuel := by
  induction fuel generalizing p with
  | zero => exact .inr rfl
  | succ fuel ih =>
    rw [places.down]
    split
    · exact (ih _).imp_right fun used => by omega
    · rename_i reached
      exact .inl (Nat.le_of_not_lt reached)

/-- The value has a digit at the place that was counted to. -/
theorem le_places {rank : Nat} (pos : 0 < rank) :
    (neighbourhood rank).unit * 10 ^ ((neighbourhood rank).places - 1).toNat ≤
      (neighbourhood rank).value * 10 ^ (-((neighbourhood rank).places - 1)).toNat := by
  unfold places
  split
  · rename_i whole
    rcases up_spec 400 (.inl rfl : (0 = 0 ∨ (neighbourhood rank).unit * _ ≤ _)) with none | reached
    · rw [none]
      show _ * 10 ^ 0 ≤ _ * 10 ^ 1
      omega
    · generalize places.up (neighbourhood rank) 400 0 = p at *
      rcases p with _ | p
      · show _ * 10 ^ 0 ≤ _ * 10 ^ 1
        omega
      · rw [show ((p + 1 : Nat) : Int) - 1 = p by omega, Int.toNat_natCast,
          show (-(p : Int)).toNat = 0 by omega, Nat.pow_zero, Nat.mul_one]
        exact reached
  · rename_i broken
    have reached : (neighbourhood rank).unit ≤ (neighbourhood rank).value *
        10 ^ (places.down (neighbourhood rank) 400 0 + 1) := by
      rcases down_spec (neighbourhood rank) 400 0 with reached | used
      · exact reached
      · have small {n : Nat} (h : unitExponent ≤ 3 * n) : 2 ^ unitExponent ≤ 10 ^ n :=
          (Nat.pow_le_pow_right Nat.two_pos h).trans (two_pow_le_ten_pow n)
        have some_units : 1 ≤ units rank := Nat.lt_of_le_of_lt (Nat.zero_le _) (units_strictMono pos)
        rw [used]
        show 2 * one ≤ 2 * units rank * _
        rw [one_eq, Nat.mul_assoc]
        exact Nat.mul_le_mul_left 2
          ((small (by decide)).trans (Nat.le_mul_of_pos_left _ some_units))
    generalize places.down (neighbourhood rank) 400 0 = p at *
    rw [show (-(p : Int) - 1).toNat = 0 by omega, Nat.pow_zero, Nat.mul_one,
      show (-(-(p : Int) - 1)).toNat = p + 1 by omega]
    exact reached

end Neighbourhood

/-- The zeros that are dropped are at the end. -/
theorem dropZeros_spec (fuel n : Nat) : (dropZeros fuel n).1 * 10 ^ (dropZeros fuel n).2 = n := by
  induction fuel generalizing n with
  | zero => exact Nat.mul_one n
  | succ fuel ih =>
    rw [dropZeros]
    split
    · rename_i zero
      rw [Bool.and_eq_true, decide_eq_true_eq, decide_eq_true_eq] at zero
      dsimp only
      rw [Nat.pow_succ, ← Nat.mul_assoc, ih]
      omega
    · exact Nat.mul_one n

/-- The shortest decimal lies around the magnitude that it is for. -/
theorem near_shortest {rank : Nat} (pos : 0 < rank) : (shortest rank).Near rank := by
  have grid : 10 ^ 16 * ((neighbourhood rank).unit *
      10 ^ ((neighbourhood rank).places - (1 + 16 : Nat)).toNat) ≤
        (neighbourhood rank).value * 10 ^ (-((neighbourhood rank).places - (1 + 16 : Nat))).toNat := by
    have reached := Neighbourhood.le_places pos
    generalize (neighbourhood rank).places = p at *
    have powers : (p - 1).toNat + (-(p - (1 + 16 : Nat))).toNat =
        16 + (p - (1 + 16 : Nat)).toNat + (-(p - 1)).toNat := by omega
    refine Nat.le_of_mul_le_mul_right (c := 10 ^ (-(p - 1)).toNat) ?_ (Nat.pow_pos (by decide))
    generalize (neighbourhood rank).unit = U at *
    generalize (neighbourhood rank).value = V at *
    calc 10 ^ 16 * (U * 10 ^ (p - (1 + 16 : Nat)).toNat) * 10 ^ (-(p - 1)).toNat
        = U * 10 ^ (16 + (p - (1 + 16 : Nat)).toNat + (-(p - 1)).toNat) := by
          rw [Nat.pow_add, Nat.pow_add]
          ring
      _ = U * 10 ^ (p - 1).toNat * 10 ^ (-(p - (1 + 16 : Nat))).toNat := by
          rw [← powers, Nat.pow_add, Nat.mul_assoc]
      _ ≤ V * 10 ^ (-(p - 1)).toNat * 10 ^ (-(p - (1 + 16 : Nat))).toNat :=
          Nat.mul_le_mul_right _ reached
      _ = _ := Nat.mul_right_comm ..
  obtain ⟨d, found⟩ := Neighbourhood.exists_firstHit
    (Neighbourhood.exists_onGrid_of_fine grid)
  have near := Neighbourhood.near_of_firstHit found
  unfold shortest
  dsimp only
  rw [found]
  have same := Decimal.same_zeros (dropZeros 20 d.digits).1 (dropZeros 20 d.digits).2 d.exponent
  rw [dropZeros_spec] at same
  exact near.of_same same

/-- The shortest decimal for a magnitude is read as it. -/
theorem ofDecimal_shortest (negative : Bool) {rank : Nat} (pos : 0 < rank) (finite : rank < ranks) :
    ofDecimal negative (shortest rank).digits (shortest rank).exponent =
      .finite negative ⟨rank, finite⟩ :=
  Decimal.ofDecimal_of_near negative pos finite (near_shortest pos)

end Runbook.Number
