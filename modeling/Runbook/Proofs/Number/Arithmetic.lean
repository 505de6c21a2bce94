import Runbook.Proofs.Number.Rounding

/-! Arithmetic on whole numbers.

A value counts a whole number if it is that many ones (`Counts`); zero is counted with either sign.
A quotient that is a whole number up to the limit is not rounded (`counts_ofQuotient`), and neither,
for that reason, is a sum, a difference, a product, a quotient or a remainder of whole numbers which
is again one. -/
namespace Runbook.Number.Binary64

/-- What is a magnitude already is not rounded. -/
theorem nearestRank_of_magnitude {rank num den : Nat} (some_den : den ≠ 0)
    (same : units rank * den = num * one) : nearestRank num den = rank := by
  rcases Nat.eq_zero_or_pos rank with rfl | pos
  · have none : num * one = 0 := same.symm.trans (Nat.zero_mul den)
    rw [(Nat.mul_eq_zero.mp none).resolve_right one_pos.ne', nearestRank, if_pos rfl]
  · have den_pos : 0 < den := Nat.pos_of_ne_zero some_den
    have before : units (rank - 1) * den < units rank * den :=
      Nat.mul_lt_mul_of_pos_right (units_strictMono (Nat.sub_lt pos Nat.one_pos)) den_pos
    have behind : units rank * den < units (rank + 1) * den :=
      Nat.mul_lt_mul_of_pos_right (units_strictMono (Nat.lt_succ_self rank)) den_pos
    refine nearestRank_of_near pos some_den ⟨?_, ?_, fun _ => ⟨?_, ?_⟩⟩ <;>
      rw [← same, Nat.add_mul] <;> omega

theorem ofQuotient_of_magnitude (negative : Bool) {num den : Nat} (rank : Fin ranks)
    (some_den : den ≠ 0) (same : units rank * den = num * one) :
    ofQuotient negative num den = .finite negative rank := by
  have nearest := nearestRank_of_magnitude some_den same
  rw [ofQuotient_finite negative (nearest ▸ rank.isLt)]
  simp only [nearest]

theorem units_mono {r q : Nat} (h : r ≤ q) : units r ≤ units q := by
  rcases Nat.lt_or_eq_of_le h with before | rfl
  · exact (units_strictMono before).le
  · exact le_rfl

theorem units_eq_zero {rank : Nat} : units rank = 0 ↔ rank = 0 := by
  refine ⟨fun none => Nat.eq_zero_of_not_pos fun pos => ?_, fun none => by rw [none]; rfl⟩
  exact Nat.not_lt_zero _ (none ▸ units_strictMono pos)

theorem rank_eq_zero_iff {rank n : Nat} (magnitude : units rank = n * one) : rank = 0 ↔ n = 0 := by
  rw [← units_eq_zero, magnitude, Nat.mul_eq_zero]
  exact or_iff_left one_pos.ne'

/-! ### Signs -/

/-- A count with a sign. -/
def signed (negative : Bool) (n : Nat) : Int := if negative then -n else n

theorem signedUnits_eq (negative : Bool) (rank : Nat) :
    signedUnits negative rank = signed negative (units rank) := rfl

theorem signed_not (negative : Bool) (n : Nat) : signed (!negative) n = -signed negative n := by
  cases negative
  · rfl
  · exact (Int.neg_neg (n : Int)).symm

theorem signed_mul (s t : Bool) (m n : Nat) :
    signed s m * signed t n = signed (s != t) (m * n) := by
  cases s <;> cases t <;> simp [signed]

theorem signed_scale (negative : Bool) (n c : Nat) :
    signed negative (n * c) = signed negative n * c := by
  cases negative <;> simp [signed]

theorem natAbs_signed (negative : Bool) (n : Nat) : (signed negative n).natAbs = n := by
  cases negative <;> simp [signed]

theorem signed_natAbs (k : Int) : signed (k < 0) k.natAbs = k := by
  unfold signed
  split
  · rename_i negative
    exact (Int.eq_neg_comm.mp (Int.ofNat_natAbs_of_nonpos (of_decide_eq_true negative).le)).symm
  · rename_i positive
    exact Int.natAbs_of_nonneg (Int.not_lt.mp fun negative => positive (decide_eq_true negative))

theorem signed_tmod (s t : Bool) (m n : Nat) :
    (signed s m).tmod (signed t n) = signed s (m % n) := by
  cases s <;> cases t <;> simp [signed, ← Int.ofNat_tmod]

/-! ### Counting -/

/-- The value is that many ones. -/
def Counts (x : Binary64) (k : Int) : Prop :=
  ∃ negative rank n, x = .finite negative rank ∧ units rank = n * one ∧ signed negative n = k

/-- A whole number up to the limit is not rounded. -/
theorem counts_ofQuotient (negative : Bool) {num den n : Nat} (some_den : den ≠ 0)
    (same : num = n * den) (small : n ≤ wholeLimit) :
    Counts (ofQuotient negative num den) (signed negative n) := by
  obtain ⟨rank, -, magnitude⟩ := is_ofQuotient small
  refine ⟨negative, rank, n, ofQuotient_of_magnitude negative rank some_den ?_, magnitude, rfl⟩
  rw [magnitude, same, Nat.mul_right_comm]

theorem counts_zero (negative : Bool) : Counts (zero negative) 0 := by
  refine ⟨negative, ⟨0, by decide⟩, 0, rfl, (Nat.zero_mul one).symm, ?_⟩
  cases negative <;> rfl

theorem neg_ofQuotient (negative : Bool) (num den : Nat) :
    (ofQuotient negative num den).neg = ofQuotient (!negative) num den := by
  unfold ofQuotient
  dsimp only
  split <;> rfl

theorem neg_ofDecimal (negative : Bool) (digits : Nat) (exponent : Int) :
    (ofDecimal negative digits exponent).neg = ofDecimal (!negative) digits exponent := by
  simp only [ofDecimal, apply_ite Binary64.neg, neg_ofQuotient]
  rfl

namespace Counts

variable {x y : Binary64} {j k : Int}

theorem toInt? (h : Counts x k) : x.toInt? = some k := by
  obtain ⟨negative, rank, n, rfl, magnitude, rfl⟩ := h
  simp only [Binary64.toInt?, magnitude, Nat.mul_mod_left, if_true, Nat.mul_div_cancel n one_pos,
    signed]

theorem isZero (h : Counts x k) : x.isZero = decide (k = 0) := by
  obtain ⟨negative, rank, n, rfl, magnitude, rfl⟩ := h
  have count : signed negative n = 0 ↔ rank.val = 0 := by
    rw [← Int.natAbs_eq_zero, natAbs_signed, rank_eq_zero_iff magnitude]
  show (rank.val == 0) = _
  rw [beq_eq_decide, decide_eq_decide.mpr count]

theorem neg (h : Counts x k) : Counts x.neg (-k) := by
  obtain ⟨negative, rank, n, rfl, magnitude, rfl⟩ := h
  exact ⟨!negative, rank, n, rfl, magnitude, signed_not negative n⟩

theorem add (hx : Counts x j) (hy : Counts y k) (small : (j + k).natAbs ≤ wholeLimit) :
    Counts (x.add y) (j + k) := by
  obtain ⟨s, r, m, rfl, left, rfl⟩ := hx
  obtain ⟨t, q, n, rfl, right, rfl⟩ := hy
  have sum : signedUnits s r + signedUnits t q = (signed s m + signed t n) * one := by
    rw [signedUnits_eq, signedUnits_eq, left, right, signed_scale, signed_scale, Int.add_mul]
  show Counts (ofUnits (s && t) (signedUnits s r + signedUnits t q)) _
  rw [sum]
  generalize signed s m + signed t n = k at small ⊢
  unfold ofUnits
  split
  · rename_i none
    rw [(Int.mul_eq_zero.mp none).resolve_right (Int.natCast_ne_zero.mpr one_pos.ne')]
    exact counts_zero _
  · have scaled := Int.mul_lt_mul_right (b := k) (c := 0) (Int.natCast_pos.mpr one_pos)
    rw [Int.zero_mul] at scaled
    have sign : decide (k * (one : Int) < 0) = decide (k < 0) := decide_eq_decide.mpr scaled
    have counted := counts_ofQuotient (decide (k < 0)) one_pos.ne' rfl small
    rwa [signed_natAbs, ← Int.natAbs_natCast one, ← Int.natAbs_mul, ← sign,
      Int.natAbs_natCast one] at counted

theorem sub (hx : Counts x j) (hy : Counts y k) (small : (j - k).natAbs ≤ wholeLimit) :
    Counts (x.sub y) (j - k) := by
  rw [Int.sub_eq_add_neg] at small ⊢
  exact hx.add hy.neg small

theorem mul (hx : Counts x j) (hy : Counts y k) (small : (j * k).natAbs ≤ wholeLimit) :
    Counts (x.mul y) (j * k) := by
  obtain ⟨s, r, m, rfl, left, rfl⟩ := hx
  obtain ⟨t, q, n, rfl, right, rfl⟩ := hy
  rw [signed_mul, natAbs_signed] at small
  rw [signed_mul]
  refine counts_ofQuotient (s != t) (Nat.mul_ne_zero one_pos.ne' one_pos.ne') ?_ small
  rw [left, right, Nat.mul_mul_mul_comm]

theorem div {l : Int} (hx : Counts x (l * k)) (hy : Counts y k) (some_k : k ≠ 0)
    (small : l.natAbs ≤ wholeLimit) : Counts (x.div y) l := by
  have divisor := hy.isZero
  rw [decide_eq_false some_k] at divisor
  obtain ⟨s, r, m, rfl, left, product⟩ := hx
  obtain ⟨t, q, n, rfl, right, rfl⟩ := hy
  have some_q : q.val ≠ 0 := ne_of_beq_false divisor
  have some_den : units q ≠ 0 := mt units_eq_zero.mp some_q
  have count : m = l.natAbs * n := by
    rw [← natAbs_signed s m, product, Int.natAbs_mul, natAbs_signed]
  have sign : signed (s != t) l.natAbs = l := by
    refine Int.eq_of_mul_eq_mul_right some_k ?_
    rw [signed_mul, ← count, ← product, Bool.bne_assoc, bne_self_eq_false, Bool.bne_false]
  have quotient : units r = l.natAbs * units q := by rw [left, right, count, Nat.mul_assoc]
  have counted := counts_ofQuotient (s != t) some_den quotient small
  rw [sign] at counted
  simpa only [Binary64.div, some_q, if_false] using counted

theorem rem? (hx : Counts x j) (hy : Counts y k) (some_k : k ≠ 0)
    (small : j.natAbs ≤ wholeLimit) : ∃ z, x.rem? y = some z ∧ Counts z (j.tmod k) := by
  have divisor := hy.isZero
  rw [decide_eq_false some_k] at divisor
  obtain ⟨s, r, m, rfl, left, rfl⟩ := hx
  obtain ⟨t, q, n, rfl, right, rfl⟩ := hy
  have some_q : q.val ≠ 0 := ne_of_beq_false divisor
  rw [natAbs_signed] at small
  rw [signed_tmod]
  refine ⟨_, if_neg some_q, counts_ofQuotient s one_pos.ne' ?_ ((Nat.mod_le m n).trans small)⟩
  rw [left, right, Nat.mul_mod_mul_right]

end Counts

/-- The numeral of a whole number is read exactly. -/
theorem counts_ofDecimal (negative : Bool) {n : Nat} (small : n ≤ wholeLimit) :
    Counts (ofDecimal negative n 0) (signed negative n) := by
  obtain ⟨rank, value, magnitude⟩ := is_ofDecimal small
  have positive : Counts (ofDecimal false n 0) (signed false n) :=
    ⟨false, rank, n, value, magnitude, rfl⟩
  cases negative with
  | false => exact positive
  | true =>
    have opposite := positive.neg
    rwa [neg_ofDecimal, ← signed_not] at opposite

end Runbook.Number.Binary64
