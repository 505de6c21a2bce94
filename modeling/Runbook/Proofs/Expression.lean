import Runbook.Proofs.Expression.Operation
import Runbook.Proofs.Number.Arithmetic

/-! What whole numbers compute to.

A whole number up to `2 ^ 53` goes through text without a loss: it is written with its digits, and
what is computed of two such numbers is exact and held as a whole number again, as long as it is one
and no greater (`apply_counts`). A number that is missing in the text counts as zero, and the text
is worth what it is worth with the zero written in its place. -/
namespace Runbook

open Number Text
open Binary64 (wholeLimit)

/-! ### Whole numbers as values -/

namespace Literal

theorem normalize_counts {x : Binary64} {k : Int} (h : x.Counts k) : normalize x = .int k := by
  rw [normalize, h.toInt?]

theorem stringify_nat {n : Nat} (small : n ≤ wholeLimit) :
    stringify (.int n) = .ok (toString n) := by
  have below : n < 10 ^ 16 := Nat.lt_of_le_of_lt small (by decide)
  have short : (toString n).length ≤ digitLimit :=
    Nat.le_trans (Nat.repr_length n 16 (by decide) below) (by decide)
  have unsigned : ¬ (n : Int) < 0 := Int.not_lt.mpr (Int.natCast_nonneg n)
  simp only [stringify, numeral?, Int.natAbs_natCast, short, unsigned, if_true, if_false]

/-- What is written of a whole number is read as that number. -/
theorem coerce_toString {n : Nat} (small : n ≤ wholeLimit) :
    coerce (toString n) = .int n := by
  have whole : normalize (.ofDecimal false n 0) = .int n :=
    normalize_counts (Binary64.counts_ofDecimal false small)
  simp only [coerce, (spells_repr n).plain?, whole, stringify_nat small, if_true]

end Literal

namespace Expression

/-! ### Calculations -/

/-- A calculation is worth its result, but for a number with a minus sign. -/
theorem evaluate_calculation (c : Calculation) {s : String} (written : trim s.toList = c.text)
    (unsigned : c.left = none → c.op = .sub → plain? c.text = none) :
    evaluate s = apply (orZero (c.left.map Operand.numeral)) c.op
      (orZero (c.right.map Operand.numeral)) := by
  have literal : ((c.left.map Operand.numeral).isNone && c.op == .sub && (plain? c.text).isSome) =
      false := by
    by_cases alone : c.left = none ∧ c.op = .sub
    · rw [unsigned alone.1 alone.2, Option.isSome_none, Bool.and_false]
    · refine Bool.eq_false_iff.mpr fun all => alone ?_
      simp only [Option.isNone_map, Bool.and_eq_true, Option.isNone_iff_eq_none, beq_iff_eq] at all
      exact all.1
  simp only [evaluate, written, c.ofChars?_text, Calculation.operation, literal, if_false,
    Bool.false_eq_true]

/-- A number with a minus sign is a literal. -/
theorem evaluate_signed (c : Calculation) {s : String} (written : trim s.toList = c.text)
    (left : c.left = none) (sub : c.op = .sub) (signed : (plain? c.text).isSome = true) :
    evaluate s = .ok (Literal.coerce (String.ofList c.text)) := by
  have literal : ((c.left.map Operand.numeral).isNone && c.op == .sub && (plain? c.text).isSome) =
      true := by
    rw [left, sub, signed]
    rfl
  simp only [evaluate, written, c.ofChars?_text, Calculation.operation, literal, if_true]

/-! ### Whole numbers in calculations -/

/-- The digits of a whole number. -/
def Operand.ofInt (k : Int) : Operand where
  negative := k < 0
  whole := (toString k.natAbs).toList
  frac := []
  some_whole := (spells_repr k.natAbs).ne_nil
  decimal := by
    obtain ⟨ds, -, digits, written, -⟩ := spells_repr k.natAbs
    rw [written, List.append_nil]
    exact (filterMap_digitChar digits).1

theorem Operand.text_ofInt (k : Int) : (ofInt k).text = (toString k).toList := by
  cases k with
  | ofNat n => exact List.append_nil _
  | negSucc n =>
    have written : toString (Int.negSucc n) = "-" ++ toString (n + 1) := rfl
    have sign : decide (Int.negSucc n < 0) = true := decide_eq_true (Int.negSucc_lt_zero n)
    have digits : (ofInt (Int.negSucc n)).unsigned = (toString (n + 1)).toList :=
      List.append_nil _
    rw [written, String.toList_append, text, digits, ofInt, sign]
    rfl

theorem Operand.toBinary64_ofInt (k : Int) :
    (ofInt k).numeral.toBinary64 = .ofDecimal (k < 0) k.natAbs 0 := by
  obtain ⟨ds, -, digits, written, value⟩ := spells_repr k.natAbs
  have read : (ofInt k).numeral = ⟨k < 0, ds, 0⟩ := by
    rw [numeral]
    simp only [ofInt, List.append_nil, written, (filterMap_digitChar digits).2]
    rfl
  rw [read, Numeral.toBinary64, value]

theorem Operand.counts_ofInt {k : Int} (small : k.natAbs ≤ wholeLimit) :
    (ofInt k).numeral.toBinary64.Counts k := by
  have counted := Binary64.counts_ofDecimal (k < 0) small
  rwa [Binary64.signed_natAbs, ← toBinary64_ofInt] at counted

/-- What an operation on whole numbers gives where it is exact; whatever is divided by zero gives
zero. -/
def Op.Exact (a b r : Int) : Op → Prop
  | add => r = a + b ∧ r.natAbs ≤ wholeLimit
  | sub => r = a - b ∧ r.natAbs ≤ wholeLimit
  | mul => r = a * b ∧ r.natAbs ≤ wholeLimit
  | div => if b = 0 then r = 0 else a = r * b
  | rem => r = if b = 0 then 0 else a.tmod b

/-- No operation rounds a whole number. -/
theorem apply_counts {x y : Binary64} {a b r : Int} {op : Op} (hx : x.Counts a) (hy : y.Counts b)
    (small : a.natAbs ≤ wholeLimit) (gives : op.Exact a b r) : apply x op y = .ok (.int r) := by
  have divisor := hy.isZero
  cases op with
  | add =>
    obtain ⟨rfl, within⟩ := gives
    rw [apply, Literal.normalize_counts (hx.add hy within)]
  | sub =>
    obtain ⟨rfl, within⟩ := gives
    rw [apply, Literal.normalize_counts (hx.sub hy within)]
  | mul =>
    obtain ⟨rfl, within⟩ := gives
    rw [apply, Literal.normalize_counts (hx.mul hy within)]
  | div =>
    rw [Op.Exact] at gives
    rw [apply, divisor]
    by_cases zero : b = 0
    · rw [if_pos zero] at gives
      rw [if_pos (decide_eq_true zero), gives]
    · rw [if_neg zero] at gives
      have within : r.natAbs ≤ wholeLimit := by
        refine Nat.le_trans ?_ small
        rw [gives, Int.natAbs_mul]
        exact Nat.le_mul_of_pos_right _ (Int.natAbs_pos.mpr zero)
      rw [decide_eq_false zero, if_neg Bool.false_ne_true,
        Literal.normalize_counts ((gives ▸ hx).div hy zero within)]
  | rem =>
    rw [Op.Exact] at gives
    rw [apply, divisor]
    by_cases zero : b = 0
    · rw [if_pos zero] at gives
      rw [if_pos (decide_eq_true zero), gives]
    · rw [if_neg zero] at gives
      obtain ⟨z, left, counted⟩ := hx.rem? hy zero small
      rw [decide_eq_false zero, if_neg Bool.false_ne_true, left, gives]
      dsimp only
      rw [Literal.normalize_counts counted]

/-- An operator between two texts, with a space on either side. -/
def spaced (left : String) (op : Op) (right : String) : String :=
  left ++ " " ++ String.singleton op.char ++ " " ++ right

theorem blank_space : ∀ c ∈ [' '], isBlank c = true := List.forall_mem_singleton.mpr rfl

/-- What stands between two numbers with spaces is computed of them. -/
theorem evaluate_spaced {left right : String} {l r : Operand} (op : Op)
    (first : left.toList = l.text) (second : right.toList = r.text) :
    evaluate (spaced left op right) = apply l.numeral.toBinary64 op r.numeral.toBinary64 := by
  let c : Calculation :=
    ⟨some l, [' '], op, [' '], some r, blank_space, blank_space, .inl rfl⟩
  have text : (spaced left op right).toList = c.text := by
    simp [spaced, c, Calculation.text, Calculation.ending, operandText, first, second]
  refine evaluate_calculation c ?_ fun missing => absurd missing (Option.some_ne_none l)
  rw [text, c.trim_text (.inl rfl) (.inl rfl)]

theorem evaluate_ints (a b : Int) (op : Op) : evaluate (spaced (toString a) op (toString b)) =
    apply (Operand.ofInt a).numeral.toBinary64 op (Operand.ofInt b).numeral.toBinary64 :=
  evaluate_spaced op (Operand.text_ofInt a).symm (Operand.text_ofInt b).symm

section

variable (a b : Int) (op : Op)

/-- A missing number on the left counts as zero. -/
theorem evaluate_right {s : String}
    (written : trimmed s = String.singleton op.char ++ " " ++ toString b) :
    evaluate s = apply (.zero false) op (Operand.ofInt b).numeral.toBinary64 := by
  have text : trim s.toList = op.char :: ' ' :: (Operand.ofInt b).text := by
    rw [← String.toList_ofList (l := trim s.toList), ← trimmed, written, Operand.text_ofInt]
    simp
  let c : Calculation :=
    ⟨none, [], op, [' '], some (.ofInt b), nofun, blank_space, .inr rfl⟩
  refine evaluate_calculation c text fun _ sub => ?_
  obtain rfl : op = .sub := sub
  rw [plain?, c.trim_text (.inr rfl) (.inl rfl)]
  rfl

/-- A missing number on the right counts as zero. -/
theorem evaluate_left {s : String}
    (written : trimmed s = toString a ++ " " ++ String.singleton op.char) :
    evaluate s = apply (Operand.ofInt a).numeral.toBinary64 op (.zero false) := by
  have text : trim s.toList = (Operand.ofInt a).text ++ [' ', op.char] := by
    rw [← String.toList_ofList (l := trim s.toList), ← trimmed, written, Operand.text_ofInt]
    simp
  let c : Calculation :=
    ⟨some (.ofInt a), [' '], op, [], none, blank_space, nofun, .inl rfl⟩
  exact evaluate_calculation c text nofun

end

/-- What is computed of whole numbers up to the limit is exact, and a number that is missing counts
as zero. -/
theorem evaluate_whole (a b : Int) (op : Op) :
    (a.natAbs ≤ wholeLimit → b.natAbs ≤ wholeLimit → ∀ r, op.Exact a b r →
      evaluate (spaced (toString a) op (toString b)) = .ok (.int r)) ∧
    (∀ s, trimmed s = String.singleton op.char ++ " " ++ toString b →
      evaluate s = evaluate (spaced "0" op (toString b))) ∧
    ∀ s, trimmed s = toString a ++ " " ++ String.singleton op.char →
      evaluate s = evaluate (spaced (toString a) op "0") := by
  have zero : (Operand.ofInt 0).numeral.toBinary64 = .zero false := rfl
  refine ⟨fun smallLeft smallRight r gives => ?_, fun s written => ?_, fun s written => ?_⟩
  · rw [evaluate_ints]
    exact apply_counts (Operand.counts_ofInt smallLeft) (Operand.counts_ofInt smallRight) smallLeft
      gives
  · have filled := evaluate_ints 0 b op
    rw [zero] at filled
    exact (evaluate_right b op written).trans filled.symm
  · have filled := evaluate_ints a 0 op
    rw [zero] at filled
    exact (evaluate_left a op written).trans filled.symm

/-- A remainder has the sign of what is divided, and a minus in front of a space is the operator. -/
theorem evaluate_minus_seven :
    evaluate "-7 % 3" = .ok (.int (-1)) ∧ evaluate " - -5" = evaluate "0 - -5" ∧
      evaluate "-7 / " = evaluate "-7 / 0" := by
  have remainder : "-7 % 3" = spaced (toString (-7 : Int)) .rem (toString (3 : Int)) := by decide
  have difference : "0 - -5" = spaced "0" .sub (toString (-5 : Int)) := by decide
  have quotient : "-7 / 0" = spaced (toString (-7 : Int)) .div "0" := by decide
  rw [remainder, difference, quotient]
  refine ⟨?_, ?_, ?_⟩
  · exact (evaluate_whole (-7) 3 .rem).1 (by decide) (by decide) (-1) rfl
  · exact (evaluate_whole 0 (-5) .sub).2.1 " - -5" (by decide)
  · exact (evaluate_whole (-7) 0 .div).2.2 "-7 / " (by decide)

/-- The sum of two whole numbers is computed exactly. -/
theorem evaluate_add {m n : Nat} (small : m + n ≤ wholeLimit) :
    evaluate (toString m ++ " + " ++ toString n) = .ok (.int (m + n : Nat)) := by
  have text : toString m ++ " + " ++ toString n =
      spaced (toString (m : Int)) .add (toString (n : Int)) := by
    have operator : " + " = " " ++ String.singleton Op.add.char ++ " " := rfl
    rw [operator, ← String.append_assoc, ← String.append_assoc]
    rfl
  rw [text, evaluate_ints]
  exact apply_counts (Operand.counts_ofInt (by omega)) (Operand.counts_ofInt (by omega)) (by omega)
    ⟨Int.natCast_add m n, by omega⟩

end Expression
end Runbook

/-! ## Which expressions have a value

Digits that count for more than the format holds are read as an infinite number. Such a number has no
remainder by anything but zero, and that is the one thing in which an expression fails
(`evaluate_cases`): every other calculation has a result, and every other text is worth itself or
the number that it is. -/
namespace Runbook.Number.Binary64

theorem ofDecimal_ne_nan (negative : Bool) (digits : Nat) (exponent : Int) :
    ofDecimal negative digits exponent ≠ .nan := by
  have quotient (num den : Nat) : ofQuotient negative num den ≠ .nan := by
    unfold ofQuotient
    dsimp only
    split <;> nofun
  unfold ofDecimal
  dsimp only
  split
  · nofun
  split
  · nofun
  split
  · nofun
  split
  · exact quotient _ _
  · exact quotient _ _

/-- Only an infinite number has no remainder. -/
theorem rem?_eq_none_iff {x y : Binary64} (number : y ≠ .nan) (some_y : y.isZero = false) :
    x.rem? y = none ↔ ∃ negative, x = .infinite negative := by
  cases x with
  | nan => simp [rem?]
  | infinite negative => cases y <;> simp_all [rem?]
  | finite negative rank =>
    cases y with
    | nan => exact absurd rfl number
    | infinite => simp [rem?]
    | finite negative' rank' =>
      have divisor : rank'.val ≠ 0 := ne_of_beq_false some_y
      simp [rem?, divisor]

end Runbook.Number.Binary64

namespace Runbook.Expression

open Number Text

/-- The remainder of an infinite number by one that is not zero. -/
def Op.Undefined (op : Op) (x y : Binary64) : Prop :=
  op = .rem ∧ (∃ negative, x = .infinite negative) ∧ y.isZero = false

/-- The text is a calculation without a result. -/
def Undefined (s : String) : Prop :=
  ∃ c : Calculation, c.text = trim s.toList ∧
    c.op.Undefined (orZero c.operation.left) (orZero c.operation.right)

theorem orZero_ne_nan (n : Option Numeral) : orZero n ≠ .nan := by
  cases n with
  | none => nofun
  | some n => exact Binary64.ofDecimal_ne_nan _ _ _

/-- What fails is the remainder of an infinite number. -/
theorem apply_cases (op : Op) (x : Binary64) {y : Binary64} (number : y ≠ .nan) :
    op.Undefined x y ∧ apply x op y = .error (.badValue "math domain error") ∨
      ¬ op.Undefined x y ∧ ∃ v, apply x op y = .ok v := by
  by_cases rem : op = .rem
  · rw [rem]
    cases zero : y.isZero with
    | true =>
      refine .inr ⟨fun undefined => ?_, .int 0, by rw [apply, if_pos zero]⟩
      cases zero.symm.trans undefined.2.2
    | false =>
      have infinite := Binary64.rem?_eq_none_iff (x := x) number zero
      cases left : x.rem? y with
      | none =>
        refine .inl ⟨⟨rfl, infinite.mp left, zero⟩, ?_⟩
        simp [apply, zero, left]
      | some z =>
        refine .inr ⟨fun undefined => ?_, Literal.normalize z, by simp [apply, zero, left]⟩
        cases left.symm.trans (infinite.mpr undefined.2.1)
  · refine .inr ⟨fun undefined => rem undefined.1, ?_⟩
    cases op with
    | rem => exact absurd rfl rem
    | add | sub | mul | div => exact ⟨_, rfl⟩

/-- An expression has a value unless it is the remainder of an infinite number. -/
theorem evaluate_cases (s : String) :
    Undefined s ∧ evaluate s = .error (.badValue "math domain error") ∨
      ¬ Undefined s ∧ ∃ v, evaluate s = .ok v := by
  cases read : Operation.ofChars? (trim s.toList) with
  | none =>
    refine .inr ⟨fun ⟨c, written, _⟩ => ?_, ?_⟩
    · cases read.symm.trans (written ▸ c.ofChars?_text)
    · unfold evaluate
      simp only [read]
      split
      · exact ⟨_, rfl⟩
      · exact ⟨_, rfl⟩
  | some o =>
    obtain ⟨c, written, rfl⟩ := exists_calculation read
    have undefined : Undefined s ↔
        c.op.Undefined (orZero c.operation.left) (orZero c.operation.right) := by
      refine ⟨fun ⟨d, same, h⟩ => ?_, fun h => ⟨c, written, h⟩⟩
      have operation := Calculation.operation_eq (same.trans written.symm)
      have op : d.op = c.op := congrArg Operation.op operation
      rwa [operation, op] at h
    rw [undefined]
    by_cases literal : c.left = none ∧ c.op = .sub ∧ (plain? c.text).isSome = true
    · obtain ⟨left, sub, signed⟩ := literal
      refine .inr ⟨fun h => ?_, _, evaluate_signed c written.symm left sub signed⟩
      cases sub.symm.trans h.1
    · have value := evaluate_calculation c written.symm fun left sub =>
        Option.not_isSome_iff_eq_none.mp fun signed => literal ⟨left, sub, signed⟩
      rw [value]
      exact apply_cases c.op _ (orZero_ne_nan _)

end Runbook.Expression
