import Mathlib.Order.Compare
import Runbook.Proofs.Condition.Evaluation
import Runbook.Proofs.Expression

/-! The order of two operands.

Whether two operands are compared as numbers or as texts depends on both of them and not on which is
on the left, and on either side there is one order (`order?_isSome`, `order?_swap`): no numeral is
read as a value that is no number. All six operators read that one order. -/
namespace Runbook.Number

namespace Binary64

/-- Numbers are always ordered. -/
theorem exists_compare? {x y : Binary64} (hx : x ≠ .nan) (hy : y ≠ .nan) :
    ∃ o, x.compare? y = some o := by
  cases x with
  | nan => exact absurd rfl hx
  | infinite | finite =>
    cases y with
    | nan => exact absurd rfl hy
    | infinite | finite => exact ⟨_, rfl⟩

theorem compare?_swap (x y : Binary64) : (x.compare? y).map Ordering.swap = y.compare? x := by
  cases x with
  | nan => cases y <;> rfl
  | infinite s =>
    cases y with
    | nan => rfl
    | infinite t => cases s <;> cases t <;> rfl
    | finite t q => cases s <;> rfl
  | finite s r =>
    cases y with
    | nan => rfl
    | infinite t => cases t <;> rfl
    | finite t q => exact congrArg some Std.OrientedOrd.eq_swap.symm

/-- Whole numbers are ordered as what they count. -/
theorem Counts.compare? {x y : Binary64} {j k : Int} (hx : Counts x j) (hy : Counts y k) :
    x.compare? y = some (compare j k) := by
  obtain ⟨s, r, m, rfl, left, rfl⟩ := hx
  obtain ⟨t, q, n, rfl, right, rfl⟩ := hy
  have unit : (0 : Int) < one := Int.natCast_pos.mpr one_pos
  simp only [Binary64.compare?, signedUnits_eq, left, right, signed_scale]
  rcases lt_trichotomy (signed s m) (signed t n) with less | same | greater
  · rw [compare_lt_iff_lt.mpr less, compare_lt_iff_lt.mpr (Int.mul_lt_mul_of_pos_right less unit)]
  · rw [same, compare_eq_iff_eq.mpr rfl, compare_eq_iff_eq.mpr rfl]
  · rw [compare_gt_iff_gt.mpr greater,
      compare_gt_iff_gt.mpr (Int.mul_lt_mul_of_pos_right greater unit)]

end Binary64

/-- No numeral is read as a value that is no number. -/
theorem plain?_ne_nan {cs : List Char} {x : Binary64} (h : plain? cs = some x) : x ≠ .nan := by
  obtain ⟨n, -, rfl⟩ := Option.map_eq_some_iff.mp h
  exact Binary64.ofDecimal_ne_nan n.negative (ofDigits n.digits) n.exponent

/-! ### Decimal texts of integers -/

/-- The text is an integer in decimal: digits of any script behind one sign at most, blanks around
them aside. Zeros may stand in front. -/
def Denotes (s : String) (k : Int) : Prop :=
  ∃ sign digits, sign ∈ [[], ['+'], ['-']] ∧ digits ≠ [] ∧
    (∀ d ∈ digits, Text.isDecimal d = true) ∧ Text.trim s.toList = sign ++ digits ∧
    Binary64.signed (sign == ['-']) (ofDigits (digits.filterMap Text.decimal?)) = k

theorem denotes_toString (k : Int) : Denotes (toString k) k := by
  have written := Expression.Operand.text_ofInt k
  have digits := (Expression.Operand.ofInt k).decimal_whole
  obtain ⟨ds, -, small, spelled, value⟩ := spells_repr k.natAbs
  have sign : (Json.signText (decide (k < 0)) == ['-']) = decide (k < 0) := by
    cases decide (k < 0) <;> rfl
  refine ⟨Json.signText (k < 0), (toString k.natAbs).toList, ?_, (spells_repr k.natAbs).ne_nil,
    digits, ?_, ?_⟩
  · cases decide (k < 0) <;> decide
  · rw [← written, Text.trim_of_solid (Expression.Operand.solid _), Expression.Operand.text,
      Expression.Operand.unsigned]
    exact congrArg _ (List.append_nil _)
  · rw [sign, spelled, (filterMap_digitChar small).2, value, Binary64.signed_natAbs]

theorem takeSign_signed {sign digits : List Char} (h : sign ∈ [[], ['+'], ['-']])
    (some_digit : digits ≠ []) (decimal : ∀ d ∈ digits, Text.isDecimal d = true) :
    takeSign (sign ++ digits) = (sign == ['-'], digits) := by
  simp only [List.mem_cons, List.not_mem_nil, or_false] at h
  rcases h with rfl | rfl | rfl
  · obtain ⟨d, ds, rfl⟩ := List.exists_cons_of_ne_nil some_digit
    have digit := decimal d (List.mem_cons_self ..)
    show takeSign (d :: ds) = (false, d :: ds)
    unfold takeSign
    split
    · rename_i same
      cases same
      exact absurd digit (by decide)
    · rename_i same
      cases same
      exact absurd digit (by decide)
    · rfl
  · rfl
  · rfl

namespace Denotes

variable {s t : String} {j k : Int}

/-- An integer up to the limit is read exactly. -/
theorem exists_plain? (h : Denotes s k) (small : k.natAbs ≤ Binary64.wholeLimit) :
    ∃ x, plain? s.toList = some x ∧ x.Counts k := by
  obtain ⟨sign, digits, oneSign, some_digit, decimal, trimmed, rfl⟩ := h
  rw [Binary64.natAbs_signed] at small
  refine ⟨_, ?_, Binary64.counts_ofDecimal (sign == ['-']) small⟩
  have some_value : digits.filterMap Text.decimal? ≠ [] := by
    rw [← List.length_pos_iff, length_filterMap_decimal? decimal]
    exact List.length_pos_iff.mpr some_digit
  rw [plain?, trimmed, Numeral.ofChars?, takeSign_signed oneSign some_digit decimal]
  simp only [takeDigits_of_isDecimal decimal, some_value, decide_false, Bool.false_and,
    Bool.false_eq_true, if_false, endingPower?, Option.map_some, List.append_nil, List.length_nil]
  rfl

end Denotes
end Runbook.Number

namespace Runbook.Condition

open Number

/-! ### One order -/

theorem order?_swap (l r : String) : (order? l r).map Ordering.swap = order? r l := by
  unfold order?
  cases Number.plain? l.toList with
  | none => cases Number.plain? r.toList <;> exact congrArg some Std.OrientedOrd.eq_swap.symm
  | some x =>
    cases Number.plain? r.toList with
    | none => exact congrArg some Std.OrientedOrd.eq_swap.symm
    | some y => exact Binary64.compare?_swap x y

/-- Any two operands are ordered. -/
theorem exists_order? (l r : String) : ∃ o, order? l r = some o := by
  unfold order?
  cases left : Number.plain? l.toList with
  | none => exact ⟨_, rfl⟩
  | some x =>
    cases right : Number.plain? r.toList with
    | none => exact ⟨_, rfl⟩
    | some y => exact Binary64.exists_compare? (plain?_ne_nan left) (plain?_ne_nan right)

/-- Integers are ordered as such. -/
theorem order?_of_denotes {l r : String} {j k : Int} (hl : Denotes l j) (hr : Denotes r k)
    (small : j.natAbs ≤ Binary64.wholeLimit) (small' : k.natAbs ≤ Binary64.wholeLimit) :
    order? l r = some (compare j k) := by
  obtain ⟨x, left, countsLeft⟩ := hl.exists_plain? small
  obtain ⟨y, right, countsRight⟩ := hr.exists_plain? small'
  rw [order?, left, right]
  exact countsLeft.compare? countsRight

theorem order?_toString {j k : Int} (small : j.natAbs ≤ Binary64.wholeLimit)
    (small' : k.natAbs ≤ Binary64.wholeLimit) :
    order? (toString j) (toString k) = some (compare j k) :=
  order?_of_denotes (denotes_toString j) (denotes_toString k) small small'

/-- What the six operators say of two operands that are in a given order. -/
structure Coheres (l r : String) (o : Ordering) : Prop where
  less : compareBy l "<" r = .ok (o == .lt)
  equal : compareBy l "==" r = .ok (o == .eq)
  greater : compareBy l ">" r = .ok (o == .gt)
  unequal : compareBy l "!=" r = .ok (o != .eq)
  atMost : compareBy l "<=" r = .ok (o != .gt)
  atLeast : compareBy l ">=" r = .ok (o != .lt)

theorem coheres_of_order {l r : String} {o : Ordering} (h : order? l r = some o) :
    Coheres l r o := by
  have symbol (c : Comparison) : compareBy l c.symbol r = compareTexts l c r := by
    have known : Comparison.ofSymbol? c.symbol = some c := by cases c <;> decide
    rw [compareBy, known]
  constructor
  · exact (symbol .lt).trans (by rw [compareTexts, h]; cases o <;> rfl)
  · exact (symbol .eq).trans (by rw [compareTexts, h]; cases o <;> rfl)
  · exact (symbol .gt).trans (by rw [compareTexts, h]; cases o <;> rfl)
  · exact (symbol .ne).trans (by rw [compareTexts, h]; cases o <;> rfl)
  · exact (symbol .le).trans (by rw [compareTexts, h]; cases o <;> rfl)
  · exact (symbol .ge).trans (by rw [compareTexts, h]; cases o <;> rfl)

/-- Of two operands one is less than the other or they are equal, and never two of these. The other
three operators are the negations, and with the operands exchanged less and greater are exchanged.
Integers up to the limit are compared as such. -/
theorem compareBy_trichotomy (l r : String) :
    ∃ less equal greater : Bool,
      (compareBy l "<" r = .ok less ∧ compareBy l "==" r = .ok equal ∧
        compareBy l ">" r = .ok greater) ∧
      [less, equal, greater].count true = 1 ∧
      (compareBy l "!=" r = .ok (!equal) ∧ compareBy l "<=" r = .ok (!greater) ∧
        compareBy l ">=" r = .ok (!less)) ∧
      (compareBy r ">" l = .ok less ∧ compareBy r "==" l = .ok equal ∧
        compareBy r "<" l = .ok greater) ∧
      ∀ j k : Int, Denotes l j → Denotes r k → j.natAbs ≤ 2 ^ 53 → k.natAbs ≤ 2 ^ 53 →
        less = decide (j < k) ∧ equal = decide (j = k) ∧ greater = decide (j > k) := by
  obtain ⟨o, order⟩ := exists_order? l r
  have here := coheres_of_order order
  have there : Coheres r l o.swap := coheres_of_order (by rw [← order?_swap, order]; rfl)
  refine ⟨o == .lt, o == .eq, o == .gt, ⟨here.less, here.equal, here.greater⟩, ?_,
    ⟨here.unequal, here.atMost, here.atLeast⟩, ⟨?_, ?_, ?_⟩, ?_⟩
  · cases o <;> rfl
  · exact there.greater.trans (by cases o <;> rfl)
  · exact there.equal.trans (by cases o <;> rfl)
  · exact there.less.trans (by cases o <;> rfl)
  · intro j k hl hr small small'
    have compared : o = compare j k :=
      Option.some.inj (order.symm.trans (order?_of_denotes hl hr small small'))
    subst compared
    refine ⟨?_, ?_, ?_⟩
    · rw [beq_eq_decide, decide_eq_decide, compare_lt_iff_lt]
    · rw [beq_eq_decide, decide_eq_decide, compare_eq_iff_eq]
    · rw [beq_eq_decide, decide_eq_decide, compare_gt_iff_gt]

/-- Zeros in front do not count, and neither does a sign: as texts these two are in the other
order. -/
theorem compareBy_padded : compareBy "-0012" "<" " +7 " = .ok true ∧
    compareBy "-0012" ">=" " +7 " = .ok false := by
  have padded : Denotes "-0012" (-12) :=
    ⟨['-'], ['0', '0', '1', '2'], by decide, nofun, List.all_eq_true.mp rfl, rfl, by decide⟩
  have signed : Denotes " +7 " 7 :=
    ⟨['+'], ['7'], by decide, nofun, List.all_eq_true.mp rfl, rfl, by decide⟩
  obtain ⟨less, equal, greater, ⟨first, -, -⟩, -, ⟨-, -, last⟩, -, numbers⟩ :=
    compareBy_trichotomy "-0012" " +7 "
  obtain ⟨rfl, -, -⟩ := numbers (-12) 7 padded signed (by decide) (by decide)
  exact ⟨first, last⟩

end Runbook.Condition
