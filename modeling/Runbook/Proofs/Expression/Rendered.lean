import Runbook.Proofs.Expression
import Runbook.Proofs.Number.Notation

/-! Numbers as they come into an expression.

A number comes into an expression as its text. The text of a whole number, and of a float that is
written positionally, is read as that number again (`exists_operand_of_positional`). A text with a
power of ten is read as no number there, and an expression with one is a text and stays as it is
(`evaluate_scientific`). -/
namespace Runbook

open Number Text

/-! ### Whole numbers within the range -/

namespace Number.Binary64

theorem div_le_roundQuotient (num den : Nat) : num / den ≤ roundQuotient num den := by
  unfold roundQuotient
  dsimp only
  split
  · exact le_rfl
  split
  · exact Nat.le_succ _
  split
  · exact le_rfl
  · exact Nat.le_succ _

/-- Two to this power is beyond the finite values. -/
def rangeExponent : Nat := 1024

/-- A whole number from there on is beyond them too. -/
theorem lt_of_not_exceeds {n : Int} (h : exceeds n = false) : n.natAbs < 2 ^ rangeExponent := by
  refine Nat.lt_of_not_le fun large => Bool.false_ne_true (h.symm.trans (decide_eq_true ?_))
  generalize n.natAbs = m at large ⊢
  have some_m : m ≠ 0 := (Nat.lt_of_lt_of_le (Nat.two_pow_pos _) large).ne'
  have log : rangeExponent ≤ m.log2 := (Nat.le_log2 some_m).mpr large
  obtain ⟨k, above⟩ := Nat.exists_eq_add_of_le (Nat.le_trans (by decide : 52 ≤ rangeExponent) log)
  have exponent : binaryExponent m 1 = m.log2 := by
    simpa using binaryExponent_two_pow some_m 0
  have spacing : max (binaryExponent m 1 - 52) (-unitExponent) = (k : Int) := by
    rw [exponent]
    omega
  have significand : 2 ^ 52 ≤ m / (1 * 2 ^ k) := by
    rw [Nat.one_mul, Nat.le_div_iff_mul_le (Nat.two_pow_pos k), ← Nat.pow_add, ← above]
    exact Nat.log2_self_le some_m
  have rounded := significand.trans (div_le_roundQuotient m (1 * 2 ^ k))
  have all : ranks = 2047 * 2 ^ 52 := rfl
  have unit : unitExponent = 1074 := rfl
  have range : rangeExponent = 1024 := rfl
  rw [nearestRank_at some_m spacing, if_pos (Int.natCast_nonneg k), Int.toNat_natCast, all]
  omega

/-- A whole number within the range is rounded, and no more. -/
theorem ofDecimal_whole (negative : Bool) {m : Nat} (some_m : m ≠ 0) (below : m < 2 ^ rangeExponent) :
    ofDecimal negative m 0 = ofQuotient negative m 1 := by
  have log : m.log2 < rangeExponent := (Nat.log2_lt some_m).mpr below
  have range : rangeExponent = 1024 := rfl
  have within : ¬ 400 < (m.log2 : Int) * 3 / 10 + 0 := by omega
  have reached : ¬ (m.log2 : Int) * 3 / 10 + 0 + (m.log2 : Int) / 20 + 2 < -400 := by omega
  have unscaled : m * Nat.pow 10 (0 : Int).toNat = m := Nat.mul_one m
  simp only [ofDecimal, some_m, within, reached, if_false, Int.le_refl, if_true, unscaled]

end Number.Binary64

namespace Json

theorem decimal?_of_isAsciiDigit {c : Char} (h : isAsciiDigit c = true) :
    decimal? c = some (c.toNat - 48) := by
  obtain ⟨least, most⟩ := (isAsciiDigit_iff c).mp h
  have ascii : c.toNat < 128 := by omega
  simp [decimal?, ascii, least, most]

/-- Digits are read as what they count. -/
theorem AreDigits.values {ds : List Char} (h : AreDigits ds) :
    (∀ c ∈ ds, isDecimal c = true) ∧ ofDigits (ds.filterMap decimal?) = digitsValue ds := by
  have each : ∀ c ∈ ds, decimal? c = some (c.toNat - 48) :=
    fun c there => decimal?_of_isAsciiDigit (h c there)
  refine ⟨fun c there => by rw [isDecimal, each c there]; rfl, ?_⟩
  have values : ds.filterMap decimal? = ds.map (·.toNat - 48) :=
    (List.filterMap_congr each).trans (congrFun List.filterMap_eq_map ds)
  rw [values, ofDigits, List.foldl_map]
  rfl

end Json

namespace Expression

/-! ### Floats -/

/-- A numeral without a power of ten is read as its decimal, rounded. -/
theorem exists_operand_of_numeral {d : Decimal} {text w frac : List Char}
    (h : Json.IsNumeralOf d text w frac none) (negative : Bool) :
    ∃ o : Operand, o.text = Json.signText negative ++ text ∧
      o.numeral.toBinary64 =
        .ofDecimal negative (Json.digitsValue (w ++ frac)) (-(frac.length : Int)) := by
  obtain ⟨decimal, value⟩ := (h.whole.1.append h.fracDigits).values
  have some_whole : w ≠ [] := by
    obtain rfl | ⟨c, cs, rfl, -⟩ := h.whole.2
    · exact List.cons_ne_nil _ _
    · exact List.cons_ne_nil _ _
  refine ⟨⟨negative, w, frac, some_whole, decimal⟩, ?_, ?_⟩
  · rw [h.text_eq, Json.powerText, List.append_nil]
    rfl
  · rw [Numeral.toBinary64, Operand.numeral, value]

end Expression

/-! ### Numbers as text -/

namespace Literal

open Expression (Operand)

/-- A finite number, and what it is computed as; a zero has no sign in an expression. -/
inductive Finite : Value → Binary64 → Prop
  | int {n : Int} (within : Binary64.exceeds n = false) : Finite (.int n) (.ofInt n)
  | float (negative : Bool) (rank : Fin ranks) :
    Finite (.float (.finite negative rank))
      (if rank.val = 0 then .zero false else .finite negative rank)

/-- A number that is written without a power of ten. -/
def IsPositional : Value → Prop
  | .float (.finite _ rank) => rank.val = 0 ∨ Number.IsPositional rank
  | _ => True

theorem toInt?_of_units (negative : Bool) {rank : Fin ranks} {m : Nat}
    (whole : Binary64.units rank = m * Binary64.one) :
    Binary64.toInt? (.finite negative rank) = some (Binary64.signed negative m) :=
  Binary64.Counts.toInt? ⟨negative, rank, m, rfl, whole, rfl⟩

/-- A float is written as the whole number that it is, below `10 ^ 16`. -/
theorem stringify_whole (negative : Bool) {rank : Fin ranks} {m : Nat}
    (whole : Binary64.units rank = m * Binary64.one) (below : m < 10 ^ 16) :
    stringify (.float (.finite negative rank)) = .ok (toString (Binary64.signed negative m)) := by
  have small : (Binary64.signed negative m).natAbs < exponentFrom :=
    (Binary64.natAbs_signed negative m).symm ▸ below
  simp only [stringify, toInt?_of_units negative whole, small, if_true]

/-- Every other float is written in the plain layout. -/
theorem stringify_broken (negative : Bool) {rank : Fin ranks}
    (broken : ∀ m, Binary64.units rank = m * Binary64.one → ¬ m < 10 ^ 16) :
    stringify (.float (.finite negative rank)) = .ok (plain.text (.finite negative rank)) := by
  by_cases whole : Binary64.units rank % Binary64.one = 0
  · have count := (Nat.div_mul_cancel (Nat.dvd_of_mod_eq_zero whole)).symm
    have large : ¬ (Binary64.signed negative (Binary64.units rank / Binary64.one)).natAbs <
        exponentFrom :=
      (Binary64.natAbs_signed negative _).symm ▸ broken _ count
    simp only [stringify, toInt?_of_units negative count, large, if_false]
  · have none : Binary64.toInt? (.finite negative rank) = none := if_neg whole
    simp only [stringify, none]

theorem isPositional_of_units {rank m : Nat} (some_m : m ≠ 0)
    (whole : Binary64.units rank = m * Binary64.one) (below : m < 10 ^ 16) :
    Number.IsPositional rank := by
  have pos : 0 < 10 ^ 4 * m := Nat.mul_pos (by decide) (Nat.pos_of_ne_zero some_m)
  rw [Number.IsPositional, whole, ← Nat.mul_assoc]
  exact ⟨Nat.le_mul_of_pos_left _ pos, Nat.mul_lt_mul_of_pos_right below Binary64.one_pos⟩

theorem text_plain (negative : Bool) {rank : Fin ranks} (some_rank : rank.val ≠ 0) :
    (plain.text (.finite negative rank)).toList =
      Json.signText negative ++ data.decimal (shortest rank) := by
  have same : plain.text (.finite negative rank) = data.text (.finite negative rank) := rfl
  rw [same, Json.text_finite, Json.magnitudeText, if_neg some_rank]

/-- The text of a whole number is an operand, with the value of the number. -/
theorem exists_operand_of_int {n : Int} (within : Binary64.exceeds n = false) :
    ∃ text, stringify (.int n) = .ok text ∧ text.toList = (Operand.ofInt n).text ∧
      (Operand.ofInt n).numeral.toBinary64 = .ofInt n := by
  have below := Binary64.lt_of_not_exceeds within
  have digits : n.natAbs < 10 ^ 400 :=
    below.trans_le (by decide +kernel)
  obtain ⟨text, written⟩ := Option.isSome_iff_exists.mp
    (Json.numeral?_isSome (by decide) digits (by decide))
  refine ⟨text, by simp only [stringify, written], ?_, ?_⟩
  · rw [(Json.numeral?_eq_some written).2]
    exact congrArg (Json.signText (n < 0) ++ ·) (List.append_nil _).symm
  · rw [Operand.toBinary64_ofInt]
    by_cases none : n = 0
    · rw [none]
      rfl
    · exact Binary64.ofDecimal_whole _ (Int.natAbs_ne_zero.mpr none) below

/-- The text of a float without a power of ten is an operand, with the value of the float. -/
theorem exists_operand_of_float (negative : Bool) (rank : Fin ranks)
    (positional : rank.val = 0 ∨ Number.IsPositional rank) :
    ∃ text o, stringify (.float (.finite negative rank)) = .ok text ∧
      text.toList = Operand.text o ∧ o.numeral.toBinary64 =
        if rank.val = 0 then .zero false else .finite negative rank := by
  by_cases whole : ∃ m, Binary64.units rank = m * Binary64.one ∧ m < 10 ^ 16
  · obtain ⟨m, whole, below⟩ := whole
    refine ⟨_, .ofInt (Binary64.signed negative m), stringify_whole negative whole below,
      (Operand.text_ofInt _).symm, ?_⟩
    rw [Operand.toBinary64_ofInt, Binary64.natAbs_signed]
    by_cases none : m = 0
    · rw [if_pos ((Binary64.rank_eq_zero_iff whole).mpr none), none]
      cases negative <;> rfl
    · have some_rank := mt (Binary64.rank_eq_zero_iff whole).mp none
      have sign : decide (Binary64.signed negative m < 0) = negative := by
        cases negative <;> simp [Binary64.signed]
        omega
      have range : m < 2 ^ Binary64.rangeExponent := below.trans_le (by decide +kernel)
      rw [if_neg some_rank, sign, Binary64.ofDecimal_whole negative none range]
      refine Binary64.ofQuotient_of_magnitude negative rank Nat.one_ne_zero ?_
      rw [whole, Nat.mul_one]
  · have broken : ∀ m, Binary64.units rank = m * Binary64.one → ¬ m < 10 ^ 16 :=
      fun m same below => whole ⟨m, same, below⟩
    have some_rank : rank.val ≠ 0 := fun zero =>
      broken 0 (by rw [zero, Nat.zero_mul]; rfl) (by decide)
    have pos := Nat.pos_of_ne_zero some_rank
    have point := (isPositional_iff pos).mp (positional.resolve_left some_rank)
    have near := near_shortest pos
    obtain ⟨w, frac, numeral⟩ := Json.exists_positional (near.digits_ne_zero pos) point
    obtain ⟨o, text, value⟩ := Expression.exists_operand_of_numeral numeral negative
    refine ⟨_, o, stringify_broken negative broken, ?_, ?_⟩
    · rw [text_plain negative some_rank, text]
    · have exponent : Json.powerValue none - (frac.length : Int) = -(frac.length : Int) :=
        Int.zero_sub _
      have same := numeral.same
      rw [exponent] at same
      rw [value, if_neg some_rank]
      exact Decimal.ofDecimal_of_near negative pos rank.isLt (near.of_same same)

variable {v : Value} {x : Binary64}

/-- The text of a number without a power of ten is an operand, with the value of the number. -/
theorem exists_operand_of_positional (finite : Finite v x) (positional : IsPositional v) :
    ∃ text o, stringify v = .ok text ∧ text.toList = Operand.text o ∧
      o.numeral.toBinary64 = x := by
  cases finite with
  | int within =>
    obtain ⟨text, written⟩ := exists_operand_of_int within
    exact ⟨text, _, written⟩
  | float negative rank => exact exists_operand_of_float negative rank positional

/-- The text of any other finite number has a power of ten. -/
theorem exists_text_of_scientific (finite : Finite v x) (scientific : ¬ IsPositional v) :
    ∃ text, stringify v = .ok text ∧ 'e' ∈ text.toList ∧
      ∀ c ∈ text.toList, isBlank c = false := by
  cases finite with
  | int within => exact absurd trivial scientific
  | float negative rank =>
    have some_rank : rank.val ≠ 0 := fun zero => scientific (.inl zero)
    have beyond : ¬ Number.IsPositional rank := fun positional => scientific (.inr positional)
    have broken : ∀ m, Binary64.units rank = m * Binary64.one → ¬ m < 10 ^ 16 := by
      intro m whole below
      have some_m := mt (Binary64.rank_eq_zero_iff whole).mpr some_rank
      exact beyond (isPositional_of_units some_m whole below)
    have pos := Nat.pos_of_ne_zero some_rank
    obtain ⟨w, frac, p, numeral⟩ := Json.exists_scientific
      ((near_shortest pos).digits_ne_zero pos) (mt (isPositional_iff pos).mpr beyond)
    refine ⟨_, stringify_broken negative broken, ?_, ?_⟩ <;> rw [text_plain negative some_rank]
    · rw [numeral.text_eq]
      simp [Json.powerText]
    · have marks : ∀ c ∈ ['.', 'e', '+', '-'], isBlank c = false := by simp [isBlank]
      refine List.forall_mem_append.mpr ⟨?_, numeral.forall_mem (fun c digit => ?_) marks⟩
      · cases negative with
        | true => exact List.forall_mem_singleton.mpr rfl
        | false => exact List.forall_mem_nil _
      · exact ((Json.isAsciiDigit_iff c).mp digit).isBlank

theorem Finite.isFinite (h : Finite v x) : x.isFinite = true := by
  cases h with
  | int within =>
    have below : Binary64.nearestRank _ 1 < ranks := Nat.not_le.mp (of_decide_eq_false within)
    rw [Binary64.ofInt, Binary64.ofQuotient_finite _ below]
    rfl
  | float negative rank => split <;> rfl

/-- A finite number has a text without blanks; it is an operand or has a power of ten. -/
theorem Finite.exists_text (h : Finite v x) :
    ∃ text, stringify v = .ok text ∧ text ≠ "" ∧ (∀ c ∈ text.toList, isBlank c = false) ∧
      (IsPositional v → ∃ o, text.toList = Operand.text o ∧ o.numeral.toBinary64 = x) ∧
      (¬ IsPositional v → 'e' ∈ text.toList) := by
  by_cases positional : IsPositional v
  · obtain ⟨text, o, written, chars, value⟩ := exists_operand_of_positional h positional
    refine ⟨text, written, ?_, chars ▸ o.solid, fun _ => ⟨o, chars, value⟩, absurd positional⟩
    rintro rfl
    obtain ⟨c, cs, first, -⟩ := o.exists_text
    cases chars.trans first
  · obtain ⟨text, written, power, solid⟩ := exists_text_of_scientific h positional
    refine ⟨text, written, ?_, solid, fun h => absurd h positional, fun _ => power⟩
    rintro rfl
    cases power

end Literal

namespace Expression

/-- With a power of ten there is nothing to compute: the text stays as it is. -/
theorem evaluate_scientific {left right : String} (op : Op) (some_left : left ≠ "")
    (some_right : right ≠ "") (solid : ∀ c ∈ left.toList ++ right.toList, isBlank c = false)
    (power : 'e' ∈ left.toList ++ right.toList) :
    evaluate (spaced left op right) = .ok (.str (spaced left op right)) := by
  obtain ⟨first, second⟩ := List.forall_mem_append.mp solid
  have chars : (spaced left op right).toList =
      left.toList ++ (' ' :: op.char :: ' ' :: right.toList) := by simp [spaced]
  obtain ⟨c, cs, opens⟩ := List.exists_cons_of_ne_nil (mt String.toList_eq_nil_iff.mp some_left)
  obtain ⟨d, last⟩ : ∃ d, right.toList.getLast? = some d :=
    ⟨_, List.getLast?_eq_some_getLast (mt String.toList_eq_nil_iff.mp some_right)⟩
  have trimmed : trim (spaced left op right).toList = (spaced left op right).toList := by
    rw [chars]
    refine trim_of_ends (fun e there => ?_) fun e there => ?_
    · rw [opens] at there first
      cases there
      exact first _ (List.mem_cons_self ..)
    · have behind : (' ' :: op.char :: ' ' :: right.toList).getLast? = some d := by
        simp [List.getLast?_cons, last]
      rw [List.getLast?_append, behind] at there
      cases there
      exact second _ (List.mem_of_mem_getLast? last)
  have nothing : Operation.ofChars? (spaced left op right).toList = none := by
    refine Option.eq_none_iff_forall_ne_some.mpr fun o read => ?_
    obtain ⟨c, text, -⟩ := exists_calculation read
    refine c.e_not_mem_text ?_
    rw [text, chars]
    rcases List.mem_append.mp power with there | there
    · exact List.mem_append_left _ there
    · exact List.mem_append_right _ (by simp [there])
  have other : plain? (spaced left op right).toList = none := by
    refine Option.eq_none_iff_forall_ne_some.mpr fun x read => ?_
    obtain ⟨n, numeral, -⟩ := Option.map_eq_some_iff.mp read
    rw [trimmed, chars] at numeral
    have blank := solid_of_ofChars? numeral ' ' (by simp)
    cases blank
  have literal : Literal.coerce (String.ofList (spaced left op right).toList) =
      .str (spaced left op right) := by
    rw [Literal.coerce, String.toList_ofList, other, String.ofList_toList]
  unfold evaluate
  simp only [trimmed, nothing, literal]

end Expression
end Runbook
