import Runbook.Proofs.Condition.Ordering
import Runbook.Proofs.Expression
import Runbook.Proofs.Template

/-! Comparisons of whole numbers.

A comparison of a variable with a numeral is cut into its three tokens whatever the numeral is, and
where the variable holds a whole number up to `2 ^ 53`, and the numeral is one for such a number,
its value is that of the comparison of the two numbers. -/
namespace Runbook.Condition

open Number Template

/-! ### Bare operands -/

/-- A text up to the closing braces behind it, if it has none itself. -/
theorem cutAtWord_braces {inside : List Char} (h : '}' ∉ inside) (rest : List Char) :
    Text.cutAtWord ['}', '}'] (inside ++ '}' :: '}' :: rest) = some (inside, rest) := by
  induction inside with
  | nil => rfl
  | cons c inside ih =>
    obtain ⟨here, behind⟩ := List.ne_and_not_mem_of_not_mem_cons h
    have goes : Text.after? ['}', '}'] (c :: (inside ++ '}' :: '}' :: rest)) = none := if_neg here
    rw [List.cons_append, Text.cutAtWord, goes]
    simp only [ih behind, Option.map_some]

/-- A placeholder is taken whole. -/
theorem bareOperand_hole {inside : List Char} (h : '}' ∉ inside) (fuel : Nat) (rest : List Char) :
    bareOperand (fuel + 1) ('{' :: '{' :: (inside ++ '}' :: '}' :: rest)) =
      ('{' :: '{' :: inside ++ '}' :: '}' :: (bareOperand fuel rest).1,
        (bareOperand fuel rest).2) := by
  rw [bareOperand]
  simp only [cutAtWord_braces h]

theorem bareOperand_plain {c : Char} (other : c ≠ '{') (fuel : Nat) (cs : List Char) :
    bareOperand (fuel + 1) (c :: cs) =
      if endsOperand (c :: cs) then ([], c :: cs)
      else (c :: (bareOperand fuel cs).1, (bareOperand fuel cs).2) := by
  rw [bareOperand]
  rintro inside rfl
  exact absurd rfl other

section

variable {c : Char}

theorem endsOperand_digit (digit : IsDigit c) (cs : List Char) :
    endsOperand (c :: cs) = false := by
  have ne {d : Char} := digit.ne (d := d)
  unfold endsOperand
  split
  case h_4 same =>
    obtain ⟨rfl, rfl⟩ := List.cons.inj same
    simp only [digit.isBlank, beq_eq_false_iff_ne.mpr (ne (d := '(') (by decide)),
      beq_eq_false_iff_ne.mpr (ne (d := ')') (by decide)),
      beq_eq_false_iff_ne.mpr (ne (d := '<') (by decide)),
      beq_eq_false_iff_ne.mpr (ne (d := '>') (by decide)),
      beq_eq_false_iff_ne.mpr (ne (d := '=') (by decide)), Bool.or_false]
  case h_5 same => cases same
  all_goals
    rename_i same
    exact absurd (List.cons.inj same).1 (ne (by decide))

theorem operator?_digit (digit : IsDigit c) (cs : List Char) :
    operator? (c :: cs) = none := by
  have ne {d : Char} (other : ¬ IsDigit d) : d ≠ c := (digit.ne other).symm
  simp only [operator?, operators, List.findSome?, Text.after?, ne (d := '=') (by decide),
    ne (d := '!') (by decide), ne (d := '<') (by decide), ne (d := '>') (by decide),
    ne (d := '&') (by decide), ne (d := '|') (by decide), ne (d := '(') (by decide),
    ne (d := ')') (by decide), if_false, Option.map_none]

end

/-- A numeral is taken whole. -/
theorem bareOperand_digits {cs : List Char} (digits : ∀ c ∈ cs, IsDigit c)
    {fuel : Nat} (enough : cs.length ≤ fuel) : bareOperand fuel cs = (cs, []) := by
  induction cs generalizing fuel with
  | nil => cases fuel <;> rfl
  | cons c cs ih =>
    obtain ⟨first, others⟩ := List.forall_mem_cons.mp digits
    obtain ⟨fuel, rfl⟩ := Nat.exists_eq_add_of_le' (Nat.lt_of_lt_of_le Nat.zero_lt_one
      (Nat.le_trans (Nat.le_add_left 1 cs.length) enough))
    have behind := ih others (Nat.le_of_succ_le_succ enough)
    rw [bareOperand_plain (first.ne (by decide)), endsOperand_digit first, behind]
    rfl

/-! ### Tokens -/

theorem lowerChar_digit {c : Char} (digit : IsDigit c) : Text.lowerChar c = [c] := by
  have ascii : c.toNat < 128 := Nat.lt_of_le_of_lt digit.2 (by decide)
  have small : c.toLower = c := by
    refine dif_neg fun capital => ?_
    have : 'A'.toNat ≤ c.toNat := UInt32.le_iff_toNat_le.mp capital.1
    exact absurd this (by rw [Nat.not_le]; exact Nat.lt_of_le_of_lt digit.2 (by decide))
  rw [Text.lowerChar, if_pos ascii, small]

/-- A word that starts like no keyword is an operand. -/
theorem ofWord_operand {c : Char} (small : Text.lowerChar c = [c]) (greek : c ≠ 'Σ')
    (other : c ∉ ['a', 'o', 'n', 'c']) (cs : List Char) :
    ofWord (String.ofList (c :: cs)) = .operand (String.ofList (c :: cs)) false := by
  have lowered : (Text.lowered (String.ofList (c :: cs))).toList.head? = some c := by
    simp [Text.lowered, Text.lower, Text.lowerFrom, greek, small]
  unfold ofWord
  split
  case h_5 => rfl
  all_goals
    rename_i keyword
    rw [keyword] at lowered
    refine absurd ?_ other
    simp at lowered
    simp [← lowered]

theorem tokensFrom_bare {c : Char} {cs word rest : List Char} (solid : Text.isBlank c = false)
    (plain : operator? (c :: cs) = none) (other : c ∉ ['=', '"', '\''])
    (taken : bareOperand (c :: cs).length (c :: cs) = (word, rest)) (length fuel : Nat) :
    tokensFrom length (fuel + 1) (c :: cs) =
      (tokensFrom length fuel rest).map (ofWord (String.ofList word) :: ·) := by
  simp only [List.mem_cons, List.not_mem_nil, or_false, not_or] at other
  obtain ⟨equals, double, single⟩ := other
  rw [tokensFrom, plain, taken]
  simp only [solid, Bool.false_eq_true, equals, double, single, decide_false, Bool.or_self,
    if_false]

/-- The placeholder for a variable in front of a blank is an operand. -/
theorem tokensFrom_holeFor {name : String} (h : IsName name) (length fuel : Nat)
    (cs : List Char) :
    tokensFrom length (fuel + 1) ((holeFor name).toList ++ ' ' :: cs) =
      (tokensFrom length fuel (' ' :: cs)).map (.operand (holeFor name) false :: ·) := by
  have opened : (holeFor name).toList ++ ' ' :: cs =
      '{' :: '{' :: (name.toList ++ '}' :: '}' :: ' ' :: cs) := by simp [holeFor]
  have unbraced : '}' ∉ name.toList := h.not_mem (by decide)
  have taken := bareOperand_hole unbraced
    ('{' :: (name.toList ++ '}' :: '}' :: ' ' :: cs)).length (' ' :: cs)
  have stops : bareOperand ('{' :: (name.toList ++ '}' :: '}' :: ' ' :: cs)).length (' ' :: cs) =
      ([], ' ' :: cs) := rfl
  rw [stops] at taken
  have operand : ofWord (holeFor name) = .operand (holeFor name) false :=
    ofWord_operand (c := '{') (by decide) (by decide) (by decide) _
  rw [opened, tokensFrom_bare rfl rfl (by decide) taken]
  show (tokensFrom length fuel (' ' :: cs)).map (ofWord (holeFor name) :: ·) = _
  rw [operand]

/-- A numeral at the end is an operand. -/
theorem tokensFrom_spells {cs : List Char} {n : Nat} (h : Spells cs n) (length fuel : Nat) :
    tokensFrom length (fuel + 1) cs = .ok [.operand (String.ofList cs) false] := by
  have digits := h.isDigit
  obtain ⟨c, rest, rfl, digit⟩ := h.exists_cons
  have taken := bareOperand_digits digits (Nat.le_refl _)
  have ne {d : Char} := digit.ne (d := d)
  have plain : c ∉ ['=', '"', '\''] := by
    simp only [List.mem_cons, List.not_mem_nil, or_false, not_or]
    exact ⟨ne (by decide), ne (by decide), ne (by decide)⟩
  have other : c ∉ ['a', 'o', 'n', 'c'] := by
    simp only [List.mem_cons, List.not_mem_nil, or_false, not_or]
    exact ⟨ne (by decide), ne (by decide), ne (by decide), ne (by decide)⟩
  rw [tokensFrom_bare digit.isBlank (operator?_digit digit rest) plain taken,
    ofWord_operand (lowerChar_digit digit) (ne (by decide)) other]
  cases fuel <;> rfl

/-- A variable is compared with a numeral. -/
theorem tokenize_comparison {name : String} (h : IsName name) (k : Nat) :
    tokenize (holeFor name ++ " < " ++ toString k) =
      .ok [.operand (holeFor name) false, .op .lt, .operand (toString k) false] := by
  have chars : (holeFor name ++ " < " ++ toString k).toList =
      (holeFor name).toList ++ ' ' :: '<' :: ' ' :: (toString k).toList := by simp
  have length : ((holeFor name).toList ++ ' ' :: '<' :: ' ' :: (toString k).toList).length =
      name.toList.length + (toString k).toList.length + 2 + 3 + 1 + 1 := by
    simp [holeFor]
    omega
  have compared (length fuel : Nat) : tokensFrom length (fuel + 3)
      (' ' :: '<' :: ' ' :: (toString k).toList) =
        (tokensFrom length fuel (toString k).toList).map (.op .lt :: ·) := rfl
  rw [tokenize, chars, length, tokensFrom_holeFor h, Nat.add_right_comm _ 3 1, compared,
    tokensFrom_spells (spells_repr k), String.ofList_toList]
  rfl

/-! ### Comparisons -/

theorem compareTexts_less {m k : Nat} (hm : m ≤ Binary64.wholeLimit)
    (hk : k ≤ Binary64.wholeLimit) :
    compareTexts (toString m) .lt (toString k) = .ok (decide (m < k)) := by
  have shown (n : Nat) : toString (n : Int) = toString n := rfl
  have order := order?_toString (j := m) (k := k) hm hk
  rw [shown, shown] at order
  have less : (some (compare (m : Int) k) == some Ordering.lt) = decide (m < k) := by
    rw [Bool.eq_iff_iff, beq_iff_eq, Option.some_inj, compare_lt_iff_lt, decide_eq_true_iff,
      Int.ofNat_lt]
  rw [compareTexts, order, less]

/-- A condition that is one comparison has the value of the comparison. -/
theorem evaluate_compared {s left right : String} {quoted quoted' : Bool} {op : Comparison}
    (cut : tokenize s = .ok [.operand left quoted, .op op, .operand right quoted'])
    (scope : Scope) : evaluate s scope = (Atom.compared left op right).value scope := by
  have derived := Derives.condition
    (.conjunction (.primary (.compared left quoted op right quoted')) .noConjunct) .noAlternative
  rw [List.append_nil, List.append_nil] at derived
  rw [evaluate_of_tokens (Reads.not_blank ⟨_, cut, derived⟩) cut, tokensValue_of_derives derived]
  rfl

/-- Whether a variable is less than a numeral is decided as for the numbers. -/
theorem evaluate_less {name : String} (h : IsName name) {m k : Nat}
    (hm : m ≤ Binary64.wholeLimit) (hk : k ≤ Binary64.wholeLimit) {scope : Scope}
    (bound : scope.get? name = some (.int m)) :
    evaluate (holeFor name ++ " < " ++ toString k) scope = .ok (decide (m < k)) := by
  have nothing : '{' ∉ "".toList := List.not_mem_nil
  have left := resolve_front h (lookup_name h bound) (Literal.stringify_nat hm) nothing
  have right := resolve_plain ((spells_repr k).not_mem (c := '{') (by decide)) scope
  rw [String.append_empty, String.append_empty] at left
  rw [evaluate_compared (tokenize_comparison h k)]
  simp only [Atom.value, left, right, compareTexts_less hm hk, bind, Except.bind]

end Runbook.Condition
