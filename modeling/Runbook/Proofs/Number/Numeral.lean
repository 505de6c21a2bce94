import Runbook.Number.Numeral
import Runbook.Number.Whole
import Runbook.Proofs.Number.Whole
import Runbook.Proofs.Text.Cutting

/-! Numerals of whole numbers.

The digits that a whole number is written with are read as that number again, in front of anything
that is no digit (`takeDigits_spelled`), and as a plain numeral where nothing else is there. -/
namespace Runbook.Number

open Text

/-! ### Digits -/

/-- One of the characters from `0` to `9`. -/
def IsDigit (c : Char) : Prop := 48 ≤ c.toNat ∧ c.toNat ≤ 57

instance (c : Char) : Decidable (IsDigit c) := inferInstanceAs (Decidable (_ ∧ _))

theorem isDigit_digitChar {d : Nat} (h : d < 10) : IsDigit d.digitChar := by
  rw [IsDigit, Nat.toNat_digitChar_of_lt_ten h]
  omega

namespace IsDigit

variable {c d : Char}

theorem ne (h : IsDigit c) (other : ¬ IsDigit d) : c ≠ d := fun same => other (same ▸ h)

theorem isBlank (h : IsDigit c) : isBlank c = false := by
  obtain ⟨least, greatest⟩ := h
  simp only [Text.isBlank, Bool.or_eq_false_iff, Bool.and_eq_false_imp, decide_eq_true_eq,
    decide_eq_false_iff_not, beq_eq_false_iff_ne]
  omega

theorem takeSign (h : IsDigit c) (cs : List Char) : takeSign (c :: cs) = (false, c :: cs) := by
  unfold Number.takeSign
  split
  · rename_i minus
    cases minus
    exact absurd h (by decide)
  · rename_i plus
    cases plus
    exact absurd h (by decide)
  · rfl

end IsDigit

/-! ### Written digits -/

/-- The text is the digits of a number. -/
def Spells (cs : List Char) (n : Nat) : Prop :=
  ∃ ds, ds ≠ [] ∧ (∀ d ∈ ds, d < 10) ∧ cs = ds.map Nat.digitChar ∧ ofDigits ds = n

theorem ofDigits_concat (ds : List Nat) (d : Nat) :
    ofDigits (ds ++ [d]) = ofDigits ds * 10 + d := by
  rw [ofDigits, List.foldl_append]
  rfl

/-- A whole number is written with its digits. -/
theorem spells_repr (n : Nat) : Spells (toString n).toList n := by
  rw [Nat.toString_eq_repr, Nat.toList_repr]
  induction n using Nat.strongRecOn with
  | ind n ih =>
    rw [Nat.toDigits_eq_if (by decide)]
    split
    · rename_i small
      exact ⟨[n], List.cons_ne_nil _ _, List.forall_mem_singleton.mpr small, rfl, Nat.zero_add n⟩
    · rename_i large
      obtain ⟨ds, -, digits, chars, value⟩ := ih (n / 10) (by omega)
      refine ⟨ds ++ [n % 10], by simp, ?_, by simp [chars], ?_⟩
      · exact List.forall_mem_append.mpr
          ⟨digits, List.forall_mem_singleton.mpr (Nat.mod_lt n (by decide))⟩
      · rw [ofDigits_concat, value, Nat.div_add_mod']

namespace Spells

variable {cs : List Char} {n : Nat}

theorem isDigit (h : Spells cs n) : ∀ c ∈ cs, IsDigit c := by
  obtain ⟨ds, -, digits, rfl, -⟩ := h
  exact List.forall_mem_map.mpr fun d there => isDigit_digitChar (digits d there)

theorem not_mem (h : Spells cs n) {c : Char} (other : ¬ IsDigit c) : c ∉ cs :=
  fun there => other (h.isDigit c there)

theorem exists_cons (h : Spells cs n) : ∃ c rest, cs = c :: rest ∧ IsDigit c := by
  have digits := h.isDigit
  obtain ⟨ds, some_digit, -, rfl, -⟩ := h
  obtain ⟨d, rest, rfl⟩ := List.exists_cons_of_ne_nil some_digit
  exact ⟨_, _, rfl, digits _ (List.mem_cons_self ..)⟩

theorem ne_nil (h : Spells cs n) : cs ≠ [] := by
  obtain ⟨c, rest, rfl, -⟩ := h.exists_cons
  exact List.cons_ne_nil c rest

end Spells

/-! ### Read digits -/

theorem decimal?_digitChar {d : Nat} (h : d < 10) : decimal? d.digitChar = some d := by
  have code := Nat.toNat_digitChar_of_lt_ten h
  have ascii : 48 + d < 128 := by omega
  have digit : (decide (48 ≤ 48 + d) && decide (48 + d ≤ 57)) = true := by simp; omega
  simp only [decimal?, code, ascii, digit, if_true, Nat.add_sub_cancel_left]

/-- Each digit stands for one number. -/
theorem length_filterMap_decimal? {ds : List Char} (digits : ∀ d ∈ ds, isDecimal d = true) :
    (ds.filterMap decimal?).length = ds.length := by
  rw [List.length_filterMap_eq_countP]
  exact List.countP_eq_length.mpr digits

/-- The digits at the front of a text are its longest run of digits. -/
theorem takeDigits_eq (cs : List Char) :
    takeDigits cs = ((cs.takeWhile isDecimal).filterMap decimal?, cs.dropWhile isDecimal) := by
  induction cs with
  | nil => rfl
  | cons c cs ih =>
    rw [takeDigits]
    cases value : decimal? c with
    | none => simp [isDecimal, value]
    | some d => simp [isDecimal, value, ih]

theorem takeDigits_of_isDecimal {cs : List Char} (h : ∀ c ∈ cs, isDecimal c = true) :
    takeDigits cs = (cs.filterMap decimal?, []) := by
  rw [takeDigits_eq, List.takeWhile_eq_self_iff.mpr h, List.dropWhile_eq_nil_iff.mpr h]

/-- Digits are read up to what is no digit. -/
theorem takeDigits_append {ds rest : List Char} (digits : ∀ d ∈ ds, isDecimal d = true)
    (ends : ∀ c ∈ rest.head?, isDecimal c = false) :
    takeDigits (ds ++ rest) = (ds.filterMap decimal?, rest) := by
  have taken : rest.takeWhile isDecimal = [] ∧ rest.dropWhile isDecimal = rest := by
    cases rest with
    | nil => exact ⟨rfl, rfl⟩
    | cons c rest => simp [ends c rfl]
  rw [takeDigits_eq, List.takeWhile_append_of_pos digits, List.dropWhile_append_of_pos digits,
    taken.1, taken.2, List.append_nil]

/-- What is taken are digits, in front of the rest. -/
theorem exists_taken {cs rest : List Char} {ds : List Nat} (h : takeDigits cs = (ds, rest)) :
    ∃ taken, (∀ c ∈ taken, isDecimal c = true) ∧ taken.filterMap decimal? = ds ∧
      cs = taken ++ rest := by
  obtain ⟨rfl, rfl⟩ := Prod.mk.inj ((takeDigits_eq cs).symm.trans h)
  exact ⟨cs.takeWhile isDecimal, List.all_eq_true.mp List.all_takeWhile, rfl,
    List.takeWhile_append_dropWhile.symm⟩

/-- The digits that a number is written with stand for its digits. -/
theorem filterMap_digitChar {ds : List Nat} (digits : ∀ d ∈ ds, d < 10) :
    (∀ c ∈ ds.map Nat.digitChar, isDecimal c = true) ∧
      (ds.map Nat.digitChar).filterMap decimal? = ds := by
  induction ds with
  | nil => exact ⟨nofun, rfl⟩
  | cons d ds ih =>
    obtain ⟨first, others⟩ := List.forall_mem_cons.mp digits
    obtain ⟨decimal, values⟩ := ih others
    have value := decimal?_digitChar first
    exact ⟨List.forall_mem_cons.mpr ⟨by rw [isDecimal, value]; rfl, decimal⟩, by simp [value, values]⟩

/-! ### Blanks -/

/-- A digit is no blank. -/
theorem isBlank_of_isDecimal {c : Char} (digit : isDecimal c = true) : isBlank c = false :=
  Bool.eq_false_iff.mpr fun blank => Bool.false_ne_true <|
    (forall_isBlank (P := fun c => isDecimal c = false) (by decide +kernel) blank).symm.trans digit

theorem takeSign_cases (cs : List Char) :
    cs = (takeSign cs).2 ∨ ∃ c, isBlank c = false ∧ cs = c :: (takeSign cs).2 := by
  unfold takeSign
  split
  · exact .inr ⟨'-', rfl, rfl⟩
  · exact .inr ⟨'+', rfl, rfl⟩
  · exact .inl rfl

/-- A sign is no blank. -/
theorem solid_of_takeSign {cs : List Char} (h : ∀ c ∈ (takeSign cs).2, isBlank c = false) :
    ∀ c ∈ cs, isBlank c = false := by
  rcases takeSign_cases cs with same | ⟨d, solid, same⟩ <;> rw [same]
  · exact h
  · exact List.forall_mem_cons.mpr ⟨solid, h⟩

/-- Digits are no blanks. -/
theorem solid_of_takeDigits {cs : List Char} (h : ∀ c ∈ (takeDigits cs).2, isBlank c = false) :
    ∀ c ∈ cs, isBlank c = false := by
  obtain ⟨taken, decimal, -, same⟩ := exists_taken (rfl : takeDigits cs = (_, (takeDigits cs).2))
  rw [same]
  exact List.forall_mem_append.mpr ⟨fun c there => isBlank_of_isDecimal (decimal c there), h⟩

theorem solid_of_endingPower? {cs : List Char} {e : Int} (h : endingPower? cs = some e) :
    ∀ c ∈ cs, isBlank c = false := by
  cases cs with
  | nil => exact nofun
  | cons c cs =>
    rw [endingPower?] at h
    split at h
    · rename_i mark
      refine List.forall_mem_cons.mpr ⟨?_, solid_of_takeSign (solid_of_takeDigits ?_)⟩
      · rw [Bool.or_eq_true, decide_eq_true_eq, decide_eq_true_eq] at mark
        rcases mark with rfl | rfl <;> rfl
      · dsimp only at h
        generalize takeDigits (takeSign cs).2 = taken at h ⊢
        obtain ⟨ds, rest⟩ := taken
        cases rest with
        | nil => exact nofun
        | cons d rest => cases ds <;> cases h
    · cases h

/-- No blank stands in a plain numeral. -/
theorem solid_of_ofChars? {cs : List Char} {n : Numeral} (h : Numeral.ofChars? cs = some n) :
    ∀ c ∈ cs, isBlank c = false := by
  refine solid_of_takeSign (solid_of_takeDigits ?_)
  unfold Numeral.ofChars? at h
  dsimp only at h
  split at h
  · rename_i behind point
    split at h
    · cases h
    · obtain ⟨e, power, -⟩ := Option.map_eq_some_iff.mp h
      rw [point]
      exact List.forall_mem_cons.mpr ⟨rfl, solid_of_takeDigits (solid_of_endingPower? power)⟩
  · split at h
    · cases h
    · obtain ⟨e, power, -⟩ := Option.map_eq_some_iff.mp h
      exact solid_of_endingPower? power

namespace Spells

variable {cs : List Char} {n : Nat}

theorem solid (h : Spells cs n) : ∀ c ∈ cs, isBlank c = false :=
  fun c there => (h.isDigit c there).isBlank

/-- The digits alone are a plain numeral. -/
theorem plain? (h : Spells cs n) : plain? cs = some (Binary64.ofDecimal false n 0) := by
  have trimmed : trim cs = cs := trim_of_solid h.solid
  obtain ⟨c, rest, first, digit⟩ := h.exists_cons
  have unsigned : takeSign cs = (false, cs) := first ▸ digit.takeSign rest
  obtain ⟨ds, some_digit, digits, chars, rfl⟩ := h
  have taken : takeDigits cs = (ds, []) := by
    obtain ⟨decimal, values⟩ := filterMap_digitChar digits
    rw [← chars] at decimal values
    rw [takeDigits_of_isDecimal decimal, values]
  rw [Number.plain?, trimmed, Numeral.ofChars?, unsigned]
  simp only [taken, some_digit, decide_false, Bool.false_and, Bool.false_eq_true, if_false,
    endingPower?, Option.map_some, List.append_nil, List.length_nil]
  rfl

end Spells
end Runbook.Number

/-! ## Digits behind minus signs

What looks like a whole number need not be one: there may be more than one sign, a digit that stands
for no place in a numeral, or too many of them. `Signed.whole_eq` says which of these texts are
whole numbers and what they count, and `Signed.whole_error` that the others are refused. -/
namespace Runbook.Number

open Text

/-! ### Reading -/

/-- A digit is no blank. -/
theorem isDigit_of_isBlank {c : Char} (h : isBlank c = true) : isDigit c = false :=
  forall_isBlank (P := fun c => isDigit c = false) (by decide +kernel) h

theorem trimNumeral_of_solid {cs : List Char} (h : ∀ c ∈ cs, isBlank c = false) :
    trimNumeral cs = cs := by
  have none_in {ds : List Char} (solid : ∀ c ∈ ds, isBlank c = false) :
      ds.dropWhile isNumeralBlank = ds := by
    cases ds with
    | nil => rfl
    | cons d ds =>
      exact List.dropWhile_cons_of_neg (by simp [isNumeralBlank, solid d (List.mem_cons_self ..)])
  have back : ∀ c ∈ cs.reverse, isBlank c = false := fun c there => h c (List.mem_reverse.mp there)
  rw [trimNumeral, none_in h, none_in back, List.reverse_reverse]

theorem dropUnderscores?_of_not_mem {cs : List Char} (h : '_' ∉ cs) (afterDigit : Bool) :
    dropUnderscores? afterDigit cs = some cs := by
  induction cs generalizing afterDigit with
  | nil => rfl
  | cons c cs ih =>
    obtain ⟨here, behind⟩ := List.ne_and_not_mem_of_not_mem_cons h
    unfold dropUnderscores?
    split
    · contradiction
    · rename_i same
      exact absurd (List.cons.inj same).1.symm here
    · rename_i same
      cases same
      rw [ih behind, Option.map_some]

/-- Something is left of digits that are not all decimal. -/
theorem takeDigits_ne_nil {cs : List Char} (h : ∃ c ∈ cs, isDecimal c = false) :
    (takeDigits cs).2 ≠ [] := by
  obtain ⟨c, there, other⟩ := h
  rw [takeDigits_eq]
  intro all
  exact Bool.false_ne_true (other.symm.trans (List.dropWhile_eq_nil_iff.mp all c there))

/-! ### Signs and digits -/

/-- Digits of any kind behind minus signs. -/
structure Signed where
  signs : Nat
  digits : List Char
  some_digit : digits ≠ []
  isDigit : ∀ d ∈ digits, isDigit d = true

namespace Signed

def text (s : Signed) : List Char := List.replicate s.signs '-' ++ s.digits

/-- One sign at most, and decimal digits that are not too many. -/
def IsNumeral (s : Signed) : Prop :=
  s.signs ≤ 1 ∧ (∀ d ∈ s.digits, isDecimal d = true) ∧ s.digits.length ≤ digitLimit

/-- What a numeral counts. -/
def value (s : Signed) : Int :=
  let n : Int := ofDigits (s.digits.filterMap decimal?)
  if s.signs = 0 then n else -n

theorem isDigit_ne {s : Signed} {c : Char} (other : Text.isDigit c = false) : c ∉ s.digits :=
  fun there => Bool.false_ne_true (other.symm.trans (s.isDigit c there))

theorem mem_text {s : Signed} {c : Char} (h : c ∈ s.text) : c = '-' ∨ c ∈ s.digits :=
  (List.mem_append.mp h).imp_left List.eq_of_mem_replicate

theorem solid (s : Signed) : ∀ c ∈ s.text, isBlank c = false := by
  intro c there
  rcases mem_text there with rfl | digit
  · rfl
  · exact Bool.eq_false_iff.mpr fun blank => s.isDigit_ne (isDigit_of_isBlank blank) digit

theorem underscore_not_mem (s : Signed) : '_' ∉ s.text := fun there =>
  (mem_text there).elim (by decide) (s.isDigit_ne (by decide))

/-- Only a sign and decimal digits are read. -/
theorem int?_text (s : Signed) :
    int? s.text = (match takeDigits (takeSign s.text).2 with
      | ([], _) => none
      | (ds, []) => some (if (takeSign s.text).1 then -(ofDigits ds : Int) else ofDigits ds)
      | _ => none) := by
  rw [int?, trimNumeral_of_solid s.solid, dropUnderscores?_of_not_mem s.underscore_not_mem]
  rfl

theorem takeSign_text {s : Signed} (one : s.signs ≤ 1) :
    takeSign s.text = (decide (s.signs = 1), s.digits) := by
  obtain ⟨signs, digits, some_digit, isDigit⟩ := s
  obtain rfl | rfl : signs = 0 ∨ signs = 1 := by simp only at one; omega
  · obtain ⟨d, ds, rfl⟩ := List.exists_cons_of_ne_nil some_digit
    have digit := isDigit d (List.mem_cons_self ..)
    show takeSign (d :: ds) = (false, d :: ds)
    unfold takeSign
    split
    · rename_i same
      cases same
      exact absurd digit (by decide)
    · rename_i same
      cases same
      exact absurd digit (by decide)
    · rfl
  · rfl

/-- A numeral is the number that it counts. -/
theorem whole_eq {s : Signed} (h : s.IsNumeral) : whole s.text = .ok s.value := by
  obtain ⟨one, decimal, short⟩ := h
  have some_value : s.digits.filterMap decimal? ≠ [] := by
    obtain ⟨d, ds, first⟩ := List.exists_cons_of_ne_nil s.some_digit
    obtain ⟨n, value⟩ := Option.isSome_iff_exists.mp (decimal d (by simp [first]))
    simp [first, value]
  have read : int? s.text = some s.value := by
    rw [int?_text, takeSign_text one, takeDigits_of_isDecimal decimal]
    obtain ⟨n, ns, values⟩ := List.exists_cons_of_ne_nil some_value
    have sign : (s.signs = 1) = ¬ s.signs = 0 := by
      apply propext
      omega
    simp only [values, value, decide_eq_true_eq, sign, ite_not]
  have count : (s.text.filter isDecimal).length = s.digits.length := by
    have signs : (List.replicate s.signs '-').filter isDecimal = [] :=
      List.filter_eq_nil_iff.mpr fun c there => by
        rw [List.eq_of_mem_replicate there]
        decide
    rw [text, List.filter_append, signs, List.nil_append, List.filter_eq_self.mpr decimal]
  rw [whole, read]
  simp only [count, Nat.not_lt.mpr short, if_false]

/-- What is no numeral is refused. -/
theorem whole_error {s : Signed} (h : ¬ s.IsNumeral) : ∃ f, whole s.text = .error f := by
  cases read : int? s.text with
  | none => exact ⟨_, by rw [whole, read]⟩
  | some n =>
    have one : s.signs ≤ 1 := by
      by_contra more
      obtain ⟨signs, several⟩ : ∃ k, s.signs = k + 2 := ⟨s.signs - 2, by omega⟩
      rw [int?_text, text, several] at read
      cases read
    have decimal : ∀ d ∈ s.digits, isDecimal d = true := by
      by_contra other
      simp only [not_forall, Bool.not_eq_true] at other
      obtain ⟨d, there, other⟩ := other
      have left := takeDigits_ne_nil ⟨d, there, other⟩
      rw [int?_text, takeSign_text one] at read
      split at read
      · cases read
      · rename_i all
        exact left (congrArg Prod.snd all)
      · cases read
    have long : ¬ s.digits.length ≤ digitLimit := fun short => h ⟨one, decimal, short⟩
    have many : digitLimit < (s.text.filter isDecimal).length := by
      rw [text, List.filter_append, List.length_append, List.filter_eq_self.mpr decimal]
      omega
    exact ⟨_, by rw [whole, read]; exact if_pos many⟩

end Signed
end Runbook.Number
