import Runbook.Proofs.Number.Numeral

/-! Plain numerals as they are written.

`PlainNumeral` is one taken apart: a sign or none, digits of any script with a point at most,
and a power of ten if there is one. Reading finds exactly what is written so, and makes of it the
number that the parts spell (`ofChars?_eq_some`). -/
namespace Runbook.Number

open Text

/-! ### Signs -/

/-- A sign as it is written, if there is one. -/
inductive Sign
  | missing
  | plus
  | minus
deriving DecidableEq

namespace Sign

def chars : Sign → List Char
  | missing => []
  | plus => ['+']
  | minus => ['-']

def isMinus : Sign → Bool
  | minus => true
  | _ => false

theorem takeSign_chars (sign : Sign) {cs : List Char} (unsigned : ∀ c ∈ cs.head?, c ≠ '-' ∧ c ≠ '+') :
    takeSign (sign.chars ++ cs) = (sign.isMinus, cs) := by
  cases sign with
  | plus | minus => rfl
  | missing =>
    rw [chars, List.nil_append]
    unfold takeSign
    split
    · exact absurd rfl (unsigned _ rfl).1
    · exact absurd rfl (unsigned _ rfl).2
    · rfl

theorem exists_sign (cs : List Char) :
    ∃ sign : Sign, takeSign cs = (sign.isMinus, (takeSign cs).2) ∧
      cs = sign.chars ++ (takeSign cs).2 := by
  unfold takeSign
  split
  · exact ⟨minus, rfl, rfl⟩
  · exact ⟨plus, rfl, rfl⟩
  · exact ⟨missing, rfl, rfl⟩

end Sign

/-! ### Digits -/

/-- No sign begins with a digit. -/
theorem unsigned_of_isDecimal {c : Char} (digit : isDecimal c = true) : c ≠ '-' ∧ c ≠ '+' := by
  constructor <;> rintro rfl <;> cases digit

theorem filterMap_decimal?_eq_nil {ds : List Char} (digits : ∀ c ∈ ds, isDecimal c = true) :
    ds.filterMap decimal? = [] ↔ ds = [] := by
  rw [← List.length_eq_zero_iff, length_filterMap_decimal? digits, List.length_eq_zero_iff]

/-! ### Powers of ten -/

/-- A power of ten as it is written: its mark, and a whole number behind it. -/
structure Power where
  mark : Char
  sign : Sign
  digits : List Char
  is_mark : mark = 'e' ∨ mark = 'E'
  some_digit : digits ≠ []
  decimal : ∀ c ∈ digits, isDecimal c = true

namespace Power

def text (p : Power) : List Char := p.mark :: (p.sign.chars ++ p.digits)

/-- What it counts. -/
def value (p : Power) : Int :=
  let n : Int := ofDigits (p.digits.filterMap decimal?)
  if p.sign.isMinus then -n else n

theorem endingPower?_text (p : Power) : endingPower? p.text = some p.value := by
  obtain ⟨c, cs, first⟩ := List.exists_cons_of_ne_nil p.some_digit
  have unsigned : ∀ d ∈ p.digits.head?, d ≠ '-' ∧ d ≠ '+' := fun d there =>
    unsigned_of_isDecimal (p.decimal d (List.mem_of_mem_head? there))
  have marked : (decide (p.mark = 'e') || decide (p.mark = 'E')) = true := by
    rw [Bool.or_eq_true, decide_eq_true_eq, decide_eq_true_eq]
    exact p.is_mark
  obtain ⟨n, ns, values⟩ :=
    List.exists_cons_of_ne_nil (mt (filterMap_decimal?_eq_nil p.decimal).mp p.some_digit)
  rw [text, endingPower?, if_pos marked, p.sign.takeSign_chars unsigned]
  dsimp only
  rw [takeDigits_of_isDecimal p.decimal, values, value, values]

/-- A power that ends a text is none or is written. -/
theorem exists_power {cs : List Char} {e : Int} (h : endingPower? cs = some e) :
    ∃ p : Option Power, cs = p.elim [] text ∧ p.elim 0 value = e := by
  cases cs with
  | nil =>
    cases h
    exact ⟨none, rfl, rfl⟩
  | cons c cs =>
    rw [endingPower?] at h
    split at h
    · rename_i mark
      rw [Bool.or_eq_true, decide_eq_true_eq, decide_eq_true_eq] at mark
      obtain ⟨sign, signed, front⟩ := Sign.exists_sign cs
      rw [signed] at h
      dsimp only at h
      rcases taken : takeDigits (takeSign cs).2 with ⟨ds, rest⟩
      obtain ⟨digits, decimal, values, whole⟩ := exists_taken taken
      rw [taken] at h
      rcases ds with _ | ⟨d, ds⟩
      · cases h
      rcases rest with _ | _
      · have some_digit : digits ≠ [] := by
          rintro rfl
          cases values
        refine ⟨some ⟨c, sign, digits, mark, some_digit, decimal⟩, ?_, ?_⟩
        · show c :: cs = c :: (sign.chars ++ digits)
          rw [front, whole, List.append_nil]
        · show value _ = e
          rw [value, values]
          exact Option.some.inj h
      · cases h
    · cases h

end Power

/-! ### Numerals -/

/-- A plain numeral as it is written: digits in front of a point, behind it, or both. -/
structure PlainNumeral where
  sign : Sign
  whole : List Char
  /-- What stands behind the point, if there is one. -/
  frac : Option (List Char)
  power : Option Power
  some_digit : whole ++ frac.getD [] ≠ []
  decimal : ∀ c ∈ whole ++ frac.getD [], isDecimal c = true

/-- The digits behind a point, if there is one, and the rest. -/
def takeFraction : List Char → List Nat × List Char
  | '.' :: cs => takeDigits cs
  | cs => ([], cs)

theorem ofChars?_eq (cs : List Char) : Numeral.ofChars? cs =
    (let (negative, cs) := takeSign cs
    let (whole, rest) := takeDigits cs
    let (frac, rest) := takeFraction rest
    if whole = [] && frac = [] then none
    else (endingPower? rest).map fun e => ⟨negative, whole ++ frac, e - frac.length⟩) := rfl

namespace PlainNumeral

variable (w : PlainNumeral)

def fracText : List Char := w.frac.elim [] ('.' :: ·)

def powerText : List Char := w.power.elim [] Power.text

def text : List Char := w.sign.chars ++ (w.whole ++ (w.fracText ++ w.powerText))

/-- The number that is written. -/
def numeral : Numeral where
  negative := w.sign.isMinus
  digits := (w.whole ++ w.frac.getD []).filterMap decimal?
  exponent := w.power.elim 0 Power.value - (w.frac.getD []).length

/-- The nearest value of the floating format. -/
def value : Binary64 := w.numeral.toBinary64

theorem value_eq : w.value = .ofDecimal w.sign.isMinus
    (ofDigits ((w.whole ++ w.frac.getD []).filterMap decimal?))
    (w.power.elim 0 Power.value - (w.frac.getD []).length) := rfl

/-- A power of ten begins with its mark. -/
theorem head?_powerText : ∀ c ∈ w.powerText.head?, c = 'e' ∨ c = 'E' := by
  intro c there
  unfold powerText at there
  cases power : w.power with
  | none =>
    rw [power] at there
    cases there
  | some p =>
    rw [power] at there
    cases there
    exact p.is_mark

/-- Behind the whole digits there is a point, a mark or nothing. -/
theorem head?_behind : ∀ c ∈ (w.fracText ++ w.powerText).head?, c = '.' ∨ c = 'e' ∨ c = 'E' := by
  intro c there
  unfold fracText at there
  cases frac : w.frac with
  | none =>
    rw [frac] at there
    exact .inr (w.head?_powerText c there)
  | some ds =>
    rw [frac] at there
    cases there
    exact .inl rfl

theorem endingPower?_powerText : endingPower? w.powerText = some (w.power.elim 0 Power.value) := by
  unfold powerText
  cases w.power with
  | none => rfl
  | some p => exact p.endingPower?_text

theorem takeFraction_text : takeFraction (w.fracText ++ w.powerText) =
    ((w.frac.getD []).filterMap decimal?, w.powerText) := by
  have ends : ∀ c ∈ w.powerText.head?, isDecimal c = false ∧ c ≠ '.' := by
    intro c there
    rcases w.head?_powerText c there with rfl | rfl <;> decide
  have digits := (List.forall_mem_append.mp w.decimal).2
  unfold fracText
  cases frac : w.frac with
  | none =>
    show takeFraction w.powerText = ([], w.powerText)
    unfold takeFraction
    split
    · rename_i point
      exact absurd rfl (ends '.' (by rw [point]; rfl)).2
    · rfl
  | some ds =>
    rw [frac] at digits
    exact takeDigits_append digits fun c there => (ends c there).1

theorem head?_unsigned :
    ∀ c ∈ (w.whole ++ (w.fracText ++ w.powerText)).head?, c ≠ '-' ∧ c ≠ '+' := by
  intro c there
  cases whole : w.whole with
  | nil =>
    rw [whole] at there
    rcases w.head?_behind c there with rfl | rfl | rfl <;> decide
  | cons d ds =>
    rw [whole] at there
    cases there
    exact unsigned_of_isDecimal (w.decimal _ (by rw [whole]; exact List.mem_cons_self ..))

/-- A plain numeral is read as the number that is written. -/
theorem ofChars?_text : Numeral.ofChars? w.text = some w.numeral := by
  obtain ⟨whole, frac⟩ := List.forall_mem_append.mp w.decimal
  have ends : ∀ c ∈ (w.fracText ++ w.powerText).head?, isDecimal c = false := by
    intro c there
    rcases w.head?_behind c there with rfl | rfl | rfl <;> rfl
  have some_value : ¬ (w.whole.filterMap decimal? = [] ∧
      (w.frac.getD []).filterMap decimal? = []) := by
    rw [filterMap_decimal?_eq_nil whole, filterMap_decimal?_eq_nil frac, ← List.append_eq_nil_iff]
    exact w.some_digit
  rw [ofChars?_eq, text, w.sign.takeSign_chars w.head?_unsigned]
  simp only [takeDigits_append whole ends, takeFraction_text, endingPower?_powerText,
    Bool.and_eq_true, decide_eq_true_eq, some_value, if_false, Option.map_some]
  rw [numeral, List.filterMap_append, length_filterMap_decimal? frac]

end PlainNumeral

theorem exists_fraction {cs rest : List Char} {ds : List Nat} (h : takeFraction cs = (ds, rest)) :
    ∃ frac : Option (List Char), (∀ c ∈ frac.getD [], isDecimal c = true) ∧
      (frac.getD []).filterMap decimal? = ds ∧ cs = frac.elim [] ('.' :: ·) ++ rest := by
  unfold takeFraction at h
  split at h
  · obtain ⟨taken, decimal, values, whole⟩ := exists_taken h
    exact ⟨some taken, decimal, values, congrArg ('.' :: ·) whole⟩
  · cases h
    exact ⟨none, nofun, rfl, rfl⟩

/-- What is read as a plain numeral is written as one. -/
theorem exists_plainNumeral {cs : List Char} {n : Numeral} (h : Numeral.ofChars? cs = some n) :
    ∃ w : PlainNumeral, w.text = cs ∧ w.numeral = n := by
  obtain ⟨sign, signed, front⟩ := Sign.exists_sign cs
  rcases digits : takeDigits (takeSign cs).2 with ⟨ds, rest⟩
  rcases fraction : takeFraction rest with ⟨es, behind⟩
  obtain ⟨whole, decimal, values, first⟩ := exists_taken digits
  obtain ⟨frac, decimal', values', second⟩ := exists_fraction fraction
  rw [ofChars?_eq, signed] at h
  simp only [digits, fraction] at h
  split at h
  · cases h
  · rename_i some_value
    obtain ⟨e, power, rfl⟩ := Option.map_eq_some_iff.mp h
    obtain ⟨p, last, rfl⟩ := Power.exists_power power
    have some_digit : whole ++ frac.getD [] ≠ [] := by
      intro none
      obtain ⟨rfl, noFrac⟩ := List.append_eq_nil_iff.mp none
      rw [noFrac] at values'
      subst values values'
      exact some_value rfl
    refine ⟨⟨sign, whole, frac, p, some_digit, List.forall_mem_append.mpr ⟨decimal, decimal'⟩⟩,
      ?_, ?_⟩
    · rw [front, first, second, last]
      rfl
    · rw [PlainNumeral.numeral, List.filterMap_append, values, values', ← values',
        length_filterMap_decimal? decimal']

/-- A text is read as a numeral exactly where it is written as that number. -/
theorem ofChars?_eq_some {cs : List Char} {n : Numeral} :
    Numeral.ofChars? cs = some n ↔ ∃ w : PlainNumeral, w.text = cs ∧ w.numeral = n := by
  constructor
  · exact exists_plainNumeral
  · rintro ⟨w, rfl, rfl⟩
    exact w.ofChars?_text

/-- A plain numeral with nothing around it has its value. -/
theorem PlainNumeral.plain?_text (w : PlainNumeral) : plain? w.text = some w.value := by
  rw [plain?, trim_of_solid (solid_of_ofChars? w.ofChars?_text), w.ofChars?_text]
  rfl

end Runbook.Number
