import Runbook.Expression
import Runbook.Proofs.Json.Numeral
import Runbook.Proofs.Number.Numeral

/-! Operations as they are written.

An operation is written as two numbers around an operator, with blanks between if there are any; one
of the numbers may be missing. `Calculation` is one taken apart. Reading finds exactly what is
written so (`ofChars?_text`, `exists_calculation`): a minus in front of the only number is the
operator and not a sign, and everywhere else it is the sign of the number behind it. -/
namespace Runbook.Expression

open Number Text
open Json (signText fractionText)

/-! ### Numbers -/

/-- A number as it is written: a minus sign or none, digits, and perhaps digits behind a point. -/
structure Operand where
  negative : Bool
  whole : List Char
  frac : List Char
  some_whole : whole ≠ []
  decimal : ∀ c ∈ whole ++ frac, isDecimal c = true

theorem ne_of_isDecimal {c d : Char} (digit : isDecimal c = true) (other : isDecimal d = false) :
    c ≠ d := by
  rintro rfl
  cases digit.symm.trans other

namespace Operand

def unsigned (o : Operand) : List Char := o.whole ++ fractionText o.frac

def text (o : Operand) : List Char := signText o.negative ++ o.unsigned

/-- The number that is written. -/
def numeral (o : Operand) : Numeral :=
  ⟨o.negative, (o.whole ++ o.frac).filterMap decimal?, -(o.frac.length : Int)⟩

/-- The number with a minus sign in front. -/
def negated (o : Operand) : Operand := { o with negative := true }

theorem decimal_whole (o : Operand) : ∀ c ∈ o.whole, isDecimal c = true :=
  (List.forall_mem_append.mp o.decimal).1

theorem exists_unsigned (o : Operand) : ∃ c cs, o.unsigned = c :: cs ∧ isDecimal c = true := by
  obtain ⟨c, cs, first⟩ := List.exists_cons_of_ne_nil o.some_whole
  exact ⟨c, cs ++ fractionText o.frac, by rw [unsigned, first]; rfl,
    o.decimal_whole c (by simp [first])⟩

/-- A number starts with a digit or a minus sign. -/
theorem exists_text (o : Operand) :
    ∃ c cs, o.text = c :: cs ∧ (isDecimal c = true ∨ c = '-' ∧ o.negative = true) := by
  obtain ⟨c, cs, first, digit⟩ := o.exists_unsigned
  unfold text
  cases o.negative with
  | true => exact ⟨'-', _, rfl, .inr ⟨rfl, rfl⟩⟩
  | false => exact ⟨c, cs, first, .inl digit⟩

/-- What stands in a number. -/
theorem forall_mem_text {P : Char → Prop} (o : Operand) (digits : ∀ c, isDecimal c = true → P c)
    (minus : P '-') (point : P '.') : ∀ c ∈ o.text, P c := by
  have all : ∀ c ∈ o.whole ++ o.frac, P c := fun c there => digits c (o.decimal c there)
  obtain ⟨whole, frac⟩ := List.forall_mem_append.mp all
  refine List.forall_mem_append.mpr ⟨?_, List.forall_mem_append.mpr ⟨whole, ?_⟩⟩
  · cases o.negative with
    | true => exact List.forall_mem_singleton.mpr minus
    | false => exact nofun
  · generalize o.frac = frac' at frac ⊢
    cases frac' with
    | nil => exact nofun
    | cons d ds => exact List.forall_mem_cons.mpr ⟨point, frac⟩

/-- A number has no blanks. -/
theorem solid (o : Operand) : ∀ c ∈ o.text, isBlank c = false :=
  o.forall_mem_text (fun _ => isBlank_of_isDecimal) rfl rfl

end Operand

/-- What stands behind a number and does not go on it. -/
def EndsOperand (rest : List Char) : Prop := ∀ c ∈ rest.head?, isDecimal c = false ∧ c ≠ '.'

/-- The parts of a number, behind its sign. -/
def afterSign (negative : Bool) (cs : List Char) : Option (Numeral × List Char) :=
  match takeDigits cs with
  | ([], _) => none
  | (whole, rest) =>
    match rest with
    | '.' :: behind =>
      match takeDigits behind with
      | ([], _) => some (⟨negative, whole, 0⟩, rest)
      | (frac, behind) => some (⟨negative, whole ++ frac, -(frac.length : Int)⟩, behind)
    | rest => some (⟨negative, whole, 0⟩, rest)

theorem number?_minus (cs : List Char) : number? ('-' :: cs) = afterSign true cs := rfl

theorem number?_unsigned {cs : List Char} (h : ∀ c ∈ cs.head?, c ≠ '-') :
    number? cs = afterSign false cs := by
  unfold number?
  split
  rename_i negative rest sign
  split at sign
  · exact absurd rfl (h _ rfl)
  · cases sign
    rfl

theorem afterSign_of_not_decimal (negative : Bool) {cs : List Char}
    (h : ∀ c ∈ cs.head?, isDecimal c = false) : afterSign negative cs = none := by
  have taken : takeDigits ([] ++ cs) = ([], cs) := takeDigits_append nofun h
  rw [List.nil_append] at taken
  rw [afterSign, taken]

theorem afterSign_unsigned (o : Operand) {rest : List Char} (ends : EndsOperand rest) :
    afterSign o.negative (o.unsigned ++ rest) = some (o.numeral, rest) := by
  obtain ⟨negative, whole, frac, some_whole, decimal⟩ := o
  obtain ⟨wholeDigits, fracDigits⟩ := List.forall_mem_append.mp decimal
  have some_value {ds : List Char} (some_ds : ds ≠ []) (digits : ∀ c ∈ ds, isDecimal c = true) :
      ∃ n ns, ds.filterMap decimal? = n :: ns := by
    refine List.exists_cons_of_ne_nil fun none => some_ds ?_
    rw [← List.length_eq_zero_iff, ← length_filterMap_decimal? digits, none, List.length_nil]
  obtain ⟨n, ns, values⟩ := some_value some_whole wholeDigits
  have stops : ∀ c ∈ rest.head?, isDecimal c = false := fun c there => (ends c there).1
  simp only [Operand.unsigned, Operand.numeral, List.append_assoc, List.filterMap_append]
  cases frac with
  | nil =>
    rw [fractionText, List.nil_append, afterSign, takeDigits_append wholeDigits stops, values]
    dsimp only
    split
    · exact absurd rfl (ends _ rfl).2
    · rw [List.filterMap_nil, List.append_nil, List.length_nil]
      rfl
  | cons d ds =>
    have behind : fractionText (d :: ds) ++ rest = '.' :: (d :: ds ++ rest) := rfl
    have point : ∀ c ∈ ('.' :: (d :: ds ++ rest)).head?, isDecimal c = false := by
      rintro c ⟨⟩
      rfl
    obtain ⟨m, ms, fractions⟩ := some_value (List.cons_ne_nil d ds) fracDigits
    rw [behind, afterSign, takeDigits_append wholeDigits point, values]
    dsimp only
    split
    · rename_i same
      obtain ⟨-, rfl⟩ := List.cons.inj same
      rw [takeDigits_append fracDigits stops, ← length_filterMap_decimal? fracDigits, fractions]
    · rename_i other
      exact absurd rfl (other _)

/-- A number is read up to what does not go on it. -/
theorem number?_text (o : Operand) {rest : List Char} (ends : EndsOperand rest) :
    number? (o.text ++ rest) = some (o.numeral, rest) := by
  have read := afterSign_unsigned o ends
  unfold Operand.text
  cases sign : o.negative with
  | true => rwa [sign] at read
  | false =>
    obtain ⟨c, cs, first, digit⟩ := o.exists_unsigned
    rw [sign] at read
    rw [signText, if_neg Bool.false_ne_true, List.nil_append, number?_unsigned, read]
    rw [first]
    rintro d ⟨⟩
    exact ne_of_isDecimal digit rfl

/-- What is read behind a sign is written there, in front of the rest. -/
theorem exists_afterSign {negative : Bool} {cs rest : List Char} {n : Numeral}
    (h : afterSign negative cs = some (n, rest)) :
    ∃ o : Operand, o.negative = negative ∧ o.numeral = n ∧ cs = o.unsigned ++ rest := by
  obtain ⟨⟨ds, behind⟩, taken⟩ : ∃ p, takeDigits cs = p := ⟨_, rfl⟩
  obtain ⟨whole, decimal, values, rfl⟩ := exists_taken taken
  rw [afterSign, taken] at h
  cases ds with
  | nil => cases h
  | cons d ds =>
  have some_whole : whole ≠ [] := by
    rintro rfl
    cases values
  -- The number without a fraction, whatever it is that stands behind it.
  have integral (same : (⟨negative, d :: ds, 0⟩, behind) = (n, rest)) :
      ∃ o : Operand, o.negative = negative ∧ o.numeral = n ∧ whole ++ behind = o.unsigned ++ rest := by
    cases same
    refine ⟨⟨negative, whole, [], some_whole, by simpa using decimal⟩, rfl, ?_, ?_⟩
    · simp [Operand.numeral, values]
    · simp [Operand.unsigned, fractionText]
  dsimp only at h
  split at h
  · rename_i more
    obtain ⟨⟨fs, last⟩, takenBehind⟩ : ∃ p, takeDigits more = p := ⟨_, rfl⟩
    obtain ⟨frac, decimalBehind, fractions, rfl⟩ := exists_taken takenBehind
    rw [takenBehind] at h
    cases fs with
    | nil => exact integral (Option.some.inj h)
    | cons f fs =>
      cases h
      have some_frac : frac ≠ [] := by
        rintro rfl
        cases fractions
      have length : frac.length = (f :: fs).length :=
        fractions ▸ (length_filterMap_decimal? decimalBehind).symm
      obtain ⟨c, cs, rfl⟩ := List.exists_cons_of_ne_nil some_frac
      refine ⟨⟨negative, whole, c :: cs, some_whole,
        List.forall_mem_append.mpr ⟨decimal, decimalBehind⟩⟩, rfl, ?_, ?_⟩
      · simp only [Operand.numeral, List.filterMap_append, values, fractions, length]
      · simp [Operand.unsigned, fractionText]
  · exact integral (Option.some.inj h)

/-- What is read as a number is written as one, in front of the rest. -/
theorem exists_operand {cs rest : List Char} {n : Numeral} (h : number? cs = some (n, rest)) :
    ∃ o : Operand, o.numeral = n ∧ cs = o.text ++ rest := by
  by_cases minus : ∃ more, cs = '-' :: more
  · obtain ⟨more, rfl⟩ := minus
    obtain ⟨o, sign, value, rfl⟩ := exists_afterSign ((number?_minus more).symm.trans h)
    exact ⟨o, value, by rw [Operand.text, sign]; rfl⟩
  · have unsigned : ∀ c ∈ cs.head?, c ≠ '-' := by
      rintro c first rfl
      obtain ⟨more, rfl⟩ := List.head?_eq_some_iff.mp first
      exact minus ⟨more, rfl⟩
    obtain ⟨o, sign, value, rfl⟩ := exists_afterSign ((number?_unsigned unsigned).symm.trans h)
    exact ⟨o, value, by rw [Operand.text, sign]; rfl⟩

/-! ### Operations -/

namespace Op

def char : Op → Char
  | .add => '+'
  | .sub => '-'
  | .mul => '*'
  | .div => '/'
  | .rem => '%'

theorem ofChar?_eq_some_iff {c : Char} {op : Op} : ofChar? c = some op ↔ c = op.char := by
  constructor
  · intro h
    unfold ofChar? at h
    split at h <;> cases h <;> rfl
  · rintro rfl
    cases op <;> rfl

theorem isDecimal_char (op : Op) : isDecimal op.char = false := by cases op <;> rfl

theorem isBlank_char (op : Op) : isBlank op.char = false := by cases op <;> rfl

theorem char_ne_point (op : Op) : op.char ≠ '.' := by cases op <;> decide

end Op

def operandText (o : Option Operand) : List Char := o.elim [] Operand.text

/-- An operator with blanks and numbers around it, of which there is at least one. -/
structure Calculation where
  left : Option Operand
  before : List Char
  op : Op
  after : List Char
  right : Option Operand
  blank_before : ∀ c ∈ before, isBlank c = true
  blank_after : ∀ c ∈ after, isBlank c = true
  some_operand : left.isSome ∨ right.isSome

namespace Calculation

/-- What stands behind the left number. -/
def ending (c : Calculation) : List Char :=
  c.before ++ c.op.char :: (c.after ++ operandText c.right)

def text (c : Calculation) : List Char := operandText c.left ++ c.ending

def operation (c : Calculation) : Operation :=
  ⟨c.left.map Operand.numeral, c.op, c.right.map Operand.numeral⟩

end Calculation

theorem trimStart_operandText {blanks : List Char} (h : ∀ c ∈ blanks, isBlank c = true)
    (o : Option Operand) : trimStart (blanks ++ operandText o) = operandText o := by
  rw [trimStart, List.dropWhile_append_of_pos h]
  cases o with
  | none => rfl
  | some o => exact trimStart_of_head fun c there => o.solid c (List.mem_of_mem_head? there)

namespace Calculation

theorem operatorEnd?_ending (c : Calculation) (left : Option Numeral) :
    operatorEnd? left c.ending = some ⟨left, c.op, c.right.map Operand.numeral⟩ := by
  have op : trimStart c.ending = c.op.char :: (c.after ++ operandText c.right) := by
    rw [ending, trimStart, List.dropWhile_append_of_pos c.blank_before]
    exact List.dropWhile_cons_of_neg (by simp [c.op.isBlank_char])
  have read : Op.ofChar? c.op.char = some c.op := Op.ofChar?_eq_some_iff.mpr rfl
  rw [operatorEnd?, op]
  dsimp only
  rw [read]
  dsimp only
  rw [trimStart_operandText c.blank_after]
  cases c.right with
  | none => rfl
  | some o =>
    obtain ⟨d, ds, first, -⟩ := o.exists_text
    have whole : number? (o.text ++ []) = some (o.numeral, []) := number?_text o (by simp [EndsOperand])
    rw [List.append_nil, first] at whole
    rw [operandText, Option.elim_some, first]
    dsimp only
    rw [whole]
    rfl

theorem ending_head (c : Calculation) :
    ∃ d ds, c.ending = d :: ds ∧ (c.before = [] ∧ d = c.op.char ∨ isBlank d = true) := by
  unfold ending
  cases before : c.before with
  | nil => exact ⟨_, _, rfl, .inl ⟨rfl, rfl⟩⟩
  | cons b bs => exact ⟨_, _, rfl, .inr (c.blank_before b (by simp [before]))⟩

/-- The operator and what follows it end the number in front of them. -/
theorem endsOperand (c : Calculation) : EndsOperand c.ending := by
  obtain ⟨d, ds, first, operator | blank⟩ := c.ending_head
  · rintro _ there
    rw [first, operator.2] at there
    cases there
    exact ⟨c.op.isDecimal_char, c.op.char_ne_point⟩
  · rintro _ there
    rw [first] at there
    cases there
    refine ⟨Bool.eq_false_iff.mpr fun digit => ?_, ?_⟩
    · exact Bool.false_ne_true ((isBlank_of_isDecimal digit).symm.trans blank)
    · rintro rfl
      cases blank

/-- A minus begins a number only where a number without a sign is right behind it. -/
theorem number?_minus_operand {after : List Char} (h : ∀ b ∈ after, isBlank b = true)
    (o : Operand) : number? ('-' :: (after ++ o.text)) = none ∨
      ∃ n, number? ('-' :: (after ++ o.text)) = some (n, []) := by
  rw [number?_minus]
  cases after with
  | nil =>
    rw [List.nil_append, Operand.text]
    cases o.negative with
    | false =>
      have whole : afterSign true (o.unsigned ++ []) = some (o.negated.numeral, []) :=
        afterSign_unsigned o.negated (by simp [EndsOperand])
      rw [List.append_nil] at whole
      exact .inr ⟨_, whole⟩
    | true =>
      refine .inl (afterSign_of_not_decimal true ?_)
      rintro _ ⟨⟩
      rfl
  | cons b bs =>
    refine .inl (afterSign_of_not_decimal true ?_)
    rintro _ ⟨⟩
    refine Bool.eq_false_iff.mpr fun digit => ?_
    have blank := h b (List.mem_cons_self ..)
    exact Bool.false_ne_true ((isBlank_of_isDecimal digit).symm.trans blank)

/-- Where no number is on the left, none that goes on is read there: a minus with a number right
behind it takes all of the text. -/
theorem number?_ending (c : Calculation) (some_right : c.right.isSome = true) :
    number? c.ending = none ∨ ∃ n, number? c.ending = some (n, []) := by
  have other {d : Char} {ds : List Char} (first : c.ending = d :: ds) (digit : isDecimal d = false)
      (minus : d ≠ '-') : number? c.ending = none := by
    rw [first, number?_unsigned, afterSign_of_not_decimal]
    · rintro _ ⟨⟩
      exact digit
    · rintro _ ⟨⟩
      exact minus
  obtain ⟨d, ds, first, ⟨none_before, operator⟩ | blank⟩ := c.ending_head
  · by_cases sub : c.op = .sub
    · obtain ⟨o, right⟩ := Option.isSome_iff_exists.mp some_right
      have minus : c.ending = '-' :: (c.after ++ o.text) := by
        rw [ending, none_before, sub, right]
        rfl
      rw [minus]
      exact number?_minus_operand c.blank_after o
    · refine .inl (other first (operator ▸ c.op.isDecimal_char) ?_)
      rw [operator]
      revert sub
      cases c.op <;> decide
  · have behind := c.endsOperand d (by simp [first])
    refine .inl (other first behind.1 ?_)
    rintro rfl
    cases blank

/-- A calculation is read as what it says. -/
theorem ofChars?_text (c : Calculation) : Operation.ofChars? c.text = some c.operation := by
  have ending := c.operatorEnd?_ending
  cases left : c.left with
  | some o =>
    have read := number?_text o c.endsOperand
    rw [text, left, operandText, Option.elim_some, Operation.ofChars?, read]
    simp only [ending, operation, left, Option.map_some]
  | none =>
    have some_right : c.right.isSome = true := by simpa [left] using c.some_operand
    have nothing : operandText none ++ c.ending = c.ending := rfl
    have found := ending none
    have right : (c.right.map Operand.numeral).isSome = true := by rwa [Option.isSome_map]
    have empty (n : Numeral) : operatorEnd? (some n) [] = none := rfl
    rw [text, left, nothing, Operation.ofChars?]
    rcases c.number?_ending some_right with unread | ⟨n, all⟩
    · simp only [unread, found, right, if_true, operation, left, Option.map_none]
    · simp only [all, empty, found, right, if_true, operation, left, Option.map_none]

/-- A calculation has no power of ten. -/
theorem e_not_mem_text (c : Calculation) : 'e' ∉ c.text := by
  have operand (o : Option Operand) : 'e' ∉ operandText o := by
    cases o with
    | none => exact nofun
    | some o =>
      have other : ∀ d ∈ o.text, d ≠ 'e' :=
        o.forall_mem_text (fun d digit => ne_of_isDecimal digit rfl) (by decide) (by decide)
      exact fun there => other 'e' there rfl
  have blanks {bs : List Char} (h : ∀ b ∈ bs, isBlank b = true) : 'e' ∉ bs := fun there =>
    Bool.false_ne_true (h 'e' there)
  have operator : 'e' ≠ c.op.char := by cases c.op <;> decide
  simp only [text, ending, List.mem_append, List.mem_cons, not_or]
  exact ⟨operand _, blanks c.blank_before, operator, blanks c.blank_after, operand _⟩

/-- A text says one thing at most. -/
theorem operation_eq {c d : Calculation} (same : c.text = d.text) : c.operation = d.operation :=
  Option.some.inj (c.ofChars?_text.symm.trans (same ▸ d.ofChars?_text))

/-- A calculation that no blank starts and no blank ends is trimmed already. -/
theorem trim_text (c : Calculation) (front : c.left.isSome = true ∨ c.before = [])
    (back : c.right.isSome = true ∨ c.after = []) : trim c.text = c.text := by
  refine trim_of_ends (fun d first => ?_) fun d last => ?_
  · unfold text at first
    cases left : c.left with
    | some o =>
      obtain ⟨e, es, written, -⟩ := o.exists_text
      have solid := o.solid
      rw [left, operandText, Option.elim_some, written] at first
      rw [written] at solid
      cases first
      exact solid d (List.mem_cons_self ..)
    | none =>
      have none_before : c.before = [] := by simpa [left] using front
      rw [left, ending, none_before] at first
      cases first
      exact c.op.isBlank_char
  · have parts : c.text = (operandText c.left ++ c.before ++ c.op.char :: c.after) ++
        operandText c.right := by simp [text, ending]
    rw [parts, List.getLast?_append] at last
    cases right : c.right with
    | some o =>
      obtain ⟨e, es, written, -⟩ := o.exists_text
      obtain ⟨x, found⟩ : ∃ x, o.text.getLast? = some x := by
        rw [written]
        exact ⟨_, List.getLast?_eq_some_getLast (List.cons_ne_nil e es)⟩
      rw [right, operandText, Option.elim_some, found] at last
      cases last
      exact o.solid d (List.mem_of_mem_getLast? found)
    | none =>
      have none_after : c.after = [] := by simpa [right] using back
      rw [right, none_after] at last
      simp only [operandText, Option.elim_none, List.getLast?_nil, Option.none_or,
        List.getLast?_concat] at last
      cases last
      exact c.op.isBlank_char

end Calculation

theorem operatorEnd?_eq_some {left : Option Numeral} {cs : List Char} {o : Operation}
    (h : operatorEnd? left cs = some o) :
    ∃ c more op, trimStart cs = c :: more ∧ Op.ofChar? c = some op ∧
      (trimStart more = [] ∧ o = ⟨left, op, none⟩ ∨
        ∃ right, number? (trimStart more) = some (right, []) ∧ o = ⟨left, op, some right⟩) := by
  unfold operatorEnd? at h
  split at h
  · rename_i c more opens
    split at h
    · cases h
    · rename_i op read
      refine ⟨c, more, op, opens, read, ?_⟩
      split at h
      · rename_i nothing
        cases h
        exact .inl ⟨nothing, rfl⟩
      · split at h
        · rename_i right number
          cases h
          exact .inr ⟨right, number, rfl⟩
        · cases h
  · cases h

/-- What is read as an operator and a number is written as such. -/
theorem exists_ending {left : Option Operand} {cs : List Char} {o : Operation}
    (h : operatorEnd? (left.map Operand.numeral) cs = some o)
    (some_operand : left.isSome = true ∨ o.right.isSome = true) :
    ∃ c : Calculation, c.left = left ∧ c.ending = cs ∧ c.operation = o := by
  obtain ⟨_, more, op, opens, read, behind⟩ := operatorEnd?_eq_some h
  obtain rfl := Op.ofChar?_eq_some_iff.mp read
  obtain ⟨before, blank_before, split_before⟩ := exists_trimmed cs
  obtain ⟨after, blank_after, split_after⟩ := exists_trimmed more
  rw [opens] at split_before
  rcases behind with ⟨nothing, rfl⟩ | ⟨right, number, rfl⟩
  · refine ⟨⟨left, before, op, after, none, blank_before, blank_after, by simpa using some_operand⟩,
      rfl, ?_, rfl⟩
    rw [nothing] at split_after
    rw [split_before, split_after]
    rfl
  · obtain ⟨o, rfl, written⟩ := exists_operand number
    refine ⟨⟨left, before, op, after, some o, blank_before, blank_after, .inr rfl⟩, rfl, ?_, rfl⟩
    rw [written, List.append_nil] at split_after
    rw [split_before, split_after]
    rfl

/-- What is read as an operation is a calculation. -/
theorem exists_calculation {cs : List Char} {o : Operation} (h : Operation.ofChars? cs = some o) :
    ∃ c : Calculation, c.text = cs ∧ c.operation = o := by
  unfold Operation.ofChars? at h
  dsimp only at h
  split at h
  · rename_i whole
    cases h
    cases read : number? cs with
    | none =>
      rw [read] at whole
      cases whole
    | some p =>
      obtain ⟨n, rest⟩ := p
      rw [read] at whole
      obtain ⟨left, rfl, rfl⟩ := exists_operand read
      obtain ⟨c, same, rfl, operation⟩ := @exists_ending (some left) _ _ whole (.inl rfl)
      exact ⟨c, by rw [Calculation.text, same]; rfl, operation⟩
  · cases found : operatorEnd? none cs with
    | none =>
      rw [found] at h
      cases h
    | some alone =>
      rw [found] at h
      dsimp only at h
      by_cases some_right : alone.right.isSome = true
      · rw [if_pos some_right] at h
        cases h
        obtain ⟨c, left, rfl, same⟩ := @exists_ending none _ _ found (.inr some_right)
        exact ⟨c, by rw [Calculation.text, left]; rfl, same⟩
      · rw [if_neg some_right] at h
        cases h

end Runbook.Expression
