import Runbook.Json.Reader
import Runbook.Proofs.Json.Reading
import Runbook.Proofs.Number.Numeral
import Runbook.Proofs.Number.Shortest

/-! Numbers, written and read back.

A numeral has whole digits, perhaps digits behind a point, and perhaps a power of ten
(`unsigned_numeral`). Whole numbers are written with the first part only and come back as they are;
floating numbers are written with one of the other parts at least, and the decimal that is read
lies around their magnitude, so they come back as they are too. -/
namespace Runbook.Json

open Number

/-! ### Digits -/

theorem isAsciiDigit_iff (c : Char) : isAsciiDigit c = true ↔ IsDigit c := by
  rw [isAsciiDigit, Bool.and_eq_true, decide_eq_true_eq, decide_eq_true_eq]
  exact Iff.rfl

/-- Whether a text is digits only. -/
def AreDigits (ds : List Char) : Prop := ∀ d ∈ ds, isAsciiDigit d = true

theorem AreDigits.append {ds es : List Char} (h : AreDigits ds) (h' : AreDigits es) :
    AreDigits (ds ++ es) := List.forall_mem_append.mpr ⟨h, h'⟩

theorem areDigits_zeros (n : Nat) : AreDigits (List.replicate n '0') := by
  intro d there
  rw [(List.mem_replicate.mp there).2]
  rfl

theorem areDigits_digitChars (n : Nat) : AreDigits (digitChars n) :=
  fun d there => (isAsciiDigit_iff d).mpr ((spells_repr n).isDigit d there)

/-- With a number read before, digits count behind it. -/
theorem foldl_digits (ds : List Char) (n : Nat) :
    ds.foldl (fun n d => n * 10 + (d.toNat - 48)) n = n * 10 ^ ds.length + digitsValue ds := by
  induction ds generalizing n with
  | nil => exact (Nat.mul_one n).symm
  | cons d ds ih =>
    rw [digitsValue, List.foldl_cons, List.foldl_cons, ih, ih, List.length_cons]
    ring

theorem digitsValue_append (ds es : List Char) :
    digitsValue (ds ++ es) = digitsValue ds * 10 ^ es.length + digitsValue es := by
  rw [digitsValue, List.foldl_append, foldl_digits es, ← digitsValue]

theorem digitsValue_zeros (n : Nat) : digitsValue (List.replicate n '0') = 0 := by
  induction n with
  | zero => rfl
  | succ n ih => exact ih

theorem digitsValue_digitChars (n : Nat) : digitsValue (digitChars n) = n := by
  obtain ⟨ds, -, digits, chars, value⟩ := spells_repr n
  have same : digitChars n = ds.map Nat.digitChar := chars
  have code : ∀ m, ∀ d ∈ ds, m * 10 + (d.digitChar.toNat - 48) = m * 10 + d := by
    intro m d there
    rw [Nat.toNat_digitChar_of_lt_ten (digits d there)]
    omega
  rw [same, digitsValue, List.foldl_map, List.foldl_ext _ _ 0 code]
  exact value

/-- What may stand behind a number: nothing that goes on it. -/
def EndsNumber (rest : List Char) : Prop :=
  ∀ c ∈ rest.head?, isAsciiDigit c = false ∧ c ≠ '.' ∧ c ≠ 'e' ∧ c ≠ 'E'

/-- Digits are taken up to what is no digit. -/
theorem takeWhile_digits {ds rest : List Char} (digits : AreDigits ds)
    (ends : ∀ c ∈ rest.head?, isAsciiDigit c = false) :
    (ds ++ rest).takeWhile isAsciiDigit = ds ∧ (ds ++ rest).dropWhile isAsciiDigit = rest := by
  rw [List.takeWhile_append_of_pos digits, List.dropWhile_append_of_pos digits]
  cases rest with
  | nil => simp
  | cons c rest => simp [ends c rfl]

/-! ### The parts of a numeral -/

/-- Whole digits: a zero alone, or digits behind one that is no zero. -/
def IsWhole (w : List Char) : Prop :=
  AreDigits w ∧ (w = ['0'] ∨ ∃ c cs, w = c :: cs ∧ c ≠ '0')

/-- The first digit of a number is no zero. -/
theorem exists_digitChars {n : Nat} (some_n : n ≠ 0) : ∃ c cs, digitChars n = c :: cs ∧ c ≠ '0' := by
  rw [digitChars, Nat.toList_repr]
  induction n using Nat.strongRecOn with
  | ind n ih =>
    rw [Nat.toDigits_eq_if (by decide)]
    split
    · refine ⟨_, _, rfl, fun zero => some_n ?_⟩
      have code := Nat.toNat_digitChar_of_lt_ten (n := n) (by assumption)
      rw [zero] at code
      have : '0'.toNat = 48 := rfl
      omega
    · obtain ⟨c, cs, first, other⟩ := ih (n / 10) (by omega) (by omega)
      exact ⟨c, _, by rw [first]; rfl, other⟩

theorem isWhole_digitChars (n : Nat) : IsWhole (digitChars n) := by
  refine ⟨areDigits_digitChars n, ?_⟩
  by_cases none : n = 0
  · exact .inl (by rw [none]; rfl)
  · exact .inr (exists_digitChars none)

/-- A fraction as it is written, if there is one. -/
def fractionText : List Char → List Char
  | [] => []
  | ds => '.' :: ds

/-- A power of ten as it is written, if there is one. -/
def powerText : Option (Bool × List Char) → List Char
  | none => []
  | some (negative, ds) => 'e' :: (if negative then '-' else '+') :: ds

/-- What a power of ten counts. -/
def powerValue : Option (Bool × List Char) → Int
  | none => 0
  | some (true, ds) => -(digitsValue ds : Int)
  | some (false, ds) => digitsValue ds

/-- The whole digits are taken from a numeral. -/
theorem whole_append {w rest : List Char} (whole : IsWhole w)
    (ends : ∀ c ∈ rest.head?, isAsciiDigit c = false) :
    (match w ++ rest with
      | '0' :: _ => ['0']
      | _ => (w ++ rest).takeWhile isAsciiDigit) = w := by
  obtain ⟨digits, rfl | ⟨c, cs, rfl, other⟩⟩ := whole
  · rfl
  · have taken := (takeWhile_digits digits ends).1
    split
    · rename_i same
      exact absurd (List.cons.inj same).1 other
    · exact taken

theorem fraction_append {frac rest : List Char} (digits : AreDigits frac)
    (ends : ∀ c ∈ rest.head?, isAsciiDigit c = false ∧ c ≠ '.') :
    fraction (fractionText frac ++ rest) = (frac, rest) := by
  cases frac with
  | nil =>
    rw [fractionText, List.nil_append]
    unfold fraction
    split
    · exact absurd rfl (ends _ rfl).2
    · rfl
  | cons d ds =>
    obtain ⟨taken, left⟩ := takeWhile_digits digits fun c there => (ends c there).1
    rw [fractionText, List.cons_append, fraction, taken, left]
    nofun

theorem power_append {pow : Option (Bool × List Char)} {rest : List Char}
    (digits : ∀ p ∈ pow, p.2 ≠ [] ∧ AreDigits p.2) (ends : EndsNumber rest) :
    power (powerText pow ++ rest) = (pow, rest) := by
  cases pow with
  | none =>
    rw [powerText, List.nil_append]
    cases rest with
    | nil => rfl
    | cons c rest =>
      obtain ⟨-, -, small, capital⟩ := ends c rfl
      unfold power
      exact if_neg (by simp [small, capital])
  | some p =>
    obtain ⟨negative, ds⟩ := p
    obtain ⟨some_digits, digits⟩ := digits _ rfl
    obtain ⟨taken, left⟩ := takeWhile_digits digits fun c there => (ends c there).1
    have signed : power (powerText (some (negative, ds)) ++ rest) =
        match (ds ++ rest).takeWhile isAsciiDigit with
        | [] => (none, powerText (some (negative, ds)) ++ rest)
        | es => (some (negative, es), (ds ++ rest).dropWhile isAsciiDigit) := by
      cases negative <;> rfl
    rw [signed, taken, left]
    cases ds with
    | nil => exact absurd rfl some_digits
    | cons d ds => rfl

/-- What stands behind the fraction does not go on it. -/
theorem ends_power {pow : Option (Bool × List Char)} {rest : List Char} (ends : EndsNumber rest) :
    ∀ c ∈ (powerText pow ++ rest).head?, isAsciiDigit c = false ∧ c ≠ '.' := by
  cases pow with
  | none => exact fun c there => ⟨(ends c there).1, (ends c there).2.1⟩
  | some p =>
    rintro c ⟨⟩
    exact ⟨rfl, by decide⟩

/-- What stands behind the whole digits does not go on them. -/
theorem ends_fraction {frac rest : List Char} (ends : ∀ c ∈ rest.head?, isAsciiDigit c = false) :
    ∀ c ∈ (fractionText frac ++ rest).head?, isAsciiDigit c = false := by
  cases frac with
  | nil => exact ends
  | cons d ds =>
    rintro c ⟨⟩
    rfl

/-- The parts of a numeral, up to the choice of what it stands for. -/
theorem unsigned_parts (negative : Bool) {w frac rest : List Char}
    {pow : Option (Bool × List Char)} (whole : IsWhole w) (fracDigits : AreDigits frac)
    (powDigits : ∀ p ∈ pow, p.2 ≠ [] ∧ AreDigits p.2) (ends : EndsNumber rest) :
    unsigned negative (w ++ (fractionText frac ++ (powerText pow ++ rest))) =
      if frac = [] ∧ pow = none then
        if digitLimit < w.length then some (.error (.tooManyDigits w.length), rest)
        else some (.ok (.int (if negative then -(digitsValue w : Int) else digitsValue w)), rest)
      else some (.ok (.float (Binary64.ofDecimal negative (digitsValue (w ++ frac))
        (powerValue pow - frac.length))), rest) := by
  have some_digits : w ≠ [] := by
    obtain ⟨-, rfl | ⟨c, cs, rfl, -⟩⟩ := whole <;> exact List.cons_ne_nil _ _
  unfold unsigned
  extract_lets taken
  have taken_eq : taken = w := whole_append whole
    (ends_fraction fun c there => (ends_power ends c there).1)
  clear_value taken
  subst taken_eq
  rw [if_neg some_digits, List.drop_left, fraction_append fracDigits (ends_power ends)]
  dsimp only
  rw [power_append powDigits ends]
  cases frac with
  | cons d ds =>
    refine Eq.trans ?_ (if_neg (by simp)).symm
    rcases pow with _ | ⟨_ | _, ds⟩ <;> rfl
  | nil =>
    rcases pow with _ | ⟨_ | _, ds⟩
    · refine Eq.trans ?_ (if_pos ⟨rfl, rfl⟩).symm
      rfl
    all_goals exact Eq.trans rfl (if_neg (by simp)).symm

/-- The sign in front of a number. -/
def signText (negative : Bool) : List Char := if negative then ['-'] else []

/-- A number is no name, so it is read as a number. -/
theorem atom_number {negative : Bool} {c : Char} {cs rest : List Char} {v : Value}
    (digit : isAsciiDigit c = true) (read : unsigned negative (c :: cs) = some (.ok v, rest)) :
    atom (signText negative ++ c :: cs) = .ok (v, rest) := by
  have other {d : Char} (h : isAsciiDigit d = false) : c ≠ d := by
    rintro rfl
    rw [h] at digit
    cases digit
  have unnamed : named.findSome? (fun e =>
      (Text.after? e.1.toList (signText negative ++ c :: cs)).map (e.2, ·)) = none := by
    cases negative <;> simp [named, signText, Text.after?, (other _).symm, isAsciiDigit]
  unfold atom
  split
  · rename_i found
    cases found.symm.trans unnamed
  · cases negative with
    | true =>
      simp only [signText, if_true, List.cons_append, List.nil_append, read]
    | false =>
      have minus : c ≠ '-' := other rfl
      simp only [signText, Bool.false_eq_true, if_false, List.nil_append]
      -- Each way on depends on what the number came to, and there is one that is read.
      split
      all_goals
        rename_i came
        split at came
        · rename_i same
          exact absurd (List.cons.inj same).1 minus
        · cases read.symm.trans came <;> rfl

/-- What reads as a number behind a sign, whichever digits it starts with. -/
theorem atom_whole {negative : Bool} {w more rest : List Char} {v : Value} (whole : IsWhole w)
    (read : unsigned negative (w ++ more) = some (.ok v, rest)) :
    atom (signText negative ++ (w ++ more)) = .ok (v, rest) := by
  obtain ⟨digits, first⟩ := whole
  obtain ⟨c, cs, rfl⟩ : ∃ c cs, w = c :: cs := by
    obtain rfl | ⟨c, cs, rfl, -⟩ := first <;> exact ⟨_, _, rfl⟩
  exact atom_number (digits c (List.mem_cons_self ..)) read

/-- A whole number is written as a sign and digits. -/
theorem numeral?_eq_some {n : Int} {s : String} (written : numeral? n = some s) :
    (digitChars n.natAbs).length ≤ digitLimit ∧
      s.toList = signText (n < 0) ++ digitChars n.natAbs := by
  unfold numeral? at written
  dsimp only at written
  split at written
  · rename_i short
    refine ⟨short, ?_⟩
    rw [← Option.some.inj written]
    by_cases negative : n < 0
    · rw [if_pos negative, String.toList_append, decide_eq_true negative]
      rfl
    · rw [if_neg negative, decide_eq_false negative]
      rfl
  · cases written

/-- The data text of a whole number is read as that number. -/
theorem atom_int {n : Int} {s : String} (written : numeral? n = some s) {rest : List Char}
    (ends : EndsNumber rest) : atom (s.toList ++ rest) = .ok (.int n, rest) := by
  obtain ⟨short, digits⟩ := numeral?_eq_some written
  have whole := isWhole_digitChars n.natAbs
  have read := unsigned_parts (n < 0) whole (nofun : AreDigits [])
    (nofun : ∀ p ∈ (none : Option (Bool × List Char)), p.2 ≠ [] ∧ AreDigits p.2) ends
  rw [if_pos ⟨rfl, rfl⟩, if_neg (Nat.not_lt.mpr short), digitsValue_digitChars] at read
  have sign : (if decide (n < 0) = true then -(n.natAbs : Int) else n.natAbs) = n := by
    by_cases negative : n < 0
    · rw [decide_eq_true negative, if_pos rfl]
      omega
    · rw [decide_eq_false negative, if_neg Bool.false_ne_true]
      omega
  rw [sign] at read
  rw [digits, List.append_assoc]
  exact atom_whole whole read

/-! ### Decimals -/

/-- A text of the parts of a numeral, which has the value of a decimal. -/
structure IsNumeralOf (d : Decimal) (text w frac : List Char) (pow : Option (Bool × List Char)) :
    Prop where
  text_eq : text = w ++ (fractionText frac ++ powerText pow)
  whole : IsWhole w
  some_parts : ¬ (frac = [] ∧ pow = none)
  fracDigits : AreDigits frac
  powDigits : ∀ p ∈ pow, p.2 ≠ [] ∧ AreDigits p.2
  same : d.Same ⟨digitsValue (w ++ frac), powerValue pow - frac.length⟩

/-- The characters of a numeral. -/
theorem IsNumeralOf.forall_mem {P : Char → Prop} {d : Decimal} {text w frac : List Char}
    {pow : Option (Bool × List Char)} (h : IsNumeralOf d text w frac pow)
    (digits : ∀ c, isAsciiDigit c = true → P c) (marks : ∀ c ∈ ['.', 'e', '+', '-'], P c) :
    ∀ c ∈ text, P c := by
  have all {ds : List Char} (are : AreDigits ds) : ∀ c ∈ ds, P c := fun c there =>
    digits c (are c there)
  rw [h.text_eq]
  refine List.forall_mem_append.mpr ⟨all h.whole.1, List.forall_mem_append.mpr ⟨?_, ?_⟩⟩
  · cases frac with
    | nil => exact nofun
    | cons c cs => exact List.forall_mem_cons.mpr ⟨marks _ (by decide), all h.fracDigits⟩
  · cases pow with
    | none => exact nofun
    | some p =>
      refine List.forall_mem_cons.mpr ⟨marks _ (by decide), List.forall_mem_cons.mpr
        ⟨marks _ ?_, all (h.powDigits p rfl).2⟩⟩
      cases p.1 <;> decide

theorem fractionText_of_ne_nil {frac : List Char} (h : frac ≠ []) :
    fractionText frac = '.' :: frac := by
  cases frac with
  | nil => exact absurd rfl h
  | cons d ds => rfl

/-- The value is the same where digits and exponent are. -/
theorem same_of_eq {d : Decimal} {digits : Nat} {exponent : Int} (h : digits = d.digits)
    (h' : exponent = d.exponent) : d.Same ⟨digits, exponent⟩ := by
  rw [h, h']
  rfl

section Decimals
variable {d : Decimal} {c : Char} {cs : List Char}

theorem isWhole_cons {c : Char} {cs : List Char} (digits : AreDigits (c :: cs)) (first : c ≠ '0') :
    IsWhole (c :: cs) := ⟨digits, .inr ⟨c, cs, rfl, first⟩⟩

/-- A point in front of all digits. -/
theorem written_broken {zeros : Nat}
    (point : (digitChars d.digits).length + d.exponent = -(zeros : Int)) :
    IsNumeralOf d ('0' :: '.' :: List.replicate zeros '0' ++ digitChars d.digits) ['0']
      (List.replicate zeros '0' ++ digitChars d.digits) none := by
  have some_digit : List.replicate zeros '0' ++ digitChars d.digits ≠ [] :=
    List.append_ne_nil_of_right_ne_nil _ (spells_repr d.digits).ne_nil
  refine ⟨?_, ⟨areDigits_zeros 1, .inl rfl⟩, fun none => some_digit none.1,
    (areDigits_zeros zeros).append (areDigits_digitChars _), nofun, same_of_eq ?_ ?_⟩
  · rw [fractionText_of_ne_nil some_digit]
    simp [powerText]
  · rw [digitsValue_append, digitsValue_append, digitsValue_zeros, digitsValue_digitChars]
    show 0 * _ + (0 * _ + d.digits) = d.digits
    omega
  · rw [List.length_append, List.length_replicate]
    show (0 : Int) - _ = _
    omega

/-- A point behind all digits, and a zero behind that. -/
theorem written_whole (digits : digitChars d.digits = c :: cs) (first : c ≠ '0') {zeros : Nat}
    (exponent : d.exponent = zeros) :
    IsNumeralOf d (digitChars d.digits ++ List.replicate zeros '0' ++ ['.', '0'])
      (digitChars d.digits ++ List.replicate zeros '0') ['0'] none := by
  have whole : IsWhole (digitChars d.digits ++ List.replicate zeros '0') :=
    ⟨(areDigits_digitChars _).append (areDigits_zeros zeros),
      .inr ⟨c, cs ++ List.replicate zeros '0', by rw [digits]; rfl, first⟩⟩
  have value : digitsValue (digitChars d.digits ++ List.replicate zeros '0' ++ ['0']) =
      d.digits * 10 ^ (zeros + 1) := by
    rw [digitsValue_append, digitsValue_append, digitsValue_zeros, digitsValue_digitChars,
      List.length_replicate, Nat.pow_succ]
    show (d.digits * 10 ^ zeros + 0) * 10 ^ 1 + 0 = _
    ring
  have same := Decimal.same_zeros d.digits (zeros + 1) (-1)
  have shifted : (-1 : Int) + (zeros + 1 : Nat) = d.exponent := by omega
  rw [shifted] at same
  refine ⟨rfl, whole, fun none => List.cons_ne_nil _ _ none.1, areDigits_zeros 1, nofun, ?_⟩
  rw [value]
  exact same.symm

/-- A point between the digits. -/
theorem written_between (digits : digitChars d.digits = c :: cs) (first : c ≠ '0') {before : Nat}
    (short : before < cs.length) (exponent : (before : Int) = cs.length + d.exponent) :
    IsNumeralOf d
      ((digitChars d.digits).take (before + 1) ++ '.' :: (digitChars d.digits).drop (before + 1))
      (c :: cs.take before) (cs.drop before) none := by
  have all : AreDigits (c :: cs) := digits ▸ areDigits_digitChars d.digits
  obtain ⟨here, behind⟩ := List.forall_mem_cons.mp all
  have some_digit : cs.drop before ≠ [] := by
    rw [ne_eq, List.drop_eq_nil_iff]
    omega
  have front : AreDigits (c :: cs.take before) :=
    List.forall_mem_cons.mpr ⟨here, fun d there => behind d (List.mem_of_mem_take there)⟩
  refine ⟨?_, isWhole_cons front first, fun none => some_digit none.1,
    fun d there => behind d (List.mem_of_mem_drop there), nofun, same_of_eq ?_ ?_⟩
  · rw [fractionText_of_ne_nil some_digit, digits, powerText, List.append_nil]
    rfl
  · rw [List.cons_append, List.take_append_drop, ← digits, digitsValue_digitChars]
  · rw [List.length_drop]
    show (0 : Int) - _ = _
    omega

/-- A power of ten behind one digit in front of the point. -/
theorem written_power (digits : digitChars d.digits = c :: cs) (first : c ≠ '0') (width : Nat)
    {e : Int} (exponent : e = cs.length + d.exponent) :
    IsNumeralOf d (c :: fractionText cs ++ 'e' :: (if e < 0 then '-' else '+') ::
      padded width (digitChars e.natAbs)) [c] cs
      (some (decide (e < 0), padded width (digitChars e.natAbs))) := by
  have all : AreDigits (c :: cs) := digits ▸ areDigits_digitChars d.digits
  obtain ⟨here, behind⟩ := List.forall_mem_cons.mp all
  have power : digitsValue (padded width (digitChars e.natAbs)) = e.natAbs := by
    rw [padded, digitsValue_append, digitsValue_zeros, digitsValue_digitChars]
    omega
  refine ⟨?_, isWhole_cons (List.forall_mem_singleton.mpr here) first,
    fun none => (nomatch none.2), behind, ?_, same_of_eq ?_ ?_⟩
  · by_cases negative : e < 0
    · rw [if_pos negative, decide_eq_true negative]
      rfl
    · rw [if_neg negative, decide_eq_false negative]
      rfl
  · rintro p ⟨⟩
    exact ⟨List.append_ne_nil_of_right_ne_nil _ (spells_repr _).ne_nil,
      (areDigits_zeros _).append (areDigits_digitChars _)⟩
  · rw [List.singleton_append, ← digits, digitsValue_digitChars]
  · by_cases negative : e < 0
    · rw [decide_eq_true negative, powerValue, power]
      omega
    · rw [decide_eq_false negative, powerValue, power]
      omega

end Decimals

/-- Where the point falls near the digits, it is written there. -/
theorem exists_positional {d : Decimal} (some_digits : d.digits ≠ 0)
    (near : -3 ≤ d.point ∧ d.point ≤ 16) :
    ∃ w frac, IsNumeralOf d (Number.data.decimal d) w frac none := by
  obtain ⟨c, cs, digits, first⟩ := exists_digitChars some_digits
  have length : (digitChars d.digits).length = cs.length + 1 := by rw [digits]; rfl
  have within : (decide (data.least ≤ (digitChars d.digits).length + d.exponent) &&
      decide ((digitChars d.digits).length + d.exponent ≤ data.most)) = true := by
    rw [Bool.and_eq_true, decide_eq_true_eq, decide_eq_true_eq]
    exact near
  unfold Layout.decimal
  dsimp only
  rw [if_pos within]
  split
  · exact ⟨_, _, written_broken (by omega)⟩
  · split
    · exact ⟨_, _, written_whole digits first (by omega)⟩
    · obtain ⟨before, point⟩ : ∃ before : Nat,
          ((digitChars d.digits).length + d.exponent).toNat = before + 1 :=
        Nat.exists_eq_succ_of_ne_zero (by omega)
      rw [point]
      exact ⟨_, _, written_between digits first (by omega) (by omega)⟩

/-- Where it does not, a power of ten is written. -/
theorem exists_scientific {d : Decimal} (some_digits : d.digits ≠ 0)
    (far : ¬ (-3 ≤ d.point ∧ d.point ≤ 16)) :
    ∃ w frac p, IsNumeralOf d (Number.data.decimal d) w frac (some p) := by
  obtain ⟨c, cs, digits, first⟩ := exists_digitChars some_digits
  have length : (digitChars d.digits).length = cs.length + 1 := by rw [digits]; rfl
  have beyond : ¬ (decide (data.least ≤ (digitChars d.digits).length + d.exponent) &&
      decide ((digitChars d.digits).length + d.exponent ≤ data.most)) = true := by
    rw [Bool.and_eq_true, decide_eq_true_eq, decide_eq_true_eq]
    exact far
  unfold Layout.decimal
  dsimp only
  rw [if_neg beyond]
  split
  · rename_i none
    cases digits.symm.trans none
  · rename_i digit one
    cases digits.symm.trans one
    exact ⟨_, _, _, written_power digits first _ (by omega)⟩
  · rename_i digit more some_more several
    cases digits.symm.trans several
    have point := written_power digits first data.exponentDigits
      (e := (digitChars d.digits).length + d.exponent - 1) (by omega)
    rw [fractionText_of_ne_nil some_more] at point
    exact ⟨_, _, _, point⟩

/-- A decimal is written as a numeral with its value, wherever the point is and whatever the width of
an exponent. -/
theorem exists_written {d : Decimal} (some_digits : d.digits ≠ 0) :
    ∃ w frac pow, IsNumeralOf d (Number.data.decimal d) w frac pow := by
  by_cases near : -3 ≤ d.point ∧ d.point ≤ 16
  · obtain ⟨w, frac, numeral⟩ := exists_positional some_digits near
    exact ⟨w, frac, none, numeral⟩
  · obtain ⟨w, frac, p, numeral⟩ := exists_scientific some_digits near
    exact ⟨w, frac, some p, numeral⟩

/-- A numeral with a fraction or a power of ten is read as its decimal, rounded. -/
theorem atom_decimal {negative : Bool} {d : Decimal} {text w frac rest : List Char}
    {pow : Option (Bool × List Char)} (h : IsNumeralOf d text w frac pow) (ends : EndsNumber rest) :
    atom (signText negative ++ (text ++ rest)) = .ok (.float (Binary64.ofDecimal negative
      (digitsValue (w ++ frac)) (powerValue pow - frac.length)), rest) := by
  have read := unsigned_parts negative h.whole h.fracDigits h.powDigits ends
  rw [if_neg h.some_parts] at read
  rw [h.text_eq, List.append_assoc, List.append_assoc]
  exact atom_whole h.whole read

/-- The magnitude of a floating number as it is written. -/
def magnitudeText (rank : Nat) : List Char :=
  if rank = 0 then ['0', '.', '0'] else Number.data.decimal (shortest rank)

theorem atom_magnitude (negative : Bool) (rank : Fin ranks) {rest : List Char}
    (ends : EndsNumber rest) :
    atom (signText negative ++ (magnitudeText rank ++ rest)) =
      .ok (.float (.finite negative rank), rest) := by
  by_cases least : rank.val = 0
  · have zero : IsNumeralOf ⟨0, 0⟩ ['0', '.', '0'] ['0'] ['0'] none :=
      ⟨rfl, ⟨areDigits_zeros 1, .inl rfl⟩, fun none => (nomatch none.1), areDigits_zeros 1, nofun, rfl⟩
    have same : rank = ⟨0, by decide⟩ := Fin.ext least
    rw [magnitudeText, if_pos least, atom_decimal zero ends, same]
    rfl
  · have near := near_shortest (Nat.pos_of_ne_zero least)
    obtain ⟨w, frac, pow, numeral⟩ :=
      exists_written (near.digits_ne_zero (Nat.pos_of_ne_zero least))
    rw [magnitudeText, if_neg least, atom_decimal numeral ends,
      Decimal.ofDecimal_of_near negative (Nat.pos_of_ne_zero least) rank.isLt
        (near.of_same numeral.same)]

theorem text_finite (negative : Bool) (rank : Fin ranks) :
    (Number.data.text (.finite negative rank)).toList =
      signText negative ++ magnitudeText rank := by
  rw [Layout.text, String.toList_ofList]
  cases negative <;> rfl

/-- The data text of a floating number is read as that number, the values that are no decimals
included. -/
theorem atom_float (x : Binary64) {rest : List Char} (ends : EndsNumber rest) :
    atom ((Number.data.text x).toList ++ rest) = .ok (.float x, rest) := by
  cases x with
  | nan => rfl
  | infinite negative => cases negative <;> rfl
  | finite negative rank =>
    rw [text_finite, List.append_assoc, atom_magnitude negative rank ends]

end Runbook.Json
