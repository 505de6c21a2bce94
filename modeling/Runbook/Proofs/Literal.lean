import Runbook.Proofs.Expression.Rendered
import Runbook.Proofs.Json.Nesting
import Runbook.Proofs.Json.Weight
import Runbook.Proofs.Number.Written
import Runbook.Proofs.Text.Cutting

/-! Data text in code fences.

Data text may stand in a code fence, and then what is read is what is inside the first one. That a
fence belongs to the text around it cannot be told: a value in whose texts two fences stand is written
as a text that is read as something else. `load_iff` says that this is the only way, besides nesting,
in which a container is not brought back by its text. -/
namespace Runbook.Literal

open Json (weight)

def fence : List Char := ['`', '`', '`']

/-- Two code fences, one behind the other. -/
def Fenced (cs : List Char) : Prop :=
  ∃ before inside after, cs = before ++ fence ++ inside ++ fence ++ after

theorem Fenced.six_le_count {cs : List Char} (h : Fenced cs) : 6 ≤ cs.count '`' := by
  obtain ⟨before, inside, after, rfl⟩ := h
  have marks : fence.count '`' = 3 := rfl
  simp only [List.count_append, marks]
  omega

/-- What stands behind the opening of a fence. -/
def body (cs : List Char) : List Char :=
  Text.trimStart ((Text.after? "json".toList cs).getD cs)

theorem unfenced_eq (cs : List Char) : unfenced cs = (match Text.cutAtWord fence cs with
    | none => cs
    | some (_, rest) =>
      match Text.cutAtWord fence (body rest) with
      | some (inside, _) => Text.trim inside
      | none => cs) := rfl

theorem body_suffix (cs : List Char) : body cs <:+ cs := by
  have blanks (ds : List Char) : Text.trimStart ds <:+ ds := List.dropWhile_suffix _
  unfold body
  cases named : Text.after? "json".toList cs with
  | none => exact blanks cs
  | some rest =>
    rw [Text.after?_eq named]
    exact (blanks rest).trans ⟨_, rfl⟩

/-- A fence is behind the opening of another one wherever it stands. -/
theorem fence_infix_body {cs : List Char} (h : fence <:+: cs) : fence <:+: body cs := by
  have unblank {ds : List Char} (h : fence <:+: ds) : fence <:+: Text.trimStart ds := by
    rw [← List.takeWhile_append_dropWhile (p := Text.isBlank) (l := ds)] at h
    refine Text.infix_of_not_mem (fun there => ?_) h
    have blank := List.mem_takeWhile_imp there
    cases blank
  unfold body
  cases named : Text.after? "json".toList cs with
  | none => exact unblank h
  | some rest =>
    rw [Text.after?_eq named] at h
    exact unblank (Text.infix_of_not_mem (by decide) h)

theorem unfenced_of_not_fenced {cs : List Char} (h : ¬ Fenced cs) : unfenced cs = cs := by
  rw [unfenced_eq]
  split
  · rfl
  · rename_i before rest opened
    split
    · rename_i inside after closed
      obtain ⟨skipped, whole⟩ := body_suffix rest
      refine absurd ⟨before, skipped ++ inside, after, ?_⟩ h
      rw [Text.cutAtWord_eq opened, ← whole, Text.cutAtWord_eq closed]
      simp only [List.append_assoc]
    · rfl

theorem weight_trim_le (cs : List Char) : weight (Text.trim cs) ≤ weight cs := by
  have front : (Text.trimStart cs).Sublist cs := List.dropWhile_sublist _
  have back : (Text.trim cs).reverse.Sublist (Text.trimStart cs).reverse := by
    rw [Text.trim, Text.trimEnd, List.reverse_reverse]
    exact List.dropWhile_sublist _
  exact Json.weight_le_of_sublist ((List.reverse_sublist.mp back).trans front)

/-- What is read of a text with two fences is lighter by the fences. -/
theorem weight_unfenced_lt {cs : List Char} (h : Fenced cs) : weight (unfenced cs) < weight cs := by
  obtain ⟨before, inside, after, rfl⟩ := h
  obtain ⟨front, rest, opened, behind⟩ :=
    Text.exists_cutAtWord fence nofun before (inside ++ (fence ++ after))
  have another : fence <:+: rest :=
    List.IsInfix.trans ⟨inside, after, List.append_assoc ..⟩ behind.isInfix
  obtain ⟨x, y, found⟩ := fence_infix_body another
  obtain ⟨taken, left, closed, -⟩ := Text.exists_cutAtWord fence nofun x y
  rw [found] at closed
  have whole : before ++ fence ++ inside ++ fence ++ after =
      before ++ fence ++ (inside ++ (fence ++ after)) := by simp only [List.append_assoc]
  have read : unfenced (before ++ fence ++ inside ++ fence ++ after) = Text.trim taken := by
    rw [whole, unfenced_eq, opened]
    simp only [closed]
  have marks : weight fence = 6 := rfl
  have trimmed := weight_trim_le taken
  have later := Json.weight_le_of_suffix (body_suffix rest)
  have first := congrArg weight (Text.cutAtWord_eq opened)
  have second := congrArg weight (Text.cutAtWord_eq closed)
  simp only [Json.weight_append, marks] at first second
  rw [read, whole]
  simp only [Json.weight_append, marks]
  omega

/-- A container is brought back by its text unless it is nested too deeply or two code fences stand
in the text. -/
theorem load_iff {v : Value} (data : v.IsData) (container : ∀ s, v ≠ .scalar s) {text : String}
    (written : stringify v = .ok text) :
    load (.str text) = .ok v ↔ v.nesting ≤ Json.depthLimit ∧ ¬ Fenced text.toList := by
  have rendered : Json.render Json.compact v = .ok text := by
    cases v with
    | scalar s => exact absurd rfl (container s)
    | list | map => exact written
  have compact : Json.compact ∈ Json.layouts := List.mem_cons_self ..
  show Json.parse (String.ofList (unfenced text.toList)) = .ok v ↔ _
  by_cases fenced : Fenced text.toList
  · have lighter : weight (String.ofList (unfenced text.toList)).toList < weight text.toList := by
      rw [String.toList_ofList]
      exact weight_unfenced_lt fenced
    have other := Json.parse_ne_of_lighter rendered lighter
    exact ⟨fun read => absurd read other, fun h => absurd fenced h.2⟩
  · rw [unfenced_of_not_fenced fenced, String.ofList_toList,
      Json.parse_render_iff compact data rendered]
    exact (and_iff_left fenced).symm

/-- A mapping with an empty code fence in a text is read as what is inside the fence. -/
theorem load_fenced :
    stringify (.record [("a", .str "```\x7b\x7d```")]) = .ok "\x7b\"a\":\"```\x7b\x7d```\"\x7d" ∧
      load (.str "\x7b\"a\":\"```\x7b\x7d```\"\x7d") = .ok (.map []) :=
  ⟨by rfl, by rfl⟩

end Runbook.Literal

/-! ## Canonical numerals

A literal becomes a number only where it is that number's own text, so what becomes of it is written
as the literal, whatever it is (`stringify_coerce`). The text of each finite number of the floating
format, with whole ones held as whole numbers, is a plain numeral that is read as that number
(`exists_rendered`), so it is a literal that becomes it (`coerce_rendered`). -/
namespace Runbook

open Number

namespace Number.Binary64

variable {x : Binary64} {n : Int}

/-- A value that is a whole number is that many ones. -/
theorem counts_of_toInt? (h : x.toInt? = some n) : x.Counts n := by
  cases x with
  | nan | infinite => cases h
  | finite negative rank =>
    rw [toInt?] at h
    split at h
    · rename_i whole
      exact ⟨negative, rank, _, rfl,
        (Nat.div_mul_cancel (Nat.dvd_of_mod_eq_zero whole)).symm, Option.some.inj h⟩
    · cases h

/-- A whole number that is a value is not rounded. -/
theorem Counts.ofInt (h : x.Counts n) : exceeds n = false ∧ (Binary64.ofInt n).Counts n := by
  obtain ⟨negative, rank, m, rfl, magnitude, rfl⟩ := h
  have same : units rank * 1 = m * one := by rw [Nat.mul_one, magnitude]
  have exact_rank := nearestRank_of_magnitude Nat.one_ne_zero same
  refine ⟨?_, ?_⟩
  · rw [exceeds, natAbs_signed, exact_rank]
    exact decide_eq_false (Nat.not_le.mpr rank.isLt)
  · rw [Binary64.ofInt, natAbs_signed, ofQuotient_of_magnitude _ rank Nat.one_ne_zero same]
    refine ⟨_, rank, m, rfl, magnitude, ?_⟩
    have back := signed_natAbs (signed negative m)
    rwa [natAbs_signed] at back

end Number.Binary64

/-! ### Numerals of digits -/

namespace Number

/-- A sign that stands for a minus or not, written as another one where it does not. -/
theorem Sign.exists_of_isMinus (minus : Bool) {other : Sign} (positive : other.isMinus = false) :
    ∃ sign : Sign, sign.chars = (if minus then ['-'] else other.chars) ∧ sign.isMinus = minus := by
  cases minus with
  | true => exact ⟨.minus, rfl, rfl⟩
  | false => exact ⟨other, rfl, positive⟩

theorem exists_power_of_parts {pow : Option (Bool × List Char)}
    (powDigits : ∀ p ∈ pow, p.2 ≠ [] ∧ Json.AreDigits p.2) :
    ∃ power : Option Power, power.elim [] Power.text = Json.powerText pow ∧
      power.elim 0 Power.value = Json.powerValue pow := by
  rcases pow with _ | ⟨negative, ds⟩
  · exact ⟨none, rfl, rfl⟩
  · obtain ⟨some_digit, digits⟩ := powDigits _ rfl
    obtain ⟨decimal, value⟩ := digits.values
    have positive : Sign.plus.isMinus = false := rfl
    obtain ⟨sign, chars, isMinus⟩ := Sign.exists_of_isMinus negative positive
    refine ⟨some ⟨'e', sign, ds, .inl rfl, some_digit, decimal⟩, ?_, ?_⟩
    · show 'e' :: (sign.chars ++ ds) = _
      rw [chars]
      cases negative <;> rfl
    · show Power.value _ = _
      rw [Power.value, value, isMinus]
      cases negative <;> rfl

/-- The parts of a numeral in ASCII digits are a plain numeral. -/
theorem exists_plainNumeral_of_parts (negative : Bool) {w frac : List Char}
    {pow : Option (Bool × List Char)} (some_whole : w ≠ []) (whole : Json.AreDigits w)
    (fracDigits : Json.AreDigits frac) (powDigits : ∀ p ∈ pow, p.2 ≠ [] ∧ Json.AreDigits p.2) :
    ∃ v : PlainNumeral,
      v.text = Json.signText negative ++ (w ++ (Json.fractionText frac ++ Json.powerText pow)) ∧
      v.value = .ofDecimal negative (Json.digitsValue (w ++ frac))
        (Json.powerValue pow - frac.length) := by
  have positive : Sign.missing.isMinus = false := rfl
  obtain ⟨sign, minus, isMinus⟩ := Sign.exists_of_isMinus negative positive
  obtain ⟨point, fracText, sameFrac⟩ : ∃ point : Option (List Char),
      point.elim [] ('.' :: ·) = Json.fractionText frac ∧ point.getD [] = frac := by
    cases frac with
    | nil => exact ⟨none, rfl, rfl⟩
    | cons d ds => exact ⟨some (d :: ds), rfl, rfl⟩
  obtain ⟨power, powerText, powerValue⟩ := exists_power_of_parts powDigits
  obtain ⟨decimal, value⟩ := (whole.append fracDigits).values
  rw [← sameFrac] at decimal value ⊢
  refine ⟨⟨sign, w, point, power, List.append_ne_nil_of_left_ne_nil some_whole _, decimal⟩, ?_, ?_⟩
  · show sign.chars ++ (w ++ (point.elim [] ('.' :: ·) ++ power.elim [] Power.text)) = _
    rw [minus, fracText, powerText, sameFrac]
    rfl
  · rw [PlainNumeral.value_eq]
    dsimp only
    rw [isMinus, value, powerValue]

end Number

namespace Literal

open Expression (Operand)

variable {x : Binary64} {s t : String}

/-! ### The texts of numbers -/

theorem stringify_int {n : Int} (h : stringify (.int n) = .ok t) : t = toString n := by
  simp only [stringify] at h
  split at h
  · rename_i written
    cases h
    have chars := (Json.numeral?_eq_some written).2
    have digits := (Operand.text_ofInt n).symm
    refine String.toList_inj.mp (chars.trans (Eq.trans ?_ digits.symm))
    exact congrArg (Json.signText (n < 0) ++ ·) (List.append_nil _).symm
  · cases h

theorem exists_rendered_int {n : Int} (whole : x.toInt? = some n) :
    ∃ t, ∃ w : PlainNumeral, stringify (.int n) = .ok t ∧ w.text = t.toList ∧
      normalize w.value = .int n := by
  obtain ⟨within, counts⟩ := (Binary64.counts_of_toInt? whole).ofInt
  obtain ⟨t, written, chars, value⟩ := exists_operand_of_int within
  have noFraction : Json.AreDigits [] := nofun
  have noPower : ∀ p ∈ (none : Option (Bool × List Char)), p.2 ≠ [] ∧ Json.AreDigits p.2 := nofun
  obtain ⟨w, text, read⟩ := exists_plainNumeral_of_parts (n < 0)
    (spells_repr n.natAbs).ne_nil (Json.areDigits_digitChars n.natAbs) noFraction noPower
  have digits : Json.digitsValue ((toString n.natAbs).toList ++ []) = n.natAbs := by
    rw [List.append_nil]
    exact Json.digitsValue_digitChars n.natAbs
  refine ⟨t, w, written, ?_, ?_⟩
  · rw [text, chars]
    rfl
  · rw [read, digits]
    refine normalize_counts ?_
    rw [← value, Operand.toBinary64_ofInt] at counts
    exact counts

theorem exists_rendered_float (finite : x.isFinite = true) (broken : x.toInt? = none) :
    ∃ t, ∃ w : PlainNumeral, stringify (.float x) = .ok t ∧ w.text = t.toList ∧ w.value = x := by
  cases x with
  | nan | infinite => cases finite
  | finite negative rank =>
    have some_rank : rank.val ≠ 0 := by
      intro zero
      have magnitude : Binary64.units rank = 0 * Binary64.one := by
        rw [zero, Nat.zero_mul]
        rfl
      cases broken.symm.trans (toInt?_of_units negative magnitude)
    have pos := Nat.pos_of_ne_zero some_rank
    have near := near_shortest pos
    obtain ⟨digits, frac, pow, numeral⟩ := Json.exists_written (near.digits_ne_zero pos)
    have some_digit : digits ≠ [] := by
      obtain rfl | ⟨c, cs, rfl, -⟩ := numeral.whole.2 <;> exact List.cons_ne_nil _ _
    obtain ⟨w, text, read⟩ := exists_plainNumeral_of_parts negative some_digit numeral.whole.1
      numeral.fracDigits numeral.powDigits
    refine ⟨plain.text (.finite negative rank), w, ?_, ?_, ?_⟩
    · simp only [stringify, broken]
    · rw [text, text_plain negative some_rank, numeral.text_eq]
    · rw [read, Decimal.ofDecimal_of_near negative pos rank.isLt (near.of_same numeral.same)]

/-- Of a finite number there is a text, a plain numeral which is read as that number. -/
theorem exists_rendered (finite : x.isFinite = true) :
    ∃ t, ∃ w : PlainNumeral, stringify (normalize x) = .ok t ∧ w.text = t.toList ∧
      normalize w.value = normalize x := by
  cases whole : x.toInt? with
  | some n =>
    have same : normalize x = .int n := by rw [normalize, whole]
    rw [same]
    exact exists_rendered_int whole
  | none =>
    obtain ⟨t, w, written, text, rfl⟩ := exists_rendered_float finite whole
    have same : normalize w.value = .float w.value := by rw [normalize, whole]
    exact ⟨t, w, same ▸ written, text, rfl⟩

/-- A plain numeral is read as its value. -/
theorem plain?_of_written (w : PlainNumeral) (text : w.text = s.toList) :
    plain? s.toList = some w.value := text ▸ w.plain?_text

/-- A plain numeral that is the text of its value becomes that value. -/
theorem coerce_of_written (w : PlainNumeral) (text : w.text = s.toList)
    (written : stringify (normalize w.value) = .ok s) : coerce s = normalize w.value := by
  simp only [coerce, plain?_of_written w text, written, if_true]

/-- A literal stays a text, or it is the text of the number that it becomes. -/
theorem coerce_cases (s : String) : coerce s = .str s ∨
    ∃ x, plain? s.toList = some x ∧ stringify (normalize x) = .ok s ∧ coerce s = normalize x := by
  unfold coerce
  cases read : plain? s.toList with
  | none => exact .inl rfl
  | some x =>
    dsimp only
    split
    · rename_i t written
      by_cases same : t = s
      · rw [if_pos same]
        exact .inr ⟨x, rfl, same ▸ written, rfl⟩
      · rw [if_neg same]
        exact .inl rfl
    · exact .inl rfl

/-- What becomes of a literal is written as the literal. -/
theorem stringify_coerce (s : String) : stringify (coerce s) = .ok s := by
  obtain text | ⟨x, -, written, number⟩ := coerce_cases s
  · rw [text]
    rfl
  · rw [number, written]

/-! ### The numbers that there are -/

theorem coerce_rendered (finite : x.isFinite = true) (written : stringify (normalize x) = .ok s) :
    coerce s = normalize x := by
  obtain ⟨t, w, own, text, same⟩ := exists_rendered finite
  obtain rfl : t = s := Except.ok.inj (own.symm.trans written)
  rw [coerce_of_written w text (same ▸ written), same]

/-- The names of the values that are no decimals are no numerals. -/
theorem finite_of_plain? (read : plain? s.toList = some x)
    (written : stringify (normalize x) = .ok s) : x.isFinite = true := by
  cases x with
  | finite => rfl
  | nan =>
    cases written
    cases read
  | infinite negative => cases negative <;> cases written <;> cases read

/-- The digits of a whole number up to the limit become that number. -/
theorem coerce_int {n : Int} (small : n.natAbs ≤ Binary64.wholeLimit) :
    coerce (toString n) = .int n := by
  have counts := Operand.counts_ofInt small
  have same := normalize_counts counts
  have finite : (Operand.ofInt n).numeral.toBinary64.isFinite = true := by
    obtain ⟨negative, rank, -, value, -⟩ := counts
    rw [value]
    rfl
  obtain ⟨t, -, written, -⟩ := exists_rendered finite
  rw [← stringify_int (same ▸ written), coerce_rendered finite written, same]

end Literal
end Runbook
