import Runbook.Proofs.Text.Cutting
import Runbook.Text.Case

/-! Where the small forms of a text come from.

Every character has one small form of one character, and the capital i with a dot has one of two:
so the text in small letters is longer than the text by the number of its dotted capitals
(`length_lower`), and a place in it is no place in the text. What lies between two places of the
small forms comes from a part of the text (`exists_match`), and at either end from the half of a
dotted capital at most. The form of a capital sigma hangs on the characters around it; without one
a part has the same small forms wherever it stands (`lowerPart_plain`). -/
namespace Runbook.Text

/-! ### Forms and their widths -/

/-- The small form of a character, given the characters before it in reverse and those behind. -/
def smallForm (before : List Char) (c : Char) (behind : List Char) : List Char :=
  if c = 'Σ' then [if wordGoesOn before && !wordGoesOn behind then 'ς' else 'σ'] else lowerChar c

theorem lowerFrom_cons (before : List Char) (c : Char) (cs : List Char) :
    lowerFrom before (c :: cs) = smallForm before c cs ++ lowerFrom (c :: before) cs := rfl

theorem lowerChar_dotted : lowerChar 'İ' = ['i', '\u0307'] := by decide

theorem length_lowerChar {c : Char} (plain : c ≠ 'İ') : (lowerChar c).length = 1 := by
  have other : ((0x130 : Nat) == c.toNat) = false :=
    beq_eq_false_iff_ne.mpr fun same => plain (Char.ext (UInt32.toNat_inj.mp same.symm))
  unfold lowerChar
  split
  · rfl
  · unfold mapCase
    dsimp only
    split
    · rfl
    · simp [lowerExpansions, other]

/-- How many characters the small forms of a text have. -/
def width (cs : List Char) : Nat := cs.length + cs.count 'İ'

theorem width_append (cs ds : List Char) : width (cs ++ ds) = width cs + width ds := by
  simp only [width, List.length_append, List.count_append]
  omega

theorem width_eq_length {cs : List Char} (plain : 'İ' ∉ cs) : width cs = cs.length := by
  rw [width, List.count_eq_zero_of_not_mem plain, Nat.add_zero]

theorem length_smallForm (before : List Char) (c : Char) (behind : List Char) :
    (smallForm before c behind).length = width [c] := by
  unfold smallForm
  split
  · rename_i sigma
    subst sigma
    rfl
  · by_cases dotted : c = 'İ'
    · rw [dotted, lowerChar_dotted]
      rfl
    · rw [length_lowerChar dotted, width_eq_length (by simpa using Ne.symm dotted)]
      rfl

/-- The small forms of a part of a text, given what stands before it in reverse and behind it. -/
def lowerPart (before : List Char) : List Char → List Char → List Char
  | [], _ => []
  | c :: cs, behind => smallForm before c (cs ++ behind) ++ lowerPart (c :: before) cs behind

/-- The small forms of a text are those of its parts in order. -/
theorem lowerFrom_append (before cs behind : List Char) :
    lowerFrom before (cs ++ behind) =
      lowerPart before cs behind ++ lowerFrom (cs.reverse ++ before) behind := by
  induction cs generalizing before with
  | nil => rfl
  | cons c cs ih =>
    rw [List.cons_append, lowerFrom_cons, ih, lowerPart, List.append_assoc, List.reverse_cons,
      List.append_assoc]
    rfl

theorem length_lowerPart (before cs behind : List Char) :
    (lowerPart before cs behind).length = width cs := by
  induction cs generalizing before with
  | nil => rfl
  | cons c cs ih =>
    rw [lowerPart, List.length_append, length_smallForm, ih, ← width_append]
    rfl

theorem lower_append (cs behind : List Char) :
    lower (cs ++ behind) = lowerPart [] cs behind ++ lowerFrom cs.reverse behind := by
  rw [lower, lowerFrom_append, List.append_nil]

theorem lower_eq (cs : List Char) : lower cs = lowerPart [] cs [] := by
  have whole := lower_append cs []
  rwa [List.append_nil, lowerFrom, List.append_nil] at whole

/-- A text grows in small letters by the number of its dotted capitals. -/
theorem length_lower (cs : List Char) : (lower cs).length = width cs := by
  rw [lower_eq, length_lowerPart]

/-- Without a capital sigma the small forms of a part do not hang on what is around it. -/
theorem lowerPart_plain {cs : List Char} (plain : 'Σ' ∉ cs) (before behind : List Char) :
    lowerPart before cs behind = cs.flatMap lowerChar := by
  induction cs generalizing before with
  | nil => rfl
  | cons c cs ih =>
    obtain ⟨here, later⟩ := List.ne_and_not_mem_of_not_mem_cons plain
    rw [lowerPart, ih later, smallForm, if_neg (Ne.symm here), List.flatMap_cons]

theorem lower_plain {cs : List Char} (plain : 'Σ' ∉ cs) : lower cs = cs.flatMap lowerChar := by
  rw [lower_eq, lowerPart_plain plain]

/-! ### Parts with a word among their small forms -/

/-- The character whose small form lies at a place. -/
theorem exists_form {cs : List Char} {n : Nat} (inside : n < width cs) :
    ∃ front c behind, cs = front ++ c :: behind ∧ width front ≤ n ∧ n < width front + width [c] := by
  induction cs generalizing n with
  | nil => exact absurd inside (Nat.not_lt_zero n)
  | cons c cs ih =>
    by_cases here : n < width [c]
    · exact ⟨[], c, cs, rfl, Nat.zero_le n, by simpa [width] using here⟩
    · have whole : width (c :: cs) = width [c] + width cs := width_append [c] cs
      obtain ⟨front, d, behind, rfl, from_here, to_there⟩ := ih (n := n - width [c]) (by omega)
      have longer : width (c :: front) = width [c] + width front := width_append [c] front
      exact ⟨c :: front, d, behind, rfl, by omega, by omega⟩

theorem width_singleton_le (c : Char) : width [c] ≤ 2 := by
  have := List.count_le_length (a := 'İ') (l := [c])
  simp only [width, List.length_singleton] at this ⊢
  omega

theorem eq_dotted_of_width {c : Char} (wide : 1 < width [c]) : c = 'İ' := by
  by_contra other
  rw [width_eq_length (by simpa using Ne.symm other)] at wide
  exact Nat.lt_irrefl _ wide

/-- A text with the part whose small forms hold a word. The word may begin behind the first half of
the form of a dotted capital, and end before the second half of one. -/
structure Match (word text front here behind early late : List Char) : Prop where
  text_eq : text = front ++ here ++ behind
  forms : lowerPart front.reverse here behind = early ++ word ++ late
  early_half : early = [] ∨ early.length = 1 ∧ here.head? = some 'İ'
  late_half : late = [] ∨ late.length = 1 ∧ here.getLast? = some 'İ'

namespace Match

variable {word text front here behind early late : List Char}

theorem width_here (m : Match word text front here behind early late) :
    width here = early.length + word.length + late.length := by
  rw [← length_lowerPart front.reverse here behind, m.forms, List.length_append,
    List.length_append]

/-- A match without dotted capitals is as long as the word. -/
theorem plain (m : Match word text front here behind early late) (plain : 'İ' ∉ here) :
    early = [] ∧ late = [] ∧ here.length = word.length := by
  have first : early = [] := m.early_half.resolve_right fun ⟨_, there⟩ =>
    plain (List.mem_of_mem_head? there)
  have last : late = [] := m.late_half.resolve_right fun ⟨_, there⟩ =>
    plain (List.mem_of_mem_getLast? there)
  refine ⟨first, last, ?_⟩
  have wide := m.width_here
  rw [width_eq_length plain, first, last] at wide
  simpa using wide

/-- A text with the match in it has the word among its own small forms, if the match has no capital
sigma. -/
theorem infix_lower (m : Match word text front here behind early late) (plain : 'Σ' ∉ here)
    (before after : List Char) : word <:+: lower (before ++ here ++ after) := by
  have forms : lowerPart before.reverse here after = early ++ word ++ late := by
    rw [lowerPart_plain plain, ← lowerPart_plain plain front.reverse behind, m.forms]
  have whole : lower (before ++ here ++ after) =
      (lowerPart [] before (here ++ after) ++ early) ++ word ++
        (late ++ lowerFrom (here.reverse ++ before.reverse) after) := by
    rw [List.append_assoc, lower_append, lowerFrom_append, forms]
    simp only [List.append_assoc]
  exact ⟨_, _, whole.symm⟩

end Match

/-- A word within the middle of three parts. -/
theorem exists_between {first middle last before word after : List Char}
    (same : first ++ (middle ++ last) = before ++ (word ++ after))
    (starts : first.length ≤ before.length)
    (ends : before.length + word.length ≤ first.length + middle.length) :
    ∃ early late, before = first ++ early ∧ middle = early ++ word ++ late := by
  obtain ⟨early, rfl⟩ := List.prefix_of_prefix_length_le ⟨_, same⟩ ⟨_, rfl⟩ starts
  rw [List.append_assoc, List.append_cancel_left_eq, ← List.append_assoc] at same
  rw [List.length_append, Nat.add_assoc, Nat.add_le_add_iff_left, ← List.length_append] at ends
  obtain ⟨late, middle⟩ := List.prefix_of_prefix_length_le ⟨_, same.symm⟩ ⟨_, rfl⟩ ends
  exact ⟨early, late, rfl, middle.symm⟩

/-- Less than the form of a character is nothing, or half of the form of a dotted capital. -/
theorem half_of_lt {c : Char} {part : List Char} (less : part.length < width [c]) :
    part = [] ∨ part.length = 1 ∧ c = 'İ' := by
  have narrow := width_singleton_le c
  cases part with
  | nil => exact .inl rfl
  | cons d part =>
    rw [List.length_cons] at less ⊢
    exact .inr ⟨by omega, eq_dotted_of_width (by omega)⟩

/-- A word at a place among the small forms of a text matches a part of the text, and the place is
that of the part in small letters, or one behind it. -/
theorem exists_match {word text : List Char} {n : Nat} (some_word : word ≠ [])
    (found : position? word (lower text) = some n) :
    ∃ front here behind early late, Match word text front here behind early late ∧
      n = width front + early.length := by
  obtain ⟨⟨before, rest⟩, cut, rfl⟩ := Option.map_eq_some_iff.mp found
  have whole := cutAtWord_eq cut
  have total : width text = before.length + word.length + rest.length := by
    rw [← length_lower, whole, List.length_append, List.length_append]
  have long : 0 < word.length := List.length_pos_iff.mpr some_word
  -- The first character of the match, and the last one from there on.
  have begins : before.length < width text := by omega
  obtain ⟨front, c, cs, rfl, from_first, to_first⟩ := exists_form begins
  rw [width_append] at total
  have ends : before.length + word.length - 1 - width front < width (c :: cs) := by omega
  obtain ⟨inner, d, behind, same, from_last, to_last⟩ := exists_form ends
  have text_eq : front ++ c :: cs = front ++ (inner ++ [d]) ++ behind := by
    rw [same]
    simp
  have here_width : width (inner ++ [d]) = width inner + width [d] := width_append inner [d]
  rw [text_eq, List.append_assoc front, lower_append, lowerFrom_append front.reverse,
    List.append_assoc before] at whole
  obtain ⟨early, late, before_eq, forms⟩ := exists_between whole
    (by rwa [length_lowerPart]) (by rw [length_lowerPart, length_lowerPart]; omega)
  have early_length : before.length = width front + early.length := by
    rw [before_eq, List.length_append, length_lowerPart]
  have here_length : width (inner ++ [d]) = early.length + word.length + late.length := by
    rw [← length_lowerPart front.reverse (inner ++ [d]) behind, forms, List.length_append,
      List.length_append]
  have first : (inner ++ [d]).head? = some c := by
    have head := congrArg List.head? same
    rw [List.head?_cons] at head
    rw [head]
    cases inner <;> rfl
  have opens : early = [] ∨ early.length = 1 ∧ c = 'İ' := half_of_lt (by omega)
  have closes : late = [] ∨ late.length = 1 ∧ d = 'İ' := half_of_lt (by omega)
  refine ⟨front, inner ++ [d], behind, early, late, ⟨text_eq, forms, ?_, ?_⟩, early_length⟩
  · exact opens.imp_right fun ⟨half, dotted⟩ => ⟨half, by rw [first, dotted]⟩
  · exact closes.imp_right fun ⟨half, dotted⟩ => ⟨half, by rw [List.getLast?_concat, dotted]⟩

end Runbook.Text
