import Mathlib.Data.List.TakeWhile
import Mathlib.Tactic.Tauto
import Runbook.Proofs.Results
import Runbook.Template

/-! What templates are filled with.

A text without an opening brace is its own text. A placeholder for a variable alone is filled
with the text of that variable, and a text that is nothing but such a placeholder stands for the
value itself. -/
namespace Runbook.Template

/-! ### Plain text -/

theorem placeholder?_of_ne {c : Char} (h : c ≠ '{') (cs : List Char) :
    placeholder? (c :: cs) = none := by
  unfold placeholder?
  split
  · rename_i same
    exact absurd (List.cons.inj same).1 h
  · rfl

/-- The pieces of a text that starts with plain characters. -/
theorem partsFrom_append {plain : List Char} (h : '{' ∉ plain) (fuel : Nat) (cs : List Char) :
    partsFrom (plain.length + fuel) (plain ++ cs) = plain.map .char ++ partsFrom fuel cs := by
  induction plain with
  | nil => simp
  | cons c plain ih =>
    obtain ⟨here, behind⟩ := List.ne_and_not_mem_of_not_mem_cons h
    rw [List.length_cons, Nat.add_right_comm, List.cons_append, partsFrom,
      placeholder?_of_ne (Ne.symm here)]
    simp only [ih behind, List.map_cons, List.cons_append]

/-- Enough fuel is as good as all of it. -/
theorem partsFrom_plain {cs : List Char} (h : '{' ∉ cs) {fuel : Nat} (enough : cs.length ≤ fuel) :
    partsFrom fuel cs = cs.map .char := by
  obtain ⟨more, rfl⟩ := Nat.exists_eq_add_of_le enough
  have run := partsFrom_append h more []
  rw [List.append_nil] at run
  rw [run]
  cases more <;> simp [partsFrom]

theorem parts_plain {cs : List Char} (h : '{' ∉ cs) : parts cs = cs.map .char :=
  partsFrom_plain h (Nat.le_refl _)

theorem fillAll_chars (scope : Scope) (cs : List Char) (rest : List Part) :
    fillAll scope (cs.map .char ++ rest) = (fillAll scope rest).map (cs ++ ·) := by
  induction cs with
  | nil => cases h : fillAll scope rest <;> simp [Except.map, h]
  | cons c cs ih =>
    simp only [List.map_cons, List.cons_append, fillAll, fill, ih]
    cases fillAll scope rest <;> rfl

/-- A text without an opening brace is left as it is. -/
theorem resolve_plain {s : String} (h : '{' ∉ s.toList) (scope : Scope) :
    resolve s scope = .ok s := by
  have filled := fillAll_chars scope s.toList []
  rw [List.append_nil] at filled
  rw [resolve, parts_plain h, filled]
  simp [fillAll, Except.map, bind, Except.bind, pure, Except.pure]

/-- An opening brace alone opens no placeholder. -/
theorem placeholder?_braced {cs : List Char} (h : ∀ rest, cs ≠ '{' :: rest) :
    placeholder? ('{' :: cs) = none := by
  unfold placeholder?
  split
  · rename_i rest same
    exact absurd (List.cons.inj same).2 (h rest)
  · rfl

/-- A text with one opening brace, in front, is left as it is. -/
theorem resolve_braced {cs : List Char} (h : '{' ∉ cs) (scope : Scope) :
    resolve (String.ofList ('{' :: cs)) scope = .ok (String.ofList ('{' :: cs)) := by
  have single : ∀ rest, cs ≠ '{' :: rest := by
    rintro rest rfl
    exact h (List.mem_cons_self ..)
  have cut : parts ('{' :: cs) = ('{' :: cs).map .char ++ [] := by
    rw [parts, List.length_cons, partsFrom, placeholder?_braced single, List.append_nil]
    simp only [partsFrom_plain h (Nat.le_refl _), List.map_cons]
  rw [resolve, String.toList_ofList, cut, fillAll_chars]
  simp [fillAll, Except.map, bind, Except.bind, pure, Except.pure]

/-- A text that does not open with a placeholder leaves at least its first character. -/
theorem resolve_isEmpty {s text : String} {c : Char} {cs : List Char} (opens : s.toList = c :: cs)
    (plain : placeholder? (c :: cs) = none) {scope : Scope} (h : resolve s scope = .ok text) :
    text.isEmpty = false := by
  rw [resolve, opens, parts, List.length_cons, partsFrom, plain] at h
  simp only [fillAll, fill] at h
  rcases behind : fillAll scope (partsFrom cs.length cs) with f | more <;> rw [behind] at h <;>
    cases h
  simp

/-! ### Names -/

/-- What a name may have behind its first character. -/
def isNameChar (c : Char) : Bool := Text.isWord c || c == '-'

/-- Whether a text is the name of a variable as a placeholder can hold it, without a path. -/
def IsName (name : String) : Prop :=
  ∃ c cs, name.toList = c :: cs ∧ isNameStart c = true ∧ ∀ d ∈ cs, isNameChar d = true

/-- The placeholder for a variable. -/
def holeFor (name : String) : String := String.ofList ('{' :: '{' :: (name.toList ++ ['}', '}']))

theorem isAsciiLetter_toNat {c : Char} (h : Text.isAsciiLetter c = true) :
    65 ≤ c.toNat ∧ c.toNat ≤ 122 := by
  simp only [Text.isAsciiLetter, Bool.or_eq_true, Bool.and_eq_true, decide_eq_true_eq] at h
  rcases h with ⟨low, high⟩ | ⟨low, high⟩
  · have least : 'a'.toNat ≤ c.toNat := low
    have greatest : c.toNat ≤ 'z'.toNat := high
    exact ⟨Nat.le_trans (by decide) least, greatest⟩
  · have least : 'A'.toNat ≤ c.toNat := low
    have greatest : c.toNat ≤ 'Z'.toNat := high
    exact ⟨least, Nat.le_trans greatest (by decide)⟩

theorem isNameStart_toNat {c : Char} (h : isNameStart c = true) :
    65 ≤ c.toNat ∧ c.toNat ≤ 122 := by
  rcases Bool.or_eq_true _ _ ▸ h with letter | underscore
  · exact isAsciiLetter_toNat letter
  · rw [beq_iff_eq.mp underscore]
    decide

theorem isNameChar_of_isNameStart {c : Char} (h : isNameStart c = true) :
    isNameChar c = true := by
  have ascii : c.toNat < 128 := Nat.lt_of_le_of_lt (isNameStart_toNat h).2 (by decide)
  simp only [isNameStart, Bool.or_eq_true] at h
  simp only [isNameChar, Text.isWord, ascii, if_true, Bool.or_eq_true]
  tauto

/-- Every character of a name stands behind the marks and brackets of ASCII but a few, and behind
its controls. -/
theorem toNat_of_isNameChar {c : Char} (h : isNameChar c = true) : 45 ≤ c.toNat := by
  simp only [isNameChar, Bool.or_eq_true, beq_iff_eq] at h
  rcases h with word | rfl
  · unfold Text.isWord at word
    split at word
    · simp only [Bool.or_eq_true, beq_iff_eq] at word
      obtain (letter | digit) | rfl := word
      · exact Nat.le_trans (by decide) (isAsciiLetter_toNat letter).1
      · simp only [Text.isAsciiDigit, Bool.and_eq_true, decide_eq_true_eq] at digit
        have : '0'.toNat ≤ c.toNat := digit.1
        exact Nat.le_trans (by decide) this
      · decide
    · omega
  · decide

theorem IsName.isNameChar {name : String} (h : IsName name) :
    ∀ c ∈ name.toList, isNameChar c = true := by
  obtain ⟨c, cs, chars, start, behind⟩ := h
  rw [chars]
  exact List.forall_mem_cons.mpr ⟨isNameChar_of_isNameStart start, behind⟩

/-- A name has no character that means something in a template or in quotes. -/
theorem IsName.not_mem {name : String} (h : IsName name) {c : Char}
    (special : Template.isNameChar c = false) : c ∉ name.toList := by
  intro there
  rw [h.isNameChar c there] at special
  cases special

theorem IsName.ne_empty {name : String} (h : IsName name) : name ≠ "" := by
  rintro rfl
  obtain ⟨c, cs, chars, -⟩ := h
  cases chars

theorem isPathMark_of_isNameChar {c : Char} (h : isNameChar c = true) : isPathMark c = false := by
  cases mark : isPathMark c with
  | false => rfl
  | true =>
    simp only [isPathMark, Bool.or_eq_true, beq_iff_eq] at mark
    obtain (rfl | rfl) | rfl := mark <;> cases h

theorem isPathChar_of_isNameChar {c : Char} (h : isNameChar c = true) : isPathChar c = true := by
  simp only [isNameChar, Bool.or_eq_true] at h
  simp only [isPathChar, Bool.or_eq_true]
  tauto

theorem isBlank_of_isNameStart {c : Char} (h : isNameStart c = true) : Text.isBlank c = false := by
  obtain ⟨low, high⟩ := isNameStart_toNat h
  simp only [Text.isBlank, Bool.or_eq_false_iff, Bool.and_eq_false_imp, decide_eq_true_eq,
    decide_eq_false_iff_not, beq_eq_false_iff_ne]
  omega

theorem placeholder?_holeFor {name : String} (h : IsName name) (rest : List Char) :
    placeholder? ('{' :: '{' :: (name.toList ++ '}' :: '}' :: rest)) =
      some (⟨name.toList, false⟩, rest) := by
  obtain ⟨c, cs, chars, start, behind⟩ := h
  have inside : ∀ d ∈ cs, isPathChar d = true := fun d hd => isPathChar_of_isNameChar (behind d hd)
  have taken : (cs ++ '}' :: '}' :: rest).takeWhile isPathChar = cs := by
    rw [List.takeWhile_append_of_pos inside]
    exact List.append_right_eq_self.mpr rfl
  have left : (cs ++ '}' :: '}' :: rest).dropWhile isPathChar = '}' :: '}' :: rest := by
    rw [List.dropWhile_append_of_pos inside]
    rfl
  have first : Text.trimStart (c :: (cs ++ '}' :: '}' :: rest)) = c :: (cs ++ '}' :: '}' :: rest) :=
    List.dropWhile_cons_of_neg (by simp [isBlank_of_isNameStart start])
  rw [chars]
  simp only [placeholder?, List.cons_append, first, start, if_true, taken, left]
  rfl

/-- The pieces of a text that starts with a placeholder for a variable. -/
theorem partsFrom_holeFor {name : String} (h : IsName name) {after : List Char}
    (hafter : '{' ∉ after) :
    partsFrom ((holeFor name).toList.length + after.length) ((holeFor name).toList ++ after) =
      .hole ⟨name.toList, false⟩ :: after.map .char := by
  have opened : (holeFor name).toList ++ after =
      '{' :: '{' :: (name.toList ++ '}' :: '}' :: after) := by simp [holeFor]
  have enough : after.length ≤ (name.toList ++ ['}', '}']).length + 1 + after.length :=
    Nat.le_add_left ..
  rw [opened, holeFor, String.toList_ofList, List.length_cons, List.length_cons,
    Nat.add_right_comm, partsFrom, placeholder?_holeFor h]
  simp only [partsFrom_plain hafter enough]

/-- A placeholder in front is filled with the text of the value, and what is behind it is left as it
is. -/
theorem resolve_front {name : String} (h : IsName name) {scope : Scope} {v : Value} {text : String}
    (found : lookup name.toList scope = .ok v) (written : Literal.stringify v = .ok text)
    {after : String} (hafter : '{' ∉ after.toList) :
    resolve (holeFor name ++ after) scope = .ok (text ++ after) := by
  have cut : parts ((holeFor name).toList ++ after.toList) =
      .hole ⟨name.toList, false⟩ :: (after.toList.map .char ++ []) := by
    rw [parts, List.length_append, partsFrom_holeFor h hafter, List.append_nil]
  rw [resolve, String.toList_append, cut, fillAll, fill, found, fillAll_chars]
  simp [written, fillAll, Except.map, bind, Except.bind, pure, Except.pure]

/-- What stands around a placeholder for a variable is left as it is, and the placeholder is filled
with the text of the value. A brace may stand in front, if something else is behind it. -/
theorem resolve_around {name : String} (h : IsName name) {scope : Scope} {v : Value} {text : String}
    (found : lookup name.toList scope = .ok v) (written : Literal.stringify v = .ok text)
    {before after : List Char} (some_before : before ≠ []) (hbefore : '{' ∉ before)
    (hafter : '{' ∉ after) :
    resolve (String.ofList ('{' :: (before ++ ((holeFor name).toList ++ after)))) scope =
      .ok (String.ofList ('{' :: (before ++ (text.toList ++ after)))) := by
  have single : ∀ rest, before ++ ((holeFor name).toList ++ after) ≠ '{' :: rest := by
    intro rest same
    cases before with
    | nil => exact some_before rfl
    | cons b before =>
      cases same
      exact hbefore (List.mem_cons_self ..)
  have cut : parts ('{' :: (before ++ ((holeFor name).toList ++ after))) =
      ('{' :: before).map .char ++ (.hole ⟨name.toList, false⟩ :: (after.map .char ++ [])) := by
    rw [parts, List.length_cons, partsFrom, placeholder?_braced single, List.length_append,
      List.length_append]
    simp only [partsFrom_append hbefore, partsFrom_holeFor h hafter, List.map_cons,
      List.cons_append, List.append_nil]
  rw [resolve, String.toList_ofList, cut, fillAll_chars, fillAll, fill, found, fillAll_chars]
  simp [written, fillAll, Except.map, bind, Except.bind, pure, Except.pure]

theorem pathSteps_name {name : String} (h : IsName name) :
    pathSteps name.toList = [name.toList] := by
  have unmarked : ∀ d ∈ name.toList, isPathMark d = false :=
    fun d hd => isPathMark_of_isNameChar (h.isNameChar d hd)
  obtain ⟨c, cs, chars, -, -⟩ := h
  rw [chars] at unmarked ⊢
  obtain ⟨here, behind⟩ := List.forall_mem_cons.mp unmarked
  have run : cs.takeWhile (!isPathMark ·) = cs :=
    List.takeWhile_eq_self_iff.mpr fun d hd => by simp [behind d hd]
  have opens : c ≠ '[' := by
    rintro rfl
    cases here
  rw [pathSteps, List.length_cons, steps, if_neg opens, here]
  simp only [Bool.false_eq_true, if_false, run, List.drop_length]
  cases cs <;> rfl

/-- The path that is a name leads to the variable. -/
theorem lookup_name {name : String} (h : IsName name) {scope : Scope} {v : Value}
    (bound : scope.get? name = some v) : lookup name.toList scope = .ok v := by
  rw [lookup, pathSteps_name h]
  simp [bound]

theorem whole?_holeFor {name : String} (h : IsName name) :
    whole? (holeFor name).toList = some ⟨name.toList, false⟩ := by
  have trimmed : Text.trim ('{' :: '{' :: (name.toList ++ ['}', '}'])) =
      '{' :: '{' :: (name.toList ++ ['}', '}']) := by
    have := Text.trim_eq_self (show Text.isBlank '{' = false by decide)
      (show Text.isBlank '}' = false by decide) ('{' :: (name.toList ++ ['}']))
    simpa using this
  rw [whole?, holeFor, String.toList_ofList, trimmed, placeholder?_holeFor h]

/-- A text that is nothing but the placeholder for a variable stands for its value, whatever that
is. -/
theorem resolveValue_holeFor {name : String} (h : IsName name) {scope : Scope} {v : Value}
    (bound : scope.get? name = some v) (some_value : v ≠ .null) :
    resolveValue (holeFor name) scope = .ok v := by
  rw [resolveValue, whole?_holeFor h]
  simp only [lookup_name h bound, bind, Except.bind]
  split
  · exact absurd rfl some_value
  · rfl

end Runbook.Template
