import Runbook.Proofs.Json.Front
import Runbook.Proofs.Template.Source

/-! Templates in quotes.

Every text is a template: `Glyph` is what it consists of, a character or a placeholder at a time.
Filling puts a text in the place of each placeholder and leaves the characters (`fillAll_glyphs`).

A template may be data text itself, with placeholders between quotes. A placeholder has no quote and
no backslash, so it is read there as it stands; and what comes in for it, escaped, is read as what it
was before. So a text in quotes that is read with its placeholders is read with anything in their
places, and ends at the same quote (`exists_quotes`). -/
namespace Runbook.Template

open Json (Unpaired escapeAll textFrom)

/-- A character of a template or a placeholder in it. -/
inductive Glyph
  | char (c : Char)
  | slot (s : Slot)

namespace Glyph

def text (f : Slot → List Char) : Glyph → List Char
  | .char c => [c]
  | .slot s => f s

def slot? : Glyph → Option Slot
  | .char _ => none
  | .slot s => some s

def part : Glyph → Part
  | .char c => .char c
  | .slot s => .hole s.placeholder

end Glyph

/-- The text of glyphs, with `f` for the placeholders: with `Slot.text` it is the template itself. -/
def spell (f : Slot → List Char) (gs : List Glyph) : List Char := gs.flatMap (Glyph.text f)

def slots (gs : List Glyph) : List Slot := gs.filterMap Glyph.slot?

section
variable (f : Slot → List Char) (gs hs : List Glyph)

@[simp] theorem spell_nil : spell f [] = [] := rfl

@[simp] theorem spell_char (c : Char) : spell f (.char c :: gs) = c :: spell f gs := rfl

@[simp] theorem spell_slot (s : Slot) : spell f (.slot s :: gs) = f s ++ spell f gs := rfl

@[simp] theorem spell_append : spell f (gs ++ hs) = spell f gs ++ spell f hs :=
  List.flatMap_append

theorem spell_chars (cs : List Char) : spell f (cs.map .char ++ gs) = cs ++ spell f gs := by
  induction cs with
  | nil => rfl
  | cons c cs ih => rw [List.map_cons, List.cons_append, spell_char, ih, List.cons_append]

@[simp] theorem slots_char (c : Char) : slots (.char c :: gs) = slots gs := rfl

@[simp] theorem slots_slot (s : Slot) : slots (.slot s :: gs) = s :: slots gs := rfl

theorem slots_chars (cs : List Char) : slots (cs.map .char ++ gs) = slots gs := by
  induction cs with
  | nil => rfl
  | cons c cs ih => rw [List.map_cons, List.cons_append, slots_char, ih]

end

/-- The placeholders of a text. -/
def placeholders (cs : List Char) : List Placeholder :=
  (parts cs).filterMap fun
    | .char _ => none
    | .hole p => some p

theorem placeholders_eq {cs : List Char} {gs : List Glyph} (h : parts cs = gs.map Glyph.part) :
    placeholders cs = (slots gs).map Slot.placeholder := by
  rw [placeholders, h]
  clear h
  induction gs with
  | nil => rfl
  | cons g gs ih =>
    cases g with
    | char c => exact ih
    | slot s => exact congrArg (s.placeholder :: ·) ih

/-! ### Cutting -/

theorem exists_trimStart (cs : List Char) :
    ∃ blanks, Text.blank blanks = true ∧ blanks ++ Text.trimStart cs = cs :=
  ⟨cs.takeWhile Text.isBlank, List.all_takeWhile, List.takeWhile_append_dropWhile⟩

/-- What is behind the path of a placeholder, with or without the mark, up to its closing braces. -/
theorem exists_slot_of_closed {opened inside more rest : List Char} {c : Char} {escaped : Bool}
    {p : Placeholder} (first : Text.trimStart opened = c :: inside)
    (start : isNameStart c = true)
    (mark : (if escaped then ":json".toList else []) ++ more = inside.dropWhile isPathChar)
    (h : (match Text.trimStart more with
      | '}' :: '}' :: rest => some (⟨c :: inside.takeWhile isPathChar, escaped⟩, rest)
      | _ => none) = some (p, rest)) :
    ∃ s : Slot, s.placeholder = p ∧ '{' :: '{' :: opened = s.text ++ rest := by
  obtain ⟨before, blank_before, front⟩ := exists_trimStart opened
  obtain ⟨after, blank_after, back⟩ := exists_trimStart more
  have isPath : IsPath (c :: inside.takeWhile isPathChar) :=
    ⟨c, _, rfl, start, fun d there => List.mem_takeWhile_imp there⟩
  have path := List.takeWhile_append_dropWhile (p := isPathChar) (l := inside)
  split at h
  · rename_i last ends
    cases h
    refine ⟨⟨before, _, escaped, after, blank_before, isPath, blank_after⟩, rfl, ?_⟩
    rw [ends] at back
    rw [← front, first]
    conv_lhs => rw [← path, ← mark, ← back]
    simp [Slot.text, Slot.mark]
  · cases h

/-- What is found as a placeholder is written as one. -/
theorem exists_slot {cs rest : List Char} {p : Placeholder} (h : placeholder? cs = some (p, rest)) :
    ∃ s : Slot, s.placeholder = p ∧ cs = s.text ++ rest := by
  unfold placeholder? at h
  split at h
  · rename_i opened
    cases first : Text.trimStart opened with
    | nil =>
      rw [first] at h
      cases h
    | cons c inside =>
      rw [first] at h
      dsimp only at h
      by_cases start : isNameStart c = true
      · rw [if_pos start] at h
        cases marked : Text.after? ":json".toList (inside.dropWhile isPathChar) with
        | some more =>
          have mark := (Text.after?_eq marked).symm
          rw [marked] at h
          exact @exists_slot_of_closed _ _ _ _ _ true _ first start mark h
        | none =>
          rw [marked] at h
          exact @exists_slot_of_closed _ _ _ _ _ false _ first start rfl h
      · rw [if_neg start] at h
        cases h
  · cases h

/-- Every text is a template. -/
theorem exists_glyphs (cs : List Char) :
    ∃ gs, spell Slot.text gs = cs ∧ parts cs = gs.map Glyph.part := by
  have run (fuel : Nat) (cs : List Char) (enough : cs.length ≤ fuel) :
      ∃ gs, spell Slot.text gs = cs ∧ partsFrom fuel cs = gs.map Glyph.part := by
    induction fuel generalizing cs with
    | zero =>
      rw [List.length_eq_zero_iff.mp (Nat.le_zero.mp enough)]
      exact ⟨[], rfl, rfl⟩
    | succ fuel ih =>
      cases cs with
      | nil => exact ⟨[], rfl, rfl⟩
      | cons c cs =>
        rw [partsFrom]
        cases found : placeholder? (c :: cs) with
        | none =>
          obtain ⟨gs, whole, pieces⟩ := ih cs (Nat.le_of_succ_le_succ enough)
          refine ⟨.char c :: gs, ?_, ?_⟩
          · rw [spell_char, whole]
          · simp only [pieces, List.map_cons, Glyph.part]
        | some r =>
          obtain ⟨p, rest⟩ := r
          obtain ⟨s, rfl, front⟩ := exists_slot found
          have shorter : rest.length ≤ fuel := by
            have lengths := congrArg List.length front
            simp only [Slot.text, List.length_cons, List.length_append] at lengths enough
            omega
          obtain ⟨gs, whole, pieces⟩ := ih rest shorter
          refine ⟨.slot s :: gs, ?_, ?_⟩
          · rw [spell_slot, whole, front]
          · simp only [pieces, List.map_cons, Glyph.part]
  exact run cs.length cs (Nat.le_refl _)

/-! ### Filling -/

theorem fillAll_glyphs {scope : Scope} {f : Slot → List Char} {gs : List Glyph}
    (supplied : ∀ s ∈ slots gs, s.filled scope = .ok (f s)) :
    fillAll scope (gs.map Glyph.part) = .ok (spell f gs) := by
  induction gs with
  | nil => rfl
  | cons g gs ih =>
    cases g with
    | char c =>
      rw [List.map_cons, fillAll, ih supplied]
      rfl
    | slot s =>
      obtain ⟨here, behind⟩ := List.forall_mem_cons.mp supplied
      have filled : fill scope (.hole s.placeholder) = .ok (f s) := here
      rw [List.map_cons, fillAll, Glyph.part, filled, ih behind]
      rfl

/-! ### Slots -/

/-- What stands in a placeholder. -/
theorem Slot.forall_mem_text {P : Char → Prop} (s : Slot)
    (blanks : ∀ c, Text.isBlank c = true → P c) (path : ∀ c, isPathChar c = true → P c)
    (marks : ∀ c ∈ ":json{}".toList, P c) : ∀ c ∈ s.text, P c := by
  have start : ∀ c, isNameStart c = true → P c := fun c h =>
    path c (isPathChar_of_isNameChar (isNameChar_of_isNameStart h))
  intro c there
  simp only [text, List.mem_cons, List.mem_append, List.not_mem_nil, or_false] at there
  rcases there with rfl | rfl | (((before | inside) | mark) | after) | rfl | rfl
  · exact marks _ (by decide)
  · exact marks _ (by decide)
  · exact blanks c (List.all_eq_true.mp s.blank_before c before)
  · obtain ⟨d, ds, parts, first, behind⟩ := s.isPath
    rw [parts] at inside
    rcases List.mem_cons.mp inside with rfl | later
    · exact start _ first
    · exact path c (behind c later)
  · unfold Slot.mark at mark
    split at mark
    · refine marks c (List.mem_append_left _ mark)
    · cases mark
  · exact blanks c (List.all_eq_true.mp s.blank_after c after)
  · exact marks _ (by decide)
  · exact marks _ (by decide)

/-- A placeholder is plain text between quotes. -/
theorem Slot.plain (s : Slot) : ∀ c ∈ s.text, c ≠ '"' ∧ c ≠ '\\' := by
  have other {c d : Char} {p : Char → Bool} (here : p c = true) (there : p d = false) : c ≠ d := by
    intro same
    rw [same, there] at here
    cases here
  exact s.forall_mem_text (fun c blank => ⟨other blank rfl, other blank rfl⟩)
    (fun c inside => ⟨other inside rfl, other inside rfl⟩) (by simp)

/-! ### Characters in front -/

/-- Characters without a brace are of no placeholder. -/
theorem exists_chars {gs : List Glyph} {a rest : List Char}
    (h : spell Slot.text gs = a ++ rest) (noBrace : '{' ∉ a) :
    ∃ behind, gs = a.map .char ++ behind ∧ spell Slot.text behind = rest := by
  induction a generalizing gs with
  | nil => exact ⟨gs, rfl, h⟩
  | cons c a ih =>
    obtain ⟨here, later⟩ := List.ne_and_not_mem_of_not_mem_cons noBrace
    cases gs with
    | nil => cases h
    | cons g gs =>
      cases g with
      | slot s => exact absurd (List.cons.inj h).1 here
      | char d =>
        obtain ⟨same, more⟩ := List.cons.inj h
        obtain ⟨behind, rfl, last⟩ := ih more later
        exact ⟨behind, by rw [same]; rfl, last⟩

/-! ### Passing over a template -/

/-- Reading has come past some placeholders of a template and has the rest in front of it. -/
structure Passes (gs : List Glyph) (passed : List Slot) (behind : List Glyph) : Prop where
  suffix : behind <:+ gs
  slots_eq : slots gs = passed ++ slots behind
  unpaired : Unpaired (spell Slot.text gs) → Unpaired (spell Slot.text behind)

namespace Passes
variable {gs hs behind : List Glyph} {before after : List Slot}

theorem refl (gs : List Glyph) : Passes gs [] gs := ⟨List.suffix_refl gs, rfl, id⟩

theorem trans (h : Passes gs before hs) (h' : Passes hs after behind) :
    Passes gs (before ++ after) behind where
  suffix := h'.suffix.trans h.suffix
  slots_eq := by rw [h.slots_eq, h'.slots_eq, List.append_assoc]
  unpaired := h'.unpaired ∘ h.unpaired

theorem chars {a : List Char} (plain : '\\' ∉ a) (gs : List Glyph) :
    Passes (a.map .char ++ gs) [] gs where
  suffix := List.suffix_append ..
  slots_eq := slots_chars gs a
  unpaired h := by
    rw [spell_chars] at h
    exact h.append plain

theorem char {c : Char} (plain : c ≠ '\\') (gs : List Glyph) : Passes (.char c :: gs) [] gs :=
  chars (a := [c]) (mt List.mem_singleton.mp plain.symm) gs

theorem slot (s : Slot) (gs : List Glyph) : Passes (.slot s :: gs) [s] gs where
  suffix := List.suffix_cons ..
  slots_eq := rfl
  unpaired h := Unpaired.append h fun there => (s.plain _ there).2 rfl

theorem length_le (h : Passes gs before behind) (f : Slot → List Char) :
    (spell f behind).length ≤ (spell f gs).length := by
  obtain ⟨front, rfl⟩ := h.suffix
  rw [spell_append, List.length_append]
  exact Nat.le_add_left ..

end Passes

/-! ### Texts -/

/-- A template goes on between quotes with `inside` and goes on behind the closing one, whatever the
placeholders are filled with. -/
structure Quotes (gs inside behind : List Glyph) : Prop where
  passes : Passes gs (slots inside) behind
  read : ∀ (f : Slot → List Char) (start fuel : Nat) (acc : List Char),
    (spell (escapeAll ∘ f) gs).length < fuel →
      textFrom start fuel acc (spell (escapeAll ∘ f) gs) =
        .ok (String.ofList (acc.reverse ++ spell f inside), spell (escapeAll ∘ f) behind)

namespace Quotes
variable {gs inside behind : List Glyph}

/-- There is a closing quote, whatever comes in. -/
theorem ne_nil (h : Quotes gs inside behind) (f : Slot → List Char) :
    spell (escapeAll ∘ f) gs ≠ [] := by
  intro none
  have read := h.read f 0 1 [] (by rw [none]; exact Nat.one_pos)
  rw [none] at read
  cases read

theorem close (gs : List Glyph) : Quotes (.char '"' :: gs) [] gs where
  passes := .char (by decide) gs
  read f start fuel acc enough := by
    obtain ⟨fuel, rfl⟩ := Nat.exists_eq_succ_of_ne_zero (Nat.ne_zero_of_lt enough)
    rw [spell_nil, List.append_nil]
    rfl

theorem slot (s : Slot) (h : Quotes gs inside behind) :
    Quotes (.slot s :: gs) (.slot s :: inside) behind where
  passes := (Passes.slot s gs).trans h.passes
  read f start fuel acc enough := by
    have longer := Json.length_escapeAll (f s)
    rw [spell_slot, List.length_append, Function.comp_apply] at enough
    obtain ⟨fuel, rfl⟩ : ∃ n, fuel = (f s).length + n := ⟨fuel - (f s).length, by omega⟩
    rw [spell_slot, Function.comp_apply, Json.textFrom_escaped _ _ _ _ (h.ne_nil f),
      h.read f start fuel _ (by omega)]
    simp

/-- A character in front that is written as `c` and `taken`. -/
theorem char {c d : Char} {taken : List Char}
    (again : ∀ start more, more ≠ [] → Json.piece start (c :: (taken ++ more)) = .char d more)
    (unpaired : Unpaired (spell Slot.text gs)) (h : Quotes gs inside behind) :
    Quotes (.char c :: (taken.map .char ++ gs)) (.char d :: inside) behind where
  passes := by
    have front : Passes (.char c :: (taken.map .char ++ gs)) [] gs :=
      ⟨(List.suffix_append ..).trans (List.suffix_cons ..), slots_chars gs taken, fun _ => unpaired⟩
    exact front.trans h.passes
  read f start fuel acc enough := by
    rw [spell_char, spell_chars] at enough ⊢
    obtain ⟨fuel, rfl⟩ := Nat.exists_eq_succ_of_ne_zero (Nat.ne_zero_of_lt enough)
    rw [List.length_cons, List.length_append] at enough
    rw [textFrom, again start _ (h.ne_nil f)]
    dsimp only
    rw [h.read f start fuel _ (by omega), List.reverse_cons, List.append_assoc]
    rfl

end Quotes

/-- A text that is read with its placeholders is read with anything in their places. -/
theorem exists_quotes {start fuel : Nat} {acc rest : List Char} {gs : List Glyph} {s : String}
    (unpaired : Unpaired (spell Slot.text gs))
    (read : textFrom start fuel acc (spell Slot.text gs) = .ok (s, rest)) :
    ∃ inside behind, s = String.ofList (acc.reverse ++ spell Slot.text inside) ∧
      rest = spell Slot.text behind ∧ Quotes gs inside behind := by
  -- An escape takes more than one character at once, so the induction is on the length.
  induction length : gs.length using Nat.strongRecOn generalizing gs fuel acc with
  | ind n ih =>
    subst length
    cases fuel with
    | zero => cases read
    | succ fuel =>
      cases gs with
      | nil => cases read
      | cons g gs =>
        cases g with
        | slot s =>
          obtain ⟨fuel, behind⟩ := Json.textFrom_plain s.plain read
          obtain ⟨inside, more, rfl, rfl, quotes⟩ := ih gs.length (Nat.lt_succ_self _)
            ((Passes.slot s gs).unpaired unpaired) behind rfl
          refine ⟨.slot s :: inside, more, ?_, rfl, quotes.slot s⟩
          simp
        | char c =>
          rw [textFrom] at read
          split at read
          · rename_i more ends
            cases read
            obtain ⟨rfl, rfl⟩ := List.cons.inj (Json.eq_of_piece_done ends)
            exact ⟨[], gs, by simp, rfl, .close gs⟩
          · rename_i d more goesOn
            obtain ⟨e, taken, front, noBrace, single, again⟩ :=
              Json.exists_of_piece unpaired goesOn
            obtain ⟨rfl, rest_eq⟩ := List.cons.inj front
            obtain ⟨behind, rfl, rfl⟩ := exists_chars rest_eq noBrace
            obtain ⟨inside, last, rfl, rfl, quotes⟩ := ih behind.length
              (by simp only [List.length_cons, List.length_append]; omega) single read rfl
            refine ⟨.char d :: inside, last, ?_, rfl, quotes.char again single⟩
            simp
          · cases read

/-- A text in quotes is read as what is in quotes, with anything in the places of the
placeholders. -/
theorem exists_text {gs : List Glyph} {rest : List Char} {s : String}
    (unpaired : Unpaired (spell Slot.text gs))
    (read : Json.text (spell Slot.text gs) = .ok (s, rest)) :
    ∃ inside behind, s = String.ofList (spell Slot.text inside) ∧ rest = spell Slot.text behind ∧
      Passes gs (slots inside) behind ∧
      ∀ f : Slot → List Char, Json.text (spell (escapeAll ∘ f) gs) =
        .ok (String.ofList (spell f inside), spell (escapeAll ∘ f) behind) := by
  obtain ⟨inside, behind, rfl, rfl, quotes⟩ := exists_quotes unpaired read
  exact ⟨inside, behind, rfl, rfl, quotes.passes,
    fun f => quotes.read f _ _ [] (Nat.lt_succ_self _)⟩

end Runbook.Template
