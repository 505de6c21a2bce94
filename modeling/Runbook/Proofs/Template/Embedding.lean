import Runbook.Proofs.Json.Front
import Runbook.Proofs.Template.Quoted

/-! Values embedded in data.

A template that is data text stands for a value with placeholders in its texts, a `Form`. What is
outside of quotes has no placeholder: two braces in a row are no data. So the text that is left when
the placeholders are filled, escaped, is read as the form is, step by step, with what came in for
each placeholder in its place (`uniform_value`).

`resolve_embeds`: where all placeholders ask for escaping, what is left of the template is data text,
of the same value but for its texts: each has, in the place of a placeholder, the text of the value
that its path leads to, character by character. No text that comes in ends the text it comes into,
and none changes what the data consist of. -/
namespace Runbook.Template

open Json (Unpaired escapeAll Stops)

/-! ### Forms -/

/-- A value with placeholders in its texts and keys. -/
inductive Form
  | scalar (s : Scalar)
  | text (gs : List Glyph)
  | list (items : List Form)
  | map (entries : List (List Glyph × Form))

namespace Form

mutual

/-- The value with `f` for the placeholders. -/
def value (f : Slot → List Char) : Form → Value
  | .scalar s => .scalar s
  | .text gs => .str (String.ofList (spell f gs))
  | .list items => .list (values f items)
  | .map entries => .map (Entries.ofList (pairs f entries))

def values (f : Slot → List Char) : List Form → List Value
  | [] => []
  | v :: rest => v.value f :: values f rest

def pairs (f : Slot → List Char) : List (List Glyph × Form) → List (Scalar × Value)
  | [] => []
  | (k, v) :: rest => (.str (String.ofList (spell f k)), v.value f) :: pairs f rest

end

mutual

/-- The placeholders, from the left. -/
def slots : Form → List Slot
  | .scalar _ => []
  | .text gs => Template.slots gs
  | .list items => slotsOfItems items
  | .map entries => slotsOfEntries entries

def slotsOfItems : List Form → List Slot
  | [] => []
  | v :: rest => v.slots ++ slotsOfItems rest

def slotsOfEntries : List (List Glyph × Form) → List Slot
  | [] => []
  | (k, v) :: rest => Template.slots k ++ v.slots ++ slotsOfEntries rest

end

end Form

/-! ### Outside of quotes -/

/-- Whether no placeholder is at the front. -/
def Clear (gs : List Glyph) : Prop := ∀ s more, gs ≠ .slot s :: more

theorem clear_char (c : Char) (gs : List Glyph) : Clear (.char c :: gs) := nofun

/-- What may stand behind a value: nothing that could be of a name or a number, and no brace that
opens. -/
def Ends (rest : List Char) : Prop := ∀ c ∈ rest.head?, Json.inAtom c = false ∧ c ≠ '{'

/-- What ends a value in the template ends it in any text that is left of it. -/
theorem Ends.stops {gs : List Glyph} (ends : Ends (spell Slot.text gs)) (f : Slot → List Char) :
    Stops (spell f gs) := by
  intro c first
  cases gs with
  | nil => cases first
  | cons g gs =>
    cases g with
    | char d =>
      cases first
      exact (ends _ rfl).1
    | slot s => exact absurd rfl (ends '{' rfl).2

theorem isSpace_ends {c : Char} (h : Json.isSpace c = true) : Json.inAtom c = false ∧ c ≠ '{' := by
  simp only [Json.isSpace, Bool.or_eq_true, beq_iff_eq] at h
  rcases h with ((rfl | rfl) | rfl) | rfl <;> exact ⟨rfl, by decide⟩

theorem ends_of_skipSpace {cs rest : List Char} {c : Char} (h : Json.skipSpace cs = c :: rest)
    (mark : Json.inAtom c = false ∧ c ≠ '{') : Ends cs := by
  intro d first
  cases cs with
  | nil => cases first
  | cons e cs =>
    cases first
    by_cases blank : Json.isSpace d = true
    · exact isSpace_ends blank
    · rw [Json.skipSpace_cons (Bool.eq_false_iff.mpr blank)] at h
      cases h
      exact mark

/-- Blanks are passed over in the template as in any text that is left of it. -/
theorem exists_skipSpace (gs : List Glyph) :
    ∃ behind, Json.skipSpace (spell Slot.text gs) = spell Slot.text behind ∧ Passes gs [] behind ∧
      (Clear behind → Clear gs ∧ ∀ f, Json.skipSpace (spell f gs) = spell f behind) := by
  induction gs with
  | nil => exact ⟨[], rfl, .refl [], fun clear => ⟨clear, fun _ => rfl⟩⟩
  | cons g gs ih =>
    cases g with
    | slot s => exact ⟨_, rfl, .refl _, fun clear => absurd rfl (clear s gs)⟩
    | char c =>
      by_cases blank : Json.isSpace c = true
      · obtain ⟨behind, here, passes, filled⟩ := ih
        have plain : c ≠ '\\' := by
          intro same
          rw [same] at blank
          cases blank
        have skip (cs : List Char) : Json.skipSpace (c :: cs) = Json.skipSpace cs :=
          List.dropWhile_cons_of_pos blank
        refine ⟨behind, ?_, (Passes.char plain gs).trans passes,
          fun clear => ⟨clear_char c gs, fun f => ?_⟩⟩
        · rw [spell_char, skip, here]
        · rw [spell_char, skip, (filled clear).2 f]
      · have solid := Bool.eq_false_iff.mpr blank
        exact ⟨.char c :: gs, Json.skipSpace_cons solid _, .refl _,
          fun clear => ⟨clear, fun f => Json.skipSpace_cons solid _⟩⟩

/-- A mark behind blanks. -/
theorem exists_mark {gs : List Glyph} {c : Char} {rest : List Char}
    (h : Json.skipSpace (spell Slot.text gs) = c :: rest) (noBrace : c ≠ '{') (plain : c ≠ '\\') :
    ∃ behind, rest = spell Slot.text behind ∧ Passes gs [] behind ∧
      ∀ f, Json.skipSpace (spell f gs) = c :: spell f behind := by
  obtain ⟨front, here, passes, filled⟩ := exists_skipSpace gs
  obtain ⟨behind, rfl, rfl⟩ := exists_chars (a := [c]) (here.symm.trans h)
    (mt List.mem_singleton.mp noBrace.symm)
  exact ⟨behind, rfl, passes.trans (.char plain behind), (filled (clear_char c behind)).2⟩

/-! ### Readers -/

/-- A template is read as a form, whatever the placeholders are filled with. -/
structure Reads (item : List Char → Json.Read Value) (gs : List Glyph) (form : Form)
    (behind : List Glyph) : Prop where
  clear : Clear gs
  passes : Passes gs form.slots behind
  read : ∀ f : Slot → List Char, item (spell (escapeAll ∘ f) gs) =
    .ok (form.value f, spell (escapeAll ∘ f) behind)

/-- What was read of a template, and what is behind it, come from a form. -/
def HasForm (item : List Char → Json.Read Value) (gs : List Glyph) (v : Value)
    (rest : List Char) : Prop :=
  ∃ form behind, v = form.value Slot.text ∧ rest = spell Slot.text behind ∧
    Reads item gs form behind

/-- What is read of a template is read of every text that is left of it. -/
def Uniform (item : List Char → Json.Read Value) : Prop :=
  ∀ gs v rest, Unpaired (spell Slot.text gs) → Ends rest →
    item (spell Slot.text gs) = .ok (v, rest) → HasForm item gs v rest

section Containers
variable {item : List Char → Json.Read Value}

/-- A part of a container is read up to the mark behind it. -/
theorem Uniform.exists_part (uniform : Uniform item) {gs : List Glyph} {v : Value}
    {cs rest : List Char} {c : Char} (unpaired : Unpaired (spell Slot.text gs))
    (read : item (spell Slot.text gs) = .ok (v, cs)) (mark : Json.skipSpace cs = c :: rest)
    (outside : c ∈ [',', ']', '}']) :
    ∃ (form : Form) (behind : List Glyph), v = form.value Slot.text ∧
      rest = spell Slot.text behind ∧ Clear gs ∧
      Passes gs form.slots behind ∧ ∀ f : Slot → List Char, ∃ more,
        item (spell (escapeAll ∘ f) gs) = .ok (form.value f, more) ∧
        Json.skipSpace more = c :: spell (escapeAll ∘ f) behind ∧
        (spell (escapeAll ∘ f) behind).length < (spell (escapeAll ∘ f) gs).length := by
  obtain ⟨atom, noBrace, plain⟩ : Json.inAtom c = false ∧ c ≠ '{' ∧ c ≠ '\\' := by
    simp only [List.mem_cons, List.not_mem_nil, or_false] at outside
    rcases outside with rfl | rfl | rfl <;> decide
  obtain ⟨form, mid, rfl, rfl, reads⟩ :=
    uniform gs v cs unpaired (ends_of_skipSpace mark ⟨atom, noBrace⟩) read
  obtain ⟨behind, rfl, passes, again⟩ := exists_mark mark noBrace plain
  refine ⟨form, behind, rfl, rfl, reads.clear, ?_, fun f => ⟨_, reads.read f, again _, ?_⟩⟩
  · simpa using reads.passes.trans passes
  · exact Nat.lt_of_lt_of_le (Json.length_lt_of_skipSpace (again _)) (reads.passes.length_le _)

theorem exists_itemsFrom (uniform : Uniform item) {fuel : Nat} {acc vs : List Value}
    {gs : List Glyph} {rest : List Char} (unpaired : Unpaired (spell Slot.text gs))
    (read : Json.itemsFrom item fuel acc (spell Slot.text gs) = .ok (vs, rest)) :
    ∃ forms behind, vs = acc.reverse ++ Form.values Slot.text forms ∧
      rest = spell Slot.text behind ∧ Clear gs ∧ Passes gs (Form.slotsOfItems forms) behind ∧
      ∀ (f : Slot → List Char) fuel acc, (spell (escapeAll ∘ f) gs).length < fuel →
        Json.itemsFrom item fuel acc (spell (escapeAll ∘ f) gs) =
          .ok (acc.reverse ++ Form.values f forms, spell (escapeAll ∘ f) behind) := by
  induction fuel generalizing acc gs with
  | zero => cases read
  | succ fuel ih =>
    obtain ⟨v, cs, here, read⟩ := Json.itemsFrom_cases read
    rcases read with ⟨closes, rfl⟩ | ⟨next, goesOn, read⟩
    · obtain ⟨form, behind, rfl, rfl, clear, passes, part⟩ :=
        uniform.exists_part unpaired here closes (by decide)
      refine ⟨[form], behind, ?_, rfl, clear, ?_, fun f fuel acc enough => ?_⟩
      · simp [Form.values]
      · simpa [Form.slotsOfItems] using passes
      · obtain ⟨fuel, rfl⟩ := Nat.exists_eq_succ_of_ne_zero (Nat.ne_zero_of_lt enough)
        obtain ⟨more, first, mark, -⟩ := part f
        rw [Json.itemsFrom_last first mark]
        simp [Form.values]
    · obtain ⟨form, next, rfl, rfl, clear, passes, part⟩ :=
        uniform.exists_part unpaired here goesOn (by decide)
      obtain ⟨front, skipped, blanks, filled⟩ := exists_skipSpace next
      have sofar := passes.trans blanks
      rw [skipped] at read
      obtain ⟨forms, behind, rfl, rfl, clear', later, again⟩ := ih (sofar.unpaired unpaired) read
      refine ⟨form :: forms, behind, ?_, rfl, clear, ?_, fun f fuel acc enough => ?_⟩
      · simp [Form.values]
      · simpa [Form.slotsOfItems] using sofar.trans later
      · obtain ⟨fuel, rfl⟩ := Nat.exists_eq_succ_of_ne_zero (Nat.ne_zero_of_lt enough)
        obtain ⟨more, first, mark, shorter⟩ := part f
        have length := blanks.length_le (escapeAll ∘ f)
        rw [Json.itemsFrom_comma first mark, (filled clear').2, again f fuel _ (by omega)]
        simp [Form.values]

/-- What is no mark in the template is none in any text that is left of it. -/
theorem Clear.ne {gs : List Glyph} (clear : Clear gs) {c : Char}
    (h : ∀ rest, spell Slot.text gs ≠ c :: rest) (f : Slot → List Char) :
    ∀ rest, spell f gs ≠ c :: rest := by
  intro rest same
  cases gs with
  | nil => cases same
  | cons g gs =>
    cases g with
    | char d =>
      obtain ⟨rfl, -⟩ := List.cons.inj same
      exact h _ rfl
    | slot s => exact clear s gs rfl

theorem exists_items (uniform : Uniform item) {vs : List Value} {gs : List Glyph}
    {rest : List Char} (unpaired : Unpaired (spell Slot.text gs))
    (read : Json.items item (spell Slot.text gs) = .ok (vs, rest)) :
    ∃ forms behind, vs = Form.values Slot.text forms ∧ rest = spell Slot.text behind ∧
      Passes gs (Form.slotsOfItems forms) behind ∧
      ∀ f : Slot → List Char, Json.items item (spell (escapeAll ∘ f) gs) =
        .ok (Form.values f forms, spell (escapeAll ∘ f) behind) := by
  by_cases closes : ∃ more, Json.skipSpace (spell Slot.text gs) = ']' :: more
  · obtain ⟨more, closes⟩ := closes
    obtain ⟨behind, rfl, passes, again⟩ := exists_mark closes (by decide) (by decide)
    rw [Json.items, closes] at read
    cases read
    refine ⟨[], behind, rfl, rfl, passes, fun f => ?_⟩
    rw [Json.items, again]
    rfl
  · have open_list := not_exists.mp closes
    obtain ⟨front, skipped, blanks, filled⟩ := exists_skipSpace gs
    rw [skipped] at open_list
    rw [Json.items_of_ne skipped open_list] at read
    obtain ⟨forms, behind, rfl, rfl, clear, later, again⟩ :=
      exists_itemsFrom uniform (blanks.unpaired unpaired) read
    refine ⟨forms, behind, rfl, rfl, blanks.trans later, fun f => ?_⟩
    rw [Json.items_of_ne ((filled clear).2 _) (clear.ne open_list _),
      again f _ [] (Nat.lt_succ_self _)]
    rfl

/-- The key of an entry, its colon and the blanks in front of the value. -/
theorem exists_entryKey {gs : List Glyph} {inside rest more : List Char} {key : String}
    (unpaired : Unpaired (spell Slot.text gs)) (opens : spell Slot.text gs = '"' :: inside)
    (named : Json.text inside = .ok (key, rest)) (colon : Json.skipSpace rest = ':' :: more) :
    ∃ k front, key = String.ofList (spell Slot.text k) ∧
      Json.skipSpace more = spell Slot.text front ∧ Clear gs ∧ Passes gs (slots k) front ∧
      (Clear front → ∀ f : Slot → List Char, ∃ inside rest more,
        spell (escapeAll ∘ f) gs = '"' :: inside ∧
        Json.text inside = .ok (String.ofList (spell f k), rest) ∧
        Json.skipSpace rest = ':' :: more ∧
        Json.skipSpace more = spell (escapeAll ∘ f) front) := by
  obtain ⟨opened, rfl, rfl⟩ := exists_chars (a := ['"']) opens (by decide)
  have quote : Passes (.char '"' :: opened) [] opened := .char (by decide) opened
  obtain ⟨k, mid, rfl, rfl, text, again⟩ := exists_text (quote.unpaired unpaired) named
  obtain ⟨behind, rfl, passes, mark⟩ := exists_mark colon (by decide) (by decide)
  obtain ⟨front, skipped, blanks, filled⟩ := exists_skipSpace behind
  refine ⟨k, front, rfl, skipped, clear_char '"' opened, ?_, fun clear f =>
    ⟨_, _, _, rfl, again f, mark _, (filled clear).2 _⟩⟩
  simpa using quote.trans (text.trans (passes.trans blanks))

theorem exists_entriesFrom (uniform : Uniform item) {fuel : Nat} {acc es : List (Scalar × Value)}
    {gs : List Glyph} {rest : List Char} (unpaired : Unpaired (spell Slot.text gs))
    (read : Json.entriesFrom item fuel acc (spell Slot.text gs) = .ok (es, rest)) :
    ∃ forms behind, es = Entries.ofList (acc.reverse ++ Form.pairs Slot.text forms) ∧
      rest = spell Slot.text behind ∧ Clear gs ∧ Passes gs (Form.slotsOfEntries forms) behind ∧
      ∀ (f : Slot → List Char) fuel acc, (spell (escapeAll ∘ f) gs).length < fuel →
        Json.entriesFrom item fuel acc (spell (escapeAll ∘ f) gs) =
          .ok (Entries.ofList (acc.reverse ++ Form.pairs f forms),
            spell (escapeAll ∘ f) behind) := by
  induction fuel generalizing acc gs with
  | zero => cases read
  | succ fuel ih =>
    obtain ⟨inside, key, behindKey, more, opens, named, colon⟩ := Json.exists_key read
    obtain ⟨k, front, rfl, skipped, clear, passesKey, refilled⟩ :=
      exists_entryKey unpaired opens named colon
    rw [opens, Json.entriesFrom_named named colon, skipped] at read
    obtain ⟨v, cs, here, read⟩ := Json.entryFrom_cases read
    rcases read with ⟨closes, rfl⟩ | ⟨next, goesOn, read⟩
    · obtain ⟨form, behind, rfl, rfl, clear', passes, part⟩ :=
        uniform.exists_part (passesKey.unpaired unpaired) here closes (by decide)
      refine ⟨[(k, form)], behind, ?_, rfl, clear, ?_, fun f fuel acc enough => ?_⟩
      · simp [Form.pairs]
      · simpa [Form.slotsOfEntries] using passesKey.trans passes
      · obtain ⟨fuel, rfl⟩ := Nat.exists_eq_succ_of_ne_zero (Nat.ne_zero_of_lt enough)
        obtain ⟨_, _, _, quote, name, mark, blanks⟩ := refilled clear' f
        obtain ⟨last, first, closing, -⟩ := part f
        rw [quote, Json.entriesFrom_named name mark, blanks, Json.entryFrom_last first closing]
        simp [Form.pairs]
    · obtain ⟨form, next, rfl, rfl, clear', passes, part⟩ :=
        uniform.exists_part (passesKey.unpaired unpaired) here goesOn (by decide)
      obtain ⟨start, skippedNext, blanksNext, filled⟩ := exists_skipSpace next
      have sofar := (passesKey.trans passes).trans blanksNext
      rw [skippedNext] at read
      obtain ⟨forms, behind, rfl, rfl, clearNext, later, again⟩ := ih (sofar.unpaired unpaired) read
      refine ⟨(k, form) :: forms, behind, ?_, rfl, clear, ?_, fun f fuel acc enough => ?_⟩
      · simp [Form.pairs]
      · simpa [Form.slotsOfEntries] using sofar.trans later
      · obtain ⟨fuel, rfl⟩ := Nat.exists_eq_succ_of_ne_zero (Nat.ne_zero_of_lt enough)
        obtain ⟨_, _, _, quote, name, mark, blanks⟩ := refilled clear' f
        obtain ⟨last, first, comma, shorter⟩ := part f
        have lengthKey := passesKey.length_le (escapeAll ∘ f)
        have lengthNext := blanksNext.length_le (escapeAll ∘ f)
        rw [quote, Json.entriesFrom_named name mark, blanks, Json.entryFrom_comma first comma,
          (filled clearNext).2, again f fuel _ (by omega)]
        simp [Form.pairs]

theorem exists_entries (uniform : Uniform item) {es : List (Scalar × Value)} {gs : List Glyph}
    {rest : List Char} (unpaired : Unpaired (spell Slot.text gs))
    (read : Json.entries item (spell Slot.text gs) = .ok (es, rest)) :
    ∃ forms behind, es = Entries.ofList (Form.pairs Slot.text forms) ∧
      rest = spell Slot.text behind ∧ Passes gs (Form.slotsOfEntries forms) behind ∧
      ∀ f : Slot → List Char, Json.entries item (spell (escapeAll ∘ f) gs) =
        .ok (Entries.ofList (Form.pairs f forms), spell (escapeAll ∘ f) behind) := by
  by_cases closes : ∃ more, Json.skipSpace (spell Slot.text gs) = '}' :: more
  · obtain ⟨more, closes⟩ := closes
    obtain ⟨behind, rfl, passes, again⟩ := exists_mark closes (by decide) (by decide)
    rw [Json.entries, closes] at read
    cases read
    refine ⟨[], behind, rfl, rfl, passes, fun f => ?_⟩
    rw [Json.entries, again]
    rfl
  · have open_map := not_exists.mp closes
    obtain ⟨front, skipped, blanks, filled⟩ := exists_skipSpace gs
    rw [skipped] at open_map
    rw [Json.entries_of_ne skipped open_map] at read
    obtain ⟨forms, behind, rfl, rfl, clear, later, again⟩ :=
      exists_entriesFrom uniform (blanks.unpaired unpaired) read
    refine ⟨forms, behind, rfl, rfl, blanks.trans later, fun f => ?_⟩
    rw [Json.entries_of_ne ((filled clear).2 _) (clear.ne open_map _),
      again f _ [] (Nat.lt_succ_self _)]
    rfl

end Containers

/-! ### Values -/

/-- A name or a number has no placeholder. -/
theorem exists_atom {gs : List Glyph} {v : Value} {rest : List Char} (ends : Ends rest)
    (read : Json.atom (spell Slot.text gs) = .ok (v, rest)) :
    ∃ s behind, v = .scalar s ∧ rest = spell Slot.text behind ∧ Clear gs ∧ Passes gs [] behind ∧
      ∀ f, Json.atom (spell f gs) = .ok (.scalar s, spell f behind) := by
  obtain ⟨s, rfl, -⟩ := Json.scalar_of_atom read
  obtain ⟨a, front⟩ : rest <:+ spell Slot.text gs := by
    rcases Json.atom_cases read with ⟨name, -, front⟩ | ⟨-, front⟩
    · exact ⟨_, front.symm⟩
    · exact front
  rw [← front] at read
  have inside := Json.inAtom_of_atom read
  obtain ⟨behind, rfl, rfl⟩ := exists_chars front.symm fun there => nomatch inside _ there
  have stops (f : Slot → List Char) : Stops (spell f behind) := ends.stops f
  obtain ⟨b, nothing, alone⟩ := Json.exists_of_atom (stops Slot.text) read
  obtain rfl : b = [] := List.append_left_eq_self.mp nothing.symm
  refine ⟨s, behind, rfl, rfl, ?_, .chars (fun there => nomatch inside _ there) behind, fun f => ?_⟩
  · cases a with
    | nil => cases alone
    | cons c a => exact clear_char c _
  · rw [spell_chars]
    exact Json.atom_append (stops f) alone

section Values
variable {depth : Nat} {gs : List Glyph} {v : Value} {rest : List Char}

theorem hasForm_text (unpaired : Unpaired (spell Slot.text (.char '"' :: gs)))
    (read : Json.value depth (spell Slot.text (.char '"' :: gs)) = .ok (v, rest)) :
    HasForm (Json.value depth) (.char '"' :: gs) v rest := by
  have opened : Passes (.char '"' :: gs) [] gs := .char (by decide) gs
  have quoted (cs : List Char) : Json.value depth ('"' :: cs) =
      (Json.text cs).map fun p => (.str p.1, p.2) := by cases depth <;> rfl
  rw [spell_char, quoted] at read
  obtain ⟨⟨s, rest⟩, inside, same⟩ := map_eq_ok.mp read
  cases same
  obtain ⟨k, behind, rfl, rfl, passes, again⟩ := exists_text (opened.unpaired unpaired) inside
  refine ⟨.text k, behind, rfl, rfl, clear_char _ gs, opened.trans passes, fun f => ?_⟩
  rw [spell_char, quoted, again f]
  rfl

theorem hasForm_list (inner : Uniform (Json.value depth))
    (unpaired : Unpaired (spell Slot.text (.char '[' :: gs)))
    (read : Json.value (depth + 1) (spell Slot.text (.char '[' :: gs)) = .ok (v, rest)) :
    HasForm (Json.value (depth + 1)) (.char '[' :: gs) v rest := by
  have opened : Passes (.char '[' :: gs) [] gs := .char (by decide) gs
  obtain ⟨⟨vs, rest⟩, inside, same⟩ := map_eq_ok.mp read
  cases same
  obtain ⟨forms, behind, rfl, rfl, passes, again⟩ :=
    exists_items inner (opened.unpaired unpaired) inside
  refine ⟨.list forms, behind, rfl, rfl, clear_char _ gs, opened.trans passes, fun f => ?_⟩
  rw [spell_char, Json.value, again f]
  rfl

theorem hasForm_map (inner : Uniform (Json.value depth))
    (unpaired : Unpaired (spell Slot.text (.char '{' :: gs)))
    (read : Json.value (depth + 1) (spell Slot.text (.char '{' :: gs)) = .ok (v, rest)) :
    HasForm (Json.value (depth + 1)) (.char '{' :: gs) v rest := by
  have opened : Passes (.char '{' :: gs) [] gs := .char (by decide) gs
  obtain ⟨⟨es, rest⟩, inside, same⟩ := map_eq_ok.mp read
  cases same
  obtain ⟨forms, behind, rfl, rfl, passes, again⟩ :=
    exists_entries inner (opened.unpaired unpaired) inside
  refine ⟨.map forms, behind, rfl, rfl, clear_char _ gs, opened.trans passes, fun f => ?_⟩
  rw [spell_char, Json.value, again f]
  rfl

theorem hasForm_atom {c : Char} (plain : c ≠ '"' ∧ c ≠ '[' ∧ c ≠ '{') (ends : Ends rest)
    (read : Json.value depth (spell Slot.text (.char c :: gs)) = .ok (v, rest)) :
    HasForm (Json.value depth) (.char c :: gs) v rest := by
  have atom := Json.value_plain plain depth
  rw [spell_char, atom, ← spell_char] at read
  obtain ⟨s, behind, rfl, rfl, clear, passes, again⟩ := exists_atom ends read
  refine ⟨.scalar s, behind, rfl, rfl, clear, passes, fun f => ?_⟩
  rw [spell_char, atom, ← spell_char, again]
  rfl

/-- A value with placeholders is read as the same form, whatever comes in for them. -/
theorem uniform_value (depth : Nat) : Uniform (Json.value depth) := by
  induction depth with
  | zero =>
    intro gs v rest unpaired ends read
    rcases gs with _ | ⟨c | s, gs⟩
    · cases read
    · by_cases quote : c = '"'
      · subst quote
        exact hasForm_text unpaired read
      · have noList : c ≠ '[' := fun same => by rw [same] at read; cases read
        have noMap : c ≠ '{' := fun same => by rw [same] at read; cases read
        exact hasForm_atom ⟨quote, noList, noMap⟩ ends read
    · exact absurd read (Json.value_braces _ _ _)
  | succ depth ih =>
    intro gs v rest unpaired ends read
    rcases gs with _ | ⟨c | s, gs⟩
    · cases read
    · by_cases quote : c = '"'
      · subst quote
        exact hasForm_text unpaired read
      by_cases bracket : c = '['
      · subst bracket
        exact hasForm_list ih unpaired read
      by_cases brace : c = '{'
      · subst brace
        exact hasForm_map ih unpaired read
      exact hasForm_atom ⟨quote, bracket, brace⟩ ends read
    · exact absurd read (Json.value_braces _ _ _)

end Values

/-! ### Documents -/

theorem ends_of_blank {cs : List Char} (h : Json.skipSpace cs = []) : Ends cs := by
  intro c first
  cases cs with
  | nil => cases first
  | cons d cs =>
    cases first
    by_cases blank : Json.isSpace c = true
    · exact isSpace_ends blank
    · rw [Json.skipSpace_cons (Bool.eq_false_iff.mpr blank)] at h
      cases h

theorem eq_nil_of_spell {gs : List Glyph} (h : spell Slot.text gs = []) : gs = [] := by
  rcases gs with _ | ⟨c | s, gs⟩
  · rfl
  · cases h
  · cases h

/-- A template that is data text is data text however its placeholders are filled, and has the same
form. -/
theorem exists_form {gs : List Glyph} {doc : Value} (unpaired : Unpaired (spell Slot.text gs))
    (read : Json.document (spell Slot.text gs) = .ok doc) :
    ∃ form : Form, doc = form.value Slot.text ∧ slots gs = form.slots ∧
      ∀ f : Slot → List Char, Json.document (spell (escapeAll ∘ f) gs) = .ok (form.value f) := by
  have unmarked : ∀ rest, spell Slot.text gs ≠ '\uFEFF' :: rest := by
    intro rest same
    rw [same] at read
    cases read
  rw [Json.document_of_ne unmarked] at read
  obtain ⟨⟨v, rest⟩, inside, read⟩ := bind_eq_ok.mp read
  dsimp only at read
  cases blank : Json.skipSpace rest with
  | cons c more =>
    rw [blank] at read
    cases read
  | nil =>
    rw [blank] at read
    cases read
    obtain ⟨front, skipped, blanks, filled⟩ := exists_skipSpace gs
    rw [skipped] at inside
    obtain ⟨form, behind, rfl, rfl, reads⟩ := uniform_value Json.depthLimit front doc rest
      (blanks.unpaired unpaired) (ends_of_blank blank) inside
    obtain ⟨last, skippedLast, blanksLast, filledLast⟩ := exists_skipSpace behind
    obtain rfl := eq_nil_of_spell (skippedLast.symm.trans blank)
    obtain ⟨clear, here⟩ := filled reads.clear
    obtain ⟨-, there⟩ := filledLast nofun
    have whole := (blanks.trans (reads.passes.trans blanksLast)).slots_eq
    refine ⟨form, rfl, by simpa [slots] using whole, fun f => ?_⟩
    rw [Json.document_of_ne (clear.ne unmarked _), here, reads.read f]
    simp only [bind, Except.bind, there]
    rfl

/-! ### Resolving -/

variable {scope : Scope}

theorem Slot.filled_escaped {s : Slot} (escaped : s.escaped = true) {v : Value} {text : String}
    (found : lookup s.path scope = .ok v) (written : Literal.stringify v = .ok text) :
    s.filled scope = .ok (Json.escapeAll text.toList) := by
  rw [filled]
  simp [found, written, escaped, bind, Except.bind, pure, Except.pure]

theorem resolve_glyphs {gs : List Glyph} {f : Slot → List Char} {t : String}
    (cut : parts t.toList = gs.map Glyph.part)
    (supplied : ∀ s ∈ slots gs, s.filled scope = .ok (f s)) :
    resolve t scope = .ok (String.ofList (spell f gs)) := by
  rw [resolve, cut, fillAll_glyphs supplied]
  rfl

/-- A template that is data text stays data text when its placeholders are filled with escaped texts,
and each text is found where its placeholder was: `form` is the data with the placeholders in their
places, whatever comes in for them. -/
theorem resolve_embeds {t : String} {doc : Value} (read : Json.parse t = .ok doc)
    (escaped : ∀ p ∈ placeholders t.toList, p.escaped = true) (unpaired : Unpaired t.toList) :
    ∃ form : Form, form.value Slot.text = doc ∧
      form.slots.map Slot.placeholder = placeholders t.toList ∧
      ∀ (scope : Scope) (texts : List Char → String),
        (∀ p ∈ placeholders t.toList,
          ∃ v, lookup p.path scope = .ok v ∧ Literal.stringify v = .ok (texts p.path)) →
        ∃ filled, resolve t scope = .ok filled ∧
          Json.parse filled = .ok (form.value fun s => (texts s.path).toList) := by
  obtain ⟨gs, whole, cut⟩ := exists_glyphs t.toList
  have document := Json.parse_eq_ok.mp read
  have holes := placeholders_eq cut
  rw [← whole] at document unpaired
  obtain ⟨form, rfl, inside, again⟩ := exists_form unpaired document
  refine ⟨form, rfl, by rw [← inside, holes], fun scope texts supplied => ?_⟩
  let f (s : Slot) : List Char := (texts s.path).toList
  have each : ∀ s ∈ slots gs, s.filled scope = .ok ((Json.escapeAll ∘ f) s) := by
    intro s there
    have listed : s.placeholder ∈ placeholders t.toList := holes ▸ List.mem_map_of_mem there
    obtain ⟨v, found, written⟩ := supplied s.placeholder listed
    exact Slot.filled_escaped (escaped s.placeholder listed) found written
  refine ⟨_, resolve_glyphs cut each, ?_⟩
  rw [Json.parse_eq_ok, String.toList_ofList, again f]

/-- A list with a placeholder behind a backslash, and the same placeholder again. -/
def listing : String :=
  "[\"\\\\\x7b\x7b a:json \x7d\x7d\", 1, \x7b\"b\": \"\x7b\x7ba:json\x7d\x7d\"\x7d]"

/-- What comes in may have quotes and brackets, a line end and a placeholder of its own. -/
theorem resolve_listing : ∃ form : Form,
    form.value Slot.text = .list [.str "\\\x7b\x7b a:json \x7d\x7d", .int 1,
      .record [("b", .str "\x7b\x7ba:json\x7d\x7d")]] ∧
    form.slots.map Slot.placeholder = [⟨['a'], true⟩, ⟨['a'], true⟩] ∧
    ∃ filled, resolve listing ⟨[("a", .str "\"],\\\n\x7b\x7ba\x7d\x7d")]⟩ = .ok filled ∧
      Json.parse filled =
        .ok (form.value fun _ => "\"],\\\n\x7b\x7ba\x7d\x7d".toList) := by
  have read : Json.parse listing = .ok (.list [.str "\\\x7b\x7b a:json \x7d\x7d", .int 1,
      .record [("b", .str "\x7b\x7ba:json\x7d\x7d")]]) := by rfl
  have holes : placeholders listing.toList = [⟨['a'], true⟩, ⟨['a'], true⟩] := by decide +kernel
  have escaped : ∀ p ∈ placeholders listing.toList, p.escaped = true := by
    rw [holes]
    decide
  obtain ⟨form, original, places, filled⟩ := resolve_embeds read escaped (by decide +kernel)
  refine ⟨form, original, places.trans holes, filled _ (fun _ => "\"],\\\n\x7b\x7ba\x7d\x7d") ?_⟩
  intro p there
  rw [holes] at there
  have same : p = ⟨['a'], true⟩ := by simpa using there
  exact ⟨.str "\"],\\\n\x7b\x7ba\x7d\x7d", by rw [same]; rfl, rfl⟩

end Runbook.Template
