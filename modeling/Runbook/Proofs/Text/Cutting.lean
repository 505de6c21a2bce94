import Mathlib.Data.List.Infix
import Mathlib.Data.List.TakeWhile
import Runbook.Text.Blank
import Runbook.Text.Search

/-! Cuts at words, and blanks.

A cut at a word is at its first occurrence, and it is made wherever the word occurs. There are few
blanks, so what holds of them can be looked up one after another. -/
namespace Runbook.Text

theorem after?_append (word cs : List Char) : after? word (word ++ cs) = some cs := by
  induction word with
  | nil => rfl
  | cons w word ih => rw [List.cons_append, after?, if_pos rfl, ih]

theorem after?_eq_some {word cs rest : List Char} : after? word cs = some rest ↔ cs = word ++ rest :=
  ⟨after?_eq, fun same => same ▸ after?_append word rest⟩

/-- What is behind an occurrence of a word is behind its first occurrence. -/
theorem exists_cutAtWord (word : List Char) (some_word : word ≠ []) (before after : List Char) :
    ∃ front rest, cutAtWord word (before ++ word ++ after) = some (front, rest) ∧ after <:+ rest := by
  induction before with
  | nil =>
    have found := after?_append word after
    rw [List.nil_append]
    obtain ⟨w, ws, rfl⟩ := List.exists_cons_of_ne_nil some_word
    exact ⟨[], after, by rw [List.cons_append, cutAtWord, ← List.cons_append, found],
      List.suffix_refl _⟩
  | cons c before ih =>
    rw [List.cons_append, List.cons_append, cutAtWord]
    cases found : after? word (c :: (before ++ word ++ after)) with
    | some rest =>
      have whole : c :: before ++ word ++ after = word ++ rest := after?_eq found
      have length := congrArg List.length whole
      simp only [List.length_append, List.length_cons] at length
      exact ⟨[], rest, rfl, List.suffix_of_suffix_length_le ⟨_, rfl⟩ ⟨_, whole.symm⟩ (by omega)⟩
    | none =>
      obtain ⟨front, rest, cut, behind⟩ := ih
      exact ⟨c :: front, rest, by rw [cut]; rfl, behind⟩

/-- A cut is in front of every other occurrence. -/
theorem cutAtWord_first {word cs before rest front behind : List Char}
    (h : cutAtWord word cs = some (before, rest)) (there : cs = front ++ word ++ behind) :
    before.length ≤ front.length := by
  induction cs generalizing before front with
  | nil =>
    obtain ⟨whole, -⟩ := List.append_eq_nil_iff.mp (cutAtWord_eq h).symm
    rw [(List.append_eq_nil_iff.mp whole).1]
    exact Nat.zero_le _
  | cons c cs ih =>
    rw [cutAtWord] at h
    cases here : after? word (c :: cs) with
    | some _ =>
      rw [here] at h
      cases h
      exact Nat.zero_le _
    | none =>
      rw [here] at h
      obtain ⟨⟨b, r⟩, later, same⟩ := Option.map_eq_some_iff.mp h
      cases same
      cases front with
      | nil =>
        rw [List.nil_append] at there
        rw [there, after?_append] at here
        cases here
      | cons d front =>
        rw [List.cons_append, List.cons_append, List.cons.injEq] at there
        exact Nat.succ_le_succ (ih later there.2)

theorem cutAtWord_eq_none {word cs : List Char} (some_word : word ≠ []) :
    cutAtWord word cs = none ↔ ∀ before behind, cs ≠ before ++ word ++ behind := by
  constructor
  · rintro none before behind rfl
    obtain ⟨_, _, cut, -⟩ := exists_cutAtWord word some_word before behind
    cases none.symm.trans cut
  · intro nowhere
    cases cut : cutAtWord word cs with
    | none => rfl
    | some found => exact absurd (cutAtWord_eq cut) (nowhere _ _)

theorem contains_iff (word cs : List Char) : contains word cs = true ↔ word <:+: cs := by
  rw [contains, Option.isSome_iff_exists]
  constructor
  · rintro ⟨⟨before, after⟩, cut⟩
    exact ⟨before, after, (cutAtWord_eq cut).symm⟩
  · rintro ⟨before, after, rfl⟩
    by_cases none : word = []
    · subst none
      cases cs : before ++ [] ++ after <;> exact ⟨_, rfl⟩
    · obtain ⟨front, rest, cut, -⟩ := exists_cutAtWord word none before after
      exact ⟨_, cut⟩

theorem isSome_position? (word cs : List Char) :
    (position? word cs).isSome = true ↔ word <:+: cs := by
  rw [position?, Option.isSome_map, ← contains, contains_iff]

/-- A word does not begin in what lacks its first character. -/
theorem infix_of_not_mem {w : Char} {word front cs : List Char} (h : w ∉ front)
    (there : w :: word <:+: front ++ cs) : w :: word <:+: cs := by
  induction front with
  | nil => exact there
  | cons c front ih =>
    obtain ⟨here, behind⟩ := List.ne_and_not_mem_of_not_mem_cons h
    rcases List.infix_cons_iff.mp there with first | later
    · exact absurd (List.cons_prefix_cons.mp first).1 here
    · exact ih behind later

/-- A cut at a separator is at its first occurrence. -/
theorem cutAt_eq_some {sep : Char} {cs before after : List Char}
    (h : cutAt sep cs = (before, some after)) : cs = before ++ sep :: after ∧ sep ∉ before := by
  induction cs generalizing before with
  | nil => cases h
  | cons c cs ih =>
    rw [cutAt] at h
    split at h
    · rename_i same
      cases h
      exact ⟨by rw [same, List.nil_append], List.not_mem_nil⟩
    · rename_i other
      rcases cut : cutAt sep cs with ⟨b, a⟩
      rw [cut] at h
      cases h
      obtain ⟨split, absent⟩ := ih cut
      exact ⟨congrArg (c :: ·) split, by simp [Ne.symm other, absent]⟩

theorem cutAt_rest_length {sep : Char} {cs before after : List Char}
    (h : cutAt sep cs = (before, some after)) : after.length < cs.length := by
  rw [(cutAt_eq_some h).1, List.length_append, List.length_cons]
  omega

/-- No cut is made only where there is no separator. -/
theorem cutAt_eq_none {sep : Char} {cs before : List Char} :
    cutAt sep cs = (before, none) ↔ before = cs ∧ sep ∉ cs := by
  induction cs generalizing before with
  | nil => simp [cutAt, eq_comm]
  | cons c cs ih =>
    rw [cutAt]
    split
    · rename_i same
      simp [same]
    · rename_i other
      rcases cut : cutAt sep cs with ⟨b, _ | a⟩
      · obtain ⟨rfl, absent⟩ := ih.mp cut
        simp [absent, Ne.symm other, eq_comm]
      · have there : sep ∈ cs := (cutAt_eq_some cut).1 ▸ by simp
        simp [there]

/-! ### More text behind -/

theorem after?_append_of_some {word cs rest : List Char} (h : after? word cs = some rest)
    (tail : List Char) : after? word (cs ++ tail) = some (rest ++ tail) := by
  rw [after?_eq h, List.append_assoc, after?_append]

theorem after?_append_of_none {word cs : List Char} (h : after? word cs = none)
    (long : word.length ≤ cs.length) (tail : List Char) : after? word (cs ++ tail) = none := by
  induction word generalizing cs with
  | nil => cases h
  | cons w word ih =>
    cases cs with
    | nil => simp at long
    | cons c cs =>
      rw [List.cons_append, after?]
      rw [after?] at h
      split
      · rename_i same
        rw [if_pos same] at h
        exact ih h (by simpa using long)
      · rfl

/-- A word does not reach across a character that it does not have. -/
theorem after?_append_cons {word : List Char} {c : Char} (other : c ∉ word) (cs tail : List Char) :
    after? word (cs ++ c :: tail) = (after? word cs).map (· ++ c :: tail) := by
  induction word generalizing cs with
  | nil => rfl
  | cons w word ih =>
    obtain ⟨here, behind⟩ := List.ne_and_not_mem_of_not_mem_cons other
    cases cs with
    | nil => exact if_neg (Ne.symm here)
    | cons d cs =>
      rw [List.cons_append, after?, after?]
      split
      · exact ih behind cs
      · rfl

/-- The first occurrence of a word stays the first with more text behind. -/
theorem cutAtWord_append {word cs before rest : List Char}
    (h : cutAtWord word cs = some (before, rest)) (tail : List Char) :
    cutAtWord word (cs ++ tail) = some (before, rest ++ tail) := by
  induction cs generalizing before with
  | nil =>
    rw [cutAtWord] at h
    split at h
    · rename_i empty
      cases h
      subst empty
      cases tail <;> rfl
    · cases h
  | cons c cs ih =>
    have long := cutAtWord_rest_length h
    rw [cutAtWord] at h
    rw [List.cons_append, cutAtWord, ← List.cons_append]
    cases front : after? word (c :: cs) with
    | some behind =>
      rw [front] at h
      cases h
      rw [after?_append_of_some front]
    | none =>
      rw [front] at h
      obtain ⟨⟨b, r⟩, later, same⟩ := Option.map_eq_some_iff.mp h
      cases same
      rw [after?_append_of_none front (by omega), ih later]
      rfl

/-- What each reader of a list changes alike, the first of them that reads anything changes so. -/
theorem findSome?_eq_map {α β : Type} {readers : List α} {f g : α → Option β} {change : β → β}
    (each : ∀ a ∈ readers, f a = (g a).map change) :
    readers.findSome? f = (readers.findSome? g).map change := by
  induction readers with
  | nil => rfl
  | cons a readers ih =>
    obtain ⟨here, behind⟩ := List.forall_mem_cons.mp each
    rw [List.findSome?_cons, List.findSome?_cons, here, ih behind]
    cases g a <;> rfl

/-! ### Blanks -/

/-- The numbers of the blanks. -/
def blanks : List Nat :=
  [9, 10, 11, 12, 13, 28, 29, 30, 31, 32, 0x85, 0xA0, 0x1680, 0x2000, 0x2001, 0x2002, 0x2003,
   0x2004, 0x2005, 0x2006, 0x2007, 0x2008, 0x2009, 0x200A, 0x2028, 0x2029, 0x202F, 0x205F, 0x3000]

theorem toNat_mem_blanks {c : Char} (h : isBlank c = true) : c.toNat ∈ blanks := by
  simp only [isBlank, Bool.or_eq_true, Bool.and_eq_true, decide_eq_true_eq, beq_iff_eq] at h
  simp only [blanks, List.mem_cons, List.not_mem_nil, or_false]
  omega

/-- What holds of each of them holds of every blank. -/
theorem forall_isBlank {P : Char → Prop} (h : ∀ n ∈ blanks, P (Char.ofNat n)) {c : Char}
    (blank : isBlank c = true) : P c :=
  c.ofNat_toNat ▸ h _ (toNat_mem_blanks blank)

/-- Blanks in front of something else are trimmed away. -/
theorem trimStart_append {front : List Char} (h : blank front = true) {c : Char}
    (solid : isBlank c = false) (cs : List Char) : trimStart (front ++ c :: cs) = c :: cs := by
  rw [trimStart, List.dropWhile_append_of_pos (List.all_eq_true.mp h),
    List.dropWhile_cons_of_neg (by simp [solid])]

/-- What is trimmed away are blanks. -/
theorem exists_trimmed (cs : List Char) :
    ∃ front, (∀ c ∈ front, isBlank c = true) ∧ cs = front ++ trimStart cs :=
  ⟨cs.takeWhile isBlank, List.all_eq_true.mp List.all_takeWhile,
    List.takeWhile_append_dropWhile.symm⟩

/-- Nothing is trimmed away where no blank is in front. -/
theorem trimStart_of_head {cs : List Char} (first : ∀ c ∈ cs.head?, isBlank c = false) :
    trimStart cs = cs := by
  cases cs with
  | nil => rfl
  | cons c cs => exact List.dropWhile_cons_of_neg (by simp [first c rfl])

/-- A text that no blank starts and no blank ends is trimmed already. -/
theorem trim_of_ends {cs : List Char} (first : ∀ c ∈ cs.head?, isBlank c = false)
    (last : ∀ c ∈ cs.getLast?, isBlank c = false) : trim cs = cs := by
  rw [← List.head?_reverse] at last
  have back : cs.reverse.dropWhile isBlank = cs.reverse := trimStart_of_head last
  rw [trim, trimStart_of_head first, trimEnd, back, List.reverse_reverse]

/-- A text without blanks is trimmed already. -/
theorem trim_of_solid {cs : List Char} (h : ∀ c ∈ cs, isBlank c = false) : trim cs = cs :=
  trim_of_ends (fun c there => h c (List.mem_of_mem_head? there))
    fun c there => h c (List.mem_of_mem_getLast? there)

end Runbook.Text
