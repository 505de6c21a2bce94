import Mathlib.Data.List.Infix
import Runbook.Proofs.Template
import Runbook.Proofs.Text.Cutting

/-! Templates as they are written.

A template is plain text with placeholders in between. `Source` is one taken apart: what stands in
front, and each placeholder with the plain text behind it, down to the blanks inside the braces. Any
brace may stand next to a placeholder, as long as no plain text has two opening ones in a row.

`resolve_source`: the plain texts stay as they are, and each placeholder gives way to the text of
the value that its path leads to. What comes in for a placeholder is not looked at again, whatever
braces it has. -/
namespace Runbook.Template

/-! ### Paths -/

/-- A path has no blanks. -/
theorem isPathChar_of_isBlank {c : Char} (h : Text.isBlank c = true) : isPathChar c = false :=
  Text.forall_isBlank (P := fun c => isPathChar c = false) (by decide +kernel) h

/-- A path as a placeholder can hold it. -/
def IsPath (path : List Char) : Prop :=
  ∃ c cs, path = c :: cs ∧ isNameStart c = true ∧ ∀ d ∈ cs, isPathChar d = true

/-! ### Sources -/

/-- A placeholder as it is written: its path, with or without the mark of escaping behind it, and
the blanks between them and the braces. -/
structure Slot where
  before : List Char
  path : List Char
  escaped : Bool
  after : List Char
  blank_before : Text.blank before = true
  isPath : IsPath path
  blank_after : Text.blank after = true

/-- Text in which no placeholder can start. -/
structure Plain where
  chars : List Char
  single : ¬ ['{', '{'] <:+: chars

/-- A template taken apart. -/
structure Source where
  lead : Plain
  rest : List (Slot × Plain)

namespace Slot

def mark (s : Slot) : List Char := if s.escaped then ":json".toList else []

/-- The placeholder in its braces. -/
def text (s : Slot) : List Char :=
  '{' :: '{' :: (s.before ++ s.path ++ s.mark ++ s.after ++ ['}', '}'])

def placeholder (s : Slot) : Placeholder := ⟨s.path, s.escaped⟩

/-- What comes in for the placeholder: the text of the value that the path leads to, escaped where
that is asked for. -/
def filled (scope : Scope) (s : Slot) : Except Fault (List Char) := do
  let text ← Literal.stringify (← lookup s.path scope)
  return if s.escaped then Json.escapeAll text.toList else text.toList

end Slot

namespace Source

def textBehind : List (Slot × Plain) → List Char
  | [] => []
  | (s, p) :: rest => s.text ++ p.chars ++ textBehind rest

/-- The template. -/
def text (t : Source) : String := String.ofList (t.lead.chars ++ textBehind t.rest)

def filledBehind (scope : Scope) : List (Slot × Plain) → Except Fault (List Char)
  | [] => .ok []
  | (s, p) :: rest => do
    let here ← s.filled scope
    let behind ← filledBehind scope rest
    return here ++ p.chars ++ behind

/-- The plain texts as they are, with what comes in for each placeholder in between. -/
def filled (scope : Scope) (t : Source) : Except Fault String := do
  let behind ← filledBehind scope t.rest
  return String.ofList (t.lead.chars ++ behind)

end Source

/-! ### Cutting -/

/-- What follows the path in a placeholder is no part of it. -/
theorem Slot.head?_behind (s : Slot) (rest : List Char) :
    ∀ d ∈ (s.mark ++ (s.after ++ '}' :: '}' :: rest)).head?, isPathChar d = false := by
  intro d here
  obtain ⟨_, _, escaped, after, _, _, blank⟩ := s
  cases escaped with
  | true => cases here; rfl
  | false =>
    cases after with
    | nil => cases here; rfl
    | cons b after =>
      cases here
      exact isPathChar_of_isBlank (List.all_eq_true.mp blank _ (List.mem_cons_self ..))

/-- The mark of escaping is seen where it stands, and nowhere else. -/
theorem Slot.after?_behind (s : Slot) (rest : List Char) :
    Text.after? ":json".toList (s.mark ++ (s.after ++ '}' :: '}' :: rest)) =
      if s.escaped then some (s.after ++ '}' :: '}' :: rest) else none := by
  obtain ⟨-, -, escaped, after, -, -, blank⟩ := s
  cases escaped with
  | true => rfl
  | false =>
    cases after with
    | nil => rfl
    | cons b after =>
      have noColon : ':' ≠ b := by
        rintro rfl
        exact absurd (List.all_eq_true.mp blank _ (List.mem_cons_self ..)) (by decide)
      exact if_neg noColon

theorem takeWhile_path {cs more : List Char} (inside : ∀ d ∈ cs, isPathChar d = true)
    (ends : ∀ d ∈ more.head?, isPathChar d = false) :
    (cs ++ more).takeWhile isPathChar = cs ∧ (cs ++ more).dropWhile isPathChar = more := by
  rw [List.takeWhile_append_of_pos inside, List.dropWhile_append_of_pos inside]
  cases more with
  | nil => simp
  | cons d more =>
    have stops : ¬ isPathChar d = true := by simp [ends d rfl]
    rw [List.takeWhile_cons_of_neg stops, List.dropWhile_cons_of_neg stops, List.append_nil]
    exact ⟨rfl, rfl⟩

/-- A placeholder is found where it stands, whatever is behind it. -/
theorem Slot.placeholder?_text (s : Slot) (rest : List Char) :
    placeholder? (s.text ++ rest) = some (s.placeholder, rest) := by
  obtain ⟨c, cs, path, start, inside⟩ := s.isPath
  obtain ⟨taken, left⟩ := takeWhile_path inside (s.head?_behind rest)
  have opened : s.text ++ rest =
      '{' :: '{' :: (s.before ++ c :: (cs ++ (s.mark ++ (s.after ++ '}' :: '}' :: rest)))) := by
    simp [Slot.text, path]
  have closed : Text.trimStart (s.after ++ '}' :: '}' :: rest) = '}' :: '}' :: rest :=
    Text.trimStart_append s.blank_after rfl _
  rw [opened, placeholder?, Text.trimStart_append s.blank_before (isBlank_of_isNameStart start)]
  simp only [start, if_true, taken, left, s.after?_behind rest, Slot.placeholder, path]
  cases marked : s.escaped with
  | true => simp only [if_true, closed]
  | false =>
    simp only [Slot.mark, marked, Bool.false_eq_true, if_false, List.nil_append, closed]

/-- No placeholder starts in plain text, nor with its last brace, if a placeholder is behind it. -/
theorem Plain.placeholder?_eq_none {c : Char} {cs : List Char}
    (single : ¬ ['{', '{'] <:+: c :: cs) {behind : List Char}
    (next : behind = [] ∨ ∃ more, behind = '{' :: '{' :: more) :
    placeholder? (c :: (cs ++ behind)) = none := by
  by_cases opens : c = '{'
  · subst opens
    cases cs with
    | nil =>
      rcases next with rfl | ⟨more, rfl⟩ <;> rfl
    | cons d cs =>
      refine placeholder?_braced fun rest same => single ?_
      cases same
      exact ⟨[], cs, rfl⟩
  · exact placeholder?_of_ne opens _

theorem partsFrom_plain_append {cs : List Char} (single : ¬ ['{', '{'] <:+: cs)
    {behind : List Char} (next : behind = [] ∨ ∃ more, behind = '{' :: '{' :: more) (fuel : Nat) :
    partsFrom (cs.length + fuel) (cs ++ behind) = cs.map .char ++ partsFrom fuel behind := by
  induction cs with
  | nil => simp
  | cons c cs ih =>
    have later : ¬ ['{', '{'] <:+: cs := fun found => single (found.trans (List.suffix_cons ..).isInfix)
    rw [List.length_cons, Nat.add_right_comm, List.cons_append, partsFrom,
      Plain.placeholder?_eq_none single next]
    simp only [ih later, List.map_cons, List.cons_append]

namespace Source

def partsBehind : List (Slot × Plain) → List Part
  | [] => []
  | (s, p) :: rest => .hole s.placeholder :: (p.chars.map .char ++ partsBehind rest)

/-- What is behind a plain text is nothing or opens with two braces. -/
theorem textBehind_cases (rest : List (Slot × Plain)) :
    textBehind rest = [] ∨ ∃ more, textBehind rest = '{' :: '{' :: more := by
  cases rest with
  | nil => exact .inl rfl
  | cons e rest => exact .inr ⟨_, rfl⟩

/-- The pieces of a template are its placeholders and the characters of its plain texts. -/
theorem partsFrom_textBehind {rest : List (Slot × Plain)} {fuel : Nat}
    (enough : (textBehind rest).length ≤ fuel) :
    partsFrom fuel (textBehind rest) = partsBehind rest := by
  induction rest generalizing fuel with
  | nil => cases fuel <;> rfl
  | cons e rest ih =>
    obtain ⟨s, p⟩ := e
    have length : (textBehind ((s, p) :: rest)).length =
        s.text.length + p.chars.length + (textBehind rest).length := by
      simp [textBehind, Nat.add_assoc]
    have some_text : 0 < s.text.length := by simp [Slot.text]
    obtain ⟨fuel, rfl⟩ : ∃ n, fuel = p.chars.length + n + 1 :=
      ⟨fuel - 1 - p.chars.length, by omega⟩
    have found := s.placeholder?_text (p.chars ++ textBehind rest)
    rw [textBehind, List.append_assoc]
    generalize whole : s.text ++ (p.chars ++ textBehind rest) = cs at found ⊢
    cases cs with
    | nil => cases found
    | cons c cs =>
      rw [partsFrom, found]
      simp only [partsFrom_plain_append p.single (textBehind_cases rest), partsBehind]
      rw [ih (by omega)]

theorem parts_text (t : Source) :
    parts t.text.toList = t.lead.chars.map .char ++ partsBehind t.rest := by
  rw [parts, text, String.toList_ofList, List.length_append,
    partsFrom_plain_append t.lead.single (textBehind_cases t.rest),
    partsFrom_textBehind (Nat.le_refl _)]

/-! ### Filling -/

theorem fillAll_partsBehind (scope : Scope) (rest : List (Slot × Plain)) :
    fillAll scope (partsBehind rest) = filledBehind scope rest := by
  induction rest with
  | nil => rfl
  | cons e rest ih =>
    obtain ⟨s, p⟩ := e
    rw [partsBehind, fillAll, fillAll_chars, ih, filledBehind]
    show (do let here ← s.filled scope; _) = _
    cases s.filled scope with
    | error f => rfl
    | ok here => cases filledBehind scope rest <;> simp [Except.map, bind, Except.bind, pure, Except.pure]

end Source

/-! ### Variables -/

theorem single_of_not_mem {cs : List Char} (h : '{' ∉ cs) : ¬ ['{', '{'] <:+: cs :=
  fun found => h (found.mem (List.mem_cons_self ..))

/-- The placeholder for a variable, without blanks. -/
def Slot.ofName {name : String} (h : IsName name) : Slot where
  before := []
  path := name.toList
  escaped := false
  after := []
  blank_before := rfl
  isPath := by
    obtain ⟨c, cs, chars, start, behind⟩ := h
    exact ⟨c, cs, chars, start, fun d there => isPathChar_of_isNameChar (behind d there)⟩
  blank_after := rfl

variable {x y left right : String} {v w : Value} {scope : Scope}

theorem Slot.filled_ofName (h : IsName x) (bound : scope.get? x = some v)
    (written : Literal.stringify v = .ok left) : (ofName h).filled scope = .ok left.toList := by
  rw [filled]
  simp [ofName, lookup_name h bound, written, bind, Except.bind, pure, Except.pure]

/-- Two placeholders for variables are filled with the texts of their values, and what is between
them stays as it is. -/
theorem resolve_between (hx : IsName x) (hy : IsName y) (leftBound : scope.get? x = some v)
    (rightBound : scope.get? y = some w) (leftWritten : Literal.stringify v = .ok left)
    (rightWritten : Literal.stringify w = .ok right) {between : String}
    (plain : '{' ∉ between.toList) :
    resolve (holeFor x ++ between ++ holeFor y) scope = .ok (left ++ between ++ right) := by
  let t : Source :=
    { lead := ⟨[], single_of_not_mem nofun⟩
      rest := [(.ofName hx, ⟨between.toList, single_of_not_mem plain⟩),
        (.ofName hy, ⟨[], single_of_not_mem nofun⟩)] }
  have text : holeFor x ++ between ++ holeFor y = t.text := by
    refine String.toList_inj.mp ?_
    simp [t, Source.text, Source.textBehind, Slot.text, Slot.ofName, Slot.mark, holeFor]
  have first := Slot.filled_ofName hx leftBound leftWritten
  have second := Slot.filled_ofName hy rightBound rightWritten
  rw [text, resolve, Source.parts_text, fillAll_chars, Source.fillAll_partsBehind]
  simp only [t, Source.filledBehind, first, second, bind, Except.bind, pure, Except.pure, Except.map]
  refine congrArg Except.ok (String.toList_inj.mp ?_)
  simp

/-- A template is resolved to its plain texts as they are, with the text of the value in the place of
each placeholder, and fails where one of those texts cannot be had. -/
theorem resolve_source (t : Source) (scope : Scope) : resolve t.text scope = t.filled scope := by
  rw [resolve, Source.parts_text, fillAll_chars, Source.fillAll_partsBehind, Source.filled]
  cases Source.filledBehind scope t.rest <;> rfl

end Runbook.Template
