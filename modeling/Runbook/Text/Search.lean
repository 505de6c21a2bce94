/-! Finding, cutting and joining text.

Cuts by a character or by a word, over lists of characters. `splitAt` never loses a
character but the separators: joining its pieces again gives the text back (`join_splitAt`). -/
namespace Runbook.Text

/-- The pieces between the occurrences of a separator; a text without one is its own piece. -/
def splitAt (sep : Char) : List Char → List (List Char)
  | [] => [[]]
  | c :: rest =>
    if c = sep then [] :: splitAt sep rest
    else match splitAt sep rest with
      | piece :: pieces => (c :: piece) :: pieces
      | [] => [[c]]

/-- Pieces with a separator between neighbours. -/
def join (sep : List Char) : List (List Char) → List Char
  | [] => []
  | [piece] => piece
  | piece :: pieces => piece ++ sep ++ join sep pieces

theorem splitAt_ne_nil (sep : Char) (cs : List Char) : splitAt sep cs ≠ [] := by
  cases cs with
  | nil => simp [splitAt]
  | cons c rest =>
    simp only [splitAt]
    split
    · simp
    · split <;> simp

/-- Splitting loses nothing but the separators. -/
theorem join_splitAt (sep : Char) (cs : List Char) : join [sep] (splitAt sep cs) = cs := by
  induction cs with
  | nil => rfl
  | cons c rest ih =>
    simp only [splitAt]
    split
    · next h =>
      subst h
      cases hs : splitAt c rest with
      | nil => exact absurd hs (splitAt_ne_nil c rest)
      | cons p ps => rw [hs] at ih; simp [join, ih]
    · cases hs : splitAt sep rest with
      | nil => exact absurd hs (splitAt_ne_nil sep rest)
      | cons p ps =>
        rw [hs] at ih
        cases ps with
        | nil => simpa [join] using ih
        | cons q qs => simpa [join] using ih

/-- The text before the first occurrence of a separator and, if there is one, the text after. -/
def cutAt (sep : Char) : List Char → List Char × Option (List Char)
  | [] => ([], none)
  | c :: rest =>
    if c = sep then ([], some rest)
    else let (before, after) := cutAt sep rest; (c :: before, after)

/-- A cut is at the first separator. -/
theorem cutAt_append {sep : Char} {before : List Char} (h : sep ∉ before) (after : List Char) :
    cutAt sep (before ++ sep :: after) = (before, some after) := by
  induction before with
  | nil => simp [cutAt]
  | cons c before ih =>
    obtain ⟨here, behind⟩ := List.ne_and_not_mem_of_not_mem_cons h
    rw [List.cons_append, cutAt, if_neg (Ne.symm here), ih behind]

/-- The text before and after the last occurrence of a separator, if there is one. -/
def cutAtLast (sep : Char) (cs : List Char) : Option (List Char × List Char) :=
  match cutAt sep cs.reverse with
  | (after, some before) => some (before.reverse, after.reverse)
  | (_, none) => none

/-- The rest of a text behind a word it starts with. -/
def after? : List Char → List Char → Option (List Char)
  | [], cs => some cs
  | _ :: _, [] => none
  | w :: word, c :: cs => if w = c then after? word cs else none

def startsWith (word cs : List Char) : Bool := (after? word cs).isSome

def endsWith (word cs : List Char) : Bool := startsWith word.reverse cs.reverse

/-- The text before and after the first occurrence of a word. -/
def cutAtWord (word : List Char) : List Char → Option (List Char × List Char)
  | [] => if word = [] then some ([], []) else none
  | c :: cs =>
    match after? word (c :: cs) with
    | some rest => some ([], rest)
    | none => (cutAtWord word cs).map fun (before, rest) => (c :: before, rest)

/-- The position of the first occurrence of a word. -/
def position? (word cs : List Char) : Option Nat := (cutAtWord word cs).map (·.1.length)

def contains (word cs : List Char) : Bool := (cutAtWord word cs).isSome

/-- A word that a text starts with is in front of the rest. -/
theorem after?_eq {word cs rest : List Char} (h : after? word cs = some rest) :
    cs = word ++ rest := by
  induction word generalizing cs with
  | nil => exact Option.some.inj h
  | cons w word ih =>
    cases cs with
    | nil => cases h
    | cons c cs =>
      rw [after?] at h
      split at h
      · rename_i same
        rw [same, ih h, List.cons_append]
      · cases h

theorem cutAtWord_eq {word cs before rest : List Char}
    (h : cutAtWord word cs = some (before, rest)) : cs = before ++ word ++ rest := by
  induction cs generalizing before with
  | nil =>
    by_cases hw : word = []
    · simp [cutAtWord, hw] at h; simp [h.1, h.2, hw]
    · simp [cutAtWord, hw] at h
  | cons c cs ih =>
    rw [cutAtWord] at h
    split at h
    · next r hr =>
      simp only [Option.some.injEq, Prod.mk.injEq] at h
      rw [after?_eq hr, ← h.1, ← h.2]; simp
    · simp only [Option.map_eq_some_iff, Prod.mk.injEq, Prod.exists] at h
      obtain ⟨b, r, hb, rfl, rfl⟩ := h
      rw [ih hb]; simp

theorem cutAtWord_rest_length {word cs before rest : List Char}
    (h : cutAtWord word cs = some (before, rest)) :
    rest.length + word.length ≤ cs.length := by
  rw [cutAtWord_eq h]; simp; omega

/-- Every occurrence of a non-empty word, from the left, gives way to another text. -/
def replace (word new : List Char) (cs : List Char) : List Char :=
  match _h : cutAtWord word cs with
  | some (before, rest) =>
    if _hw : word = [] then cs else before ++ new ++ replace word new rest
  | none => cs
termination_by cs.length
decreasing_by
  have := cutAtWord_rest_length _h
  have : 0 < word.length := List.length_pos_iff.2 _hw
  omega

/-- Membership of a code point in a list of closed ranges. -/
def within (ranges : List (Nat × Nat)) (n : Nat) : Bool :=
  ranges.any fun r => r.1 ≤ n && n ≤ r.2

end Runbook.Text
