/-! Blank characters and trimming.

Text is handled as a list of characters, so that a cut or a count is in code points.
`isBlank` is the class of white space that every reader of this library agrees on:
property values, numerals, list entries and headers are all trimmed by it. -/
namespace Runbook.Text

/-- White space: the Unicode spaces and line ends, with the four information separators. -/
def isBlank (c : Char) : Bool :=
  let n := c.toNat
  (9 ≤ n && n ≤ 13) || (28 ≤ n && n ≤ 32) || n == 0x85 || n == 0xA0 || n == 0x1680 ||
    (0x2000 ≤ n && n ≤ 0x200A) || n == 0x2028 || n == 0x2029 || n == 0x202F || n == 0x205F ||
    n == 0x3000

/-- The text without the blanks in front. -/
def trimStart (cs : List Char) : List Char := cs.dropWhile isBlank

/-- The text without the blanks behind. -/
def trimEnd (cs : List Char) : List Char := (cs.reverse.dropWhile isBlank).reverse

def trim (cs : List Char) : List Char := trimEnd (trimStart cs)

/-- The empty text is blank too. -/
def blank (cs : List Char) : Bool := cs.all isBlank

/-- `trim` on a string. -/
def trimmed (s : String) : String := String.ofList (trim s.toList)

/-- A text of blanks alone trims to nothing. -/
theorem trim_eq_nil_of_blank {cs : List Char} (h : blank cs = true) : trim cs = [] := by
  have hs : trimStart cs = [] := by
    induction cs with
    | nil => rfl
    | cons c cs ih =>
      simp only [blank, List.all_cons, Bool.and_eq_true] at h
      rw [trimStart, List.dropWhile_cons_of_pos h.1]
      exact ih h.2
  simp [trim, hs, trimEnd]

/-- A text that neither starts nor ends with a blank is trimmed already. -/
theorem trim_eq_self {c d : Char} (front : isBlank c = false) (back : isBlank d = false)
    (between : List Char) : trim (c :: (between ++ [d])) = c :: (between ++ [d]) := by
  have start : trimStart (c :: (between ++ [d])) = c :: (between ++ [d]) :=
    List.dropWhile_cons_of_neg (by simp [front])
  rw [trim, start, trimEnd, List.reverse_cons, List.reverse_append, List.reverse_singleton,
    List.singleton_append, List.cons_append, List.dropWhile_cons_of_neg (by simp [back])]
  simp

end Runbook.Text
