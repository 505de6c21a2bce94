/-! Lines and line ends.

Header text and event streams are read line by line, where every character that Unicode
lists as a line boundary ends a line. Files are read with each line end of theirs turned
into a line feed (`linefeeds`), and written as they are. -/
namespace Runbook.Text

/-- The characters that end a line; a carriage return takes a line feed behind it along. -/
def isLineEnd (c : Char) : Bool :=
  let n := c.toNat
  (10 ≤ n && n ≤ 13) || (28 ≤ n && n ≤ 30) || n == 0x85 || n == 0x2028 || n == 0x2029

/-- The lines of `cs` behind `line`, the characters of the open line in reverse. -/
def linesFrom (line : List Char) : List Char → List (List Char)
  | [] => if line = [] then [] else [line.reverse]
  | '\r' :: '\n' :: cs => line.reverse :: linesFrom [] cs
  | c :: cs => if isLineEnd c then line.reverse :: linesFrom [] cs else linesFrom (c :: line) cs

/-- The lines of a text without their ends; nothing follows a last line end. -/
def lines (cs : List Char) : List (List Char) := linesFrom [] cs

/-- Carriage returns, with or without a line feed behind them, become line feeds. -/
def linefeeds : List Char → List Char
  | [] => []
  | '\r' :: '\n' :: cs => '\n' :: linefeeds cs
  | c :: cs => (if c = '\r' then '\n' else c) :: linefeeds cs

/-- Text without carriage returns is read as it was written. -/
theorem linefeeds_eq_self {cs : List Char} (h : '\r' ∉ cs) : linefeeds cs = cs := by
  fun_induction linefeeds cs with
  | case1 => rfl
  | case2 cs ih => simp at h
  | case3 c cs _ ih =>
    simp only [List.mem_cons, not_or] at h
    rw [ih h.2, if_neg (fun hc => h.1 hc.symm)]

theorem not_mem_linefeeds (cs : List Char) : '\r' ∉ linefeeds cs := by
  fun_induction linefeeds cs with
  | case1 => exact List.not_mem_nil
  | case2 cs ih => exact List.not_mem_cons_of_ne_of_not_mem (by decide) ih
  | case3 c cs _ ih =>
    refine List.not_mem_cons_of_ne_of_not_mem ?_ ih
    split
    · decide
    · exact fun same => ‹¬ _› same.symm

theorem linefeeds_eq_self_iff {cs : List Char} : linefeeds cs = cs ↔ '\r' ∉ cs :=
  ⟨fun same => same ▸ not_mem_linefeeds cs, linefeeds_eq_self⟩

/-- What is behind text without carriage returns is read as if it stood alone. -/
theorem linefeeds_append {cs : List Char} (h : '\r' ∉ cs) (ds : List Char) :
    linefeeds (cs ++ ds) = cs ++ linefeeds ds := by
  induction cs with
  | nil => rfl
  | cons c cs ih =>
    obtain ⟨other, behind⟩ := not_or.mp (mt List.mem_cons.mpr h)
    rw [List.cons_append, linefeeds, if_neg (Ne.symm other), ih behind, List.cons_append]
    rintro _ rfl
    exact absurd rfl other

end Runbook.Text
