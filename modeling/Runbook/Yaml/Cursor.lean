import Runbook.Fault

/-! Moving through a YAML text.

A cursor is the text that is left, with the place where it starts. Behind the end of the text
the reader sees a zero character, which no readable text holds. -/
namespace Runbook.Yaml

/-- Why a text does not read. -/
inductive Problem
  /-- It is not YAML, or uses a tag that is not known. -/
  | unreadable (what : String)
  /-- A scalar is not what its tag says. -/
  | fault (f : Fault)
deriving Repr

/-- What a reader takes from the front of a text. -/
abbrev Read (α : Type) := Except Problem α

def unreadable {α : Type} (what : String) : Except Problem α := .error (.unreadable what)

/-! ### Characters -/

def endMark : Char := '\x00'

def isLineBreak (c : Char) : Bool :=
  c == '\r' || c == '\n' || c == '\x85' || c == '\u2028' || c == '\u2029'

def isBreakOrEnd (c : Char) : Bool := isLineBreak c || c == endMark

/-- The end of a token: a space, a line break or the end of the text. -/
def isSpaceOrEnd (c : Char) : Bool := isBreakOrEnd c || c == ' '

/-- As `isSpaceOrEnd`, with tabs. -/
def isBlankOrEnd (c : Char) : Bool := isSpaceOrEnd c || c == '\t'

/-- The characters that a YAML text may hold. -/
def isAllowed (c : Char) : Bool :=
  let n := c.toNat
  n == 9 || n == 10 || n == 13 || (0x20 ≤ n && n ≤ 0x7E) || n == 0x85 ||
    (0xA0 ≤ n && n ≤ 0xD7FF) || (0xE000 ≤ n && n ≤ 0xFFFD) || 0x10000 ≤ n

/-- The number that a hexadecimal digit writes. -/
def hexDigit? (c : Char) : Option Nat :=
  if '0' ≤ c && c ≤ '9' then some (c.toNat - 48)
  else if 'a' ≤ c && c ≤ 'f' then some (c.toNat - 87)
  else if 'A' ≤ c && c ≤ 'F' then some (c.toNat - 55)
  else none

/-! ### The cursor -/

structure Cursor where
  rest : List Char
  index : Nat := 0
  line : Nat := 0
  column : Nat := 0
deriving Repr

namespace Cursor

def peek (c : Cursor) : Char := c.rest.headD endMark

/-- The character some places ahead. -/
def peekAt (c : Cursor) (n : Nat) : Char := c.rest.getD n endMark

def isAtEnd (c : Cursor) : Bool := c.rest.isEmpty

/-- One character on. A carriage return before a line feed does not end the line, and a byte
order mark has no width. -/
def forward (c : Cursor) : Cursor :=
  match c.rest with
  | [] => c
  | ch :: rest =>
    if isLineBreak ch && !(ch == '\r' && rest.head? == some '\n') then
      { rest, index := c.index + 1, line := c.line + 1, column := 0 }
    else
      { rest, index := c.index + 1, line := c.line,
        column := if ch == '\uFEFF' then c.column else c.column + 1 }

def advance : Nat → Cursor → Cursor
  | 0, c => c
  | n + 1, c => advance n c.forward

/-- The run of characters of a class, and the cursor behind it. -/
def takeWhile (c : Cursor) (p : Char → Bool) : List Char × Cursor :=
  let run := c.rest.takeWhile p
  (run, c.advance run.length)

def skipWhile (c : Cursor) (p : Char → Bool) : Cursor := (c.takeWhile p).2

def skipSpaces (c : Cursor) : Cursor := c.skipWhile (· == ' ')

/-- The line break at the front, if there is one; most kinds of break are read as line feeds. -/
def lineBreak (c : Cursor) : List Char × Cursor :=
  let ch := c.peek
  if ch == '\r' && c.peekAt 1 == '\n' then (['\n'], c.advance 2)
  else if ch == '\r' || ch == '\n' || ch == '\x85' then (['\n'], c.forward)
  else if ch == '\u2028' || ch == '\u2029' then ([ch], c.forward)
  else ([], c)

/-- Whether a line of three equal marks stands here, which begins or ends a document. -/
def isAtSeparator (c : Cursor) : Bool :=
  let mark := c.rest.take 3
  (mark == ['-', '-', '-'] || mark == ['.', '.', '.']) && isBlankOrEnd (c.peekAt 3)

/-- A comment up to the end of its line. -/
def skipComment (c : Cursor) : Cursor :=
  if c.peek == '#' then c.skipWhile (!isBreakOrEnd ·) else c

/-- The rest of a line that may hold a comment and nothing else. -/
def endLine (c : Cursor) : Except Problem Cursor :=
  let c := c.skipSpaces.skipComment
  if isBreakOrEnd c.peek then .ok c.lineBreak.2
  else unreadable "expected a comment or a line break"

end Cursor
end Runbook.Yaml
