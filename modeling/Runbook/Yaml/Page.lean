import Runbook.Text.Quoted
import Runbook.Yaml.Quoting

/-! A page that YAML is written on.

The page knows where its last line ends. A space in a text may become a line break once the
line is full, and the lines of a text behind the first one are indented. -/
namespace Runbook.Yaml

structure Page where
  /-- What is written, the last character first. -/
  written : List Char := []
  column : Nat := 0
  /-- Whether what comes next needs no space before it. -/
  isSpaced : Bool := true
  /-- Whether the line holds nothing but indentation and marks. -/
  isFresh : Bool := true
  /-- Whether the last text reaches to the end of the page, with its line breaks. -/
  isOpen : Bool := false

namespace Page

/-- A line is full when it is wider than this. -/
def width : Nat := 80

def put (p : Page) (cs : List Char) : Page :=
  { p with written := cs.reverse ++ p.written, column := p.column + cs.length }

def breakWith (p : Page) (c : Char) : Page :=
  { p with written := c :: p.written, column := 0, isSpaced := true, isFresh := true }

def breakLine (p : Page) : Page := p.breakWith '\n'

/-- Moves to an indentation: on this line if it holds no more than that, or else on a new
one. -/
def indentTo (p : Page) (n : Nat) : Page :=
  let p := if !p.isFresh || n < p.column || (p.column == n && !p.isSpaced) then p.breakLine else p
  if p.column < n then { p.put (List.replicate (n - p.column) ' ') with isSpaced := true } else p

/-- Writes a mark; `keepsFresh` says whether more may be indented behind it on its line. -/
def mark (p : Page) (s : String) (spaced keepsFresh : Bool) : Page :=
  let p' := p.put (if spaced && !p.isSpaced then ' ' :: s.toList else s.toList)
  { p' with isSpaced := false, isFresh := p.isFresh && keepsFresh, isOpen := false }

/-- The text is in hand: neither space nor indentation stands at its end. -/
def engaged (p : Page) : Page := { p with isSpaced := false, isFresh := false }

/-! ### Runs -/

/-- What a text is divided into: spaces, line breaks, and everything else. -/
inductive Run
  | spaces
  | breaks
  | words
deriving DecidableEq

def Run.of (c : Char) : Run :=
  if c == ' ' then .spaces else if Quoting.isBreak c then .breaks else .words

/-- The kind of a run, which is that of its first character. -/
def Run.kind (cs : List Char) : Run := Run.of (cs.headD ' ')

/-- A text in runs of one kind. -/
def runs (cs : List Char) : List (List Char) := cs.splitBy fun a b => Run.of a == Run.of b

/-- Line breaks as they are. -/
def putBreaks (p : Page) (cs : List Char) : Page := cs.foldl breakWith p

/-! ### Plain and single quotes -/

/-- Writes the runs of a text; where it may be split, a single space between two runs becomes a
line break on a full line. A first line feed is written twice. -/
def putRuns (indent : Nat) (splits : Bool) : (isFirst : Bool) → List (List Char) → Page → Page
  | _, [], p => p
  | isFirst, run :: rest, p =>
    let p := match Run.kind run with
      | .spaces =>
        if splits && run.length == 1 && width < p.column && !isFirst && !rest.isEmpty
        then (p.indentTo indent).engaged else p.put run
      | .breaks =>
        let p := if run.head? == some '\n' then p.breakLine else p
        (p.putBreaks run).indentTo indent
      | .words => p.put run
    putRuns indent splits false rest p

def putPlain (indent : Nat) (splits : Bool) (cs : List Char) (p : Page) : Page :=
  putRuns indent splits true (runs cs) (if p.isSpaced then p else p.put [' ']).engaged

/-- Single quotes inside single quotes are written twice. -/
def doubled (cs : List Char) : List Char :=
  cs.flatMap fun c => if c == '\'' then ['\'', '\''] else [c]

def putSingle (indent : Nat) (splits : Bool) (cs : List Char) (p : Page) : Page :=
  let p := putRuns indent splits true ((runs cs).map doubled) (p.mark "'" true false)
  p.mark "'" false false

/-! ### Double quotes -/

/-- The letter that stands for a character behind a backslash. -/
def escapeLetter? (c : Char) : Option Char :=
  match c with
  | '\x00' => some '0'
  | '\x07' => some 'a'
  | '\x08' => some 'b'
  | '\t' => some 't'
  | '\n' => some 'n'
  | '\x0B' => some 'v'
  | '\x0C' => some 'f'
  | '\r' => some 'r'
  | '\x1B' => some 'e'
  | '"' => some '"'
  | '\\' => some '\\'
  | '\x85' => some 'N'
  | '\u2028' => some 'L'
  | '\u2029' => some 'P'
  | _ => none

/-- Whether a character stands for itself in double quotes; none beyond the first plane does. -/
def isLiteral (c : Char) : Bool :=
  (escapeLetter? c).isNone && c != '\uFEFF' &&
    ((' ' ≤ c && c ≤ '~') || ('\xA0' ≤ c && c.toNat ≤ 0xFFFD))

/-- A number in capital hexadecimal digits, at the given width. -/
def capitals (width n : Nat) : List Char := (Text.hex width n).map Char.toUpper

def escape (c : Char) : List Char :=
  let n := c.toNat
  match escapeLetter? c with
  | some letter => ['\\', letter]
  | none =>
    if n ≤ 0xFF then '\\' :: 'x' :: capitals 2 n
    else if n ≤ 0xFFFF then '\\' :: 'u' :: capitals 4 n
    else '\\' :: 'U' :: capitals 8 n

/-- Ends a line inside double quotes; a space that comes next is escaped. -/
def fold (p : Page) (indent : Nat) (beforeSpace : Bool) : Page :=
  let p := ((p.put ['\\']).indentTo indent).engaged
  if beforeSpace then p.put ['\\'] else p

/-- Writes a text with escapes. `held` are the characters that are not yet on the page, the last
one first; a full line ends before a space or an escape's neighbour. -/
def putEscaped (indent : Nat) (splits : Bool) : (isFirst : Bool) → (held : List Char) →
    List Char → Page → Page
  | _, held, [], p => p.put held.reverse
  | isFirst, held, c :: rest, p =>
    let folds := splits && !isFirst && !rest.isEmpty
    if isLiteral c then
      if folds && (c == ' ' || held.isEmpty) && width < p.column + held.length then
        putEscaped indent splits false [c] rest ((p.put held.reverse).fold indent (c == ' '))
      else putEscaped indent splits false (c :: held) rest p
    else
      let p := (p.put held.reverse).put (escape c)
      let p := if folds && width + 1 < p.column then p.fold indent (rest.head? == some ' ') else p
      putEscaped indent splits false [] rest p

def putDouble (indent : Nat) (splits : Bool) (cs : List Char) (p : Page) : Page :=
  (putEscaped indent splits true [] cs (p.mark "\"" true false)).mark "\"" false false

/-! ### Blocks -/

/-- What stands behind the bar of a block: the indentation where the text itself begins with
blanks, and what becomes of the line breaks at its end. -/
def blockHints (cs : List Char) : String :=
  let front := if Quoting.startsWith (fun c => c == ' ' || Quoting.isBreak c) cs then "2" else ""
  let back := match cs.reverse with
    | last :: before =>
      if !Quoting.isBreak last then "-"
      else if before.isEmpty || Quoting.startsWith Quoting.isBreak before then "+" else ""
    | [] => ""
  front ++ back

/-- The lines of a block, each behind its indentation. -/
def putLines (indent : Nat) : List (List Char) → Page → Page
  | [], p => p
  | run :: rest, p =>
    let p := match Run.kind run with
      | .breaks => p.putBreaks run
      | _ =>
        let p := (p.indentTo indent).put run
        if rest.isEmpty then p.breakLine else p
    putLines indent rest p

/-- A text in runs of line breaks and of what stands between them. -/
def lineRuns (cs : List Char) : List (List Char) :=
  cs.splitBy fun a b => Quoting.isBreak a == Quoting.isBreak b

def putBlock (indent : Nat) (cs : List Char) (p : Page) : Page :=
  let hints := blockHints cs
  let p := p.mark ("|" ++ hints) true false
  putLines indent (lineRuns cs) { p with isOpen := hints.endsWith "+" }.breakLine

/-! ### Texts -/

/-- Writes a text; one that may not be split stays on its line. -/
def putText (indent : Nat) (splits : Bool) (s : String) (p : Page) : Page :=
  let cs := s.toList
  match Quoting.ofText cs with
  | .plain => putPlain indent splits cs p
  | .single => putSingle indent splits cs p
  | .double => putDouble indent splits cs p
  | .block => putBlock indent cs p

end Page
end Runbook.Yaml
