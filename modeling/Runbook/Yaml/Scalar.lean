import Runbook.Yaml.Cursor

/-! Scalars: plain, quoted, and in blocks.

Inside every kind of scalar, lines are folded: a single line break is read as a space, and of
several the first one is dropped. Only blocks may keep their lines as they are. -/
namespace Runbook.Yaml

/-- The breaks of a folded text: a lone line feed is a space, and the first of several goes. -/
def folded (first : List Char) (more : List Char) : List Char :=
  if first != ['\n'] then first ++ more
  else if more.isEmpty then [' '] else more

/-! ### Quoted scalars -/

/-- What a character stands for behind a backslash. -/
def escape? : Char → Option Char
  | '0' => some '\x00'
  | 'a' => some '\x07'
  | 'b' => some '\x08'
  | 't' => some '\t'
  | '\t' => some '\t'
  | 'n' => some '\n'
  | 'v' => some '\x0b'
  | 'f' => some '\x0c'
  | 'r' => some '\r'
  | 'e' => some '\x1b'
  | ' ' => some ' '
  | '"' => some '"'
  | '\\' => some '\\'
  | '/' => some '/'
  | 'N' => some '\x85'
  | '_' => some '\xa0'
  | 'L' => some '\u2028'
  | 'P' => some '\u2029'
  | _ => none

/-- The number of digits of a character's number, by the letter in front of them. -/
def digitsAfter? : Char → Option Nat
  | 'x' => some 2
  | 'u' => some 4
  | 'U' => some 8
  | _ => none

/-- A number in hexadecimal digits. -/
def hexNumber? (ds : List Char) : Option Nat :=
  ds.foldl (fun n d => do return (← n) * 16 + (← hexDigit? d)) (some 0)

/-- The character with a number. -/
def numbered (n : Nat) : Except Problem Char :=
  if n ≤ 0x10FFFF then .ok (if 0xD800 ≤ n && n ≤ 0xDFFF then '\uFFFD' else Char.ofNat n)
  else if n < Nat.pow 2 31 then .error (.fault (.badValue "chr() arg not in range(0x110000)"))
  else .error (.fault (.overflow "Python int too large to convert to C int"))

/-- The line breaks at the front, with the blanks around them dropped. -/
def quotedBreaks : Nat → Cursor → Except Problem (List Char × Cursor)
  | 0, c => .ok ([], c)
  | fuel + 1, c =>
    if c.isAtSeparator then unreadable "found unexpected document separator"
    else
      let c := c.skipWhile fun ch => ch == ' ' || ch == '\t'
      if isLineBreak c.peek then do
        let (br, c) := c.lineBreak
        let (more, c) ← quotedBreaks fuel c
        return (br ++ more, c)
      else .ok ([], c)

/-- The blanks at the front of the rest of a quoted scalar, folded. -/
def quotedBlanks (c : Cursor) : Except Problem (List Char × Cursor) :=
  let (blanks, c) := c.takeWhile fun ch => ch == ' ' || ch == '\t'
  if c.isAtEnd then unreadable "found unexpected end of stream"
  else if isLineBreak c.peek then do
    let (br, c) := c.lineBreak
    let (more, c) ← quotedBreaks c.rest.length c
    return (folded br more, c)
  else .ok (blanks, c)

/-- An escape; the cursor is behind the backslash. -/
def escaped (c : Cursor) : Except Problem (List Char × Cursor) :=
  let ch := c.peek
  match escape? ch, digitsAfter? ch with
  | some e, _ => if c.isAtEnd then unreadable "found unknown escape character"
    else .ok ([e], c.forward)
  | none, some count =>
    let c := c.forward
    let ds := c.rest.take count
    match hexNumber? ds with
    | some n =>
      if ds.length == count then do return ([← numbered n], c.advance count)
      else unreadable "expected escape sequence of hexadecimal numbers"
    | none => unreadable "expected escape sequence of hexadecimal numbers"
  | none, none =>
    if isLineBreak ch then
      let c := c.lineBreak.2
      quotedBreaks c.rest.length c
    else unreadable "found unknown escape character"

/-- The rest of a quoted scalar, up to and with the quote that ends it. -/
def quotedRest (quote : Char) : Nat → Cursor → Except Problem (List Char × Cursor)
  | 0, _ => unreadable "found unexpected end of stream"
  | fuel + 1, c =>
    let ch := c.peek
    if c.isAtEnd then unreadable "found unexpected end of stream"
    else if ch == '\'' && quote == '\'' && c.peekAt 1 == '\'' then do
      let (more, c) ← quotedRest quote fuel (c.advance 2)
      return ('\'' :: more, c)
    else if ch == quote then .ok ([], c.forward)
    else if ch == '\\' && quote == '"' then do
      let (here, c) ← escaped c.forward
      let (more, c) ← quotedRest quote fuel c
      return (here ++ more, c)
    else if isLineBreak ch || ch == ' ' || ch == '\t' then do
      let (here, c) ← quotedBlanks c
      let (more, c) ← quotedRest quote fuel c
      return (here ++ more, c)
    else do
      let (more, c) ← quotedRest quote fuel c.forward
      return (ch :: more, c)

/-- A quoted scalar; the cursor is at its first quote. -/
def quotedScalar (c : Cursor) : Except Problem (String × Cursor) := do
  let (cs, c) ← quotedRest c.peek c.rest.length c.forward
  return (String.ofList cs, c)

/-! ### Plain scalars -/

/-- The marks that end a plain scalar inside brackets. -/
def isFlowMark (c : Char) : Bool := c == ',' || c == '?' || c == '[' || c == ']' || c == '\x7b' ||
  c == '\x7d'

/-- Whether a colon before a character is the mark of a value. -/
def endsKey (inFlow : Bool) (c : Char) : Bool :=
  isBlankOrEnd c || (inFlow && isFlowMark c && c != '?')

/-- The characters of a plain scalar up to a blank or a mark. -/
def plainRun (inFlow : Bool) : List Char → List Char
  | [] => []
  | c :: rest =>
    if isBlankOrEnd c || (c == ':' && endsKey inFlow (rest.headD endMark)) ||
      (inFlow && isFlowMark c) then []
    else c :: plainRun inFlow rest

/-- The line breaks behind the first one in a plain scalar; none where a document ends. -/
def plainBreaks : Nat → Cursor → Option (List Char) × Cursor
  | 0, c => (some [], c)
  | fuel + 1, c =>
    let c := c.skipSpaces
    if isLineBreak c.peek then
      let (br, c) := c.lineBreak
      if c.isAtSeparator then (none, c)
      else
        let (more, c) := plainBreaks fuel c
        (more.map (br ++ ·), c)
    else (some [], c)

/-- The blanks behind a part of a plain scalar: folded, with the cursor behind them, and
whether a line was ended. Nothing ends the scalar. -/
def plainBlanks (c : Cursor) : List Char × Cursor × Bool :=
  let (blanks, c) := c.takeWhile (· == ' ')
  if isLineBreak c.peek then
    let (br, c) := c.lineBreak
    if c.isAtSeparator then ([], c, true)
    else
      match plainBreaks c.rest.length c with
      | (some more, c) => (folded br more, c, true)
      | (none, c) => ([], c, true)
  else (blanks, c, false)

/-- What a plain scalar takes. -/
structure Plain where
  text : List Char
  cursor : Cursor
  /-- Whether the last blanks behind it ended a line. -/
  ended : Bool

/-- The parts of a plain scalar behind some blanks. -/
def plainParts (inFlow : Bool) (indent : Nat) : Nat → List Char → Cursor → Bool → Plain
  | 0, _, c, ended => ⟨[], c, ended⟩
  | fuel + 1, blanks, c, ended =>
    let run := if c.peek == '#' then [] else plainRun inFlow c.rest
    if run.isEmpty then ⟨[], c, ended⟩
    else
      let (next, c, ended) := plainBlanks (c.advance run.length)
      if next.isEmpty || c.peek == '#' || (!inFlow && c.column < indent) then
        ⟨blanks ++ run, c, ended⟩
      else
        let p := plainParts inFlow indent fuel next c ended
        { p with text := blanks ++ run ++ p.text }

/-- A plain scalar whose lines stand at least at a column. -/
def plainScalar (inFlow : Bool) (indent : Nat) (c : Cursor) : Plain :=
  plainParts inFlow indent (c.rest.length + 1) [] c false

/-! ### Blocks -/

/-- Which line breaks at the end of a block belong to it. -/
inductive Chomping
  | strip | clip | keep
deriving DecidableEq, Repr

def Chomping.ofChar? : Char → Option Chomping
  | '+' => some .keep
  | '-' => some .strip
  | _ => none

/-- The indentation that a digit asks for. -/
def increment? (c : Char) : Option Nat :=
  if '0' ≤ c && c ≤ '9' then some (c.toNat - 48) else none

/-- What stands in the first line of a block. -/
structure BlockHead where
  chomping : Chomping := .clip
  increment : Option Nat := none

def takeChomping (c : Cursor) : Option Chomping × Cursor :=
  match Chomping.ofChar? c.peek with
  | some ch => (some ch, c.forward)
  | none => (none, c)

def takeIncrement (c : Cursor) : Except Problem (Option Nat × Cursor) :=
  match increment? c.peek with
  | some 0 => unreadable "expected indentation indicator in the range 1-9"
  | some n => .ok (some n, c.forward)
  | none => .ok (none, c)

/-- The marks behind a block's own one, in either order. -/
def blockHead (c : Cursor) : Except Problem (BlockHead × Cursor) := do
  let (first, c) := takeChomping c
  let (increment, c) ← takeIncrement c
  let (chomping, c) := match first, increment with
    | none, some _ => takeChomping c
    | first, _ => (first, c)
  if isSpaceOrEnd c.peek then return (⟨chomping.getD .clip, increment⟩, c)
  else unreadable "expected chomping or indentation indicators"

/-- The empty lines at the front of a block, and the widest indentation among them and the
first line with text. -/
def blockStart : Nat → Nat → Cursor → List Char × Nat × Cursor
  | 0, widest, c => ([], widest, c)
  | fuel + 1, widest, c =>
    if c.peek == ' ' then
      let c := c.forward
      blockStart fuel (max widest c.column) c
    else if isLineBreak c.peek then
      let (br, c) := c.lineBreak
      let (more, widest, c) := blockStart fuel widest c
      (br ++ more, widest, c)
    else ([], widest, c)

/-- The spaces in front of a line, up to a column. -/
def indentTo (indent : Nat) : Nat → Cursor → Cursor
  | 0, c => c
  | fuel + 1, c =>
    if c.column < indent && c.peek == ' ' then indentTo indent fuel c.forward else c

/-- Empty lines, and the indentation behind them. -/
def blockBreaks (indent : Nat) : Nat → Cursor → List Char × Cursor
  | 0, c => ([], c)
  | fuel + 1, c =>
    let c := indentTo indent c.rest.length c
    if isLineBreak c.peek then
      let (br, c) := c.lineBreak
      let (more, c) := blockBreaks indent fuel c
      (br ++ more, c)
    else ([], c)

/-- The breaks between two lines of a block. -/
def blockJoin (foldsLines : Bool) (first last : Char) (br more : List Char) : List Char :=
  let isText := fun ch => !(ch == ' ' || ch == '\t')
  if foldsLines && br == ['\n'] && isText first && isText last then
    (if more.isEmpty then [' '] else []) ++ more
  else br ++ more

/-- The lines of a block from a line that starts at its indentation; `first` is what the block
has in front of the line. -/
def blockLines (foldsLines : Bool) (chomping : Chomping) (indent : Nat) :
    Nat → Cursor → List Char × Cursor
  | 0, c => ([], c)
  | fuel + 1, c =>
    let first := c.peek
    let (line, c) := c.takeWhile (!isBreakOrEnd ·)
    let (br, c) := c.lineBreak
    let (more, c) := blockBreaks indent c.rest.length c
    if c.column == indent && !c.isAtEnd then
      let (behind, next) := blockLines foldsLines chomping indent fuel c
      (line ++ blockJoin foldsLines first c.peek br more ++ behind, next)
    else
      let trail := match chomping with
        | .strip => []
        | .clip => br
        | .keep => br ++ more
      (line ++ trail, c)

/-- A block; the cursor is at its mark, and `parent` is the column it must stand beyond. -/
def blockScalar (parent : Int) (c : Cursor) : Except Problem (String × Cursor) := do
  let foldsLines := c.peek == '>'
  let (head, c) ← blockHead c.forward
  let c ← c.endLine
  let least := max 1 (parent + 1).toNat
  let (breaks, indent, c) := match head.increment with
    | some n =>
      let indent := least + n - 1
      let (breaks, c) := blockBreaks indent c.rest.length c
      (breaks, indent, c)
    | none =>
      let (breaks, widest, c) := blockStart c.rest.length 0 c
      (breaks, max least widest, c)
  if c.column == indent && !c.isAtEnd then
    let (text, c) := blockLines foldsLines head.chomping indent (c.rest.length + 1) c
    return (String.ofList (breaks ++ text), c)
  else
    return (String.ofList (if head.chomping == .keep then breaks else []), c)

end Runbook.Yaml
