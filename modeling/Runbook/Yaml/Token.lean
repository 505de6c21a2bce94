import Runbook.Yaml.Mark

/-! The tokens of a YAML text.

Blocks have no brackets: a sequence or mapping begins where a line goes further in than the
block around it, and ends where a line goes back out. A key of a mapping has no mark of its
own either: what may be a key is remembered, and becomes one when a colon follows it on the
same line. `Token.ofText` writes all of this out as tokens. -/
namespace Runbook.Yaml

inductive Token
  | directive (d : Directive)
  | documentStart
  | documentEnd
  | sequenceStart
  | mappingStart
  /-- The end of a block. -/
  | blockEnd
  | sequenceOpen
  | sequenceClose
  | mappingOpen
  | mappingClose
  | comma
  | entry
  | key
  | value
  | alias (name : String)
  | anchor (name : String)
  | tag (t : Tag)
  | scalar (text : String) (plain : Bool)
deriving DecidableEq, Repr

/-- A place where a key without a mark may begin. -/
structure Candidate where
  /-- How many tokens stand before it. -/
  position : Nat
  /-- Whether nothing but a key can stand there. -/
  required : Bool
  index : Nat
  line : Nat
  column : Nat

/-- Where the reader is in a text. -/
structure Scan where
  cursor : Cursor
  /-- The tokens so far, the last one first. -/
  emitted : List Token := []
  count : Nat := 0
  /-- The column of the innermost block; before the first column there is none. -/
  indent : Int := -1
  /-- The columns of the blocks around it. -/
  outer : List Int := []
  /-- How many brackets are open, each with its candidate; the last one is outside of all. -/
  candidates : List (Option Candidate) := [none]
  /-- Whether a key without a mark may begin here. -/
  allowsKey : Bool := true

namespace Scan

def inFlow (s : Scan) : Bool := s.candidates.length > 1

def emit (t : Token) (s : Scan) : Scan :=
  { s with emitted := t :: s.emitted, count := s.count + 1 }

/-- A token put in front of those from a position on. -/
def emitAt (position : Nat) (t : Token) (s : Scan) : Scan :=
  let (behind, before) := s.emitted.splitAt (s.count - position)
  { s with emitted := behind ++ t :: before, count := s.count + 1 }

def setCursor (c : Cursor) (s : Scan) : Scan := { s with cursor := c }

def allowKey (allowed : Bool) (s : Scan) : Scan := { s with allowsKey := allowed }

def candidate? (s : Scan) : Option Candidate := s.candidates.head?.join

def setCandidate (k : Option Candidate) (s : Scan) : Scan :=
  { s with candidates := k :: s.candidates.tail }

/-! ### Indentation -/

/-- Ends the innermost blocks that stand further in than a column; the list holds the columns
around them. -/
def closeBlocks (column : Int) : List Int → Scan → Scan
  | [], s => s
  | around :: rest, s =>
    if s.indent > column then
      closeBlocks column rest (emit .blockEnd { s with indent := around, outer := rest })
    else s

/-- Ends the blocks that stand further in than a column. -/
def unwind (column : Int) (s : Scan) : Scan :=
  if s.inFlow then s else closeBlocks column s.outer s

/-- Begins a block at a column, unless the innermost one stands there already. -/
def indentTo (column : Nat) (s : Scan) : Scan × Bool :=
  if s.indent < column then
    ({ s with indent := column, outer := s.indent :: s.outer }, true)
  else (s, false)

/-! ### Candidates for keys -/

def missingColon : String := "could not find expected ':'"

/-- A candidate that can no longer become a key: it is on a line before, or too far back. -/
def isStale (c : Cursor) (k : Candidate) : Bool :=
  k.line != c.line || c.index > k.index + 1024

/-- Forgets the candidates that can no longer become keys. -/
def dropStale (s : Scan) : Except Problem Scan :=
  let gone := fun (k : Option Candidate) => k.any (isStale s.cursor)
  if s.candidates.any fun k => gone k && k.any (·.required) then unreadable missingColon
  else .ok { s with candidates := s.candidates.map fun k => if gone k then none else k }

/-- Forgets the candidate inside the innermost brackets. -/
def dropCandidate (s : Scan) : Except Problem Scan :=
  if s.candidate?.any (·.required) then unreadable missingColon else .ok (s.setCandidate none)

/-- Remembers that a key may begin here, where one may. -/
def markCandidate (s : Scan) : Except Problem Scan := do
  let c := s.cursor
  if s.allowsKey then
    let s ← s.dropCandidate
    let required := !s.inFlow && s.indent == c.column
    return s.setCandidate (some ⟨s.count, required, c.index, c.line, c.column⟩)
  else return s

/-! ### Blanks -/

/-- Spaces, comments and line breaks in front of a token. A new line may begin with a key. -/
def skipBlanks : Nat → Scan → Scan
  | 0, s => s
  | fuel + 1, s =>
    let c := s.cursor.skipSpaces.skipComment
    if isLineBreak c.peek then
      let s := s.setCursor c.lineBreak.2
      skipBlanks fuel (if s.inFlow then s else s.allowKey true)
    else s.setCursor c

/-! ### Tokens -/

/-- Ends all blocks, as directives and the marks of documents do. -/
def endBlocks (s : Scan) : Except Problem Scan := do
  return (← (s.unwind (-1)).dropCandidate).allowKey false

/-- A mark of a document, of three characters. -/
def separator (t : Token) (s : Scan) : Except Problem Scan := do
  let s ← s.endBlocks
  return (s.setCursor (s.cursor.advance 3)).emit t

def openBracket (t : Token) (s : Scan) : Except Problem Scan := do
  let s ← s.markCandidate
  let s := (s.setCursor s.cursor.forward).emit t
  return { s with candidates := none :: s.candidates, allowsKey := true }

def closeBracket (t : Token) (s : Scan) : Except Problem Scan := do
  let s ← s.dropCandidate
  if s.inFlow then
    let s := (s.setCursor s.cursor.forward).emit t
    return { s with candidates := s.candidates.tail, allowsKey := false }
  else unreadable "found a bracket that was not opened"

/-- A one-character mark that ends a candidate and allows another. -/
def mark (t : Token) (allowed : Bool) (s : Scan) : Except Problem Scan := do
  let s ← (s.allowKey allowed).dropCandidate
  return (s.setCursor s.cursor.forward).emit t

/-- A block at the column of the cursor; outside of brackets only where a key may begin. -/
def beginBlock (t : Token) (what : String) (s : Scan) : Except Problem Scan :=
  if s.inFlow then .ok s
  else if !s.allowsKey then unreadable (what ++ " not allowed here")
  else
    let (s, isNew) := s.indentTo s.cursor.column
    .ok (if isNew then s.emit t else s)

def blockEntry (s : Scan) : Except Problem Scan := do
  (← s.beginBlock .sequenceStart "sequence entries are").mark .entry true

def explicitKey (s : Scan) : Except Problem Scan := do
  (← s.beginBlock .mappingStart "mapping keys are").mark .key !s.inFlow

/-- The mark of a value, which makes a key of what was remembered. -/
def value (s : Scan) : Except Problem Scan := do
  match s.candidate? with
  | some k =>
    let s := (s.setCandidate none).emitAt k.position .key
    let (s, isNew) := if s.inFlow then (s, false) else s.indentTo k.column
    let s := if isNew then s.emitAt k.position .mappingStart else s
    return ((s.allowKey false).setCursor s.cursor.forward).emit .value
  | none => (← s.beginBlock .mappingStart "mapping values are").mark .value !s.inFlow

/-- A token that may begin a key. -/
def keyLike (read : Cursor → Except Problem (Token × Cursor)) (s : Scan) :
    Except Problem Scan := do
  let s ← s.markCandidate
  let (t, c) ← read s.cursor
  return ((s.allowKey false).setCursor c).emit t

def plain (s : Scan) : Except Problem Scan := do
  let s ← s.markCandidate
  let p := plainScalar s.inFlow (s.indent + 1).toNat s.cursor
  return ((s.allowKey p.ended).setCursor p.cursor).emit (.scalar (String.ofList p.text) true)

def block (s : Scan) : Except Problem Scan := do
  let s ← (s.allowKey true).dropCandidate
  let (text, c) ← blockScalar s.indent s.cursor
  return (s.setCursor c).emit (.scalar text false)

/-- Whether a plain scalar may begin here. -/
def startsPlain (inFlow : Bool) (c : Cursor) : Bool :=
  let ch := c.peek
  !(isBlankOrEnd ch || "-?:,[]\x7b\x7d#&*!|>'\"%@`".toList.contains ch) ||
    (!isBlankOrEnd (c.peekAt 1) && (ch == '-' || (!inFlow && (ch == '?' || ch == ':'))))

/-- The token at the cursor, which is not at the end of the text. -/
def token (s : Scan) : Except Problem Scan :=
  let c := s.cursor
  let ch := c.peek
  let standsAlone := isBlankOrEnd (c.peekAt 1)
  if c.column == 0 && ch == '%' then do
    let s ← s.endBlocks
    let (d, c) ← directive s.cursor
    return (s.setCursor c).emit (.directive d)
  else if c.column == 0 && c.isAtSeparator then
    s.separator (if ch == '-' then .documentStart else .documentEnd)
  else match ch with
  | '[' => s.openBracket .sequenceOpen
  | '\x7b' => s.openBracket .mappingOpen
  | ']' => s.closeBracket .sequenceClose
  | '\x7d' => s.closeBracket .mappingClose
  | ',' => s.mark .comma true
  | '*' => s.keyLike fun c => do
    let (name, c) ← anchorName c
    return (.alias name, c)
  | '&' => s.keyLike fun c => do
    let (name, c) ← anchorName c
    return (.anchor name, c)
  | '!' => s.keyLike fun c => do
    let (t, c) ← tag c
    return (.tag t, c)
  | '\'' | '"' => s.keyLike fun c => do
    let (text, c) ← quotedScalar c
    return (.scalar text false, c)
  | ch =>
    if ch == '-' && standsAlone then s.blockEntry
    else if ch == '?' && (s.inFlow || standsAlone) then s.explicitKey
    else if ch == ':' && (s.inFlow || standsAlone) then s.value
    else if (ch == '|' || ch == '>') && !s.inFlow then s.block
    else if startsPlain s.inFlow c then s.plain
    else unreadable "found character that cannot start any token"

/-- All tokens up to the end of the text. -/
def run : Nat → Scan → Except Problem (List Token)
  | 0, _ => unreadable "found unexpected end of stream"
  | fuel + 1, s => do
    let s := s.skipBlanks (s.cursor.rest.length + 1)
    let s ← s.dropStale
    let s := s.unwind s.cursor.column
    if s.cursor.isAtEnd then return (← s.endBlocks).emitted.reverse
    else run fuel (← s.token)

end Scan

/-- The text without a byte order mark in front. -/
def withoutMark : List Char → Cursor
  | '\uFEFF' :: rest => { rest, index := 1 }
  | rest => { rest }

/-- The tokens of a text. -/
def Token.ofText (text : String) : Except Problem (List Token) :=
  if text.toList.all isAllowed then
    let c := withoutMark text.toList
    Scan.run (c.rest.length + 1) { cursor := c }
  else unreadable "special characters are not allowed"

end Runbook.Yaml
