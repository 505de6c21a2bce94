import Runbook.Text.Utf8
import Runbook.Yaml.Scalar

/-! Marks that say something about a node or a document.

An anchor names a node and an alias repeats it, a tag says what a node is, and a directive
stands in front of a document. -/
namespace Runbook.Yaml

/-- The characters of the names of anchors, tags and directives. -/
def isNameChar (c : Char) : Bool :=
  ('0' ≤ c && c ≤ '9') || ('A' ≤ c && c ≤ 'Z') || ('a' ≤ c && c ≤ 'z') || c == '-' || c == '_'

/-- The characters of a tag itself. -/
def isTagChar (c : Char) : Bool :=
  isNameChar c || ";/?:@&=+$,.!~*'()[]%".toList.contains c

/-! ### Anchors -/

/-- What may follow the name of an anchor. -/
def endsAnchor (c : Char) : Bool := isBlankOrEnd c || "?:,]\x7d%@`".toList.contains c

/-- The name of an anchor or alias; the cursor is at its mark. -/
def anchorName (c : Cursor) : Except Problem (String × Cursor) :=
  let (name, c) := c.forward.takeWhile isNameChar
  if name.isEmpty || !endsAnchor c.peek then
    unreadable "expected alphabetic or numeric character"
  else .ok (String.ofList name, c)

/-! ### Tags -/

/-- A tag as it is written: in full, or a handle that a document may define and the rest. -/
structure Tag where
  handle : Option String
  suffix : String
deriving DecidableEq, Repr

/-- The tag that asks for the same kind as none, whatever the quotes. -/
def bareTag : Tag := ⟨none, "!"⟩

/-- The bytes written as percent signs and two digits each, at the front. -/
def escapedBytes : Nat → Cursor → Except Problem (List UInt8 × Cursor)
  | 0, c => .ok ([], c)
  | fuel + 1, c =>
    if c.peek != '%' then .ok ([], c)
    else
      match hexDigit? (c.peekAt 1), hexDigit? (c.peekAt 2) with
      | some high, some low => do
        let (more, c) ← escapedBytes fuel (c.advance 3)
        return (UInt8.ofNat (high * 16 + low) :: more, c)
      | _, _ => unreadable "expected escape sequence of two hexadecimal numbers"

/-- The parts of a tag's text, with escapes read as the characters that they encode. -/
def tagParts : Nat → Cursor → Except Problem (List Char × Cursor)
  | 0, c => .ok ([], c)
  | fuel + 1, c =>
    if c.peek == '%' then do
      let (bytes, c) ← escapedBytes c.rest.length c
      match Text.decode? bytes with
      | some text =>
        let (more, c) ← tagParts fuel c
        return (text.toList ++ more, c)
      | none => unreadable "escaped bytes are no text"
    else
      let (run, c) := c.takeWhile fun ch => isTagChar ch && ch != '%'
      if run.isEmpty then .ok ([], c)
      else do
        let (more, c) ← tagParts fuel c
        return (run ++ more, c)

/-- The text of a tag, which is not empty where it has a character or an escape. -/
def tagText (c : Cursor) : Except Problem (String × Cursor) := do
  if isTagChar c.peek then
    let (text, c) ← tagParts c.rest.length c
    return (String.ofList text, c)
  else unreadable "expected URI"

/-- A handle: one mark, two, or a name between two. -/
def tagHandle (c : Cursor) : Except Problem (String × Cursor) :=
  if c.peek != '!' then unreadable "expected '!'"
  else if c.peekAt 1 == ' ' then .ok ("!", c.forward)
  else
    let (name, c) := c.forward.takeWhile isNameChar
    if c.peek != '!' then unreadable "expected '!'"
    else .ok (String.ofList ('!' :: name ++ ['!']), c.forward)

/-- Whether another mark follows before the tag ends. -/
def hasHandle : List Char → Bool
  | [] => false
  | c :: rest => !isSpaceOrEnd c && (c == '!' || hasHandle rest)

/-- A tag; the cursor is at its mark. -/
def tag (c : Cursor) : Except Problem (Tag × Cursor) := do
  let (t, c) ←
    if c.peekAt 1 == '<' then do
      let (text, c) ← tagText (c.advance 2)
      if c.peek != '>' then unreadable "expected '>'"
      else pure (⟨none, text⟩, c.forward)
    else if isBlankOrEnd (c.peekAt 1) then pure (bareTag, c.forward)
    else if hasHandle c.forward.rest then do
      let (handle, c) ← tagHandle c
      let (text, c) ← tagText c
      pure (⟨some handle, text⟩, c)
    else do
      let (text, c) ← tagText c.forward
      pure (⟨some "!", text⟩, c)
  if isSpaceOrEnd c.peek then return (t, c)
  else unreadable "expected ' '"

/-! ### Directives -/

inductive Directive
  /-- The version that a document asks for; only its first number counts. -/
  | version (major : Nat)
  | handle (name text : String)
  | other
deriving DecidableEq, Repr

/-- A number in decimal digits. -/
def versionNumber (c : Cursor) : Except Problem (Nat × Cursor) :=
  let (digits, c) := c.takeWhile fun ch => '0' ≤ ch && ch ≤ '9'
  if digits.isEmpty then unreadable "expected a digit"
  else .ok (digits.foldl (fun n d => n * 10 + (d.toNat - 48)) 0, c)

def versionDirective (c : Cursor) : Except Problem (Directive × Cursor) := do
  let (major, c) ← versionNumber c
  if c.peek != '.' then unreadable "expected a digit or '.'"
  else
    let (_, c) ← versionNumber c.forward
    if isSpaceOrEnd c.peek then return (.version major, c)
    else unreadable "expected a digit or ' '"

def handleDirective (c : Cursor) : Except Problem (Directive × Cursor) := do
  let (name, c) ← tagHandle c
  if c.peek != ' ' then unreadable "expected ' '"
  else
    let (text, c) ← tagText c.skipSpaces
    if isSpaceOrEnd c.peek then return (.handle name text, c)
    else unreadable "expected ' '"

/-- A directive and the rest of its line; the cursor is at its mark. -/
def directive (c : Cursor) : Except Problem (Directive × Cursor) := do
  let (name, c) := c.forward.takeWhile isNameChar
  if name.isEmpty || !isSpaceOrEnd c.peek then
    unreadable "expected alphabetic or numeric character"
  else
    let (d, c) ←
      if name == "YAML".toList then versionDirective c.skipSpaces
      else if name == "TAG".toList then handleDirective c.skipSpaces
      else pure (Directive.other, c.skipWhile (!isBreakOrEnd ·))
    return (d, ← c.endLine)

end Runbook.Yaml
