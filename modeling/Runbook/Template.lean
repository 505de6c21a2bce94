import Runbook.Literal
import Runbook.Number.Whole
import Runbook.Scope
import Runbook.Text.Word

/-! Templates.

A placeholder is a path in double braces, `{{user.tags[0]}}`; behind it `:json` asks for the
text to be escaped for use inside quotes. `parts` cuts a template into plain characters and
placeholders, and `resolve` puts the text of each path's value in its place. Substituted text
is never looked at again. -/
namespace Runbook.Template

structure Placeholder where
  path : List Char
  escaped : Bool
deriving DecidableEq, Repr

/-! ### Paths -/

/-- What a step of a path stands between. -/
def isPathMark (c : Char) : Bool := c == '.' || c == '[' || c == ']'

/-- The steps of a path: runs between marks, and whatever stands in brackets. -/
def steps : Nat → List Char → List (List Char)
  | 0, _ => []
  | _, [] => []
  | fuel + 1, c :: cs =>
    if c = '[' then
      match Text.cutAt ']' cs with
      | (key, some rest) => key :: steps fuel rest
      | (_, none) => steps fuel cs
    else if isPathMark c then steps fuel cs
    else
      let run := cs.takeWhile (!isPathMark ·)
      (c :: run) :: steps fuel (cs.drop run.length)

def pathSteps (path : List Char) : List (List Char) := steps path.length path

/-- A step that looks like an index: digits behind minus signs. -/
def looksLikeIndex (key : List Char) : Bool :=
  let ds := key.dropWhile (· == '-')
  !ds.isEmpty && ds.all Text.isDigit

/-- The index that a variable holds, if it holds a whole number. -/
def indexFrom (v : Value) : Except Fault (Option Int) :=
  match Literal.number? v with
  | none => .ok none
  | some (.inl n) =>
    if Number.Binary64.exceeds n then .error (.overflow "int too large to convert to float")
    else .ok (some n)
  | some (.inr x) => .ok x.toInt?

/-- The item at an index, counted from the end where it is negative. -/
def item? (items : List Value) (i : Int) : Option Value :=
  if 0 ≤ i then items[i.toNat]?
  else if -(items.length : Int) ≤ i then items[(items.length + i).toNat]?
  else none

/-- One step into a value: an index into a list, or a key of a mapping. -/
def stepInto (scope : Scope) (v : Value) (key : List Char) : Except Fault (Option Value) :=
  match v with
  | .list items =>
    if looksLikeIndex key then return item? items (← Number.whole key)
    else match scope.get? (String.ofList key) with
      | none => return none
      | some held => return (← indexFrom held).bind (item? items)
  | .map entries => return Entries.get? (.str (String.ofList key)) entries
  | _ => return none

def walkInto (scope : Scope) (v : Value) : List (List Char) → Except Fault (Option Value)
  | [] => .ok (some v)
  | key :: rest => do
    match ← stepInto scope v key with
    | some v => walkInto scope v rest
    | none => return none

/-- The value that a path leads to, null where it leads nowhere. A text that the path goes
into is read as data text first. -/
def lookup (path : List Char) (scope : Scope) : Except Fault Value :=
  match pathSteps path with
  | [] => .ok .null
  | root :: rest =>
    match scope.get? (String.ofList root) with
    | none => .ok .null
    | some v =>
      if rest.isEmpty then .ok v
      else match v with
        | .str _ =>
          match Literal.load v with
          | .ok v => return (← walkInto scope v rest).getD .null
          | .error f => if f.isBadValue then .ok .null else .error f
        | v => return (← walkInto scope v rest).getD .null

/-! ### Placeholders -/

def isNameStart (c : Char) : Bool := Text.isAsciiLetter c || c == '_'

def isPathChar (c : Char) : Bool := Text.isWord c || isPathMark c || c == '-'

/-- The placeholder at the front of a text, and what follows it. -/
def placeholder? (cs : List Char) : Option (Placeholder × List Char) :=
  match cs with
  | '{' :: '{' :: cs =>
    match Text.trimStart cs with
    | c :: cs =>
      if isNameStart c then
        let path := c :: cs.takeWhile isPathChar
        let rest := cs.dropWhile isPathChar
        let (escaped, rest) := match Text.after? ":json".toList rest with
          | some rest => (true, rest)
          | none => (false, rest)
        match Text.trimStart rest with
        | '}' :: '}' :: rest => some (⟨path, escaped⟩, rest)
        | _ => none
      else none
    | [] => none
  | _ => none

/-- A piece of a template. -/
inductive Part
  | char (c : Char)
  | hole (p : Placeholder)
deriving DecidableEq, Repr

/-- The pieces of a template, from the left; every step takes at least one character. -/
def partsFrom : Nat → List Char → List Part
  | 0, _ => []
  | _, [] => []
  | fuel + 1, c :: cs =>
    match placeholder? (c :: cs) with
    | some (p, rest) => .hole p :: partsFrom fuel rest
    | none => .char c :: partsFrom fuel cs

def parts (cs : List Char) : List Part := partsFrom cs.length cs

/-- The text that a piece leaves. -/
def fill (scope : Scope) : Part → Except Fault (List Char)
  | .char c => .ok [c]
  | .hole p => do
    let text ← Literal.stringify (← lookup p.path scope)
    return if p.escaped then Json.escapeAll text.toList else text.toList

def fillAll (scope : Scope) : List Part → Except Fault (List Char)
  | [] => .ok []
  | p :: rest => do
    let here ← fill scope p
    let behind ← fillAll scope rest
    return here ++ behind

/-- The text with every placeholder filled. -/
def resolve (s : String) (scope : Scope) : Except Fault String := do
  return String.ofList (← fillAll scope (parts s.toList))

/-- The placeholder that a text consists of, blanks around it aside. -/
def whole? (cs : List Char) : Option Placeholder :=
  match placeholder? (Text.trim cs) with
  | some (p, []) => some p
  | _ => none

/-- The value that a text stands for: a text that is one bare placeholder passes the value
itself on, anything else is resolved as text. -/
def resolveValue (s : String) (scope : Scope) : Except Fault Value :=
  match whole? s.toList with
  | some ⟨path, false⟩ => do
    match ← lookup path scope with
    | .null => return .str ""
    | v => return v
  | _ => return .str (← resolve s scope)

/-- The text values of a mapping resolved, the others as they are. -/
def resolveEntries (scope : Scope) :
    List (Scalar × Value) → Except Fault (List (Scalar × Value))
  | [] => .ok []
  | (k, v) :: rest => do
    let v ← match v with
      | .str s => (resolve s scope).map .str
      | v => .ok v
    return (k, v) :: (← resolveEntries scope rest)

/-- The names at the roots of a template's paths, each once, in order. -/
def names (s : String) : List String :=
  (parts s.toList).foldl (fun acc part =>
    match part with
    | .char _ => acc
    | .hole p =>
      match pathSteps p.path with
      | root :: _ =>
        let name := String.ofList root
        if acc.contains name then acc else acc ++ [name]
      | [] => acc) []

end Runbook.Template
