import Runbook.Entries
import Runbook.Number.Shortest
import Runbook.Text.Quoted
import Runbook.Yaml.Moment

/-! Values.

What variables, properties, payloads and records hold: scalars, lists, and mappings whose
keys are scalars too and keep their order. Data text has no bytes and no moments;
`IsData` says that a value has none. -/
namespace Runbook

open Number

inductive Scalar
  | null
  | bool (b : Bool)
  | int (n : Int)
  | float (x : Binary64)
  | str (s : String)
  | bytes (bytes : List UInt8)
  /-- A date or a point in time, in its written form. -/
  | moment (text : String)
deriving DecidableEq, Repr, Inhabited

inductive Value
  | scalar (s : Scalar)
  | list (items : List Value)
  | map (entries : List (Scalar × Value))
deriving Repr

namespace Scalar

/-- The number that a scalar counts as; truth values count as one and zero. -/
def number? : Scalar → Option (Int ⊕ Binary64)
  | bool b => some (.inl (if b then 1 else 0))
  | int n => some (.inl n)
  | float x => some (match x.toInt? with | some n => .inl n | none => .inr x)
  | _ => none

/-- Whether two scalars are the same key. Numbers are compared by value, whatever their type. -/
def same (a b : Scalar) : Bool :=
  match a.number?, b.number? with
  | some (.inl m), some (.inl n) => m == n
  | some (.inr x), some (.inr y) => x.compare? y == some .eq
  | none, none => decide (a = b)
  | _, _ => false

instance : BEq Scalar := ⟨same⟩

end Scalar

namespace Value

instance : Inhabited Value := ⟨.scalar .null⟩

@[match_pattern] def null : Value := .scalar .null
@[match_pattern] def bool (b : Bool) : Value := .scalar (.bool b)
@[match_pattern] def int (n : Int) : Value := .scalar (.int n)
@[match_pattern] def float (x : Binary64) : Value := .scalar (.float x)
@[match_pattern] def str (s : String) : Value := .scalar (.str s)
@[match_pattern] def bytes (b : List UInt8) : Value := .scalar (.bytes b)

/-- A mapping with text keys. -/
def record (fields : List (String × Value)) : Value := .map (fields.map fun (k, v) => (.str k, v))

def strs (xs : List String) : Value := .list (xs.map str)

def opt : Option String → Value
  | some s => str s
  | none => null

/-- The value of a field, in a mapping that has it. -/
def field? (name : String) : Value → Option Value
  | .map entries => Entries.get? (.str name) entries
  | _ => none

/-- Zero, the empty text, the empty collection, false and null count as nothing. -/
def truthy : Value → Bool
  | null => false
  | bool b => b
  | int n => n != 0
  | float x => !x.isZero
  | str s => !s.isEmpty
  | bytes b => !b.isEmpty
  | .scalar (.moment _) => true
  | .list items => !items.isEmpty
  | .map entries => !entries.isEmpty

mutual

/-- Whether data text can hold the value: text keys, no key twice, no bytes and no moments. -/
def IsData : Value → Prop
  | .scalar (.bytes _) | .scalar (.moment _) => False
  | .scalar _ => True
  | .list items => AreData items
  | .map entries => (entries.map (·.1)).Nodup ∧ EntriesAreData entries

def AreData : List Value → Prop
  | [] => True
  | v :: rest => IsData v ∧ AreData rest

def EntriesAreData : List (Scalar × Value) → Prop
  | [] => True
  | (k, v) :: rest => (∃ s, k = .str s) ∧ IsData v ∧ EntriesAreData rest

end

end Value

/-! ### Display -/

/-- The longest numeral, in digits, that is written or read as a whole number. -/
def digitLimit : Nat := 4300

/-- The numeral of a whole number, unless it is too long. -/
def numeral? (n : Int) : Option String :=
  let s := toString n.natAbs
  if s.length ≤ digitLimit then some (if n < 0 then "-" ++ s else s) else none

/-- A scalar as it is shown inside another text. -/
def Scalar.shown : Scalar → String
  | .null => "None"
  | .bool b => if b then "True" else "False"
  | .int n => toString n
  | .float x => Number.plain.text x
  | .str s => Text.quoted s
  | .bytes b => Text.quotedBytes b
  | .moment t => ((Yaml.Moment.ofChars? t.toList).map (·.shown)).getD t

mutual

/-- A value as it is shown inside another text: brackets and braces, texts in quotes. -/
def Value.shown : Value → String
  | .scalar s => s.shown
  | .list items => "[" ++ shownItems true items ++ "]"
  | .map entries => "\x7b" ++ shownEntries true entries ++ "\x7d"

def shownItems (first : Bool) : List Value → String
  | [] => ""
  | v :: rest => (if first then "" else ", ") ++ v.shown ++ shownItems false rest

def shownEntries (first : Bool) : List (Scalar × Value) → String
  | [] => ""
  | (k, v) :: rest =>
    (if first then "" else ", ") ++ k.shown ++ ": " ++ v.shown ++ shownEntries false rest

end

/-- A scalar as text: a text and a moment are their own display, all else is as inside another
text. -/
def Scalar.display : Scalar → String
  | .str s => s
  | .moment t => t
  | s => s.shown

def Value.display : Value → String
  | .scalar s => s.display
  | v => v.shown

end Runbook
