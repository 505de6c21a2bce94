import Runbook.Fault
import Runbook.Value

/-! Scopes: the variables of one running workflow.

A name is any text but the empty one. A nested call starts from a scope of its own, which
holds its inputs and nothing else; what it leaves behind reaches the caller only through
`exports`. -/
namespace Runbook

structure Scope where
  bindings : List (String × Value)
deriving Repr, Inhabited

namespace Scope

def empty : Scope := ⟨[]⟩

def get? (s : Scope) (name : String) : Option Value := Entries.get? name s.bindings

def has (s : Scope) (name : String) : Bool := (s.get? name).isSome

def names (s : Scope) : List String := Entries.keys s.bindings

def size (s : Scope) : Nat := s.bindings.length

/-- The refusal of a name, as it is shown. -/
def invalidName (shown : String) : Fault := .badValue ("Invalid variable name: " ++ shown)

/-- Binds a name, in its place if it is bound already. -/
def set (s : Scope) (name : String) (v : Value) : Except Fault Scope :=
  if name = "" then .error (invalidName "''") else .ok ⟨Entries.insert name v s.bindings⟩

/-- Binds the name that a value is; only texts are names. -/
def setNamed (s : Scope) (name v : Value) : Except Fault Scope :=
  match name with
  | .str n => s.set n v
  | n => .error (invalidName n.shown)

def erase (s : Scope) (name : String) : Except Fault Scope :=
  if s.has name then .ok ⟨Entries.erase name s.bindings⟩ else .error (.noSuchKey name)

/-- Binds several names in order, and stops at the first that is refused: what was bound
before it stays. -/
def setAll (s : Scope) : List (String × Value) → Scope × Option Fault
  | [] => (s, none)
  | (name, v) :: rest =>
    match s.set name v with
    | .ok s => s.setAll rest
    | .error f => (s, some f)

/-- The variables as one value. -/
def toValue (s : Scope) : Value := .record s.bindings

/-- What a finished nested call leaves to its caller: the children named in a mapping of
caller's names to children's, or every child behind a common beginning where there is none. -/
def exports (child : Scope) (mapping : List (String × String)) (beginning : String) :
    List (String × Value) :=
  if mapping.isEmpty then
    Entries.ofList (child.bindings.map fun (name, v) => (beginning ++ name, v))
  else
    Entries.ofList (mapping.filterMap fun (parent, name) => (child.get? name).map (parent, ·))

end Scope
end Runbook
