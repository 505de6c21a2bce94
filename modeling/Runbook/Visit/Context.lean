import Runbook.Number.Numeral
import Runbook.Session

/-! A visit to a node: what the node can see, and what comes of it.

A node sees its properties with every placeholder filled, the scope of its own walk, and the
providers. It changes no variable itself: its outcome names the variables to be bound. -/
namespace Runbook

/-- What a visit came to. -/
structure Outcome where
  output : Value := .null
  writes : List (String × Value) := []
  branch : Option Bool := none
  status : StepStatus := .success
  error : Option String := none
deriving Repr

structure Context (σ : Type) where
  node : Node
  properties : List (String × String)
  scope : Scope
  providers : Providers σ
  /-- Whether this walk visits the node for the first time. -/
  firstVisit : Bool := true
  /-- Runs another workflow from a scope of its own, and gives the scope it ends with. -/
  runNested : Option (Workflow → Scope → Act σ Scope) := none

namespace Context

variable {σ : Type}

/-- A property, or a default where it is missing or empty. -/
def propertyOr (c : Context σ) (name default : String) : String :=
  match Entries.get? name c.properties with
  | some "" | none => default
  | some s => s

def property (c : Context σ) (name : String) : String := c.propertyOr name ""

/-- A property without the blanks around it. -/
def trimmed (c : Context σ) (name : String) : String := Text.trimmed (c.property name)

/-- A property that may be left out. -/
def optional (c : Context σ) (name : String) : Option String :=
  let s := c.property name
  if s.isEmpty then none else some s

/-- A property that is true or false; a blank one counts as missing. -/
def flagOr (c : Context σ) (name : String) (default : Bool) : Bool :=
  let s := Text.trim (c.property name).toList
  if s.isEmpty then default else Text.lower s == "true".toList

def flag (c : Context σ) (name : String) : Bool := c.flagOr name false

/-- A failure of this node. -/
def fault (c : Context σ) (message : String) : Fault := .node message (some c.node.id)

def fail {α : Type} (c : Context σ) (message : String) : Act σ α := Act.fail (c.fault message)

/-- The number that a property holds, without its fraction. -/
def number (c : Context σ) (name : String) (default : Int) : Except Fault Int :=
  let s := c.trimmed name
  if s.isEmpty then .ok default
  else
    let refused : Fault := c.fault ("Property '" ++ name ++ "' must be a number, got '" ++ s ++ "'")
    match Number.float? s.toList with
    | none | some .nan => .error refused
    | some x =>
      match x.truncate? with
      | some n => .ok n
      | none => .error (.overflow "cannot convert float infinity to integer")

/-- Binds values to the variables that properties name; a property that names none is passed
over. -/
def writes (c : Context σ) (values : List (String × Value)) : List (String × Value) :=
  Entries.ofList (values.filterMap fun (name, v) =>
    let target := c.trimmed name
    if target.isEmpty then none else some (target, v))

/-- A provider that the node cannot do without. -/
def require {α : Type} (c : Context σ) (name : String) (provider : Option α) : Act σ α :=
  match provider with
  | some p => pure p
  | none => Act.fail (.unavailable ("No '" ++ name ++ "' provider configured") (some c.node.id))

def vault (c : Context σ) : Act σ (VaultProvider σ) := c.require "vault" c.providers.vault

/-- Sends a request to the user. -/
def ask (c : Context σ) (r : Interaction.Request) : Act σ (Option Interaction.Response) := do
  let port ← c.require "interaction" c.providers.interaction
  Act.call (port r)

/-- The thousandths of a number of seconds, without their fraction. -/
def milliseconds (seconds : Number.Binary64) : Except Fault Int :=
  match (seconds.mul (.ofInt 1000)).truncate? with
  | some n => .ok n
  | none =>
    match seconds with
    | .nan => .error (.badValue "cannot convert float NaN to integer")
    | _ => .error (.overflow "cannot convert float infinity to integer")

end Context
end Runbook
