import Runbook.Listing
import Runbook.Template

/-! What a nested call is given and what it gives back.

Inputs and outputs are written as the data text of a mapping, or as pairs. An input that is
one bare placeholder hands the caller's value over as it is, and so does a pair that names a
variable of the caller; the data text is read before its placeholders are filled, so that no
filled text can change its structure. -/
namespace Runbook.Handover

/-- The mapping that data text gives; none where the text is no mapping. -/
def mapping? (s : String) : Except Fault (Option (List (Scalar × Value))) :=
  match Json.parse s with
  | .ok (.map entries) => .ok (some entries)
  | .ok _ => .ok none
  | .error f => if f.isBadValue then .ok none else .error f

/-- The entries of a mapping with keys and texts filled from the caller's scope. -/
def fillEntries (scope : Scope) : List (Scalar × Value) → Except Fault (List (String × Value))
  | [] => .ok []
  | (k, v) :: rest => do
    let name ← Template.resolve k.display scope
    let v ← match v with
      | .str s => Template.resolveValue s scope
      | v => .ok v
    return (name, v) :: (← fillEntries scope rest)

def byName (entries : List (Scalar × Value)) : List (String × Value) :=
  entries.map fun (k, v) => (k.display, v)

/-- The variables that a nested call starts with, from the text that describes them. -/
def inputs (raw : String) (scope : Scope) : Except Fault (List (String × Value)) := do
  if Text.blank raw.toList then return []
  match ← mapping? raw with
  | some entries => return Entries.ofList (← fillEntries scope entries)
  | none =>
    let text ← Template.resolve raw scope
    match ← mapping? text with
    | some entries => return byName entries
    | none =>
      return (Listing.pairs text).map fun (name, v) => (name, (scope.get? v).getD (.str v))

/-- The caller's names for variables of the call, from the text that describes them; what
does not name a variable is passed over. -/
def outputs (s : String) : Except Fault (List (String × String)) := do
  if Text.blank s.toList then return []
  match ← mapping? s with
  | some entries =>
    return entries.filterMap fun (k, v) => match v with
      | .str name => some (k.display, name)
      | _ => none
  | none => return (Listing.pairs s).filter fun (_, name) => !name.isEmpty

end Runbook.Handover
