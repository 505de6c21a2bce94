import Runbook.Yaml.Node
import Runbook.Yaml.Schema

/-! The value of a YAML document.

Scalars get the meaning that their form or their tag gives them, and mappings the entries of
those that they merge in front of their own. `Yaml.parse` reads a text as one value. -/
namespace Runbook.Yaml

/-- The meaning that a tag asks for. -/
def Meaning.ofTag (t : String) : Except Problem Meaning :=
  match (Text.after? ownTags.toList t.toList).bind (named? ∘ String.ofList) with
  | some m => .ok m
  | none => unreadable "could not determine a constructor for the tag"

/-- The meaning of a node without a tag, or the one that its tag asks for. -/
def Meaning.ofTagOr (own : Meaning) : Option String → Except Problem Meaning
  | none => .ok own
  | some t => ofTag t

/-- The meaning of a scalar, and its text. -/
def scalarMeaning (tag : Option String) (plain : Bool) (text : String) :
    Except Problem Meaning :=
  (if plain then Meaning.ofPlain text else .str).ofTagOr tag

/-- Whether a key asks for the entries of other mappings. -/
def isMergeKey : Node → Bool
  | .scalar tag plain text => (scalarMeaning tag plain text).toOption == some .merge
  | _ => false

/-- Whether a key names the value that stands for its mapping. -/
def isValueKey : Node → Bool
  | .scalar tag plain text => (scalarMeaning tag plain text).toOption == some .value
  | _ => false

mutual

/-- The text that stands for a node where a scalar is asked for. -/
def Node.scalarText? : Node → Option String
  | .scalar _ _ text => some text
  | .mapping _ pairs => standIn? pairs
  | .sequence _ _ => none

/-- The text of the value that stands for a mapping with these pairs. -/
def standIn? : List (Node × Node) → Option String
  | [] => none
  | (k, v) :: rest => if isValueKey k then v.scalarText? else standIn? rest

end

def notHashable {α : Type} : Except Problem α := unreadable "found unhashable key"

mutual

/-- The value of a node. -/
def Node.value : Node → Except Problem Value
  | .scalar tag plain text => do
    return .scalar (← (← scalarMeaning tag plain text).scalar text)
  | .sequence tag items => do
    match ← Meaning.sequence.ofTagOr tag with
    | .sequence => return .list (← itemValues items)
    | .ordered => return .list (← pairValues items)
    | _ => unreadable "a sequence cannot have this tag"
  | .mapping tag pairs => do
    match ← Meaning.mapping.ofTagOr tag with
    | .mapping =>
      let (merged, own) ← entryValues pairs
      return .map (Entries.ofList (merged ++ own))
    | .set =>
      let (merged, own) ← entryValues pairs
      return .map (Entries.ofList ((merged ++ own).map fun (k, _) => (k, Value.null)))
    | m =>
      match standIn? pairs with
      | some text => return .scalar (← m.scalar text)
      | none => unreadable "a mapping cannot have this tag"

def itemValues : List Node → Except Problem (List Value)
  | [] => .ok []
  | n :: rest => do
    let v ← n.value
    return v :: (← itemValues rest)

/-- Items that are mappings of one pair each, as pairs. -/
def pairValues : List Node → Except Problem (List Value)
  | [] => .ok []
  | .mapping _ [(k, v)] :: rest => do
    let key ← k.value
    let value ← v.value
    return .list [key, value] :: (← pairValues rest)
  | _ :: _ => unreadable "expected a mapping of one pair"

/-- The entries of a mapping: those that are merged in, and its own. -/
def entryValues : List (Node × Node) →
    Except Problem (List (Scalar × Value) × List (Scalar × Value))
  | [] => .ok ([], [])
  | (k, v) :: rest => do
    if isMergeKey k then
      let more ← mergedValues v
      let (merged, own) ← entryValues rest
      return (more ++ merged, own)
    else
      let key ← keyValue k
      let value ← v.value
      let (merged, own) ← entryValues rest
      return (merged, (key, value) :: own)

/-- A key; one that asks for a stand-in is its own text where nothing asks for a scalar. -/
def keyValue : Node → Except Problem Scalar
  | .scalar tag plain text => do
    match ← scalarMeaning tag plain text with
    | .value => return .str text
    | m => m.scalar text
  | .sequence _ _ => notHashable
  | .mapping tag pairs => do
    match ← Meaning.mapping.ofTagOr tag, standIn? pairs with
    | .mapping, _ | .set, _ | _, none => notHashable
    | m, some text => m.scalar text

/-- What a mapping, or a sequence of mappings, brings into another. Of two in a sequence the
first counts. -/
def mergedValues : Node → Except Problem (List (Scalar × Value))
  | .mapping _ pairs => do
    let (merged, own) ← entryValues pairs
    return merged ++ own
  | .sequence _ items => mergedItems items
  | .scalar .. => unreadable "expected a mapping or list of mappings for merging"

def mergedItems : List Node → Except Problem (List (Scalar × Value))
  | [] => .ok []
  | .mapping _ pairs :: rest => do
    let (merged, own) ← entryValues pairs
    return (← mergedItems rest) ++ merged ++ own
  | _ :: _ => unreadable "expected a mapping for merging"

end

/-- The value of a text; one without a document holds nothing. -/
def parse (text : String) : Except Problem Value := do
  match ← Node.ofTokens? (← Token.ofText text) with
  | some n => n.value
  | none => return .null

end Runbook.Yaml
