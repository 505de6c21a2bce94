import Runbook.Yaml.Token

/-! The nodes of a YAML document.

A document is a tree of scalars, sequences and mappings, each with a tag where the text gives
one. An alias stands for the node that its anchor names, so that the tree holds it again. -/
namespace Runbook.Yaml

inductive Node
  /-- A scalar with its tag; only a plain one without a tag is read by its form. -/
  | scalar (tag : Option String) (plain : Bool) (text : String)
  | sequence (tag : Option String) (items : List Node)
  | mapping (tag : Option String) (pairs : List (Node × Node))
deriving Repr, Inhabited

/-- The node where the text has none. -/
def Node.empty : Node := .scalar none true ""

/-- What tags' handles stand for. -/
abbrev Handles := List (String × String)

def ownTags : String := "tag:yaml.org,2002:"

def Handles.standard : Handles := [("!", "!"), ("!!", ownTags)]

/-- The tokens that are left, and the nodes with anchors; one that is still being read has no
node yet. -/
structure Reading where
  tokens : List Token
  anchors : List (String × Option Node) := []

/-- A step of reading nodes. -/
abbrev Step := StateT Reading (Except Problem)

namespace Step

def fail {α : Type} (what : String) : Step α := fun _ => unreadable what

def front : Step (Option Token) := return (← get).tokens.head?

def drop : Step Unit := modify fun r => { r with tokens := r.tokens.tail }

/-- Whether the next token is one of some; at the end there is none. -/
def isAt (stops : List Token) : Step Bool := return (← front).any stops.contains

def setAnchor (name : String) (n : Option Node) : Step Unit :=
  modify fun r => { r with anchors := (name, n) :: r.anchors }

/-- The node that an alias stands for. -/
def aliased (name : String) : Step Node := do
  match (← get).anchors.lookup name with
  | some (some n) => return n
  | some none => fun _ => .error (.fault (.badValue "Circular reference detected"))
  | none => fail "found undefined alias"

/-! ### Anchors and tags -/

/-- A tag in full. -/
def expanded (handles : Handles) (t : Tag) : Step String :=
  match t.handle with
  | none => return t.suffix
  | some h =>
    match handles.lookup h with
    | some start => return start ++ t.suffix
    | none => fail "found undefined tag handle"

/-- The anchor and the tag in front of a node, in either order. -/
def marks : Step (Option String × Option Tag) := do
  match ← front with
  | some (.anchor name) =>
    drop
    match ← front with
    | some (.tag t) => do drop; return (some name, some t)
    | _ => return (some name, none)
  | some (.tag t) =>
    drop
    match ← front with
    | some (.anchor name) => do drop; return (some name, some t)
    | _ => return (none, some t)
  | _ => return (none, none)

/-- An anchor for a node that begins here. -/
def claim (anchor : Option String) : Step Unit := do
  match anchor with
  | some name =>
    if (← get).anchors.any (·.1 == name) then fail "found duplicate anchor"
    else setAnchor name none
  | none => return ()

/-- The node that an anchor was claimed for. -/
def named (anchor : Option String) (n : Node) : Step Node := do
  match anchor with
  | some name => do setAnchor name (some n); return n
  | none => return n

/-! ### Nodes -/

/-- Which forms of a node may stand at a place. -/
structure Place where
  /-- Whether a block may begin. -/
  block : Bool
  /-- Whether a sequence may stand at the column of the mapping around it. -/
  flush : Bool

mutual

/-- The node at the front. -/
def node (handles : Handles) (place : Place) : Nat → Step Node
  | 0 => fail "nodes are nested too deeply"
  | fuel + 1 => do
    match ← front with
    | some (.alias name) => do drop; aliased name
    | _ =>
      let (anchor, t) ← marks
      let full ← t.mapM (expanded handles)
      claim anchor
      let bare := full == some "!"
      let tag := if bare then none else full
      match ← front with
      | some (.scalar text plain) =>
        drop
        named anchor (.scalar tag ((plain && t.isNone) || bare) text)
      | some .sequenceOpen =>
        drop
        named anchor (.sequence tag (← flowItems handles true fuel))
      | some .mappingOpen =>
        drop
        named anchor (.mapping tag (← flowPairs handles true fuel))
      | some .sequenceStart =>
        if place.block then
          drop
          named anchor (.sequence tag (← blockItems handles fuel))
        else unmarked anchor t tag
      | some .mappingStart =>
        if place.block then
          drop
          named anchor (.mapping tag (← blockPairs handles fuel))
        else unmarked anchor t tag
      | some .entry =>
        if place.flush then named anchor (.sequence tag (← flushItems handles fuel))
        else unmarked anchor t tag
      | _ => unmarked anchor t tag
where
  /-- The empty node that has nothing but an anchor or a tag. -/
  unmarked (anchor : Option String) (t : Option Tag) (tag : Option String) : Step Node :=
    if anchor.isSome || t.isSome then named anchor (.scalar tag tag.isNone "")
    else fail "expected the node content"

/-- The node at the front, or the empty one where a token of some kind follows. -/
def nodeBefore (handles : Handles) (stops : List Token) (place : Place) : Nat → Step Node
  | 0 => fail "nodes are nested too deeply"
  | fuel + 1 => do
    if ← isAt stops then return Node.empty else node handles place fuel

/-- The value of a key, which is empty without its mark. -/
def valueBefore (handles : Handles) (stops : List Token) (place : Place) : Nat → Step Node
  | 0 => fail "nodes are nested too deeply"
  | fuel + 1 => do
    if ← isAt [.value] then
      drop
      nodeBefore handles stops place fuel
    else return Node.empty

/-- The items up to a closing bracket; a key among them is a mapping of one pair. -/
def flowItems (handles : Handles) (first : Bool) : Nat → Step (List Node)
  | 0 => fail "nodes are nested too deeply"
  | fuel + 1 => do
    if ← isAt [.sequenceClose] then
      drop
      return []
    else
      if !first then
        if ← isAt [.comma] then drop else fail "expected ',' or ']'"
      if ← isAt [.sequenceClose] then
        drop
        return []
      else
        let place := ⟨false, false⟩
        let stops := [.comma, .sequenceClose]
        let n ←
          if ← isAt [.key] then
            drop
            let k ← nodeBefore handles (.value :: stops) place fuel
            let v ← valueBefore handles stops place fuel
            pure (Node.mapping none [(k, v)])
          else node handles place fuel
        return n :: (← flowItems handles false fuel)

/-- The pairs up to a closing brace; a node without a key's mark is a key without a value. -/
def flowPairs (handles : Handles) (first : Bool) : Nat → Step (List (Node × Node))
  | 0 => fail "nodes are nested too deeply"
  | fuel + 1 => do
    if ← isAt [.mappingClose] then
      drop
      return []
    else
      if !first then
        if ← isAt [.comma] then drop else fail "expected ',' or a brace"
      if ← isAt [.mappingClose] then
        drop
        return []
      else
        let place := ⟨false, false⟩
        let stops := [.comma, .mappingClose]
        let pair ←
          if ← isAt [.key] then
            drop
            let k ← nodeBefore handles (.value :: stops) place fuel
            let v ← valueBefore handles stops place fuel
            pure (k, v)
          else pure (← node handles place fuel, Node.empty)
        return pair :: (← flowPairs handles false fuel)

/-- The items of a block up to its end. -/
def blockItems (handles : Handles) : Nat → Step (List Node)
  | 0 => fail "nodes are nested too deeply"
  | fuel + 1 => do
    if ← isAt [.entry] then
      drop
      let n ← nodeBefore handles [.entry, .blockEnd] ⟨true, false⟩ fuel
      return n :: (← blockItems handles fuel)
    else if ← isAt [.blockEnd] then
      drop
      return []
    else fail "expected the end of a block"

/-- The items of a sequence that stands at the column of the mapping around it. -/
def flushItems (handles : Handles) : Nat → Step (List Node)
  | 0 => fail "nodes are nested too deeply"
  | fuel + 1 => do
    if ← isAt [.entry] then
      drop
      let n ← nodeBefore handles [.entry, .key, .value, .blockEnd] ⟨true, false⟩ fuel
      return n :: (← flushItems handles fuel)
    else return []

/-- The pairs of a block up to its end. -/
def blockPairs (handles : Handles) : Nat → Step (List (Node × Node))
  | 0 => fail "nodes are nested too deeply"
  | fuel + 1 => do
    if ← isAt [.key] then
      drop
      let stops := [.key, .value, .blockEnd]
      let k ← nodeBefore handles stops ⟨true, true⟩ fuel
      let v ← valueBefore handles stops ⟨true, true⟩ fuel
      return (k, v) :: (← blockPairs handles fuel)
    else if ← isAt [.blockEnd] then
      drop
      return []
    else fail "expected the end of a block"

end

/-! ### Documents -/

/-- The directives in front of a document: what they make of the handles, and whether a
version was given. -/
def directives (own : Handles) (versioned : Bool) : List Token → Except Problem Handles
  | .directive (.version major) :: rest =>
    if versioned then unreadable "found duplicate YAML directive"
    else if major != 1 then unreadable "found incompatible YAML document"
    else directives own true rest
  | .directive (.handle name text) :: rest =>
    if own.any (·.1 == name) then unreadable "duplicate tag handle"
    else directives ((name, text) :: own) versioned rest
  | .directive .other :: rest => directives own versioned rest
  | _ => .ok (own ++ Handles.standard)

def isDirective : Token → Bool
  | .directive _ => true
  | _ => false

def isDocumentMark (t : Token) : Bool :=
  isDirective t || t == .documentStart || t == .documentEnd

/-- The only document of a text, if there is one. -/
def document : Step (Option Node) := do
  let tokens := (← get).tokens
  let fuel := 4 * tokens.length + 4
  match tokens with
  | [] => return none
  | first :: _ =>
    let n ←
      if isDirective first || first == .documentStart then do
        let handles ← directives [] false tokens
        modify fun r => { r with tokens := tokens.dropWhile isDirective }
        if !(← isAt [.documentStart]) then fail "expected the start of a document"
        drop
        if ((← front).map isDocumentMark).getD true then pure Node.empty
        else node handles ⟨true, false⟩ fuel
      else node Handles.standard ⟨true, false⟩ fuel
    if (← get).tokens.any (· != .documentEnd) then fail "expected a single document"
    return some n

end Step

/-- The document that tokens make up, if there is one. -/
def Node.ofTokens? (tokens : List Token) : Except Problem (Option Node) :=
  return (← Step.document.run { tokens }).1

end Runbook.Yaml
