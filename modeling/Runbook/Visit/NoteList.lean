import Runbook.FileData
import Runbook.Listing
import Runbook.Notes
import Runbook.Text.Case
import Runbook.Visit.Context

/-! Searching and listing the notes and folders of a vault. -/
namespace Runbook.Visit

variable {σ : Type}

/-- The items before a position; a negative one counts from the end. -/
def upTo {α : Type} (position : Int) (items : List α) : List α :=
  if 0 ≤ position then items.take position.toNat
  else items.take (items.length - position.natAbs)

def noteFiles (vault : VaultProvider σ) : Act σ (List String) := do
  return (← Act.call vault.listFiles).filter Notes.isNote

/-- A limit; zero stands for the default. -/
def limit (c : Context σ) (default : Int) : Except Fault Int := do
  let n ← c.number "limit" default
  return if n == 0 then default else n

/-! ### Search -/

/-- How much text is shown around a match on each side. -/
def margin : Nat := 50

/-- The text around a match; dots stand where the note goes on. -/
def snippet (content : List Char) (position width : Nat) : String :=
  let start := position - margin
  let stop := min content.length (position + width + margin)
  let dots := "...".toList
  String.ofList ((if 0 < start then dots else []) ++ (content.drop start).take (stop - start) ++
    (if stop < content.length then dots else []))

/-- What a search says of one note, if the note matches. -/
def hit (vault : VaultProvider σ) (query : List Char) (inContent : Bool) (path : String) :
    Act σ (Option Value) := do
  let name := (FileName.ofPath path).name
  let needle := Text.lower query
  let fields : List (String × Value) := [("name", .str name), ("path", .str path)]
  if inContent then
    let content := (← Act.call (vault.readText path)).toList
    match Text.position? needle (Text.lower content) with
    | some position =>
      let shown := snippet content position query.length
      return some (.record (fields ++ [("matchedContent", .str shown)]))
    | none => return none
  else
    let found := fun (s : String) => Text.contains needle (Text.lower s.toList)
    return if found name || found path then some (.record fields) else none

/-- The matches among the notes, in order, until there are enough. -/
def hits (vault : VaultProvider σ) (query : List Char) (inContent : Bool) (enough : Int) :
    Nat → List String → Act σ (List Value)
  | _, [] => pure []
  | count, path :: rest => do
    if enough ≤ count then return []
    match ← hit vault query inContent path with
    | some v => return v :: (← hits vault query inContent enough (count + 1) rest)
    | none => hits vault query inContent enough count rest

def searchNotes (c : Context σ) : Act σ Outcome := do
  let query := c.property "query"
  if query.isEmpty then c.fail "note-search node missing 'query' property"
  if (c.trimmed "saveTo").isEmpty then c.fail "note-search node missing 'saveTo' property"
  let vault ← c.vault
  let enough ← Act.ofExcept (limit c 10)
  let found ← hits vault query.toList (c.flag "searchContent") enough 0 (← noteFiles vault)
  return {
    output := .record [("count", .int found.length)]
    writes := c.writes [("saveTo", .list found)] }

/-! ### Lists -/

/-- What a listed note must meet. -/
structure Filter where
  folder : String
  recursive : Bool
  tags : List String
  everyTag : Bool
  /-- The time from which ages count back. -/
  now : Number.Binary64
  /-- The seconds for which it may have been there. -/
  createdWithin : Option Nat
  modifiedWithin : Option Nat

/-- A listed note. -/
structure Entry where
  path : String
  name : String
  created : Int
  modified : Int
  tags : List String

def Entry.toValue (e : Entry) : Value :=
  .record [("name", .str e.name), ("path", .str e.path), ("created", .int e.created),
    ("modified", .int e.modified), ("tags", .strs e.tags)]

/-- The earliest time that an age allows; an age may be too long to be taken from a time. -/
def earliest (now : Number.Binary64) (age : Nat) : Except Fault Number.Binary64 :=
  if Number.Binary64.exceeds age then .error (.overflow "int too large to convert to float")
  else .ok (now.sub (.ofInt age))

/-- Whether a time lies further back than an age allows. -/
def tooEarly (now time : Number.Binary64) : Option Nat → Except Fault Bool
  | none => .ok false
  | some age => do return time.compare? (← earliest now age) == some .lt

def hasTags (f : Filter) (tags : List String) : Bool :=
  f.tags.isEmpty || (if f.everyTag then f.tags.all tags.contains else f.tags.any tags.contains)

/-- The entry of a note that meets a filter. -/
def entry? (vault : VaultProvider σ) (f : Filter) (path : String) : Act σ (Option Entry) := do
  if !f.folder.isEmpty && !Notes.inFolder path f.folder f.recursive then return none
  let times ← Act.call (vault.times path)
  if ← Act.ofExcept (tooEarly f.now times.created f.createdWithin) then return none
  if ← Act.ofExcept (tooEarly f.now times.modified f.modifiedWithin) then return none
  let tags ← Act.call (vault.tags path)
  if !hasTags f tags then return none
  let created ← Act.ofExcept (Context.milliseconds times.created)
  let modified ← Act.ofExcept (Context.milliseconds times.modified)
  return some ⟨path, (FileName.ofPath path).name, created, modified, tags⟩

def entries (vault : VaultProvider σ) (f : Filter) : List String → Act σ (List Entry)
  | [] => pure []
  | path :: rest => do
    let e ← entry? vault f path
    return e.toList ++ (← entries vault f rest)

/-- Entries by a key; entries with one key stay in their order, whichever way they are sorted. -/
def sortedBy {κ : Type} (le : κ → κ → Bool) (key : Entry → κ) (descending : Bool)
    (es : List Entry) : List Entry :=
  es.mergeSort fun a b => if descending then le (key b) (key a) else le (key a) (key b)

def sortEntries (sortBy : String) (descending : Bool) (es : List Entry) : List Entry :=
  match sortBy with
  | "created" => sortedBy (fun a b => decide (a ≤ b)) (·.created) descending es
  | "modified" => sortedBy (fun a b => decide (a ≤ b)) (·.modified) descending es
  | "name" => sortedBy (fun a b => decide (a ≤ b)) (Text.lowered ·.name) descending es
  | _ => es

def listNotes (c : Context σ) : Act σ Outcome := do
  if (c.trimmed "saveTo").isEmpty then c.fail "note-list node missing 'saveTo' property"
  let vault ← c.vault
  let enough ← Act.ofExcept (limit c 50)
  let createdWithin ← Act.ofExcept (Notes.seconds (c.property "createdWithin"))
  let modifiedWithin ← Act.ofExcept (Notes.seconds (c.property "modifiedWithin"))
  let now ← Act.ask c.providers.clock.now
  let f : Filter :=
    { folder := c.trimmed "folder"
      recursive := c.flag "recursive"
      tags := Listing.tags (c.property "tags")
      everyTag := c.propertyOr "tagMatch" "any" == "all"
      now, createdWithin, modifiedWithin }
  let found ← entries vault f (← noteFiles vault)
  let sorted := sortEntries (c.property "sortBy") (c.propertyOr "sortOrder" "desc" != "asc") found
  let notes := upTo enough sorted
  let count : Value := .int notes.length
  let total : Value := .int sorted.length
  return {
    output := .record [("count", count), ("totalCount", total)]
    writes := c.writes [("saveTo", .record
        [("notes", .list (notes.map Entry.toValue)), ("count", count), ("totalCount", total),
          ("hasMore", .bool (decide (enough < (sorted.length : Int))))])] }

/-- Whether a folder is another one or lies in it. -/
def isWithin (parent folder : String) : Bool :=
  parent.isEmpty || folder == parent || folder.startsWith (parent ++ "/")

def listFolders (c : Context σ) : Act σ Outcome := do
  if (c.trimmed "saveTo").isEmpty then c.fail "folder-list node missing 'saveTo' property"
  let vault ← c.vault
  let parent := Notes.folder (c.trimmed "folder")
  let all ← Act.call vault.listFolders
  let folders := (all.filter fun f => isWithin parent f && !f.isEmpty).mergeSort
    fun a b => decide (a ≤ b)
  let count : Value := .int folders.length
  return {
    output := .record [("count", count)]
    writes := c.writes
        [("saveTo", .record [("folders", .strs folders), ("count", count)])] }

end Runbook.Visit
