import Runbook.Yaml.Page

/-! Outlines: trees of texts, and how they are written as YAML.

An entry or an item stands on a line of its own, indented by two for each mapping around it.
The items of a sequence under a key stand as deep as the key. A key that is empty, long or of
several lines stands behind a mark of its own. -/
namespace Runbook.Yaml

inductive Outline
  | text (s : String)
  | sequence (items : List Outline)
  | mapping (entries : List (String × Outline))
deriving Repr

namespace Outline

mutual

/-- Writes an outline inside a container that is indented by so much; `underKey` says whether
that is a mapping. -/
def put (indent : Nat) (underKey : Bool) : Outline → Page → Page
  | text s, p => p.putText (indent + 2) true s
  | sequence [], p => (p.mark "[" true false).mark "]" false false
  | sequence (x :: xs), p =>
    putItems (if underKey && !p.isFresh then indent else indent + 2) (x :: xs) p
  | mapping [], p => (p.mark "\x7b" true false).mark "\x7d" false false
  | mapping (e :: es), p => putEntries (indent + 2) (e :: es) p

def putItems (indent : Nat) : List Outline → Page → Page
  | [], p => p
  | x :: xs, p => putItems indent xs (put indent false x ((p.indentTo indent).mark "-" true true))

def putEntries (indent : Nat) : List (String × Outline) → Page → Page
  | [], p => p
  | (key, v) :: rest, p =>
    let p := p.indentTo indent
    let p := if Quoting.isSimpleKey key.toList
      then (p.putText (indent + 2) false key).mark ":" false false
      else
        let p := (p.mark "?" true true).putText (indent + 2) true key
        (p.indentTo indent).mark ":" true true
    putEntries indent rest (put indent true v p)

end

/-- The text of a document that is a mapping. -/
def document (entries : List (String × Outline)) : String :=
  let p := (putEntries 0 entries {}).indentTo 0
  let p := if p.isOpen then (p.mark "..." true false).indentTo 0 else p
  String.ofList p.written.reverse

end Outline
end Runbook.Yaml
