/-! Patterns for names.

A star stands for any characters, a question mark for one, and brackets for one of those
inside them, or behind an exclamation mark for one that is not. -/
namespace Runbook.Glob

inductive Piece
  | any
  | one
  | exactly (c : Char)
  /-- One character of some ranges, or of none of them. -/
  | among (negated : Bool) (ranges : List (Char × Char))
deriving DecidableEq, Repr

/-- The ranges between two brackets; a hyphen joins the characters around it. -/
def ranges : List Char → List (Char × Char)
  | [] => []
  | c :: '-' :: d :: rest => (c, d) :: ranges rest
  | c :: rest => (c, c) :: ranges rest

/-- What stands between brackets up to the one that closes them; a bracket that comes first
does not. -/
def bracketed? (cs : List Char) : Option (List Char × List Char) :=
  let first := cs.take 1
  let inside := (cs.drop 1).takeWhile (· != ']')
  match (cs.drop 1).drop inside.length with
  | _ :: rest => some (first ++ inside, rest)
  | [] => none

/-- The set that begins behind an opening bracket, and the rest. -/
def among? (cs : List Char) : Option (Piece × List Char) :=
  match cs with
  | '!' :: cs => (bracketed? cs).map fun (inside, rest) => (.among true (ranges inside), rest)
  | cs => (bracketed? cs).map fun (inside, rest) => (.among false (ranges inside), rest)

def piecesUpTo : Nat → List Char → List Piece
  | 0, _ => []
  | _, [] => []
  | fuel + 1, c :: cs =>
    match c with
    | '*' => .any :: piecesUpTo fuel cs
    | '?' => .one :: piecesUpTo fuel cs
    | '[' =>
      match among? cs with
      | some (p, rest) => p :: piecesUpTo fuel rest
      | none => .exactly '[' :: piecesUpTo fuel cs
    | c => .exactly c :: piecesUpTo fuel cs

/-- The pieces of a pattern. -/
def pieces (cs : List Char) : List Piece := piecesUpTo cs.length cs

/-- Whether a piece takes a character. -/
def Piece.takes (c : Char) : Piece → Bool
  | .any | .one => true
  | .exactly d => c == d
  | .among negated rs => negated != rs.any fun (low, high) => low ≤ c && c ≤ high

/-- Whether pieces take a whole name. -/
def taken : List Piece → List Char → Bool
  | [], cs => cs.isEmpty
  | .any :: ps, [] => taken ps []
  | .any :: ps, c :: cs => taken ps (c :: cs) || taken (.any :: ps) cs
  | _ :: _, [] => false
  | p :: ps, c :: cs => p.takes c && taken ps cs
termination_by ps cs => ps.length + cs.length

/-- Whether a name has the form of a pattern. -/
def isMatch (pattern name : String) : Bool := taken (pieces pattern.toList) name.toList

end Runbook.Glob
