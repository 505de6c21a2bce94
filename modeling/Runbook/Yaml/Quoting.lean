import Runbook.Yaml.Cursor
import Runbook.Yaml.Schema

/-! How a text is set down in YAML.

A text stands as it is where that reads back as the same text and nothing else; otherwise it
stands in single quotes, in double quotes with escapes, or, where it has several lines, as a
block. What a text looks like decides which of the four are open to it. -/
namespace Runbook.Yaml

inductive Quoting
  | plain
  | single
  | double
  | block
deriving DecidableEq, Repr

namespace Quoting

/-! ### What a text looks like -/

/-- The ends of lines; a carriage return alone is none of them. -/
def isBreak (c : Char) : Bool := c == '\n' || c == '\x85' || c == '\u2028' || c == '\u2029'

/-- The characters that must not stand outside double quotes. -/
def isSpecial (c : Char) : Bool :=
  !(c == '\n' || c == '\x85' || (' ' ≤ c && c ≤ '~') || ('\xA0' ≤ c && c != '\uFEFF' &&
    c != '\uFFFE' && c != '\uFFFF' && c.toNat != 0x10FFFF))

/-- Whether some character that passes one test stands right before one that passes another. -/
def hasPair (first second : Char → Bool) (cs : List Char) : Bool :=
  (cs.zip cs.tail).any fun (a, b) => first a && second b

def endsWith (p : Char → Bool) (cs : List Char) : Bool := (cs.getLast?.map p).getD false

def startsWith (p : Char → Bool) (cs : List Char) : Bool := (cs.head?.map p).getD false

/-- The marks that mean something at the front of a text, whatever follows. -/
def frontMarks : List Char := "#,[]\x7b\x7d&*!|>'\"%@`".toList

/-- The marks that mean something at the front of a text before a blank or the end. -/
def looseMarks : List Char := ['?', ':', '-']

/-- Whether a text has a mark of YAML in it. -/
def hasMark (cs : List Char) : Bool :=
  ["---".toList, "...".toList].contains (cs.take 3) ||
    (match cs with
      | [] => false
      | c :: rest =>
        frontMarks.contains c || looseMarks.contains c && isBlankOrEnd (rest.headD endMark)) ||
    hasPair (· == ':') isBlankOrEnd (cs.drop 1 ++ [endMark]) ||
    hasPair isBlankOrEnd (· == '#') cs

/-- Whether spaces stand where they would be lost outside double quotes. -/
def losesSpaces (cs : List Char) : Bool := hasPair (· == ' ') isBreak cs

/-! ### What is open to a text -/

def allowsSingle (cs : List Char) : Bool :=
  !hasPair isBreak (· == ' ') cs && !losesSpaces cs && !cs.any isSpecial

def allowsBlock (cs : List Char) : Bool :=
  !endsWith (· == ' ') cs && !losesSpaces cs && !cs.any isSpecial

def allowsPlain (cs : List Char) : Bool :=
  !startsWith (· == ' ') cs && !endsWith (· == ' ') cs && !cs.any isBreak && !cs.any isSpecial &&
    !hasMark cs && Meaning.ofPlain (String.ofList cs) == .str

/-- Whether a text can be a key in front of its colon. -/
def isSimpleKey (cs : List Char) : Bool := !cs.isEmpty && cs.length < 123 && !cs.any isBreak

/-- How a text is set down; a simple key is never a block. -/
def ofText (cs : List Char) : Quoting :=
  if cs.contains '\n' && allowsBlock cs then .block
  else if allowsPlain cs then .plain
  else if allowsSingle cs then .single
  else .double

end Quoting
end Runbook.Yaml
