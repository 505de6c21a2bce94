import Runbook.Fault
import Runbook.Text.Case
import Runbook.Text.Search
import Runbook.Text.Quoted
import Runbook.Text.Word

/-! The parts of an address on the net.

`parse` cuts an address into scheme, host part, path and what follows, without decoding
anything. A host part is refused where its brackets do not hold an address of the sixth
version, or where it would change its structure when its characters are normalised. -/
namespace Runbook

structure Url where
  scheme : String
  host : String
  path : String
deriving DecidableEq, Repr

namespace Url

def isSchemeChar (c : Char) : Bool :=
  Text.isAsciiLetter c || Text.isAsciiDigit c || c == '+' || c == '-' || c == '.'

/-- The scheme in front of the first colon, in small letters, and the rest. -/
def takeScheme (cs : List Char) : List Char × List Char :=
  match Text.cutAt ':' cs with
  | (c :: front, some rest) =>
    if Text.isAsciiLetter c && front.all isSchemeChar then
      (List.map Char.toLower (c :: front), rest)
    else ([], cs)
  | _ => ([], cs)

/-! ### Hosts in brackets -/

def isHex (c : Char) : Bool :=
  Text.isAsciiDigit c || ('a' ≤ c && c ≤ 'f') || ('A' ≤ c && c ≤ 'F')

/-- One of the four numbers of an address of the fourth version. -/
def isOctet (cs : List Char) : Bool :=
  !cs.isEmpty && cs.length ≤ 3 && cs.all Text.isAsciiDigit &&
    (cs.length == 1 || cs.head? != some '0') &&
    cs.foldl (fun n c => n * 10 + (c.toNat - 48)) 0 ≤ 255

def isVersion4 (cs : List Char) : Bool :=
  let parts := Text.splitAt '.' cs
  parts.length == 4 && parts.all isOctet

def isGroup (cs : List Char) : Bool := !cs.isEmpty && cs.length ≤ 4 && cs.all isHex

/-- Groups between colons; one run of groups may be left out, also at an end. -/
def areGroups (parts : List (List Char)) : Bool :=
  let inner := (parts.drop 1).dropLast
  let gaps := inner.filter (·.isEmpty)
  match gaps.length with
  | 0 => parts.length == 8 && parts.all isGroup
  | 1 =>
    let before := parts.takeWhile (!·.isEmpty)
    let after := (parts.reverse.takeWhile (!·.isEmpty)).reverse
    let before := if parts.head? == some [] then [] else before
    let after := if parts.getLast? == some [] then [] else after
    let expected := (if parts.head? == some [] then 1 else before.length) + 1 +
      (if parts.getLast? == some [] then 1 else after.length)
    expected == parts.length && before.all isGroup && after.all isGroup &&
      before.length + after.length ≤ 7
  | _ => false

/-- An address of the sixth version, with an optional zone behind a percent sign. -/
def isVersion6 (cs : List Char) : Bool :=
  let (address, zone) := Text.cutAt '%' cs
  let zoneOk := match zone with
    | none => true
    | some z => !z.isEmpty && !z.contains '%'
  let parts := Text.splitAt ':' address
  let last := parts.getLastD []
  let parts :=
    if last.contains '.' then
      if isVersion4 last then parts.dropLast ++ [['0'], ['0']] else []
    else parts
  zoneOk && !cs.contains '/' && 3 ≤ parts.length && parts.length ≤ 9 && areGroups parts

def checkBrackets (inside : List Char) : Except Fault Unit :=
  match inside with
  | 'v' :: rest =>
    match Text.cutAt '.' rest with
    | (version, some address) =>
      if !version.isEmpty && version.all isHex && !address.isEmpty then .ok ()
      else .error (.badValue "IPvFuture address is invalid")
    | _ => .error (.badValue "IPvFuture address is invalid")
  | _ =>
    if isVersion4 inside then .error (.badValue "An IPv4 address cannot be in brackets")
    else if isVersion6 inside then .ok ()
    else .error (.badValue (Text.quoted (String.ofList inside) ++
      " does not appear to be an IPv4 or IPv6 address"))

/-- Characters whose normal form holds one of the marks that structure an address. -/
def disguised : List Nat :=
  [0x2047, 0x2048, 0x2049, 0x2100, 0x2101, 0x2105, 0x2106, 0x2A74, 0xFE13, 0xFE16, 0xFE55, 0xFE56,
   0xFE5F, 0xFE6B, 0xFF03, 0xFF0F, 0xFF1A, 0xFF1F, 0xFF20]

def checkHost (host : List Char) : Except Fault Unit :=
  if host.contains '[' != host.contains ']' then .error (.badValue "Invalid IPv6 URL")
  else if host.contains '[' then
    let behind := ((Text.cutAt '[' host).2).getD []
    checkBrackets (Text.cutAt ']' behind).1
  else .ok ()

def checkNormal (host : List Char) : Except Fault Unit :=
  if host.any fun c => disguised.contains c.toNat then
    .error (.badValue ("netloc '" ++ String.ofList host ++
      "' contains invalid characters under NFKC normalization"))
  else .ok ()

/-! ### The whole address -/

/-- The schemes whose paths may end in parameters. -/
def withParameters : List String :=
  ["", "ftp", "hdl", "prospero", "http", "imap", "https", "shttp", "rtsp", "rtsps", "rtspu",
   "sip", "sips", "mms", "sftp", "tel"]

/-- The path without the parameters behind the first semicolon of its last part. -/
def dropParameters (cs : List Char) : List Char :=
  match Text.cutAtLast '/' cs with
  | some (front, last) => front ++ '/' :: (Text.cutAt ';' last).1
  | none => (Text.cutAt ';' cs).1

def parse (s : String) : Except Fault Url := do
  let cs := s.toList.dropWhile fun c => c.toNat ≤ 32
  let cs := cs.filter fun c => c != '\t' && c != '\r' && c != '\n'
  let (scheme, cs) := takeScheme cs
  let (host, cs) := match cs with
    | '/' :: '/' :: cs =>
      let isMark := fun c => c == '/' || c == '?' || c == '#'
      (cs.takeWhile (!isMark ·), cs.dropWhile (!isMark ·))
    | cs => ([], cs)
  checkHost host
  let path := (Text.cutAt '?' (Text.cutAt '#' cs).1).1
  checkNormal host
  let scheme := String.ofList scheme
  let path := if withParameters.contains scheme then dropParameters path else path
  return ⟨scheme, String.ofList host, String.ofList path⟩

end Url
end Runbook
