import Runbook.Http.Message
import Runbook.Provider

/-! Sending requests.

Header fields go out with their names in small letters, those of one name joined. A client
follows a server to other addresses, and sends fields that authorise it to no other server. -/
namespace Runbook.Http

/-- Header fields as they are sent. -/
def sentFields (fields : List (String × String)) : Except Fault (List (String × String)) :=
  if fields.all fun (name, v) => (name ++ v).toList.all (·.toNat < 128) then
    .ok (fields.foldl (fun sent (name, v) =>
      let name := Text.lowered name
      match Entries.get? name sent with
      | some before => Entries.insert name (before ++ ", " ++ v) sent
      | none => sent ++ [(name, v)]) [])
  else .error .notAscii

/-! ### Addresses -/

/-- An address in parts, each with the mark in front of it. -/
structure Address where
  scheme : List Char
  host : List Char
  path : List Char
  query : List Char
  fragment : List Char

namespace Address

def ofText (s : String) : Address :=
  let cs := s.toList
  let (scheme, cs) := match Text.cutAt ':' cs with
    | (front, some rest) =>
      if !front.isEmpty && front.all Url.isSchemeChar then (front ++ [':'], rest) else ([], cs)
    | _ => ([], cs)
  let (cs, fragment) := (cs.takeWhile (· != '#'), cs.dropWhile (· != '#'))
  let (cs, query) := (cs.takeWhile (· != '?'), cs.dropWhile (· != '?'))
  match cs with
  | '/' :: '/' :: rest =>
    ⟨scheme, '/' :: '/' :: rest.takeWhile (· != '/'), rest.dropWhile (· != '/'), query, fragment⟩
  | path => ⟨scheme, [], path, query, fragment⟩

def text (a : Address) : String :=
  String.ofList (a.scheme ++ a.host ++ a.path ++ a.query ++ a.fragment)

/-- The parts of a path without single dots, where two dots take back the part before them. -/
def withoutDots (before : List (List Char)) : List (List Char) → List (List Char)
  | [] => before.reverse
  | [['.']] => ([] :: before).reverse
  | [['.', '.']] => ([] :: before.tail).reverse
  | ['.'] :: rest => withoutDots before rest
  | ['.', '.'] :: rest => withoutDots before.tail rest
  | p :: rest => withoutDots (p :: before) rest

/-- An absolute path without dots. -/
def plainPath (path : List Char) : List Char :=
  '/' :: Text.join ['/'] (withoutDots [] (Text.splitAt '/' (path.dropWhile (· == '/'))))

/-- An address as it is seen from another one. -/
def seenFrom (base a : Address) : Address :=
  if !a.scheme.isEmpty then a
  else if !a.host.isEmpty then { a with scheme := base.scheme }
  else
    let a := { a with scheme := base.scheme, host := base.host }
    match a.path with
    | [] => { a with path := base.path, query := if a.query.isEmpty then base.query else a.query }
    | '/' :: _ => { a with path := plainPath a.path }
    | path =>
      let folder := ((Text.cutAtLast '/' base.path).map (·.1)).getD []
      { a with path := plainPath (folder ++ '/' :: path) }

/-- Whether two addresses are on one server. -/
def isSameServer (a b : Address) : Bool := a.scheme == b.scheme && a.host == b.host

end Address

/-! ### Redirection -/

/-- Where a response sends the client, if it does. -/
def Response.location? (r : Response) : Option String :=
  if [301, 302, 303, 307, 308].contains r.status then r.field? "location" else none

/-- The method of the request that follows a redirection. -/
def redirectedMethod (status : Int) (method : String) : String :=
  if (status == 303 || status == 302) && method != "HEAD" then "GET"
  else if status == 301 && method == "POST" then "GET"
  else method

/-- The request that follows a redirection. -/
def redirected (q : Request) (status : Int) (location : String) : Request :=
  let base := Address.ofText q.url
  let target := base.seenFrom (Address.ofText location)
  let fragment := if target.fragment.isEmpty then base.fragment else target.fragment
  let target := { target with fragment }
  let method := redirectedMethod status q.method
  { q with
    url := target.text
    method
    headers := if base.isSameServer target then q.headers
      else q.headers.filter fun (name, _) => name != "authorization"
    content := if method != q.method then none else q.content }

/-- How often a client is sent on before it gives up. -/
def redirectLimit : Nat := 20

variable {σ : Type}

/-- Sends a request and follows where it is sent on to, at most so often. -/
def follow (send : Request → Call σ Response) : Nat → Request → Call σ Response
  | 0, _, world => { world, result := .raised (.transport "Exceeded maximum allowed redirects.") }
  | limit + 1, q, world =>
    let reply := send q world
    match reply.result with
    | .returned r =>
      match r.location? with
      | some location =>
        let next := follow send limit (redirected q r.status location) reply.world
        { next with fires := reply.fires || next.fires }
      | none => reply
    | _ => reply

/-- A request as a client makes it. -/
def request (send : Request → Call σ Response) (q : Request) : Call σ Response := fun world =>
  match sentFields q.headers with
  | .error f => { world, result := .raised f }
  | .ok headers =>
    follow send (redirectLimit + 1) { q with method := Text.uppered q.method, headers } world

end Runbook.Http
