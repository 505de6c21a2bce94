import Runbook.Interaction

/-! A queue of requests to the user.

Whoever asks is given a ticket and waits. Whoever answers takes the requests in the order in
which they were asked, and answers each by its ticket: once, and only while the one who asked
still waits. -/
namespace Runbook.Interaction

namespace Queue

/-- What became of a request. -/
inductive Fate
  | waiting
  | answered (response : Option Response)
  /-- The one who asked stopped waiting. -/
  | abandoned
deriving Repr

structure Entry where
  request : Request
  fate : Fate := .waiting
deriving Repr

end Queue

/-- Every request that was asked, in order; its ticket is its position. -/
structure Queue where
  entries : List Queue.Entry := []
  /-- How many requests were taken, the first ones. -/
  taken : Nat := 0
deriving Repr

namespace Queue

/-- Asks; the result is the ticket. -/
def ask (q : Queue) (request : Request) : Nat × Queue :=
  (q.entries.length, { q with entries := q.entries ++ [{ request }] })

/-- How many requests nobody has taken yet, also those that were abandoned. -/
def pending (q : Queue) : Nat := q.entries.length - q.taken

/-- Takes the next request. -/
def take (q : Queue) : Option ((Nat × Request) × Queue) :=
  q.entries[q.taken]?.map fun e => ((q.taken, e.request), { q with taken := q.taken + 1 })

def fate? (q : Queue) (ticket : Nat) : Option Fate := q.entries[ticket]?.map (·.fate)

/-- Whether the one who asked still waits. -/
def isWaiting (q : Queue) (ticket : Nat) : Bool :=
  match q.fate? ticket with
  | some .waiting => true
  | _ => false

/-- Settles a request that still waits; the result says whether it did. -/
def settle (q : Queue) (ticket : Nat) (fate : Fate) : Bool × Queue :=
  if q.isWaiting ticket then
    (true, { q with entries := q.entries.modify ticket fun e => { e with fate } })
  else (false, q)

/-- Answers a request; without a response it is dismissed. -/
def respond (q : Queue) (ticket : Nat) (response : Option Response) : Bool × Queue :=
  q.settle ticket (.answered response)

/-- Stops waiting for an answer. -/
def abandon (q : Queue) (ticket : Nat) : Queue := (q.settle ticket .abandoned).2

end Queue
end Runbook.Interaction
