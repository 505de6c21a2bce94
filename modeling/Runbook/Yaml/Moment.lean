import Runbook.Number.Shortest
import Runbook.Yaml.Cursor

/-! Dates and points in time.

A date is a year, a month and a day; a point in time has a time of the day behind it and maybe
its distance from universal time. Both have one written form, whatever their form in a text. -/
namespace Runbook.Yaml

open Number

structure Moment where
  year : Nat
  month : Nat
  day : Nat
  /-- Hour, minute, second and microsecond. -/
  time : Option (Nat × Nat × Nat × Nat) := none
  /-- Minutes ahead of universal time. -/
  ahead : Option Int := none
deriving DecidableEq, Repr

namespace Moment

/-! ### Reading -/

def isDecimalDigit (c : Char) : Bool := '0' ≤ c && c ≤ '9'

def numberOf (cs : List Char) : Nat := cs.foldl (fun n d => n * 10 + (d.toNat - 48)) 0

/-- A number of at least some and at most some digits at the front. -/
def digits (least most : Nat) (cs : List Char) : Option (Nat × List Char) :=
  let run := (cs.take most).takeWhile isDecimalDigit
  if run.length < least then none else some (numberOf run, cs.drop run.length)

/-- What is behind a character at the front. -/
def behind (c : Char) : List Char → Option (List Char)
  | d :: rest => if d == c then some rest else none
  | [] => none

def isGap (c : Char) : Bool := c == ' ' || c == '\t'

/-- The mark between a date and a time, or the blanks there. -/
def behindDate : List Char → Option (List Char)
  | 'T' :: rest => some rest
  | 't' :: rest => some rest
  | c :: rest => if isGap c then some (rest.dropWhile isGap) else none
  | [] => none

/-- The microseconds that a fraction of a second is, from its digits. -/
def microseconds (cs : List Char) : Nat :=
  let six := cs.take 6
  numberOf six * Nat.pow 10 (6 - six.length)

/-- A fraction of a second, which may be a lone point. -/
def fraction : List Char → Nat × List Char
  | '.' :: rest => (microseconds (rest.takeWhile isDecimalDigit), rest.dropWhile isDecimalDigit)
  | rest => (0, rest)

/-- A distance from universal time, with its sign read. -/
def distance (cs : List Char) : Option Int := do
  let (hours, cs) ← digits 1 2 cs
  match cs with
  | [] => some (hours * 60)
  | ':' :: cs =>
    match ← digits 2 2 cs with
    | (minutes, []) => some (hours * 60 + minutes)
    | _ => none
  | _ => none

/-- What ends a point in time: nothing, or the distance from universal time. -/
def zone (cs : List Char) : Option (Option Int) :=
  match cs with
  | [] => some none
  | cs =>
    match cs.dropWhile isGap with
    | ['Z'] => some (some 0)
    | '+' :: rest => (distance rest).map some
    | '-' :: rest => (distance rest).map fun n => some (-n)
    | _ => none

/-- A time of the day and what ends it. -/
def timeOfDay (cs : List Char) : Option ((Nat × Nat × Nat × Nat) × Option Int) := do
  let (hour, cs) ← digits 1 2 cs
  let (minute, cs) ← digits 2 2 (← behind ':' cs)
  let (second, cs) ← digits 2 2 (← behind ':' cs)
  let (micro, cs) := fraction cs
  return ((hour, minute, second, micro), ← zone cs)

/-- A moment in the forms that a tag may ask for. The numbers are not yet checked. -/
def ofChars? (cs : List Char) : Option Moment := do
  let (year, cs) ← digits 4 4 cs
  let (month, cs) ← digits 1 2 (← behind '-' cs)
  let (day, cs) ← digits 1 2 (← behind '-' cs)
  match cs with
  | [] => return { year, month, day }
  | cs =>
    let (time, ahead) ← timeOfDay (← behindDate cs)
    return { year, month, day, time := some time, ahead }

/-- Whether a text without a tag is read as a moment: a date alone has all its digits. -/
def hasForm (cs : List Char) : Bool :=
  match ofChars? cs with
  | some m => m.time.isSome || cs.length == 10
  | none => false

/-! ### Checking -/

def isLeap (year : Nat) : Bool := year % 4 == 0 && (year % 100 != 0 || year % 400 == 0)

def daysIn (year month : Nat) : Nat :=
  match month with
  | 2 => if isLeap year then 29 else 28
  | 4 | 6 | 9 | 11 => 30
  | _ => 31

/-- A length of time in minutes as days and seconds. -/
def spanText (minutes : Int) : String :=
  let days := minutes.fdiv 1440
  let seconds := minutes.fmod 1440 * 60
  let parts := (if days == 0 then [] else ["days=" ++ toString days]) ++
    (if seconds == 0 then [] else ["seconds=" ++ toString seconds])
  "datetime.timedelta(" ++ ", ".intercalate parts ++ ")"

/-- What keeps a distance from being one: it is less than a day. -/
def flawAhead? (n : Int) : Option String :=
  if -1440 < n && n < 1440 then none
  else some ("offset must be a timedelta strictly between -timedelta(hours=24) and " ++
    "timedelta(hours=24), not " ++ spanText n ++ ".")

/-- What keeps a date out of the calendar. -/
def flawDate? (m : Moment) : Option String :=
  if m.year == 0 then some ("year " ++ toString m.year ++ " is out of range")
  else if m.month == 0 || 12 < m.month then some "month must be in 1..12"
  else if m.day == 0 || daysIn m.year m.month < m.day then some "day is out of range for month"
  else none

/-- What keeps a time out of the day. -/
def flawTime? : Nat × Nat × Nat × Nat → Option String
  | (h, m, s, _) =>
    if 24 ≤ h then some "hour must be in 0..23"
    else if 60 ≤ m then some "minute must be in 0..59"
    else if 60 ≤ s then some "second must be in 0..59"
    else none

/-- What keeps a moment out of the calendar. -/
def flaw? (m : Moment) : Option String :=
  m.ahead.bind flawAhead? <|> m.flawDate? <|> m.time.bind flawTime?

/-! ### Writing -/

/-- A number with zeros in front. -/
def wide (width n : Nat) : String := String.ofList (padded width (digitChars n))

def writtenAhead (n : Int) : String :=
  (if n < 0 then "-" else "+") ++ wide 2 (n.natAbs / 60) ++ ":" ++ wide 2 (n.natAbs % 60)

def writtenTime : Nat × Nat × Nat × Nat → String
  | (h, m, s, micro) => " " ++ wide 2 h ++ ":" ++ wide 2 m ++ ":" ++ wide 2 s ++
    if micro == 0 then "" else "." ++ wide 6 micro

def written (m : Moment) : String :=
  wide 4 m.year ++ "-" ++ wide 2 m.month ++ "-" ++ wide 2 m.day ++
    (m.time.map writtenTime).getD "" ++ (m.ahead.map writtenAhead).getD ""

/-! ### Showing -/

/-- Hour and minute, and of second and microsecond as much as counts. -/
def shownTime : Nat × Nat × Nat × Nat → List Nat
  | (h, m, 0, 0) => [h, m]
  | (h, m, s, 0) => [h, m, s]
  | (h, m, s, micro) => [h, m, s, micro]

def shownAhead (n : Int) : String :=
  if n == 0 then "datetime.timezone.utc" else "datetime.timezone(" ++ spanText n ++ ")"

/-- A moment as it is shown inside another text. -/
def shown (m : Moment) : String :=
  let listed := fun (ns : List Nat) => ", ".intercalate (ns.map toString)
  let date := [m.year, m.month, m.day]
  match m.time with
  | none => "datetime.date(" ++ listed date ++ ")"
  | some time => "datetime.datetime(" ++ listed (date ++ shownTime time) ++
    (m.ahead.map (", tzinfo=" ++ shownAhead ·)).getD "" ++ ")"

end Moment
end Runbook.Yaml
