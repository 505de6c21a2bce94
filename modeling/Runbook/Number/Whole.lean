import Runbook.Fault
import Runbook.Number.Numeral
import Runbook.Value

/-! Whole numbers in texts, and what is said about texts that are no numerals. -/
namespace Runbook.Number

/-- The refusal of a whole number; only the beginning of the text is shown. -/
def wholeMessage (base : Nat) (s : String) : String :=
  "invalid literal for int() with base " ++ toString base ++ ": " ++
    String.ofList ((Text.quoted s).toList.take 200)

/-- The refusal of a number. -/
def realMessage (s : String) : String := "could not convert string to float: " ++ Text.quoted s

/-- The refusal of a numeral with too many digits. -/
def digitMessage (count : Nat) : String :=
  "Exceeds the limit (4300 digits) for integer string conversion: value has " ++
    toString count ++ " digits; use sys.set_int_max_str_digits() to increase the limit"

/-- The whole number that a text is. -/
def whole (cs : List Char) : Except Fault Int :=
  match int? cs with
  | some n =>
    let count := (cs.filter Text.isDecimal).length
    if digitLimit < count then .error (.badValue (digitMessage count)) else .ok n
  | none => .error (.badValue (wholeMessage 10 (String.ofList cs)))

end Runbook.Number
