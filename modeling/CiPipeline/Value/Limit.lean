import CiPipeline.Number.Numeral
import CiPipeline.Value

/-!
Integers that are too long for a text: values that hold one have no text.
-/

namespace CiPipeline

/-- Whether an integer has more decimal digits than a text may have. -/
def Number.isTooLong (n : Int) : Bool :=
  Nat.pow 10 Number.maxIntDigits ≤ n.natAbs

namespace Value

mutual

/-- Whether a value holds an integer that is too long. -/
def isTooLong : Value → Bool
  | int n => Number.isTooLong n
  | list items | set items => anyTooLong items
  | pair first second => isTooLong first || isTooLong second
  | mapping entries => anyEntryTooLong entries
  | knot _ content => isTooLong content
  | null | bool _ | float _ | nan _ | time _ | text _ | bytes _ | again _ => false

/-- Whether one of some values holds an integer that is too long. -/
def anyTooLong : List Value → Bool
  | [] => false
  | item :: rest => isTooLong item || anyTooLong rest

/-- Whether a key or a value of some entries holds an integer that is too long. -/
def anyEntryTooLong : List (Value × Value) → Bool
  | [] => false
  | (key, value) :: rest => isTooLong key || isTooLong value || anyEntryTooLong rest

end

/-- The complaint about a value without a text. -/
def tooLongText : String :=
  "Exceeds the limit (" ++ toString Number.maxIntDigits ++ " digits) for integer string conversion; " ++
    "use sys.set_int_max_str_digits() to increase the limit"

end Value
end CiPipeline
