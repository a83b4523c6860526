import CiPipeline.Number.Binary64
import CiPipeline.Text.Blank
import CiPipeline.Text.Digit

/-!
Reading numbers that people write: blanks around them, a sign, decimal digits of any script, and single
underscores between two digits. A text that is not of this form is no number at all.
-/

namespace CiPipeline.Number

open CiPipeline.Text (isBlank trimWhile digitValue? ofDigits)

/-- The blanks that may stand around a number: all but the four separators of information. -/
def isNumeralBlank (c : Char) : Bool :=
  isBlank c && !(0x1c ≤ c.toNat && c.toNat ≤ 0x1f)

/-- Takes a sign off: whether it was a minus, and what follows. -/
def splitSign : List Char → Bool × List Char
  | '-' :: rest => (true, rest)
  | '+' :: rest => (false, rest)
  | rest => (false, rest)

/-- The values of decimal digits, of which any two neighbours may have one underscore between them. -/
def groupedDigits? : List Char → Option (List Nat)
  | [] => none
  | [c] => (digitValue? c).map ([·])
  | c :: '_' :: rest => do return (← digitValue? c) :: (← groupedDigits? rest)
  | c :: rest => do return (← digitValue? c) :: (← groupedDigits? rest)

/-- Longer integers are refused. -/
def maxIntDigits : Nat := 4300

/-- The integer that a text writes. -/
def int? (s : String) : Option Int := do
  let (negative, digits) := splitSign (trimWhile isNumeralBlank s.toList)
  let values ← groupedDigits? digits
  guard (values.length ≤ maxIntDigits)
  let magnitude : Int := ofDigits values
  return if negative then -magnitude else magnitude

/-- The value of an ASCII digit. -/
def asciiDigit? (c : Char) : Option Nat :=
  if c.isDigit then some (c.toNat - 0x30) else none

/-- The ASCII digits at the front of a text, and the rest. -/
def spanDigits (s : List Char) : List Nat × List Char :=
  ((s.takeWhile Char.isDigit).filterMap asciiDigit?, s.dropWhile Char.isDigit)

/-- The exponent that ends a decimal; without one it is zero. -/
def exponent? : List Char → Option Int
  | [] => some 0
  | c :: rest => do
    guard (c = 'e' || c = 'E')
    let (negative, digits) := splitSign rest
    let (values, rest) := spanDigits digits
    guard (!values.isEmpty && rest.isEmpty)
    let magnitude : Int := ofDigits values
    return if negative then -magnitude else magnitude

/-- The parts of an unsigned decimal: its digits as one number, and the power of ten they count. -/
def decimal? (s : List Char) : Option (Nat × Int) := do
  let (whole, rest) := spanDigits s
  let (places, rest) := match rest with
    | '.' :: rest => spanDigits rest
    | rest => ([], rest)
  guard (!(whole.isEmpty && places.isEmpty))
  let exponent ← exponent? rest
  return (ofDigits (whole ++ places), exponent - places.length)

/-- The words that stand for numbers without digits. -/
def numberWord? (negative : Bool) (s : List Char) : Option Binary64 :=
  match String.ofList (s.map Char.toLower) with
  | "inf" => some (.infinite negative)
  | "infinity" => some (.infinite negative)
  | "nan" => some .nan
  | _ => none

/-- The number that a text in ASCII digits writes, with nothing around it. -/
def floatLiteral? (s : List Char) : Option Binary64 :=
  let (negative, rest) := splitSign s
  match decimal? rest with
  | some (digits, exponent) => some (.ofDecimal negative digits exponent)
  | none => numberWord? negative rest

/-- The text without its underscores, if each stands between two ASCII digits. -/
def dropUnderscores? (previous : Char) : List Char → Option (List Char)
  | [] => some []
  | '_' :: c :: rest =>
    if previous.isDigit && c.isDigit then (dropUnderscores? c rest).map (c :: ·) else none
  | '_' :: [] => none
  | c :: rest => (dropUnderscores? c rest).map (c :: ·)

/-- A digit of any script as the ASCII digit of its value; other characters stand for themselves. -/
def toAsciiDigit (c : Char) : Char :=
  match digitValue? c with
  | some value => Char.ofNat (0x30 + value)
  | none => c

/-- The number that a text writes. -/
def float? (s : String) : Option Binary64 := do
  let literal ← dropUnderscores? ' ' ((trimWhile isNumeralBlank s.toList).map toAsciiDigit)
  floatLiteral? literal

end CiPipeline.Number
