import CiPipeline.Text.Lowercase
import CiPipeline.Yaml.Fault

/-!
Numbers as scalars: which texts have the form of one, and the number that a text writes. Integers may be
binary, octal, hexadecimal or counted in sixties, with underscores anywhere after the first digit; a
decimal needs a point, and a sign in its exponent.
-/

namespace CiPipeline.Yaml

open CiPipeline.Number (Binary64 splitSign)

/-- The value of a digit of a base up to sixteen. -/
def digit? (base : Nat) (c : Char) : Option Nat :=
  let value? :=
    if c.isDigit then some (c.toNat - 0x30)
    else if 'a' ≤ c ∧ c ≤ 'f' then some (c.toNat - 0x57)
    else if 'A' ≤ c ∧ c ≤ 'F' then some (c.toNat - 0x37)
    else none
  value?.filter (· < base)

/-- A text without a line feed at its end. -/
def withoutLineFeed (s : List Char) : List Char :=
  if s.getLast? = some '\n' then s.dropLast else s

/-- Takes underscores out. -/
def ungrouped (s : List Char) : List Char :=
  s.filter (· ≠ '_')

/-- A digit of a base, or an underscore. -/
def isGrouped (base : Nat) (c : Char) : Bool :=
  (digit? base c).isSome || c == '_'

/-- Whether a text begins with a digit. -/
def startsWithDigit (s : List Char) : Bool :=
  s.head?.any Char.isDigit

/-- The parts of a text between colons. -/
def colonParts : List Char → List (List Char)
  | [] => [[]]
  | c :: rest =>
    if c = ':' then [] :: colonParts rest
    else
      match colonParts rest with
      | [] => [[c]]
      | part :: more => (c :: part) :: more

/-- Whether a text is a number below sixty, in one or two digits. -/
def isBelowSixty : List Char → Bool
  | [c] => c.isDigit
  | [tens, c] => '0' ≤ tens && tens ≤ '5' && c.isDigit
  | _ => false

/-- Whether a text counts in sixties: a first part and further parts below sixty. -/
def isInSixties (s : List Char) : Bool :=
  match colonParts s with
  | first :: second :: rest =>
    startsWithDigit first && first.all (isGrouped 10) && (second :: rest).all isBelowSixty
  | _ => false

/-- Whether an unsigned text has the form of an integer. -/
def isNatural (s : List Char) : Bool :=
  match s with
  | ['0'] => true
  | '0' :: 'b' :: digits => !digits.isEmpty && digits.all (isGrouped 2)
  | '0' :: 'x' :: digits => !digits.isEmpty && digits.all (isGrouped 16)
  | '0' :: digits => digits.all (isGrouped 8)
  | _ => (startsWithDigit s && s.all (isGrouped 10)) || isInSixties s

/-- Whether a text has the form of an integer. -/
def isInteger (s : List Char) : Bool :=
  isNatural (splitSign s).2

/-- Whether a text is no exponent, or an exponent with its sign. -/
def isExponent : List Char → Bool
  | [] => true
  | c :: sign :: digits =>
    (c == 'e' || c == 'E') && (sign == '-' || sign == '+') && !digits.isEmpty &&
      digits.all Char.isDigit
  | _ => false

/-- Whether a text has the form of a decimal. One without digits before the point has no sign. -/
def isDecimal (s : List Char) : Bool :=
  let unsigned := (splitSign s).2
  let whole := unsigned.takeWhile (isGrouped 10)
  match unsigned.dropWhile (isGrouped 10) with
  | '.' :: rest =>
    let places := rest.takeWhile (isGrouped 10)
    isExponent (rest.dropWhile (isGrouped 10)) &&
      (startsWithDigit whole || (whole.isEmpty && unsigned == s && startsWithDigit places))
  | _ => false

/-- Whether a text counts in sixties up to a point, with places after it. -/
def isSixtiesFraction (s : List Char) : Bool :=
  let unsigned := (splitSign s).2
  match unsigned.dropWhile (· ≠ '.') with
  | _ :: places => places.all (isGrouped 10) && isInSixties (unsigned.takeWhile (· ≠ '.'))
  | [] => false

/-- Whether a text is one of the words for what no digits write. -/
def isNumberWord (s : List Char) : Bool :=
  [".inf", ".Inf", ".INF"].contains (String.ofList (splitSign s).2) ||
    [".nan", ".NaN", ".NAN"].contains (String.ofList s)

/-- Whether a text has the form of a number with a point. -/
def isFloat (s : List Char) : Bool :=
  isDecimal s || isSixtiesFraction s || isNumberWord s

/-- The letters that may stand after a zero in front of the digits of a base. -/
def baseLetters : List (Nat × List Char) :=
  [(2, ['b', 'B']), (8, ['o', 'O']), (16, ['x', 'X'])]

/-- Takes the mark of a base off, if it stands there. -/
def withoutBaseMark (base : Nat) (s : List Char) : List Char :=
  match s, baseLetters.lookup base with
  | '0' :: letter :: digits, some letters => if letters.contains letter then digits else s
  | _, _ => s

/--
The integer of a base that a text writes, maybe with a sign, with the mark of the base and with blanks
around it; decimal digits may be of any script. Those of a decimal are counted before anything after them
is looked at.
-/
def ofBase (base : Nat) (s : List Char) : Except ValueFault Int :=
  let (negative, rest) := splitSign (Text.trimWhile Number.isNumeralBlank (s.map Number.toAsciiDigit))
  let rest := withoutBaseMark base rest
  let digits := rest.takeWhile fun c => (digit? base c).isSome
  if base = 10 ∧ Number.maxIntDigits < digits.length then .error (.tooManyDigits digits.length)
  else if digits.isEmpty || digits.length < rest.length then
    .error (.notInteger base (String.ofList s))
  else
    let values := digits.filterMap (digit? base)
    .ok (Binary64.signed negative (values.foldl (fun number value => number * base + value) 0))

/-- The integer that an unsigned text without underscores writes. -/
def naturalValue (s : List Char) : Except ValueFault Int :=
  match s with
  | [] => .error .noNumber
  | '0' :: 'b' :: digits => ofBase 2 digits
  | '0' :: 'x' :: digits => ofBase 16 digits
  | '0' :: _ => ofBase 8 s
  | _ => do
    let parts ← (colonParts s).mapM (ofBase 10)
    return parts.foldl (fun number part => number * 60 + part) 0

/-- The integer that a text writes. -/
def integerValue (s : List Char) : Except ValueFault Int := do
  let (negative, digits) := splitSign (ungrouped s)
  let magnitude ← naturalValue digits
  return if negative then -magnitude else magnitude

/-- The number that a text without colons writes. -/
def numberValue (s : List Char) : Except ValueFault Binary64 :=
  match Number.float? (String.ofList s) with
  | some x => .ok x
  | none => .error (.notNumber (String.ofList s))

/-- A total with some parts added, the last part first; each counts sixty times the one after it. -/
def sumSixties (total : Binary64) (unit : Nat) : List Binary64 → Except ValueFault Binary64
  | [] => .ok total
  | part :: rest =>
    match Binary64.ofInt? unit with
    | none => .error .powerTooGreat
    | some factor => sumSixties (total.add (part.mul factor)) (unit * 60) rest

/-- The number that an unsigned text without underscores writes. -/
def magnitudeValue (s : List Char) : Except ValueFault Binary64 :=
  match String.ofList s, colonParts s with
  | ".inf", _ => .ok (.infinite false)
  | ".nan", _ => .ok .nan
  | _, [_] => numberValue s
  | _, parts => do sumSixties (.zero false) 1 (← parts.mapM numberValue).reverse

/-- Whether a text is the sign, in letters of either case, of what is no number. -/
def isSignOfNone (s : List Char) : Bool :=
  (splitSign (Text.lowercase (ungrouped s))).2 == ".nan".toList

/-- The number that a text writes. Sums in sixties are rounded at each step. -/
def floatValue (s : List Char) : Except ValueFault Binary64 :=
  match Text.lowercase (ungrouped s) with
  | [] => .error .noNumber
  | written => do
    let (negative, rest) := splitSign written
    let magnitude ← magnitudeValue rest
    return if negative then magnitude.neg else magnitude

end CiPipeline.Yaml
