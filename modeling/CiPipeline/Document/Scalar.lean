import CiPipeline.Document.Reading
import CiPipeline.Number.Numeral
import CiPipeline.Text.Utf8

/-!
Readings of the scalars of a document. Texts are made from bytes, and never from other values. Numbers and
truth values may be written as texts, within the forms given here; such a text must be one that bytes hold.
-/

namespace CiPipeline.Document

open CiPipeline.Number (Binary64 isNumeralBlank floatLiteral?)

/-- A text. -/
def readText : Value → Reading String
  | .text s => .meaning s
  | .bytes codes =>
    match Text.Utf8.decode? codes with
    | some s => .meaning s
    | none => .fail .stringUnicode
  | _ => .fail .stringType

/-- What a value writes by a text, given what is wrong with bytes that are none. -/
def written? (fault : Issue.Kind) : Value → Option (Reading String)
  | .text s => some (if Text.hasHalf s then .fail .stringUnicode else .meaning s)
  | .bytes codes =>
    match Text.Utf8.decode? codes with
    | some s => some (.meaning s)
    | none => some (.fail fault)
  | _ => none

/-- Whether an integer is one of 64 bits. -/
def fitsInt64 (n : Int) : Bool :=
  -0x8000000000000000 ≤ n && n < 0x8000000000000000

/-- The words for truth. -/
def trueWords : List String := ["1", "on", "t", "true", "y", "yes"]

/-- The words for its contrary. -/
def falseWords : List String := ["0", "off", "f", "false", "n", "no"]

/-- A word for a truth value, in letters of either case. -/
def readWord (s : String) : Reading Bool :=
  let word := String.ofList (s.toList.map Char.toLower)
  if trueWords.contains word then .meaning true
  else if falseWords.contains word then .meaning false
  else .fail .boolParsing

/-- A number that stands for a truth value: one or zero. -/
def readSwitch (n : Int) : Reading Bool :=
  if n = 1 then .meaning true
  else if n = 0 then .meaning false
  else if fitsInt64 n then .fail .boolParsing
  else .fail .boolType

/-- The integer that a number is, if it is one strictly within the bounds of 64 bits. -/
def wholeInt64? (x : Binary64) : Option Int :=
  x.toInt?.filter fun n => -0x8000000000000000 < n && n < 0x8000000000000000

/-- A truth value. -/
def readFlag (value : Value) : Reading Bool :=
  match value, written? .boolParsing value with
  | _, some text => text.andThen readWord
  | .bool b, none => .meaning b
  | .int n, none => readSwitch n
  | .float x, none =>
    match wholeInt64? x with
    | some n => readSwitch n
    | none => .fail .boolType
  | _, none => .fail .boolType

/-- Whether an underscore stands at an end of a text or beside another one. -/
def hasLooseUnderscore (s : List Char) : Bool :=
  s.head? == some '_' || s.getLast? == some '_' || (s.zip s.tail).contains ('_', '_')

/--
The number that a text writes: a plain numeral with blanks around it, or one without blanks that single
underscores divide.
-/
def numeral? (s : List Char) : Option Binary64 :=
  match floatLiteral? (Text.trimWhile isNumeralBlank s) with
  | some x => some x
  | none =>
    if s.contains '_' && !hasLooseUnderscore s then floatLiteral? (s.filter (· ≠ '_')) else none

/-- The number that a text writes. -/
def readNumeral (s : String) : Reading Binary64 :=
  match numeral? s.toList with
  | some x => .meaning x
  | none => .fail .floatParsing

/-- A number. -/
def readNumber (value : Value) : Reading Binary64 :=
  match value, written? .floatParsing value with
  | _, some text => text.andThen readNumeral
  | .bool b, none => .meaning (.ofInt (if b then 1 else 0))
  | .int n, none =>
    match Binary64.ofInt? n with
    | some x => .meaning x
    | none => .fail .floatType
  | .float x, none => .meaning x
  | .nan _, none => .meaning .nan
  | _, none => .fail .floatType

/-- A number above zero. -/
def readPositive (value : Value) : Reading Binary64 :=
  (readNumber value).andThen fun x => if x.isPositive then .meaning x else .fail .greaterThan

end CiPipeline.Document
