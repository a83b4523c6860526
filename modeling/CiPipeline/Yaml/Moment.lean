import CiPipeline.Yaml.Numeral

/-!
Days and moments as scalars: a date, and after it maybe a time of day with the distance of its clock from
universal time.
-/

namespace CiPipeline.Yaml

/-- The number of some digits. -/
def digitsValue (digits : List Char) : Nat :=
  Text.ofDigits (digits.filterMap Number.asciiDigit?)

/-- A number of so many digits at least and at most at the beginning of a text, and the rest. -/
def takeNumber (least most : Nat) (s : List Char) : Option (Nat × List Char) :=
  let digits := (s.take most).takeWhile Char.isDigit
  if least ≤ digits.length then some (digitsValue digits, s.drop digits.length) else none

/-- The text after a character that must come next. -/
def after? (c : Char) : List Char → Option (List Char)
  | [] => none
  | first :: rest => if first = c then some rest else none

/-- A space or a tab. -/
def isSpacing (c : Char) : Bool :=
  c == ' ' || c == '\t'

/-- The date at the beginning of a text, and the rest. -/
def takeDate (s : List Char) : Option (Date × List Char) := do
  let (year, rest) ← takeNumber 4 4 s
  let (month, rest) ← takeNumber 1 2 (← after? '-' rest)
  let (day, rest) ← takeNumber 1 2 (← after? '-' rest)
  return (⟨year, month, day⟩, rest)

/-- The text after what may stand between a date and a time of day: a letter, or some blanks. -/
def afterDate? : List Char → Option (List Char)
  | [] => none
  | c :: rest =>
    if c = 'T' ∨ c = 't' then some rest
    else if isSpacing c then some (rest.dropWhile isSpacing)
    else none

/-- The microseconds that the digits after a point write; what is finer is left out. -/
def microseconds (digits : List Char) : Nat :=
  digitsValue (digits.take 6 ++ List.replicate (6 - digits.length) '0')

/-- The fraction of a second at the beginning of a text, and the rest. -/
def takeFraction : List Char → Nat × List Char
  | '.' :: rest => (microseconds (rest.takeWhile Char.isDigit), rest.dropWhile Char.isDigit)
  | rest => (0, rest)

/-- The time of day at the beginning of a text, and the rest. -/
def takeClock (s : List Char) : Option (Clock × List Char) := do
  let (hour, rest) ← takeNumber 1 2 s
  let (minute, rest) ← takeNumber 2 2 (← after? ':' rest)
  let (second, rest) ← takeNumber 2 2 (← after? ':' rest)
  let (fraction, rest) := takeFraction rest
  return (⟨hour, minute, second, fraction⟩, rest)

/-- The minutes that a whole text without its sign says a clock is ahead or behind. -/
def offsetMinutes? (s : List Char) : Option Nat := do
  let (hours, rest) ← takeNumber 1 2 s
  if rest.isEmpty then return hours * 60
  let (minutes, rest) ← takeNumber 2 2 (← after? ':' rest)
  if rest.isEmpty then return hours * 60 + minutes else none

/-- The distance of a clock that a whole text gives; nothing gives none. -/
def readOffset? (s : List Char) : Option (Option Int) :=
  match s, s.dropWhile isSpacing with
  | [], _ => some none
  | _, ['Z'] => some (some 0)
  | _, '+' :: rest => (offsetMinutes? rest).map fun minutes => some (minutes : Int)
  | _, '-' :: rest => (offsetMinutes? rest).map fun minutes => some (-minutes : Int)
  | _, _ => none

/-- The time that a whole text writes, whether or not a calendar has it. -/
def writtenTime? (s : List Char) : Option CalendarTime := do
  let (date, rest) ← takeDate s
  if rest.isEmpty then return .day date
  let (clock, rest) ← takeClock (← afterDate? rest)
  return .moment date clock (← readOffset? rest)

/-- Whether a text has the form of a time. A date that stands alone has two digits for month and day. -/
def isTime (s : List Char) : Bool :=
  match writtenTime? s with
  | some (.day _) => s.length == "2000-01-01".length
  | some (.moment ..) => true
  | none => false

/-- The time that a text writes. A line feed may end it. -/
def timeValue (s : List Char) : Except ValueFault CalendarTime :=
  match writtenTime? (withoutLineFeed s) with
  | none => .error .notTime
  | some time =>
    match time.fault? with
    | some fault => .error (.time fault)
    | none => .ok time

end CiPipeline.Yaml
