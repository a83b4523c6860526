import CiPipeline.Timestamp

/-!
Days of the calendar and moments of a day, as a document may write them. A moment may say how far its clock
is ahead of universal time; then it is the same moment as others that name the same instant.
-/

namespace CiPipeline

/-- A day. -/
structure Date where
  year : Nat
  month : Nat
  day : Nat
  deriving DecidableEq, Repr

/-- A time of day. -/
structure Clock where
  hour : Nat
  minute : Nat
  second : Nat
  microsecond : Nat := 0
  deriving DecidableEq, Repr

/-- A day, or a moment of a day with the minutes by which its clock is ahead, if it says so. -/
inductive CalendarTime
  | day (date : Date)
  | moment (date : Date) (clock : Clock) (ahead : Option Int)
  deriving DecidableEq, Repr

/-- What no calendar has. -/
inductive CalendarFault
  /-- A clock is a day or more ahead or behind. -/
  | offset (minutes : Int)
  | year
  | month
  | day
  | hour
  | minute
  | second
  deriving DecidableEq, Repr

namespace Date

/-- Whether a year has a day more than others. -/
def isLeap (year : Nat) : Bool :=
  year % 4 == 0 && (year % 100 != 0 || year % 400 == 0)

/-- The number of days of a month. -/
def monthLength (year month : Nat) : Nat :=
  if month = 2 then if isLeap year then 29 else 28
  else if [4, 6, 9, 11].contains month then 30
  else 31

/-- What is wrong with a day; the year is looked at first. -/
def fault? (date : Date) : Option CalendarFault :=
  if date.year = 0 then some .year
  else if date.month = 0 ∨ 12 < date.month then some .month
  else if date.day = 0 ∨ monthLength date.year date.month < date.day then some .day
  else none

/-- The number of days from the beginning of the first year up to a day, which counts too. -/
def dayNumber (date : Date) : Nat :=
  let years := date.year - 1
  let months := (List.range' 1 (date.month - 1)).map (monthLength date.year)
  365 * years + years / 4 - years / 100 + years / 400 + months.foldl (· + ·) 0 + date.day

/-- The text of a day. -/
def text (date : Date) : String :=
  Timestamp.padded 4 date.year ++ "-" ++ Timestamp.padded 2 date.month ++ "-" ++
    Timestamp.padded 2 date.day

/-- The numbers of a day. -/
def parts (date : Date) : List Nat :=
  [date.year, date.month, date.day]

end Date

namespace Clock

/-- What is wrong with a time of day. -/
def fault? (clock : Clock) : Option CalendarFault :=
  if 24 ≤ clock.hour then some .hour
  else if 60 ≤ clock.minute then some .minute
  else if 60 ≤ clock.second then some .second
  else none

/-- The text of a time of day, with the fraction of the second where there is one. -/
def text (clock : Clock) : String :=
  Timestamp.padded 2 clock.hour ++ ":" ++ Timestamp.padded 2 clock.minute ++ ":" ++
    Timestamp.padded 2 clock.second ++
    (if clock.microsecond = 0 then "" else "." ++ Timestamp.padded 6 clock.microsecond)

/-- The numbers of a time of day, up to the last of seconds and microseconds that is not zero. -/
def parts (clock : Clock) : List Nat :=
  [clock.hour, clock.minute] ++
    if clock.microsecond ≠ 0 then [clock.second, clock.microsecond]
    else if clock.second ≠ 0 then [clock.second]
    else []

end Clock

/-- Minutes in a day. -/
def minutesPerDay : Int := 1440

/-- A span of minutes in the notation of values: whole days, and the seconds that remain. -/
def spanText (minutes : Int) : String :=
  let days := minutes.fdiv minutesPerDay
  let seconds := (minutes - days * minutesPerDay) * 60
  let parts :=
    (if days = 0 then [] else ["days=" ++ toString days]) ++
      (if seconds = 0 then [] else ["seconds=" ++ toString seconds])
  "datetime.timedelta(" ++ (if parts.isEmpty then "0" else ", ".intercalate parts) ++ ")"

/-- The wording of a fault. -/
def CalendarFault.message : CalendarFault → String
  | offset minutes =>
    "offset must be a timedelta strictly between -timedelta(hours=24) and timedelta(hours=24), not " ++
      spanText minutes ++ "."
  | year => "year 0 is out of range"
  | month => "month must be in 1..12"
  | day => "day is out of range for month"
  | hour => "hour must be in 0..23"
  | minute => "minute must be in 0..59"
  | second => "second must be in 0..59"

namespace CalendarTime

/-- What is wrong with the distance of a clock from universal time. -/
def offsetFault? (ahead : Option Int) : Option CalendarFault :=
  match ahead with
  | some minutes => if minutes.natAbs < minutesPerDay.natAbs then none else some (.offset minutes)
  | none => none

/-- What is wrong with a time: the distance of its clock comes first, then the day, then the time of day. -/
def fault? : CalendarTime → Option CalendarFault
  | day date => date.fault?
  | moment date clock ahead => offsetFault? ahead <|> date.fault? <|> clock.fault?

/-- The minutes by which a clock is ahead, as they end the text of a moment. -/
def aheadText (minutes : Int) : String :=
  (if minutes < 0 then "-" else "+") ++ Timestamp.padded 2 (minutes.natAbs / 60 : Nat) ++ ":" ++
    Timestamp.padded 2 (minutes.natAbs % 60 : Nat)

/-- The text of a time that stands alone. -/
def text : CalendarTime → String
  | day date => date.text
  | moment date clock ahead =>
    date.text ++ " " ++ clock.text ++ (ahead.map aheadText).getD ""

/-- The distance of a clock in the notation of values. -/
def zoneText (minutes : Int) : String :=
  if minutes = 0 then "datetime.timezone.utc"
  else "datetime.timezone(" ++ spanText minutes ++ ")"

/-- The text of a time inside another value. -/
def quoted : CalendarTime → String
  | day date => "datetime.date(" ++ ", ".intercalate (date.parts.map toString) ++ ")"
  | moment date clock ahead =>
    let zone := ahead.toList.map fun minutes => "tzinfo=" ++ zoneText minutes
    "datetime.datetime(" ++
      ", ".intercalate ((date.parts ++ clock.parts).map toString ++ zone) ++ ")"

/-- The minute of universal time at which a clock shows a moment. -/
def universalMinute (date : Date) (clock : Clock) (ahead : Int) : Int :=
  date.dayNumber * minutesPerDay + clock.hour * 60 + clock.minute - ahead

/-- Whether two times are one: the same day, the same reading of the clock, or the same instant. -/
def sameTime : CalendarTime → CalendarTime → Bool
  | day date, day date' => date == date'
  | moment date clock none, moment date' clock' none => date == date' && clock == clock'
  | moment date clock (some ahead), moment date' clock' (some ahead') =>
    universalMinute date clock ahead == universalMinute date' clock' ahead' &&
      clock.second == clock'.second && clock.microsecond == clock'.microsecond
  | _, _ => false

end CalendarTime
end CiPipeline
