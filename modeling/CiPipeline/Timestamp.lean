import CiPipeline.Number.Shortest

/-!
Moments in universal time, to the microsecond, with their standard text and the time between two.
-/

namespace CiPipeline

/-- A moment, in microseconds since the beginning of 1970. -/
structure Timestamp where
  micros : Int
  deriving DecidableEq, Repr

namespace Timestamp

/-- Microseconds in a second. -/
def perSecond : Int := 1000000

/-- Seconds in a day. -/
def secondsPerDay : Int := 86400

/-- The year, month and day of a count of days since the beginning of 1970. -/
def civil (days : Int) : Int × Int × Int :=
  let shifted := days + 719468
  let era := shifted.fdiv 146097
  let dayOfEra := shifted - era * 146097
  let yearOfEra :=
    (dayOfEra - dayOfEra / 1460 + dayOfEra / 36524 - dayOfEra / 146096) / 365
  let dayOfYear := dayOfEra - (365 * yearOfEra + yearOfEra / 4 - yearOfEra / 100)
  let monthFromMarch := (5 * dayOfYear + 2) / 153
  let day := dayOfYear - (153 * monthFromMarch + 2) / 5 + 1
  let month := if monthFromMarch < 10 then monthFromMarch + 3 else monthFromMarch - 9
  let year := yearOfEra + era * 400 + if month ≤ 2 then 1 else 0
  (year, month, day)

/-- A number with at least so many digits. -/
def padded (width : Nat) (n : Int) : String :=
  let digits := Nat.toDigits 10 n.natAbs
  String.ofList (List.replicate (width - digits.length) '0' ++ digits)

/-- The date and the time of day, with the fraction of the second where there is one. -/
def text (moment : Timestamp) : String :=
  let seconds := moment.micros.fdiv perSecond
  let fraction := moment.micros - seconds * perSecond
  let days := seconds.fdiv secondsPerDay
  let second := seconds - days * secondsPerDay
  let (year, month, day) := civil days
  padded 4 year ++ "-" ++ padded 2 month ++ "-" ++ padded 2 day ++ "T" ++
    padded 2 (second / 3600) ++ ":" ++ padded 2 (second / 60 % 60) ++ ":" ++
    padded 2 (second % 60) ++
    (if fraction = 0 then "" else "." ++ padded 6 fraction) ++ "+00:00"

/-- The seconds from one moment to another, as the nearest binary number. -/
def secondsBetween (start finish : Timestamp) : Number.Binary64 :=
  let micros := finish.micros - start.micros
  Number.Binary64.ofFraction (micros < 0) micros.natAbs perSecond.toNat

end Timestamp
end CiPipeline
