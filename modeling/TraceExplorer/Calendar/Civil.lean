/-!
# Civil dates

The Gregorian calendar extended to all years. Years are counted from March inside, so that the leap
day is the last day of a year, and 400 years always have 146097 days.
-/

namespace TraceExplorer.Calendar

structure CivilDate where
  year : Int
  month : Int
  day : Int
  deriving DecidableEq, Repr

/-- The days in 400 years. -/
def daysPerEra : Int := 146097

/-- The days from the first of March of year zero to the first of January 1970. -/
def epochShift : Int := 719468

/-- The date of a number of days since the first of January 1970. -/
def CivilDate.ofDays (days : Int) : CivilDate :=
  let shifted := days + epochShift
  let era := shifted / daysPerEra
  let dayOfEra := shifted % daysPerEra
  let yearOfEra :=
    (dayOfEra - dayOfEra / 1460 + dayOfEra / 36524 - dayOfEra / 146096) / 365
  let dayOfYear := dayOfEra - (365 * yearOfEra + yearOfEra / 4 - yearOfEra / 100)
  let monthFromMarch := (5 * dayOfYear + 2) / 153
  let day := dayOfYear - (153 * monthFromMarch + 2) / 5 + 1
  let month := if monthFromMarch < 10 then monthFromMarch + 3 else monthFromMarch - 9
  { year := yearOfEra + era * 400 + (if month ≤ 2 then 1 else 0), month, day }

def CivilDate.toDays (d : CivilDate) : Int :=
  let year := if d.month ≤ 2 then d.year - 1 else d.year
  let era := year / 400
  let yearOfEra := year % 400
  let monthFromMarch := if 2 < d.month then d.month - 3 else d.month + 9
  let dayOfYear := (153 * monthFromMarch + 2) / 5 + d.day - 1
  let dayOfEra := yearOfEra * 365 + yearOfEra / 4 - yearOfEra / 100 + dayOfYear
  era * daysPerEra + dayOfEra - epochShift

structure CivilTime where
  date : CivilDate
  hour : Int
  minute : Int
  second : Int
  deriving DecidableEq, Repr

/-- The moment of a number of seconds since the start of 1970. -/
def CivilTime.ofSeconds (seconds : Int) : CivilTime where
  date := .ofDays (seconds / 86400)
  hour := seconds % 86400 / 3600
  minute := seconds % 3600 / 60
  second := seconds % 60

/-- Writes a number in at least the given number of digits. -/
def padZeros (width : Nat) (n : Int) : String :=
  let digits := Nat.toDigits 10 n.natAbs
  String.ofList (List.replicate (width - digits.length) '0' ++ digits)

end TraceExplorer.Calendar
