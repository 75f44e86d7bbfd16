/-!
# Instants

Points in time on the proleptic Gregorian calendar in UTC. An instant is a day and a time of that
day; a leap second is the last second of a minute with more than a second's worth of nanoseconds.
Differences between instants count whole days.
-/

namespace PackageRisk

/-- A point in time: days since 1970-01-01, the second of the day, and nanoseconds. In a leap
second `nanos` runs from 1000000000 to 1999999999. -/
structure Instant where
  day : Int
  second : Nat
  nanos : Nat
  deriving DecidableEq, Repr

namespace Instant

/-- Nanoseconds in a second. -/
def nanosPerSecond : Nat := 1000000000

/-- The number of days from 1970-01-01 to a date of the Gregorian calendar. Years are counted
from March, so that the leap day comes last. -/
def dayOfDate (year month day : Int) : Int :=
  let y := if month ≤ 2 then year - 1 else year
  let era := y.fdiv 400
  let yearOfEra := y - era * 400
  let monthFromMarch := (month + 9) % 12
  let dayOfYear := (153 * monthFromMarch + 2) / 5 + day - 1
  let dayOfEra := yearOfEra * 365 + yearOfEra / 4 - yearOfEra / 100 + dayOfYear
  era * 146097 + dayOfEra - 719468

/-- The date of a day number, as year, month and day of the month. -/
def dateOfDay (days : Int) : Int × Int × Int :=
  let z := days + 719468
  let era := z.fdiv 146097
  let dayOfEra := z - era * 146097
  let yearOfEra := (dayOfEra - dayOfEra / 1460 + dayOfEra / 36524 - dayOfEra / 146096) / 365
  let dayOfYear := dayOfEra - (365 * yearOfEra + yearOfEra / 4 - yearOfEra / 100)
  let monthFromMarch := (5 * dayOfYear + 2) / 153
  let day := dayOfYear - (153 * monthFromMarch + 2) / 5 + 1
  let month := if monthFromMarch < 10 then monthFromMarch + 3 else monthFromMarch - 9
  let year := yearOfEra + era * 400
  (if month ≤ 2 then year + 1 else year, month, day)

/-- A leap year of the Gregorian calendar. -/
def isLeapYear (year : Int) : Bool :=
  year % 4 == 0 && (year % 100 != 0 || year % 400 == 0)

/-- The number of days in a month. -/
def daysInMonth (year : Int) (month : Nat) : Nat :=
  match month with
  | 2 => if isLeapYear year then 29 else 28
  | 4 | 6 | 9 | 11 => 30
  | _ => 31

/-- Whole seconds of the time of day from `earlier` to `later`, the nanoseconds left over rounded
down into the count. A leap second between the two counts as a second of its own. -/
def secondsBetween (earlier later : Instant) : Int × Int :=
  let plain : Int := (later.second : Int) - earlier.second
  let counted :=
    if earlier.second < later.second && nanosPerSecond ≤ earlier.nanos then plain + 1
    else if later.second < earlier.second && nanosPerSecond ≤ later.nanos then plain - 1
    else plain
  let nanos : Int := (later.nanos : Int) - earlier.nanos
  (counted + nanos.fdiv nanosPerSecond, nanos.fmod nanosPerSecond)

/-- The number of whole days from `earlier` to `later`, zero when `later` comes first. -/
def daysSince (later earlier : Instant) : Nat :=
  let (seconds, _) := secondsBetween earlier later
  let total := (later.day - earlier.day) * 86400 + seconds
  (total / 86400).toNat

end Instant

end PackageRisk
