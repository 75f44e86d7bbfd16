import PackageRisk.Instant
import PackageRisk.Text.Digits
import PackageRisk.Text.Letters

/-!
# Written instants

The interchange form `2024-03-01T12:00:00.5Z`. Reading takes any offset from UTC and any number
of fraction digits, of which nine count; writing gives UTC and the fewest fraction digits, in
steps of three, that are exact. A second numbered sixty is a leap second.
-/

namespace PackageRisk.Instant

/-- Exactly `count` ASCII digits at the front, as a number, and what follows them. -/
def number? : (count value : Nat) → List Char → Option (Nat × List Char)
  | 0, value, s => some (value, s)
  | count + 1, value, c :: rest =>
    if c.isDigit then number? count (value * 10 + (c.toNat - 48)) rest else none
  | _ + 1, _, [] => none

/-- The fraction of a second in nanoseconds. Digits after the ninth are read over. -/
def fraction? : List Char → Option (Nat × List Char)
  | '.' :: rest =>
    let digits := rest.takeWhile Char.isDigit
    if digits.isEmpty then none
    else
      let counted := Text.decimalValue (digits.take 9)
      some (counted * Nat.pow 10 (9 - (digits.take 9).length), rest.dropWhile Char.isDigit)
  | s => some (0, s)

/-- The offset from UTC in seconds, up to the end of the text and less than a day. -/
def offset? : List Char → Option Int
  | ['Z'] | ['z'] => some 0
  | sign :: rest => do
    let factor : Int ←
      if sign = '+' then some 1 else if sign = '-' ∨ sign = '\u2212' then some (-1) else none
    let (hours, rest) ← number? 2 0 rest
    let rest ← Text.dropLeading? rest [':']
    let (minutes, rest) ← number? 2 0 rest
    let seconds := hours * 3600 + minutes * 60
    if rest.isEmpty && minutes < 60 && seconds < 86400 then some (factor * seconds) else none
  | [] => none

/-- The instant of a date and time of day at an offset from UTC. -/
def ofLocal (day : Int) (second nanos : Nat) (offset : Int) : Instant :=
  let seconds := (second : Int) - offset
  ⟨day + seconds.fdiv 86400, (seconds.fmod 86400).toNat, nanos⟩

/-- Read a written instant. -/
def parse? (text : String) : Option Instant := do
  let (year, s) ← number? 4 0 text.toList
  let (month, s) ← number? 2 0 (← Text.dropLeading? s ['-'])
  let (day, s) ← number? 2 0 (← Text.dropLeading? s ['-'])
  let s ←
    match s with
    | 'T' :: rest | 't' :: rest | ' ' :: rest => some rest
    | _ => none
  let (hour, s) ← number? 2 0 s
  let (minute, s) ← number? 2 0 (← Text.dropLeading? s [':'])
  let (second, s) ← number? 2 0 (← Text.dropLeading? s [':'])
  let (nanos, s) ← fraction? s
  let offset ← offset? s
  if 1 ≤ month && month ≤ 12 && 1 ≤ day && day ≤ daysInMonth year month &&
      hour < 24 && minute < 60 && second ≤ 60 then
    let (second, nanos) := if second = 60 then (59, nanos + nanosPerSecond) else (second, nanos)
    some (ofLocal (dayOfDate year month day) (hour * 3600 + minute * 60 + second) nanos offset)
  else none

/-- A number with zeros in front up to a width. -/
def padded (width n : Nat) : List Char :=
  let digits := (toString n).toList
  List.replicate (width - digits.length) '0' ++ digits

/-- A year; those without four digits carry a sign. -/
def yearText (year : Int) : List Char :=
  if year < 0 then '-' :: padded 4 (-year).toNat
  else if 9999 < year then '+' :: padded 4 year.toNat
  else padded 4 year.toNat

/-- The fraction digits of some nanoseconds. -/
def fractionText (nanos : Nat) : List Char :=
  if nanos = 0 then []
  else if nanos % 1000000 = 0 then '.' :: padded 3 (nanos / 1000000)
  else if nanos % 1000 = 0 then '.' :: padded 6 (nanos / 1000)
  else '.' :: padded 9 nanos

/-- The written form in UTC. -/
def display (t : Instant) : String :=
  let (year, month, day) := dateOfDay t.day
  let second := t.second % 60 + t.nanos / nanosPerSecond
  String.ofList <|
    yearText year ++ '-' :: padded 2 month.toNat ++ '-' :: padded 2 day.toNat ++
      'T' :: padded 2 (t.second / 3600) ++ ':' :: padded 2 (t.second / 60 % 60) ++
      ':' :: padded 2 second ++ fractionText (t.nanos % nanosPerSecond) ++ ['Z']

end PackageRisk.Instant
