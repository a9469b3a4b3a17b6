/-
The text of a moment.

Moments are milliseconds since the first day of 1970; their text is a date and
a time of day in UTC, `2024-02-29T12:30:00.25Z`.

* `CivilDate.ofDays`: the date of a day of the proleptic Gregorian calendar.
* `timestampText`: the text of a moment.
-/

namespace Verdict

/-- A date of the Gregorian calendar. -/
structure CivilDate where
  year : Nat
  month : Nat
  day : Nat
  deriving DecidableEq, Repr

namespace CivilDate

/-- The number of days of an era of 400 years. -/
def daysPerEra : Nat := 146097

/-- The number of days from the first of March of year 0 to the first day of 1970. -/
def daysBefore1970 : Nat := 719468

/-- The date of a day, counted from the first day of 1970.  Years are counted
from March, so that the day of a leap year comes last. -/
def ofDays (days : Nat) : CivilDate :=
  let days := days + daysBefore1970
  let era := days / daysPerEra
  let dayOfEra := days % daysPerEra
  let yearOfEra := (dayOfEra - dayOfEra / 1460 + dayOfEra / 36524 - dayOfEra / 146096) / 365
  let dayOfYear := dayOfEra - (365 * yearOfEra + yearOfEra / 4 - yearOfEra / 100)
  let month := (5 * dayOfYear + 2) / 153
  let day := dayOfYear - (153 * month + 2) / 5 + 1
  let year := yearOfEra + era * 400
  if month < 10 then ⟨year, month + 3, day⟩ else ⟨year + 1, month - 9, day⟩

end CivilDate

/-- A number with at least so many digits. -/
def paddedNat (width n : Nat) : String :=
  let digits := toString n
  String.ofList (List.replicate (width - digits.length) '0') ++ digits

/-- The fraction of a second, without zeros at the end. -/
def fractionText (millis : Nat) : String :=
  if millis = 0 then ""
  else
    let digits := (paddedNat 3 millis).toList.reverse.dropWhile (· == '0')
    "." ++ String.ofList digits.reverse

/-- The text of a moment. -/
def timestampText (millis : Nat) : String :=
  let seconds := millis / 1000
  let date := CivilDate.ofDays (seconds / 86400)
  let time := seconds % 86400
  paddedNat 4 date.year ++ "-" ++ paddedNat 2 date.month ++ "-" ++ paddedNat 2 date.day ++ "T" ++
    paddedNat 2 (time / 3600) ++ ":" ++ paddedNat 2 (time / 60 % 60) ++ ":" ++
    paddedNat 2 (time % 60) ++ fractionText (millis % 1000) ++ "Z"

end Verdict
