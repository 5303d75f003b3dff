/-!
# Calendar dates

Seconds since the start of 1970 as a date and time of day in the proleptic Gregorian calendar, and
the text of RFC 3339 in universal time.
-/

namespace TokenAuthority.Calendar

structure DateTime where
  year : Int
  month : Nat
  day : Nat
  hour : Nat
  minute : Nat
  second : Nat
deriving DecidableEq

/-- Days in four hundred years, after which the calendar repeats. -/
def daysPerEra : Int := 146097

/-- The date of a day counted from the start of 1970. Years are counted from March, so that the leap
day is the last of its year. -/
def civil (days : Int) : Int × Nat × Nat :=
  let shifted := days + 719468
  let era := shifted / daysPerEra
  let dayOfEra := (shifted % daysPerEra).toNat
  let yearOfEra :=
    (dayOfEra - dayOfEra / 1460 + dayOfEra / 36524 - dayOfEra / 146096) / 365
  let dayOfYear := dayOfEra - (365 * yearOfEra + yearOfEra / 4 - yearOfEra / 100)
  let shiftedMonth := (5 * dayOfYear + 2) / 153
  let day := dayOfYear - (153 * shiftedMonth + 2) / 5 + 1
  let month := if shiftedMonth < 10 then shiftedMonth + 3 else shiftedMonth - 9
  let year := era * 400 + yearOfEra + (if month ≤ 2 then 1 else 0)
  (year, month, day)

/-- The date and time of a number of seconds since the start of 1970. -/
def ofUnix (seconds : Int) : DateTime :=
  let (year, month, day) := civil (seconds / 86400)
  let rest := (seconds % 86400).toNat
  ⟨year, month, day, rest / 3600, rest / 60 % 60, rest % 60⟩

/-- A number in decimal with leading zeros up to a width. -/
def padded (width n : Nat) : String :=
  let ds := Nat.toDigits 10 n
  String.ofList (List.replicate (width - ds.length) '0' ++ ds)

/-- A year of four digits; one that needs more, or lies before the year zero, has a sign. -/
def yearText (year : Int) : String :=
  if year < 0 then "-" ++ padded 4 year.natAbs
  else if 9999 < year then "+" ++ padded 4 year.natAbs
  else padded 4 year.natAbs

/-- The text of RFC 3339. -/
def DateTime.text (t : DateTime) : String :=
  yearText t.year ++ "-" ++ padded 2 t.month ++ "-" ++ padded 2 t.day ++ "T"
    ++ padded 2 t.hour ++ ":" ++ padded 2 t.minute ++ ":" ++ padded 2 t.second ++ "+00:00"

example : (ofUnix 951782400).text = "2000-02-29T00:00:00+00:00" := by cbv
example : (ofUnix (-62135596800)).text = "0001-01-01T00:00:00+00:00" := by cbv
example : (ofUnix 253402300800).text = "+10000-01-01T00:00:00+00:00" := by cbv

end TokenAuthority.Calendar
