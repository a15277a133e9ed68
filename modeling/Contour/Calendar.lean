import Contour.Text.Decimal

/-!
# Dates

The date and the time of day of a number of seconds since the start of the year 1970, in the
calendar of the Gregorian reform extended to all years. Years are counted from March on, so that the
day that leap years add comes last, and in cycles of 400 years, which all have the same number of
days. Dates start at `firstSecond`; the few words below it are taken for times at the far end.
-/

namespace Contour.Calendar

/-- The days in 400 years. -/
def cycleDays : Int := 146097

/-- The days from the first of March of the year zero to the start of the year 1970. -/
def epochDays : Int := 719468

/-- A date. -/
structure Date where
  year : Int
  month : Int
  day : Int
deriving DecidableEq, Repr

/-- The date of a number of days since the start of the year 1970. -/
def dateOfDays (days : Int) : Date :=
  let z := days + epochDays
  let cycle := z.fdiv cycleDays
  let dayOfCycle := z.fmod cycleDays
  let yearOfCycle :=
    (dayOfCycle - dayOfCycle / 1460 + dayOfCycle / 36524 - dayOfCycle / 146096) / 365
  let dayOfYear := dayOfCycle - (365 * yearOfCycle + yearOfCycle / 4 - yearOfCycle / 100)
  let monthFromMarch := (5 * dayOfYear + 2) / 153
  let day := dayOfYear - (153 * monthFromMarch + 2) / 5 + 1
  let month := if monthFromMarch < 10 then monthFromMarch + 3 else monthFromMarch - 9
  ⟨yearOfCycle + cycle * 400 + (if month ≤ 2 then 1 else 0), month, day⟩

/-- A number with at least `width` digits. -/
def padded (width : Nat) (n : Int) : List Char :=
  (if n < 0 then ['-'] else []) ++ Decimal.zeroPadded width (Decimal.nat n.natAbs)

/-- The first second with a date: the first of March of the year -292277022400 begins. -/
def firstSecond : Int := -9223372028741760000

/-- The time that a word of seconds stands for, counted on by the number of all words if it is
before the first second. -/
def ofWord (seconds : Int) : Int :=
  if seconds < firstSecond then seconds + 18446744073709551616 else seconds

/-- The date and time of a word of seconds since the start of the year 1970. -/
def text (seconds : Int) : String :=
  let seconds := ofWord seconds
  let date := dateOfDays (seconds.fdiv 86400)
  let time := seconds.fmod 86400
  String.ofList (padded 4 date.year ++ '-' :: padded 2 date.month ++ '-' :: padded 2 date.day ++
    ' ' :: padded 2 (time / 3600) ++ ':' :: padded 2 (time / 60 % 60) ++
    ':' :: padded 2 (time % 60))

end Contour.Calendar
