/-
# Points in time

A point in time is a number of seconds since the beginning of the year 1970 and
a part of a second in nanoseconds, which is more than a second within a leap
second.  It is written as a date and a time of day without offset, with no
decimals of a second or three, six or nine of them, as many as are needed; a leap
second is one more second of its minute.

The calendar is counted in years that begin with March, so that a leap day is
the last day of its year, and in eras of 400 years, all of which have the same
146097 days.
-/

import PreconditionMining.Decimal.Fixed

namespace PreconditionMining

/-- A point in time. -/
structure Timestamp where
  seconds : Int
  nanoseconds : Nat
deriving DecidableEq

/-- A day of the calendar. -/
structure Date where
  year : Int
  month : Nat
  day : Nat
deriving DecidableEq

namespace Date

/-- The days from the first of March of the year 0 to the first of January 1970. -/
def daysBefore1970 : Int := 719468

/-- The date of a day, counted from the first of January 1970. -/
def ofDay (day : Int) : Date :=
  let z := day + daysBefore1970
  let era := z.fdiv 146097
  let dayOfEra := (z.fmod 146097).toNat
  let yearOfEra :=
    (dayOfEra - dayOfEra / 1460 + dayOfEra / 36524 - dayOfEra / 146096) / 365
  let dayOfYear := dayOfEra - (365 * yearOfEra + yearOfEra / 4 - yearOfEra / 100)
  let monthFromMarch := (5 * dayOfYear + 2) / 153
  let month := if monthFromMarch < 10 then monthFromMarch + 3 else monthFromMarch - 9
  let year := (yearOfEra : Int) + era * 400
  { year := if month ≤ 2 then year + 1 else year
    month
    day := dayOfYear - (153 * monthFromMarch + 2) / 5 + 1 }

/-- A year in at least four digits, with a sign where it has other than four. -/
def yearText (year : Int) : String :=
  if 0 ≤ year ∧ year ≤ 9999 then Fixed.padded 4 year.toNat
  else (if year < 0 then "-" else "+") ++ Fixed.padded 4 year.natAbs

/-- A date in digits. -/
def text (d : Date) : String :=
  yearText d.year ++ "-" ++ Fixed.padded 2 d.month ++ "-" ++ Fixed.padded 2 d.day

end Date

namespace Timestamp

/-- The decimals of a second, as many as are needed. -/
def decimals (nanoseconds : Nat) : String :=
  if nanoseconds = 0 then ""
  else if nanoseconds % 1000000 = 0 then "." ++ Fixed.padded 3 (nanoseconds / 1000000)
  else if nanoseconds % 1000 = 0 then "." ++ Fixed.padded 6 (nanoseconds / 1000)
  else "." ++ Fixed.padded 9 nanoseconds

/-- A point in time in digits. -/
def text (t : Timestamp) : String :=
  let second := (t.seconds.fmod 86400).toNat
  let leap := t.nanoseconds / 1000000000
  (Date.ofDay (t.seconds.fdiv 86400)).text ++ "T" ++ Fixed.padded 2 (second / 3600) ++ ":" ++
    Fixed.padded 2 (second / 60 % 60) ++ ":" ++ Fixed.padded 2 (second % 60 + leap) ++
    decimals (t.nanoseconds % 1000000000) ++ "Z"

/-- Leap days are the days before the first of March. -/
example : Date.ofDay 11016 = ⟨2000, 2, 29⟩ ∧ Date.ofDay 0 = ⟨1970, 1, 1⟩ ∧
    Date.ofDay (-1) = ⟨1969, 12, 31⟩ ∧ Date.ofDay 47540 = ⟨2100, 2, 28⟩ ∧
    Date.ofDay 47541 = ⟨2100, 3, 1⟩ := by decide

end Timestamp

end PreconditionMining
