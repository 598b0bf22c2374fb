import ClassCoverage.Decimal

/-! Moments as dates and times of day in universal time, by the Gregorian calendar in both
directions from 1970. -/
namespace ClassCoverage.Report.Calendar

structure Date where
  year : Int
  month : Nat
  day : Nat
  deriving DecidableEq, Repr

/-- The date a number of days after 1 March of the year 0, by eras of 400 years. -/
def ofDays (days : Int) : Date :=
  let era := days.fdiv 146097
  let dayOfEra := (days.fmod 146097).toNat
  let yearOfEra := (dayOfEra - dayOfEra / 1460 + dayOfEra / 36524 - dayOfEra / 146096) / 365
  let dayOfYear := dayOfEra - (365 * yearOfEra + yearOfEra / 4 - yearOfEra / 100)
  let shifted := (5 * dayOfYear + 2) / 153
  let month := if shifted < 10 then shifted + 3 else shifted - 9
  { year := yearOfEra + era * 400 + (if month ≤ 2 then 1 else 0)
    month := month
    day := dayOfYear - (153 * shifted + 2) / 5 + 1 }

/-- Four digits, with a sign before the years outside 0 to 9999. -/
def yearText (year : Int) : String :=
  let digits := Decimal.padded 4 year.natAbs
  if year < 0 then "-" ++ digits else if 9999 < year then "+" ++ digits else digits

/-- Writes a moment given in milliseconds after the start of 1970, to the second. -/
def text (moment : Int) : String :=
  let seconds := moment.fdiv 1000
  let date := ofDays (seconds.fdiv 86400 + 719468)
  let time := (seconds.fmod 86400).toNat
  yearText date.year ++ "-" ++ Decimal.padded 2 date.month ++ "-" ++
    Decimal.padded 2 date.day ++ " " ++
    Decimal.padded 2 (time / 3600) ++ ":" ++ Decimal.padded 2 (time / 60 % 60) ++ ":" ++
    Decimal.padded 2 (time % 60) ++ " UTC"

end ClassCoverage.Report.Calendar
