import MergeTrial.Text.Column

/-! Moments in universal time and their written forms, in the proleptic Gregorian calendar. -/

namespace MergeTrial

/-- Seconds since the start of 1970 and nanoseconds within the second; a leap second has more
than a second's worth of them. -/
structure Moment where
  seconds : Int
  nanos : Nat
  deriving DecidableEq, Inhabited

structure Date where
  year : Int
  month : Nat
  day : Nat
  deriving DecidableEq

namespace Date

/-- The date this many days after the first of January 1970. Years are counted from March, in
eras of 400, so that a leap day ends its year. -/
def ofDays (days : Int) : Date :=
  let shifted := days + 719468
  let era := shifted.fdiv 146097
  let dayOfEra := (shifted.fmod 146097).toNat
  let yearOfEra := (dayOfEra - dayOfEra / 1460 + dayOfEra / 36524 - dayOfEra / 146096) / 365
  let dayOfYear := dayOfEra - (365 * yearOfEra + yearOfEra / 4 - yearOfEra / 100)
  let march := (5 * dayOfYear + 2) / 153
  let month := if march < 10 then march + 3 else march - 9
  { year := era * 400 + yearOfEra + (if month ≤ 2 then 1 else 0)
    month := month
    day := dayOfYear - (153 * march + 2) / 5 + 1 }

def yearText (year : Int) : String :=
  let digits := Text.zeroPadded 4 year.natAbs
  if year < 0 then "-" ++ digits
  else if 9999 < year then "+" ++ digits
  else digits

def text (d : Date) : String :=
  yearText d.year ++ "-" ++ Text.zeroPadded 2 d.month ++ "-" ++ Text.zeroPadded 2 d.day

end Date

namespace Moment

def date (t : Moment) : Date := .ofDays (t.seconds.fdiv 86400)

def clock (t : Moment) : String :=
  let second := (t.seconds.fmod 86400).toNat
  Text.zeroPadded 2 (second / 3600) ++ ":" ++ Text.zeroPadded 2 (second / 60 % 60) ++ ":"
    ++ Text.zeroPadded 2 (second % 60 + t.nanos / 1000000000)

def fraction (t : Moment) : String :=
  let nanos := t.nanos % 1000000000
  if nanos = 0 then ""
  else if nanos % 1000000 = 0 then "." ++ Text.zeroPadded 3 (nanos / 1000000)
  else if nanos % 1000 = 0 then "." ++ Text.zeroPadded 6 (nanos / 1000)
  else "." ++ Text.zeroPadded 9 nanos

def plain (t : Moment) : String := t.date.text ++ " " ++ t.clock ++ " UTC"

def stamp (t : Moment) : String := t.date.text ++ "T" ++ t.clock ++ t.fraction ++ "Z"

end Moment
end MergeTrial
