namespace StorageTrials

/-- A moment, in seconds from the start of 1970 and nanoseconds. A leap second continues the second
before it: its nanoseconds are a thousand million or more. -/
structure Timestamp where
  seconds : Int
  nanos : Nat
deriving DecidableEq, Repr

structure CivilDate where
  year : Int
  month : Nat
  day : Nat
deriving DecidableEq, Repr

namespace CivilDate

def isLeapYear (year : Int) : Bool := year % 4 = 0 && (year % 100 ≠ 0 || year % 400 = 0)

def daysInMonth (year : Int) : Nat → Nat
  | 2 => if isLeapYear year then 29 else 28
  | 4 | 6 | 9 | 11 => 30
  | _ => 31

def isValid (d : CivilDate) : Bool :=
  1 ≤ d.month && d.month ≤ 12 && 1 ≤ d.day && d.day ≤ daysInMonth d.year d.month

def cycle : Int := 146097

def epoch : Int := 719468

def toDays (d : CivilDate) : Int :=
  let year := if d.month ≤ 2 then d.year - 1 else d.year
  let yearOfCycle := year % 400
  let dayOfYear : Int := (153 * ((d.month + 9) % 12) + 2) / 5 + d.day - 1
  let dayOfCycle := yearOfCycle * 365 + yearOfCycle / 4 - yearOfCycle / 100 + dayOfYear
  year / 400 * cycle + dayOfCycle - epoch

def ofDays (days : Int) : CivilDate :=
  let days := days + epoch
  let dayOfCycle := days % cycle
  let yearOfCycle :=
    (dayOfCycle - dayOfCycle / 1460 + dayOfCycle / 36524 - dayOfCycle / 146096) / 365
  let dayOfYear := dayOfCycle - (365 * yearOfCycle + yearOfCycle / 4 - yearOfCycle / 100)
  let monthFromMarch := (5 * dayOfYear + 2) / 153
  let month := if monthFromMarch < 10 then monthFromMarch + 3 else monthFromMarch - 9
  { year := yearOfCycle + days / cycle * 400 + if month ≤ 2 then 1 else 0
    month := month.toNat
    day := (dayOfYear - (153 * monthFromMarch + 2) / 5 + 1).toNat }

end CivilDate

namespace Timestamp

def secondsPerDay : Int := 86400

def date (t : Timestamp) : CivilDate := .ofDays (t.seconds / secondsPerDay)

def secondOfDay (t : Timestamp) : Nat := (t.seconds % secondsPerDay).toNat

def firstYear : Int := -262143

def lastYear : Int := 262142

def isInRange (t : Timestamp) : Bool := firstYear ≤ t.date.year && t.date.year ≤ lastYear

end Timestamp

end StorageTrials
