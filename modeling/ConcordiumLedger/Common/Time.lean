import ConcordiumLedger.Common.NumberHelpers

/-!
# Common.Time

Conversion of seconds since the epoch to a calendar time, and its display text (`time.c`). The
arithmetic is that of C: division and remainder truncate towards zero.
-/

namespace ConcordiumLedger

/-- The local copy of `struct tm`. -/
structure Tm where
  sec : Int
  min : Int
  hour : Int
  mday : Int
  mon : Int
  year : Int
  wday : Int
  yday : Int
deriving DecidableEq, Inhabited

/-- 2000-03-01, immediately after the 29th of February of a year divisible by 400. -/
def leapoch : Int := 946684800 + 86400 * (31 + 29)

def daysPer400Y : Int := 365 * 400 + 97
def daysPer100Y : Int := 365 * 100 + 24
def daysPer4Y : Int := 365 * 4 + 1

/-- The lengths of the months, from March on. -/
def daysInMonth : List Int := [31, 30, 31, 30, 31, 31, 30, 31, 30, 31, 31, 29]

/-- The loop over the months: how many of them have passed, and the days left after them. -/
def monthsLoop : List Int → Int → Int → Int × Int
  | [], months, remdays => (months, remdays)
  | days :: rest, months, remdays =>
    if days ≤ remdays then monthsLoop rest (months + 1) (remdays - days) else (months, remdays)

def intMax : Int := 2 ^ 31 - 1
def intMin : Int := -2 ^ 31

/-- Days since `leapoch`, and seconds into the day. -/
def splitDays (secs : Int) : Int × Int :=
  let days := secs.tdiv 86400
  let remsecs := secs.tmod 86400
  if remsecs < 0 then (days - 1, remsecs + 86400) else (days, remsecs)

/-- Periods of 400 years, and days into the period. -/
def splitQcCycles (days : Int) : Int × Int :=
  let qcCycles := days.tdiv daysPer400Y
  let remdays := days.tmod daysPer400Y
  if remdays < 0 then (qcCycles - 1, remdays + daysPer400Y) else (qcCycles, remdays)

/-- The number of periods of `length` days; the last day of a longer period is counted to the
period before. -/
def cycles (remdays length most : Int) : Int :=
  let n := remdays.tdiv length
  if n = most then n - 1 else n

/-- `none` stands for the return value `-1`. -/
def secondsToTm (t : Int) : Option Tm :=
  if t < intMin * 31622400 ∨ t > intMax * 31622400 then none
  else
    let (days, remsecs) := splitDays (t - leapoch)
    let wday := (3 + days).tmod 7
    let wday := if wday < 0 then wday + 7 else wday
    let (qcCycles, remdays) := splitQcCycles days
    let cCycles := cycles remdays daysPer100Y 4
    let remdays := remdays - cCycles * daysPer100Y
    let qCycles := cycles remdays daysPer4Y 25
    let remdays := remdays - qCycles * daysPer4Y
    let remyears := cycles remdays 365 4
    let remdays := remdays - remyears * 365
    let leap : Int := if remyears = 0 ∧ (qCycles ≠ 0 ∨ cCycles = 0) then 1 else 0
    let yday := remdays + 31 + 28 + leap
    let yday := if yday ≥ 365 + leap then yday - (365 + leap) else yday
    let years := remyears + 4 * qCycles + 100 * cCycles + 400 * qcCycles
    let (months, remdays) := monthsLoop daysInMonth 0 remdays
    if years + 100 > intMax ∨ years + 100 < intMin then none
    else
      let (mon, year) :=
        if months + 2 ≥ 12 then (months + 2 - 12, years + 100 + 1) else (months + 2, years + 100)
      some {
        year, mon, mday := remdays + 1, wday, yday
        hour := remsecs.tdiv 3600
        min := (remsecs.tdiv 60).tmod 60
        sec := remsecs.tmod 60 }

def prefixWithZero (value : Int) : List UInt8 := if value < 10 then [48] else []

/-- A number of the date, with a zero in front of a single digit. -/
def twoDigits (dstLength : Nat) (text : List UInt8) (value : Int) : Except Error (List UInt8) := do
  let text := text ++ prefixWithZero value
  let number ← numberToText (subSize dstLength text.length) (.ofInt value)
  return text ++ number

def timeToDisplayText (time : Tm) (dstLength : Nat) : Except Error (List UInt8) := do
  let text ← numberToText dstLength (.ofInt (time.year + 1900))
  let text ← twoDigits dstLength (text ++ [45]) (time.mon + 1)
  let text ← twoDigits dstLength (text ++ [45]) time.mday
  let text ← twoDigits dstLength (text ++ [32]) time.hour
  let text ← twoDigits dstLength (text ++ [58]) time.min
  let text := text ++ [58] ++ prefixWithZero time.sec
  let seconds ← bin2dec (subSize dstLength text.length) (.ofInt time.sec)
  return text ++ seconds

end ConcordiumLedger
