/-!
# Dates and moments

Dates of the Gregorian calendar, extended to all years that a date may have, with year 0 before year
1 and negative years before that. Besides the year, month and day a date has a day of the year, a
day number that counts all days, a day of the week, and a week by three ways of counting.

Days of the week are counted from Monday, which is 0.

A moment is what a clock shows: a date, a time of day and the distance from universal time.
-/

namespace DeviceMessages.Time

def isLeap (year : Int) : Bool :=
  year % 4 == 0 && (year % 100 != 0 || year % 400 == 0)

def yearLength (year : Int) : Nat :=
  if isLeap year then 366 else 365

def monthLengths (year : Int) : List Nat :=
  [31, if isLeap year then 29 else 28, 31, 30, 31, 30, 31, 31, 30, 31, 30, 31]

/-- The number of days from the first day of year 1 to the first day of a year. -/
def daysBeforeYear (year : Int) : Int :=
  let past := year - 1
  365 * past + past / 4 - past / 100 + past / 400

/-- The year in which a day lies, for days counted from 1 on the first day of year 1. Every 400
years have 146097 days; within them the centuries have 36524 and every four years 1461, except that
the last of each such part is a day longer. -/
def yearOfDayNumber (n : Int) : Int :=
  let cycle := (n - 1) / 146097
  let inCycle := (n - 1) % 146097
  let century := if inCycle / 36524 = 4 then 3 else inCycle / 36524
  let inCentury := inCycle - 36524 * century
  let inFourYears := inCentury % 1461
  let year := if inFourYears / 365 = 4 then 3 else inFourYears / 365
  400 * cycle + 100 * century + 4 * (inCentury / 1461) + year + 1

/-- The month and the day of the month of a day of the year, given the lengths of the months. -/
def monthAndDay : List Nat → Nat → Nat × Nat
  | [], n => (1, n)
  | length :: lengths, n =>
    if n ≤ length then (1, n)
    else
      let (month, day) := monthAndDay lengths (n - length)
      (month + 1, day)

def minYear : Int := -262143

def maxYear : Int := 262142

structure Date where
  year : Int
  month : Nat
  day : Nat
deriving DecidableEq

namespace Date

/-- The date with the given year, month and day, if the calendar has it. -/
def ofYearMonthDay? (year : Int) (month day : Nat) : Option Date :=
  let length := ((monthLengths year)[month - 1]?).getD 0
  if minYear ≤ year ∧ year ≤ maxYear ∧ 1 ≤ month ∧ 1 ≤ day ∧ day ≤ length then
    some ⟨year, month, day⟩
  else none

/-- The date with the given year and day of the year, if the year has it. -/
def ofYearDay? (year : Int) (dayOfYear : Nat) : Option Date :=
  if minYear ≤ year ∧ year ≤ maxYear ∧ 1 ≤ dayOfYear ∧ dayOfYear ≤ yearLength year then
    let (month, day) := monthAndDay (monthLengths year) dayOfYear
    some ⟨year, month, day⟩
  else none

def ofDayNumber? (n : Int) : Option Date :=
  let year := yearOfDayNumber n
  ofYearDay? year (n - daysBeforeYear year).toNat

/-- The day of the year, from 1. -/
def dayOfYear (d : Date) : Nat :=
  ((monthLengths d.year).take (d.month - 1)).foldl (· + ·) d.day

/-- The number of the day, counted from 1 on the first day of year 1. -/
def dayNumber (d : Date) : Int :=
  daysBeforeYear d.year + d.dayOfYear

/-- The day of the week of a day number. The first day of year 1 is a Monday. -/
def weekdayOf (dayNumber : Int) : Nat :=
  ((dayNumber - 1) % 7).toNat

def weekday (d : Date) : Nat :=
  weekdayOf d.dayNumber

/-- The quarter of the year, from 1. -/
def quarter (d : Date) : Nat :=
  (d.month + 2) / 3

/-- The number of days since the last day of the week `first`. -/
def daysSince (first weekday : Nat) : Nat :=
  (weekday + 7 - first) % 7

/-- The week of the year when weeks begin on the day `first`. Week 1 begins with the first such day,
and the days before it are in week 0. -/
def weekFrom (first : Nat) (d : Date) : Nat :=
  (d.dayOfYear + 6 - daysSince first d.weekday) / 7

/-- The week in the count where a week begins on Monday and belongs to the year of its Thursday. -/
structure IsoWeek where
  year : Int
  week : Nat
deriving DecidableEq

/-- The week of a date by its Thursday, which may lie in the year before or the year after. -/
def isoWeek (d : Date) : IsoWeek :=
  let thursday : Int := d.dayOfYear - d.weekday + 3
  if thursday < 1 then
    ⟨d.year - 1, ((thursday + yearLength (d.year - 1) - 1) / 7 + 1).toNat⟩
  else if yearLength d.year < thursday then ⟨d.year + 1, 1⟩
  else ⟨d.year, ((thursday - 1) / 7 + 1).toNat⟩

/-- The date with a given week by its Thursday and day of the week. The fourth of January is always
in week 1. -/
def ofIsoWeek? (w : IsoWeek) (weekday : Nat) : Option Date :=
  let fourth := daysBeforeYear w.year + 4
  ofDayNumber? (fourth - weekdayOf fourth + 7 * (w.week - 1 : Int) + weekday)

/-- The date in a week of the year that begins on the day `first`. -/
def ofWeekFrom? (first : Nat) (year : Int) (week weekday : Nat) : Option Date :=
  let firstWeek : Int := 1 + daysSince (weekdayOf (daysBeforeYear year + 1)) first
  let dayOfYear := firstWeek + 7 * (week - 1 : Int) + daysSince first weekday
  ofYearDay? year dayOfYear.toNat

end Date

example : (Date.mk 2024 2 29).weekday = 3 ∧ (Date.mk 2024 2 29).dayOfYear = 60 := by decide
example : (Date.mk 2021 1 3).isoWeek = ⟨2020, 53⟩ := by decide
example : Date.ofDayNumber? 719163 = some ⟨1970, 1, 1⟩ := by decide
example : Date.ofIsoWeek? ⟨2020, 53⟩ 4 = some ⟨2021, 1, 1⟩ := by decide

/-! ## Moments -/

/-- A time of day. The second 60 is a leap second. -/
structure TimeOfDay where
  hour : Nat
  minute : Nat
  second : Nat
  nanosecond : Nat
deriving DecidableEq

/-- A date and a time of day, without a time zone. -/
structure DateTime where
  date : Date
  time : TimeOfDay
deriving DecidableEq

/-- The day number of the first of January 1970, from which timestamps count. -/
def epochDay : Int := 719163

/-- The number of seconds since the beginning of 1970. A leap second has that of the second before.
-/
def DateTime.timestamp (t : DateTime) : Int :=
  let second := if t.time.second = 60 then 59 else t.time.second
  86400 * (t.date.dayNumber - epochDay) + 3600 * t.time.hour + 60 * t.time.minute + second

/-- The date and time of a timestamp, if its year is one that a date may have. -/
def DateTime.ofTimestamp? (seconds : Int) (nanosecond : Nat) : Option DateTime :=
  let inDay := (seconds % 86400).toNat
  let time : TimeOfDay := ⟨inDay / 3600, inDay / 60 % 60, inDay % 60, nanosecond⟩
  (Date.ofDayNumber? (seconds / 86400 + epochDay)).map (⟨·, time⟩)

/-- What a clock shows, and by how many seconds it is ahead of universal time. -/
structure Moment where
  dateTime : DateTime
  offset : Int
deriving DecidableEq

/-- The beginning of 1970 in universal time. -/
def Moment.epoch : Moment :=
  ⟨⟨⟨1970, 1, 1⟩, ⟨0, 0, 0, 0⟩⟩, 0⟩

/-- The moment that is a number of nanoseconds after the beginning of 1970, on a clock that is ahead
of universal time by `offset` seconds. Clocks do not show leap seconds. -/
def Moment.ofNanoseconds? (nanoseconds offset : Int) : Option Moment :=
  (DateTime.ofTimestamp? (nanoseconds / 1000000000 + offset) (nanoseconds % 1000000000).toNat).map
    (⟨·, offset⟩)

/-- The number of seconds since the beginning of 1970 in universal time. -/
def Moment.timestamp (m : Moment) : Int :=
  m.dateTime.timestamp - m.offset

end DeviceMessages.Time
